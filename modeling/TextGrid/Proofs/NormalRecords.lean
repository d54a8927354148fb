import Mathlib.Data.List.Pairwise
import TextGrid.Proofs.Paths
import TextGrid.Proofs.PlainCells

/-!
# Cells of normalised records

Normalising a mapping makes texts of its keys. A column with a path, and one with neither path nor
name, shows the same in a mapping and in its normal form. A column with only a name looks for a key
that equals the name, and so passes by a number that merely looks like it, which normalising turns
into the name; its cells differ exactly where an entry found in one of the two lookups only shows
something (`textIn_normalize_iff`).
-/

namespace TextGrid

namespace Value

/-- A text equals the values that are this text, and no others. -/
theorem text_same {name : Text} {value : Value} :
    same (text name) value = true ↔ value.text? = some name := by
  rw [same, text?_eq_some_iff]
  cases value.bare with
  | text content =>
    rw [sameAs, beq_iff_eq, Value.text.injEq]
    exact eq_comm
  | _ => simp [sameAs, fraction?]

/-- A mapping of whatever class is normalised as a mapping. -/
theorem normalize_of_bare_eq_map {value : Value} {entries : List (Value × Value)}
    (h : value.bare = map entries) : normalize value = normalize (map entries) := by
  induction value using bareInduction with
  | bare value hbare => rw [← h, bare_of_ne hbare]
  | dressed base face ih =>
    have hscalar : base.isScalar = false := by
      clear ih
      induction base using bareInduction with
      | bare base hbare =>
        obtain rfl : base = map entries := (bare_of_ne hbare).symm.trans h
        rfl
      | dressed base _ ih => exact ih h
    conv_lhs => rw [normalize, if_neg (by simp [hscalar])]
    exact ih h

/-- A mapping of whatever class is unambiguous only as a mapping. -/
theorem Unambiguous.of_bare_eq_map {value : Value} {entries : List (Value × Value)}
    (h : value.bare = map entries) (hvalue : value.Unambiguous) : (map entries).Unambiguous := by
  induction value using bareInduction with
  | bare value hbare =>
    rw [bare_of_ne hbare] at h
    exact h ▸ hvalue
  | dressed base face ih => exact ih h (hvalue.of_mem_contents (List.mem_singleton.mpr rfl))

/-- The entry of a mapping that a name finds in its normal form. -/
def spelled? (entries : List (Value × Value)) (name : Value) : Option (Value × Value) :=
  name.text?.bind fun form => entries.find? fun entry => decide (plain entry.1 = .ok form)

variable {entries : List (Value × Value)} {entry : Value × Value} {name : Value}

/-- Of keys that stay apart only one has a plain form. -/
theorem KeysApart.eq_of_plain (hkeys : KeysApart entries) {other : Value × Value} {form : Text}
    (hentry : entry ∈ entries) (hother : other ∈ entries) (hplain : plain entry.1 = .ok form)
    (hsame : plain other.1 = .ok form) : entry = other := by
  have : Std.Symm fun a b : Value × Value =>
      ∀ form, plain a.1 = .ok form → plain b.1 ≠ .ok form :=
    ⟨fun _ _ happart form hform hform' => happart form hform' hform⟩
  by_contra hne
  exact hkeys.apart.forall hentry hother hne form hplain hsame

/-- A name finds the entry whose key has it as its plain form. -/
theorem KeysApart.spelled?_eq_some_iff (hkeys : KeysApart entries) :
    spelled? entries name = some entry ↔
      entry ∈ entries ∧ ∃ form, plain entry.1 = .ok form ∧ name.text? = some form := by
  constructor
  · intro hspelled
    obtain ⟨form, hname, hfound⟩ := Option.bind_eq_some_iff.mp hspelled
    have hplain := List.find?_some hfound
    exact ⟨List.mem_of_find?_eq_some hfound, form, of_decide_eq_true hplain, hname⟩
  · rintro ⟨hentry, form, hplain, hname⟩
    refine Option.bind_eq_some_iff.mpr ⟨form, hname, ?_⟩
    have hsome : (entries.find? fun entry => decide (plain entry.1 = .ok form)).isSome :=
      List.find?_isSome.mpr ⟨entry, hentry, decide_eq_true hplain⟩
    obtain ⟨other, hfound⟩ := Option.isSome_iff_exists.mp hsome
    have hother := List.find?_some hfound
    rw [hfound, hkeys.eq_of_plain hentry (List.mem_of_find?_eq_some hfound) hplain
      (of_decide_eq_true hother)]

/-- What a name finds in the normal form of a mapping is the normal form of the value of the entry
that it finds there. -/
theorem get?_named {named : List (Text × Value)} (hnamed : normalizeEntries entries = .ok named)
    (name : Value) :
    Matched (.ok ((spelled? entries name).map (·.2)))
      (.ok (get? (named.map fun (key, value) => (text key, value)) name)) := by
  have hpairs := normalizeEntries_eq_ok_iff.mp hnamed
  unfold spelled? get?
  simp only [List.find?_map, Option.map_map]
  cases hname : name.text? with
  | none =>
    -- Nothing but a text equals a text.
    have hnone : named.find? ((fun entry => same entry.1 name) ∘
        fun (key, value) => (text key, value)) = none := by
      refine List.find?_eq_none.mpr fun pair _ hsame => ?_
      rw [text_same.mp hsame] at hname
      cases hname
    rw [hnone]
    exact .nothing
  | some form =>
    clear hnamed
    induction hpairs with
    | nil => exact .nothing
    | @cons entry pair rest others hpair _ ih =>
      rw [Option.bind_some, List.find?_cons, List.find?_cons, hpair.1]
      have hiff : same (text pair.1) name = true ↔ pair.1 = form := by
        rw [text_same, hname, Option.some.injEq, eq_comm]
      by_cases hform : pair.1 = form
      · simp only [Function.comp, hform, decide_true, hform ▸ hiff.mpr hform]
        exact .found hpair.2
      · have hfalse : same (text pair.1) name = false :=
          Bool.eq_false_iff.mpr fun hsame => hform (hiff.mp hsame)
        simpa [hform, hfalse] using ih

/-- The entry whose key equals a name is the one that the name finds in the normal form, if it finds
one there. -/
theorem KeysApart.eq_of_spelled? (hkeys : KeysApart entries) {other : Value × Value}
    (hspelled : spelled? entries name = some entry)
    (hfound : (entries.find? fun other => other.1.same name) = some other) : entry = other := by
  obtain ⟨hentry, form, hplain, hname⟩ := hkeys.spelled?_eq_some_iff.mp hspelled
  have hmem := List.mem_of_find?_eq_some hfound
  have hsame := List.find?_some hfound
  have hother : other.1.text? = some form := by
    rw [same, text?_eq_some_iff.mp hname] at hsame
    exact same_text.mp hsame
  exact hkeys.eq_of_plain hentry hmem hplain (hkeys.spelled other hmem form hother)

end Value

namespace Column

/-- The path of a sound column is a text, if it is given. -/
theorem key_cases (column : Column) :
    column.key.bare = .null ∨ ∃ path, column.key.bare = .text path := by
  have hfault := (ColumnLayout.fault?_eq_none_iff.mp column.sound).2.2.2
  unfold ColumnLayout.keyFault? at hfault
  split at hfault
  · next hkey => exact Or.inl hkey
  · next path hkey => exact Or.inr ⟨path, hkey⟩
  · cases hfault
  · cases hfault
  · cases hfault

/-- Whether a column with only a name finds an entry in just one of a mapping and its normal form.
The mapping is asked for a key that equals the name, and the normal form for the plain form of a
key. -/
def FindsOnce (column : Column) (entries : List (Value × Value)) (entry : Value × Value) : Prop :=
  column.key.bare = .null ∧ column.name ≠ .null ∧
    ¬ ((entries.find? fun other => other.1.same column.name) = some entry ↔
      ∃ form, entry.1.plain = .ok form ∧ column.name.text? = some form)

/-- A text finds once the entries whose key has it as its plain form and is another value. -/
theorem findsOnce_iff_of_text {column : Column} {entries : List (Value × Value)}
    {entry : Value × Value} {name : Text} (hkeys : Value.KeysApart entries)
    (hentry : entry ∈ entries) (hkey : column.key = .null) (hname : column.name = .text name) :
    column.FindsOnce entries entry ↔ entry.1.plain = .ok name ∧ entry.1.text? ≠ some name := by
  have hfound : (entries.find? fun other => other.1.same (.text name)) = some entry ↔
      entry.1.text? = some name := by
    constructor
    · intro hfound
      have hsame := List.find?_some hfound
      exact Value.same_text.mp hsame
    · intro hsame
      have hsome : (entries.find? fun other => other.1.same (.text name)).isSome :=
        List.find?_isSome.mpr ⟨entry, hentry, Value.same_text.mpr hsame⟩
      obtain ⟨other, hother⟩ := Option.isSome_iff_exists.mp hsome
      have hspelled : Value.spelled? entries (.text name) = some entry :=
        hkeys.spelled?_eq_some_iff.mpr ⟨hentry, name, hkeys.spelled entry hentry name hsame, rfl⟩
      rw [hother, hkeys.eq_of_spelled? hspelled hother]
  have hgiven : column.name ≠ .null := by
    rw [hname]
    exact Value.noConfusion
  have hwritten : (∃ form, entry.1.plain = .ok form ∧ column.name.text? = some form) ↔
      entry.1.plain = .ok name := by
    simp [hname, Value.text?_text]
  have hpath : column.key.bare = .null := congrArg Value.bare hkey
  unfold FindsOnce
  rw [hwritten, and_iff_right hpath, and_iff_right hgiven, hname, hfound]
  constructor
  · intro honce
    by_cases hsame : entry.1.text? = some name
    · exact absurd (iff_of_true hsame (hkeys.spelled entry hentry name hsame)) honce
    · rw [iff_false_left hsame, not_not] at honce
      exact ⟨honce, hsame⟩
  · rintro ⟨hplain, hother⟩ hiff
    exact hother (hiff.mpr hplain)

end Column

namespace Cell

/-! ### One cell -/

/-- A cell shows the normal form of its value. -/
theorem textOf_eq_bind {value : Value} (hvalue : value ≠ .missing) :
    textOf value = value.normalize >>= Value.cellText := by
  cases value with
  | missing => exact absurd rfl hvalue
  | _ => rfl

/-- A value shows what its normal form shows. -/
theorem textOf_normalize {value normal : Value} (hvalue : value ≠ .missing)
    (hnormal : value.normalize = .ok normal) : textOf normal = textOf value := by
  have hform := Value.isNormal_of_normalize hnormal
  rw [textOf_eq_bind hform.unambiguous.ne_missing, hform.normalize_eq, textOf_eq_bind hvalue,
    hnormal]

variable {record : Value} {entries : List (Value × Value)} {column : Column}

/-- A mapping is not read as a row. -/
theorem rowItems?_of_bare_eq_map (hmap : record.bare = .map entries) : rowItems? record = none := by
  rw [rowItems?, hmap]

/-- A column with a path shows what stands at its end. -/
theorem textIn_of_path (hmap : record.bare = .map entries) {path : Text}
    (hkey : column.key.bare = .text path) (index : Int) :
    textIn record column index = record.extract (Value.splitPath path) >>= textOf := by
  simp only [textIn, lookup, rowItems?_of_bare_eq_map hmap, hkey]

/-- A column without path and name shows nothing. -/
theorem textIn_of_nameless (hmap : record.bare = .map entries) (hkey : column.key.bare = .null)
    (hname : column.name = .null) (index : Int) : textIn record column index = .ok [] := by
  simp only [textIn, lookup, rowItems?_of_bare_eq_map hmap, hkey, hname]
  rfl

/-- A column with only a name shows the value under the key that equals it. -/
theorem textIn_of_named (hmap : record.bare = .map entries) (hkey : column.key.bare = .null)
    (hname : column.name ≠ .null) (index : Int) :
    textIn record column index = textOf ((Value.get? entries column.name).getD .missing) := by
  simp only [textIn, lookup, rowItems?_of_bare_eq_map hmap, hkey, hmap]
  rfl

/-! ### Cells of both forms -/

/-- Two lookups that find no two values show the same exactly if a value that only one of them finds
shows nothing. -/
theorem textOf_getD_eq_iff {found other : Option (Value × Value)}
    (hone : ∀ entry entry', found = some entry → other = some entry' → entry = entry') :
    textOf ((found.map (·.2)).getD .missing) = textOf ((other.map (·.2)).getD .missing) ↔
      ∀ entry, ¬ (other = some entry ↔ found = some entry) → textOf entry.2 = .ok [] := by
  cases found with
  | none =>
    cases other with
    | none => simp
    | some entry => simp [textOf, eq_comm]
  | some entry =>
    cases other with
    | none => simp [textOf]
    | some entry' =>
      obtain rfl := hone entry entry' rfl rfl
      simp

/-- A name shows the same in a mapping and in its normal form unless it finds an entry in one of
them only, and that entry shows something. -/
theorem textOf_get?_named (hrecord : (Value.map entries).Unambiguous)
    {named : List (Text × Value)} (hnamed : Value.normalizeEntries entries = .ok named)
    (hkey : column.key.bare = .null) (hname : column.name ≠ .null) :
    textOf ((Value.get? (named.map fun (key, value) => (.text key, value)) column.name).getD
        .missing) = textOf ((Value.get? entries column.name).getD .missing) ↔
      ∀ entry ∈ entries, column.FindsOnce entries entry → textOf entry.2 = .ok [] := by
  have hkeys := hrecord.keysApart
  have hshown :
      textOf ((Value.get? (named.map fun (key, value) => (.text key, value)) column.name).getD
        .missing) =
      textOf (((Value.spelled? entries column.name).map (·.2)).getD .missing) := by
    have hmatched := Value.get?_named hnamed column.name
    cases hspelled : Value.spelled? entries column.name with
    | none =>
      rw [hspelled] at hmatched
      generalize Value.get? _ _ = found at hmatched ⊢
      cases hmatched
      rfl
    | some entry =>
      rw [hspelled] at hmatched
      have hentry := (hkeys.spelled?_eq_some_iff.mp hspelled).1
      generalize Value.get? _ _ = found at hmatched ⊢
      cases hmatched with
      | found hnormal =>
        have hpart := hrecord.of_mem_contents (List.mem_map_of_mem hentry)
        exact textOf_normalize hpart.ne_missing hnormal
  rw [hshown, Value.get?, textOf_getD_eq_iff fun _ _ => hkeys.eq_of_spelled?]
  constructor
  · rintro hempty entry hentry ⟨_, _, honce⟩
    apply hempty
    rwa [hkeys.spelled?_eq_some_iff, and_iff_right hentry]
  · intro hempty entry honce
    by_cases hentry : entry ∈ entries
    · apply hempty entry hentry
      rw [hkeys.spelled?_eq_some_iff, and_iff_right hentry] at honce
      exact ⟨hkey, hname, honce⟩
    · -- Neither lookup finds what is no entry.
      refine absurd ⟨fun hfound => ?_, fun hspelled => ?_⟩ honce
      · exact absurd (List.mem_of_find?_eq_some hfound) hentry
      · exact absurd (hkeys.spelled?_eq_some_iff.mp hspelled).1 hentry

/-- **Normalising a record.** A column shows the same in an unambiguous mapping and in its normal
form, or fails in both, exactly if every entry that its name finds in one of them only shows
nothing. A column with a path, and one without a name, finds no such entry. A mapping without
integers that are too long to write has a normal form. -/
theorem textIn_normalize_iff (hmap : record.bare = .map entries) (hrecord : record.Unambiguous)
    (column : Column) (index : Int) :
    (∀ normal, record.normalize = .ok normal →
      (textIn normal column index = textIn record column index ↔
        ∀ entry ∈ entries, column.FindsOnce entries entry → textOf entry.2 = .ok [])) ∧
      (record.IsShort → ∃ normal, record.normalize = .ok normal) := by
  refine ⟨fun normal hnormal => ?_, Value.IsShort.exists_normalize⟩
  have hbase := hrecord.of_bare_eq_map hmap
  obtain ⟨named, hnamed, hlast⟩ :=
    bind_eq_ok_iff.mp ((Value.normalize_of_bare_eq_map hmap).symm.trans hnormal)
  obtain rfl := Except.ok.inj hlast
  rw [Value.ofNamed_eq_map (hbase.keysApart.nodup hnamed)] at hnormal ⊢
  rcases column.key_cases with hkey | ⟨path, hkey⟩
  · by_cases hname : column.name = .null
    · refine iff_of_true ?_ fun entry _ honce => absurd hname honce.2.1
      rw [textIn_of_nameless rfl hkey hname, textIn_of_nameless hmap hkey hname]
    · rw [textIn_of_named rfl hkey hname, textIn_of_named hmap hkey hname]
      exact textOf_get?_named hbase hnamed hkey hname
  · refine iff_of_true ?_ fun entry _ honce => ?_
    · rw [textIn_of_path rfl hkey, textIn_of_path hmap hkey, hrecord.extract_normalize hnormal]
    · rw [honce.1] at hkey
      cases hkey

/-- A mapping with a number as a key beside a text. -/
def numberedEntries : List (Value × Value) :=
  [(.int 3, .text "x".toList), (.text "note".toList, .tuple [.int 2])]

/-- The number and the text stay apart as keys. -/
theorem keysApart_numberedEntries : Value.KeysApart numberedEntries :=
  Value.keysApart_of_nodup_plain (by decide) (by decide)

/-- The mapping of them is unambiguous. -/
theorem unambiguous_numberedEntries : (Value.map numberedEntries).Unambiguous := by
  refine .intro nofun (fun entries h => ?_) (List.forall_mem_cons.mpr
    ⟨.intro nofun nofun nofun, List.forall_mem_singleton.mpr (.intro nofun nofun ?_)⟩)
  · obtain rfl := Value.map.inj h
    exact keysApart_numberedEntries
  · exact List.forall_mem_singleton.mpr (.intro nofun nofun nofun)

/-- A column that has only a name. -/
def namedColumn (name : Text) : Column :=
  ⟨{ name := .text name }, rfl⟩

/-- A name that is a key shows the same in both forms. -/
theorem textIn_normalize_numberedEntries :
    (Value.map numberedEntries).bare = .map numberedEntries ∧
      (Value.map numberedEntries).Unambiguous ∧
      ∃ normal, (Value.map numberedEntries).normalize = .ok normal ∧
        textIn (.map numberedEntries) (namedColumn "note".toList) 0 = .ok "[2]".toList ∧
        textIn normal (namedColumn "note".toList) 0 =
          textIn (.map numberedEntries) (namedColumn "note".toList) 0 := by
  obtain ⟨hiff, _⟩ :=
    textIn_normalize_iff rfl unambiguous_numberedEntries (namedColumn "note".toList) 0
  refine ⟨rfl, unambiguous_numberedEntries, _, rfl, rfl,
    (hiff _ rfl).mpr fun entry hentry honce => ?_⟩
  obtain ⟨hplain, hother⟩ :=
    (Column.findsOnce_iff_of_text keysApart_numberedEntries hentry rfl rfl).mp honce
  rcases List.mem_cons.mp hentry with rfl | hentry
  · exact absurd hplain (by decide)
  · obtain rfl := List.mem_singleton.mp hentry
    exact absurd rfl hother

/-- A name that looks like a number finds it as a key in the normal form only. -/
theorem textIn_numberKey :
    (Value.map numberedEntries).Unambiguous ∧
      textIn (.map numberedEntries) (namedColumn ['3']) 0 = .ok [] ∧
      (do textIn (← (Value.map numberedEntries).normalize) (namedColumn ['3']) 0) = .ok ['x'] :=
  ⟨unambiguous_numberedEntries, rfl, rfl⟩

end Cell

end TextGrid
