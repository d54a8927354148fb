import TextGrid.Proofs.NormalForms
import TextGrid.Value.Path

/-!
# Paths into normal forms

A path that is followed in two stages leads where it leads at once, and it leads to the same value
in a record and in the record's normal form. Both need keys that stay apart when they become texts,
and both are about values that can be written: a record without a normal form still has values at
the end of its paths.
-/

namespace TextGrid.Value

/-- Whether the keys of a mapping stay apart when they become texts: no two of them have one plain
form, and one that is a text has this text as its plain form. -/
structure KeysApart (entries : List (Value × Value)) : Prop where
  apart : entries.Pairwise fun a b => ∀ form, plain a.1 = .ok form → plain b.1 ≠ .ok form
  spelled : ∀ entry ∈ entries, ∀ name ∈ entry.1.text?, plain entry.1 = .ok name

/-- The keys of all mappings in a value, those inside of keys aside, stay apart, and nowhere does
the mark of a missing field stand. -/
inductive Unambiguous : Value → Prop
  | intro {value : Value} (hpresent : value ≠ missing)
      (hkeys : ∀ entries, value = map entries → KeysApart entries)
      (hcontents : ∀ part ∈ value.contents, Unambiguous part) : Unambiguous value

/-- The mark of a missing field is not unambiguous. -/
theorem Unambiguous.ne_missing {value : Value} (hvalue : value.Unambiguous) : value ≠ missing := by
  cases hvalue with
  | intro hpresent _ _ => exact hpresent

/-- What stands in an unambiguous value is unambiguous. -/
theorem Unambiguous.of_mem_contents {value : Value} (hvalue : value.Unambiguous) {part : Value}
    (hpart : part ∈ value.contents) : part.Unambiguous := by
  cases hvalue with
  | intro _ _ hcontents => exact hcontents part hpart

/-- The keys of an unambiguous mapping stay apart. -/
theorem Unambiguous.keysApart {entries : List (Value × Value)}
    (hvalue : (map entries).Unambiguous) : KeysApart entries := by
  cases hvalue with
  | intro _ hkeys _ => exact hkeys entries rfl

/-! ### Entries of a mapping -/

/-- A value is a text if it is one without written forms of its own. -/
theorem text?_eq_some_iff {value : Value} {content : Text} :
    value.text? = some content ↔ value.bare = text content := by
  unfold text?
  cases value.bare <;> simp

/-- Only the values that are a text equal it. -/
@[simp] theorem same_text {key : Value} {name : Text} :
    same key (text name) = true ↔ key.text? = some name := by
  induction key using bareInduction with
  | dressed base _ ih => exact ih
  | bare key hbare =>
    rw [text?_eq_some_iff, bare_of_ne hbare]
    cases key with
    | dressed base face => exact absurd rfl (hbare base face)
    | float value => cases value <;> simp [same, sameAs, bare, fraction?]
    | _ => simp [same, sameAs, bare, fraction?]

/-- Keys stay apart when the first one is left out. -/
theorem KeysApart.of_cons {entry : Value × Value} {rest : List (Value × Value)}
    (hkeys : KeysApart (entry :: rest)) : KeysApart rest :=
  ⟨(List.pairwise_cons.mp hkeys.apart).2, (List.forall_mem_cons.mp hkeys.spelled).2⟩

/-- Keys that stay apart become distinct names. -/
theorem KeysApart.nodup {entries : List (Value × Value)} {named : List (Text × Value)}
    (hkeys : KeysApart entries) (hnamed : normalizeEntries entries = .ok named) :
    (named.map (·.1)).Nodup := by
  have hpairs := normalizeEntries_eq_ok_iff.mp hnamed
  clear hnamed
  induction hpairs with
  | nil => exact List.nodup_nil
  | @cons entry pair rest others hpair hrest ih =>
    refine List.nodup_cons.mpr ⟨fun hmem => ?_, ih hkeys.of_cons⟩
    obtain ⟨other, hother, hname⟩ := List.mem_map.mp hmem
    obtain ⟨partner, hpartner, hplain, _⟩ := exists_mem_of_forall₂ hrest hother
    rw [hname] at hplain
    exact (List.pairwise_cons.mp hkeys.apart).1 partner hpartner pair.1 hpair.1 hplain

/-- Distinct names stay apart as the keys of a mapping. -/
theorem keysApart_of_nodup {named : List (Text × Value)} (hnames : (named.map (·.1)).Nodup) :
    KeysApart (named.map fun (name, value) => (text name, value)) := by
  refine ⟨?_, fun entry hentry name hname => ?_⟩
  · rw [List.pairwise_map]
    refine (List.pairwise_map.mp hnames).imp fun hne form hform hform' => ?_
    exact hne ((Except.ok.inj hform).trans (Except.ok.inj hform').symm)
  · obtain ⟨pair, _, rfl⟩ := List.mem_map.mp hentry
    exact congrArg Except.ok (Option.some.inj hname)

/-- Keys with distinct plain forms stay apart if no text has the form of another. -/
theorem keysApart_of_nodup_plain {entries : List (Value × Value)}
    (hplain : (entries.map (plain ·.1)).Nodup)
    (hspelled : ∀ entry ∈ entries, ∀ name ∈ entry.1.text?, plain entry.1 = .ok name) :
    KeysApart entries := by
  refine ⟨(List.pairwise_map.mp hplain).imp fun hne form hform hform' => ?_, hspelled⟩
  exact hne (hform.trans hform'.symm)

/-- Where keys stay apart and can be written, the plain form alone decides which entry a segment
names. -/
theorem KeysApart.keyedValue?_eq {entries : List (Value × Value)} {named : List (Text × Value)}
    (hkeys : KeysApart entries) (hnamed : normalizeEntries entries = .ok named) (segment : Text) :
    keyedValue? entries segment = spelledValue? entries segment := by
  have hgiven {value : Value} (hvalue : getText? entries segment = some value) :
      spelledValue? entries segment = .ok (some value) := by
    have hpairs := normalizeEntries_eq_ok_iff.mp hnamed
    clear hnamed
    induction hpairs with
    | nil => cases hvalue
    | @cons entry pair rest others hpair hrest ih =>
      obtain ⟨hhead, _⟩ := List.pairwise_cons.mp hkeys.apart
      rw [getText?, get?, List.find?_cons] at hvalue
      rw [spelledValue?, hpair.1, ok_bind]
      cases hsame : same entry.1 (text segment) with
      | true =>
        rw [hsame] at hvalue
        have hplain := hkeys.spelled entry (List.mem_cons_self ..) segment (same_text.mp hsame)
        rw [hpair.1] at hplain
        rw [if_pos (Except.ok.inj hplain)]
        exact congrArg Except.ok hvalue
      | false =>
        simp only [hsame] at hvalue
        -- The key that the segment equals comes later, so this one has another form.
        obtain ⟨later, hlater, _⟩ := Option.map_eq_some_iff.mp hvalue
        have hsegment := List.find?_some hlater
        have hspelled := hkeys.of_cons.spelled later (List.mem_of_find?_eq_some hlater) segment
          (same_text.mp hsegment)
        have hne : pair.1 ≠ segment := by
          rintro rfl
          exact hhead later (List.mem_of_find?_eq_some hlater) pair.1 hpair.1 hspelled
        rw [if_neg hne]
        exact ih hkeys.of_cons hvalue
  unfold keyedValue?
  cases hvalue : getText? entries segment with
  | none => rfl
  | some value => exact (hgiven hvalue).symm

/-- The value that a segment names is the value of an entry. -/
theorem exists_entry_of_keyedValue? {entries : List (Value × Value)} {segment : Text}
    {value : Value} (hvalue : keyedValue? entries segment = .ok (some value)) :
    ∃ entry ∈ entries, entry.2 = value := by
  unfold keyedValue? at hvalue
  cases hgiven : getText? entries segment with
  | some given =>
    rw [hgiven] at hvalue
    obtain rfl := Option.some.inj (Except.ok.inj hvalue)
    obtain ⟨entry, hentry, hfound⟩ := Option.map_eq_some_iff.mp hgiven
    exact ⟨entry, List.mem_of_find?_eq_some hentry, hfound⟩
  | none =>
    rw [hgiven] at hvalue
    clear hgiven
    induction entries with
    | nil => cases Except.ok.inj hvalue
    | cons entry rest ih =>
      obtain ⟨form, _, hfound⟩ := bind_eq_ok_iff.mp hvalue
      split at hfound
      · exact ⟨entry, List.mem_cons_self .., Option.some.inj (Except.ok.inj hfound)⟩
      · obtain ⟨other, hother, hsecond⟩ := ih hfound
        exact ⟨other, List.mem_cons_of_mem _ hother, hsecond⟩

/-- An item at a position that a segment writes is one of the items. -/
theorem mem_of_item? {items : List Value} {segment : Text} {value : Value}
    (hvalue : item? items segment = .ok (some value)) : value ∈ items := by
  unfold item? at hvalue
  split at hvalue
  · exact List.mem_of_getElem? (Except.ok.inj hvalue)
  · cases hvalue
  · cases Except.ok.inj hvalue

/-! ### One segment -/

/-- Whether a segment finds in a normal form the normal form of what it finds in the value. -/
inductive Matched : Except LayoutError (Option Value) → Except LayoutError (Option Value) → Prop
  | error (e : LayoutError) : Matched (.error e) (.error e)
  | nothing : Matched (.ok none) (.ok none)
  | found {value normal : Value} (h : normalize value = .ok normal) :
      Matched (.ok (some value)) (.ok (some normal))

/-- What a key finds is normalised with the entries of its mapping. -/
theorem KeysApart.matched {entries : List (Value × Value)} {named : List (Text × Value)}
    (hkeys : KeysApart entries) (hnamed : normalizeEntries entries = .ok named) (segment : Text) :
    Matched (keyedValue? entries segment)
      (keyedValue? (named.map fun (name, value) => (text name, value)) segment) := by
  have hpairs := normalizeEntries_eq_ok_iff.mp hnamed
  have hnormal : normalizeEntries (named.map fun (name, value) => (text name, value)) =
      .ok named := by
    rw [normalizeEntries_eq_ok_iff, List.forall₂_map_left_iff, List.forall₂_same]
    intro pair hpair
    obtain ⟨entry, _, _, hvalue⟩ := exists_mem_of_forall₂ hpairs hpair
    exact ⟨rfl, normalize_of_normalize hvalue⟩
  rw [hkeys.keyedValue?_eq hnamed, (keysApart_of_nodup (hkeys.nodup hnamed)).keyedValue?_eq hnormal]
  clear hnamed hnormal hkeys
  induction hpairs with
  | nil => exact .nothing
  | @cons entry pair rest others hpair _ ih =>
    rw [List.map_cons, spelledValue?, spelledValue?, hpair.1, plain, ok_bind, ok_bind]
    split
    · exact .found hpair.2
    · exact ih

/-- The normal form of an item at a position is the item there among the normal forms. -/
theorem matched_item? {items normals : List Value} (h : normalizeAll items = .ok normals)
    (segment : Text) : Matched (item? items segment) (item? normals segment) := by
  have hpairs := normalizeAll_eq_ok_iff.mp h
  unfold item?
  split
  · next position hread =>
    clear h hread
    induction hpairs generalizing position with
    | nil => exact .nothing
    | cons hitem _ ih =>
      cases position with
      | zero => exact .found hitem
      | succ position => exact ih position
  · exact .error _
  · exact .nothing

/-- A scalar or a text of whatever class has nothing below it. -/
theorem child?_of_isScalar {value : Value} (hscalar : value.isScalar = true) (segment : Text) :
    value.child? segment = .ok none := by
  induction value using bareInduction with
  | dressed base face ih => exact ih hscalar
  | bare value hbare =>
    cases value with
    | bool | int | float | text => rfl
    | dressed base face => exact absurd rfl (hbare base face)
    | _ => cases hscalar

/-- Whether a segment looks into the normal form of a value and not into the value itself. -/
def isOpaque : Value → Bool
  | set _ | frozenSet _ | record _ _ | object _ _ | standIn _ _ | printed _ | missing | undefined =>
    true
  | _ => false

/-- A segment finds in an opaque value what it finds in its normal form. -/
theorem child?_of_isOpaque {value : Value} (hvalue : value.isOpaque = true) (segment : Text) :
    value.child? segment = (do (← normalize value).child? segment) := by
  cases hnormal : normalize value with
  | error e =>
    cases value with
    | set | frozenSet | record | object | standIn | printed | missing | undefined =>
      simp only [child?, hnormal, error_bind]
    | _ => cases hvalue
  | ok normal =>
    have hform := isNormal_of_normalize hnormal
    cases value with
    | set | frozenSet | record | object | standIn | printed | missing | undefined =>
      simp only [child?, hnormal, ok_bind]
      cases hform with
      | dressed face hscalar =>
        rw [child?_of_isScalar (by exact hscalar)]
        rfl
      | _ => rfl
    | _ => cases hvalue

/-- A value in normal form is unambiguous. -/
theorem IsNormal.unambiguous {value : Value} (hvalue : value.IsNormal) : value.Unambiguous := by
  induction hvalue with
  | null | bool | int | float | text => exact .intro nofun nofun nofun
  | @dressed base face hscalar =>
    refine .intro nofun nofun (List.forall_mem_singleton.mpr ?_)
    induction base using bareInduction with
    | dressed base _ ih => exact .intro nofun nofun (List.forall_mem_singleton.mpr (ih hscalar))
    | bare base hbare =>
      cases base with
      | bool | int | float | text => exact .intro nofun nofun nofun
      | dressed base face => exact absurd rfl (hbare base face)
      | _ => cases hscalar
  | list _ ih => exact .intro nofun nofun ih
  | @map named hnames _ ih =>
    refine .intro nofun (fun entries hentries => ?_) fun part hpart => ?_
    · obtain rfl := Value.map.inj hentries
      exact keysApart_of_nodup hnames
    · obtain ⟨entry, hentry, rfl⟩ := List.mem_map.mp hpart
      obtain ⟨pair, hpair, rfl⟩ := List.mem_map.mp hentry
      exact ih pair hpair

/-- What stands one segment below a value in normal form is in normal form. -/
theorem IsNormal.child? {value next : Value} {segment : Text} (hvalue : value.IsNormal)
    (hnext : value.child? segment = .ok (some next)) : next.IsNormal := by
  cases hvalue with
  | null | bool | int | float | text => cases hnext
  | dressed face hscalar =>
    rw [child?_of_isScalar (by exact hscalar)] at hnext
    cases hnext
  | list hitems => exact hitems next (mem_of_item? hnext)
  | map hnames hvalues =>
    obtain ⟨entry, hentry, rfl⟩ := exists_entry_of_keyedValue? hnext
    obtain ⟨pair, hpair, rfl⟩ := List.mem_map.mp hentry
    exact hvalues pair hpair

/-- A key that is a text need not be written to be compared with a segment. -/
theorem exists_keyedValue?_named (named : List (Text × Value)) (segment : Text) :
    ∃ found, keyedValue? (named.map fun (name, value) => (text name, value)) segment =
      .ok found := by
  unfold keyedValue?
  split
  · exact ⟨_, rfl⟩
  · next hnone =>
    clear hnone
    induction named with
    | nil => exact ⟨none, rfl⟩
    | cons pair rest ih =>
      rw [List.map_cons, spelledValue?, plain, ok_bind]
      split
      · exact ⟨_, rfl⟩
      · exact ih

/-- A segment fails in a value in normal form only as a position with too many digits. -/
theorem IsNormal.child?_eq_error {value : Value} {segment : Text} {e : LayoutError}
    (hvalue : value.IsNormal) (hchild : value.child? segment = .error e) :
    ∃ digits, Decimal.read segment = .tooLong digits ∧ e = .tooManyDigits digits := by
  cases hvalue with
  | null | bool | int | float | text => cases hchild
  | dressed face hscalar =>
    rw [child?_of_isScalar (by exact hscalar)] at hchild
    cases hchild
  | list hitems =>
    rw [Value.child?, item?] at hchild
    split at hchild
    · cases hchild
    · next digits hread => exact ⟨digits, hread, (Except.error.inj hchild).symm⟩
    · cases hchild
  | @map named hnames _ =>
    obtain ⟨found, hfound⟩ := exists_keyedValue?_named named segment
    rw [Value.child?, hfound] at hchild
    cases hchild

/-- A segment finds in a value in normal form what it finds in its normal form. -/
theorem IsNormal.matched {value : Value} (hvalue : value.IsNormal) (segment : Text) :
    Matched (value.child? segment) (value.child? segment) := by
  cases hchild : value.child? segment with
  | error e => exact .error e
  | ok found =>
    cases found with
    | none => exact .nothing
    | some next => exact .found (hvalue.child? hchild).normalize_eq

/-- What stands one segment below an opaque value is in normal form. -/
theorem isNormal_child?_of_isOpaque {value next : Value} {segment : Text}
    (hvalue : value.isOpaque = true) (hnext : value.child? segment = .ok (some next)) :
    next.IsNormal := by
  rw [child?_of_isOpaque hvalue] at hnext
  obtain ⟨normal, hnormal, hfound⟩ := bind_eq_ok_iff.mp hnext
  exact (isNormal_of_normalize hnormal).child? hfound

/-- What stands one segment below an unambiguous value is unambiguous. -/
theorem Unambiguous.child? {value next : Value} {segment : Text} (hvalue : value.Unambiguous)
    (hnext : value.child? segment = .ok (some next)) : next.Unambiguous := by
  induction value using bareInduction with
  | dressed base face ih => exact ih (hvalue.of_mem_contents (List.mem_singleton.mpr rfl)) hnext
  | bare value hbare =>
    cases value with
    | null | bool | int | float | text | bytes | buffer => cases hnext
    | list items | tuple items => exact hvalue.of_mem_contents (mem_of_item? hnext)
    | map entries =>
      obtain ⟨entry, hentry, rfl⟩ := exists_entry_of_keyedValue? hnext
      exact hvalue.of_mem_contents (List.mem_map_of_mem hentry)
    | dressed base face => exact absurd rfl (hbare base face)
    | set | frozenSet | record | object | standIn | printed | missing | undefined =>
      exact (isNormal_child?_of_isOpaque rfl hnext).unambiguous

/-- A segment finds in the normal form of an unambiguous value the normal form of what it finds in
the value, and it fails in both alike. -/
theorem Unambiguous.matched {value normal : Value} (hvalue : value.Unambiguous)
    (hnormal : normalize value = .ok normal) (segment : Text) :
    Matched (value.child? segment) (normal.child? segment) := by
  induction value using bareInduction with
  | dressed base face ih =>
    rw [normalize] at hnormal
    split at hnormal
    · next hscalar =>
      obtain rfl := Except.ok.inj hnormal
      rw [child?_of_isScalar (by exact hscalar)]
      exact .nothing
    · exact ih (hvalue.of_mem_contents (List.mem_singleton.mpr rfl)) hnormal
  | bare value hbare =>
    cases value with
    | null | bool | int | float | text | bytes | buffer =>
      obtain rfl := Except.ok.inj hnormal
      exact .nothing
    | list items | tuple items =>
      obtain ⟨normals, hnormals, hlist⟩ := bind_eq_ok_iff.mp hnormal
      obtain rfl := Except.ok.inj hlist
      exact matched_item? hnormals segment
    | map entries =>
      obtain ⟨named, hnamed, hmap⟩ := bind_eq_ok_iff.mp hnormal
      obtain rfl := Except.ok.inj hmap
      rw [ofNamed_eq_map (hvalue.keysApart.nodup hnamed)]
      exact hvalue.keysApart.matched hnamed segment
    | dressed base face => exact absurd rfl (hbare base face)
    | set | frozenSet | record | object | standIn | printed | missing | undefined =>
      rw [child?_of_isOpaque rfl, hnormal, ok_bind]
      exact (isNormal_of_normalize hnormal).matched segment

/-! ### Whole paths -/

/-- A path goes on in the value that its first segment finds. -/
theorem extract_cons_of_some {value next : Value} {segment : Text} (path : List Text)
    (hchild : value.child? segment = .ok (some next)) (hnext : next ≠ missing) :
    extract value (segment :: path) = extract next path := by
  rw [extract, hchild]
  cases next <;> first | rfl | exact absurd rfl hnext

/-- A path ends where a segment finds nothing. -/
theorem extract_cons_of_none {value : Value} {segment : Text} (path : List Text)
    (hchild : value.child? segment = .ok none) :
    extract value (segment :: path) = .ok missing := by
  rw [extract, hchild]

/-- A path fails where a segment fails. -/
theorem extract_cons_of_error {value : Value} {segment : Text} {e : LayoutError}
    (path : List Text) (hchild : value.child? segment = .error e) :
    extract value (segment :: path) = .error e := by
  rw [extract, hchild]

/-- A path fails in a value in normal form only where one of its segments is a position with too
many digits. -/
theorem IsNormal.extract_eq_error {value : Value} {path : List Text} {e : LayoutError}
    (hvalue : value.IsNormal) (herror : extract value path = .error e) :
    ∃ segment ∈ path, ∃ digits,
      Decimal.read segment = .tooLong digits ∧ e = .tooManyDigits digits := by
  induction path generalizing value with
  | nil =>
    rw [extract, hvalue.normalize_eq] at herror
    cases herror
  | cons segment rest ih =>
    cases hchild : value.child? segment with
    | error e =>
      rw [extract_cons_of_error rest hchild] at herror
      obtain rfl := Except.error.inj herror
      exact ⟨segment, List.mem_cons_self, hvalue.child?_eq_error hchild⟩
    | ok found =>
      cases found with
      | none =>
        rw [extract_cons_of_none rest hchild] at herror
        cases herror
      | some next =>
        have hnext := hvalue.child? hchild
        rw [extract_cons_of_some rest hchild hnext.unambiguous.ne_missing] at herror
        obtain ⟨later, hlater, hdigits⟩ := ih hnext herror
        exact ⟨later, List.mem_cons_of_mem _ hlater, hdigits⟩

/-- A path leads to the same value in an unambiguous value and in its normal form. -/
theorem Unambiguous.extract_normalize {value normal : Value} (hvalue : value.Unambiguous)
    (hnormal : normalize value = .ok normal) (path : List Text) :
    extract normal path = extract value path := by
  induction path generalizing value normal with
  | nil => rw [extract, extract, normalize_of_normalize hnormal, hnormal]
  | cons segment rest ih =>
    have hmatched := hvalue.matched hnormal segment
    generalize hfirst : value.child? segment = first at hmatched
    generalize hsecond : normal.child? segment = second at hmatched
    cases hmatched with
    | error e => rw [extract_cons_of_error rest hfirst, extract_cons_of_error rest hsecond]
    | nothing => rw [extract_cons_of_none rest hfirst, extract_cons_of_none rest hsecond]
    | found hform =>
      have hnext := hvalue.child? hfirst
      rw [extract_cons_of_some rest hfirst hnext.ne_missing,
        extract_cons_of_some rest hsecond (isNormal_of_normalize hform).unambiguous.ne_missing,
        ih hnext hform]

/-- A path that is followed in two stages leads where it leads at once. -/
theorem Unambiguous.extract_append {value : Value} (hvalue : value.Unambiguous)
    (path rest : List Text) :
    (extract value path = .ok missing → extract value (path ++ rest) = .ok missing) ∧
      (∀ found, found ≠ missing → extract value path = .ok found →
        extract value (path ++ rest) = extract found rest) ∧
      ∀ e, e ≠ .unwritable → extract value path = .error e →
        extract value (path ++ rest) = .error e := by
  -- The first stage is followed segment by segment; what it finds is unambiguous at every step.
  induction path generalizing value with
  | nil =>
    simp only [List.nil_append, extract]
    refine ⟨fun hmissing => ?_, fun found _ hfound => ?_, fun e he herror => ?_⟩
    · exact absurd rfl (isNormal_of_normalize hmissing).unambiguous.ne_missing
    · exact (hvalue.extract_normalize hfound rest).symm
    · exact absurd (eq_unwritable_of_normalize herror) he
  | cons segment path ih =>
    rw [List.cons_append]
    cases hchild : value.child? segment with
    | error e =>
      rw [extract_cons_of_error path hchild, extract_cons_of_error (path ++ rest) hchild]
      exact ⟨nofun, nofun, fun e _ => id⟩
    | ok found =>
      cases found with
      | none =>
        rw [extract_cons_of_none path hchild, extract_cons_of_none (path ++ rest) hchild]
        refine ⟨fun _ => rfl, fun found hne hfound => ?_, nofun⟩
        exact absurd (Except.ok.inj hfound).symm hne
      | some next =>
        have hnext := hvalue.child? hchild
        rw [extract_cons_of_some path hchild hnext.ne_missing,
          extract_cons_of_some (path ++ rest) hchild hnext.ne_missing]
        exact ih hnext

/-- **Paths compose.** Where the first part of a path leads nowhere in an unambiguous record, so
does the whole. Otherwise the whole leads where the second part leads in the value that the first
one finds, and it fails where the first one fails, unless that is for want of a normal form. The
empty path leads to the normal form, if there is one: it answers every path as the record does, and
a path fails then only by a segment of too many digits; it is in normal form, and so its own normal
form. A record without integers that are too long to write has a normal form. -/
theorem Unambiguous.paths_compose {record : Value} (hrecord : record.Unambiguous)
    (path rest : List Text) :
    (extract record path = .ok missing → extract record (path ++ rest) = .ok missing) ∧
      (∀ value, value ≠ missing → extract record path = .ok value →
        extract record (path ++ rest) = extract value rest) ∧
      (∀ e, e ≠ .unwritable → extract record path = .error e →
        extract record (path ++ rest) = .error e) ∧
      extract record [] = normalize record ∧
      (∀ normal, normalize record = .ok normal →
        extract record rest = extract normal rest ∧
          (∀ e, extract record path = .error e → ∃ segment ∈ path, ∃ digits,
            Decimal.read segment = .tooLong digits ∧ e = .tooManyDigits digits) ∧
          normal.IsNormal ∧ normalize normal = .ok normal) ∧
      (record.IsShort → ∃ normal, normalize record = .ok normal) := by
  obtain ⟨hmissing, hfound, hfails⟩ := hrecord.extract_append path rest
  refine ⟨hmissing, hfound, hfails, by rw [extract], fun normal hnormal => ?_,
    IsShort.exists_normalize⟩
  have hform := isNormal_of_normalize hnormal
  refine ⟨(hrecord.extract_normalize hnormal rest).symm, fun e herror => ?_, hform,
    hform.normalize_eq⟩
  rw [← hrecord.extract_normalize hnormal path] at herror
  exact hform.extract_eq_error herror

/-- A mapping with a number as a key, in which bytes and a set, a record and an object stand. -/
def nestedRecord : Value :=
  map [(int 3, tuple [bytes [0x61], set [int 2]]),
    (text "user".toList, record ⟨"User".toList, 0⟩
      [("home".toList, standIn ⟨some [], some []⟩ (map [(null, text "a".toList)]))]),
    (text "open".toList,
      object ⟨some [], some []⟩ [("seen".toList, bool true), ("_kept".toList, null)])]

/-- The keys of both mappings of the nested record stay apart. -/
theorem unambiguous_nestedRecord : nestedRecord.Unambiguous := by
  have hkeys (entries : List (Value × Value)) (h : nestedRecord = map entries) :
      KeysApart entries := by
    obtain rfl := Value.map.inj h
    exact keysApart_of_nodup_plain (by decide +kernel) (by decide +kernel)
  refine .intro nofun hkeys (List.forall_mem_cons.mpr ⟨?row, List.forall_mem_cons.mpr
    ⟨?user, List.forall_mem_singleton.mpr ?visible⟩⟩)
  case row =>
    refine .intro nofun nofun (List.forall_mem_cons.mpr ⟨.intro nofun nofun nofun, ?_⟩)
    have hset : (set [int 2]).Unambiguous :=
      .intro nofun nofun (List.forall_mem_singleton.mpr (.intro nofun nofun nofun))
    exact List.forall_mem_singleton.mpr hset
  case user =>
    have hhome (entries : List (Value × Value)) (h : map [(null, text "a".toList)] = map entries) :
        KeysApart entries := by
      obtain rfl := Value.map.inj h
      exact keysApart_of_nodup_plain (by decide) (by decide)
    have hstandIn : (standIn ⟨some [], some []⟩ (map [(null, text "a".toList)])).Unambiguous :=
      .intro nofun nofun (List.forall_mem_singleton.mpr
        (.intro nofun hhome (List.forall_mem_singleton.mpr (.intro nofun nofun nofun))))
    exact .intro nofun nofun (List.forall_mem_singleton.mpr hstandIn)
  case visible =>
    refine .intro nofun nofun (List.forall_mem_cons.mpr ⟨.intro nofun nofun nofun, ?_⟩)
    exact List.forall_mem_singleton.mpr (.intro nofun nofun nofun)

/-- The number as a key answers to its digits, and the member of the set to its position. -/
theorem paths_compose_nestedRecord :
    nestedRecord.Unambiguous ∧
      extract nestedRecord ["3".toList] = .ok (list [text "a".toList, list [int 2]]) ∧
      extract nestedRecord ["3".toList, "1".toList, "0".toList] = .ok (int 2) := by
  have htwo : Decimal.write? 2 = some ['2'] := by decide
  have hset : normalize (set [int 2]) = .ok (list [int 2]) := by
    simp [normalize, normalizeMembers, inOrder, quoted, written, htwo]
  have hrow : extract nestedRecord ["3".toList] =
      .ok (list [text "a".toList, list [int 2]]) := by
    change normalize (tuple [bytes [0x61], set [int 2]]) = _
    rw [normalize, normalizeAll, normalizeAll, hset]
    rfl
  obtain ⟨_, hfound, _, _, _, _⟩ :=
    unambiguous_nestedRecord.paths_compose ["3".toList] ["1".toList, "0".toList]
  exact ⟨unambiguous_nestedRecord, hrow, hfound _ (fun h => Value.noConfusion h) hrow⟩

/-- A mapping whose key is a word of a set of words, and is not written as the word that it is. -/
def wordRecord : Value :=
  let written : Face := ⟨some "Anchor.LEFT".toList, some "<Anchor.LEFT: 'left'>".toList⟩
  map [(dressed (text "left".toList) written, int 1)]

/-- The least integer with too many digits to be written. -/
def longInteger : Int :=
  Decimal.ofDigits (1 :: List.replicate Decimal.maxDigits 0)

/-- A mapping in which a set with an integer of too many digits stands beside a number. -/
def longRecord : Value :=
  map [(text ['a'], set [int longInteger]), (text ['b'], int 1)]

/-- A word that is a key is found by a path, but not in the normal form, where the key has become
what is written for it. A path may find a value in a record that has no normal form, and it may fail
at a position that no sequence has. -/
theorem extract_unlike_normal :
    extract wordRecord ["left".toList] = .ok (int 1) ∧
      normalize wordRecord = .ok (map [(text "Anchor.LEFT".toList, int 1)]) ∧
      extract (map [(text "Anchor.LEFT".toList, int 1)]) ["left".toList] = .ok missing ∧
      extract longRecord [['b']] = .ok (int 1) ∧ normalize longRecord = .error .unwritable ∧
      extract (list [int 1]) [List.replicate 4301 '9'] = .error (.tooManyDigits 4301) := by
  refine ⟨rfl, rfl, rfl, rfl, ?_, ?_⟩
  · have hlong : Decimal.write? longInteger = none := by decide +kernel
    simp [longRecord, normalize, normalizeEntries, normalizeMembers, plain, quoted, hlong, written]
  · have hread : Decimal.read (List.replicate 4301 '9') = .tooLong 4301 := by decide +kernel
    rw [extract, child?, item?, hread]

/-- Two keys with one plain form are told apart in a mapping, but not in its normal form. -/
example : extract (map [(text ['1'], null), (int 1, bool true)]) [['1']] = .ok null ∧
    (do extract (← normalize (map [(text ['1'], null), (int 1, bool true)])) [['1']]) =
      .ok (bool true) :=
  ⟨rfl, rfl⟩

end TextGrid.Value
