import Mathlib.Data.List.Nodup
import TextGrid.Proofs.Results
import TextGrid.Value.Normalize

/-!
# Normal forms

What normalising yields is in normal form: null, a scalar, a text, a list of such values, or a
mapping with texts as keys, each of them once. A value in normal form is its own normal form, so
normalising twice is the same as normalising once. Writing and normalising fail only by integers
that are too long to write, and so a value without such integers has a normal form.
-/

namespace TextGrid.Value

/-! ### Parts of a value -/

/-- The values that stand directly in a value, the keys of a mapping aside. -/
def contents : Value → List Value
  | list items | tuple items | set items | frozenSet items => items
  | map entries => entries.map (·.2)
  | record _ fields | object _ fields => fields.map (·.2)
  | standIn _ value | dressed value _ => [value]
  | _ => []

/-- The keys of a mapping. -/
def keys : Value → List Value
  | map entries => entries.map (·.1)
  | _ => []

/-- All values that stand directly in a value. -/
def parts (value : Value) : List Value :=
  value.keys ++ value.contents

/-- A part is smaller than the whole, so that a recursion into parts ends. -/
theorem sizeOf_lt_of_mem_parts {value part : Value} (h : part ∈ value.parts) :
    sizeOf part < sizeOf value := by
  have hfields {fields : List (Text × Value)} (hpart : part ∈ fields.map (·.2)) :
      sizeOf part < sizeOf fields := by
    obtain ⟨⟨name, held⟩, hfield, rfl⟩ := List.mem_map.mp hpart
    have hsize := List.sizeOf_lt_of_mem hfield
    simp only [Prod.mk.sizeOf_spec] at hsize ⊢
    omega
  cases value with
  | list items | tuple items | set items | frozenSet items =>
    have hitem : part ∈ items := h
    have hsize := List.sizeOf_lt_of_mem hitem
    simp only [list.sizeOf_spec, tuple.sizeOf_spec, set.sizeOf_spec, frozenSet.sizeOf_spec]
    omega
  | map entries =>
    obtain ⟨⟨key, held⟩, hentry, hpart⟩ : ∃ entry ∈ entries, part = entry.1 ∨ part = entry.2 := by
      rcases List.mem_append.mp h with hkey | hvalue
      · obtain ⟨entry, hentry, rfl⟩ := List.mem_map.mp hkey
        exact ⟨entry, hentry, .inl rfl⟩
      · obtain ⟨entry, hentry, rfl⟩ := List.mem_map.mp hvalue
        exact ⟨entry, hentry, .inr rfl⟩
    have hsize := List.sizeOf_lt_of_mem hentry
    simp only [Prod.mk.sizeOf_spec] at hsize
    simp only [map.sizeOf_spec]
    rcases hpart with rfl | rfl <;> omega
  | record kind fields =>
    have hsize := hfields h
    simp only [record.sizeOf_spec]
    omega
  | object face attributes =>
    have hsize := hfields h
    simp only [object.sizeOf_spec]
    omega
  | standIn face base | dressed base face =>
    obtain rfl := List.mem_singleton.mp h
    simp +arith
  | _ => cases h

/-- To show something of every value, show it of a value all of whose parts have it. -/
@[elab_as_elim]
theorem partsInduction {motive : Value → Prop}
    (step : ∀ value, (∀ part ∈ value.parts, motive part) → motive value) (value : Value) :
    motive value :=
  step value fun part _ => partsInduction step part
termination_by sizeOf value
decreasing_by exact sizeOf_lt_of_mem_parts ‹_›

/-- Null, a scalar or a text of whatever class, a list of values in normal form, or a mapping from
distinct texts to values in normal form. -/
inductive IsNormal : Value → Prop
  | null : IsNormal null
  | bool (value : Bool) : IsNormal (bool value)
  | int (value : Int) : IsNormal (int value)
  | float (value : Binary64) : IsNormal (float value)
  | text (value : Text) : IsNormal (text value)
  | dressed {value : Value} (face : Face) (hscalar : value.isScalar = true) :
      IsNormal (dressed value face)
  | list {items : List Value} (hitems : ∀ item ∈ items, IsNormal item) : IsNormal (list items)
  | map {named : List (Text × Value)} (hnames : (named.map (·.1)).Nodup)
      (hvalues : ∀ entry ∈ named, IsNormal entry.2) :
      IsNormal (map (named.map fun (name, value) => (.text name, value)))

/-! ### Mappings with text keys -/

/-- An insertion brings in its own name and value only. -/
theorem mem_insertNamed {entries : List (Text × Value)} {name : Text} {value : Value}
    {entry : Text × Value} (hentry : entry ∈ insertNamed entries name value) :
    entry ∈ entries ∨ entry = (name, value) := by
  induction entries with
  | nil => simpa [insertNamed] using hentry
  | cons first rest ih =>
    obtain ⟨n, v⟩ := first
    simp only [insertNamed] at hentry
    split at hentry <;> grind

/-- A new name goes to the end. -/
theorem insertNamed_of_notMem {entries : List (Text × Value)} {name : Text} (value : Value)
    (hname : name ∉ entries.map (·.1)) :
    insertNamed entries name value = entries ++ [(name, value)] := by
  induction entries with
  | nil => rfl
  | cons first rest ih =>
    obtain ⟨n, v⟩ := first
    obtain ⟨hne, hrest⟩ : name ≠ n ∧ name ∉ rest.map (·.1) := by simpa using hname
    simp [insertNamed, Ne.symm hne, ih hrest]

/-- Distinct names stay distinct when a value is inserted. -/
theorem nodup_insertNamed {entries : List (Text × Value)} (name : Text) (value : Value)
    (hnames : (entries.map (·.1)).Nodup) :
    ((insertNamed entries name value).map (·.1)).Nodup := by
  induction entries with
  | nil => simp [insertNamed]
  | cons first rest ih =>
    obtain ⟨n, v⟩ := first
    obtain ⟨hhead, hrest⟩ := List.nodup_cons.mp hnames
    simp only [insertNamed]
    split
    · exact hnames
    · next hne =>
      refine List.nodup_cons.mpr ⟨fun hmem => ?_, ih hrest⟩
      obtain ⟨entry, hentry, hn⟩ := List.mem_map.mp hmem
      rcases mem_insertNamed hentry with hold | rfl
      · exact hhead (List.mem_map.mpr ⟨entry, hold, hn⟩)
      · exact hne hn.symm

/-- Distinct names stay distinct when values are inserted one after another. -/
theorem nodup_foldl_insertNamed (found entries : List (Text × Value))
    (hfound : (found.map (·.1)).Nodup) :
    ((entries.foldl (fun found (name, value) => insertNamed found name value) found).map
      (·.1)).Nodup := by
  induction entries generalizing found with
  | nil => exact hfound
  | cons first rest ih => exact ih _ (nodup_insertNamed first.1 first.2 hfound)

/-- Insertions one after another bring in their own names and values only. -/
theorem mem_foldl_insertNamed {found entries : List (Text × Value)} {entry : Text × Value}
    (hentry : entry ∈
      entries.foldl (fun found (name, value) => insertNamed found name value) found) :
    entry ∈ found ∨ entry ∈ entries := by
  induction entries generalizing found with
  | nil => exact .inl hentry
  | cons first rest ih =>
    rcases ih hentry with hinserted | hrest
    · rcases mem_insertNamed hinserted with hold | rfl
      · exact .inl hold
      · exact .inr List.mem_cons_self
    · exact .inr (List.mem_cons_of_mem _ hrest)

/-- Values with new and distinct names go to the end one after another. -/
theorem foldl_insertNamed_of_nodup (found entries : List (Text × Value))
    (hnames : ((found ++ entries).map (·.1)).Nodup) :
    entries.foldl (fun found (name, value) => insertNamed found name value) found =
      found ++ entries := by
  induction entries generalizing found with
  | nil => simp
  | cons first rest ih =>
    obtain ⟨name, value⟩ := first
    have hnew : name ∉ found.map (·.1) := by
      intro hmem
      rw [List.map_append, List.nodup_append] at hnames
      exact hnames.2.2 name hmem name (by simp) rfl
    have hsplit : found ++ (name, value) :: rest = found ++ [(name, value)] ++ rest := by simp
    simp only [List.foldl_cons, insertNamed_of_notMem value hnew]
    rw [hsplit]
    exact ih _ (by rwa [← hsplit])

/-- Named values with distinct names are the entries of the mapping they make. -/
theorem ofNamed_eq_map {entries : List (Text × Value)} (hnames : (entries.map (·.1)).Nodup) :
    ofNamed entries = map (entries.map fun (name, value) => (text name, value)) := by
  rw [ofNamed, foldl_insertNamed_of_nodup [] entries hnames, List.nil_append]

/-- The mapping of named values in normal form is in normal form. -/
theorem isNormal_ofNamed {entries : List (Text × Value)}
    (hvalues : ∀ entry ∈ entries, IsNormal entry.2) : IsNormal (ofNamed entries) := by
  refine .map (nodup_foldl_insertNamed [] entries List.nodup_nil) fun entry hentry => ?_
  rcases mem_foldl_insertNamed hentry with hold | hnew
  · cases hold
  · exact hvalues entry hnew

/-! ### Lists of parts -/

/-- Values are displayed one by one. -/
theorem quotedAll_eq_mapM (values : List Value) : quotedAll values = values.mapM quoted := by
  induction values with
  | nil => rfl
  | cons value rest ih => rw [quotedAll, ih, List.mapM_cons]

/-- Entries are displayed one by one. -/
theorem quotedEntries_eq_mapM (entries : List (Value × Value)) :
    quotedEntries entries = entries.mapM fun entry => do
      return (← quoted entry.1) ++ ':' :: ' ' :: (← quoted entry.2) := by
  induction entries with
  | nil => rfl
  | cons entry rest ih => simp only [quotedEntries, ih, List.mapM_cons, bind_assoc, pure_bind]

/-- Named values are displayed one by one. -/
theorem quotedFields_eq_mapM (fields : List (Text × Value)) :
    quotedFields fields = fields.mapM fun field => do
      return field.1 ++ '=' :: (← quoted field.2) := by
  induction fields with
  | nil => rfl
  | cons field rest ih => simp only [quotedFields, ih, List.mapM_cons, bind_assoc, pure_bind]

/-- Normalising items is one step for each. -/
theorem normalizeAll_eq_mapM (items : List Value) : normalizeAll items = items.mapM normalize := by
  induction items with
  | nil => rfl
  | cons item rest ih => rw [normalizeAll, ih, List.mapM_cons]

/-- Normalising members is one step for each, which displays the member as well. -/
theorem normalizeMembers_eq_mapM (members : List Value) :
    normalizeMembers members = members.mapM fun member => do
      return (← quoted member, ← normalize member) := by
  induction members with
  | nil => rfl
  | cons member rest ih => simp only [normalizeMembers, ih, List.mapM_cons, bind_assoc, pure_bind]

/-- Normalising entries is one step for each, which writes the key as well. -/
theorem normalizeEntries_eq_mapM (entries : List (Value × Value)) :
    normalizeEntries entries = entries.mapM fun entry => do
      return (← plain entry.1, ← normalize entry.2) := by
  induction entries with
  | nil => rfl
  | cons entry rest ih => simp only [normalizeEntries, ih, List.mapM_cons, bind_assoc, pure_bind]

/-- Normalising named values is one step for each. -/
theorem normalizeFields_eq_mapM (fields : List (Text × Value)) :
    normalizeFields fields = fields.mapM fun field => do
      return (field.1, ← normalize field.2) := by
  induction fields with
  | nil => rfl
  | cons field rest ih => simp only [normalizeFields, ih, List.mapM_cons, bind_assoc, pure_bind]

/-- The attributes of an object that are not private are named values. -/
theorem normalizeVisible_eq (attributes : List (Text × Value)) :
    normalizeVisible attributes =
      normalizeFields (attributes.filter fun entry => !isPrivate entry.1) := by
  induction attributes with
  | nil => rfl
  | cons entry rest ih =>
    cases hprivate : isPrivate entry.1 <;>
      simp [normalizeVisible, normalizeFields, hprivate, ih]

/-- Items are normalised one by one. -/
theorem normalizeAll_eq_ok_iff {items normals : List Value} :
    normalizeAll items = .ok normals ↔
      List.Forall₂ (fun item normal => normalize item = .ok normal) items normals := by
  rw [normalizeAll_eq_mapM, mapM_eq_ok_iff]

/-- Members are displayed and normalised one by one. -/
theorem normalizeMembers_eq_ok_iff {members : List Value} {shown : List (Text × Value)} :
    normalizeMembers members = .ok shown ↔ List.Forall₂ (fun member pair =>
      quoted member = .ok pair.1 ∧ normalize member = .ok pair.2) members shown := by
  simp only [normalizeMembers_eq_mapM, mapM_eq_ok_iff, pair_eq_ok_iff]

/-- Entries get their keys in plain form and their values in normal form one by one. -/
theorem normalizeEntries_eq_ok_iff {entries : List (Value × Value)} {named : List (Text × Value)} :
    normalizeEntries entries = .ok named ↔ List.Forall₂ (fun entry pair =>
      plain entry.1 = .ok pair.1 ∧ normalize entry.2 = .ok pair.2) entries named := by
  simp only [normalizeEntries_eq_mapM, mapM_eq_ok_iff, pair_eq_ok_iff]

/-- Named values keep their names and are normalised one by one. -/
theorem normalizeFields_eq_ok_iff {fields named : List (Text × Value)} :
    normalizeFields fields = .ok named ↔ List.Forall₂ (fun field pair =>
      field.1 = pair.1 ∧ normalize field.2 = .ok pair.2) fields named := by
  have hpure (name : Text) (value : Except LayoutError Value) (pair : Text × Value) :
      (do return (name, ← value)) = .ok pair ↔ name = pair.1 ∧ value = .ok pair.2 := by
    cases value <;> simp [pure, Except.pure, Prod.ext_iff]
  simp only [normalizeFields_eq_mapM, mapM_eq_ok_iff, hpure]

/-- The members of a set in order are those given, in another order. -/
theorem mem_inOrder {members : List (Text × Value)} {value : Value} :
    value ∈ inOrder members ↔ value ∈ members.map (·.2) := by
  simp [inOrder]

/-! ### Normal forms of normal forms -/

/-- What normalising yields is in normal form. -/
theorem isNormal_of_normalize {value normal : Value} (h : normalize value = .ok normal) :
    normal.IsNormal := by
  -- Only the contents of a value are in its normal form, and not its keys.
  have hcontent {value : Value} (ih : ∀ part ∈ value.parts, ∀ {normal : Value},
      normalize part = .ok normal → normal.IsNormal) {part normal : Value}
      (hpart : part ∈ value.contents) (hnormal : normalize part = .ok normal) :
      normal.IsNormal :=
    ih part (List.mem_append_right _ hpart) hnormal
  induction value using partsInduction generalizing normal with
  | step value ih =>
    cases value with
    | null =>
      obtain rfl := Except.ok.inj h
      exact .null
    | bool value =>
      obtain rfl := Except.ok.inj h
      exact .bool value
    | int value =>
      obtain rfl := Except.ok.inj h
      exact .int value
    | float value =>
      obtain rfl := Except.ok.inj h
      exact .float value
    | text value =>
      obtain rfl := Except.ok.inj h
      exact .text value
    | bytes content | buffer content =>
      obtain rfl := Except.ok.inj h
      exact .text _
    | list items | tuple items =>
      obtain ⟨normals, hnormals, hlist⟩ := bind_eq_ok_iff.mp h
      obtain rfl := Except.ok.inj hlist
      refine .list fun item hitem => ?_
      obtain ⟨part, hpart, hnormal⟩ :=
        exists_mem_of_forall₂ (normalizeAll_eq_ok_iff.mp hnormals) hitem
      exact hcontent ih hpart hnormal
    | set members | frozenSet members =>
      obtain ⟨shown, hshown, hlist⟩ := bind_eq_ok_iff.mp h
      obtain rfl := Except.ok.inj hlist
      refine .list fun item hitem => ?_
      obtain ⟨pair, hpair, rfl⟩ := List.mem_map.mp (mem_inOrder.mp hitem)
      obtain ⟨part, hpart, _, hnormal⟩ :=
        exists_mem_of_forall₂ (normalizeMembers_eq_ok_iff.mp hshown) hpair
      exact hcontent ih hpart hnormal
    | map entries =>
      obtain ⟨named, hnamed, hmap⟩ := bind_eq_ok_iff.mp h
      obtain rfl := Except.ok.inj hmap
      refine isNormal_ofNamed fun pair hpair => ?_
      obtain ⟨entry, hentry, _, hnormal⟩ :=
        exists_mem_of_forall₂ (normalizeEntries_eq_ok_iff.mp hnamed) hpair
      exact hcontent ih (List.mem_map_of_mem hentry) hnormal
    | record kind fields =>
      obtain ⟨named, hnamed, hmap⟩ := bind_eq_ok_iff.mp h
      obtain rfl := Except.ok.inj hmap
      refine isNormal_ofNamed fun pair hpair => ?_
      obtain ⟨field, hfield, _, hnormal⟩ :=
        exists_mem_of_forall₂ (normalizeFields_eq_ok_iff.mp hnamed) hpair
      exact hcontent ih (List.mem_map_of_mem hfield) hnormal
    | object face attributes =>
      obtain ⟨named, hnamed, hmap⟩ := bind_eq_ok_iff.mp h
      obtain rfl := Except.ok.inj hmap
      rw [normalizeVisible_eq] at hnamed
      refine isNormal_ofNamed fun pair hpair => ?_
      obtain ⟨field, hfield, _, hnormal⟩ :=
        exists_mem_of_forall₂ (normalizeFields_eq_ok_iff.mp hnamed) hpair
      exact hcontent ih (List.mem_map_of_mem (List.mem_of_mem_filter hfield)) hnormal
    | standIn face value => exact hcontent ih (List.mem_singleton.mpr rfl) h
    | printed face =>
      obtain ⟨form, _, htext⟩ := bind_eq_ok_iff.mp h
      obtain rfl := Except.ok.inj htext
      exact .text form
    | dressed base face =>
      rw [normalize] at h
      split at h
      · next hscalar =>
        obtain rfl := Except.ok.inj h
        exact .dressed face hscalar
      · exact hcontent ih (List.mem_singleton.mpr rfl) h
    | missing =>
      obtain rfl := Except.ok.inj h
      exact @IsNormal.map [] List.nodup_nil nofun
    | undefined =>
      obtain rfl := Except.ok.inj h
      exact .text []

/-- A value in normal form is its own normal form. -/
theorem IsNormal.normalize_eq {value : Value} (hvalue : value.IsNormal) :
    normalize value = .ok value := by
  induction hvalue with
  | null | bool | int | float | text => rfl
  | dressed face hscalar => rw [normalize, if_pos hscalar]
  | @list items _ ih =>
    have hitems : normalizeAll items = .ok items :=
      normalizeAll_eq_ok_iff.mpr (List.forall₂_same.mpr ih)
    rw [normalize, hitems]
    rfl
  | @map named hnames _ ih =>
    have hentries :
        normalizeEntries (named.map fun (name, value) => (Value.text name, value)) = .ok named := by
      rw [normalizeEntries_eq_ok_iff, List.forall₂_map_left_iff, List.forall₂_same]
      exact fun entry hentry => ⟨rfl, ih entry hentry⟩
    rw [normalize, hentries, ok_bind, ofNamed_eq_map hnames]
    rfl

/-- Normalising twice is the same as normalising once. -/
theorem normalize_of_normalize {value normal : Value} (h : normalize value = .ok normal) :
    normalize normal = .ok normal :=
  (isNormal_of_normalize h).normalize_eq

/-! ### Values without a normal form -/

/-- Whether the written forms of a value that are not put together from those of its parts are
there. -/
def isWritable : Value → Bool
  | int value => (Decimal.write? value).isSome
  | object face _ | standIn face _ | printed face | dressed _ face =>
    face.plain?.isSome && face.quoted?.isSome
  | _ => true

/-- Nowhere in the value is an integer that is too long to write. -/
inductive IsShort : Value → Prop
  | intro {value : Value} (hforms : value.isWritable = true)
      (hparts : ∀ part ∈ value.parts, IsShort part) : IsShort value

/-- Whether a run fails with errors of some kind only. -/
def FailsOnly {α : Type} (kind : LayoutError → Prop) (run : Except LayoutError α) : Prop :=
  ∀ e, run = .error e → kind e

section Runs

variable {α β : Type} {kind : LayoutError → Prop}

/-- A value is no failure of any kind. -/
theorem failsOnly_ok (value : α) : FailsOnly kind (.ok value) :=
  nofun

/-- A run that goes on fails only as it does itself or as what follows it does. -/
theorem FailsOnly.bind {run : Except LayoutError α} (h : FailsOnly kind run)
    {next : α → Except LayoutError β} (hnext : ∀ value, FailsOnly kind (next value)) :
    FailsOnly kind (run >>= next) := by
  cases run with
  | error e =>
    rintro _ ⟨⟩
    exact h e rfl
  | ok value => exact hnext value

/-- A run goes on with a value, and so fails only before. -/
theorem FailsOnly.map {run : Except LayoutError α} (h : FailsOnly kind run) (next : α → β) :
    FailsOnly kind (do return next (← run)) :=
  h.bind fun _ => failsOnly_ok _

/-- A run over items fails only as its steps do. -/
theorem FailsOnly.mapM {items : List α} {step : α → Except LayoutError β}
    (h : ∀ item ∈ items, FailsOnly kind (step item)) : FailsOnly kind (items.mapM step) := by
  induction items with
  | nil => exact failsOnly_ok []
  | cons item rest ih =>
    obtain ⟨hitem, hrest⟩ := List.forall_mem_cons.mp h
    rw [List.mapM_cons]
    exact hitem.bind fun _ => (ih hrest).map _

/-- A run without errors has a value. -/
theorem FailsOnly.exists_eq_ok {run : Except LayoutError α} (h : FailsOnly (fun _ => False) run) :
    ∃ value, run = .ok value := by
  cases run with
  | error e => exact (h e rfl).elim
  | ok value => exact ⟨value, rfl⟩

/-- Writing a form fails only where the form is missing. -/
theorem failsOnly_written {form : Option Text} (h : kind .unwritable ∨ form.isSome = true) :
    FailsOnly kind (written form) := by
  cases form with
  | none =>
    rintro _ ⟨⟩
    exact h.resolve_right Bool.false_ne_true
  | some form => exact failsOnly_ok form

end Runs

section Kinds

variable {kind : LayoutError → Prop} {value : Value}

/-- A value without integers that are too long has its written forms. -/
theorem IsShort.isWritable (h : value.IsShort) : value.isWritable = true := by
  cases h with
  | intro hforms _ => exact hforms

/-- The parts of a value without integers that are too long have none either. -/
theorem IsShort.of_mem_parts (h : value.IsShort) {part : Value} (hpart : part ∈ value.parts) :
    part.IsShort := by
  cases h with
  | intro _ hparts => exact hparts part hpart

/-- The forms of a value that is not put together are both there, or it may fail. -/
theorem face_of_isWritable {face : Face}
    (h : kind .unwritable ∨ (face.plain?.isSome && face.quoted?.isSome) = true) :
    FailsOnly kind (written face.plain?) ∧ FailsOnly kind (written face.quoted?) := by
  have hboth := h.imp_right Bool.and_eq_true_iff.mp
  exact ⟨failsOnly_written (hboth.imp_right (·.1)), failsOnly_written (hboth.imp_right (·.2))⟩

/-- Displaying a value fails only by an integer that is too long to write. -/
theorem failsOnly_quoted (h : kind .unwritable ∨ value.IsShort) :
    FailsOnly kind (quoted value) := by
  induction value using partsInduction with
  | step value ih =>
    have hforms := h.imp_right (·.isWritable)
    have hpart {part : Value} (hmem : part ∈ value.parts) : FailsOnly kind (quoted part) :=
      ih part hmem (h.imp_right (·.of_mem_parts hmem))
    have hall {items : List Value} (hitems : ∀ item ∈ items, item ∈ value.parts) :
        FailsOnly kind (quotedAll items) := by
      rw [quotedAll_eq_mapM]
      exact .mapM fun item hitem => hpart (hitems item hitem)
    cases value with
    | null | float | text | bytes | buffer | missing | undefined => exact failsOnly_ok _
    | bool value => cases value <;> exact failsOnly_ok _
    | int value => exact failsOnly_written hforms
    | list items => exact (hall fun _ => id).map _
    | tuple items =>
      refine (hall fun _ => id).bind fun parts => ?_
      split <;> exact failsOnly_ok _
    | set members | frozenSet members =>
      cases members with
      | nil => exact failsOnly_ok _
      | cons member rest => exact (hall fun _ => id).map _
    | map entries =>
      rw [quoted, quotedEntries_eq_mapM]
      refine .map (.mapM fun entry hentry => ?_) _
      have hkey := hpart (List.mem_append_left _ (List.mem_map_of_mem hentry))
      have hvalue := hpart (List.mem_append_right _ (List.mem_map_of_mem hentry))
      exact hkey.bind fun _ => hvalue.map _
    | record _ fields =>
      rw [quoted, quotedFields_eq_mapM]
      refine .map (.mapM fun field hfield => ?_) _
      exact (hpart (List.mem_map_of_mem hfield)).map _
    | object face _ | standIn face _ | printed face | dressed _ face =>
      exact (face_of_isWritable hforms).2

/-- Writing a value plainly fails only by an integer that is too long to write. -/
theorem failsOnly_plain (h : kind .unwritable ∨ value.IsShort) : FailsOnly kind (plain value) := by
  have hforms := h.imp_right (·.isWritable)
  unfold plain
  split
  · exact failsOnly_ok _
  · exact (face_of_isWritable hforms).1
  · exact (face_of_isWritable hforms).1
  · exact (face_of_isWritable hforms).1
  · exact (face_of_isWritable hforms).1
  · exact failsOnly_ok _
  · exact failsOnly_quoted h

/-- Normalising a value fails only by an integer that is too long to write. -/
theorem failsOnly_normalize (h : kind .unwritable ∨ value.IsShort) :
    FailsOnly kind (normalize value) := by
  induction value using partsInduction with
  | step value ih =>
    have hforms := h.imp_right (·.isWritable)
    have hshort {part : Value} (hmem : part ∈ value.parts) : kind .unwritable ∨ part.IsShort :=
      h.imp_right (·.of_mem_parts hmem)
    have hpart {part : Value} (hmem : part ∈ value.parts) : FailsOnly kind (normalize part) :=
      ih part hmem (hshort hmem)
    have hfields {fields : List (Text × Value)}
        (hmem : ∀ field ∈ fields, field.2 ∈ value.parts) :
        FailsOnly kind (normalizeFields fields) := by
      rw [normalizeFields_eq_mapM]
      exact .mapM fun field hfield => (hpart (hmem field hfield)).map _
    cases value with
    | null | bool | int | float | text | bytes | buffer | missing | undefined =>
      exact failsOnly_ok _
    | list items | tuple items =>
      rw [normalize, normalizeAll_eq_mapM]
      exact .map (.mapM fun item hitem => hpart hitem) _
    | set members | frozenSet members =>
      rw [normalize, normalizeMembers_eq_mapM]
      refine .map (.mapM fun member hmember => ?_) _
      exact (failsOnly_quoted (hshort hmember)).bind fun _ => (hpart hmember).map _
    | map entries =>
      rw [normalize, normalizeEntries_eq_mapM]
      refine .map (.mapM fun entry hentry => ?_) _
      have hkey := hshort (List.mem_append_left _ (List.mem_map_of_mem hentry))
      have hvalue := hpart (List.mem_append_right _ (List.mem_map_of_mem hentry))
      exact (failsOnly_plain hkey).bind fun _ => hvalue.map _
    | record _ fields => exact (hfields fun _ hfield => List.mem_map_of_mem hfield).map _
    | object face attributes =>
      rw [normalize, normalizeVisible_eq]
      refine FailsOnly.map (hfields fun field hfield => ?_) _
      exact List.mem_map_of_mem (List.mem_of_mem_filter hfield)
    | standIn face base =>
      rw [normalize]
      exact hpart (List.mem_singleton.mpr rfl)
    | printed face => exact (face_of_isWritable hforms).1.map _
    | dressed base face =>
      rw [normalize]
      split
      · exact failsOnly_ok _
      · exact hpart (List.mem_singleton.mpr rfl)

end Kinds

/-- The only error of normalising is that of an integer that is too long to write. -/
theorem eq_unwritable_of_normalize {value : Value} {e : LayoutError}
    (h : normalize value = .error e) : e = .unwritable :=
  @failsOnly_normalize (· = .unwritable) value (.inl rfl) e h

/-- A value without such integers has a normal form. -/
theorem IsShort.exists_normalize {value : Value} (h : value.IsShort) :
    ∃ normal, normalize value = .ok normal :=
  (failsOnly_normalize (.inr h)).exists_eq_ok

end TextGrid.Value
