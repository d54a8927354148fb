import TextGrid.Proofs.EqualQuestions

/-!
# Equality of values

Values are compared by what they hold: numbers by size, sets and mappings in any order. On values
that hold each member and each key once this is symmetric and transitive (`Value.Proper.same_symm`,
`Value.Proper.same_trans`), and so it is for questions whose specs are made of such values. A value
need not equal itself, as one number is unequal to all.
-/

namespace TextGrid

section Lists

variable {α β γ : Type}

/-- If each item of a list is matched with one of a list of the same length, and no two items with
the same one, then each item of the other list is matched as well. -/
theorem exists_match_of_length_eq {R : α → β → Prop} {as : List α} {bs : List β}
    (hlength : as.length = bs.length) (hmatch : ∀ a ∈ as, ∃ b ∈ bs, R a b)
    (honce : as.Pairwise fun a a' => ∀ b, R a b → ¬ R a' b) : ∀ b ∈ bs, ∃ a ∈ as, R a b := by
  induction as generalizing bs with
  | nil =>
    obtain rfl := List.eq_nil_of_length_eq_zero hlength.symm
    simp
  | cons a later ih =>
    obtain ⟨hhead, hlater⟩ := List.pairwise_cons.mp honce
    obtain ⟨⟨b, hb, hab⟩, hrest⟩ := List.forall_mem_cons.mp hmatch
    obtain ⟨left, right, rfl⟩ := List.append_of_mem hb
    -- The later items are matched with what is left when this match is taken out.
    have hothers : ∀ b' ∈ left ++ right, ∃ a' ∈ later, R a' b' := by
      apply ih
      · simp only [List.length_cons, List.length_append] at hlength ⊢
        omega
      · intro a' ha'
        obtain ⟨b', hb', hmatched⟩ := hrest a' ha'
        have hne : b' ≠ b := by
          rintro rfl
          exact hhead a' ha' b' hab hmatched
        refine ⟨b', ?_, hmatched⟩
        simpa [hne] using hb'
      · exact hlater
    intro b' hb'
    by_cases hsame : b' = b
    · exact ⟨a, List.mem_cons_self .., by rw [hsame]; exact hab⟩
    · obtain ⟨a', ha', hmatched⟩ := hothers b' (by simpa [hsame] using hb')
      exact ⟨a', List.mem_cons_of_mem _ ha', hmatched⟩

/-- Lists related item by item are related the other way round, if their items are. -/
theorem forall₂_flip_of_mem {R : α → β → Prop} {S : β → α → Prop} {as : List α} {bs : List β}
    (h : List.Forall₂ R as bs) (hflip : ∀ a ∈ as, ∀ b, R a b → S b a) : List.Forall₂ S bs as := by
  induction h with
  | nil => exact .nil
  | cons hab _ ih =>
    obtain ⟨hhead, hlater⟩ := List.forall_mem_cons.mp hflip
    exact .cons (hhead _ hab) (ih hlater)

/-- Two relations of lists item by item compose, if those of the items do. -/
theorem forall₂_comp_of_mem {R : α → β → Prop} {S : β → γ → Prop} {T : α → γ → Prop}
    {as : List α} {bs : List β} {cs : List γ} (h : List.Forall₂ R as bs)
    (h' : List.Forall₂ S bs cs) (hcomp : ∀ a ∈ as, ∀ b c, R a b → S b c → T a c) :
    List.Forall₂ T as cs := by
  induction h generalizing cs with
  | nil =>
    cases h'
    exact .nil
  | cons hab _ ih =>
    cases h' with
    | cons hbc hrest =>
      obtain ⟨hhead, hlater⟩ := List.forall_mem_cons.mp hcomp
      exact .cons (hhead _ _ hab hbc) (ih hrest hlater)

/-- Lists that are each related to one list item by item are related, if their items are. -/
theorem forall₂_of_common {R : α → γ → Prop} {S : β → γ → Prop} {T : α → β → Prop} {as : List α}
    {bs : List β} {cs : List γ} (h : List.Forall₂ R as cs) (h' : List.Forall₂ S bs cs)
    (hcommon : ∀ a ∈ as, ∀ b ∈ bs, ∀ c, R a c → S b c → T a b) : List.Forall₂ T as bs := by
  induction h generalizing bs with
  | nil =>
    cases h'
    exact .nil
  | cons hac _ ih =>
    cases h' with
    | cons hbc hrest =>
      refine .cons (hcommon _ (List.mem_cons_self ..) _ (List.mem_cons_self ..) _ hac hbc) ?_
      exact ih hrest fun a ha b hb =>
        hcommon a (List.mem_cons_of_mem _ ha) b (List.mem_cons_of_mem _ hb)

end Lists

/-- What counts when a value is compared. -/
inductive ValueForm
  | null
  | missing
  | text (content : Text)
  | bytes (content : List UInt8)
  | endless (negative : Bool)
  | list (items : List Value)
  | tuple (items : List Value)
  | members (items : List Value)
  | entries (pairs : List (Value × Value))
  | fields (kind : RecordClass) (named : List (Text × Value))
  | number (numerator : Int) (denominator : Nat)
  /-- Equal to nothing. -/
  | unlike

namespace ValueForm

/-- Whether values of two forms are equal. -/
def Same : ValueForm → ValueForm → Prop
  | null, null | missing, missing => True
  | text a, text b => a = b
  | bytes a, bytes b => a = b
  | endless a, endless b => a = b
  | list as, list bs | tuple as, tuple bs => List.Forall₂ (fun a b => a.same b = true) as bs
  | members as, members bs => as.length = bs.length ∧ ∀ a ∈ as, ∃ b ∈ bs, a.same b = true
  | entries as, entries bs =>
    as.length = bs.length ∧ ∀ a ∈ as, ∃ b ∈ bs, a.1.same b.1 = true ∧ a.2.same b.2 = true
  | fields kind as, fields other bs =>
    kind = other ∧ List.Forall₂ (fun a b => a.1 = b.1 ∧ a.2.same b.2 = true) as bs
  | number m p, number n q => m * q = n * p
  | _, _ => False

/-- The values that a form is made of. -/
def parts : ValueForm → List Value
  | list items | tuple items | members items => items
  | entries pairs => pairs.map (·.1) ++ pairs.map (·.2)
  | fields _ named => named.map (·.2)
  | _ => []

/-- Whether the members of a set, and the keys of a mapping, are different values. -/
def HoldsOnce : ValueForm → Prop
  | members items => items.Pairwise fun a b => a.same b = false
  | entries pairs => pairs.Pairwise fun a b => a.1.same b.1 = false
  | _ => True

end ValueForm

namespace Value

/-- The form of a value. -/
def form : Value → ValueForm
  | null => .null
  | missing => .missing
  | text content => .text content
  | bytes content | buffer content => .bytes content
  | float .nan => .unlike
  | float (.infinite negative) => .endless negative
  | list items => .list items
  | tuple items => .tuple items
  | set items | frozenSet items => .members items
  | map entries => .entries entries
  | record kind fields => .fields kind fields
  | dressed value _ => form value
  | value =>
    match value.fraction? with
    | some (numerator, denominator) => .number numerator denominator
    | none => .unlike

/-! ### What equal values share -/

/-- Rows are equal if their items are, one by one. -/
theorem sameItems_iff {as bs : List Value} :
    sameItems as bs = true ↔ List.Forall₂ (fun a b => same a b = true) as bs := by
  induction as generalizing bs with
  | nil => cases bs <;> simp [sameItems]
  | cons a later ih => cases bs <;> simp [sameItems, same, ih]

/-- Named values are equal if they have the same names and equal values, one by one. -/
theorem sameFields_iff {as bs : List (Text × Value)} :
    sameFields as bs = true ↔
      List.Forall₂ (fun a b => a.1 = b.1 ∧ same a.2 b.2 = true) as bs := by
  induction as generalizing bs with
  | nil => cases bs <;> simp [sameFields]
  | cons a later ih => cases bs <;> simp [sameFields, same, ih]

/-- Values are among others if each of them equals one of those. -/
theorem allAmong_iff {as bs : List Value} :
    allAmong as bs = true ↔ ∀ a ∈ as, ∃ b ∈ bs, same a b = true := by
  induction as with
  | nil => simp [allAmong]
  | cons a later ih => simp [allAmong, same, ih]

/-- Entries are among others if each of them equals one of those in key and value. -/
theorem allEntriesAmong_iff {as bs : List (Value × Value)} :
    allEntriesAmong as bs = true ↔
      ∀ a ∈ as, ∃ b ∈ bs, same a.1 b.1 = true ∧ same a.2 b.2 = true := by
  induction as with
  | nil => simp [allEntriesAmong]
  | cons a later ih => simp [allEntriesAmong, same, ih]

/-- Written forms of its own do not count for the form of a value. -/
theorem form_bare (value : Value) : value.bare.form = value.form := by
  induction value using bareInduction with
  | bare value h => rw [bare_of_ne h]
  | dressed value _ ih => exact ih

/-- Nor do they count for what it equals. -/
theorem sameAs_bare (value other : Value) : sameAs value.bare other = sameAs value other := by
  induction value using bareInduction with
  | bare value h => rw [bare_of_ne h]
  | dressed value _ ih => exact ih

/-- Values without written forms of their own are compared by their forms. -/
theorem sameAs_iff_form {a b : Value} (ha : ∀ base face, a ≠ dressed base face)
    (hb : ∀ base face, b ≠ dressed base face) : sameAs a b = true ↔ a.form.Same b.form := by
  cases a with
  | dressed base face => exact absurd rfl (ha base face)
  | float value =>
    cases value <;> cases b with
    | dressed base face => exact absurd rfl (hb base face)
    | float other =>
      cases other <;> simp [sameAs, form, ValueForm.Same, fraction?, Binary64.fraction?]
    | _ => simp [sameAs, form, ValueForm.Same, fraction?, Binary64.fraction?]
  | _ =>
    cases b with
    | dressed base face => exact absurd rfl (hb base face)
    | float other =>
      cases other <;> simp [sameAs, form, ValueForm.Same, fraction?, Binary64.fraction?]
    | _ => simp [sameAs, form, ValueForm.Same, fraction?, sameItems_iff, sameFields_iff,
        allAmong_iff, allEntriesAmong_iff]

/-- Values are compared by their forms. -/
theorem same_iff_form {a b : Value} : same a b = true ↔ a.form.Same b.form := by
  rw [same, ← sameAs_bare, sameAs_iff_form (bare_ne a) (bare_ne b), form_bare, form_bare]

/-- Whether sets hold each member once and mappings each key, all through a value. Sets
and mappings that are built one by one do (`Proper.set_distinct`, `Proper.ofEntries`). -/
inductive Proper : Value → Prop
  | intro {value : Value} (honce : value.form.HoldsOnce)
      (hparts : ∀ part ∈ value.form.parts, Proper part) : Proper value

/-- Equal fractions over positive denominators. -/
theorem mul_eq_trans {m n o : Int} {p q r : Nat} (hq : 0 < q) (hab : m * q = n * p)
    (hbc : n * r = o * q) : m * r = o * p := by
  have hq' : (q : Int) ≠ 0 := by omega
  apply Int.eq_of_mul_eq_mul_right hq'
  calc m * r * q = m * q * r := by rw [Int.mul_assoc, Int.mul_comm (r : Int), ← Int.mul_assoc]
    _ = n * r * p := by rw [hab, Int.mul_assoc, Int.mul_comm (p : Int), ← Int.mul_assoc]
    _ = o * p * q := by rw [hbc, Int.mul_assoc, Int.mul_comm (q : Int), ← Int.mul_assoc]

/-- A form that is a number is the fraction that the value denotes. -/
theorem fraction?_of_form {value : Value} {numerator : Int} {denominator : Nat}
    (h : value.form = .number numerator denominator) :
    value.fraction? = some (numerator, denominator) := by
  induction value using bareInduction with
  | dressed base _ ih => exact ih h
  | bare value hbare =>
    cases value with
    | float number => cases number <;> simp_all [form, fraction?, Binary64.fraction?]
    | _ => simp_all [form, fraction?]

/-- Equality is transitive if it is on the parts of the first value. -/
theorem same_trans_of_parts {a b c : Value}
    (hparts : ∀ part ∈ a.form.parts, ∀ {b c : Value}, same part b = true → same b c = true →
      same part c = true)
    (hab : same a b = true) (hbc : same b c = true) : same a c = true := by
  rw [same_iff_form] at hab hbc ⊢
  have hpositive : ∀ n q, b.form = .number n q → 0 < q := by
    intro n q hform
    exact denominator_pos (fraction?_of_form hform)
  generalize a.form = first, b.form = second, c.form = third at *
  cases first <;> cases second <;> simp only [ValueForm.Same] at hab <;> cases third <;>
    simp only [ValueForm.Same] at hbc ⊢
  case text => exact hab.trans hbc
  case bytes => exact hab.trans hbc
  case endless => exact hab.trans hbc
  case list | tuple => exact forall₂_comp_of_mem hab hbc fun a ha b c => hparts a ha
  case members as bs cs =>
    constructor
    · exact hab.1.trans hbc.1
    · intro a ha
      obtain ⟨b, hb, hfirst⟩ := hab.2 a ha
      obtain ⟨c, hc, hsecond⟩ := hbc.2 b hb
      exact ⟨c, hc, hparts a ha hfirst hsecond⟩
  case entries as bs cs =>
    constructor
    · exact hab.1.trans hbc.1
    · intro a ha
      obtain ⟨b, hb, hkey, hvalue⟩ := hab.2 a ha
      obtain ⟨c, hc, hkey', hvalue'⟩ := hbc.2 b hb
      refine ⟨c, hc, hparts a.1 ?_ hkey hkey', hparts a.2 ?_ hvalue hvalue'⟩
      · exact List.mem_append_left _ (List.mem_map_of_mem ha)
      · exact List.mem_append_right _ (List.mem_map_of_mem ha)
  case fields kind as other bs another cs =>
    refine ⟨hab.1.trans hbc.1, forall₂_comp_of_mem hab.2 hbc.2 fun a ha b c hfirst hsecond => ?_⟩
    exact ⟨hfirst.1.trans hsecond.1,
      hparts a.2 (List.mem_map_of_mem ha) hfirst.2 hsecond.2⟩
  case number => exact mul_eq_trans (hpositive _ _ rfl) hab hbc

/-- Equality is symmetric if it is symmetric and transitive on the parts of the first value. -/
theorem same_symm_of_parts {a b : Value} (honce : a.form.HoldsOnce)
    (hsymm : ∀ part ∈ a.form.parts, ∀ {b : Value}, same part b = true → same b part = true)
    (htrans : ∀ part ∈ a.form.parts, ∀ {b c : Value}, same part b = true → same b c = true →
      same part c = true)
    (h : same a b = true) : same b a = true := by
  -- Parts that equal one value equal each other, so different ones are matched differently.
  have hdiffer : ∀ {part part' : Value}, part ∈ a.form.parts → part' ∈ a.form.parts →
      same part part' = false → ∀ {b : Value}, same part b = true → ¬ same part' b = true := by
    intro part part' hpart hpart' hne b hab hab'
    rw [htrans part hpart hab (hsymm part' hpart' hab')] at hne
    cases hne
  rw [same_iff_form] at h ⊢
  generalize a.form = first, b.form = second at *
  cases first <;> cases second <;> simp only [ValueForm.Same] at h ⊢
  case text => exact h.symm
  case bytes => exact h.symm
  case endless => exact h.symm
  case list | tuple => exact forall₂_flip_of_mem h fun a ha b => hsymm a ha
  case members as bs =>
    refine ⟨h.1.symm, fun b hb => ?_⟩
    have hpair : as.Pairwise fun a a' => ∀ b, same a b = true → ¬ same a' b = true :=
      List.Pairwise.imp_of_mem (fun ha ha' hne b => hdiffer ha ha' hne) honce
    obtain ⟨a, ha, hab⟩ := exists_match_of_length_eq h.1 h.2 hpair b hb
    exact ⟨a, ha, hsymm a ha hab⟩
  case entries as bs =>
    refine ⟨h.1.symm, fun b hb => ?_⟩
    have hkey : ∀ {a}, a ∈ as → a.1 ∈ (ValueForm.entries as).parts := fun ha =>
      List.mem_append_left _ (List.mem_map_of_mem ha)
    have hvalue : ∀ {a}, a ∈ as → a.2 ∈ (ValueForm.entries as).parts := fun ha =>
      List.mem_append_right _ (List.mem_map_of_mem ha)
    have hpair : as.Pairwise fun a a' => ∀ b : Value × Value,
        (same a.1 b.1 = true ∧ same a.2 b.2 = true) →
        ¬ (same a'.1 b.1 = true ∧ same a'.2 b.2 = true) :=
      List.Pairwise.imp_of_mem (fun ha ha' hne b hab hab' =>
        hdiffer (hkey ha) (hkey ha') hne hab.1 hab'.1) honce
    obtain ⟨a, ha, hab⟩ := exists_match_of_length_eq h.1 h.2 hpair b hb
    exact ⟨a, ha, hsymm a.1 (hkey ha) hab.1, hsymm a.2 (hvalue ha) hab.2⟩
  case fields kind as other bs =>
    refine ⟨h.1.symm, forall₂_flip_of_mem h.2 fun a ha b hab => ?_⟩
    exact ⟨hab.1.symm, hsymm a.2 (List.mem_map_of_mem ha) hab.2⟩
  case number => exact h.symm

namespace Proper

/-- Equality is symmetric and transitive on proper values. -/
theorem same_symm_trans {a : Value} (ha : a.Proper) :
    (∀ {b : Value}, same a b = true → same b a = true) ∧
      ∀ {b c : Value}, same a b = true → same b c = true → same a c = true := by
  induction ha with
  | intro honce _ ih =>
    constructor
    · exact same_symm_of_parts honce (fun part hpart => (ih part hpart).1) fun part hpart =>
        (ih part hpart).2
    · exact same_trans_of_parts fun part hpart => (ih part hpart).2

/-- Equality is symmetric. -/
theorem same_symm {a b : Value} (ha : a.Proper) (h : same a b = true) : same b a = true :=
  ha.same_symm_trans.1 h

/-- Equality is transitive. -/
theorem same_trans {a b c : Value} (ha : a.Proper) (hab : same a b = true)
    (hbc : same b c = true) : same a c = true :=
  ha.same_symm_trans.2 hab hbc

/-- Values equal to one value are equal. -/
theorem same_of_same {a b c : Value} (ha : a.Proper) (hb : b.Proper) (hac : same a c = true)
    (hbc : same b c = true) : same a b = true :=
  ha.same_trans hac (hb.same_symm hbc)

/-- Null is proper. -/
theorem null : Value.null.Proper :=
  .intro trivial nofun

/-- A text is proper. -/
theorem text (content : Text) : (Value.text content).Proper :=
  .intro trivial nofun

/-! ### Values that are built -/

/-- A mapping is proper if its keys are different and all its keys and values are proper. -/
theorem map_iff {entries : List (Value × Value)} :
    (Value.map entries).Proper ↔
      entries.Pairwise (fun a b => same a.1 b.1 = false) ∧
        ∀ entry ∈ entries, entry.1.Proper ∧ entry.2.Proper := by
  constructor
  · rintro ⟨honce, hparts⟩
    refine ⟨honce, fun entry hentry => ⟨hparts entry.1 ?_, hparts entry.2 ?_⟩⟩
    · exact List.mem_append_left _ (List.mem_map_of_mem hentry)
    · exact List.mem_append_right _ (List.mem_map_of_mem hentry)
  · rintro ⟨honce, hentries⟩
    refine .intro honce fun part hpart => ?_
    rcases List.mem_append.mp hpart with hkey | hvalue
    · obtain ⟨entry, hentry, rfl⟩ := List.mem_map.mp hkey
      exact (hentries entry hentry).1
    · obtain ⟨entry, hentry, rfl⟩ := List.mem_map.mp hvalue
      exact (hentries entry hentry).2

/-- An insertion brings in no key but its own. -/
theorem fst_of_mem_insertEntry {entries : List (Value × Value)} {key value : Value}
    {entry : Value × Value} (h : entry ∈ insertEntry entries key value) :
    entry.1 = key ∨ ∃ older ∈ entries, entry.1 = older.1 := by
  induction entries with
  | nil =>
    obtain rfl := List.mem_singleton.mp h
    exact Or.inl rfl
  | cons first later ih =>
    rw [insertEntry] at h
    split at h
    · rcases List.mem_cons.mp h with rfl | hlater
      · exact Or.inr ⟨first, List.mem_cons_self .., rfl⟩
      · exact Or.inr ⟨entry, List.mem_cons_of_mem _ hlater, rfl⟩
    · rcases List.mem_cons.mp h with rfl | hlater
      · exact Or.inr ⟨first, List.mem_cons_self .., rfl⟩
      · obtain hkey | ⟨older, holder, hfirst⟩ := ih hlater
        · exact Or.inl hkey
        · exact Or.inr ⟨older, List.mem_cons_of_mem _ holder, hfirst⟩

/-- One more entry finds the key that it equals, so that keys stay different. -/
theorem insertEntry {entries : List (Value × Value)} {key value : Value}
    (h : (Value.map entries).Proper) (hkey : key.Proper) (hvalue : value.Proper) :
    (Value.map (Value.insertEntry entries key value)).Proper := by
  induction entries with
  | nil =>
    refine map_iff.mpr ⟨List.pairwise_singleton _ _, fun entry hentry => ?_⟩
    obtain rfl := List.mem_singleton.mp hentry
    exact ⟨hkey, hvalue⟩
  | cons first later ih =>
    obtain ⟨honce, hentries⟩ := map_iff.mp h
    obtain ⟨hfirst, hlater⟩ := List.pairwise_cons.mp honce
    obtain ⟨hhead, hrest⟩ := List.forall_mem_cons.mp hentries
    rw [Value.insertEntry]
    split
    · exact map_iff.mpr ⟨List.pairwise_cons.mpr ⟨hfirst, hlater⟩,
        List.forall_mem_cons.mpr ⟨⟨hhead.1, hvalue⟩, hrest⟩⟩
    · next hother =>
      obtain ⟨hgrown, hgrownEntries⟩ := map_iff.mp (ih (map_iff.mpr ⟨hlater, hrest⟩))
      refine map_iff.mpr ⟨List.pairwise_cons.mpr ⟨fun entry hentry => ?_, hgrown⟩,
        List.forall_mem_cons.mpr ⟨hhead, hgrownEntries⟩⟩
      obtain hnew | ⟨older, holder, hold⟩ := fst_of_mem_insertEntry hentry
      · rw [hnew]
        simpa using hother
      · rw [hold]
        exact hfirst older holder

/-- A mapping that is built entry by entry holds each key once. -/
theorem ofEntries {entries : List (Value × Value)}
    (h : ∀ entry ∈ entries, entry.1.Proper ∧ entry.2.Proper) :
    (Value.ofEntries entries).Proper := by
  have hfound : (Value.map []).Proper := map_iff.mpr ⟨.nil, by simp⟩
  rw [Value.ofEntries]
  generalize [] = found at hfound ⊢
  induction entries generalizing found with
  | nil => exact hfound
  | cons first later ih =>
    obtain ⟨hfirst, hlater⟩ := List.forall_mem_cons.mp h
    exact ih hlater _ (hfound.insertEntry hfirst.1 hfirst.2)

/-- A set that is built member by member holds each member once. -/
theorem set_distinct {members : List Value} (h : ∀ member ∈ members, member.Proper) :
    (Value.set (distinct members)).Proper := by
  have hfold : ∀ {found : List Value}, (Value.set found).Proper →
      (Value.set (members.foldl (fun found member =>
        if found.any (same member) then found else found ++ [member]) found)).Proper := by
    induction members with
    | nil => exact id
    | cons first later ih =>
      intro found hfound
      obtain ⟨hfirst, hlater⟩ := List.forall_mem_cons.mp h
      apply ih hlater
      beta_reduce
      split
      · exact hfound
      · next hnew =>
        obtain ⟨honce, hparts⟩ := hfound
        refine .intro ?_ (List.forall_mem_append.mpr
          ⟨hparts, List.forall_mem_singleton.mpr hfirst⟩)
        refine List.pairwise_append.mpr ⟨honce, List.pairwise_singleton _ _, ?_⟩
        intro older holder newer hnewer
        obtain rfl := List.mem_singleton.mp hnewer
        -- The members are compared the other way round when the set is built.
        cases hsame : same older newer with
        | false => rfl
        | true =>
          have hback := (hparts older holder).same_symm hsame
          exact absurd (List.any_eq_true.mpr ⟨older, holder, hback⟩) hnew
  exact hfold (.intro .nil nofun)

end Proper

end Value

/-! ### Equality of questions -/

/-- Whether the bounds of a width rule are proper. -/
def WidthRule.IsProper : WidthRule → Prop
  | bounded least most => least.Proper ∧ most.Proper
  | _ => True

/-- Width rules equal to one rule are equal. -/
theorem WidthRule.same_of_same {a b c : WidthRule} (ha : a.IsProper) (hb : b.IsProper)
    (hac : a.same c = true) (hbc : b.same c = true) : a.same b = true := by
  cases c <;> cases a <;> simp only [same, Bool.and_eq_true, Bool.false_eq_true] at hac <;>
    cases b <;> simp only [same, Bool.and_eq_true, Bool.false_eq_true] at hbc ⊢
  case fixed => simp_all
  case bounded =>
    exact ⟨ha.1.same_of_same hb.1 hac.1 hbc.1, ha.2.same_of_same hb.2 hac.2 hbc.2⟩
  case fraction => simp_all

/-- Whether the marker or the indent of an overflow rule is proper. -/
def Overflow.IsProper : Overflow → Prop
  | truncate _ marker => marker.Proper
  | wrap indent => indent.Proper
  | _ => True

/-- Overflow rules equal to one rule are equal. -/
theorem Overflow.same_of_same {a b c : Overflow} (ha : a.IsProper) (hb : b.IsProper)
    (hac : a.same c = true) (hbc : b.same c = true) : a.same b = true := by
  simp only [same] at hac hbc ⊢
  cases c <;> cases a <;> simp only [Bool.and_eq_true, Bool.false_eq_true, beq_iff_eq] at hac <;>
    cases b <;> simp only [Bool.and_eq_true, Bool.false_eq_true, beq_iff_eq] at hbc ⊢
  case truncate => exact ⟨hac.1.trans hbc.1.symm, Value.Proper.same_of_same ha hb hac.2 hbc.2⟩
  case wrap => exact Value.Proper.same_of_same ha hb hac hbc

/-- Whether the value of a style source that is no name is proper. -/
def StyleSource.IsProper : StyleSource → Prop
  | nothing value => value.Proper
  | _ => True

/-- Style sources equal to one source are equal. -/
theorem StyleSource.same_of_same {a b c : StyleSource} (ha : a.IsProper) (hb : b.IsProper)
    (hac : a.same c = true) (hbc : b.same c = true) : a.same b = true := by
  cases c <;> cases a <;> simp only [same, Bool.false_eq_true, beq_iff_eq] at hac <;>
    cases b <;> simp only [same, Bool.false_eq_true, beq_iff_eq] at hbc ⊢
  case named => exact hac.trans hbc.symm
  case nothing => exact Value.Proper.same_of_same ha hb hac hbc

/-- Whether the values of a layout are proper. -/
structure ColumnLayout.IsProper (layout : ColumnLayout) : Prop where
  key : layout.key.Proper
  name : layout.name.Proper
  header : layout.header.Proper
  width : layout.width.IsProper
  overflow : layout.overflow.IsProper
  style : ∀ source ∈ layout.style, source.IsProper

/-- Layouts equal to one layout are equal. -/
theorem ColumnLayout.same_of_same {a b c : ColumnLayout} (ha : a.IsProper) (hb : b.IsProper)
    (hac : a.same c = true) (hbc : b.same c = true) : a.same b = true := by
  simp only [same, Bool.and_eq_true, beq_iff_eq] at hac hbc ⊢
  obtain ⟨⟨⟨⟨⟨⟨hkey, hname⟩, hheader⟩, hwidth⟩, hoverflow⟩, hanchor⟩, hstyle⟩ := hac
  obtain ⟨⟨⟨⟨⟨⟨hkey', hname'⟩, hheader'⟩, hwidth'⟩, hoverflow'⟩, hanchor'⟩, hstyle'⟩ := hbc
  refine ⟨⟨⟨⟨⟨⟨ha.key.same_of_same hb.key hkey hkey', ha.name.same_of_same hb.name hname hname'⟩,
    ha.header.same_of_same hb.header hheader hheader'⟩,
    WidthRule.same_of_same ha.width hb.width hwidth hwidth'⟩,
    Overflow.same_of_same ha.overflow hb.overflow hoverflow hoverflow'⟩,
    hanchor.trans hanchor'.symm⟩, ?_⟩
  have hstyles := ha.style
  have hstyles' := hb.style
  generalize a.style = first, b.style = second, c.style = third at *
  cases third <;> cases first <;> simp only [Bool.false_eq_true] at hstyle <;> cases second <;>
    simp only [Bool.false_eq_true] at hstyle' ⊢
  case some source first second =>
    exact StyleSource.same_of_same (hstyles first rfl) (hstyles' second rfl) hstyle hstyle'

namespace Spec

/-- Whether the values of all columns are proper. -/
def IsProper (spec : Spec) : Prop :=
  ∀ column ∈ spec.columns, column.toColumnLayout.IsProper

/-- Specs equal to one spec are equal. -/
theorem same_of_same {a b c : Spec} (ha : a.IsProper) (hb : b.IsProper) (hac : a.same c = true)
    (hbc : b.same c = true) : a.same b = true := by
  rw [same_iff] at hac hbc ⊢
  refine ⟨?_, hac.2.trans hbc.2.symm⟩
  exact forall₂_of_common hac.1 hbc.1 fun column hcolumn other hother _ =>
    ColumnLayout.same_of_same (ha column hcolumn) (hb other hother)

end Spec

/-- Questions equal to one question are equal. -/
theorem WidthQuery.same_of_same {a b c : WidthQuery} (ha : a.spec.IsProper) (hb : b.spec.IsProper)
    (hac : a.same c = true) (hbc : b.same c = true) : a.same b = true := by
  simp only [same, Bool.and_eq_true, beq_iff_eq] at hac hbc ⊢
  obtain ⟨⟨hspec, htotal⟩, hmeasured⟩ := hac
  obtain ⟨⟨hspec', htotal'⟩, hmeasured'⟩ := hbc
  exact ⟨⟨Spec.same_of_same ha hb hspec hspec', htotal.trans htotal'.symm⟩,
    hmeasured.trans hmeasured'.symm⟩

end TextGrid
