import TextGrid.Number.Binary64
import TextGrid.Text

/-!
# Record values

Records come from callers in many shapes: scalars, bytes, sequences, sets, mappings, records with
named fields and objects with attributes. `Value` covers them all; `Value.normalize` reduces them to
scalars, texts, lists and mappings with text keys.

A value may be of a class that is derived from one of these kinds and words its values in its own
way, as a text that is one of a set of words does. It is like the value it is derived from, and
equal to it, in everything but its written forms.
-/

namespace TextGrid

/-- The written forms of a value of a class that words its values in its own way. A form is lacking
where it holds an integer of more digits than are written. -/
structure Face where
  /-- The plain form. -/
  plain? : Option Text
  /-- The displayed form. -/
  quoted? : Option Text
  deriving DecidableEq, Repr

/-- The class of records with named fields. A number tells classes of one name apart. -/
structure RecordClass where
  name : Text
  serial : Nat
  deriving DecidableEq, Repr

/-- A value that a caller may pass in a record. -/
inductive Value
  /-- The null value. -/
  | null
  | bool (value : Bool)
  | int (value : Int)
  | float (value : Binary64)
  | text (value : Text)
  /-- Bytes that are read as a text. -/
  | bytes (content : List UInt8)
  /-- Bytes that are read as a text, and as a row of numbers when they stand for a whole record. -/
  | buffer (content : List UInt8)
  | list (items : List Value)
  | tuple (items : List Value)
  /-- Members in the order in which they are met. -/
  | set (members : List Value)
  | frozenSet (members : List Value)
  /-- Keys and values in order of insertion. -/
  | map (entries : List (Value × Value))
  /-- A record with named fields. -/
  | record (kind : RecordClass) (fields : List (Text × Value))
  /-- An object with attributes; one whose name begins with an underscore is private. -/
  | object (face : Face) (attributes : List (Text × Value))
  /-- An object that offers another value in its place. -/
  | standIn (face : Face) (value : Value)
  /-- An object of which only the written forms are known. -/
  | printed (face : Face)
  /-- Another value with written forms of its own. -/
  | dressed (value : Value) (face : Face)
  /-- The mark of a field that a record lacks. -/
  | missing
  /-- The value of a name that was never given one. -/
  | undefined
  deriving Repr

namespace Value

instance : Inhabited Value := ⟨.null⟩

/-- A value without written forms of its own. -/
def bare : Value → Value
  | dressed value _ => bare value
  | value => value

/-- To show something of every value, show it of those without written forms of their own, and of
the others if it holds without these forms. -/
@[elab_as_elim]
theorem bareInduction {motive : Value → Prop}
    (bare : ∀ value, (∀ base face, value ≠ dressed base face) → motive value)
    (dressed : ∀ base face, motive base → motive (dressed base face)) : ∀ value, motive value
  | .dressed base face => dressed base face (bareInduction bare dressed base)
  | null | bool _ | int _ | float _ | text _ | bytes _ | buffer _ | list _ | tuple _ | set _ =>
    bare _ nofun
  | frozenSet _ | map _ | record _ _ | object _ _ | standIn _ _ | printed _ | missing =>
    bare _ nofun
  | undefined => bare _ nofun

/-- A value without written forms of its own is bare. -/
theorem bare_of_ne {value : Value} (h : ∀ base face, value ≠ dressed base face) :
    value.bare = value :=
  bare.eq_2 value h

/-- A bare value has no written forms of its own. -/
theorem bare_ne (value base : Value) (face : Face) : value.bare ≠ dressed base face := by
  induction value using bareInduction with
  | bare value h => rw [bare_of_ne h]; exact h base face
  | dressed value _ ih => exact ih

/-- Whether a value is the null value. -/
def isNull : Value → Bool
  | null => true
  | _ => false

/-- The text that a value is. -/
def text? (value : Value) : Option Text :=
  match value.bare with
  | text content => some content
  | _ => none

/-- A text is itself. -/
@[simp] theorem text?_text (content : Text) : text? (text content) = some content :=
  rfl

/-- Whether a value counts as a yes where one is asked for: zero, nothing and empty do not. -/
def truthy : Value → Bool
  | null | missing | undefined => false
  | bool value => value
  | int value => value != 0
  | float value => !value.isZero
  | text value => !value.isEmpty
  | bytes content | buffer content => !content.isEmpty
  | list items | tuple items | set items | frozenSet items => !items.isEmpty
  | map entries => !entries.isEmpty
  | record _ _ | object _ _ | standIn _ _ | printed _ => true
  | dressed value _ => truthy value

/-- A number as a signed numerator over a positive denominator. -/
def fraction? : Value → Option (Int × Nat)
  | bool value => some (if value then 1 else 0, 1)
  | int value => some (value, 1)
  | float value => value.fraction?
  | dressed value _ => fraction? value
  | _ => none

/-- The greatest integer that is not above a number; the endless ones have none. -/
def floor? (value : Value) : Option Int :=
  value.fraction?.map fun (numerator, denominator) => numerator / denominator

/-- The integer that a value is. A fraction is none, even one that denotes an integer. -/
def integer? : Value → Option Int
  | bool value => some (if value then 1 else 0)
  | int value => some value
  | dressed value _ => integer? value
  | _ => none

/-- An integer is not rounded. -/
theorem floor?_of_integer? : ∀ {value : Value} {whole : Int}, value.integer? = some whole →
    value.floor? = some whole
  | bool value, _, h | int value, _, h => by
    simpa [floor?, fraction?, integer?] using h
  | dressed value _, _, h => @floor?_of_integer? value _ h

/-- An integer is its own floor. -/
@[simp] theorem floor?_int (value : Int) : floor? (int value) = some value :=
  floor?_of_integer? rfl

mutual

/-- Whether a value equals one without written forms of its own. -/
def sameAs : Value → Value → Bool
  | dressed a _, b => sameAs a b
  | null, null | missing, missing => true
  | text a, text b => a == b
  | bytes a, bytes b | bytes a, buffer b | buffer a, bytes b | buffer a, buffer b => a == b
  | float (.infinite a), float (.infinite b) => a == b
  | list as, list bs | tuple as, tuple bs => sameItems as bs
  | set as, set bs | set as, frozenSet bs | frozenSet as, set bs | frozenSet as, frozenSet bs =>
    as.length == bs.length && allAmong as bs
  | map as, map bs => as.length == bs.length && allEntriesAmong as bs
  | record kind as, record other bs => kind == other && sameFields as bs
  | a, b =>
    match a.fraction?, b.fraction? with
    | some (m, p), some (n, q) => m * q == n * p
    | _, _ => false
termination_by structural first => first

/-- Whether two lists hold equal values in the same order. -/
def sameItems : List Value → List Value → Bool
  | [], [] => true
  | a :: as, b :: bs => sameAs a b.bare && sameItems as bs
  | _, _ => false
termination_by structural first => first

/-- Whether two lists of named values have the same names and equal values in the same order. -/
def sameFields : List (Text × Value) → List (Text × Value) → Bool
  | [], [] => true
  | (name, a) :: as, (other, b) :: bs => name == other && sameAs a b.bare && sameFields as bs
  | _, _ => false
termination_by structural first => first

/-- Whether each of the first values equals one of the second ones. -/
def allAmong : List Value → List Value → Bool
  | [], _ => true
  | a :: as, bs => bs.any (fun b => sameAs a b.bare) && allAmong as bs
termination_by structural first => first

/-- Whether each of the first entries equals one of the second ones. -/
def allEntriesAmong : List (Value × Value) → List (Value × Value) → Bool
  | [], _ => true
  | (key, a) :: as, bs =>
    bs.any (fun (other, b) => sameAs key other.bare && sameAs a b.bare) && allEntriesAmong as bs
termination_by structural first => first

end

/-- Whether two values are equal, and so one key of a mapping. Numbers of different kinds are equal
when they denote the same number, the order of members and entries does not matter, and records are
of one class. -/
def same (a b : Value) : Bool :=
  sameAs a b.bare

/-- Entries with one more: a key that is there already keeps its place and takes the new value. -/
def insertEntry (entries : List (Value × Value)) (key value : Value) : List (Value × Value) :=
  match entries with
  | [] => [(key, value)]
  | (k, v) :: rest =>
    if same k key then (k, value) :: rest else (k, v) :: insertEntry rest key value

/-- The mapping that arises by inserting entries one after another. -/
def ofEntries (entries : List (Value × Value)) : Value :=
  map (entries.foldl (fun found (key, value) => insertEntry found key value) [])

/-- The members of a set, each once, in the order in which they first appear. -/
def distinct (members : List Value) : List Value :=
  members.foldl
    (fun found member => if found.any (same member) then found else found ++ [member]) []

/-- Named values with one more: a name that is there already keeps its place. -/
def insertNamed (entries : List (Text × Value)) (name : Text) (value : Value) :
    List (Text × Value) :=
  match entries with
  | [] => [(name, value)]
  | (n, v) :: rest =>
    if n = name then (n, value) :: rest else (n, v) :: insertNamed rest name value

/-- The mapping with text keys that arises by inserting named values one after another. -/
def ofNamed (entries : List (Text × Value)) : Value :=
  map ((entries.foldl (fun found (name, value) => insertNamed found name value) []).map
    fun (name, value) => (text name, value))

/-- The values that are met when a value is gone through one by one: the items of a collection, the
keys of a mapping, the code points of a text, the numbers of bytes. Other values cannot be gone
through. -/
def items? : Value → Option (List Value)
  | list items | tuple items | set items | frozenSet items => some items
  | map entries => some (entries.map (·.1))
  | text content => some (content.map fun c => text [c])
  | bytes content | buffer content => some (content.map fun byte => int byte.toNat)
  | undefined => some []
  | dressed value _ => items? value
  | _ => none

/-- The value of the first entry whose key equals a value. -/
def get? (entries : List (Value × Value)) (key : Value) : Option Value :=
  (entries.find? fun entry => same entry.1 key).map (·.2)

/-- The value of the first entry whose key equals a text. -/
def getText? (entries : List (Value × Value)) (name : Text) : Option Value :=
  get? entries (text name)

end Value

end TextGrid
