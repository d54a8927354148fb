import TextGrid.Text

/-!
# Decoding UTF-8

Bytes are read one at a time. A byte that cannot continue the code point being read ends it, and the
bytes read for it so far count as one malformed stretch.
-/

namespace TextGrid.Text.Utf8

/-- A code point being read: its value so far, the bytes still to come, and the range of the next
one. -/
structure Pending where
  value : Nat
  missing : Nat
  low : Nat
  high : Nat

/-- What the first byte of a code point announces. -/
inductive Lead
  | complete (c : Char)
  | more (start : Pending)
  | malformed

/-- Reads a first byte. The range of the second byte keeps out overlong forms, surrogates and values
beyond the last code point. -/
def lead (byte : Nat) : Lead :=
  if byte < 0x80 then .complete (Char.ofNat byte)
  else if byte < 0xC2 then .malformed
  else if byte < 0xE0 then .more ⟨byte - 0xC0, 1, 0x80, 0xBF⟩
  else if byte < 0xF0 then
    .more ⟨byte - 0xE0, 2, if byte = 0xE0 then 0xA0 else 0x80, if byte = 0xED then 0x9F else 0xBF⟩
  else if byte < 0xF5 then
    .more ⟨byte - 0xF0, 3, if byte = 0xF0 then 0x90 else 0x80, if byte = 0xF4 then 0x8F else 0xBF⟩
  else .malformed

/-- The code points of the bytes, with `none` for every malformed stretch. -/
def decodeFrom : Option Pending → List UInt8 → List (Option Char)
  | none, [] => []
  | some _, [] => [none]
  | none, byte :: rest =>
    match lead byte.toNat with
    | .complete c => some c :: decodeFrom none rest
    | .more start => decodeFrom (some start) rest
    | .malformed => none :: decodeFrom none rest
  | some part, byte :: rest =>
    if part.low ≤ byte.toNat ∧ byte.toNat ≤ part.high then
      let value := 64 * part.value + (byte.toNat - 0x80)
      if part.missing ≤ 1 then some (Char.ofNat value) :: decodeFrom none rest
      else decodeFrom (some ⟨value, part.missing - 1, 0x80, 0xBF⟩) rest
    else
      none :: match lead byte.toNat with
        | .complete c => some c :: decodeFrom none rest
        | .more start => decodeFrom (some start) rest
        | .malformed => none :: decodeFrom none rest

/-- The code point that stands for a malformed stretch. -/
def replacement : Char := Char.ofNat 0xFFFD

/-- The text of the bytes, with a replacement for every malformed stretch. -/
def decode (bytes : List UInt8) : Text :=
  (decodeFrom none bytes).map (·.getD replacement)

/-- The text of well-formed bytes. -/
def decode? (bytes : List UInt8) : Option Text :=
  (decodeFrom none bytes).mapM id

end TextGrid.Text.Utf8
