import TextGrid.Markup

/-!
# Reading markup

Reading has two parts. `Markup.scan` finds the tags of a text, and cannot fail.
`Markup.checkNesting` then refuses tags that are not well nested, naming the tag at fault and its
offset.
-/

namespace TextGrid

/-- What is wrong with a tag. -/
inductive MarkupFault
  | notOpened
  | mismatched (innermost : Text)
  | neverClosed
  deriving DecidableEq, Repr

/-- A tag at fault, as written, and its offset in code points. -/
structure MarkupError where
  fault : MarkupFault
  tag : Text
  position : Nat
  deriving DecidableEq, Repr

namespace MarkupFault

/-- The wording of a fault. -/
def message : MarkupFault → String
  | notOpened => "closing tag without an opener"
  | mismatched innermost => "closing tag does not match '[" ++ String.ofList innermost ++ "]'"
  | neverClosed => "tag is never closed"

end MarkupFault

/-- The wording of a markup error. -/
def MarkupError.message (e : MarkupError) : String :=
  e.fault.message ++ ": '" ++ String.ofList e.tag ++ "' at offset " ++ toString e.position

namespace Markup

/-- A tag name and its closing bracket at the head of a text, and the text after them. -/
def readName? (text : Text) : Option (Text × Text) :=
  let name := text.takeWhile isNameChar
  match text.dropWhile isNameChar with
  | ']' :: rest => if isTagName name then some (name, rest) else none
  | _ => none

/-- A tag at the head of a text, and the text after it. -/
def readTag? : Text → Option (Span × Text)
  | '[' :: '/' :: rest => (readName? rest).map fun (name, after) => (.closing name, after)
  | '[' :: rest => (readName? rest).map fun (name, after) => (.opening name, after)
  | _ => none

/-- A name that was read, with its bracket, stood at the head of the text. -/
theorem eq_append_of_readName? {text name rest : Text} (h : readName? text = some (name, rest)) :
    text = name ++ ']' :: rest ∧ isTagName name = true := by
  simp only [readName?] at h
  split at h
  · next after hdrop =>
    split at h
    · next hname =>
      obtain ⟨rfl, rfl⟩ := Prod.mk.inj (Option.some.inj h)
      exact ⟨by rw [← hdrop, List.takeWhile_append_dropWhile], hname⟩
    · exact absurd h (by simp)
  · exact absurd h (by simp)

/-- A tag that was read stood at the head of the text in its written form. -/
theorem eq_append_of_readTag? {text rest : Text} {tag : Span}
    (h : readTag? text = some (tag, rest)) : text = tag.print ++ rest := by
  unfold readTag? at h
  split at h
  · obtain ⟨⟨name, after⟩, hread, hpair⟩ := Option.map_eq_some_iff.mp h
    obtain ⟨rfl, rfl⟩ := Prod.mk.inj hpair
    simp [(eq_append_of_readName? hread).1, Span.print]
  · obtain ⟨⟨name, after⟩, hread, hpair⟩ := Option.map_eq_some_iff.mp h
    obtain ⟨rfl, rfl⟩ := Prod.mk.inj hpair
    simp [(eq_append_of_readName? hread).1, Span.print]
  · exact absurd h (by simp)

/-- Reading a tag shortens the text. -/
theorem length_lt_of_readTag? {text rest : Text} {tag : Span}
    (h : readTag? text = some (tag, rest)) : rest.length < text.length := by
  have hlength := congrArg List.length (eq_append_of_readTag? h)
  have hprint : 0 < tag.print.length := by
    unfold readTag? at h
    split at h
    · obtain ⟨_, _, hpair⟩ := Option.map_eq_some_iff.mp h
      obtain ⟨rfl, _⟩ := Prod.mk.inj hpair
      simp [Span.print]
    · obtain ⟨_, _, hpair⟩ := Option.map_eq_some_iff.mp h
      obtain ⟨rfl, _⟩ := Prod.mk.inj hpair
      simp [Span.print]
    · exact absurd h (by simp)
  rw [List.length_append] at hlength
  omega

/-- Puts a code point in front of a span list, into the text that the list begins with, if any. -/
def consChar (c : Char) : List Span → List Span
  | .text content :: rest => .text (c :: content) :: rest
  | spans => .text [c] :: spans

/-- The spans of a text: every tag in it, found from the left, and the text between tags. -/
def scan : Text → List Span
  | [] => []
  | c :: rest =>
    match _h : readTag? (c :: rest) with
    | some (tag, after) => tag :: scan after
    | none => consChar c (scan rest)
termination_by text => text.length
decreasing_by
  · exact length_lt_of_readTag? _h
  · simp

/-- Checks that tags are well nested with matching names. `stack` holds the open tags, innermost
first, each with its offset; `position` is the offset of the next span. -/
def checkNesting : Nat → List (Text × Nat) → List Span → Except MarkupError Unit
  | _, [], [] => .ok ()
  | _, (name, position) :: _, [] => .error ⟨.neverClosed, Span.print (.opening name), position⟩
  | position, stack, .text content :: rest => checkNesting (position + content.length) stack rest
  | position, stack, .opening name :: rest =>
    checkNesting (position + (Span.print (.opening name)).length) ((name, position) :: stack) rest
  | position, [], .closing name :: _ => .error ⟨.notOpened, Span.print (.closing name), position⟩
  | position, (innermost, _) :: outer, .closing name :: rest =>
    if innermost = name then
      checkNesting (position + (Span.print (.closing name)).length) outer rest
    else .error ⟨.mismatched innermost, Span.print (.closing name), position⟩

/-- The spans of a text whose tags are well nested, found by the full scan. -/
def parseTags (text : Text) : Except MarkupError (List Span) := do
  let spans := scan text
  checkNesting 0 [] spans
  return spans

/-- The spans of a text whose tags are well nested. A text without a bracket has no tags. -/
def parse (text : Text) : Except MarkupError (List Span) :=
  if text.contains '[' then parseTags text
  else if text.isEmpty then .ok []
  else .ok [.text text]

/-- The text of well-nested markup, without its tags. -/
def strip (text : Text) : Except MarkupError Text :=
  return plainText (← parse text)

end Markup

end TextGrid
