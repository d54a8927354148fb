import TextGrid.Text

/-!
# Style markup

A marked-up text is a list of spans: plain text, opening tags and closing tags. Tags take no cells,
so every cut is made inside a text span and none inside a tag. The spans of a piece cut from
well-nested markup are made well-nested again by `Markup.rebalance`.
-/

namespace TextGrid

/-- A stretch of marked-up text. -/
inductive Span
  | text (content : Text)
  | opening (name : Text)
  | closing (name : Text)
  deriving DecidableEq, Repr

namespace Span

/-- The written form of a span. -/
def print : Span → Text
  | text content => content
  | opening name => '[' :: name ++ [']']
  | closing name => '[' :: '/' :: name ++ [']']

/-- The text of a span; tags have none. -/
def content : Span → Text
  | text content => content
  | _ => []

/-- Whether a span is a text span. -/
def isText : Span → Bool
  | text _ => true
  | _ => false

end Span

namespace Markup

/-- Whether a code point may begin a tag name. -/
def isNameStart (c : Char) : Bool :=
  c.isAlpha

/-- Whether a code point may stand in a tag name. -/
def isNameChar (c : Char) : Bool :=
  c.isAlphanum || c == '_' || c == '-'

/-- Whether a text is the name of a tag: a letter, then letters, digits, `_` and `-`, all ASCII. -/
def isTagName : Text → Bool
  | [] => false
  | c :: rest => isNameStart c && rest.all isNameChar

/-- The written form of a span list. -/
def join (spans : List Span) : Text :=
  spans.flatMap Span.print

/-- The text spans one after another, tags left out. -/
def plainText (spans : List Span) : Text :=
  spans.flatMap Span.content

/-- Whether any text span is present. -/
def hasText (spans : List Span) : Bool :=
  spans.any Span.isText

/-- The text between an opening and a closing tag. An empty text takes no tags. -/
def style (content name : Text) : Text :=
  if content.isEmpty then content
  else Span.print (.opening name) ++ content ++ Span.print (.closing name)

/-- Tags that a span list leaves unpaired. Tags are paired by position alone. -/
structure Unpaired where
  /-- Names of closing tags without an opening tag, last one first. -/
  closings : List Text
  /-- Names of opening tags without a closing tag, innermost first. -/
  openings : List Text
  deriving DecidableEq, Repr

namespace Unpaired

/-- The unpaired tags after one more span. -/
def step (tags : Unpaired) : Span → Unpaired
  | .text _ => tags
  | .opening name => { tags with openings := name :: tags.openings }
  | .closing name =>
    match tags.openings with
    | [] => { tags with closings := name :: tags.closings }
    | _ :: outer => { tags with openings := outer }

/-- The unpaired tags of a span list. -/
def ofSpans (spans : List Span) : Unpaired :=
  spans.foldl step ⟨[], []⟩

end Unpaired

/-- Names of the tags still open after a span list, outermost first. -/
def openTags (spans : List Span) : List Text :=
  (Unpaired.ofSpans spans).openings.reverse

/-- One step of `prune`, on the spans kept so far, last one first. -/
def pruneStep (kept : List Span) (span : Span) : List Span :=
  match span, kept with
  | .text [], _ => kept
  | .closing name, .opening last :: before => if last = name then before else span :: kept
  | _, _ => span :: kept

/-- Drops empty text spans, and pairs of tags with nothing between them. -/
def prune (spans : List Span) : List Span :=
  (spans.foldl pruneStep []).reverse

/-- Opens the tags that a slice closes without opening, closes those that it leaves open, and drops
what that leaves empty. -/
def rebalance (spans : List Span) : List Span :=
  let tags := Unpaired.ofSpans spans
  prune (tags.closings.map .opening ++ spans ++ tags.openings.map .closing)

end Markup

end TextGrid
