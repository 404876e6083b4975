/-
Places in markup, and what can be taken from a text at them:

* `Place`: the text from a place on, and its offset;
* `Place.after`: behind a text that stands at the place;
* `splitAtFirst`: the text before the first occurrence of another one;
* `braced`: the code between braces.
-/
import SvelteStories.Markup.Brace
import SvelteStories.Markup.MarkupFault

namespace SvelteStories.Markup

/-- A place in a text. -/
structure Place where
  /-- The number of bytes before it. -/
  offset : Nat
  /-- The text behind it. -/
  rest : List Char
deriving DecidableEq, Repr

namespace Place

/-- The beginning of a text. -/
def start (t : List Char) : Place :=
  ⟨0, t⟩

/-- The place behind a text that stands here. -/
def after (p : Place) (t : List Char) : Place :=
  ⟨p.offset + byteLength t, p.rest.drop t.length⟩

/-- From one place to another. -/
def spanTo (p q : Place) : Span :=
  ⟨p.offset, q.offset⟩

/-- The characters here up to the first that fails a test. -/
def run (p : Place) (test : Char → Bool) : List Char :=
  p.rest.takeWhile test

/-- The place behind the blanks here. -/
def skipBlanks (p : Place) : Place :=
  p.after (p.run isAsciiBlank)

/-- Fails here. -/
def fail {α : Type} (p : Place) (cause : MarkupCause) : Except ReadFault α :=
  .error (.markup cause p.offset)

/-- Whether a text stands here. -/
def startsWith (p : Place) (t : List Char) : Bool :=
  t.isPrefixOf p.rest

end Place

/-- The text before the first occurrence of `sought`, and the text from there on. -/
def splitAtFirst (sought : List Char) : List Char → Option (List Char × List Char)
  | [] => if sought.isEmpty then some ([], []) else none
  | c :: t =>
    if sought.isPrefixOf (c :: t) then some ([], c :: t)
    else (splitAtFirst sought t).map fun (before, rest) => (c :: before, rest)

/-- The code in the braces that open here. -/
def braced (p : Place) : Except ReadFault (List Char × Place) :=
  let code := match p.rest with
    | '{' :: t => BraceScan.start.split? t
    | _ => none
  match code with
  | some (code, _) => .ok (code, p.after ('{' :: code ++ ['}']))
  | none => p.fail .openBrace

end SvelteStories.Markup
