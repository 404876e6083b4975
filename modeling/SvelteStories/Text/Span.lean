/-
Texts and the byte offsets into them:

* `byteLength`: the length of a text in UTF-8;
* `splitAtByte`: a text cut in two at a byte offset, if the offset stands between two characters;
* `Span`: a half-open range of byte offsets;
* `slice?`: the text under a span, if both ends stand between characters.

A text is a list of characters; offsets count bytes because that is what editors exchange.
-/
import SvelteStories.Text.CharClass

namespace SvelteStories

/-- The number of bytes that a text takes in UTF-8. -/
def byteLength : List Char → Nat
  | [] => 0
  | c :: t => c.utf8Size + byteLength t

/-- The two parts of a text before and after a byte offset; nothing inside a character or past
the end. -/
def splitAtByte : Nat → List Char → Option (List Char × List Char)
  | 0, t => some ([], t)
  | _ + 1, [] => none
  | n + 1, c :: t =>
    if c.utf8Size ≤ n + 1 then
      (splitAtByte (n + 1 - c.utf8Size) t).map fun (before, after) => (c :: before, after)
    else none

/-- Whether a byte offset stands between two characters or at an end of the text. -/
def isBoundary (t : List Char) (offset : Nat) : Bool :=
  (splitAtByte offset t).isSome

/-- A half-open range of bytes. -/
structure Span where
  /-- Offset of the first byte. -/
  start : Nat
  /-- Offset behind the last byte. -/
  stop : Nat
deriving DecidableEq, Repr, Inhabited

namespace Span

/-- The number of bytes covered; none if the range is inverted. -/
def length (s : Span) : Nat :=
  s.stop - s.start

/-- Whether `inner` lies within `outer`. -/
def contains (outer inner : Span) : Bool :=
  outer.start ≤ inner.start && inner.stop ≤ outer.stop

end Span

/-- The text under a span; nothing if the span is inverted, out of range or cuts a character. -/
def slice? (t : List Char) (s : Span) : Option (List Char) :=
  if s.start ≤ s.stop then
    match splitAtByte s.start t with
    | some (_, rest) => (splitAtByte (s.stop - s.start) rest).map Prod.fst
    | none => none
  else none

/-! ### Trimming -/

/-- The text without its leading blanks. -/
def trimStart (t : List Char) : List Char :=
  t.dropWhile isBlank

/-- The text without its trailing blanks. -/
def trimEnd (t : List Char) : List Char :=
  (t.reverse.dropWhile isBlank).reverse

/-- The text without the blanks at both ends. -/
def trim (t : List Char) : List Char :=
  trimEnd (trimStart t)

/-- The span `s` of a text narrowed to what stands between its blanks; a blank text narrows to
the empty span at the start. -/
def trimmedSpan (t : List Char) (s : Span) : Span :=
  let kept := trimStart t
  match kept with
  | [] => ⟨s.start, s.start⟩
  | _ :: _ =>
    ⟨s.start + (byteLength t - byteLength kept),
      s.stop - (byteLength kept - byteLength (trimEnd kept))⟩

end SvelteStories
