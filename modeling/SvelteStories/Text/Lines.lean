/-
Lines of a text and their common indentation:

* `lines`: the lines of a text, each without its line break;
* `joinLines`: lines put together with line feeds between them;
* `dedent`: the text without the indentation that its non-blank lines share.
-/
import SvelteStories.Text.Span

namespace SvelteStories

/-- The lines of a text. A line ends at a line feed, and a carriage return right before the line
feed goes with it; a final line feed opens no further line. -/
def lines : List Char → List (List Char)
  | [] => []
  | '\n' :: t => [] :: lines t
  | '\r' :: '\n' :: t => [] :: lines t
  | c :: t =>
    match lines t with
    | [] => [[c]]
    | l :: ls => (c :: l) :: ls

/-- Lines with a line feed between each two. -/
def joinLines : List (List Char) → List Char
  | [] => []
  | [l] => l
  | l :: ls => l ++ '\n' :: joinLines ls

/-- Whether a line holds nothing but blanks. -/
def isBlankText (t : List Char) : Bool :=
  t.all isBlank

/-- The number of bytes that a line is indented by. -/
def indentation (l : List Char) : Nat :=
  byteLength l - byteLength (trimStart l)

/-- The smallest indentation of the lines that are not blank. -/
def commonIndentation (ls : List (List Char)) : Nat :=
  ((ls.filter fun l => !isBlankText l).map indentation).min?.getD 0

/-- A line without its first `n` bytes. A line that has no such cut, being shorter or blank in
wider characters, loses its indentation instead. -/
def unindent (n : Nat) (l : List Char) : List Char :=
  match splitAtByte n l with
  | some (_, rest) => rest
  | none => trimStart l

/-- The text without its common indentation and without the blanks around it. -/
def dedent (t : List Char) : List Char :=
  let ls := lines t
  trim (joinLines (ls.map (unindent (commonIndentation ls))))

end SvelteStories
