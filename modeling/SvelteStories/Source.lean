/-
A file to be read, and positions in it:

* `Source`: a file's name and text;
* `lineStarts`, `lastUpTo`: where its lines start, and the last of these places up to an offset;
* `Source.locate`: the line and column of a byte offset;
* `Source.summary`: name and length of the file;
* `Source.slice`: the text under a span, empty where the span makes no sense;
* `Source.report`, `Source.reportAt`: faults placed in the file.
-/
import SvelteStories.Fault
import SvelteStories.Text.Quoted
import SvelteStories.Text.Span

namespace SvelteStories

/-- A file that is read. -/
structure Source where
  /-- The name that reports give. -/
  filename : String
  /-- The text. -/
  text : List Char
deriving Repr

/-- The offsets in a text behind its line feeds; `offset` is the one at which the text starts. -/
def feedEnds : List Char → (offset : Nat) → List Nat
  | [], _ => []
  | c :: t, offset =>
    if c = '\n' then (offset + c.utf8Size) :: feedEnds t (offset + c.utf8Size)
    else feedEnds t (offset + c.utf8Size)

/-- The offsets at which the lines of a text start, in order. -/
def lineStarts (t : List Char) : List Nat :=
  0 :: feedEnds t 0

/-- Halves the `size` places from `base` on in an increasing list until one is left, keeping the half
that `key` belongs to. -/
def narrow (xs : List Nat) (key base size : Nat) : Nat :=
  if 1 < size then
    let middle := base + size / 2
    narrow xs key (if key < xs.getD middle 0 then base else middle) (size - size / 2)
  else base
termination_by size
decreasing_by omega

/-- Looks a number up in an increasing list: the place where it stands, or else the place where it
would have to be put in. -/
def search (xs : List Nat) (key : Nat) : Except Nat Nat :=
  let place := narrow xs key 0 xs.length
  match xs[place]? with
  | none => .error 0
  | some found =>
    if found = key then .ok place
    else if found < key then .error (place + 1)
    else .error place

/-- The place of the last number in an increasing list that is not greater than `key`. -/
def lastUpTo (xs : List Nat) (key : Nat) : Nat :=
  match search xs key with
  | .ok place => place
  | .error place => place - 1

namespace Source

/-- The length of the text in bytes. -/
def length (s : Source) : Nat :=
  byteLength s.text

/-- The line and column of a byte offset. The offset itself is kept even when it lies inside a
character, where the column starts over, or past the end, where the last position stays. -/
def locate (s : Source) (offset : Nat) : Location :=
  let starts := lineStarts s.text
  let line := lastUpTo starts offset
  let start := starts.getD line 0
  let before := slice? s.text ⟨start, min offset s.length⟩
  ⟨offset, line + 1, (before.map List.length).getD 0 + 1⟩

/-- A name in double quotes, with its quotes, backslashes and control characters escaped. -/
def quoteName (name : String) : List Char :=
  let hex (n : Nat) : List Char :=
    (if n < 16 then [] else [hexDigit (n / 16)]) ++ [hexDigit (n % 16)]
  let one (c : Char) : List Char :=
    if c = '"' || c = '\\' then ['\\', c]
    else if c = '\n' then ['\\', 'n']
    else if c = '\r' then ['\\', 'r']
    else if c = '\t' then ['\\', 't']
    else if c = '\x00' then ['\\', '0']
    else if c.toNat < 0x20 || (0x7F ≤ c.toNat && c.toNat < 0xA0) then
      ['\\', 'u', '{'] ++ hex c.toNat ++ ['}']
    else [c]
  '"' :: name.toList.flatMap one ++ ['"']

/-- Name and length of the file, for a reader of logs. -/
def summary (s : Source) : List Char :=
  "SourceFile \x7b filename: ".toList ++ quoteName s.filename
    ++ s!", len: {s.length} \x7d".toList

/-- The text under a span; empty if the span is out of range or cuts a character. -/
def slice (s : Source) (span : Span) : List Char :=
  (slice? s.text span).getD []

/-- A fault of the file as a whole. -/
def report (s : Source) (fault : Fault) : Report :=
  ⟨fault, s.filename, none⟩

/-- A fault at a byte offset. -/
def reportAt (s : Source) (fault : Fault) (offset : Nat) : Report :=
  ⟨fault, s.filename, some (s.locate offset)⟩

end Source

end SvelteStories
