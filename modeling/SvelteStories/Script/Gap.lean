/-
What stands between two tokens:

* `isLineBreak`, `isScriptBlank`: blanks;
* `blockComment?`: a comment up to its end;
* `Gap`, `skipGap`: blanks and comments up to the next token.
-/
import SvelteStories.Script.Comment
import SvelteStories.Script.Token

namespace SvelteStories.Script

/-- The line breaks of scripts. -/
def isLineBreak (c : Char) : Bool :=
  c = '\n' || c = '\r' || c.toNat = 0x2028 || c.toNat = 0x2029

/-- The blanks of scripts, line breaks included. -/
def isScriptBlank (c : Char) : Bool :=
  isBlank c || c.toNat = 0xFEFF

/-- A block comment's text and what stands behind it, from behind its opening. -/
def blockComment? : List Char → Option (List Char × List Char)
  | [] => none
  | '*' :: '/' :: rest => some ([], rest)
  | c :: t => (blockComment? t).map fun (inside, rest) => (c :: inside, rest)

/-- What stands before a token. -/
structure Gap where
  /-- Where the token starts. -/
  offset : Nat
  /-- The text from the token on. -/
  rest : List Char
  /-- Whether the gap holds a line break, or is the first one. -/
  newline : Bool
  /-- The comments that belong to the token. -/
  comments : List Comment
  /-- What is wrong in the gap. -/
  faults : List SyntaxFault

/-- The blanks at the beginning of a text, and the rest. -/
def splitBlanks (t : List Char) : List Char × List Char :=
  (t.takeWhile isScriptBlank, t.dropWhile isScriptBlank)

/-- A gap with a comment before it. -/
def Gap.withComment (c : Comment) (g : Gap) : Gap :=
  { g with comments := c :: g.comments }

/-- A gap with a fault before it. -/
def Gap.withFault (f : SyntaxFault) (g : Gap) : Gap :=
  { g with faults := f :: g.faults }

/-- The gap at the beginning of a text. A comment on a line of its own belongs to the token behind
it; one on the line of the token before belongs to that one if `before` says so, and so does a block
comment with a semicolon behind it. `isModule` tells that comments in the form of markup are
faults. -/
def skipGap (isModule : Bool) (before : Trailing) :
    (fuel : Nat) → (newline : Bool) → (offset : Nat) → List Char → Gap
  | 0, newline, offset, t => ⟨offset, t, newline, [], []⟩
  | fuel + 1, newline, offset, t =>
    let markup (opening : Nat) (t : List Char) : Gap :=
      let inside := t.takeWhile fun c => !isLineBreak c
      let gap := skipGap isModule before fuel newline (offset + opening + byteLength inside)
        (t.drop inside.length)
      if isModule then gap.withFault ⟨.markupComment, offset⟩ else gap
    match t with
    | '/' :: '/' :: t =>
      let inside := t.takeWhile fun c => !isLineBreak c
      let stop := offset + 2 + byteLength inside
      let gap := skipGap isModule before fuel newline stop (t.drop inside.length)
      if newline || !before.line then gap.withComment ⟨.line, inside, ⟨offset, stop⟩⟩ else gap
    | '/' :: '*' :: t =>
      match blockComment? t with
      | none =>
        let stop := offset + 2 + byteLength t
        ⟨stop, [], newline, [], [⟨.openComment, stop⟩]⟩
      | some (inside, rest) =>
        let stop := offset + 4 + byteLength inside
        let gap := skipGap isModule before fuel (newline || inside.any isLineBreak) stop rest
        let isTrailing := !newline && (before.block || (splitBlanks rest).2.head? = some ';')
        if isTrailing then gap else gap.withComment ⟨.block, inside, ⟨offset, stop⟩⟩
    | '<' :: '!' :: '-' :: '-' :: t => markup 4 t
    | c :: behind =>
      if isScriptBlank c then
        let (blanks, rest) := splitBlanks t
        skipGap isModule before fuel (newline || blanks.any isLineBreak)
          (offset + byteLength blanks) rest
      else if newline && ['-', '-', '>'].isPrefixOf t then markup 3 (behind.drop 2)
      else ⟨offset, t, newline, [], []⟩
    | [] => ⟨offset, [], newline, [], []⟩

end SvelteStories.Script
