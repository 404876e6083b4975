/-
The braces that enclose script code in markup:

* `BraceScan`: how far a reader has got in code, and `BraceScan.step`, one character further;
* `closingBrace?`: the offset of the brace that closes the one at a given offset.

Strings, comments and template literals are passed over, the code inside template literals is not.
Code is not parsed here: a quote opens a string wherever it stands, and two slashes a comment.
-/
import SvelteStories.Text.Span

namespace SvelteStories

/-- What an open brace or an open template literal stands in. -/
inductive Enclosure
  /-- Code. -/
  | code
  /-- The text of a template literal. -/
  | template
deriving DecidableEq, Repr

/-- What the next character is a part of. -/
inductive BraceMode
  /-- Code. -/
  | code
  /-- Code, right behind a slash. -/
  | slash
  /-- A string that ends at this quote. -/
  | string (quote : Char)
  /-- A string, right behind a backslash. -/
  | stringEscape (quote : Char)
  /-- A comment that ends with the line. -/
  | lineComment
  /-- A comment that ends with `*/`. -/
  | blockComment
  /-- Such a comment, right behind a star. -/
  | star
  /-- The text of a template literal. -/
  | template
  /-- Such a text, right behind a backslash. -/
  | templateEscape
  /-- Such a text, right behind a dollar sign. -/
  | dollar
deriving DecidableEq, Repr

/-- How far a reader has got in code that a brace will close. -/
structure BraceScan where
  /-- What the next character is a part of. -/
  mode : BraceMode
  /-- What the braces and template literals still open stand in, the innermost first. The brace
  that is to be closed is not among them. -/
  outer : List Enclosure
deriving DecidableEq, Repr

namespace BraceScan

/-- The reader at the beginning of code. -/
def start : BraceScan :=
  ⟨.code, []⟩

/-- Back into what encloses the brace or literal just closed, unless it was the outermost. -/
def leave : List Enclosure → Option BraceScan
  | [] => none
  | .code :: outer => some ⟨.code, outer⟩
  | .template :: outer => some ⟨.template, outer⟩

/-- One character of code. -/
def stepCode (outer : List Enclosure) (c : Char) : Option BraceScan :=
  if c = '"' || c = '\'' then some ⟨.string c, outer⟩
  else if c = '\x60' then some ⟨.template, .code :: outer⟩
  else if c = '/' then some ⟨.slash, outer⟩
  else if c = '{' then some ⟨.code, .code :: outer⟩
  else if c = '}' then leave outer
  else some ⟨.code, outer⟩

/-- One character of the text of a template literal. -/
def stepTemplate (outer : List Enclosure) (c : Char) : Option BraceScan :=
  if c = '\\' then some ⟨.templateEscape, outer⟩
  else if c = '\x60' then leave outer
  else if c = '$' then some ⟨.dollar, outer⟩
  else some ⟨.template, outer⟩

/-- One character further; nothing if the character closes the outermost brace. -/
def step (s : BraceScan) (c : Char) : Option BraceScan :=
  match s.mode with
  | .code => stepCode s.outer c
  | .slash =>
    if c = '/' then some ⟨.lineComment, s.outer⟩
    else if c = '*' then some ⟨.blockComment, s.outer⟩
    else stepCode s.outer c
  | .string quote =>
    if c = quote then some ⟨.code, s.outer⟩
    else if c = '\\' then some ⟨.stringEscape quote, s.outer⟩
    else some s
  | .stringEscape quote => some ⟨.string quote, s.outer⟩
  | .lineComment => if c = '\n' then some ⟨.code, s.outer⟩ else some s
  | .blockComment => if c = '*' then some ⟨.star, s.outer⟩ else some s
  | .star =>
    if c = '/' then some ⟨.code, s.outer⟩
    else if c = '*' then some s
    else some ⟨.blockComment, s.outer⟩
  | .template => stepTemplate s.outer c
  | .templateEscape => some ⟨.template, s.outer⟩
  | .dollar =>
    if c = '{' then some ⟨.code, .template :: s.outer⟩ else stepTemplate s.outer c

/-- The code before the outermost closing brace, and the text from that brace on. -/
def split? (s : BraceScan) : List Char → Option (List Char × List Char)
  | [] => none
  | c :: t =>
    match s.step c with
    | none => some ([], c :: t)
    | some s => (s.split? t).map fun (code, rest) => (c :: code, rest)

end BraceScan

/-- The offset of the brace that closes the one at `opening`. -/
def closingBrace? (t : List Char) (opening : Nat) : Option Nat :=
  match splitAtByte opening t with
  | some (_, '{' :: t) =>
    (BraceScan.start.split? t).map fun (code, _) => opening + 1 + byteLength code
  | _ => none

end SvelteStories
