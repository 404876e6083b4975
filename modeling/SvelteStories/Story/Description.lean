/-
Descriptions written as comments:

* `commentDescription`: the description in a markup comment above a story;
* `ungutter`: a line of a block comment without its star;
* `componentDescription`: the description in the last block comment above the meta declaration.
-/
import SvelteStories.Script.Comment
import SvelteStories.Text.Lines

namespace SvelteStories

/-- A text, unless it is empty. -/
def nonEmpty? (t : List Char) : Option (List Char) :=
  if t.isEmpty then none else some t

/-- The description that a markup comment with this text holds. -/
def commentDescription (t : List Char) : Option (List Char) :=
  nonEmpty? (dedent t)

/-- A line of a block comment without the star at its beginning and one space behind the star. A
line that starts with no star stays as it is. -/
def ungutter (l : List Char) : List Char :=
  match trimStart l with
  | '*' :: ' ' :: rest => rest
  | '*' :: rest => rest
  | _ => l

/-- The description in the last block comment of a list. -/
def componentDescription (comments : List Script.Comment) : Option (List Char) :=
  match comments.reverse.find? (·.kind = .block) with
  | some comment => nonEmpty? (dedent (joinLines ((lines comment.text).map ungutter)))
  | none => none

end SvelteStories
