/-
Comments of scripts.
-/
import SvelteStories.Text.Span

namespace SvelteStories.Script

/-- The two forms of comments. -/
inductive CommentKind
  /-- From `//` to the end of the line. -/
  | line
  /-- Between `/*` and `*/`. -/
  | block
deriving DecidableEq, Repr, Inhabited

/-- A comment of a script. -/
structure Comment where
  /-- Its form. -/
  kind : CommentKind
  /-- Its text without the delimiters. -/
  text : List Char
  /-- Its place, delimiters included. -/
  span : Span
deriving DecidableEq, Repr, Inhabited

end SvelteStories.Script
