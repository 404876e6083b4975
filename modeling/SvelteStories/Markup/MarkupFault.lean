/-
Why markup cannot be read:

* `MarkupCause`: the causes; `MarkupCause.message` is their wording;
* `ReadFault`: a cause in the markup, or one in an expression inside of it, at a byte offset.
-/
import SvelteStories.Script.SyntaxFault

namespace SvelteStories.Markup

/-- The causes of markup that cannot be read. -/
inductive MarkupCause
  /-- An element has no closing tag. -/
  | openElement (name : String)
  /-- A block has no closing clause. -/
  | openBlock
  /-- A comment does not end. -/
  | openComment
  /-- An opening tag does not end. -/
  | openOpeningTag (name : String)
  /-- A closing tag does not end. -/
  | openClosingTag (name : String)
  /-- A brace is not closed. -/
  | openBrace
  /-- A quoted value is not closed. -/
  | openValue
  /-- A closing tag closes nothing. -/
  | strayClosingTag (name : String)
  /-- A clause stands outside of blocks. -/
  | strayClause
  /-- A closing tag closes another element than the innermost one. -/
  | otherClosingTag (name found : String)
  /-- A closing clause closes another block than the innermost one. -/
  | otherClosingClause (kind found : String)
  /-- A snippet goes on with another clause than its closing one. -/
  | snippetClause
  /-- A block of a kind that there is not. -/
  | unknownBlock (kind : String)
  /-- A snippet without a name. -/
  | unnamedSnippet
  /-- Something in an opening tag that is no attribute. -/
  | attributeExpected
  /-- A directive whose value is not in braces. -/
  | directiveValue
  /-- Two scripts of one kind. -/
  | duplicateScript
  /-- Nesting beyond the length of the text, which no text has. -/
  | tooDeep
deriving DecidableEq, Repr

/-- The wording of a cause. -/
def MarkupCause.message : MarkupCause → String
  | openElement name => s!"`<{name}>` was left open"
  | openBlock => "Block was left open"
  | openComment => "Comment was left open, expected `-->`"
  | openOpeningTag name => s!"`<{name}>` opening tag was left open"
  | openClosingTag name => s!"`</{name}` closing tag was left open"
  | openBrace => "Unclosed expression, expected `\x7d`"
  | openValue => "Unterminated attribute value"
  | strayClosingTag name => s!"`</{name}>` attempted to close an element that was not open"
  | strayClause => "Unexpected block closing or continuation"
  | otherClosingTag name found => s!"Expected `</{name}>`, found `</{found}>`"
  | otherClosingClause kind found =>
    s!"Expected `\x7b/{kind}\x7d`, found `\x7b/{found}\x7d`"
  | snippetClause => "Expected `\x7b/snippet\x7d`"
  | unknownBlock kind => s!"Unknown block `\x7b#{kind}\x7d`"
  | unnamedSnippet => "Expected snippet name"
  | attributeExpected => "Expected attribute name"
  | directiveValue => "Directive value must be an `\x7bexpression\x7d`"
  | duplicateScript =>
    "A component can only have one instance-level and one module-level `<script>` element"
  | tooDeep => "Markup is nested too deeply"

/-- What keeps a file from being read, and where. -/
inductive ReadFault
  /-- A fault of the markup. -/
  | markup (cause : MarkupCause) (offset : Nat)
  /-- A fault of an expression or a script. -/
  | script (fault : Script.SyntaxFault)
deriving DecidableEq, Repr

end SvelteStories.Markup
