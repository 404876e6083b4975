/-
Trees of markup:

* `Node`, `Fragment`, `Element`, `Snippet`, `Block`: what a template is made of;
* `AttributeNode`, `AttributeValue`: what stands in an opening tag;
* `ElementKind.ofName`: elements, components and special elements by their names.

Every tree knows its place. Code is kept as a place, except in the values of attributes, which are
read as expressions.
-/
import SvelteStories.Script.Syntax

namespace SvelteStories.Markup

open Script

/-! ### Opening tags -/

/-- A part of a quoted value. -/
inductive ValuePart
  /-- Plain text. -/
  | text (span : Span) (data : List Char)
  /-- Code between braces; its place. -/
  | expression (span : Span)
deriving DecidableEq, Repr

/-- The value of an attribute. -/
inductive AttributeValue
  /-- No value is written. -/
  | none
  /-- Plain text. -/
  | text (span : Span) (data : List Char)
  /-- An expression between braces. -/
  | expression (span : Span) (value : Expr)
  /-- Text and code in turns. -/
  | sequence (parts : List ValuePart)

/-- A named attribute. -/
structure Attribute where
  /-- Where it stands. -/
  span : Span
  /-- Its name. -/
  name : List Char
  /-- Its value. -/
  value : AttributeValue

/-- What stands in an opening tag. -/
inductive AttributeNode
  /-- A named attribute. -/
  | plain (value : Attribute)
  /-- The attributes that an object holds; the place of its code. -/
  | spread (span : Span) (code : Span)
  /-- A directive, with the place of its code. -/
  | directive (span : Span) (kind name : List Char) (value : Option Span)

/-- The place of what stands in an opening tag. -/
def AttributeNode.span : AttributeNode → Span
  | plain a => a.span
  | spread s _ | directive s _ _ _ => s

/-- The kinds of elements. -/
inductive ElementKind
  /-- An element of the document. -/
  | regular
  /-- A component. -/
  | component
  /-- An instruction for the compiler. -/
  | special
deriving DecidableEq, Repr

/-- The kind that a name stands for. -/
def ElementKind.ofName (name : List Char) : ElementKind :=
  if "svelte:".toList.isPrefixOf name then .special
  else if name.contains '.' || name.head?.any fun c => isAsciiLetter c && c.toNat < 91 then
    .component
  else .regular

/-! ### Templates -/

mutual

/-- A part of a template. -/
inductive Node
  /-- Plain text. -/
  | text (span : Span) (data : List Char)
  /-- A comment; its text. -/
  | comment (span : Span) (data : List Char)
  /-- An element. -/
  | element (value : Element)
  /-- Code between braces; its place. -/
  | expression (span : Span) (code : Span)
  /-- A snippet. -/
  | snippet (value : Snippet)
  /-- A block of another kind. -/
  | block (value : Block)
  /-- A tag in braces: the word behind the `@` and the place of the code. -/
  | tag (span : Span) (kind : List Char) (code : Span)

/-- Parts of a template and their place. -/
structure Fragment where
  /-- From the first part to the end of the last. -/
  span : Span
  /-- The parts in order. -/
  nodes : List Node

/-- An element. -/
structure Element where
  /-- From the opening tag to the end of the closing one. -/
  span : Span
  /-- Its kind. -/
  kind : ElementKind
  /-- Its name. -/
  name : List Char
  /-- What stands in its opening tag. -/
  attributes : List AttributeNode
  /-- What it holds. -/
  fragment : Fragment
  /-- Whether the opening tag closes itself. -/
  selfClosing : Bool

/-- A part of a template that is rendered where it is called for. -/
structure Snippet where
  /-- From the opening clause to the closing one. -/
  span : Span
  /-- Its name. -/
  name : List Char
  /-- The place of its parameters. -/
  parameters : Span
  /-- What it renders. -/
  body : Fragment

/-- A condition, a loop, or another block with one branch or several. -/
structure Block where
  /-- From the opening clause to the closing one. -/
  span : Span
  /-- The word behind the `#`. -/
  kind : List Char
  /-- The place of the code behind that word. -/
  code : Span
  /-- What its clauses hold, in order. -/
  branches : List Fragment

end

/-- The place of a part of a template. -/
def Node.span : Node → Span
  | text s _ | comment s _ | expression s _ | tag s _ _ => s
  | element e => e.span
  | snippet s => s.span
  | block b => b.span

/-- Whether a part is text that holds nothing but blanks. -/
def Node.isBlank : Node → Bool
  | text _ data => data.all SvelteStories.isBlank
  | _ => false

/-- The first named attribute of a name. -/
def Element.attribute? (e : Element) (name : String) : Option Attribute :=
  e.attributes.findSome? fun a =>
    match a with
    | .plain a => if a.name = name.toList then some a else none
    | .spread _ _ | .directive _ _ _ _ => none

end SvelteStories.Markup
