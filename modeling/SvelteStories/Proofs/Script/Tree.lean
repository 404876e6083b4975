/-
Syntax trees at a glance:

* `Tree`: the trees that have a place, of whatever kind;
* `Tree.children`: the trees right inside of a tree, in the order in which a walk meets them.

What stands between a tree and its children without a place of its own, such as the arguments of a
call or the parts of a layout, is passed through.
-/
import Mathlib.Tactic.Common
import SvelteStories.Script.Syntax

namespace SvelteStories.Script

/-- A tree of any kind. -/
inductive Tree
  /-- An expression. -/
  | expr (value : Expr)
  /-- A property of an object literal. -/
  | property (value : Property)
  /-- The key of a property. -/
  | key (value : PropertyKey)
  /-- A pattern. -/
  | pattern (value : Pattern)
  /-- A statement. -/
  | statement (value : Statement)
  /-- A variable declaration. -/
  | declaration (value : VariableDeclaration)

/-- The place of a tree. -/
def Tree.span : Tree → Span
  | .expr e => e.span
  | .property p => p.span
  | .key k => k.span
  | .pattern p => p.span
  | .statement s => s.span
  | .declaration d => d.span

/-! ### What is passed through -/

mutual

/-- The trees in a part of a layout. -/
def Piece.trees : Piece → List Tree
  | .text _ | .newline => []
  | .deeper parts => treesOfPieces parts
  | .expr value => [.expr value]
  | .pattern value => [.pattern value]
  | .key value => [.key value]
  | .statement value => [.statement value]
  | .declaration value => [.declaration value]

/-- The trees in a layout. -/
def treesOfPieces : List Piece → List Tree
  | [] => []
  | p :: ps => p.trees ++ treesOfPieces ps

end

/-- The tree in an argument. -/
def Argument.tree : Argument → Tree
  | .plain value | .spread value => .expr value

/-- The trees in an element of an array. -/
def Element.trees : Element → List Tree
  | .hole => []
  | .plain value | .spread _ value => [.expr value]

/-- The trees in the name of a member. -/
def MemberKey.trees : MemberKey → List Tree
  | .name _ | .privateName _ => []
  | .computed key => [.expr key]

/-- The trees in a property of a pattern. -/
def PatternProperty.trees : PatternProperty → List Tree
  | .keyValue key value => [.key key, .pattern value]
  | .shorthand _ _ none => []
  | .shorthand _ _ (some value) => [.expr value]
  | .rest _ bound => [.pattern bound]

/-- The trees in an element of a pattern. -/
def PatternElement.trees : PatternElement → List Tree
  | .hole => []
  | .bound target => [.pattern target]

/-- The trees in a declared variable. -/
def Declarator.trees (d : Declarator) : List Tree :=
  .pattern d.target :: (d.init.map Tree.expr).toList

/-! ### One level down -/

/-- The trees right inside of an expression. -/
def Expr.children : Expr → List Tree
  | .identifier _ _ | .literal _ _ => []
  | .template _ parts | .function _ parts | .arrow _ parts | .compound _ _ parts =>
    treesOfPieces parts
  | .array _ elements => elements.flatMap Element.trees
  | .object o => o.properties.map .property
  | .paren _ inner => [.expr inner]
  | .member _ owner key => .expr owner :: key.trees
  | .call c => .expr c.callee :: c.arguments.map Argument.tree
  | .classes _ head heritage body =>
    treesOfPieces head ++ treesOfPieces body ++ treesOfPieces heritage
  | .assign _ bound _ value => [.pattern bound, .expr value]
  | .annotated _ _ lead inner trail => treesOfPieces lead ++ [.expr inner] ++ treesOfPieces trail

/-- The trees right inside of a property. -/
def Property.children : Property → List Tree
  | .keyValue key value => [.key key, .expr value]
  | .shorthand _ _ => []
  | .initialized _ _ value | .spread _ value => [.expr value]
  | .method _ _ key parts => .key key :: treesOfPieces parts

/-- The trees right inside of a key. -/
def PropertyKey.children : PropertyKey → List Tree
  | .identifier _ _ | .string _ _ _ | .number _ _ _ | .bigint _ _ => []
  | .computed _ key => [.expr key]

/-- The trees right inside of a pattern. -/
def Pattern.children : Pattern → List Tree
  | .identifier _ _ _ => []
  | .object o => o.properties.flatMap PatternProperty.trees
  | .array _ elements _ => elements.flatMap PatternElement.trees
  | .withDefault _ bound value => [.pattern bound, .expr value]
  | .rest _ bound _ => [.pattern bound]
  | .target value => [.expr value]

/-- The trees right inside of a statement. -/
def Statement.children : Statement → List Tree
  | .expression _ value => [.expr value]
  | .variables d => [.declaration d]
  | .function _ _ parts | .compound _ parts => treesOfPieces parts
  | .classes _ _ head heritage body =>
    treesOfPieces head ++ treesOfPieces body ++ treesOfPieces heritage
  | .block _ statements => statements.map .statement
  | .doWhile _ body test => [.expr test, .statement body]

/-- The trees right inside of a tree. -/
def Tree.children : Tree → List Tree
  | .expr e => e.children
  | .property p => p.children
  | .key k => k.children
  | .pattern p => p.children
  | .statement s => s.children
  | .declaration d => d.declarators.flatMap Declarator.trees

end SvelteStories.Script
