/-
Syntax trees without their places:

* `Expr.unplaced`, `ObjectLiteral.unplaced`, `Property.unplaced` and their companions: a tree with
  every place in it forgotten.

Two texts that spell the same script are read as trees that differ in their places only, so this is
what it means that one tree is another one.
-/
import Mathlib.Tactic.Common
import SvelteStories.Script.Build

namespace SvelteStories.Script

mutual

/-- An expression. -/
def Expr.unplaced : Expr → Expr
  | .identifier _ name => .identifier nowhere name
  | .literal _ value => .literal nowhere value
  | .template _ parts => .template nowhere (unplacedPieces parts)
  | .array _ elements => .array nowhere (unplacedElements elements)
  | .object o => .object o.unplaced
  | .paren _ inner => .paren nowhere inner.unplaced
  | .member _ owner key => .member nowhere owner.unplaced key.unplaced
  | .call value => .call value.unplaced
  | .function _ parts => .function nowhere (unplacedPieces parts)
  | .arrow _ parts => .arrow nowhere (unplacedPieces parts)
  | .classes _ head heritage body =>
    .classes nowhere (unplacedPieces head) (unplacedPieces heritage) (unplacedPieces body)
  | .assign _ bound operator value => .assign nowhere bound.unplaced operator value.unplaced
  | .annotated _ about lead inner trail =>
    .annotated nowhere about (unplacedPieces lead) inner.unplaced (unplacedPieces trail)
  | .compound _ form parts => .compound nowhere form (unplacedPieces parts)

/-- An object literal. -/
def ObjectLiteral.unplaced : ObjectLiteral → ObjectLiteral
  | ⟨_, properties⟩ => ⟨nowhere, unplacedProperties properties⟩

/-- The properties of an object literal. -/
def unplacedProperties : List Property → List Property
  | [] => []
  | p :: ps => p.unplaced :: unplacedProperties ps

/-- A call. -/
def Call.unplaced : Call → Call
  | ⟨_, callee, types, arguments⟩ =>
    ⟨nowhere, callee.unplaced, unplacedPieces types, unplacedArguments arguments⟩

/-- The arguments of a call. -/
def unplacedArguments : List Argument → List Argument
  | [] => []
  | a :: as => a.unplaced :: unplacedArguments as

/-- An argument. -/
def Argument.unplaced : Argument → Argument
  | .plain value => .plain value.unplaced
  | .spread value => .spread value.unplaced

/-- The elements of an array literal. -/
def unplacedElements : List Element → List Element
  | [] => []
  | e :: es => e.unplaced :: unplacedElements es

/-- An element of an array literal. -/
def Element.unplaced : Element → Element
  | .hole => .hole
  | .plain value => .plain value.unplaced
  | .spread _ value => .spread nowhere value.unplaced

/-- The name of a member. -/
def MemberKey.unplaced : MemberKey → MemberKey
  | .name name => .name name
  | .privateName name => .privateName name
  | .computed key => .computed key.unplaced

/-- The key of a property. -/
def PropertyKey.unplaced : PropertyKey → PropertyKey
  | .identifier _ name => .identifier nowhere name
  | .string _ value raw => .string nowhere value raw
  | .number _ name raw => .number nowhere name raw
  | .bigint _ raw => .bigint nowhere raw
  | .computed _ key => .computed nowhere key.unplaced

/-- A property of an object literal. -/
def Property.unplaced : Property → Property
  | .keyValue key value => .keyValue key.unplaced value.unplaced
  | .shorthand _ name => .shorthand nowhere name
  | .initialized _ name value => .initialized nowhere name value.unplaced
  | .method _ lead key parts => .method nowhere lead key.unplaced (unplacedPieces parts)
  | .spread _ value => .spread nowhere value.unplaced

/-- A pattern. -/
def Pattern.unplaced : Pattern → Pattern
  | .identifier _ name typing => .identifier nowhere name (unplacedPieces typing)
  | .object o => .object o.unplaced
  | .array _ elements typing =>
    .array nowhere (unplacedPatternElements elements) (unplacedPieces typing)
  | .withDefault _ bound value => .withDefault nowhere bound.unplaced value.unplaced
  | .rest _ bound typing => .rest nowhere bound.unplaced (unplacedPieces typing)
  | .target value => .target value.unplaced

/-- An object pattern. -/
def ObjectPattern.unplaced : ObjectPattern → ObjectPattern
  | ⟨_, properties, typing⟩ =>
    ⟨nowhere, unplacedPatternProperties properties, unplacedPieces typing⟩

/-- The properties of an object pattern. -/
def unplacedPatternProperties : List PatternProperty → List PatternProperty
  | [] => []
  | p :: ps => p.unplaced :: unplacedPatternProperties ps

/-- A property of an object pattern. -/
def PatternProperty.unplaced : PatternProperty → PatternProperty
  | .keyValue key value => .keyValue key.unplaced value.unplaced
  | .shorthand _ name none => .shorthand nowhere name none
  | .shorthand _ name (some value) => .shorthand nowhere name (some value.unplaced)
  | .rest _ bound => .rest nowhere bound.unplaced

/-- The elements of an array pattern. -/
def unplacedPatternElements : List PatternElement → List PatternElement
  | [] => []
  | e :: es => e.unplaced :: unplacedPatternElements es

/-- An element of an array pattern. -/
def PatternElement.unplaced : PatternElement → PatternElement
  | .hole => .hole
  | .bound inner => .bound inner.unplaced

/-- A variable declaration. -/
def VariableDeclaration.unplaced : VariableDeclaration → VariableDeclaration
  | ⟨_, keyword, declarators⟩ => ⟨nowhere, keyword, unplacedDeclarators declarators⟩

/-- The variables of a declaration. -/
def unplacedDeclarators : List Declarator → List Declarator
  | [] => []
  | d :: ds => d.unplaced :: unplacedDeclarators ds

/-- One variable of a declaration. -/
def Declarator.unplaced : Declarator → Declarator
  | ⟨bound, none⟩ => ⟨bound.unplaced, none⟩
  | ⟨bound, some init⟩ => ⟨bound.unplaced, some init.unplaced⟩

/-- A statement. -/
def Statement.unplaced : Statement → Statement
  | .expression _ value => .expression nowhere value.unplaced
  | .variables value => .variables value.unplaced
  | .function _ name parts => .function nowhere name (unplacedPieces parts)
  | .classes _ name head heritage body =>
    .classes nowhere name (unplacedPieces head) (unplacedPieces heritage) (unplacedPieces body)
  | .block _ statements => .block nowhere (unplacedStatements statements)
  | .doWhile _ body test => .doWhile nowhere body.unplaced test.unplaced
  | .compound _ parts => .compound nowhere (unplacedPieces parts)

/-- Statements. -/
def unplacedStatements : List Statement → List Statement
  | [] => []
  | s :: ss => s.unplaced :: unplacedStatements ss

/-- The parts of a layout. -/
def unplacedPieces : List Piece → List Piece
  | [] => []
  | p :: ps => p.unplaced :: unplacedPieces ps

/-- A part of a layout. -/
def Piece.unplaced : Piece → Piece
  | .text value => .text value
  | .newline => .newline
  | .deeper parts => .deeper (unplacedPieces parts)
  | .expr value => .expr value.unplaced
  | .pattern value => .pattern value.unplaced
  | .key value => .key value.unplaced
  | .statement value => .statement value.unplaced
  | .declaration value => .declaration value.unplaced

end

lemma unplacedProperties_eq_map (ps : List Property) :
    unplacedProperties ps = ps.map Property.unplaced := by
  induction ps with
  | nil => rfl
  | cons p ps ih => rw [unplacedProperties, ih, List.map_cons]

/-- Two object literals are the same but for their places if their properties are. -/
lemma ObjectLiteral.unplaced_eq_iff {o o' : ObjectLiteral} :
    o.unplaced = o'.unplaced
      ↔ o.properties.map Property.unplaced = o'.properties.map Property.unplaced := by
  obtain ⟨span, ps⟩ := o
  obtain ⟨span', ps'⟩ := o'
  rw [unplaced, unplaced, unplacedProperties_eq_map, unplacedProperties_eq_map]
  simp

end SvelteStories.Script
