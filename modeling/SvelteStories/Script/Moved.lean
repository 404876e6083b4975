/-
Syntax trees that have been moved in a text:

* `Expr.movedBy`, `Statement.movedBy` and their companions: a tree with every place in it moved by a
  number of bytes;
* `Item.movedBy`, `SyntaxFault.movedBy`: the same for an item of a module and for a fault.
-/
import SvelteStories.Script.Syntax
import SvelteStories.Script.SyntaxFault

namespace SvelteStories

/-- A range that has been moved. -/
def Span.movedBy (n : Nat) (s : Span) : Span :=
  ⟨s.start + n, s.stop + n⟩

namespace Script

/-! ### Trees -/

mutual

/-- An expression. -/
def Expr.movedBy (n : Nat) : Expr → Expr
  | .identifier span name => .identifier (span.movedBy n) name
  | .literal span value => .literal (span.movedBy n) value
  | .template span parts => .template (span.movedBy n) (movedPiecesBy n parts)
  | .array span elements => .array (span.movedBy n) (movedElementsBy n elements)
  | .object o => .object (o.movedBy n)
  | .paren span inner => .paren (span.movedBy n) (inner.movedBy n)
  | .member span owner key => .member (span.movedBy n) (owner.movedBy n) (key.movedBy n)
  | .call value => .call (value.movedBy n)
  | .function span parts => .function (span.movedBy n) (movedPiecesBy n parts)
  | .arrow span parts => .arrow (span.movedBy n) (movedPiecesBy n parts)
  | .classes span head heritage body =>
    .classes (span.movedBy n) (movedPiecesBy n head) (movedPiecesBy n heritage)
      (movedPiecesBy n body)
  | .assign span bound operator value =>
    .assign (span.movedBy n) (bound.movedBy n) operator (value.movedBy n)
  | .annotated span about lead inner trail =>
    .annotated (span.movedBy n) about (movedPiecesBy n lead) (inner.movedBy n)
      (movedPiecesBy n trail)
  | .compound span form parts => .compound (span.movedBy n) form (movedPiecesBy n parts)

/-- An object literal. -/
def ObjectLiteral.movedBy (n : Nat) : ObjectLiteral → ObjectLiteral
  | ⟨span, properties⟩ => ⟨span.movedBy n, movedPropertiesBy n properties⟩

/-- The properties of an object literal. -/
def movedPropertiesBy (n : Nat) : List Property → List Property
  | [] => []
  | p :: ps => p.movedBy n :: movedPropertiesBy n ps

/-- A call. -/
def Call.movedBy (n : Nat) : Call → Call
  | ⟨span, callee, types, arguments⟩ =>
    ⟨span.movedBy n, callee.movedBy n, movedPiecesBy n types, movedArgumentsBy n arguments⟩

/-- The arguments of a call. -/
def movedArgumentsBy (n : Nat) : List Argument → List Argument
  | [] => []
  | a :: as => a.movedBy n :: movedArgumentsBy n as

/-- An argument. -/
def Argument.movedBy (n : Nat) : Argument → Argument
  | .plain value => .plain (value.movedBy n)
  | .spread value => .spread (value.movedBy n)

/-- The elements of an array literal. -/
def movedElementsBy (n : Nat) : List Element → List Element
  | [] => []
  | e :: es => e.movedBy n :: movedElementsBy n es

/-- An element of an array literal. -/
def Element.movedBy (n : Nat) : Element → Element
  | .hole => .hole
  | .plain value => .plain (value.movedBy n)
  | .spread span value => .spread (span.movedBy n) (value.movedBy n)

/-- The name of a member. -/
def MemberKey.movedBy (n : Nat) : MemberKey → MemberKey
  | .name name => .name name
  | .privateName name => .privateName name
  | .computed key => .computed (key.movedBy n)

/-- The key of a property. -/
def PropertyKey.movedBy (n : Nat) : PropertyKey → PropertyKey
  | .identifier span name => .identifier (span.movedBy n) name
  | .string span value raw => .string (span.movedBy n) value raw
  | .number span name raw => .number (span.movedBy n) name raw
  | .bigint span raw => .bigint (span.movedBy n) raw
  | .computed span key => .computed (span.movedBy n) (key.movedBy n)

/-- A property of an object literal. -/
def Property.movedBy (n : Nat) : Property → Property
  | .keyValue key value => .keyValue (key.movedBy n) (value.movedBy n)
  | .shorthand span name => .shorthand (span.movedBy n) name
  | .initialized span name value => .initialized (span.movedBy n) name (value.movedBy n)
  | .method span lead key parts =>
    .method (span.movedBy n) lead (key.movedBy n) (movedPiecesBy n parts)
  | .spread span value => .spread (span.movedBy n) (value.movedBy n)

/-- A pattern. -/
def Pattern.movedBy (n : Nat) : Pattern → Pattern
  | .identifier span name typing => .identifier (span.movedBy n) name (movedPiecesBy n typing)
  | .object o => .object (o.movedBy n)
  | .array span elements typing =>
    .array (span.movedBy n) (movedPatternElementsBy n elements) (movedPiecesBy n typing)
  | .withDefault span bound value =>
    .withDefault (span.movedBy n) (bound.movedBy n) (value.movedBy n)
  | .rest span bound typing => .rest (span.movedBy n) (bound.movedBy n) (movedPiecesBy n typing)
  | .target value => .target (value.movedBy n)

/-- An object pattern. -/
def ObjectPattern.movedBy (n : Nat) : ObjectPattern → ObjectPattern
  | ⟨span, properties, typing⟩ =>
    ⟨span.movedBy n, movedPatternPropertiesBy n properties, movedPiecesBy n typing⟩

/-- The properties of an object pattern. -/
def movedPatternPropertiesBy (n : Nat) : List PatternProperty → List PatternProperty
  | [] => []
  | p :: ps => p.movedBy n :: movedPatternPropertiesBy n ps

/-- A property of an object pattern. -/
def PatternProperty.movedBy (n : Nat) : PatternProperty → PatternProperty
  | .keyValue key value => .keyValue (key.movedBy n) (value.movedBy n)
  | .shorthand span name none => .shorthand (span.movedBy n) name none
  | .shorthand span name (some value) => .shorthand (span.movedBy n) name (some (value.movedBy n))
  | .rest span bound => .rest (span.movedBy n) (bound.movedBy n)

/-- The elements of an array pattern. -/
def movedPatternElementsBy (n : Nat) : List PatternElement → List PatternElement
  | [] => []
  | e :: es => e.movedBy n :: movedPatternElementsBy n es

/-- An element of an array pattern. -/
def PatternElement.movedBy (n : Nat) : PatternElement → PatternElement
  | .hole => .hole
  | .bound inner => .bound (inner.movedBy n)

/-- A variable declaration. -/
def VariableDeclaration.movedBy (n : Nat) : VariableDeclaration → VariableDeclaration
  | ⟨span, keyword, declarators⟩ => ⟨span.movedBy n, keyword, movedDeclaratorsBy n declarators⟩

/-- The variables of a declaration. -/
def movedDeclaratorsBy (n : Nat) : List Declarator → List Declarator
  | [] => []
  | d :: ds => d.movedBy n :: movedDeclaratorsBy n ds

/-- One variable of a declaration. -/
def Declarator.movedBy (n : Nat) : Declarator → Declarator
  | ⟨bound, none⟩ => ⟨bound.movedBy n, none⟩
  | ⟨bound, some init⟩ => ⟨bound.movedBy n, some (init.movedBy n)⟩

/-- A statement. -/
def Statement.movedBy (n : Nat) : Statement → Statement
  | .expression span value => .expression (span.movedBy n) (value.movedBy n)
  | .variables value => .variables (value.movedBy n)
  | .function span name parts => .function (span.movedBy n) name (movedPiecesBy n parts)
  | .classes span name head heritage body =>
    .classes (span.movedBy n) name (movedPiecesBy n head) (movedPiecesBy n heritage)
      (movedPiecesBy n body)
  | .block span statements => .block (span.movedBy n) (movedStatementsBy n statements)
  | .doWhile span body test => .doWhile (span.movedBy n) (body.movedBy n) (test.movedBy n)
  | .compound span parts => .compound (span.movedBy n) (movedPiecesBy n parts)

/-- Statements. -/
def movedStatementsBy (n : Nat) : List Statement → List Statement
  | [] => []
  | s :: ss => s.movedBy n :: movedStatementsBy n ss

/-- The parts of a layout. -/
def movedPiecesBy (n : Nat) : List Piece → List Piece
  | [] => []
  | p :: ps => p.movedBy n :: movedPiecesBy n ps

/-- A part of a layout. -/
def Piece.movedBy (n : Nat) : Piece → Piece
  | .text value => .text value
  | .newline => .newline
  | .deeper parts => .deeper (movedPiecesBy n parts)
  | .expr value => .expr (value.movedBy n)
  | .pattern value => .pattern (value.movedBy n)
  | .key value => .key (value.movedBy n)
  | .statement value => .statement (value.movedBy n)
  | .declaration value => .declaration (value.movedBy n)

end

/-! ### Modules -/

/-- A comment. -/
def Comment.movedBy (n : Nat) (c : Comment) : Comment :=
  { c with span := c.span.movedBy n }

/-- The name that an export goes by in other modules. -/
def ExternalName.movedBy (n : Nat) : ExternalName → ExternalName
  | word span value => .word (span.movedBy n) value
  | string span value raw => .string (span.movedBy n) value raw

/-- A name that an import brings in. -/
def ImportSpecifier.movedBy (n : Nat) : ImportSpecifier → ImportSpecifier
  | named imported name typeOnly => .named imported name typeOnly
  | default span name => .default (span.movedBy n) name
  | all span name => .all (span.movedBy n) name

/-- What a module exports by default. -/
def DefaultExport.movedBy (n : Nat) : DefaultExport → DefaultExport
  | function name parts => .function name (movedPiecesBy n parts)
  | classes name head heritage body =>
    .classes name (movedPiecesBy n head) (movedPiecesBy n heritage) (movedPiecesBy n body)
  | interfaces => .interfaces
  | expression value => .expression (value.movedBy n)

/-- What an item of a module does. -/
def ItemForm.movedBy (n : Nat) : ItemForm → ItemForm
  | imports typeOnly specifiers source =>
    .imports typeOnly (specifiers.map (·.movedBy n)) source
  | statement value => .statement (value.movedBy n)
  | exportDeclaration value => .exportDeclaration (value.movedBy n)
  | exportDefault value => .exportDefault (value.movedBy n)
  | exportNames names source =>
    .exportNames (names.map fun name => (name.1.movedBy n, name.2.movedBy n)) source
  | exportAll typeOnly name source => .exportAll typeOnly (name.map (·.movedBy n)) source
  | other parts => .other (movedPiecesBy n parts)

/-- An item of a module. -/
def Item.movedBy (n : Nat) (item : Item) : Item :=
  ⟨item.span.movedBy n, item.comments.map (·.movedBy n), item.form.movedBy n⟩

/-- A fault. -/
def SyntaxFault.movedBy (n : Nat) (f : SyntaxFault) : SyntaxFault :=
  { f with offset := f.offset + n }

end Script

end SvelteStories
