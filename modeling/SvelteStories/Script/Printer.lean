/-
Printed scripts:

* `Expr.print`, `Pattern.print`, `Statement.print` and their companions: a tree as text that
  starts at a depth of indentation, four spaces to a level;
* `VariableDeclaration.text`, `Statement.text`: trees printed on their own;
* `ItemForm.text`, `printItems`: the items of a module, one after the other.

Object and array literals that are not empty take one line per element; patterns stay on one
line. Literals keep the text that they were written with, and comments are left out.
-/
import SvelteStories.Script.Layout

namespace SvelteStories.Script

/-- A line feed and the indentation of a depth. -/
def newLine (depth : Nat) : List Char :=
  '\n' :: List.replicate (4 * depth) ' '

/-- A literal as it was written. -/
def Literal.print : Literal → List Char
  | .string _ raw | .number raw | .bigint raw | .regex raw => raw.toList
  | .boolean true => "true".toList
  | .boolean false => "false".toList
  | .null => "null".toList

/-- Whether an expression is a number of which a dot would become a part. -/
def Expr.takesDot : Expr → Bool
  | .literal _ (.number raw) =>
    raw.all (fun c => isAsciiDigit c || c = '_') && !(raw.startsWith "0" && 1 < raw.length)
  | _ => false

mutual

/-- An expression. -/
def Expr.print (depth : Nat) : Expr → List Char
  | .identifier _ name => name.toList
  | .literal _ value => value.print
  | .template _ parts => printPieces depth parts
  | .array _ [] => "[]".toList
  | .array _ (e :: es) =>
    '[' :: newLine (depth + 1) ++ printElements (depth + 1) (e :: es) ++ newLine depth ++ [']']
  | .object o => o.print depth
  | .paren _ inner => '(' :: inner.print depth ++ [')']
  | .member _ object key => object.print depth ++ key.print depth object.takesDot
  | .call c => c.print depth
  | .function _ parts | .arrow _ parts => printPieces depth parts
  | .classes _ head heritage body =>
    printPieces depth head ++ printPieces depth heritage ++ printPieces depth body
  | .assign _ target operator value =>
    target.print depth ++ ' ' :: operator.toList ++ ' ' :: value.print depth
  | .annotated _ _ lead inner trail =>
    printPieces depth lead ++ inner.print depth ++ printPieces depth trail
  | .compound _ _ parts => printPieces depth parts

/-- An object literal, one property per line. -/
def ObjectLiteral.print (depth : Nat) : ObjectLiteral → List Char
  | ⟨_, []⟩ => "\x7b\x7d".toList
  | ⟨_, p :: ps⟩ =>
    '{' :: newLine (depth + 1) ++ printProperties (depth + 1) (p :: ps) ++ newLine depth ++ ['}']

/-- A call. -/
def Call.print (depth : Nat) : Call → List Char
  | ⟨_, callee, types, arguments⟩ =>
    callee.print depth ++ printPieces depth types ++ '(' :: printArguments depth arguments ++ [')']

/-- Arguments with commas between them. -/
def printArguments (depth : Nat) : List Argument → List Char
  | [] => []
  | [a] => a.print depth
  | a :: as => a.print depth ++ ", ".toList ++ printArguments depth as

/-- An argument. -/
def Argument.print (depth : Nat) : Argument → List Char
  | .plain value => value.print depth
  | .spread value => "...".toList ++ value.print depth

/-- Elements on lines of their own. A last hole keeps the comma that makes it one. -/
def printElements (depth : Nat) : List Element → List Char
  | [] => []
  | [.hole] => [',']
  | [e] => e.print depth
  | e :: es => e.print depth ++ ',' :: newLine depth ++ printElements depth es

/-- An element of an array. -/
def Element.print (depth : Nat) : Element → List Char
  | .hole => []
  | .plain value => value.print depth
  | .spread _ value => "...".toList ++ value.print depth

/-- The name of a member. Behind a number that takes a dot for its own, a name gets a second one. -/
def MemberKey.print (depth : Nat) (takesDot : Bool) : MemberKey → List Char
  | .name name => (if takesDot then ".." else ".").toList ++ name.toList
  | .privateName name => '.' :: '#' :: name.toList
  | .computed key => '[' :: key.print depth ++ [']']

/-- The key of a property. -/
def PropertyKey.print (depth : Nat) : PropertyKey → List Char
  | .identifier _ name => name.toList
  | .string _ _ raw | .number _ _ raw | .bigint _ raw => raw.toList
  | .computed _ key => '[' :: key.print depth ++ [']']

/-- Properties on lines of their own. -/
def printProperties (depth : Nat) : List Property → List Char
  | [] => []
  | [p] => p.print depth
  | p :: ps => p.print depth ++ ',' :: newLine depth ++ printProperties depth ps

/-- A property. -/
def Property.print (depth : Nat) : Property → List Char
  | .keyValue key value => key.print depth ++ ':' :: ' ' :: value.print depth
  | .shorthand _ name => name.toList
  | .initialized _ name value => name.toList ++ " = ".toList ++ value.print depth
  | .method _ lead key parts => lead.toList ++ key.print depth ++ printPieces depth parts
  | .spread _ value => "...".toList ++ value.print depth

/-- A pattern. -/
def Pattern.print (depth : Nat) : Pattern → List Char
  | .identifier _ name typing => name.toList ++ printPieces depth typing
  | .object o => o.print depth
  | .array _ elements typing =>
    '[' :: printPatternElements depth elements ++ ']' :: printPieces depth typing
  | .withDefault _ target value => target.print depth ++ " = ".toList ++ value.print depth
  | .rest _ target typing => "...".toList ++ target.print depth ++ printPieces depth typing
  | .target value => value.print depth

/-- An object pattern. -/
def ObjectPattern.print (depth : Nat) : ObjectPattern → List Char
  | ⟨_, [], typing⟩ => "\x7b\x7d".toList ++ printPieces depth typing
  | ⟨_, p :: ps, typing⟩ =>
    "\x7b ".toList ++ printPatternProperties depth (p :: ps) ++ " \x7d".toList
      ++ printPieces depth typing

/-- Properties of a pattern with commas between them. -/
def printPatternProperties (depth : Nat) : List PatternProperty → List Char
  | [] => []
  | [p] => p.print depth
  | p :: ps => p.print depth ++ ", ".toList ++ printPatternProperties depth ps

/-- A property of a pattern. -/
def PatternProperty.print (depth : Nat) : PatternProperty → List Char
  | .keyValue key value => key.print depth ++ ':' :: ' ' :: value.print depth
  | .shorthand _ name none => name.toList
  | .shorthand _ name (some value) => name.toList ++ " = ".toList ++ value.print depth
  | .rest _ target => "...".toList ++ target.print depth

/-- Elements of a pattern with commas between them. A last hole keeps its comma. -/
def printPatternElements (depth : Nat) : List PatternElement → List Char
  | [] => []
  | [.hole] => [',']
  | [e] => e.print depth
  | e :: es => e.print depth ++ ", ".toList ++ printPatternElements depth es

/-- An element of a pattern. -/
def PatternElement.print (depth : Nat) : PatternElement → List Char
  | .hole => []
  | .bound target => target.print depth

/-- A variable declaration without a semicolon. -/
def VariableDeclaration.print (depth : Nat) : VariableDeclaration → List Char
  | ⟨_, keyword, declarators⟩ => keyword.toList ++ ' ' :: printDeclarators depth declarators

/-- Variables with commas between them. -/
def printDeclarators (depth : Nat) : List Declarator → List Char
  | [] => []
  | [d] => d.print depth
  | d :: ds => d.print depth ++ ", ".toList ++ printDeclarators depth ds

/-- A variable and its value. -/
def Declarator.print (depth : Nat) : Declarator → List Char
  | ⟨target, none⟩ => target.print depth
  | ⟨target, some value⟩ => target.print depth ++ " = ".toList ++ value.print depth

/-- A statement. -/
def Statement.print (depth : Nat) : Statement → List Char
  | .expression _ value => value.print depth ++ [';']
  | .variables value => value.print depth ++ [';']
  | .function _ _ parts => printPieces depth parts
  | .classes _ _ head heritage body =>
    printPieces depth head ++ printPieces depth heritage ++ printPieces depth body
  | .block _ [] => "\x7b\x7d".toList
  | .block _ (s :: ss) => '{' :: printLines (depth + 1) (s :: ss) ++ newLine depth ++ ['}']
  | .doWhile _ body test =>
    "do ".toList ++ body.print depth ++ (if body.isBlock then [] else newLine depth)
      ++ "while (".toList ++ test.print depth ++ [')']
  | .compound _ parts => printPieces depth parts

/-- Statements on lines of their own. -/
def printLines (depth : Nat) : List Statement → List Char
  | [] => []
  | s :: ss => newLine depth ++ s.print depth ++ printLines depth ss

/-- The parts of a layout. -/
def printPieces (depth : Nat) : List Piece → List Char
  | [] => []
  | p :: ps => p.print depth ++ printPieces depth ps

/-- A part of a layout. -/
def Piece.print (depth : Nat) : Piece → List Char
  | .text value => value.toList
  | .newline => newLine depth
  | .deeper parts => printPieces (depth + 1) parts
  | .expr value => value.print depth
  | .pattern value => value.print depth
  | .key value => value.print depth
  | .statement value => value.print depth
  | .declaration value => value.print depth

end

/-! ### Whole texts -/

/-- A variable declaration on its own, without a semicolon. -/
def VariableDeclaration.text (d : VariableDeclaration) : List Char :=
  d.print 0

/-- A statement on its own. -/
def Statement.text (s : Statement) : List Char :=
  s.print 0

/-- An item of a module. -/
def ItemForm.text (item : ItemForm) : List Char :=
  printPieces 0 item.layout

/-- Items on lines of their own. -/
def printItems (items : List ItemForm) : List Char :=
  items.flatMap fun item => item.text ++ ['\n']

end SvelteStories.Script
