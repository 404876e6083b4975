/-
Layouts of the forms that have no tree of their own:

* `commaPieces`: parts with commas between them;
* `blockLayout`, `membersLayout`: statements and members in braces, one per line;
* `functionLayout`, `arrowLayout`: functions;
* `ifLayout`, `forLayout` and their companions: statements;
* `ItemForm.layout`: items of modules.

A layout says where blanks and line breaks go; what the braces hold stands one level deeper.
-/
import SvelteStories.Script.Syntax
import SvelteStories.Text.Quoted

namespace SvelteStories.Script

/-- A layout that is all text. -/
def textPieces (t : String) : List Piece :=
  if t.isEmpty then [] else [.text t]

/-- Layouts with a separator between each two. -/
def separatedPieces (separator : String) : List (List Piece) → List Piece
  | [] => []
  | [p] => p
  | p :: ps => p ++ .text separator :: separatedPieces separator ps

/-- Layouts with commas between them. -/
def commaPieces (parts : List (List Piece)) : List Piece :=
  separatedPieces ", " parts

/-- An argument. -/
def argumentPieces : Argument → List Piece
  | .plain value => [.expr value]
  | .spread value => [.text "...", .expr value]

/-- Arguments in parentheses. -/
def argumentsPieces (arguments : List Argument) : List Piece :=
  .text "(" :: commaPieces (arguments.map argumentPieces) ++ [Piece.text ")"]

/-! ### Braces -/

/-- Members in braces, one per line, and nothing between the braces if there are none. -/
def bracketLayout (members : List (List Piece)) : List Piece :=
  if members.isEmpty then [.text "\x7b\x7d"]
  else
    [.text "\x7b", .deeper (members.flatMap fun m => .newline :: m), .newline, .text "\x7d"]

/-- Statements in braces. -/
def blockLayout (statements : List Statement) : List Piece :=
  bracketLayout (statements.map fun s => [.statement s])

/-- Members in braces, one per line. The braces are kept apart even if there are none. -/
def membersLayout (members : List (List Piece)) : List Piece :=
  if members.isEmpty then [.text "\x7b", .newline, .text "\x7d"] else bracketLayout members

/-- Members in braces, one per line, with commas between them. -/
def listedLayout (members : List (List Piece)) : List Piece :=
  if members.isEmpty then membersLayout []
  else
    [.text "\x7b", .deeper (.newline :: (members.intersperse [.text ",", .newline]).flatten),
      .newline, .text "\x7d"]

/-! ### Functions -/

/-- A parameter. -/
structure Parameter where
  /-- Where it starts. -/
  start : Nat
  /-- The words that make it a property as well. -/
  modifiers : String
  /-- What is bound. -/
  target : Pattern

/-- A parameter. -/
def Parameter.layout (p : Parameter) : List Piece :=
  textPieces p.modifiers ++ [Piece.pattern p.target]

/-- Parameters in parentheses. -/
def parametersLayout (parameters : List Parameter) : List Piece :=
  .text "(" :: commaPieces (parameters.map Parameter.layout) ++ [Piece.text ")"]

/-- What a function is made of. -/
structure FunctionParts where
  /-- Its type parameters, brackets included. -/
  typeParameters : List Piece
  /-- Its parameters. -/
  parameters : List Parameter
  /-- Its result type with the colon before it. -/
  result : List Piece
  /-- Its body in braces, or nothing. -/
  body : Option (List Piece)

/-- A function behind its name. -/
def FunctionParts.layout (f : FunctionParts) (gap : String) : List Piece :=
  f.typeParameters ++ parametersLayout f.parameters ++ f.result
    ++ (match f.body with
        | some body => textPieces gap ++ body
        | none => [.text ";"])

/-- A function with its keyword. -/
def functionLayout (isAsync isGenerator : Bool) (name : Option String) (f : FunctionParts) :
    List Piece :=
  [Piece.text ((if isAsync then "async " else "") ++ "function" ++ (if isGenerator then "*" else "")
    ++ (match name with
        | some name => " " ++ name
        | none => ""))] ++ f.layout " "

/-- The body of an arrow function: statements, or an expression, which stands one level deeper. -/
inductive ArrowBody
  /-- Statements. -/
  | statements (value : List Statement)
  /-- An expression. -/
  | expression (value : Expr)

/-- The body of an arrow function. -/
def ArrowBody.layout : ArrowBody → List Piece
  | statements value => blockLayout value
  | expression value => [.deeper [.expr value]]

/-- An arrow function. A named type keeps the arrow apart. -/
def arrowLayout (isAsync : Bool) (f : FunctionParts) (body : ArrowBody) : List Piece :=
  textPieces (if isAsync then "async " else "") ++ f.typeParameters
    ++ parametersLayout f.parameters ++ f.result
    ++ .text (if f.result.isEmpty then "=>" else " =>") :: body.layout

/-! ### Statements -/

/-- Whether a statement is one in braces. -/
def Statement.isBlock : Statement → Bool
  | .block _ _ => true
  | _ => false

/-- A condition and its two branches. An alternative follows a block on its line. -/
def ifLayout (test : Expr) (yes : Statement) (no : Option Statement) : List Piece :=
  [Piece.text "if (", .expr test, .text ") ", .statement yes]
    ++ (match no with
        | none => []
        | some no => (if yes.isBlock then [Piece.text " else "] else [.newline, .text "else "])
          ++ [Piece.statement no])

/-- A loop with three clauses. -/
def forLayout (start test step : List Piece) (body : Statement) : List Piece :=
  let clause (ps : List Piece) : List Piece := if ps.isEmpty then [] else .text " " :: ps
  .text "for(" :: start ++ .text ";" :: clause test ++ .text ";" :: clause step
    ++ [Piece.text ")", .statement body]

/-- A loop over the keys of an object. -/
def forInLayout (target : List Piece) (value : Expr) (body : Statement) : List Piece :=
  .text "for(" :: target ++ [Piece.text " in ", .expr value, .text ")", .statement body]

/-- A loop over the elements of a value. -/
def forOfLayout (isAwait : Bool) (target : List Piece) (value : Expr) (body : Statement) :
    List Piece :=
  .text (if isAwait then "for await (" else "for (") :: target
    ++ [Piece.text " of ", .expr value, .text ")", .statement body]

/-- A loop with its test in front. -/
def whileLayout (test : Expr) (body : Statement) : List Piece :=
  [.text "while(", .expr test, .text ")", .statement body]

/-- A case of a switch: its test, none for the default, and its statements. -/
def caseLayout (test : Option Expr) (body : List Statement) : List Piece :=
  (match test with
    | some test => [Piece.text "case ", .expr test, .text ":"]
    | none => [Piece.text "default:"])
    ++ (if body.isEmpty then []
        else [Piece.deeper (body.flatMap fun s => [.newline, .statement s])])

/-- A choice between cases. -/
def switchLayout (value : Expr) (cases : List (List Piece)) : List Piece :=
  [Piece.text "switch(", .expr value, .text ")"] ++ membersLayout cases

/-- A block that failures are caught in. -/
def tryLayout (body : List Statement) (handler : Option (Option Pattern × List Statement))
    (finalizer : Option (List Statement)) : List Piece :=
  .text "try " :: blockLayout body
    ++ (match handler with
        | none => []
        | some (none, body) => .text " catch  " :: blockLayout body
        | some (some parameter, body) =>
          [.text " catch (", .pattern parameter, .text ") "] ++ blockLayout body)
    ++ (match finalizer with
        | none => []
        | some body => .text " finally" :: blockLayout body)

/-- A keyword and the value behind it. -/
def valueLayout (keyword : String) (value : Option Expr) : List Piece :=
  match value with
  | some value => [.text (keyword ++ " "), .expr value, .text ";"]
  | none => [.text (keyword ++ ";")]

/-! ### Items of modules -/

/-- A name and, if it goes by another one, that other name. -/
def renamed (name other : String) : String :=
  if name = other then name else s!"{name} as {other}"

/-- An imported name. -/
def ImportSpecifier.text : ImportSpecifier → String
  | .named imported name typeOnly => (if typeOnly then "type " else "") ++ renamed imported name
  | .default _ name => name
  | .all _ name => s!"* as {name}"

/-- Whether a name is imported in braces. -/
def ImportSpecifier.isNamed : ImportSpecifier → Bool
  | .named _ _ _ => true
  | .default _ _ | .all _ _ => false

/-- Names in braces. -/
def braced (names : List String) : String :=
  if names.isEmpty then "\x7b\x7d" else "\x7b " ++ ", ".intercalate names ++ " \x7d"

/-- What an import declaration brings in, as it stands before `from`. -/
def importClause (specifiers : List ImportSpecifier) : String :=
  let others := (specifiers.filter fun s => !s.isNamed).map ImportSpecifier.text
  let named := (specifiers.filter ImportSpecifier.isNamed).map ImportSpecifier.text
  ", ".intercalate (if named.isEmpty && !others.isEmpty then others else others ++ [braced named])

/-- The name of a module in quotes. -/
def quotedSource (source : String) : String :=
  String.ofList (quote source.toList)

/-- A default export behind its keywords. -/
def DefaultExport.layout : DefaultExport → List Piece
  | .function _ parts => parts
  | .classes _ head heritage body => head ++ heritage ++ body
  | .interfaces => []
  | .expression value => [.expr value, .text ";"]

/-- An item of a module. -/
def ItemForm.layout : ItemForm → List Piece
  | .imports typeOnly specifiers source =>
    [.text ((if typeOnly then "import type " else "import ")
      ++ (if specifiers.isEmpty then "" else importClause specifiers ++ " from ")
      ++ quotedSource source ++ ";")]
  | .statement value => [.statement value]
  | .exportDeclaration value => [.text "export ", .statement value]
  | .exportDefault value => .text "export default " :: value.layout
  | .exportNames names source =>
    [.text ("export " ++ braced (names.map fun n => renamed n.1.text n.2.text)
      ++ (match source with
          | some source => " from " ++ quotedSource source
          | none => "") ++ ";")]
  | .exportAll typeOnly name source =>
    [.text ((if typeOnly then "export type *" else "export *")
      ++ (match name with
          | some name => " as " ++ name.text
          | none => "") ++ " from " ++ quotedSource source ++ ";")]
  | .other parts => parts

end SvelteStories.Script
