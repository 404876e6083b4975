/-
Modules, and the grammar as a whole:

* `grammar`: the readers of all forms, tied together up to a depth of nesting;
* `readItem`: an item of a module, with the comments before it;
* `parseModule`: a script;
* `parseExpression`: an expression at the beginning of a text.
-/
import SvelteStories.Script.Moved
import SvelteStories.Script.Parser.Exports

namespace SvelteStories.Script

/-! ### Items -/

/-- An item of a module. -/
def readItem (g : Grammar) : Parser Item := do
  let first ← lexemeHere
  let form ← if ← isAtImportExpression then pure (.statement (← readImportStatement g))
    else if ← isAtWord "import" then readImport g
    else if ← isAtWord "export" then readExport g
    else pure (.statement (← g.statement true))
  return ⟨← spanFrom first.span.start, first.comments, form⟩

/-- The items of a module. -/
def readItems (g : Grammar) : Parser Program :=
  iterate (fun (found : List Item) => do
    if ← isAtEnd then return .inr found.reverse
    return .inl ((← g.item) :: found)) []

/-! ### The grammar -/

/-- The readers of all forms, for forms that are nested no deeper than `depth`. -/
def grammar : (depth : Nat) → Grammar
  | 0 => .empty
  | depth + 1 =>
    { expression := fun c => readExpression (grammar depth) c
      assignment := fun c => readAssignment (grammar depth) c
      unary := fun c => readUnary (grammar depth) c
      binary := fun c => readBinary (grammar depth) c
      binaryRest := fun above left c => readBinaryRest (grammar depth) above left c
      operand := fun c => readOperand (grammar depth) c
      callee := fun c => readCallee (grammar depth) c
      parameters := fun c => readParameters (grammar depth) c
      pattern := fun c => readPattern (grammar depth) c
      statement := fun mayDeclare c => readStatement (grammar depth) mayDeclare c
      item := fun c => readItem (grammar depth) c
      type := fun c => readType (grammar depth) c
      plainType := fun c => readPlainType (grammar depth) c }

/-- The depth that suffices for a text: from one token to the next, forms nest through no more than
a fixed number of readers. -/
def depthFor (t : List Char) : Nat :=
  12 * t.length + 12

/-! ### Whole texts -/

/-- The line at the beginning of a script that names its interpreter. -/
def interpreterLine : List Char → List Char
  | '#' :: '!' :: t => '#' :: '!' :: t.takeWhile fun c => !isLineBreak c
  | _ => []

/-- The module that a text is. Places count from `offset`, where the text starts. -/
def parseModule (dialect : Dialect) (offset : Nat) (t : List Char) :
    Except SyntaxFault Program :=
  let line := interpreterLine t
  let read := (readItems (grammar (depthFor t))).run dialect (byteLength line) (t.drop line.length)
  (read.map (List.map (Item.movedBy offset))).mapError (·.movedBy offset)

/-- The expression at the beginning of a text. What follows it does not matter. Places count from
`offset`, where the text starts. -/
def parseExpression (dialect : Dialect) (offset : Nat) (t : List Char) :
    Except SyntaxFault Expr :=
  let read := (grammar (depthFor t)).expression.run dialect 0 t
  (read.map (·.movedBy offset)).mapError (·.movedBy offset)

end SvelteStories.Script
