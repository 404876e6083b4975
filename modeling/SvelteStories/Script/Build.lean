/-
Trees that are written and not read: names, strings, arrays, objects, constants. They stand nowhere
in a text, and strings are put in double quotes.
-/
import SvelteStories.Script.Syntax
import SvelteStories.Text.Quoted

namespace SvelteStories.Script

/-- The place of a tree that is in no text. -/
def nowhere : Span := ⟨0, 0⟩

/-- A name. -/
def nameExpr (name : String) : Expr :=
  .identifier nowhere name

/-- A string literal. -/
def stringExpr (value : String) : Expr :=
  .literal nowhere (.string value (String.ofList (quote value.toList)))

/-- An array of string literals. -/
def stringsExpr (values : List String) : Expr :=
  .array nowhere (values.map fun value => .plain (stringExpr value))

/-- A property with a key and a value. -/
def entry (key : String) (value : Expr) : Property :=
  .keyValue (.identifier nowhere key) value

/-- An object literal. -/
def objectOf (properties : List Property) : ObjectLiteral :=
  ⟨nowhere, properties⟩

/-- An object with all that a value has. -/
def spreadOf (value : Expr) : ObjectLiteral :=
  objectOf [.spread nowhere value]

/-- The declaration of a constant. -/
def constant (name : String) (value : Expr) : VariableDeclaration :=
  ⟨nowhere, "const", [⟨.identifier nowhere name [], some value⟩]⟩

end SvelteStories.Script
