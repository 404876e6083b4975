/-
What can be read off a script without running it:

* `Expr.string?`, `Expr.strings?`: the values of literals, looked at through parentheses;
* `Expr.describe`, `Property.describe`, `Pattern.describe`: what an author is told about a tree;
* `ObjectLiteral.find?`: the property of a name;
* `Call.calleeName?`, `Call.objectArgument?`: the parts of simple calls;
* `ObjectPattern.binding`: the name that a pattern binds a key to.
-/
import SvelteStories.Script.Syntax

namespace SvelteStories.Script

/-! ### Values -/

/-- The value of a string literal. -/
def Expr.string? : Expr → Option String
  | .literal _ (.string value _) => some value
  | .paren _ inner => inner.string?
  | _ => none

/-- The value of an element that is a string literal. -/
def Element.string? : Element → Option String
  | .plain value => value.string?
  | .hole | .spread _ _ => none

/-- The values of an array literal of string literals. -/
def Expr.strings? : Expr → Option (List String)
  | .array _ elements => elements.mapM Element.string?
  | .paren _ inner => inner.strings?
  | _ => none

/-! ### Descriptions -/

/-- What a literal is called. -/
def Literal.describe : Literal → String
  | .string _ _ => "a string literal"
  | .number _ => "a number literal"
  | .boolean _ => "a boolean literal"
  | .null => "`null`"
  | .bigint _ | .regex _ => "a literal"

/-- What an expression is called. -/
def Expr.describe : Expr → String
  | .identifier _ name => s!"the identifier `{name}`"
  | .literal _ value => value.describe
  | .template _ _ => "a template literal"
  | .array _ _ => "an array with non-string elements"
  | .object _ => "an object expression"
  | .paren _ inner => inner.describe
  | .member _ _ _ => "a member expression"
  | .call _ => "a call expression"
  | .function _ _ | .arrow _ _ => "a function"
  | .classes _ _ _ _ | .assign _ _ _ _ | .annotated _ _ _ _ _ | .compound _ _ _ =>
    "a dynamic expression"

/-- What the value of a property is called. -/
def Property.describe : Property → String
  | .keyValue _ value => value.describe
  | .shorthand _ name => s!"the shorthand property `{name}`"
  | .initialized _ _ _ | .method _ _ _ _ | .spread _ _ => "a method or accessor"

/-- What a pattern is called. -/
def Pattern.describe : Pattern → String
  | .identifier _ name _ => s!"the identifier `{name}`"
  | .array _ _ _ => "an array pattern"
  | .object _ => "an object pattern"
  | .withDefault _ _ _ | .rest _ _ _ | .target _ => "an unsupported pattern"

/-! ### Objects and calls -/

/-- The value of a property that is written with a key and a value. -/
def Property.value? : Property → Option Expr
  | .keyValue _ value => some value
  | _ => none

/-- The first property of a name. What stands inside other objects does not count. -/
def ObjectLiteral.find? (o : ObjectLiteral) (name : String) : Option Property :=
  o.properties.find? fun p => p.name? = some name

/-- The name that is called. -/
def Call.calleeName? (c : Call) : Option String :=
  match c.callee with
  | .identifier _ name => some name
  | _ => none

/-- The argument of a call whose only argument is an object literal. -/
def Call.objectArgument? (c : Call) : Option ObjectLiteral :=
  match c.arguments with
  | [.plain (.object o)] => some o
  | _ => none

/-- The expression that an argument is made of. -/
def Argument.value : Argument → Expr
  | .plain value | .spread value => value

/-! ### Bindings -/

/-- How an object pattern binds a key. -/
inductive Binding
  /-- Not at all. -/
  | missing
  /-- To a name, with a default or without. -/
  | name (name : String)
  /-- To a pattern. -/
  | complex
deriving DecidableEq, Repr

/-- The binding that a pattern makes. -/
def Pattern.binding : Pattern → Binding
  | .identifier _ name _ => .name name
  | .withDefault _ (.identifier _ name _) _ => .name name
  | _ => .complex

/-- The binding that a property of a pattern makes for a key, if it is about the key. -/
def PatternProperty.binding? (key : String) : PatternProperty → Option Binding
  | .shorthand _ name _ => if name = key then some (.name name) else none
  | .keyValue k value => if k.name? = some key then some value.binding else none
  | .rest _ _ => none

/-- How an object pattern binds a key. The first property about the key counts. -/
def ObjectPattern.binding (p : ObjectPattern) (key : String) : Binding :=
  (p.properties.findSome? (PatternProperty.binding? key)).getD .missing

end SvelteStories.Script
