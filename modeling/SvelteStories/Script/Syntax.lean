/-
Syntax trees of scripts.

The forms that stories are read from and written into are typed: identifiers, literals, arrays,
objects, members, calls, patterns and variable declarations. Every other form is a *layout*: a
list of `Piece`s that spells the form out in source order, with the expressions, patterns and
statements inside it kept as trees. So the printer needs no rule per form, and a walk through a
tree still meets everything that a form contains.

* `Expr`, `Pattern`, `Statement`, `Piece`: the trees;
* `ObjectLiteral`, `Call`, `ObjectPattern`, `VariableDeclaration`: the forms that the transform
  takes apart;
* `Item`, `Program`: modules.
-/
import SvelteStories.Script.Comment

namespace SvelteStories.Script

/-- A literal. Each keeps the text that it was written with. -/
inductive Literal
  /-- A string and its value. -/
  | string (value raw : String)
  /-- A number. -/
  | number (raw : String)
  /-- `true` or `false`. -/
  | boolean (value : Bool)
  /-- `null`. -/
  | null
  /-- A whole number of any size. -/
  | bigint (raw : String)
  /-- A regular expression. -/
  | regex (raw : String)
deriving DecidableEq, Repr

/-- What a type, or a mark that only matters with types, says about an expression. -/
inductive Annotation
  /-- That there is a value: `value!`. -/
  | nonNull
  /-- What its type is: `value as type`. -/
  | ascribed
  /-- What its type fits: `value satisfies type`. -/
  | satisfying
  /-- What its type is, in front of it: `<type>value`. -/
  | cast
  /-- That it is a constant. -/
  | constant
  /-- What its type parameters are: `value<types>`. -/
  | instantiated
deriving DecidableEq, Repr

/-- The forms of expressions that are only laid out. -/
inductive Form
  /-- `this`. -/
  | this
  /-- `super`, as far as it is called. -/
  | superWord
  /-- `import`, as far as it is called. -/
  | importWord
  /-- A member of `super`. -/
  | superMember
  /-- A private name whose presence is tested. -/
  | privateName
  /-- An operator in front of its operand. -/
  | unary
  /-- An operator that counts its operand up or down. -/
  | update
  /-- An operator between two operands. -/
  | binary (operator : String)
  /-- A choice. -/
  | conditional
  /-- Expressions with commas between them. -/
  | sequence
  /-- A constructed object. -/
  | construction
  /-- A constructed object without arguments. -/
  | bareConstruction
  /-- A member in an optional chain. -/
  | optionalMember
  /-- A call in an optional chain. -/
  | optionalCall
  /-- A template literal with a function in front of it. -/
  | tagged
  /-- A value that is waited for. -/
  | await
  /-- A value that a generator hands out. -/
  | yield
  /-- What is known of a module or of a call. -/
  | metaProperty
  /-- No expression, where a fault has been noted. -/
  | missing
deriving DecidableEq, Repr

mutual

/-- An expression. -/
inductive Expr
  /-- A name. -/
  | identifier (span : Span) (name : String)
  /-- A literal. -/
  | literal (span : Span) (value : Literal)
  /-- A template literal, delimiters included. -/
  | template (span : Span) (parts : List Piece)
  /-- An array literal. -/
  | array (span : Span) (elements : List Element)
  /-- An object literal. -/
  | object (value : ObjectLiteral)
  /-- An expression in parentheses. -/
  | paren (span : Span) (inner : Expr)
  /-- A member of an object, outside of optional chains. -/
  | member (span : Span) (object : Expr) (key : MemberKey)
  /-- A call, outside of optional chains. -/
  | call (value : Call)
  /-- A function. -/
  | function (span : Span) (parts : List Piece)
  /-- An arrow function. -/
  | arrow (span : Span) (parts : List Piece)
  /-- A class: what stands before `extends`, the heritage, the body. -/
  | classes (span : Span) (head heritage body : List Piece)
  /-- An assignment. -/
  | assign (span : Span) (target : Pattern) (operator : String) (value : Expr)
  /-- An expression that something is said about, in front of it and behind it. -/
  | annotated (span : Span) (about : Annotation) (lead : List Piece) (inner : Expr)
    (trail : List Piece)
  /-- Any other expression. -/
  | compound (span : Span) (form : Form) (parts : List Piece)

/-- An object literal. -/
structure ObjectLiteral where
  /-- From brace to brace. -/
  span : Span
  /-- The properties in order. -/
  properties : List Property

/-- A call. -/
structure Call where
  /-- From the callee to the closing parenthesis. -/
  span : Span
  /-- What is called. -/
  callee : Expr
  /-- The type arguments, brackets included. -/
  types : List Piece
  /-- The arguments in order. -/
  arguments : List Argument

/-- An argument of a call. -/
inductive Argument
  /-- A single argument. -/
  | plain (value : Expr)
  /-- As many arguments as the value has elements. -/
  | spread (value : Expr)

/-- An element of an array literal. -/
inductive Element
  /-- No element. -/
  | hole
  /-- A single element. -/
  | plain (value : Expr)
  /-- The elements of another value. -/
  | spread (span : Span) (value : Expr)

/-- The name of a member. -/
inductive MemberKey
  /-- `.name`. -/
  | name (name : String)
  /-- `.#name`. -/
  | privateName (name : String)
  /-- `[key]`. -/
  | computed (key : Expr)

/-- The key of a property. -/
inductive PropertyKey
  /-- A name. -/
  | identifier (span : Span) (name : String)
  /-- A string. -/
  | string (span : Span) (value raw : String)
  /-- A number and the name that it stands for. -/
  | number (span : Span) (name raw : String)
  /-- A whole number of any size. -/
  | bigint (span : Span) (raw : String)
  /-- A key in brackets. -/
  | computed (span : Span) (key : Expr)

/-- A property of an object literal. -/
inductive Property
  /-- `key: value`. -/
  | keyValue (key : PropertyKey) (value : Expr)
  /-- `name`. -/
  | shorthand (span : Span) (name : String)
  /-- `name = value`, which only makes sense in a pattern. -/
  | initialized (span : Span) (name : String) (value : Expr)
  /-- A method or accessor: what stands before the key, the key, what follows. -/
  | method (span : Span) (lead : String) (key : PropertyKey) (parts : List Piece)
  /-- `...value`. -/
  | spread (span : Span) (value : Expr)

/-- A pattern that names are bound by. -/
inductive Pattern
  /-- A name, and what is said about its type. -/
  | identifier (span : Span) (name : String) (typing : List Piece)
  /-- An object pattern. -/
  | object (value : ObjectPattern)
  /-- An array pattern, and what is said about its type. -/
  | array (span : Span) (elements : List PatternElement) (typing : List Piece)
  /-- A pattern with a default. -/
  | withDefault (span : Span) (target : Pattern) (value : Expr)
  /-- `...target`, and what is said about its type. -/
  | rest (span : Span) (target : Pattern) (typing : List Piece)
  /-- An expression that is assigned to. -/
  | target (value : Expr)

/-- An object pattern. -/
structure ObjectPattern where
  /-- From brace to brace. -/
  span : Span
  /-- The properties in order. -/
  properties : List PatternProperty
  /-- What is said about the type. -/
  typing : List Piece

/-- A property of an object pattern. -/
inductive PatternProperty
  /-- `key: value`. -/
  | keyValue (key : PropertyKey) (value : Pattern)
  /-- `name` or `name = default`. -/
  | shorthand (span : Span) (name : String) (default : Option Expr)
  /-- `...target`. -/
  | rest (span : Span) (target : Pattern)

/-- An element of an array pattern. -/
inductive PatternElement
  /-- An element that is passed over. -/
  | hole
  /-- A bound element. -/
  | bound (target : Pattern)

/-- A variable declaration, without the keyword that may export it. -/
structure VariableDeclaration where
  /-- From the keyword to the semicolon, if there is one. -/
  span : Span
  /-- The keyword. -/
  keyword : String
  /-- The declared variables in order. -/
  declarators : List Declarator

/-- One variable of a declaration. -/
structure Declarator where
  /-- What is bound. -/
  target : Pattern
  /-- What it is initialised with. -/
  init : Option Expr

/-- A statement. -/
inductive Statement
  /-- An expression. -/
  | expression (span : Span) (value : Expr)
  /-- A variable declaration. -/
  | variables (value : VariableDeclaration)
  /-- A function declaration. -/
  | function (span : Span) (name : String) (parts : List Piece)
  /-- A class declaration: what stands before `extends`, the heritage, the body. -/
  | classes (span : Span) (name : String) (head heritage body : List Piece)
  /-- Statements in braces. -/
  | block (span : Span) (statements : List Statement)
  /-- A loop that tests behind its body. -/
  | doWhile (span : Span) (body : Statement) (test : Expr)
  /-- Any other statement. -/
  | compound (span : Span) (parts : List Piece)

/-- A part of a layout. -/
inductive Piece
  /-- Text as it is. -/
  | text (value : String)
  /-- A new line at the current depth. -/
  | newline
  /-- Parts that stand one level deeper. -/
  | deeper (parts : List Piece)
  /-- An expression. -/
  | expr (value : Expr)
  /-- A pattern. -/
  | pattern (value : Pattern)
  /-- The key of a member of a class. -/
  | key (value : PropertyKey)
  /-- A statement. -/
  | statement (value : Statement)
  /-- A variable declaration without its semicolon. -/
  | declaration (value : VariableDeclaration)

end

/-- The name that an export goes by in other modules. -/
inductive ExternalName
  /-- A word. -/
  | word (span : Span) (value : String)
  /-- A string, and how it is written. -/
  | string (span : Span) (value raw : String)
deriving DecidableEq, Repr

namespace ExternalName

/-- Where a name stands. -/
def span : ExternalName → Span
  | word s _ | string s _ _ => s

/-- The name itself. -/
def value : ExternalName → String
  | word _ v | string _ v _ => v

/-- How a name is written. -/
def text : ExternalName → String
  | word _ v => v
  | string _ _ raw => raw

end ExternalName

/-- A name that an import brings in. -/
inductive ImportSpecifier
  /-- `{ imported as name }`. -/
  | named (imported name : String) (typeOnly : Bool)
  /-- The default export. -/
  | default (span : Span) (name : String)
  /-- All exports as one object. -/
  | all (span : Span) (name : String)
deriving DecidableEq, Repr

/-- What a module exports by default. -/
inductive DefaultExport
  /-- A function, with a name or without. -/
  | function (name : Option String) (parts : List Piece)
  /-- A class. -/
  | classes (name : Option String) (head heritage body : List Piece)
  /-- An interface. -/
  | interfaces
  /-- The value of an expression. -/
  | expression (value : Expr)

/-- What an item of a module does. -/
inductive ItemForm
  /-- Imports names. -/
  | imports (typeOnly : Bool) (specifiers : List ImportSpecifier) (source : String)
  /-- Runs a statement or makes a declaration. -/
  | statement (value : Statement)
  /-- Exports a declaration. -/
  | exportDeclaration (value : Statement)
  /-- Makes the default export. -/
  | exportDefault (value : DefaultExport)
  /-- Exports local names under other names, or passes on those of another module. -/
  | exportNames (names : List (ExternalName × ExternalName)) (source : Option String)
  /-- Exports everything from another module, as one object if that has a name. -/
  | exportAll (typeOnly : Bool) (name : Option ExternalName) (source : String)
  /-- Declares types only. -/
  | other (parts : List Piece)

/-- An item of a module. -/
structure Item where
  /-- Where it stands. -/
  span : Span
  /-- The comments right before it. -/
  comments : List Comment
  /-- What it does. -/
  form : ItemForm

/-- A module. -/
abbrev Program := List Item

/-! ### Places of trees -/

namespace PropertyKey

/-- The place of a key. -/
def span : PropertyKey → Span
  | identifier s _ | string s _ _ | number s _ _ | bigint s _ | computed s _ => s

/-- The name that a key stands for, if it is fixed. -/
def name? : PropertyKey → Option String
  | identifier _ name => some name
  | string _ value _ => some value
  | number _ name _ => some name
  | bigint _ _ | computed _ _ => none

end PropertyKey

/-- The place of an expression. -/
def Expr.span : Expr → Span
  | .identifier s _ | .literal s _ | .template s _ | .array s _ | .paren s _ | .member s _ _
  | .function s _ | .arrow s _ | .classes s _ _ _ | .assign s _ _ _ | .annotated s _ _ _ _
  | .compound s _ _ => s
  | .object o => o.span
  | .call c => c.span

namespace Property

/-- The place of a property. -/
def span : Property → Span
  | keyValue key value => ⟨key.span.start, value.span.stop⟩
  | shorthand s _ | initialized s _ _ | method s _ _ _ | spread s _ => s

/-- The fixed name of a property. -/
def name? : Property → Option String
  | keyValue key _ => key.name?
  | shorthand _ name => some name
  | initialized _ name _ => some name
  | method _ _ key _ => key.name?
  | spread _ _ => none

end Property

/-- The place of a statement. -/
def Statement.span : Statement → Span
  | .expression s _ | .function s _ _ | .classes s _ _ _ _ | .block s _ | .doWhile s _ _
  | .compound s _ => s
  | .variables d => d.span

/-- The place of a pattern. -/
def Pattern.span : Pattern → Span
  | .identifier s _ _ | .array s _ _ | .withDefault s _ _ | .rest s _ _ => s
  | .object o => o.span
  | .target e => e.span

end SvelteStories.Script
