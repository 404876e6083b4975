/-
The tokens of scripts:

* `Token`: a token and what it was written with; `Token.spelling` names it in messages;
* `keywords`, `strictWords`: the words that are reserved everywhere, and those that only strict
  code reserves;
* `punctuators`, `binaryOperators`, `updateOperators`: the punctuation, longest first, and its
  parts;
* `Trailing`: which comments behind a token belong to it.
-/
import SvelteStories.Script.SyntaxFault
import SvelteStories.Text.Span

namespace SvelteStories.Script

/-- A token. -/
inductive Token
  /-- A name or a keyword, its escapes replaced. -/
  | word (value : String)
  /-- Punctuation. A regular expression starts as one of slash and `/=`, a template literal as a
  grave accent; the parser reads on from there. -/
  | punctuator (text : String)
  /-- A string: its value and how it was written. -/
  | string (value raw : String)
  /-- A number: its shortest text and how it was written. -/
  | number (value raw : String)
  /-- A whole number of any size: its value and how it was written. -/
  | bigint (value raw : String)
  /-- What is no token, and why. -/
  | fault (reason : SyntaxFault)
  /-- The end of the text. -/
  | stop
deriving DecidableEq, Repr

instance : Inhabited Token := ⟨.stop⟩

/-! ### Words -/

/-- The words that are reserved everywhere, but for those that name a function's own ways. -/
def keywords : List String :=
  ["break", "case", "catch", "class", "const", "continue", "debugger", "default", "delete", "do",
   "else", "export", "extends", "false", "finally", "for", "function", "if", "import", "in",
   "instanceof", "new", "null", "return", "super", "switch", "this", "throw", "true", "try",
   "typeof", "var", "void", "while", "with"]

/-- The words that strict code reserves, but for those that are keywords. -/
def strictWords : List String :=
  ["implements", "interface", "package", "private", "protected", "public"]

/-- The words that are keywords to the lexer, reserved or not. -/
def isKeyword (w : String) : Bool :=
  keywords.contains w || w = "let" || w = "yield" || w = "await"

/-! ### Punctuation -/

/-- Punctuation, longest first. -/
def punctuators : List String :=
  [">>>=", "...", "===", "!==", "**=", "<<=", ">>=", ">>>", "&&=", "||=", "??=", "=>", "==", "!=",
   "<=", ">=", "&&", "||", "??", "?.", "++", "--", "+=", "-=", "*=", "/=", "%=", "&=", "|=", "^=",
   "<<", ">>", "**", "\x7b", "\x7d", "(", ")", "[", "]", ";", ",", "<", ">", "+", "-", "*", "/",
   "%", "&", "|", "^", "!", "~", "?", ":", "=", ".", "@", "#", "\x60"]

/-- The operators between two operands that are punctuation. -/
def binaryOperators : List String :=
  ["??", "||", "&&", "|", "^", "&", "==", "!=", "===", "!==", "<", ">", "<=", ">=", "<<", ">>",
   ">>>", "+", "-", "*", "/", "%", "**"]

/-- The operators that assign after computing. -/
def updateOperators : List String :=
  ["+=", "-=", "*=", "/=", "%=", "**=", "<<=", ">>=", ">>>=", "&=", "|=", "^=", "&&=", "||=",
   "??="]

namespace Token

/-- How messages name a token. -/
def spelling : Token → String
  | word value => value
  | punctuator text => text
  | string value raw => s!"string literal ({value}, {raw})"
  | number value raw => s!"numeric literal ({value}, {raw})"
  | bigint value raw => s!"bigint literal ({value}, {raw})"
  | fault _ => "<lexing error>"
  | stop => "<eof>"

/-- Whether a token is a word of any kind. -/
def isWord : Token → Bool
  | word _ => true
  | _ => false

/-- Whether a token is a string. -/
def isString : Token → Bool
  | string _ _ => true
  | _ => false

/-- Whether a token is no text at all: a fault. -/
def isFault : Token → Bool
  | fault _ => true
  | _ => false

/-- Whether a token is one of these. -/
def isOneOf (ps : List String) : Token → Bool
  | punctuator p => ps.contains p
  | _ => false

/-- Whether a token is an operator between two operands that is punctuation. -/
def isBinaryOperator (t : Token) : Bool :=
  t.isOneOf binaryOperators

end Token

/-! ### Comments behind tokens -/

/-- Which comments behind a token, on its line, belong to it and not to the next one. -/
structure Trailing where
  /-- Block comments. -/
  block : Bool
  /-- Comments that end with the line. -/
  line : Bool
deriving DecidableEq, Repr

/-- The comments that belong to a token. -/
def Token.trailing (t : Token) : Trailing :=
  ⟨match t with
    | .word value => !isKeyword value
    | .punctuator text => [";", "\x7b", "\x7d"].contains text
    | .string _ _ | .number _ _ | .bigint _ _ => true
    | .fault _ | .stop => false,
   !t.isBinaryOperator⟩

end SvelteStories.Script
