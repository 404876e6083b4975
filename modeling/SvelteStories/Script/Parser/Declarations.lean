/-
Declarations of scripts:

* `readVariables`: variable declarations;
* `readFunctionDeclaration`, `readClassDeclaration`;
* `readInterface`, `readTypeAlias`, `readEnum`, `readNamespace`: what only matters with types;
* `typedDeclaration?`, `readDeclared?`: declarations by the words that they start with.
-/
import SvelteStories.Script.Parser.Operators

namespace SvelteStories.Script

/-! ### Variables -/

/-- What kind of place declares variables. -/
inductive VariablePlace
  /-- A statement. -/
  | statement
  /-- The head of a loop. -/
  | loopHead
deriving DecidableEq, Repr

/-- Whether a pattern is a name. -/
def Pattern.isName : Pattern → Bool
  | .identifier _ _ _ => true
  | _ => false

/-- A declared variable. One that is taken apart, and a constant in strict code, needs a value,
unless a loop gives it one or it is implemented elsewhere. -/
def readDeclarator (g : Grammar) (keyword : String) (place : VariablePlace) :
    Parser Declarator := do
  let start ← offsetHere
  let target ← if keyword = "let" || keyword = "const" then declaredPattern g else g.pattern
  let c ← read
  if c.dialect.isTyped && target.isName then
    let _ ← eat "!"
  let target := target.withTyping (← annotation? g)
  let isGiven ← if place = .loopHead then isAtOneOfWords ["in", "of"] else pure false
  if isGiven then return ⟨target, none⟩
  if ← eat "=" then return ⟨target, some (← g.assignment)⟩
  unless c.isAmbient do
    if keyword = "const" && c.isStrict then noteAt .constantWithoutValue start
    else unless target.isName do failAt .destructuringWithoutValue start
  return ⟨target, none⟩

/-- Whether a loop over elements goes on behind a keyword with no variable between them. -/
def isAtMissingVariable (g : Grammar) : Parser Bool := do
  unless (← isTyped) && (← isAtOneOfWords ["in", "of"]) do return false
  lookAhead false do
    skip
    let _ ← g.assignment
    expect ")"
    return true

/-- Declared variables with commas between them, behind their keyword, which starts at `start`. A
comma with nothing behind it is noted. -/
def readDeclarators (g : Grammar) (keyword : String) (start : Nat) (place : VariablePlace) :
    Parser (List Declarator) := do
  let behindKeyword := (← get).last.stop
  iterate (fun (found : List Declarator) => do
    if (← isAt ";") || (← isAtEnd) then
      let last := (← get).last
      noteAt .trailingComma (if last.start = start then behindKeyword else last.start)
      return .inr found.reverse
    let d ← readDeclarator g keyword place
    if ← eat "," then return .inl (d :: found) else return .inr (d :: found).reverse) []

/-- Passes over what stands before the end of a statement. -/
def skipToTerminator : Parser Unit :=
  iterate (fun (_ : Unit) => do
    if ← eatTerminator then return .inr ()
    skip
    if (← tokenHere).isFault then return .inr ()
    return .inl ()) ()

/-- Passes over an expression, whatever is wrong with it. -/
def skipExpression (g : Grammar) : Parser Unit :=
  tryCatch (do let _ ← g.expression) fun _ => return

/-- The variables of a declaration in the head of a loop. -/
def readLoopVariables (g : Grammar) : Parser VariableDeclaration := do
  let start ← offsetHere
  let keyword ← takeWord
  let inOperator := keyword != "var"
  inContext (fun c => { c with inOperator := c.inOperator || inOperator }) do
    if ← isAtMissingVariable g then
      noteAt .nothingDeclared (← get).last.stop
      return ⟨← spanFrom start, keyword, []⟩
    let declarators ← readDeclarators g keyword start .loopHead
    return ⟨← spanFrom start, keyword, declarators⟩

/-- A variable declaration with its end. If it does not end, that is noted and the rest of the line
is passed over. -/
def readVariables (g : Grammar) : Parser VariableDeclaration := do
  let start ← offsetHere
  let keyword ← takeWord
  let declarators ← inContext Context.withIn (readDeclarators g keyword start .statement)
  unless ← eatTerminator do
    noteAt .semicolonExpected (← faultOffset)
    skipExpression g
    skipToTerminator
  return ⟨← spanFrom start, keyword, declarators⟩

/-- Whether the word `let` at the cursor starts a declaration. -/
def isAtLet : Parser Bool := do
  unless ← isAtWord "let" do return false
  isFollowedBy fun l =>
    match l.token with
    | .word w => !isKeyword w || ["let", "yield", "await"].contains w
    | .punctuator p => p = "[" || p = "\x7b"
    | _ => false

/-- Managed resources, behind their keyword. -/
def readResources (g : Grammar) (start : Nat) (keyword : String) : Parser Statement := do
  skip
  let declarators ← inContext Context.withIn (readDeclarators g keyword start .statement)
  let span ← spanFrom start
  unless ← isTyped do noteAt .managedResource start
  declarators.forM fun d => do
    unless d.target.isName do noteAt .resourcePattern start
    if d.init.isNone then noteAt .resourceWithoutValue start
  return .variables ⟨span, keyword, declarators⟩

/-! ### Functions and classes -/

/-- A function declaration. -/
def readFunctionDeclaration (g : Grammar) : Parser Statement := do
  let start ← offsetHere
  let f ← readFunction g .required
  return .function (← spanFrom start) (f.name.getD "") f.parts

/-- A class declaration that starts at an offset, behind its modifiers. -/
def readClassDeclaration (g : Grammar) (start : Nat) (isAbstract : Bool) : Parser Statement := do
  let c ← readClass g true isAbstract
  let head := textPieces (if isAbstract then "abstract " else "") ++ c.head
  return .classes (← spanFrom start) (c.name.getD "") head c.heritage c.body

/-! ### Declarations of types -/

/-- A declaration that is only laid out and starts at an offset. -/
def laidOut (start : Nat) (p : Parser (List Piece)) : Parser Statement := do
  let parts ← p
  return .compound (← spanFrom start) parts

/-- An interface behind its keyword. -/
def readInterface (g : Grammar) : Parser (List Piece) := do
  let offset ← offsetHere
  let name ← takeWord
  if builtInTypes.contains name then noteAt .builtInName offset
  let types ← typeParameters? g true false
  let bases ← if ← eatWord "extends" then
      pure (heritageLayout "extends" (← heritage g))
    else pure []
  if ← isAtWord "extends" then
    noteAt .secondExtends (← offsetHere)
    iterate (fun (_ : Unit) => do
      if (← isAtEnd) || (← isAt "\x7b") then return .inr ()
      skip
      return .inl ()) ()
  return .text ("interface " ++ name) :: types ++ bases ++ .text " " :: (← typeMembers g)

/-- A name for a type, behind the keyword. -/
def readTypeAlias (g : Grammar) : Parser (List Piece) := do
  let name ← takeWord
  let types ← typeParameters? g true false
  let type ← typeBehind g (.punctuator "=") " = "
  expectTerminator
  return .text ("type " ++ name) :: types ++ type ++ [Piece.text ";"]

/-- The key of a member of an enumeration. -/
def enumKey (g : Grammar) : Parser String := do
  requireToken
  let l ← lexemeHere
  match l.token with
  | .string _ raw =>
    skip
    return raw
  | .number _ raw =>
    skip
    noteAt .numericMember l.span.start
    return raw
  | .punctuator "[" =>
    skip
    let _ ← g.expression
    noteAt .computedMember l.span.start
    expect "]"
    return ""
  | _ => takeWord

/-- A member of an enumeration. A token behind it that is none of a value is noted and counts as the
comma that is missing. -/
def enumMember (g : Grammar) : Parser (List Piece) := do
  let key ← enumKey g
  if ← eat "=" then return [.text (key ++ " = "), .expr (← g.assignment)]
  unless ← isAtOneOf [",", "\x7d"] do
    requireToken
    noteAt .semicolonExpected (← offsetHere)
    modify fun cursor =>
      { cursor with current := { cursor.current with token := .punctuator "," } }
  return [.text key]

/-- An enumeration behind its keyword. A comma that is missing is noted. -/
def readEnum (g : Grammar) (isConstant : Bool) : Parser (List Piece) := do
  let name ← takeWord
  expect "\x7b"
  let members ← iterate (fun (found : List (List Piece)) => do
    if ← isAt "\x7d" then return .inr found.reverse
    let m ← enumMember g
    unless (← eat ",") || (← isAt "\x7d") do
      noteAt (.expected "," (← tokenHere).spelling) (← faultOffset)
    return .inl (m :: found)) []
  expect "\x7d"
  let lead := (if isConstant then "const " else "") ++ "enum " ++ name ++ " "
  return .text lead :: listedLayout members

/-- The items of a namespace in braces. -/
def namespaceBody (g : Grammar) : Parser (List Piece) := do
  expect "\x7b"
  let items ← itemsToBrace g.item
  return .text " " :: membersLayout (items.map fun item => item.form.layout)

/-- A namespace behind its keyword. -/
def readNamespace (g : Grammar) (keyword : String) : Parser (List Piece) := do
  let first ← takeWord
  let name ← iterate (fun (name : String) => do
    if ← eat "." then return .inl (name ++ "." ++ (← takeWord)) else return .inr name) first
  return .text (keyword ++ " " ++ name) :: (← namespaceBody g)

/-- A module that is declared by its source, or the place of what is known everywhere. -/
def readAmbientModule (g : Grammar) : Parser (List Piece) := do
  let isGlobal ← isAtWord "global"
  unless isGlobal || (← tokenHere).isString do failUnexpected "global or a string literal"
  let name ← takeRaw
  let lead := if isGlobal then name else "module " ++ name
  if ← isAt "\x7b" then return .text lead :: (← namespaceBody g)
  expectTerminator
  return [.text (lead ++ ";")]

/-- Whether a word is one that declarations of types start with. -/
def declarationWords : List String :=
  ["abstract", "enum", "interface", "module", "namespace", "type"]

/-- Whether the token behind a word that declarations of types start with continues the declaration.
-/
def continuesDeclaration (word : String) (onNewLine : Bool) : Parser Bool := do
  match word with
  | "abstract" => return !onNewLine && (← isAtWord "class")
  | "module" => return !onNewLine && ((← tokenHere).isString || (← isAtName))
  | "type" => return !onNewLine && (← isAtName)
  | _ => isAtName

/-- A declaration that only matters with types and starts with a word at `start`, if there is one.
The cursor is behind the word, unless `isHere` says that it is at the word, which then has to start
a declaration. -/
def typedDeclaration? (g : Grammar) (start : Nat) (word : String) (isHere : Bool) :
    Parser (Option Statement) := do
  unless declarationWords.contains word do return none
  if isHere then
    if word = "module" && (← isOnNewLine) then return none
    skip
  unless isHere || (← continuesDeclaration word (← isOnNewLine)) do return none
  match word with
  | "abstract" => return some (← readClassDeclaration g start true)
  | "enum" => return some (← laidOut start (readEnum g false))
  | "interface" => return some (← laidOut start (readInterface g))
  | "module" =>
    requireToken
    if (← tokenHere).isString then return some (← laidOut start (readAmbientModule g))
    return some (← laidOut start (readNamespace g "module"))
  | "namespace" => return some (← laidOut start (readNamespace g "namespace"))
  | _ => return some (← laidOut start (readTypeAlias g))

/-- A declaration whose value is elsewhere. -/
def Statement.declared (start : Nat) : Statement → Statement
  | .variables ⟨span, keyword, declarators⟩ =>
    .variables ⟨⟨start, span.stop⟩, "declare " ++ keyword, declarators⟩
  | .function span name parts => .function ⟨start, span.stop⟩ name (.text "declare " :: parts)
  | .classes span name head above body =>
    .classes ⟨start, span.stop⟩ name (.text "declare " :: head) above body
  | .compound span parts => .compound ⟨start, span.stop⟩ (.text "declare " :: parts)
  | s => s

/-- Whether a constant enumeration starts here. -/
def isAtConstEnum : Parser Bool := do
  if ← isAtWord "const" then isFollowedBy (·.token = .word "enum") else return false

/-- The declaration behind the word that says that its value is elsewhere, which starts at `start`,
if there is one. -/
def readDeclared? (g : Grammar) (start : Nat) : Parser (Option Statement) := do
  if (← read).isAmbient then noteAt .nestedDeclaration start
  inContext (fun c => { c with isAmbient := true }) do
    let found ← if ← isAtWord "function" then some <$> readFunctionDeclaration g
      else if ← isAtWord "class" then some <$> readClassDeclaration g start false
      else if ← isAtConstEnum then do
        skip
        skip
        some <$> laidOut start (readEnum g true)
      else if ← isAtOneOfWords ["const", "var", "let"] then do
        return some ((Statement.variables (← readVariables g)).declared start)
      else if ← isAtWord "global" then some <$> laidOut start (readAmbientModule g)
      else match ← tokenHere with
        | .word word => typedDeclaration? g start word true
        | _ => pure none
    return found.map (Statement.declared start)

end SvelteStories.Script
