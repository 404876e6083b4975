/-
The two names of a story, and how one is made from the other:

* `exportNameOf`: the export name for a display name, its words run together with capitals;
* `wordsOf`, `displayNameOf`: the words of an export name, and the display name they form;
* `isExportName`: whether a name can be exported;
* `StoryNames`, `StoryNames.ofGiven`: both names from those that the author gives;
* `NameRegistry`: the export names taken in one file, each by one story.
-/
import SvelteStories.Fault
import SvelteStories.Text.Casing

namespace SvelteStories

/-- The words that cannot name an export. -/
def reservedWords : List String :=
  ["arguments", "await", "break", "case", "catch", "class", "const", "continue", "debugger",
   "default", "delete", "do", "else", "enum", "eval", "export", "extends", "false", "finally",
   "for", "function", "if", "implements", "import", "in", "instanceof", "interface", "let",
   "new", "null", "package", "private", "protected", "public", "return", "static", "super",
   "switch", "this", "throw", "true", "try", "typeof", "undefined", "var", "void", "while",
   "with", "yield"]

/-- The export that lists the story exports in document order. -/
def exportsOrderName : String := "__namedExportsOrder"

/-! ### From display names to export names -/

/-- A character that an export name may hold. -/
def isNamePart (c : Char) : Bool :=
  isAlphanumeric c || c = '_' || c = '$'

/-- The maximal runs of characters that satisfy `p`, in order. -/
def runs (p : Char → Bool) : List Char → List (List Char)
  | [] => []
  | c :: t =>
    if p c then
      match t with
      | [] => [[c]]
      | d :: _ =>
        if p d then
          match runs p t with
          | r :: rs => (c :: r) :: rs
          | [] => [[c]]
        else [c] :: runs p t
    else runs p t

/-- A word with its first character in upper case. -/
def capitalize : List Char → List Char
  | [] => []
  | c :: t => upperCase c ++ t

/-- The export name for a display name: its words capitalised and run together. A name that would
start with a digit starts with an underscore. -/
def exportNameOf (displayName : List Char) : List Char :=
  let name := (runs isNamePart displayName).flatMap capitalize
  match name with
  | c :: _ => if isAsciiDigit c then '_' :: name else name
  | [] => []

/-! ### From export names to display names -/

/-- Whether a new word starts at `c`, inside a run of alphanumeric characters where `prev` stands
before it and `next` behind it. -/
def startsWord (prev c : Char) (next : Option Char) : Bool :=
  (isLower prev && isUpper c)
    || (isAlphabetic prev && isAsciiDigit c)
    || (isAsciiDigit prev && isAlphabetic c)
    || (isUpper prev && isUpper c && next.any isLower)

/-- The word collected so far, if there is one; its characters come in reverse. -/
def closeWord (current : List Char) : List (List Char) :=
  if current.isEmpty then [] else [current.reverse]

/-- The words of a text, going on from the characters `current` of a word that has begun. -/
def wordsFrom (current : List Char) : List Char → List (List Char)
  | [] => closeWord current
  | c :: t =>
    if isAlphanumeric c then
      if current.head?.any fun prev => startsWord prev c t.head? then
        closeWord current ++ wordsFrom [c] t
      else wordsFrom (c :: current) t
    else closeWord current ++ wordsFrom [] t

/-- The words of an export name. -/
def wordsOf (name : List Char) : List (List Char) :=
  wordsFrom [] name

/-- Words with a space between each two. -/
def joinWords : List (List Char) → List Char
  | [] => []
  | [w] => w
  | w :: ws => w ++ ' ' :: joinWords ws

/-- The display name for an export name: its words capitalised, with spaces between them. -/
def displayNameOf (exportName : List Char) : List Char :=
  joinWords ((wordsOf exportName).map capitalize)

/-! ### Valid names -/

/-- Whether a name can be exported: it starts with a letter, `_` or `$`, goes on with those and
with digits, and is not reserved. -/
def isExportName : List Char → Bool
  | [] => false
  | c :: t =>
    (isAlphabetic c || c = '_' || c = '$') && t.all isNamePart
      && !reservedWords.contains (String.ofList (c :: t))

/-- An export name that a story may take. -/
def checkExportName (name : String) : Except Fault String :=
  if isExportName name.toList then
    if name = exportsOrderName then .error (.reservedExportName name) else .ok name
  else .error (.invalidExportName name)

/-- The names of a story. -/
structure StoryNames where
  /-- The name of the story's export. -/
  exportName : String
  /-- The name that the catalog shows. -/
  displayName : String
deriving DecidableEq, Repr

/-- The names of a story from those that the author gives; each stands in for the other. -/
def StoryNames.ofGiven (displayName exportName : Option String) : Except Fault StoryNames :=
  match displayName, exportName with
  | none, none => .error .unnamedStory
  | some name, none => do
    let exportName ← checkExportName (String.ofList (exportNameOf name.toList))
    return ⟨exportName, name⟩
  | given, some name => do
    let exportName ← checkExportName name
    return ⟨exportName, given.getD (String.ofList (displayNameOf exportName.toList))⟩

/-- The stories of a file whose export names are taken, in the order in which they were taken. -/
abbrev NameRegistry := List StoryNames

/-- Takes an export name, unless another story holds it. -/
def NameRegistry.take (taken : NameRegistry) (names : StoryNames) : Except Fault NameRegistry :=
  match taken.find? fun holder => holder.exportName = names.exportName with
  | some holder =>
    .error (.duplicateExportName names.exportName holder.displayName names.displayName)
  | none => .ok (taken ++ [names])

end SvelteStories
