/-
Templates without places, and how they are written:

* `Part`, `TagPart`, `Branch`: what a template is made of when nothing is said about where it
  stands. Code is text here;
* `Part.markup`, `markup`: the markup that parts are written as;
* `Part.Valid`, `ValidParts`: the parts that markup can tell from one another. Text has to stop
  where something else begins, and code has to be code for the reader of braces;
* `Node.part`, `partsOf`: what a tree of a file is once its places are forgotten.
-/
import Mathlib.Data.List.Chain
import SvelteStories.Markup.Document
import SvelteStories.Proofs.Markup.Code

namespace SvelteStories.Markup

/-! ### Parts -/

/-- A part of a quoted value. -/
inductive TagText
  /-- Plain text. -/
  | text (data : List Char)
  /-- Code between braces. -/
  | code (code : List Char)
deriving DecidableEq, Repr

/-- The value of an attribute. -/
inductive TagValue
  /-- No value is written. -/
  | none
  /-- Plain text. -/
  | text (data : List Char)
  /-- Code between braces. -/
  | code (code : List Char)
  /-- Text and code in turns. -/
  | mixed (parts : List TagText)
deriving DecidableEq, Repr

/-- What stands in an opening tag. -/
inductive TagPart
  /-- A named attribute. -/
  | plain (name : List Char) (value : TagValue)
  /-- The attributes that an object holds. -/
  | spread (code : List Char)
  /-- A directive. -/
  | directive (kind name : List Char) (code : Option (List Char))
deriving DecidableEq, Repr

mutual

/-- A part of a template. -/
inductive Part
  /-- Plain text. -/
  | text (data : List Char)
  /-- A comment. -/
  | comment (data : List Char)
  /-- An element. -/
  | element (kind : ElementKind) (name : List Char) (tag : List TagPart) (selfClosing : Bool)
    (content : List Part)
  /-- Code between braces. -/
  | expression (code : List Char)
  /-- A snippet. -/
  | snippet (name parameters : List Char) (body : List Part)
  /-- A block: its first branch and the others. -/
  | block (kind code : List Char) (first : List Part) (others : List Branch)
  /-- A tag in braces. -/
  | tag (kind code : List Char)

/-- A branch of a block behind the first one. -/
structure Branch where
  /-- The code of the clause that it starts with. -/
  clause : List Char
  /-- What it holds. -/
  parts : List Part

end

/-! ### Markup -/

/-- Code in braces. -/
def inBraces (code : List Char) : List Char :=
  '{' :: (code ++ ['}'])

/-- A part of a quoted value. -/
def TagText.markup : TagText → List Char
  | text data => data
  | code c => inBraces c

/-- A value with the equals sign before it. -/
def TagValue.markup : TagValue → List Char
  | none => []
  | text data => '=' :: '"' :: (data ++ ['"'])
  | code c => '=' :: inBraces c
  | mixed parts => '=' :: '"' :: (parts.flatMap TagText.markup ++ ['"'])

/-- The code of a directive with the equals sign before it. -/
def directiveMarkup : Option (List Char) → List Char
  | none => []
  | some code => '=' :: inBraces code

/-- What stands in an opening tag. -/
def TagPart.markup : TagPart → List Char
  | plain name value => name ++ value.markup
  | spread code => inBraces ('.' :: '.' :: '.' :: code)
  | directive kind name code => kind ++ ':' :: (name ++ directiveMarkup code)

/-- All that stands in an opening tag, each with a blank before it. -/
def tagMarkup : List TagPart → List Char
  | [] => []
  | a :: as => ' ' :: (a.markup ++ tagMarkup as)

/-- The end of an opening tag. -/
def tagEnd (selfClosing : Bool) : List Char :=
  if selfClosing then [' ', '/', '>'] else ['>']

/-- What braces hold that begin with a sign and a word. -/
def headed (sign : Char) (word code : List Char) : List Char :=
  sign :: (word ++ ' ' :: code)

/-- A closing tag. -/
def closingTag (name : List Char) : List Char :=
  '<' :: '/' :: (name ++ ['>'])

mutual

/-- The markup of a part. -/
@[simp] def Part.markup : Part → List Char
  | .text data => data
  | .comment data => "<!--".toList ++ data ++ "-->".toList
  | .element _ name tag selfClosing content =>
    '<' :: name ++ tagMarkup tag ++ tagEnd selfClosing
      ++ (if selfClosing then [] else Markup.markup content ++ closingTag name)
  | .expression code => inBraces code
  | .snippet name parameters body =>
    inBraces (headed '#' "snippet".toList (name ++ '(' :: (parameters ++ [')'])))
      ++ Markup.markup body ++ inBraces ('/' :: "snippet".toList)
  | .block kind code first others =>
    inBraces (headed '#' kind code) ++ Markup.markup first ++ markupOfBranches others
      ++ inBraces ('/' :: kind)
  | .tag kind code => inBraces (headed '@' kind code)

/-- The markup of parts one behind the other. -/
def markup : List Part → List Char
  | [] => []
  | p :: ps => p.markup ++ markup ps

/-- The markup of a branch with its clause. -/
def Branch.markup : Branch → List Char
  | ⟨clause, parts⟩ => inBraces (':' :: clause) ++ Markup.markup parts

/-- The markup of branches one behind the other. -/
def markupOfBranches : List Branch → List Char
  | [] => []
  | b :: bs => b.markup ++ markupOfBranches bs

end

/-! ### Valid parts -/

/-- Text in which nothing else begins. -/
def IsPlainText (data : List Char) : Prop :=
  '{' ∉ data ∧ ∀ c, isAsciiLetter c = true ∨ c = '/' ∨ c = '!' → ¬ ['<', c] <:+: data

/-- A name that an element can have: a letter with what a name may hold behind it. -/
def IsElementName (name : List Char) : Prop :=
  ∃ c rest, name = c :: rest ∧ isAsciiLetter c = true ∧ ∀ d ∈ rest, isElementNamePart d = true

/-- A name that an attribute can have. -/
def IsAttributeName (name : List Char) : Prop :=
  name ≠ [] ∧ ∀ c ∈ name, isAttributeNamePart c = true

/-- A character that the name of a snippet may hold. -/
def isSnippetNamePart (c : Char) : Bool :=
  isAsciiAlphanumeric c || c = '_' || c = '$'

/-- What can stand in an opening tag. The code of an attribute has to be an expression for the
reader of expressions, wherever it stands, and is kept without the blanks around it. -/
inductive TagPart.Valid (read : ExpressionReader) : TagPart → Prop
  /-- A name alone. -/
  | bare {name : List Char} : IsAttributeName name → directiveOf? name = none →
      Valid read (.plain name .none)
  /-- A name and text. -/
  | text {name data : List Char} : IsAttributeName name → directiveOf? name = none →
      '"' ∉ data → '{' ∉ data → Valid read (.plain name (.text data))
  /-- A name and code. -/
  | code {name code : List Char} : IsAttributeName name → directiveOf? name = none →
      Code code → trim code = code → (∀ offset, ∃ value, read offset code = .ok value) →
      Valid read (.plain name (.code code))
  /-- A spread. -/
  | spread {code : List Char} : Code code → trimEnd code = code → Valid read (.spread code)
  /-- A directive. -/
  | directive {kind name : List Char} {code : Option (List Char)} : kind ∈ directiveKinds →
      (∀ c ∈ name, isAttributeNamePart c = true) → (∀ c ∈ code, Code c) →
      Valid read (.directive kind name code)

/-- Whether a part is plain text. -/
def Part.isText : Part → Bool
  | .text _ => true
  | _ => false

/-- Of two texts next to each other markup makes one. -/
def Separate (parts : List Part) : Prop :=
  parts.IsChain fun p q => ¬ (p.isText = true ∧ q.isText = true)

/-- What can stand in a template. -/
inductive Part.Valid (read : ExpressionReader) : Part → Prop
  /-- Plain text. -/
  | text {data : List Char} : data ≠ [] → IsPlainText data → Valid read (.text data)
  /-- A comment. -/
  | comment {data : List Char} : ¬ "-->".toList <:+: data → Valid read (.comment data)
  /-- An element with content. One that closes itself has none. -/
  | element {name : List Char} {tag : List TagPart} {selfClosing : Bool} {content : List Part} :
      IsElementName name → name.map Char.toLower ∉ voidElements →
      name.map Char.toLower ∉ rawTextElements → (∀ a ∈ tag, a.Valid read) →
      (selfClosing = true → content = []) → Separate content → (∀ p ∈ content, Valid read p) →
      Valid read (.element (.ofName name) name tag selfClosing content)
  /-- Code. The signs of the other forms in braces are taken. -/
  | expression {code : List Char} : Code code → (∀ c ∈ ['#', ':', '@', '/'], code.head? ≠ some c) →
      Valid read (.expression code)
  /-- A snippet. -/
  | snippet {name parameters : List Char} {body : List Part} : name ≠ [] →
      (∀ c ∈ name, isSnippetNamePart c = true) → Code parameters → Separate body →
      (∀ p ∈ body, Valid read p) → Valid read (.snippet name parameters body)
  /-- A block. -/
  | block {kind code : List Char} {first : List Part} {others : List Branch} :
      kind ∈ branchingBlocks → Code code → trim code = code → Separate first →
      (∀ p ∈ first, Valid read p) → (∀ b ∈ others, Code b.clause ∧ Separate b.parts) →
      (∀ b ∈ others, ∀ p ∈ b.parts, Valid read p) → Valid read (.block kind code first others)
  /-- A tag in braces. -/
  | tag {kind code : List Char} : (∀ c ∈ kind, isAsciiLetter c = true) → Code code →
      trim code = code → Valid read (.tag kind code)

/-- Parts that can stand one behind the other. -/
structure ValidParts (read : ExpressionReader) (parts : List Part) : Prop where
  /-- No two texts are next to each other. -/
  separate : Separate parts
  /-- Each can stand in a template. -/
  valid : ∀ p ∈ parts, p.Valid read

/-! ### Trees without their places -/

/-- A part of a quoted value. -/
def ValuePart.part (source : Source) : ValuePart → TagText
  | text _ data => .text data
  | expression code => .code (source.slice code)

/-- The value of an attribute. -/
def AttributeValue.part (source : Source) : AttributeValue → TagValue
  | none => .none
  | text _ data => .text data
  | expression code _ => .code (source.slice code)
  | sequence parts => .mixed (parts.map (ValuePart.part source))

/-- What stands in an opening tag. -/
def AttributeNode.part (source : Source) : AttributeNode → TagPart
  | plain a => .plain a.name (a.value.part source)
  | spread _ code => .spread (source.slice code)
  | directive _ kind name code => .directive kind name (code.map source.slice)

mutual

/-- A part of a template. -/
def Node.part (source : Source) : Node → Part
  | .text _ data => .text data
  | .comment _ data => .comment data
  | .element e => e.part source
  | .expression _ code => .expression (source.slice code)
  | .snippet s => s.part source
  | .block b => b.part source
  | .tag _ kind code => .tag kind (source.slice code)

/-- Parts of a template. -/
def partsOf (source : Source) : List Node → List Part
  | [] => []
  | n :: nodes => n.part source :: partsOf source nodes

/-- What a fragment holds. -/
def Fragment.parts (source : Source) : Fragment → List Part
  | ⟨_, nodes⟩ => partsOf source nodes

/-- An element. -/
def Element.part (source : Source) : Element → Part
  | ⟨_, kind, name, attributes, fragment, selfClosing⟩ =>
    .element kind name (attributes.map (AttributeNode.part source)) selfClosing
      (fragment.parts source)

/-- A snippet. -/
def Snippet.part (source : Source) : Snippet → Part
  | ⟨_, name, parameters, body⟩ => .snippet name (source.slice parameters) (body.parts source)

/-- A block. -/
def Block.part (source : Source) : Block → Part
  | ⟨_, kind, code, []⟩ => .block kind (source.slice code) [] []
  | ⟨_, kind, code, f :: fs⟩ =>
    .block kind (source.slice code) (f.parts source) (branchesOf source f.span.stop fs)

/-- The branches behind the one that ends at an offset. Between two branches stands the clause of
the second one in its braces. -/
def branchesOf (source : Source) : (stop : Nat) → List Fragment → List Branch
  | _, [] => []
  | stop, f :: fs =>
    ⟨source.slice ⟨stop + 2, f.span.start - 1⟩, f.parts source⟩
      :: branchesOf source f.span.stop fs

end

end SvelteStories.Markup
