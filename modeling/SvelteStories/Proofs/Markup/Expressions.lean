/-
Script expressions between braces, token by token:

* `PlainToken`, `Tokens`, `TemplateParts`: the text of an expression as a sequence of tokens, blanks
  and comments. Template literals and braces hold further tokens;
* `Tokens.IsValid`: what scripts ask of such a sequence; `Tokens.IsScannable`: what the search for
  the closing brace asks beyond that, of regular expressions and the ends of line comments alone;
* `PlainToken.IsValid.code_append`: every plain token leads from code to code;
* `Tokens.code`: so the tokens of an expression are code, whatever their literals and comments hold;
* `closingBrace?_tokens`: the closing brace of an expression is the one right behind its tokens;
* `closingBrace?_plain_iff`: of a token alone, the search asks nothing that this would not need;
* `unreadTokens_break`: regular expressions and a line comment for which it is another brace, or
  none.

The sign and the word that begin a tag or the clause of a block in braces are tokens like others.
Comments in the form of markup are none: the scripts of components are modules.
-/
import SvelteStories.Proofs.Markup.ClosingBrace
import SvelteStories.Proofs.Markup.OpeningTags
import SvelteStories.Script.Lexer

namespace SvelteStories

open Markup

/-! ### Tokens -/

/-- A character of a name. -/
inductive NamePart
  /-- One that stands for itself. -/
  | char (c : Char)
  /-- Its code, after `\u`. -/
  | escape (digits : List Char)
  /-- Its code, after `\u` and in braces. -/
  | bracedEscape (digits : List Char)

/-- A character of a string, or several. -/
inductive StringPart
  /-- One that stands for itself. -/
  | char (c : Char)
  /-- One behind a backslash. -/
  | escape (c : Char)

/-- A token that holds no others, or what may stand between two tokens. -/
inductive PlainToken
  /-- A blank. -/
  | blank (c : Char)
  /-- A name or a keyword. -/
  | name (parts : List NamePart)
  /-- A number. -/
  | number (digits : List Char)
  /-- Punctuation without braces and grave accents. -/
  | punctuator (p : String)
  /-- A string between two quotes. -/
  | string (quote : Char) (parts : List StringPart)
  /-- A regular expression between two slashes, and its flags. -/
  | regex (body flags : List Char)
  /-- A line comment and the end of its line. -/
  | lineComment (inside : List Char) (stop : String)
  /-- A block comment. -/
  | blockComment (inside : List Char)

mutual

/-- A sequence of tokens, blanks and comments in which braces and grave accents are paired. -/
inductive Tokens
  /-- None. -/
  | nil
  /-- One that holds no others. -/
  | plain (t : PlainToken) (rest : Tokens)
  /-- A template literal. -/
  | template (parts : TemplateParts) (rest : Tokens)
  /-- Tokens in braces. -/
  | braces (inner rest : Tokens)

/-- The inside of a template literal. -/
inductive TemplateParts
  /-- Nothing. -/
  | nil
  /-- A character that stands for itself. -/
  | char (c : Char) (rest : TemplateParts)
  /-- A character behind a backslash. -/
  | escape (c : Char) (rest : TemplateParts)
  /-- Tokens in braces behind a dollar sign. -/
  | interpolation (inner : Tokens) (rest : TemplateParts)

end

/-! ### Their texts -/

/-- A part of a name as it is written. -/
def NamePart.text : NamePart → List Char
  | char c => [c]
  | escape digits => '\\' :: 'u' :: digits
  | bracedEscape digits => '\\' :: 'u' :: '{' :: (digits ++ ['}'])

/-- A part of a string as it is written. -/
def StringPart.text : StringPart → List Char
  | char c => [c]
  | escape c => ['\\', c]

/-- A plain token as it is written. -/
def PlainToken.text : PlainToken → List Char
  | blank c => [c]
  | name parts => parts.flatMap NamePart.text
  | number digits => digits
  | punctuator p => p.toList
  | string quote parts => quote :: (parts.flatMap StringPart.text ++ [quote])
  | regex body flags => '/' :: (body ++ '/' :: flags)
  | lineComment inside stop => '/' :: '/' :: (inside ++ stop.toList)
  | blockComment inside => '/' :: '*' :: (inside ++ ['*', '/'])

mutual

/-- Tokens as they are written. -/
def Tokens.text : Tokens → List Char
  | .nil => []
  | .plain t rest => t.text ++ rest.text
  | .template parts rest => '\x60' :: (parts.text ++ '\x60' :: rest.text)
  | .braces inner rest => '{' :: (inner.text ++ '}' :: rest.text)

/-- The inside of a template literal as it is written. -/
def TemplateParts.text : TemplateParts → List Char
  | .nil => []
  | .char c rest => c :: rest.text
  | .escape c rest => '\\' :: c :: rest.text
  | .interpolation inner rest => '$' :: '{' :: (inner.text ++ '}' :: rest.text)

end

/-! ### What scripts ask of them -/

/-- The ends of lines in scripts. -/
def lineEnds : List String :=
  ["\n", "\r\n", "\r", "\u2028", "\u2029"]

/-- A text that goes on with neither a slash nor a star, and so makes no comment of a slash before
it. -/
def OpensNoComment (behind : List Char) : Prop :=
  behind.head? ≠ some '/' ∧ behind.head? ≠ some '*'

/-- A part that names can have. -/
def NamePart.IsValid : NamePart → Prop
  | char c => isIdentifierPart c = true
  | escape digits | bracedEscape digits => ∀ c ∈ digits, isIdentifierPart c = true

/-- A part that strings between such quotes can have. -/
def StringPart.FitsIn (quote : Char) : StringPart → Prop
  | char c => c ≠ quote ∧ c ≠ '\\'
  | escape _ => True

/-- A token that scripts can have before this text. A slash that divides does not open a comment. -/
def PlainToken.IsValid (behind : List Char) : PlainToken → Prop
  | blank c => Script.isScriptBlank c = true
  | name parts => ∀ part ∈ parts, part.IsValid
  | number digits => ∀ c ∈ digits, isIdentifierPart c = true ∨ c ∈ ['.', '+', '-']
  | punctuator p => p ∈ Script.punctuators ∧ p ∉ ["\x7b", "\x7d", "\x60"]
      ∧ (p = "/" → OpensNoComment behind)
  | string quote parts => (quote = '"' ∨ quote = '\'') ∧ ∀ part ∈ parts, part.FitsIn quote
  | regex body flags => body ≠ [] ∧ body.head? ≠ some '*'
      ∧ Script.afterRegex? false (body ++ ['/']) = some []
      ∧ ∀ c ∈ flags, isIdentifierPart c = true
  | lineComment inside stop => (∀ c ∈ inside, Script.isLineBreak c = false) ∧ stop ∈ lineEnds
  | blockComment inside => ¬ ['*', '/'] <:+: inside

mutual

/-- Tokens that scripts can have. -/
def Tokens.IsValid : Tokens → Prop
  | .nil => True
  | .plain t rest => t.IsValid rest.text ∧ rest.IsValid
  | .template parts rest => parts.IsValid ∧ rest.IsValid
  | .braces inner rest => inner.IsValid ∧ rest.IsValid

/-- What template literals can have inside. -/
def TemplateParts.IsValid : TemplateParts → Prop
  | .nil => True
  | .char c rest => c ≠ '\x60' ∧ c ≠ '\\' ∧ (c = '$' → rest.text.head? ≠ some '{') ∧ rest.IsValid
  | .escape _ rest => rest.IsValid
  | .interpolation inner rest => inner.IsValid ∧ rest.IsValid

end

/-! ### What the search for the closing brace asks beyond that -/

/-- A token that is read right before this text. Regular expressions are not known: the text of one
has to be code by itself, and its closing slash must open no comment. Line comments end at line
feeds only. -/
def PlainToken.IsScannable (behind : List Char) : PlainToken → Prop
  | regex body flags => Code ('/' :: (body ++ '/' :: flags)) ∧ (flags = [] → OpensNoComment behind)
  | lineComment _ stop => stop = "\n" ∨ stop = "\r\n"
  | _ => True

mutual

/-- Tokens that are read right. -/
def Tokens.IsScannable : Tokens → Prop
  | .nil => True
  | .plain t rest => t.IsScannable rest.text ∧ rest.IsScannable
  | .template parts rest => parts.IsScannable ∧ rest.IsScannable
  | .braces inner rest => inner.IsScannable ∧ rest.IsScannable

/-- Insides of template literals that are read right. -/
def TemplateParts.IsScannable : TemplateParts → Prop
  | .nil => True
  | .char _ rest | .escape _ rest => rest.IsScannable
  | .interpolation inner rest => inner.IsScannable ∧ rest.IsScannable

end

/-! ### Code before code -/

/-- Code is told by running through it. -/
instance : DecidablePred Code := fun w =>
  decidable_of_iff ((BraceScan.start.steps w).any fun s => (s.step '}').isNone) (by
    simp [code_iff_steps, Option.any_eq_true])

/-- Code stays code before other code, unless a slash at its end would open a comment. -/
lemma Code.append {v w : List Char} (hv : Code v) (hw : Code w)
    (h : ['/'] <:+ v → OpensNoComment w) : Code (v ++ w) := by
  match v, hv, h with
  | _, .nil, _ => exact hw
  | _, @Code.string quote s rest hquote hs hrest, h =>
      have := hrest.append hw fun hslash => h (hslash.trans ⟨quote :: s, by simp⟩)
      simpa using Code.string hquote hs this
  | _, @Code.template s rest hs hrest, h =>
      have := hrest.append hw fun hslash => h (hslash.trans ⟨'\x60' :: s, by simp⟩)
      simpa using Code.template hs this
  | _, @Code.lineComment s rest hs hrest, h =>
      have := hrest.append hw fun hslash => h (hslash.trans ⟨'/' :: '/' :: (s ++ ['\n']), by simp⟩)
      simpa using Code.lineComment hs this
  | _, @Code.blockComment s rest hs hrest, h =>
      have := hrest.append hw fun hslash =>
        h (hslash.trans ⟨'/' :: '*' :: (s ++ ['*', '/']), by simp⟩)
      simpa using Code.blockComment hs this
  | _, @Code.braces inner rest hinner hrest, h =>
      have := hrest.append hw fun hslash => h (hslash.trans ⟨'{' :: (inner ++ ['}']), by simp⟩)
      simpa using Code.braces hinner this
  | _, @Code.other c rest hc hslash hrest, h =>
      refine .other hc ?_ (hrest.append hw fun hslash => h (hslash.trans ⟨[c], rfl⟩))
      rintro rfl
      cases rest with
      | nil => exact h (List.suffix_refl _)
      | cons d rest => exact hslash rfl
termination_by structural hv

/-- The brace right behind a text closes the one right before it if and only if the text is code. -/
lemma closingBrace?_braces_iff {w r : List Char} :
    closingBrace? ('{' :: (w ++ '}' :: r)) 0 = some (1 + byteLength w) ↔ Code w := by
  rw [closingBrace?_eq_some_iff]
  constructor
  · rintro ⟨before, code, rest, htext, hbefore, hclosing, hcode⟩
    obtain rfl := byteLength_eq_zero_iff.mp hbefore
    have htext : w ++ '}' :: r = code ++ '}' :: rest := (List.cons.inj htext).2
    have hsplit := splitAtByte_append w ('}' :: r)
    rw [htext, show byteLength w = byteLength code by omega, splitAtByte_append] at hsplit
    obtain ⟨rfl, -⟩ := Prod.mk.inj (Option.some.inj hsplit)
    exact hcode
  · exact fun hcode => ⟨[], w, r, rfl, rfl, by omega, hcode⟩

/-- Code that begins with two slashes goes on behind a line feed. -/
lemma mem_of_code_slashes {u : List Char} (h : Code ('/' :: '/' :: u)) : '\n' ∈ u := by
  generalize hw : '/' :: '/' :: u = w at h
  cases h with
  | lineComment hs hrest =>
      obtain rfl := (List.cons.inj (List.cons.inj hw).2).2
      simp
  | other hc hslash hrest =>
      obtain ⟨rfl, rfl⟩ := List.cons.inj hw
      exact absurd rfl (hslash rfl).1
  | string hquote => rcases hquote with rfl | rfl <;> simp at hw
  | _ => simp at hw

/-! ### Tokens are code -/

lemma isPlain_of_identifierPart {c : Char} (h : isIdentifierPart c = true) :
    IsPlain c ∧ c ≠ '/' :=
  isPlain_of_test h (by decide)

instance : DecidablePred IsPlain := fun _ => inferInstanceAs (Decidable (_ ∧ _))

/-- Of punctuation without braces and grave accents only a slash may begin something. -/
lemma isPlain_of_mem_punctuators : ∀ p ∈ Script.punctuators, p ∉ ["\x7b", "\x7d", "\x60"] →
    p = "/" ∨ p = "/=" ∨ ∀ c ∈ p.toList, IsPlain c ∧ c ≠ '/' := by
  decide

/-- A part of a name begins no string, no template literal and no comment. Its braces, if it has
any, are paired. -/
lemma NamePart.IsValid.code_append {part : NamePart} (hpart : part.IsValid) {w : List Char}
    (hw : Code w) : Code (part.text ++ w) := by
  have hplain {digits : List Char} (hdigits : ∀ c ∈ digits, isIdentifierPart c = true)
      {w : List Char} (hw : Code w) : Code (digits ++ w) :=
    code_append_of_plain (fun c hc => isPlain_of_identifierPart (hdigits c hc)) hw
  have hescape {w : List Char} (hw : Code w) : Code ('\\' :: 'u' :: w) :=
    code_append_of_plain (s := ['\\', 'u']) (by simp [IsPlain]) hw
  cases part with
  | char c =>
      exact code_append_of_plain (s := [c]) (by simpa using isPlain_of_identifierPart hpart) hw
  | escape digits => exact hescape (hplain hpart hw)
  | bracedEscape digits =>
      have := hescape (Code.braces (hplain hpart Code.nil) hw)
      simpa [NamePart.text] using this

lemma code_append_of_nameParts {parts : List NamePart} (h : ∀ part ∈ parts, part.IsValid)
    {w : List Char} (hw : Code w) : Code (parts.flatMap NamePart.text ++ w) := by
  induction parts with
  | nil => exact hw
  | cons part parts ih =>
      have hrest := ih fun part hpart => h part (List.mem_cons_of_mem _ hpart)
      simpa using (h part List.mem_cons_self).code_append hrest

/-- What is written between the quotes of a string leads to the closing one. -/
lemma stringTail_of_fits {quote : Char} {parts : List StringPart}
    (h : ∀ part ∈ parts, part.FitsIn quote) :
    StringTail quote (parts.flatMap StringPart.text ++ [quote]) := by
  induction parts with
  | nil => exact .close
  | cons part parts ih =>
      have hrest := ih fun part hpart => h part (List.mem_cons_of_mem _ hpart)
      have hpart := h part List.mem_cons_self
      cases part with
      | char c => exact .other hpart.1 hpart.2 hrest
      | escape c => exact .escape c hrest

/-- A plain token leads from code to code. -/
lemma PlainToken.IsValid.code_append {t : PlainToken} {w : List Char} (hvalid : t.IsValid w)
    (hscannable : t.IsScannable w) (hw : Code w) : Code (t.text ++ w) := by
  cases t with
  | blank c =>
      have hblank : IsPlain c ∧ c ≠ '/' := isPlain_of_test hvalid (by decide)
      exact code_append_of_plain (s := [c]) (by simpa using hblank) hw
  | name parts => exact code_append_of_nameParts hvalid hw
  | number digits =>
      refine code_append_of_plain (fun c hc => ?_) hw
      rcases hvalid c hc with hc | hc
      · exact isPlain_of_identifierPart hc
      · exact (by decide : ∀ c ∈ ['.', '+', '-'], IsPlain c ∧ c ≠ '/') c hc
  | punctuator p =>
      obtain ⟨hp, hother, hslash⟩ := hvalid
      rcases isPlain_of_mem_punctuators p hp hother with rfl | rfl | hplain
      · exact .other (by decide) (fun _ => hslash rfl) hw
      · have hequals : Code ('=' :: w) := .other (by decide) (by simp) hw
        have hslash : Code ('/' :: '=' :: w) := .other (by decide) (by simp) hequals
        exact hslash
      · exact code_append_of_plain hplain hw
  | string quote parts =>
      obtain ⟨hquote, hparts⟩ := hvalid
      have := Code.string hquote (stringTail_of_fits hparts) hw
      simpa [PlainToken.text] using this
  | regex body flags =>
      obtain ⟨-, -, -, hflags⟩ := hvalid
      obtain ⟨hcode, hbehind⟩ := hscannable
      refine hcode.append hw fun hslash => hbehind ?_
      obtain rfl | ⟨flags, c, rfl⟩ := flags.eq_nil_or_concat
      · rfl
      · -- flags are no slashes, and so the text does not end with one
        have hc := hflags c (by simp)
        obtain ⟨u, hu⟩ := hslash
        have hassoc : u ++ ['/'] = '/' :: (body ++ '/' :: flags) ++ [c] := by simpa using hu
        obtain rfl := List.head_eq_of_cons_eq (List.append_inj' hassoc rfl).2
        exact absurd hc (by decide)
  | lineComment inside stop =>
      obtain ⟨hinside, -⟩ := hvalid
      have hfeed : '\n' ∉ inside := fun hmem => absurd (hinside _ hmem) (by decide)
      rcases hscannable with rfl | rfl
      · have := Code.lineComment hfeed hw
        simpa [PlainToken.text] using this
      · have := Code.lineComment (s := inside ++ ['\r']) (by simpa using hfeed) hw
        simpa [PlainToken.text] using this
  | blockComment inside =>
      have := Code.blockComment hvalid hw
      simpa [PlainToken.text] using this

mutual

/-- **Tokens are code**, whatever their literals and comments hold. -/
theorem Tokens.code : (ts : Tokens) → ts.IsValid → ts.IsScannable → Code ts.text
  | .nil, _, _ => .nil
  | .plain _ rest, hvalid, hscannable =>
      hvalid.1.code_append hscannable.1 (rest.code hvalid.2 hscannable.2)
  | .template parts rest, hvalid, hscannable => by
      have := Code.template (parts.templateTail hvalid.1 hscannable.1)
        (rest.code hvalid.2 hscannable.2)
      simpa [Tokens.text] using this
  | .braces inner rest, hvalid, hscannable =>
      .braces (inner.code hvalid.1 hscannable.1) (rest.code hvalid.2 hscannable.2)

/-- The inside of a template literal leads to its closing grave accent. -/
theorem TemplateParts.templateTail :
    (parts : TemplateParts) → parts.IsValid → parts.IsScannable →
      TemplateTail (parts.text ++ ['\x60'])
  | .nil, _, _ => .close
  | .char c rest, hvalid, hscannable => by
      obtain ⟨hclose, hslash, hdollar, hrest⟩ := hvalid
      refine .other hclose hslash (fun hc => ?_) (rest.templateTail hrest hscannable)
      cases htext : rest.text with
      | nil => simp
      | cons d t => simpa [htext] using hdollar hc
  | .escape c rest, hvalid, hscannable => .escape c (rest.templateTail hvalid hscannable)
  | .interpolation inner rest, hvalid, hscannable => by
      have := TemplateTail.interpolation (inner.code hvalid.1 hscannable.1)
        (rest.templateTail hvalid.2 hscannable.2)
      simpa [TemplateParts.text] using this

end

/-! ### The closing brace of an expression -/

/-- **The braces around an expression are paired.** The brace right behind the tokens of an
expression closes the one right before them, whatever follows, and so the code read from the place
of that one is these tokens and no more. -/
theorem closingBrace?_tokens (ts : Tokens) (hvalid : ts.IsValid) (hscannable : ts.IsScannable) :
    (∀ r, closingBrace? ('{' :: (ts.text ++ '}' :: r)) 0 = some (1 + byteLength ts.text))
      ∧ ∀ p q : Place, p.Reads (inBraces ts.text) q → braced p = .ok (ts.text, q) := by
  have hcode := ts.code hvalid hscannable
  exact ⟨fun _ => closingBrace?_braces_iff.mpr hcode, fun _ _ h => braced_eq_ok h hcode⟩

/-- An expression most braces of which stand in literals and comments. -/
def manyBraces : Tokens :=
  .plain (.regex ['\\', 'd', '{', '4', '}'] ['g']) <| .plain (.punctuator ".") <|
  .plain (.name [.char 'm', .bracedEscape ['6', '1']]) <| .plain (.punctuator "(") <|
  .template
    (.char '}' <| .escape '\x60' <| .interpolation
      (.braces
          (.plain (.name [.char 'a']) <| .plain (.punctuator ":") <| .plain (.blank ' ') <|
            .plain (.string '"' [.char '}', .escape '"']) .nil) <|
        .plain (.blockComment [' ', '}', '*']) .nil) .nil) <|
  .plain (.punctuator ")") <| .plain (.lineComment [' ', '}', '\x60'] "\r\n") .nil

theorem closingBrace?_manyBraces :
    manyBraces.IsValid ∧ manyBraces.IsScannable
      ∧ closingBrace? ('{' :: (manyBraces.text ++ '}' :: [' ', '}'])) 0 = some 51
      ∧ 1 + byteLength manyBraces.text = 51 := by
  have hvalid : manyBraces.IsValid := by
    simp +decide [manyBraces, Tokens.IsValid, TemplateParts.IsValid, PlainToken.IsValid,
      NamePart.IsValid, StringPart.FitsIn]
  have hscannable : manyBraces.IsScannable := by
    simp +decide [manyBraces, Tokens.IsScannable, TemplateParts.IsScannable, PlainToken.IsScannable]
  have hlength : 1 + byteLength manyBraces.text = 51 := by decide
  have hclosing := (closingBrace?_tokens manyBraces hvalid hscannable).1 [' ', '}']
  exact ⟨hvalid, hscannable, hclosing.trans (congrArg some hlength), hlength⟩

/-- Of a token alone, the search asks nothing beyond its validity that the closing brace would not
need. -/
theorem closingBrace?_plain_iff {t : PlainToken} (hvalid : t.IsValid []) {r : List Char} :
    closingBrace? ('{' :: (t.text ++ '}' :: r)) 0 = some (1 + byteLength t.text)
      ↔ t.IsScannable [] := by
  rw [closingBrace?_braces_iff]
  constructor
  · intro hcode
    cases t with
    | regex body flags => exact ⟨hcode, fun _ => by simp [OpensNoComment]⟩
    | lineComment inside stop =>
        obtain ⟨hinside, hstop⟩ := hvalid
        have hfeed : '\n' ∈ inside ++ stop.toList := mem_of_code_slashes hcode
        have hstop' : '\n' ∈ stop.toList :=
          (List.mem_append.mp hfeed).resolve_left fun hmem => absurd (hinside _ hmem) (by decide)
        exact (by decide : ∀ stop ∈ lineEnds, '\n' ∈ stop.toList → stop = "\n" ∨ stop = "\r\n")
          stop hstop hstop'
    | _ => trivial
  · intro hscannable
    simpa using hvalid.code_append hscannable Code.nil

/-- The expression `a.replace(/"/g, b)`. -/
def replacedQuotes : Tokens :=
  .plain (.name [.char 'a']) <| .plain (.punctuator ".") <|
  .plain (.name ("replace".toList.map .char)) <| .plain (.punctuator "(") <|
  .plain (.regex ['"'] ['g']) <| .plain (.punctuator ",") <| .plain (.blank ' ') <|
  .plain (.name [.char 'b']) <| .plain (.punctuator ")") .nil

theorem unreadTokens_break :
    (replacedQuotes.IsValid ∧ closingBrace? ('{' :: (replacedQuotes.text ++ ['}'])) 0 = none)
      ∧ ((Tokens.plain (.regex ['[', '}', ']'] []) .nil).IsValid
        ∧ closingBrace? "\x7b/[\x7d]/\x7d".toList 0 = some 3)
      ∧ ((Tokens.plain (.regex ['[', '{', ']'] []) .nil).IsValid
        ∧ closingBrace? "\x7b/[\x7b]/\x7d \x7d".toList 0 = some 8)
      ∧ ((Tokens.plain (.lineComment ['a'] "\r") .nil).IsValid
        ∧ closingBrace? "\x7b//a\r\x7d".toList 0 = none) := by
  refine ⟨⟨?_, by decide⟩, ⟨?_, by decide⟩, ⟨?_, by decide⟩, ⟨?_, by decide⟩⟩ <;>
    simp +decide [replacedQuotes, Tokens.IsValid, PlainToken.IsValid, NamePart.IsValid]

end SvelteStories
