/-
The text that a static expression is written with:

* `Skips`: blanks and comments between two places of a text;
* `StringText`, `StringsText`: a string literal and an array literal of string literals, with
  parentheses around them or without, and the text behind them;
* `StringText.unique`: a string literal has one value and ends in one place;
* `startsWith_of_string?`, `startsWith_of_strings?`: a text that is read as a static expression starts
  with such a literal, and its value is the one that is read off.

Nothing is said of the text behind the literal: a reader of one expression does not look at it.
-/
import SvelteStories.Proofs.Script.Alike
import SvelteStories.Proofs.Script.Escapes
import SvelteStories.Proofs.Script.Gaps
import SvelteStories.Proofs.Script.Moved
import SvelteStories.Proofs.Script.StaticGrammar

namespace SvelteStories.Script

/-! ### Blanks and comments -/

/-- No line goes on at the beginning of a text. -/
def EndsLine (t : List Char) : Prop :=
  ∀ c ∈ t.head?, isLineBreak c = true

/-- From one place of a text to another one behind it there are blanks and comments only. `newline`
tells that nothing but them stands before the first place on its line. -/
inductive Skips : (newline : Bool) → List Char → List Char → Prop
  /-- There is nothing. -/
  | refl {newline : Bool} {t : List Char} : Skips newline t t
  /-- A blank. -/
  | blank {newline : Bool} {c : Char} {t t' : List Char} : isScriptBlank c = true →
      Skips (newline || isLineBreak c) t t' → Skips newline (c :: t) t'
  /-- A comment up to the end of its line. -/
  | line {newline : Bool} {inside t t' : List Char} : (∀ c ∈ inside, isLineBreak c = false) →
      EndsLine t → Skips newline t t' → Skips newline ('/' :: '/' :: (inside ++ t)) t'
  /-- A comment up to its own end. -/
  | block {newline : Bool} {inside t t' : List Char} : ¬ ['*', '/'] <:+: inside →
      Skips (newline || inside.any isLineBreak) t t' →
      Skips newline ('/' :: '*' :: (inside ++ '*' :: '/' :: t)) t'
  /-- A comment in the form of markup, up to the end of its line. -/
  | opening {newline : Bool} {inside t t' : List Char} : (∀ c ∈ inside, isLineBreak c = false) →
      EndsLine t → Skips newline t t' → Skips newline ('<' :: '!' :: '-' :: '-' :: (inside ++ t)) t'
  /-- The end of such a comment at the beginning of a line, with what stands behind it there. -/
  | closing {inside t t' : List Char} : (∀ c ∈ inside, isLineBreak c = false) →
      EndsLine t → Skips true t t' → Skips true ('-' :: '-' :: '>' :: (inside ++ t)) t'

/-- A text is split where its first line ends. -/
lemma line_cases (t : List Char) :
    ∃ inside rest, t.takeWhile (fun c => !isLineBreak c) = inside ∧ t.drop inside.length = rest
      ∧ t = inside ++ rest ∧ (∀ c ∈ inside, isLineBreak c = false) ∧ EndsLine rest := by
  have hdrop : t.drop (t.takeWhile fun c => !isLineBreak c).length
      = t.dropWhile fun c => !isLineBreak c :=
    List.append_cancel_left ((List.prefix_iff_eq_append.mp (List.takeWhile_prefix _)).trans
      List.takeWhile_append_dropWhile.symm)
  refine ⟨_, _, rfl, rfl, (List.prefix_iff_eq_append.mp (List.takeWhile_prefix _)).symm,
    fun c hc => by simpa using List.all_eq_true.mp List.all_takeWhile c hc, fun c hc => ?_⟩
  have hstop := List.head?_dropWhile_not (fun c => !isLineBreak c) t
  rw [← hdrop, Option.mem_def.mp hc] at hstop
  simpa using hstop

/-- A block comment that is found ends where it is closed for the first time. -/
lemma eq_of_blockComment? {t inside rest : List Char} (h : blockComment? t = some (inside, rest)) :
    t = inside ++ '*' :: '/' :: rest ∧ ¬ ['*', '/'] <:+: inside := by
  induction t generalizing inside with
  | nil => cases h
  | cons c t ih =>
      rw [blockComment?.eq_def] at h
      split at h
      · cases ‹c :: t = []›
      · rename_i rest' heq
        cases heq
        cases h
        exact ⟨rfl, by simp⟩
      · rename_i c' t' hopen heq
        cases heq
        obtain ⟨⟨inside', rest'⟩, hfound, heq⟩ := Option.map_eq_some_iff.mp h
        cases heq
        obtain ⟨rfl, hinside⟩ := ih hfound
        refine ⟨rfl, fun hin => ?_⟩
        obtain hprefix | hin := List.infix_cons_iff.mp hin
        · obtain ⟨rfl, htail⟩ : '*' = c ∧ ['/'] <+: inside' := by simpa using hprefix
          obtain ⟨more, rfl⟩ := htail
          exact hopen _ rfl rfl
        · exact hinside hin

/-- A run of blanks. -/
lemma Skips.blanks {newline : Bool} {w t t' : List Char} (hw : ∀ c ∈ w, isScriptBlank c = true)
    (h : Skips (newline || w.any isLineBreak) t t') : Skips newline (w ++ t) t' := by
  induction w generalizing newline with
  | nil => simpa using h
  | cons c w ih =>
      obtain ⟨hc, hw⟩ := List.forall_mem_cons.mp hw
      exact .blank hc (ih hw (by simpa [Bool.or_assoc] using h))

/-- What stands between two tokens is blanks and comments, if nothing is wrong in it. -/
lemma skips_skipGap {before : Trailing} {fuel offset : Nat} {newline : Bool} {t : List Char}
    (h : (skipGap false before fuel newline offset t).faults = []) :
    Skips newline t (skipGap false before fuel newline offset t).rest := by
  induction fuel generalizing newline offset t with
  | zero => exact .refl
  | succ fuel ih =>
      rw [skipGap.eq_def] at h ⊢
      dsimp only at h ⊢
      split at h
      · -- a comment up to the end of its line
        rename_i t
        obtain ⟨inside, rest, hinside, hrest, rfl, hplain, hends⟩ := line_cases t
        rw [hinside, hrest] at h ⊢
        split_ifs at h ⊢
        · exact .line hplain hends (ih h)
        · exact .line hplain hends (ih h)
      · -- a comment up to its own end
        rename_i t
        split at h
        · cases h
        · rename_i inside rest hfound
          obtain ⟨rfl, hinside⟩ := eq_of_blockComment? hfound
          split_ifs at h ⊢
          · exact .block hinside (ih h)
          · exact .block hinside (ih h)
      · -- a comment in the form of markup
        rename_i t
        obtain ⟨inside, rest, hinside, hrest, rfl, hplain, hends⟩ := line_cases t
        rw [if_neg Bool.false_ne_true, hinside, hrest] at h ⊢
        exact .opening hplain hends (ih h)
      · rename_i c behind _ _ _
        rw [if_neg Bool.false_ne_true] at h ⊢
        split_ifs at h ⊢ with hblank hclosing
        · have hskips := Skips.blanks
            (fun d hd => List.all_eq_true.mp (List.all_takeWhile (l := c :: behind)) d hd) (ih h)
          rwa [splitBlanks, List.takeWhile_append_dropWhile] at hskips
        · obtain ⟨rfl, hopen⟩ : newline = true ∧ ['-', '-', '>'] <+: c :: behind := by
            simpa using hclosing
          obtain ⟨t, ht⟩ := hopen
          obtain ⟨rfl, rfl⟩ : '-' = c ∧ '-' :: '>' :: t = behind := by simpa using ht
          obtain ⟨inside, rest, hinside, hrest, rfl, hplain, hends⟩ := line_cases t
          rw [List.drop_succ_cons, List.drop_succ_cons, List.drop_zero, hinside, hrest] at h ⊢
          exact .closing hplain hends (ih h)
        · exact .refl
      · exact .refl

/-! ### Where gaps end -/

/-- No gap goes on at the beginning of a text. -/
def EndsGap (t : List Char) : Prop :=
  ∀ c ∈ t.head?, StartsToken c

section

variable {newline : Bool} {t t' u u' inside inside' : List Char} {c : Char}

lemma EndsLine.eq_of_append (hinside : ∀ c ∈ inside, isLineBreak c = false) (ht : EndsLine t)
    (hinside' : ∀ c ∈ inside', isLineBreak c = false) (ht' : EndsLine t')
    (h : inside ++ t = inside' ++ t') : t = t' := by
  have htake : ∀ {inside t : List Char}, (∀ c ∈ inside, isLineBreak c = false) → EndsLine t →
      (inside ++ t).dropWhile (fun c => !isLineBreak c) = t := by
    intro inside t hinside ht
    rw [List.dropWhile_append_of_pos fun c hc => by simp [hinside c hc]]
    cases t with
    | nil => rfl
    | cons c t => exact List.dropWhile_cons_of_neg (by simp [ht c (by simp)])
  exact (htake hinside ht).symm.trans (h ▸ htake hinside' ht')

lemma endsGap_cons_iff {s : List Char} : EndsGap (c :: s) ↔ StartsToken c := by
  simp [EndsGap]

lemma Skips.eq_self (h : Skips newline t u) (ht : EndsGap t) : u = t := by
  cases h with
  | refl => rfl
  | blank hc => simp [(endsGap_cons_iff.mp ht).1] at hc
  | line => exact absurd rfl (endsGap_cons_iff.mp ht).2.1
  | block => exact absurd rfl (endsGap_cons_iff.mp ht).2.1
  | opening => exact absurd rfl (endsGap_cons_iff.mp ht).2.2.1
  | closing => exact absurd rfl (endsGap_cons_iff.mp ht).2.2.2

/-- A gap ends in one place. -/
lemma Skips.unique (h : Skips newline t u) (h' : Skips newline t u') (hu : EndsGap u)
    (hu' : EndsGap u') : u = u' := by
  have hslash : ¬ StartsToken '/' := fun h => h.2.1 rfl
  have hangle : ¬ StartsToken '<' := fun h => h.2.2.1 rfl
  have hdash : ¬ StartsToken '-' := fun h => h.2.2.2 rfl
  induction h with
  | refl => exact (h'.eq_self hu).symm
  | blank hc _ ih =>
      cases h' with
      | refl => exact absurd hc (by simp [(endsGap_cons_iff.mp hu').1])
      | blank _ h' => exact ih h' hu
      | line => exact absurd hc (by decide)
      | block => exact absurd hc (by decide)
      | opening => exact absurd hc (by decide)
      | closing => exact absurd hc (by decide)
  | @line newline inside t u hinside hends _ ih =>
      generalize hs : '/' :: '/' :: (inside ++ t) = s at h'
      cases h' with
      | refl => exact absurd (endsGap_cons_iff.mp (hs ▸ hu')) hslash
      | blank hc _ =>
          obtain rfl := (List.cons.inj hs).1
          exact absurd hc (by decide)
      | line hinside' hends' h' =>
          have heq := hends.eq_of_append hinside hinside' hends' (by simpa using hs)
          exact ih (heq ▸ h') hu
      | block => simp at hs
      | opening => simp at hs
      | closing => simp at hs
  | @block newline inside t u hinside _ ih =>
      generalize hs : '/' :: '*' :: (inside ++ '*' :: '/' :: t) = s at h'
      cases h' with
      | refl => exact absurd (endsGap_cons_iff.mp (hs ▸ hu')) hslash
      | blank hc _ =>
          obtain rfl := (List.cons.inj hs).1
          exact absurd hc (by decide)
      | block hinside' h' =>
          have hcomment := blockComment?_append hinside t
          rw [(List.cons.inj (List.cons.inj hs).2).2, blockComment?_append hinside'] at hcomment
          obtain ⟨rfl, rfl⟩ := Prod.mk.inj (Option.some.inj hcomment)
          exact ih h' hu
      | line => simp at hs
      | opening => simp at hs
      | closing => simp at hs
  | @opening newline inside t u hinside hends _ ih =>
      generalize hs : '<' :: '!' :: '-' :: '-' :: (inside ++ t) = s at h'
      cases h' with
      | refl => exact absurd (endsGap_cons_iff.mp (hs ▸ hu')) hangle
      | blank hc _ =>
          obtain rfl := (List.cons.inj hs).1
          exact absurd hc (by decide)
      | opening hinside' hends' h' =>
          have heq := hends.eq_of_append hinside hinside' hends' (by simpa using hs)
          exact ih (heq ▸ h') hu
      | block => simp at hs
      | line => simp at hs
      | closing => simp at hs
  | @closing inside t u hinside hends _ ih =>
      generalize hs : '-' :: '-' :: '>' :: (inside ++ t) = s at h'
      cases h' with
      | refl => exact absurd (endsGap_cons_iff.mp (hs ▸ hu')) hdash
      | blank hc _ =>
          obtain rfl := (List.cons.inj hs).1
          exact absurd hc (by decide)
      | closing hinside' hends' h' =>
          have heq := hends.eq_of_append hinside hinside' hends' (by simpa using hs)
          exact ih (heq ▸ h') hu
      | block => simp at hs
      | line => simp at hs
      | opening => simp at hs

end

/-! ### Tokens by their kind -/

/-- A token is no punctuation and no string. -/
def Token.IsPlain : Token → Prop
  | .punctuator _ | .string _ _ => False
  | _ => True

section

variable {mode : LexMode} {s : Strictness} {t rest : List Char} {p v raw : String}

lemma isPlain_endNumber (t : List Char) (value : Binary64) (rest : List Char)
    (faults : List SyntaxFault) : (endNumber t value rest faults).token.IsPlain := by
  rw [endNumber]
  split <;> exact trivial

lemma isPlain_readRadix (base : Nat) (kind : String) (t : List Char) :
    (readRadix base kind t).token.IsPlain := by
  rw [readRadix]
  split
  · exact trivial
  · split
    · exact trivial
    · exact isPlain_endNumber ..

lemma isPlain_readExponent (t whole fraction rest : List Char) (faults : List SyntaxFault) :
    (readExponent t whole fraction rest faults).token.IsPlain := by
  rw [readExponent.eq_def]
  extract_lets finish
  have hfinish : ∀ negative digits, (finish negative digits).token.IsPlain := by
    intro negative digits
    dsimp only [finish]
    split
    · exact trivial
    · exact isPlain_endNumber ..
  split
  · split
    · split
      · exact trivial
      · exact hfinish ..
      · exact hfinish ..
      · exact hfinish ..
    · exact isPlain_endNumber ..
  · exact isPlain_endNumber ..

lemma isPlain_readFraction (t whole rest : List Char) (faults : List SyntaxFault) :
    (readFraction t whole rest faults).token.IsPlain := by
  rw [readFraction.eq_def]
  split <;> exact isPlain_readExponent ..

lemma isPlain_readDecimal (s : Strictness) (t : List Char) : (readDecimal s t).token.IsPlain := by
  rw [readDecimal]
  dsimp only
  split
  · split
    · split <;> exact isPlain_endNumber ..
    · exact isPlain_readFraction ..
  · split
    · split
      · exact isPlain_readFraction ..
      · exact trivial
    · exact isPlain_readFraction ..

lemma isPlain_readNumber (s : Strictness) (t : List Char) : (readNumber s t).token.IsPlain := by
  rw [readNumber.eq_def]
  split
  · split
    · exact isPlain_readRadix ..
    · split
      · exact isPlain_readRadix ..
      · split
        · exact isPlain_readRadix ..
        · exact isPlain_readDecimal ..
  · exact isPlain_readDecimal ..

lemma isPlain_readWord (reserved : String → Bool) (t : List Char) :
    (readWord reserved t).token.IsPlain := by
  rw [readWord]
  split
  · exact trivial
  · split <;> exact trivial

lemma isPlain_of_readNumber {token : Token} {faults : List SyntaxFault}
    (h : readNumber s t = ⟨token, rest, faults⟩) : token.IsPlain := by
  have hplain := isPlain_readNumber s t
  rwa [h] at hplain

lemma isPlain_of_readWord {reserved : String → Bool} {token : Token} {faults : List SyntaxFault}
    (h : readWord reserved t = ⟨token, rest, faults⟩) : token.IsPlain := by
  have hplain := isPlain_readWord reserved t
  rwa [h] at hplain

lemma readStringFrom_ne_punctuator {quote : Char} {whole : List Char} {fuel offset : Nat}
    {value : List Char} {faults faults' : List SyntaxFault} :
    readStringFrom s quote whole fuel offset value faults t ≠ ⟨.punctuator p, rest, faults'⟩ := by
  induction fuel generalizing offset value faults t with
  | zero => simp [readStringFrom, Scanned.failed]
  | succ fuel ih =>
      rw [readStringFrom.eq_def]
      dsimp only
      split
      · simp
      · split
        · simp [Scanned.failed]
        · exact ih
      · split_ifs
        · simp
        · simp
        · exact ih

lemma readPunctuator_ne_string {faults : List SyntaxFault} :
    readPunctuator t ≠ ⟨.string v raw, rest, faults⟩ := by
  rw [readPunctuator.eq_def]
  split
  · split <;> simp
  · simp
  · split <;> simp [Scanned.failed]

/-- Punctuation is what the text starts with. -/
lemma eq_of_readPunctuator {faults : List SyntaxFault}
    (h : readPunctuator t = ⟨.punctuator p, rest, faults⟩) : t = p.toList ++ rest := by
  have hdrop : ∀ {q : String}, punctuators.find? (fun p => p.toList.isPrefixOf t) = some q →
      t = q.toList ++ t.drop q.length := by
    intro q hq
    have hprefix : q.toList <+: t := by simpa using List.find?_some hq
    rw [← String.length_toList]
    exact (List.prefix_iff_eq_append.mp hprefix).symm
  rw [readPunctuator.eq_def] at h
  split at h
  · rename_i hfound
    have htext := hdrop hfound
    split at h
    · cases h
      exact htext.trans (by rw [htext]; rfl)
    · cases h
      exact htext
  · rename_i q hq hfound
    cases h
    exact hdrop hfound
  · split at h <;> cases h

/-- A token that is punctuation is what the text starts with. -/
lemma eq_of_readToken_punctuator (h : readToken mode t = ⟨.punctuator p, rest, []⟩) :
    t = p.toList ++ rest := by
  rw [readToken.eq_def] at h
  split at h
  · cases h
  · split_ifs at h
    · exact absurd h readStringFrom_ne_punctuator
    · exact False.elim (isPlain_of_readNumber h)
    · exact False.elim (isPlain_of_readWord h)
    · cases h
    · exact eq_of_readPunctuator h

/-- A string token is a string literal that the text starts with. -/
lemma denotes_of_readToken (h : readToken mode t = ⟨.string v raw, rest, []⟩) :
    ∃ quote t' value, t = quote :: t' ∧ (quote = '"' ∨ quote = '\'') ∧ Denotes quote t' value rest
      ∧ v = String.ofList value := by
  rw [readToken.eq_def] at h
  split at h
  · cases h
  · rename_i c t'
    split_ifs at h with hquote
    · obtain ⟨value, hdenotes, hv⟩ := denotes_readString h
      exact ⟨c, t', value, rfl, by simpa using hquote, hdenotes, hv⟩
    · exact False.elim (isPlain_of_readNumber h)
    · exact False.elim (isPlain_of_readWord h)
    · cases h
    · exact absurd h readPunctuator_ne_string

end

/-! ### Tokens in a text -/

/-- A token stands behind blanks and comments at the beginning of a text. -/
structure Lexeme.StandsIn (mode : LexMode) (newline : Bool) (t : List Char) (l : Lexeme) : Prop where
  /-- What stands before it. -/
  skips : Skips newline t l.here
  /-- How it is read, unless it is a fault. -/
  read : (∀ f, l.token ≠ .fault f) → readToken mode l.here = ⟨l.token, l.after, []⟩

section

variable {mode : LexMode} {newline : Bool} {t : List Char} {l l' : Lexeme}

lemma Token.place_of_ne_fault {token : Token} {offset : Nat}
    (h : ∀ f, token.place offset ≠ .fault f) : token.place offset = token := by
  cases token with
  | fault f => exact absurd rfl (h _)
  | _ => rfl

lemma standsIn_lexeme (hmode : mode.isModule = false) {before : Trailing} {offset : Nat}
    (h : (lexeme mode before newline offset t).faults = []) :
    (lexeme mode before newline offset t).StandsIn mode newline t := by
  have hgap : (skipGap false before (t.length + 1) newline offset t).faults = [] := by
    rw [lexeme, hmode] at h
    exact (List.append_eq_nil_iff.mp h).1
  have hread : (readToken mode (skipGap false before (t.length + 1) newline offset t).rest).faults
      = [] := by
    rw [lexeme, hmode] at h
    exact List.map_eq_nil_iff.mp (List.append_eq_nil_iff.mp h).2
  have hskips := skips_skipGap hgap
  rw [lexeme, hmode]
  refine ⟨hskips, fun hfault => ?_⟩
  dsimp only at hfault ⊢
  rw [Token.place_of_ne_fault hfault, ← hread]

lemma Lexeme.IsFollowedBy.standsIn (hmode : mode.isModule = false) (h : l.IsFollowedBy mode l') :
    l'.StandsIn mode false l.after := by
  obtain ⟨rfl, hfaults⟩ := h
  exact standsIn_lexeme hmode hfaults

end

/-! ### Literals -/

/-- A closing parenthesis, which a comma may stand before, and the text behind it. -/
inductive ClosesParen : List Char → List Char → Prop
  /-- There is no comma. -/
  | plain {t rest : List Char} : Skips false t (')' :: rest) → ClosesParen t rest
  /-- There is one. -/
  | comma {t t' rest : List Char} : Skips false t (',' :: t') → Skips false t' (')' :: rest) →
      ClosesParen t rest

/-- A string literal, in parentheses or not, with its value and the text behind it. -/
inductive StringText : String → List Char → List Char → Prop
  /-- The literal itself. -/
  | literal {quote : Char} {t value rest : List Char} : quote = '"' ∨ quote = '\'' →
      Denotes quote t value rest → StringText (String.ofList value) (quote :: t) rest
  /-- Parentheses around it. -/
  | paren {value : String} {t inner behind rest : List Char} : Skips false t inner →
      StringText value inner behind → ClosesParen behind rest → StringText value ('(' :: t) rest

/-- The elements of an array literal up to its closing bracket, with their values and the text behind
the bracket. -/
inductive ElementsText : List String → List Char → List Char → Prop
  /-- There are none. -/
  | nil {rest : List Char} : ElementsText [] (']' :: rest) rest
  /-- The last one. -/
  | last {value : String} {t behind rest : List Char} : StringText value t behind →
      Skips false behind (']' :: rest) → ElementsText [value] t rest
  /-- One with a comma behind it. -/
  | cons {value : String} {values : List String} {t behind t₁ t₂ rest : List Char} :
      StringText value t behind → Skips false behind (',' :: t₁) → Skips false t₁ t₂ →
      ElementsText values t₂ rest → ElementsText (value :: values) t rest

/-- An array literal of string literals, in parentheses or not, with its values and the text behind
it. -/
inductive StringsText : List String → List Char → List Char → Prop
  /-- The literal itself. -/
  | literal {values : List String} {t inside rest : List Char} : Skips false t inside →
      ElementsText values inside rest → StringsText values ('[' :: t) rest
  /-- Parentheses around it. -/
  | paren {values : List String} {t inner behind rest : List Char} : Skips false t inner →
      StringsText values inner behind → ClosesParen behind rest → StringsText values ('(' :: t) rest

/-! ### At most one value -/

section

variable {t : List Char}

lemma startsToken_of_mem {c : Char} (hc : c ∈ ['"', '\'', '(', ')', '[', ']', ',']) :
    StartsToken c := by
  have hall : ∀ d ∈ ['"', '\'', '(', ')', '[', ']', ','], isScriptBlank d = false ∧ d ≠ '/' ∧ d ≠ '<'
      ∧ d ≠ '-' := by decide
  exact hall c hc

lemma endsGap_mark {s : List Char} (hc : c ∈ ['"', '\'', '(', ')', '[', ']', ',']) :
    EndsGap (c :: s) :=
  endsGap_cons_iff.mpr (startsToken_of_mem hc)

lemma StringText.endsGap {value : String} {rest : List Char} (h : StringText value t rest) :
    EndsGap t := by
  cases h with
  | literal hquote _ => exact endsGap_mark (by obtain rfl | rfl := hquote <;> decide)
  | paren => exact endsGap_mark (by decide)

/-- A closing parenthesis is found in one place. -/
lemma ClosesParen.unique {rest rest' : List Char} (h : ClosesParen t rest) (h' : ClosesParen t rest') :
    rest = rest' := by
  have hclose : ∀ {s : List Char}, EndsGap (')' :: s) := endsGap_mark (by decide)
  have hcomma : ∀ {s : List Char}, EndsGap (',' :: s) := endsGap_mark (by decide)
  cases h with
  | plain h =>
      cases h' with
      | plain h' => exact (List.cons.inj (h.unique h' hclose hclose)).2
      | comma h' _ => exact absurd (h.unique h' hclose hcomma) (by simp)
  | comma h hbehind =>
      cases h' with
      | plain h' => exact absurd (h.unique h' hcomma hclose) (by simp)
      | comma h' hbehind' =>
          obtain rfl := (List.cons.inj (h.unique h' hcomma hcomma)).2
          exact (List.cons.inj (hbehind.unique hbehind' hclose hclose)).2

/-- A string literal has one value and ends in one place. -/
theorem StringText.unique {value value' : String} {rest rest' : List Char}
    (h : StringText value t rest) (h' : StringText value' t rest') : value = value' ∧ rest = rest' := by
  induction h generalizing value' rest' with
  | @literal quote _ _ _ hquote hdenotes =>
      have hslash : quote ≠ '\\' := by obtain rfl | rfl := hquote <;> decide
      cases h' with
      | literal _ hdenotes' =>
          exact (hdenotes.unique hslash hdenotes').imp (congrArg String.ofList) id
      | paren => simp at hquote
  | paren hinner htext hclose ih =>
      cases h' with
      | literal hquote' _ => simp at hquote'
      | paren hinner' htext' hclose' =>
          obtain rfl := hinner.unique hinner' htext.endsGap htext'.endsGap
          obtain ⟨rfl, rfl⟩ := ih htext'
          exact ⟨rfl, hclose.unique hclose'⟩

end

/-! ### Literals as tokens and as text -/

section

variable {mode : LexMode} {newline : Bool} {t : List Char} {l l' : Lexeme}

/-- The first character of a token that is punctuation of one character. -/
lemma Lexeme.StandsIn.here_eq (h : l.StandsIn mode newline t) {c : Char}
    (hc : l.token = .punctuator (String.singleton c)) : l.here = c :: l.after := by
  have hread := h.read (by simp [hc])
  rw [hc] at hread
  exact (eq_of_readToken_punctuator hread).trans (by rw [String.toList_singleton]; rfl)

lemma Closes.text (hmode : mode.isModule = false) (h : Closes mode ")" l l')
    (hl : l.StandsIn mode false t) : ∃ rest, ClosesParen t rest ∧ l'.StandsIn mode false rest := by
  cases h with
  | plain hclose hnext =>
      exact ⟨l.after, .plain (hl.here_eq (c := ')') hclose ▸ hl.skips), hnext.standsIn hmode⟩
  | comma hcomma hnext₁ hclose hnext =>
      have hl₁ := hnext₁.standsIn hmode
      exact ⟨_, .comma (hl.here_eq (c := ',') hcomma ▸ hl.skips)
        (hl₁.here_eq (c := ')') hclose ▸ hl₁.skips), hnext.standsIn hmode⟩

/-- The tokens of a string literal are its text. -/
lemma SpellsString.text (hmode : mode.isModule = false) {value : String}
    (h : SpellsString mode value l l') (hl : l.StandsIn mode newline t) :
    ∃ rest, StringText value l.here rest ∧ l'.StandsIn mode false rest := by
  induction h generalizing newline t with
  | literal htoken hnext =>
      have hread := hl.read (by simp [htoken])
      rw [htoken] at hread
      obtain ⟨quote, t', v, hhere, hquote, hdenotes, rfl⟩ := denotes_of_readToken hread
      exact ⟨_, hhere ▸ .literal hquote hdenotes, hnext.standsIn hmode⟩
  | paren hopen hnext _ hclose ih =>
      have hl₁ := hnext.standsIn hmode
      obtain ⟨behind, hinner, hl₂⟩ := ih hl₁
      obtain ⟨rest, hclosed, hl'⟩ := hclose.text hmode hl₂
      exact ⟨rest, hl.here_eq (c := '(') hopen ▸ .paren hl₁.skips hinner hclosed, hl'⟩

/-- The tokens of the elements of an array literal are their text. -/
lemma SpellsElements.text (hmode : mode.isModule = false) {values : List String}
    (h : SpellsElements mode values l l') (hl : l.StandsIn mode newline t) :
    ElementsText values l.here l'.after := by
  induction h generalizing newline t with
  | nil hclose => exact hl.here_eq (c := ']') hclose ▸ .nil
  | last hfirst hclose =>
      obtain ⟨behind, htext, hl'⟩ := hfirst.text hmode hl
      exact .last htext (hl'.here_eq (c := ']') hclose ▸ hl'.skips)
  | cons hfirst hcomma hnext _ ih =>
      obtain ⟨behind, htext, hl₁⟩ := hfirst.text hmode hl
      have hl₂ := hnext.standsIn hmode
      exact .cons htext (hl₁.here_eq (c := ',') hcomma ▸ hl₁.skips) hl₂.skips (ih hl₂)

/-- The tokens of an array literal of string literals are its text. -/
lemma SpellsStrings.text (hmode : mode.isModule = false) {values : List String}
    (h : SpellsStrings mode values l l') (hl : l.StandsIn mode newline t) :
    ∃ rest, StringsText values l.here rest ∧ l'.StandsIn mode false rest := by
  induction h generalizing newline t with
  | literal hopen hnext hinside hnext' =>
      have hl₁ := hnext.standsIn hmode
      exact ⟨_, hl.here_eq (c := '[') hopen ▸ .literal hl₁.skips (hinside.text hmode hl₁),
        hnext'.standsIn hmode⟩
  | paren hopen hnext _ hclose ih =>
      have hl₁ := hnext.standsIn hmode
      obtain ⟨behind, hinner, hl₂⟩ := ih hl₁
      obtain ⟨rest, hclosed, hl'⟩ := hclose.text hmode hl₂
      exact ⟨rest, hl.here_eq (c := '(') hopen ▸ .paren hl₁.skips hinner hclosed, hl'⟩

end

/-! ### Expressions -/

/-- Behind blanks and comments, a text starts with what is spelled, and the rest stands behind it. -/
def StartsWith (spelled : List Char → List Char → Prop) (t rest : List Char) : Prop :=
  ∃ literal, Skips true t literal ∧ spelled literal rest

section

variable {dialect : Dialect} {offset depth : Nat} {t rest rest' : List Char} {e : Expr}

/-- A text starts with one string literal at most. -/
theorem startsWith_string_unique {value value' : String} (h : StartsWith (StringText value) t rest)
    (h' : StartsWith (StringText value') t rest') : value = value' ∧ rest = rest' := by
  obtain ⟨literal, hgap, htext⟩ := h
  obtain ⟨literal', hgap', htext'⟩ := h'
  obtain rfl := hgap.unique hgap' htext.endsGap htext'.endsGap
  exact htext.unique htext'

/-- An expression that is read as a static one stands where its first token does. -/
lemma exists_spells_of_run (hdialect : dialect.isModule = false)
    (hrun : (grammar depth).expression.run dialect offset t = .ok e) (hstatic : e.IsStatic) :
    ∃ mode l l', mode.isModule = false ∧ l.StandsIn mode true t ∧ SpellsStatic mode l e l' := by
  obtain ⟨hfaults, l', hspells⟩ := spells_of_run hrun hstatic
  exact ⟨_, _, l', hdialect, standsIn_lexeme hdialect hfaults, hspells⟩

/-- What an expression is read from, if it is read as one that has a place of its own. -/
lemma run_of_parseExpression (h : parseExpression dialect offset t = .ok e) :
    ∃ e', (grammar (depthFor t)).expression.run dialect 0 t = .ok e' ∧ e.string? = e'.string?
      ∧ e.strings? = e'.strings? := by
  rw [parseExpression] at h
  cases hrun : (grammar (depthFor t)).expression.run dialect 0 t with
  | error f => simp [hrun, Except.map, Except.mapError] at h
  | ok e' =>
      obtain rfl : e'.movedBy offset = e := by
        simpa [hrun, Except.map, Except.mapError] using h
      refine ⟨e', rfl, ?_, ?_⟩
      · rw [← Expr.string?_unplaced, Expr.unplaced_movedBy, Expr.string?_unplaced]
      · rw [← Expr.strings?_unplaced, Expr.unplaced_movedBy, Expr.strings?_unplaced]

/-- A text that is read as a string starts with a literal of this string. -/
theorem startsWith_of_string? (hdialect : dialect.isModule = false) {value : String}
    (h : parseExpression dialect offset t = .ok e) (hvalue : e.string? = some value) :
    ∃ rest, StartsWith (StringText value) t rest := by
  obtain ⟨e', hrun, hstring, -⟩ := run_of_parseExpression h
  have hvalue' : e'.string? = some value := hstring ▸ hvalue
  obtain ⟨mode, l, l', hmode, hl, hspells⟩ := exists_spells_of_run hdialect hrun
    (isStatic_of_string? hvalue')
  obtain ⟨rest, htext, -⟩ := (hspells.string value hvalue').text hmode hl
  exact ⟨rest, l.here, hl.skips, htext⟩

/-- A text that is read as an array of strings starts with a literal of these strings. -/
theorem startsWith_of_strings? (hdialect : dialect.isModule = false) {values : List String}
    (h : parseExpression dialect offset t = .ok e) (hvalues : e.strings? = some values) :
    ∃ rest, StartsWith (StringsText values) t rest := by
  obtain ⟨e', hrun, -, hstrings⟩ := run_of_parseExpression h
  have hvalues' : e'.strings? = some values := hstrings ▸ hvalues
  obtain ⟨mode, l, l', hmode, hl, hspells⟩ := exists_spells_of_run hdialect hrun
    (Or.inr (by rw [hvalues']; rfl))
  obtain ⟨rest, htext, -⟩ := (hspells.strings values hvalues').text hmode hl
  exact ⟨rest, l.here, hl.skips, htext⟩

end

end SvelteStories.Script
