/-
Static expressions are read where their tokens stand:

* `isFaithful_readPrimary`, `isFaithful_readCallee`, `isFaithful_readOperand`: values with what stands
  behind them;
* `isFaithful_readBinary`, `isFaithful_readConditional`, `isFaithful_readAssignment`: operators;
* `isFaithful_grammar`: the whole grammar, however deep forms are nested;
* `spells_of_run`: a static expression at the beginning of a text.

Nothing else can be read as a static expression: what stands behind one either makes it dynamic or is
not read at all.
-/
import SvelteStories.Proofs.Script.StaticForms

namespace SvelteStories.Script

section

variable {g : Grammar} {start : Nat} {c : Context} {k k' : Cursor}

/-! ### Operands -/

lemma isDynamic_object : (do return .object (← readObject g) : Parser Expr).IsDynamic :=
  isDynamic_bind fun _ => isDynamic_pure trivial

lemma isDynamic_privateName : (do
    let name ← takePrivateName
    return .compound (← spanFrom start) .privateName [.text name] : Parser Expr).IsDynamic :=
  isDynamic_bind fun _ => isDynamic_spanFrom fun _ => trivial

/-- Strings, arrays of them and parentheses are the only static expressions that stand on their own. -/
lemma isFaithful_readPrimary (hg : g.IsFaithful) : (readPrimary g).IsFaithful := by
  intro c k e k' hquiet hgives hstatic hfaults
  obtain ⟨l, _, hl, hgives⟩ := exists_gives_of_bind hgives
  cases hl
  obtain ⟨_, _, hc, hgives⟩ := exists_gives_of_bind hgives
  cases hc
  have hliteral : ∀ value : Literal, (do
      skip
      return .literal k.current.span value : Parser Expr).Passes Expr.IsStatic fun mode l e l' =>
        e = .literal k.current.span value ∧ l.IsFollowedBy mode l' := by
    intro value
    refine passes_skip.bind (fun _ _ l e l' => e = .literal k.current.span value ∧ l' = l)
      (fun _ => passes_pure fun _ _ _ => ⟨rfl, rfl⟩) ?_
    rintro mode l u l₁ e l' - ⟨rfl, rfl⟩
    exact ⟨trivial, fun hnext => ⟨rfl, hnext⟩⟩
  dsimp only at hgives
  split at hgives
  · rename_i value raw htoken
    obtain ⟨hfaults₀, rfl, hnext⟩ := hliteral _ hquiet hgives hstatic hfaults
    refine ⟨hfaults₀, ⟨fun value' hvalue => ?_, fun values hvalues => by
      simp [Expr.strings?] at hvalues⟩⟩
    cases hvalue
    exact .literal htoken hnext
  · obtain ⟨-, rfl, -⟩ := hliteral _ hquiet hgives hstatic hfaults
    exact absurd hstatic (Expr.HasDynamicForm.not_isStatic trivial)
  · obtain ⟨-, rfl, -⟩ := hliteral _ hquiet hgives hstatic hfaults
    exact absurd hstatic (Expr.HasDynamicForm.not_isStatic trivial)
  · exact (never_readWordExpression hg.binaryRest ..).passes hquiet hgives hstatic hfaults
  · exact isFaithful_readParentheses hg _ hquiet hgives hstatic hfaults
  · exact isFaithful_readArray hg hquiet hgives hstatic hfaults
  · exact absurd hstatic (isDynamic_object hgives)
  · exact absurd hstatic ((isDynamic_readTemplate false).inContext _ hgives)
  · exact absurd hstatic (isDynamic_readRegexLiteral hgives)
  · exact absurd hstatic (isDynamic_readRegexLiteral hgives)
  · exact absurd hstatic (isDynamic_privateName hgives)
  · exact absurd hgives (not_gives_failHere _)

/-- What stands behind a value makes something dynamic of it. -/
lemma isFaithful_readCallee (hg : g.IsFaithful) : (readCallee g).IsFaithful := by
  refine stays_tokenHere.bind fun token => ?_
  split
  · exact never_readNew.passes
  · exact (never_readSuper _).passes
  · exact (never_readImportExpression _).passes
  · refine stays_offsetHere.bind fun start => ?_
    refine (isFaithful_readPrimary hg).bind_keeps fun value => ?_
    split
    · exact keeps_pure rfl
    · exact Parser.Passes.bind_keeps (keeps_withTypes value) (fun e => keeps_readChain false true e)

/-- Type arguments are only those of a call if its arguments follow. -/
lemma gives_callTypes? {types : Option (List Piece)} (hgives : (callTypes? g).Gives c k types k') :
    (types = none ∧ k' = k) ∨ k'.current.token = .punctuator "(" := by
  obtain ⟨typed, _, htyped, hgives⟩ := exists_gives_of_bind hgives
  obtain ⟨isOpen, _, hopen, hgives⟩ := exists_gives_of_bind hgives
  cases htyped
  cases hopen
  split at hgives
  · obtain ⟨rfl, rfl⟩ | ⟨types, rfl, htried⟩ := gives_attempt_cases hgives
    · exact Or.inl ⟨rfl, rfl⟩
    · obtain ⟨found, k₁, -, htested⟩ := exists_gives_of_bind htried
      obtain ⟨isCall, k₂, hcall, hfound⟩ := exists_gives_of_bind htested
      cases hcall.symm.trans (gives_isAt "(" _ k₁)
      by_cases hopened : k₁.current.token = .punctuator "("
      · rw [decide_eq_true hopened] at hfound
        cases hfound
        exact Or.inr hopened
      · rw [decide_eq_false hopened] at hfound
        cases hfound
  · cases hgives
    exact Or.inl ⟨rfl, rfl⟩

lemma not_isStatic_of_isWordForm {form : Form} {e : Expr} (h : e.isWordForm form = true) :
    ¬ e.IsStatic := by
  cases e with
  | compound span form' pieces => exact Expr.HasDynamicForm.not_isStatic trivial
  | _ => cases h

lemma isFaithful_readOperand (hg : g.IsFaithful) : (readOperand g).IsFaithful := by
  refine stays_tokenHere.bind fun token => ?_
  split
  · exact (never_readSuper _).passes
  · exact (never_readImportExpression _).passes
  · refine stays_offsetHere.bind fun start => ?_
    refine hg.callee.bind_keeps fun callee => ?_
    split
    · exact keeps_pure rfl
    · intro c k e k' hquiet hgives hstatic hfaults
      obtain ⟨types, k₁, htypes, hgives⟩ := exists_gives_of_bind hgives
      split at hgives
      · cases hgives
        exact absurd hstatic (not_isStatic_of_isWordForm ‹_›)
      · obtain ⟨isCall, _, hcall, hgives⟩ := exists_gives_of_bind hgives
        cases hcall
        by_cases hopened : k₁.current.token = .punctuator "("
        · rw [decide_eq_true hopened] at hgives
          have hchain : (do
              let arguments ← readArguments g false
              readChain g start true true (← callOf start false callee (types.getD []) arguments) :
                Parser Expr).Never Expr.IsStatic :=
            never_bind fun _ => Parser.Makes.bind_never (isDynamic_callOf ..) fun call hcall =>
              (keeps_readChain true true call).never hcall
          exact (hchain hquiet hgives hstatic hfaults).2.elim
        · rw [decide_eq_false hopened] at hgives
          cases hgives
          obtain ⟨-, rfl⟩ | hopen := gives_callTypes? htypes
          · exact ⟨hfaults, rfl, rfl⟩
          · exact absurd hopen hopened

lemma isFaithful_readPostfix (hg : g.IsFaithful) : (readPostfix g).IsFaithful := by
  refine hg.operand.bind_keeps fun value => stays_isOnNewLine.bind fun isNew => ?_
  split
  · exact keeps_pure rfl
  · refine stays_tokenHere.bind fun token => ?_
    split
    · split
      · exact Parser.IsDynamic.keeps (isDynamic_bind fun _ => isDynamic_bind fun _ =>
          isDynamic_spanFrom fun _ => trivial)
      · exact keeps_pure rfl
    · exact keeps_pure rfl

lemma isFaithful_readUnary (hg : g.IsFaithful) : (readUnary g).IsFaithful := by
  have hpostfix := isFaithful_readPostfix hg
  refine stays_tokenHere.bind fun token => ?_
  split
  · refine stays_isTyped.bind fun typed => ?_
    split
    · exact (Parser.Makes.never isDynamic_readCast).passes
    · split
      · exact (Parser.Makes.never (isDynamic_readPrefixUpdate _)).passes
      · split
        · exact (Parser.Makes.never (isDynamic_readPrefix _)).passes
        · exact hpostfix
  · split
    · exact (Parser.Makes.never (isDynamic_readPrefix _)).passes
    · split
      · exact (Parser.Makes.never isDynamic_readAwait).passes
      · exact hpostfix
  · exact hpostfix

/-! ### Operators -/

lemma offers_ascription? (left : Expr) : (ascription? g left).Offers (¬ ·.IsStatic) := by
  refine stays_isTyped.offers fun typed => stays_isOnNewLine.offers fun isNew => ?_
  split
  · have hgiven : ∀ annotation pieces pieces', (do
        return some (.annotated (← spanFrom left.span.start) annotation pieces left pieces') :
          Parser (Option Expr)).Makes fun found => ∃ e, found = some e ∧ ¬ e.IsStatic :=
      fun _ _ _ => makes_bind fun _ => makes_pure ⟨_, rfl, Expr.HasDynamicForm.not_isStatic trivial⟩
    refine (passes_eatWord _).offers (makes_bind fun isConstant => ?_) ?_
    · split
      · exact hgiven ..
      · exact makes_bind fun _ => hgiven ..
    · exact (passes_eatWord _).offers (makes_bind fun _ => hgiven ..) offers_none
  · exact offers_none

lemma offers_binaryStep (above : Nat) (left : Expr) :
    (binaryStep g above left).Offers (¬ ·.IsStatic) := by
  refine stays_tokenHere.offers fun token => stays_read.offers fun c => ?_
  split
  · split
    · exact offers_none
    · refine Parser.Makes.offers (makes_bind fun _ => ?_)
      extract_lets operator right
      have hright : ∀ u, (right u).Makes fun found => ∃ e, found = some e ∧ ¬ e.IsStatic := by
        refine fun u => makes_bind fun first => makes_bind fun second => ?_
        extract_lets value given noted
        have hgiven : ∀ u, (given u).Makes fun found => ∃ e, found = some e ∧ ¬ e.IsStatic :=
          fun u => makes_pure ⟨value, rfl, Expr.HasDynamicForm.not_isStatic trivial⟩
        have hnoted : ∀ u, (noted u).Makes fun found => ∃ e, found = some e ∧ ¬ e.IsStatic := by
          intro u
          dsimp only [noted]
          split
          · exact makes_bind hgiven
          · exact hgiven ()
        split
        · exact makes_bind fun _ => hnoted ()
        · exact hnoted ()
      split
      · exact makes_bind hright
      · exact hright ()
  · exact offers_none

lemma keeps_readBinaryRest (above : Nat) (left : Expr) :
    (readBinaryRest g above left).Keeps id left := by
  refine keeps_iterate (fun left => ?_) left
  extract_lets operated
  have hoperated : ∀ u, (operated u).Keeps (Sum.elim id id) left := by
    refine fun u => (offers_binaryStep above left).bind (fun value hvalue => ?_) (keeps_pure rfl)
    exact Parser.Makes.never (makes_pure hvalue)
  split
  · refine (offers_ascription? left).bind (fun value hvalue => ?_) (hoperated ())
    exact Parser.Makes.never (makes_pure hvalue)
  · exact hoperated ()

lemma isFaithful_readBinary (hg : g.IsFaithful) : (readBinary g).IsFaithful := by
  refine Parser.Passes.bind_keeps ?_ fun first => ?_
  · intro c k e k' hquiet hgives hstatic hfaults
    obtain hunary | ⟨f, k₁, hmissing⟩ := gives_tryCatch_cases hgives
    · exact hg.unary hquiet hunary hstatic hfaults
    · exact absurd hstatic (isDynamic_missingOperand f hmissing)
  · split
    · exact keeps_pure rfl
    · exact hg.binaryRest 0 first

lemma isFaithful_readConditional (hg : g.IsFaithful) : (readConditional g).IsFaithful := by
  refine stays_offsetHere.bind fun start => hg.binary.bind_keeps fun test => ?_
  split
  · exact keeps_pure rfl
  · refine (passes_eat _).bind_of_ne (fun isChoice h => ?_) (keeps_pure rfl)
    obtain rfl : isChoice = true := by simpa using h
    exact Parser.Makes.never (isDynamic_choiceBranches _)

lemma isFaithful_readAssignment (hg : g.IsFaithful) : (readAssignment g).IsFaithful := by
  refine offers_typedArrow?.bind (fun arrow harrow => Parser.Makes.never (makes_pure harrow)) ?_
  refine stays_read.bind fun c => (stays_isAtWord _).bind fun isYield => ?_
  split
  · exact (Parser.Makes.never isDynamic_readYield).passes
  · refine stays_requireToken.bind fun _ => stays_refuseOpenRegex.bind fun _ =>
      stays_offsetHere.bind fun start => stays_tokenHere.bind fun token => ?_
    refine Parser.Passes.bind_keeps ((isFaithful_readConditional hg).inContext
      (fun _ => rfl) fun _ => rfl) fun value => ?_
    split
    · exact keeps_pure rfl
    · exact keeps_finishAssignment value

lemma isFaithful_readExpression (hg : g.IsFaithful) : (readExpression g).IsFaithful := by
  refine stays_offsetHere.bind fun start => hg.assignment.bind_keeps fun first => ?_
  refine (stays_isAt _).bind fun isSequence => ?_
  split
  · exact Parser.IsDynamic.keeps (isDynamic_bind fun _ => isDynamic_spanFrom fun _ => trivial)
  · exact keeps_pure rfl

/-! ### The grammar as a whole -/

lemma isFaithful_empty : Grammar.empty.IsFaithful := by
  have hnothing : ∀ {r : Parser Expr}, r = failHere .unexpectedEnd → r.IsFaithful :=
    fun h => h ▸ (fails_failHere _).passes
  exact ⟨hnothing rfl, hnothing rfl, hnothing rfl, hnothing rfl,
    fun _ _ => (fails_failHere .unexpectedEnd).passes, hnothing rfl, hnothing rfl⟩

/-- Whatever the depth, static expressions are only read where they are spelled. -/
lemma isFaithful_grammar (depth : Nat) : (grammar depth).IsFaithful := by
  induction depth with
  | zero => exact isFaithful_empty
  | succ depth ih =>
      exact ⟨isFaithful_readExpression ih, isFaithful_readAssignment ih, isFaithful_readUnary ih,
        isFaithful_readBinary ih, fun above left => keeps_readBinaryRest above left,
        isFaithful_readOperand ih, isFaithful_readCallee ih⟩

/-- A static expression at the beginning of a text is spelled there, from its first token on. -/
theorem spells_of_run {dialect : Dialect} {offset depth : Nat} {t : List Char} {e : Expr}
    (hrun : (grammar depth).expression.run dialect offset t = .ok e) (hstatic : e.IsStatic) :
    let mode := (Context.top dialect (t.length + 2)).lexMode
    let first := lexeme mode ⟨false, false⟩ true offset t
    first.faults = [] ∧ ∃ l, SpellsStatic mode first e l := by
  intro mode first
  rw [Parser.run] at hrun
  split at hrun
  · rename_i e' k' hgives
    split at hrun
    · rename_i hfaults
      cases hrun
      obtain ⟨hfaults₀, hspells⟩ := (isFaithful_grammar depth).expression
        (c := Context.top dialect (t.length + 2)) rfl hgives hstatic hfaults
      exact ⟨hfaults₀, _, hspells⟩
    · cases hrun
  · cases hrun

end

end SvelteStories.Script
