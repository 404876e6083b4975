/-
What a static expression is written with, token by token:

* `SpellsString`, `SpellsStrings`: the tokens of a string literal and of an array literal of strings,
  with parentheses around them or without;
* `Grammar.IsFaithful`: all readers of a grammar pass over these tokens when they give a static
  expression;
* `isFaithful_readArray`, `isFaithful_readParentheses`: so do the readers of arrays and of parentheses,
  if those of what stands in them do.
-/
import SvelteStories.Proofs.Script.Dynamic

namespace SvelteStories.Script

/-! ### Tokens of literals -/

/-- A token follows another one, with nothing wrong in it or between the two. -/
def Lexeme.IsFollowedBy (mode : LexMode) (l l' : Lexeme) : Prop :=
  l' = lexeme mode l.token.trailing false l.span.stop l.after ∧ l'.faults = []

/-- The closing punctuation of a form, which a comma may stand before. -/
inductive Closes (mode : LexMode) (closer : String) : Lexeme → Lexeme → Prop
  /-- There is no comma. -/
  | plain {l l' : Lexeme} : l.token = .punctuator closer → l.IsFollowedBy mode l' → Closes mode closer l l'
  /-- There is one. -/
  | comma {l l₁ l' : Lexeme} : l.token = .punctuator "," → l.IsFollowedBy mode l₁ →
      l₁.token = .punctuator closer → l₁.IsFollowedBy mode l' → Closes mode closer l l'

/-- The tokens of a string literal, in parentheses or not, up to the token behind it. -/
inductive SpellsString (mode : LexMode) : String → Lexeme → Lexeme → Prop
  /-- The literal itself. -/
  | literal {value raw : String} {l l' : Lexeme} : l.token = .string value raw →
      l.IsFollowedBy mode l' → SpellsString mode value l l'
  /-- Parentheses around it. -/
  | paren {value : String} {l l₁ l₂ l' : Lexeme} : l.token = .punctuator "(" →
      l.IsFollowedBy mode l₁ → SpellsString mode value l₁ l₂ → Closes mode ")" l₂ l' →
      SpellsString mode value l l'

/-- The tokens of the elements of an array literal, up to its closing bracket. -/
inductive SpellsElements (mode : LexMode) : List String → Lexeme → Lexeme → Prop
  /-- There are none. -/
  | nil {l : Lexeme} : l.token = .punctuator "]" → SpellsElements mode [] l l
  /-- The last one. -/
  | last {value : String} {l l' : Lexeme} : SpellsString mode value l l' →
      l'.token = .punctuator "]" → SpellsElements mode [value] l l'
  /-- One with a comma behind it. -/
  | cons {value : String} {values : List String} {l l₁ l₂ l' : Lexeme} :
      SpellsString mode value l l₁ → l₁.token = .punctuator "," → l₁.IsFollowedBy mode l₂ →
      SpellsElements mode values l₂ l' → SpellsElements mode (value :: values) l l'

/-- The tokens of an array literal of string literals, in parentheses or not, up to the token behind
it. -/
inductive SpellsStrings (mode : LexMode) : List String → Lexeme → Lexeme → Prop
  /-- The literal itself. -/
  | literal {values : List String} {l l₁ l₂ l' : Lexeme} : l.token = .punctuator "[" →
      l.IsFollowedBy mode l₁ → SpellsElements mode values l₁ l₂ → l₂.IsFollowedBy mode l' →
      SpellsStrings mode values l l'
  /-- Parentheses around it. -/
  | paren {values : List String} {l l₁ l₂ l' : Lexeme} : l.token = .punctuator "(" →
      l.IsFollowedBy mode l₁ → SpellsStrings mode values l₁ l₂ → Closes mode ")" l₂ l' →
      SpellsStrings mode values l l'

/-- The tokens of a static expression. -/
structure SpellsStatic (mode : LexMode) (l : Lexeme) (e : Expr) (l' : Lexeme) : Prop where
  /-- They are those of a string, if the expression is one. -/
  string : ∀ value, e.string? = some value → SpellsString mode value l l'
  /-- They are those of an array of strings, if the expression is one. -/
  strings : ∀ values, e.strings? = some values → SpellsStrings mode values l l'

lemma SpellsStatic.paren {mode : LexMode} {l l₁ l₂ l' : Lexeme} {e : Expr} {span : Span}
    (h : SpellsStatic mode l₁ e l₂) (hopen : l.token = .punctuator "(") (hnext : l.IsFollowedBy mode l₁)
    (hclose : Closes mode ")" l₂ l') : SpellsStatic mode l (.paren span e) l' :=
  ⟨fun value hvalue => .paren hopen hnext (h.string value hvalue) hclose,
    fun values hvalues => .paren hopen hnext (h.strings values hvalues) hclose⟩

/-- A reader passes over the tokens of the static expressions that it gives. -/
def Parser.IsFaithful (r : Parser Expr) : Prop :=
  r.Passes Expr.IsStatic SpellsStatic

/-- All readers of expressions pass over the tokens of the static ones that they give. -/
structure Grammar.IsFaithful (g : Grammar) : Prop where
  /-- Expressions with commas. -/
  expression : g.expression.IsFaithful
  /-- Expressions without commas. -/
  assignment : g.assignment.IsFaithful
  /-- Operands with the operators in front of them. -/
  unary : g.unary.IsFaithful
  /-- Operands with operators between them. -/
  binary : g.binary.IsFaithful
  /-- Operators behind a left operand make something dynamic of it. -/
  binaryRest : ∀ above e, (g.binaryRest above e).Keeps id e
  /-- Values with their members and calls. -/
  operand : g.operand.IsFaithful
  /-- Values with their members. -/
  callee : g.callee.IsFaithful

/-! ### Single tokens -/

lemma passes_skip : skip.Passes (fun _ => True) fun mode l _ l' => l.IsFollowedBy mode l' := by
  intro c k u k' hquiet hgives _ hfaults
  cases hgives.symm.trans (gives_skip c k)
  simp only [Cursor.moved, hquiet, Bool.false_eq_true, if_false, List.append_eq_nil_iff] at hfaults
  exact ⟨hfaults.1, rfl, hfaults.2⟩

lemma passes_expect (p : String) :
    (expect p).Passes (fun _ => True) fun mode l _ l' =>
      l.token = .punctuator p ∧ l.IsFollowedBy mode l' := by
  intro c k u k' hquiet hgives _ hfaults
  obtain ⟨found, k₁, heat, hgives⟩ := exists_gives_of_bind hgives
  by_cases hk : k.current.token = .punctuator p
  · cases heat.symm.trans (gives_eat hk)
    cases hgives
    obtain ⟨hfaults, hnext⟩ := passes_skip hquiet (gives_skip c k) trivial hfaults
    exact ⟨hfaults, hk, hnext⟩
  · cases heat.symm.trans (gives_eat_of_ne hk)
    obtain ⟨_, k₂, -, hgives⟩ := exists_gives_of_bind hgives
    exact absurd hgives (not_gives_failHere _)

/-- Behind an element, its list ends or goes on behind a comma. -/
lemma passes_lastComma? (closer : String) :
    (lastComma? closer).Passes (fun _ => True) fun mode l _ l' =>
      l.token = .punctuator closer ∧ l' = l
        ∨ l.token = .punctuator "," ∧ l.IsFollowedBy mode l' := by
  intro c k found k' hquiet hgives _ hfaults
  obtain ⟨isClosed, k₁, hat, hgives⟩ := exists_gives_of_bind hgives
  cases hat.symm.trans (gives_isAt closer c k)
  by_cases hk : k.current.token = .punctuator closer
  · rw [decide_eq_true hk] at hgives
    cases hgives
    exact ⟨hfaults, Or.inl ⟨hk, rfl⟩⟩
  · rw [decide_eq_false hk] at hgives
    obtain ⟨_, k₂, hcomma, hgives⟩ := exists_gives_of_bind hgives
    have hstays : (do
        if ← isAt closer then return some (← get).last.start
        return none : Parser (Option Nat)).Stays := by
      refine (stays_isAt closer).bind fun isClosed => ?_
      split
      · exact stays_get.bind fun _ => stays_pure _
      · exact stays_pure _
    obtain ⟨hfaults, hcurrent⟩ := hstays hquiet hgives trivial hfaults
    obtain ⟨hfaults, hover⟩ := passes_expect "," hquiet hcomma trivial hfaults
    rw [hcurrent]
    exact ⟨hfaults, Or.inr hover⟩

/-- The text goes on behind an element: its list ends, or there is a comma. -/
def EndsElement (mode : LexMode) (closer : String) (l l' : Lexeme) : Prop :=
  l.token = .punctuator closer ∧ l' = l ∨ l.token = .punctuator "," ∧ l.IsFollowedBy mode l'

/-! ### Arrays -/

section

variable {g : Grammar} {start : Nat} {c : Context} {k k' : Cursor}

/-- What is read of an array literal in one step. -/
def elementStep (g : Grammar) (start : Nat) (found : List Element) :
    Parser (List Element ⊕ List Element) := do
  if ← eat "]" then return .inr found.reverse
  if ← eat "," then return .inl (.hole :: found)
  let element ← readElement g
  if let some comma ← lastComma? "]" then noteTrailingComma start comma
  return .inl (element :: found)

lemma readArray_eq (g : Grammar) :
    readArray g = inContext Context.inBrackets (do
      let start ← offsetHere
      expect "["
      let elements ← iterate (elementStep g start) []
      return .array (← spanFrom start) elements) := rfl

lemma passes_readElement (hg : g.IsFaithful) (value : String) :
    (readElement g).Passes (·.string? = some value) fun mode l _ l' => SpellsString mode value l l' := by
  refine stays_offsetHere.bind fun start => ?_
  refine (passes_eat _).bind_of_ne (fun isSpread h => Parser.Makes.never ?_) ?_
  · obtain rfl : isSpread = true := by simpa using h
    exact makes_bind fun _ => makes_bind fun _ => makes_pure (by simp [Element.string?])
  · intro c k element k' hquiet hgives hvalue hfaults
    obtain ⟨e, k₁, hgives₁, hgives⟩ := exists_gives_of_bind hgives
    cases hgives
    obtain ⟨hfaults, hspells⟩ := hg.assignment hquiet hgives₁ (isStatic_of_string? hvalue) hfaults
    exact ⟨hfaults, hspells.string value hvalue⟩

lemma passes_elementEnd (element : Element) (found : List Element) :
    (do if let some comma ← lastComma? "]" then noteTrailingComma start comma
        return .inl (element :: found) : Parser (List Element ⊕ List Element)).Passes
      (fun _ => True) fun mode l s l' => s = .inl (element :: found) ∧ EndsElement mode "]" l l' := by
  intro c k s k' hquiet hgives _ hfaults
  obtain ⟨comma, k₁, hgives₁, hgives⟩ := exists_gives_of_bind hgives
  cases comma with
  | none =>
      cases hgives
      obtain ⟨hfaults, hends⟩ := passes_lastComma? "]" hquiet hgives₁ trivial hfaults
      exact ⟨hfaults, rfl, hends⟩
  | some comma =>
      obtain ⟨_, k₂, hnoted, hgives⟩ := exists_gives_of_bind hgives
      cases hgives
      cases hnoted
      obtain ⟨hfaults, hends⟩ := passes_lastComma? "]" hquiet hgives₁ trivial hfaults
      exact ⟨hfaults, rfl, hends⟩

/-- A step finds the closing bracket, or a hole, or an element with what stands behind it. -/
lemma gives_elementStep (hg : g.IsFaithful) {found : List Element}
    {s : List Element ⊕ List Element} (hquiet : c.isQuiet = false)
    (hgives : (elementStep g start found).Gives c k s k') (hfaults : k'.faults = []) :
    (s = .inr found.reverse ∧ k.faults = [] ∧ k.current.token = .punctuator "]"
        ∧ k.current.IsFollowedBy c.lexMode k'.current)
      ∨ ∃ element, s = .inl (element :: found) ∧ ∀ value, element.string? = some value →
        k.faults = [] ∧ ∃ l, SpellsString c.lexMode value k.current l
          ∧ EndsElement c.lexMode "]" l k'.current := by
  obtain ⟨isClosed, k₁, heat, hgives⟩ := exists_gives_of_bind hgives
  by_cases hk : k.current.token = .punctuator "]"
  · cases heat.symm.trans (gives_eat hk)
    cases hgives
    obtain ⟨hfaults, hnext⟩ := passes_skip hquiet (gives_skip c k) trivial hfaults
    exact Or.inl ⟨rfl, hfaults, hk, hnext⟩
  · cases heat.symm.trans (gives_eat_of_ne hk)
    obtain ⟨isHole, k₁, heat, hgives⟩ := exists_gives_of_bind hgives
    cases isHole with
    | true =>
        cases hgives
        exact Or.inr ⟨.hole, rfl, fun value hvalue => by cases hvalue⟩
    | false =>
        obtain ⟨element, k₂, hgives₂, hgives⟩ := exists_gives_of_bind hgives
        obtain ⟨hfaults₂, rfl, hends⟩ := passes_elementEnd element found hquiet hgives trivial hfaults
        refine Or.inr ⟨element, rfl, fun value hvalue => ?_⟩
        obtain ⟨hfaults₁, hspells⟩ := passes_readElement hg value hquiet hgives₂ hvalue hfaults₂
        obtain ⟨hfaults₀, hcurrent₁⟩ := passes_eat "," hquiet heat rfl hfaults₁
        exact ⟨hfaults₀, k₂.current, hcurrent₁ ▸ hspells, hends⟩

lemma mapM_string?_cons {element : Element} {elements : List Element} {values : List String} :
    (element :: elements).mapM Element.string? = some values
      ↔ ∃ value values', element.string? = some value
        ∧ elements.mapM Element.string? = some values' ∧ values = value :: values' := by
  simp only [List.mapM_cons, Option.pure_def, Option.bind_eq_bind, Option.bind_eq_some_iff,
    Option.some.injEq]
  constructor
  · rintro ⟨value, hvalue, values', hvalues, rfl⟩
    exact ⟨value, values', hvalue, hvalues, rfl⟩
  · rintro ⟨value, values', hvalue, hvalues, rfl⟩
    exact ⟨value, hvalue, values', hvalues, rfl⟩

lemma exists_string?_of_mem {elements : List Element} {values : List String}
    (h : elements.mapM Element.string? = some values) {element : Element} (hmem : element ∈ elements) :
    ∃ value, element.string? = some value := by
  induction elements generalizing values with
  | nil => cases hmem
  | cons first elements ih =>
      obtain ⟨value, values', hvalue, hvalues, -⟩ := mapM_string?_cons.mp h
      obtain rfl | hmem := List.mem_cons.mp hmem
      · exact ⟨value, hvalue⟩
      · exact ih hvalues hmem

lemma SpellsString.ne_bracket {mode : LexMode} {l l' : Lexeme} {value : String}
    (h : SpellsString mode value l l') : l.token ≠ .punctuator "]" := by
  cases h with
  | literal htoken _ => simp [htoken]
  | paren htoken _ _ _ => simp [htoken]

/-- An element stands in front of the others. At the closing bracket, there are none. -/
lemma EndsElement.spells {mode : LexMode} {l l₁ l₂ l₃ : Lexeme} {value : String}
    {values : List String} (h : EndsElement mode "]" l₁ l₂) (hfirst : SpellsString mode value l l₁)
    (hothers : SpellsElements mode values l₂ l₃) : SpellsElements mode (value :: values) l l₃ := by
  obtain ⟨hclosed, rfl⟩ | ⟨hcomma, hnext⟩ := h
  · cases hothers with
    | nil _ => exact .last hfirst hclosed
    | last h _ => exact absurd hclosed h.ne_bracket
    | cons h _ _ _ => exact absurd hclosed h.ne_bracket
  · exact .cons hfirst hcomma hnext hothers

/-- The elements that are found after some others, if all of them are strings. -/
lemma gives_elements (hg : g.IsFaithful) (hquiet : c.isQuiet = false) (fuel : Nat)
    {found elements : List Element}
    (hgives : (iterate.go (elementStep g start) fuel found).Gives c k elements k')
    (hall : ∀ element ∈ elements, ∃ value, element.string? = some value) (hfaults : k'.faults = []) :
    ∃ more, elements = found.reverse ++ more ∧ k.faults = [] ∧
      ∀ values, more.mapM Element.string? = some values →
        ∃ l, SpellsElements c.lexMode values k.current l ∧ l.token = .punctuator "]"
          ∧ l.IsFollowedBy c.lexMode k'.current := by
  induction fuel generalizing found k with
  | zero =>
      obtain ⟨_, _, -, hgives⟩ := exists_gives_of_bind hgives
      exact absurd hgives (not_gives_throw _)
  | succ fuel ih =>
      obtain ⟨s, k₁, hstep, hgives⟩ := exists_gives_of_bind hgives
      cases s with
      | inr result =>
          cases hgives
          obtain ⟨heq, hfaults, hclosed, hnext⟩ | ⟨element, heq, -⟩ :=
            gives_elementStep hg hquiet hstep hfaults
          · cases heq
            refine ⟨[], by simp, hfaults, fun values hvalues => ?_⟩
            cases hvalues
            exact ⟨_, .nil hclosed, hclosed, hnext⟩
          · cases heq
      | inl found₁ =>
          obtain ⟨more, helements, hfaults₁, hmore⟩ := ih hgives
          obtain ⟨heq, -⟩ | ⟨element, heq, hstring⟩ := gives_elementStep hg hquiet hstep hfaults₁
          · cases heq
          · cases heq
            have hmem : element ∈ elements := by simp [helements]
            obtain ⟨value, hvalue⟩ := hall element hmem
            obtain ⟨hfaults₀, l, hspells, hends⟩ := hstring value hvalue
            refine ⟨element :: more, by simp [helements], hfaults₀, fun values hvalues => ?_⟩
            obtain ⟨value', values', hvalue', hvalues', rfl⟩ := mapM_string?_cons.mp hvalues
            cases hvalue.symm.trans hvalue'
            obtain ⟨l', hspells', hclosed, hnext⟩ := hmore values' hvalues'
            exact ⟨l', hends.spells hspells hspells', hclosed, hnext⟩

/-- The tokens of an array literal of string literals are passed over. -/
lemma isFaithful_readArray (hg : g.IsFaithful) : (readArray g).IsFaithful := by
  rw [readArray_eq]
  refine Parser.Passes.inContext ?_ (fun _ => rfl) fun _ => rfl
  refine stays_offsetHere.bind fun start => ?_
  intro c k e k' hquiet hgives hwanted hfaults
  obtain ⟨_, k₁, hopen, hgives⟩ := exists_gives_of_bind hgives
  obtain ⟨elements, k₂, helements, hgives⟩ := exists_gives_of_bind hgives
  cases hgives
  obtain ⟨values, hvalues⟩ : ∃ values, elements.mapM Element.string? = some values := by
    simpa [Expr.IsStatic, Expr.string?, Expr.strings?, Option.isSome_iff_exists] using hwanted
  obtain ⟨more, heq, hfaults₁, hmore⟩ := gives_elements hg hquiet c.budget helements
    (fun _ hmem => exists_string?_of_mem hvalues hmem) hfaults
  obtain ⟨hfaults₀, hopened, hnext⟩ := passes_expect "[" hquiet hopen trivial hfaults₁
  obtain ⟨l, hspells, -, hnext'⟩ := hmore values (by simpa [heq] using hvalues)
  refine ⟨hfaults₀, ⟨fun value hvalue => by simp [Expr.string?] at hvalue, fun values' hvalues' => ?_⟩⟩
  cases hvalues.symm.trans hvalues'
  exact .literal hopened hnext hspells hnext'

end

/-! ### Parentheses -/

/-- An item in parentheses is a static expression. -/
def ParenItem.IsStatic : ParenItem → Prop
  | .plain value => value.IsStatic
  | .spread _ _ | .parameter _ _ => False

/-- The tokens of an item in parentheses that is a static expression. -/
def ParenItem.SpellsStatic (mode : LexMode) (l : Lexeme) (item : ParenItem) (l' : Lexeme) : Prop :=
  ∀ value, item = .plain value → Script.SpellsStatic mode l value l'

section

variable {g : Grammar} {start : Nat} {c : Context} {k k' : Cursor}

lemma keeps_finishAssignment (left : Expr) : (finishAssignment g start left).Keeps id left := by
  refine stays_tokenHere.bind fun token => ?_
  split
  · extract_lets assigned targeted formed
    have hassigned : ∀ target, (assigned target).IsDynamic := fun target =>
      isDynamic_bind fun _ => isDynamic_bind fun _ => isDynamic_spanFrom fun _ => trivial
    have htargeted : ∀ u, (targeted u).IsDynamic := fun _ => isDynamic_bind hassigned
    have hformed : ∀ u, (formed u).IsDynamic := by
      intro u
      dsimp only [formed]
      split
      · exact htargeted ()
      · exact isDynamic_bind htargeted
    split
    · refine Parser.IsDynamic.keeps (isDynamic_bind fun target => ?_)
      dsimp only
      split
      · exact isDynamic_bind hassigned
      · exact isDynamic_bind fun _ => isDynamic_bind hassigned
    · split
      · refine Parser.IsDynamic.keeps (isDynamic_bind fun c => ?_)
        dsimp only
        split
        · exact isDynamic_optional hformed
        · exact isDynamic_bind fun _ => isDynamic_optional hformed
      · exact keeps_pure rfl
  · exact keeps_pure rfl

lemma stays_isAtOneOfWords (words : List String) : (isAtOneOfWords words).Stays := by
  refine stays_tokenHere.bind fun token => ?_
  split <;> exact stays_pure _

lemma passes_eatParameterModifier :
    eatParameterModifier.Passes (· = false) fun _ l _ l' => l' = l := by
  refine (stays_isAtOneOfWords _).bind fun isModifier => ?_
  extract_lets moved
  have hmoved : ∀ modifies, (moved modifies).Passes (· = false) fun _ l _ l' => l' = l := by
    intro modifies
    cases modifies with
    | true => exact Parser.Never.passes (Parser.Makes.never (makes_bind fun _ => makes_pure (by simp)))
    | false => exact passes_pure fun _ _ _ => rfl
  split
  · exact (stays_isFollowedBy _).bind hmoved
  · exact (stays_pure _).bind hmoved

/-- A static item is an expression that is given as it is. -/
lemma passes_plainItem {across : LexMode → Lexeme → Expr → Lexeme → Prop} {r : Parser Expr}
    (h : r.Passes Expr.IsStatic across) :
    (do return .plain (← r) : Parser ParenItem).Passes ParenItem.IsStatic
      fun mode l item l' => ∃ value, item = .plain value ∧ across mode l value l' := by
  intro c k item k' hquiet hgives hwanted hfaults
  obtain ⟨value, k₁, hgives₁, hgives⟩ := exists_gives_of_bind hgives
  cases hgives
  obtain ⟨hfaults, hover⟩ := h hquiet hgives₁ hwanted hfaults
  exact ⟨hfaults, value, rfl, hover⟩

lemma passes_parenValue (hg : g.IsFaithful) :
    (parenValue g start).Passes ParenItem.IsStatic ParenItem.SpellsStatic := by
  refine stays_isTyped.bind fun typed => ?_
  extract_lets spread valued
  have hspread : ∀ value, (spread value).Never ParenItem.IsStatic := fun value =>
    Parser.Makes.never (makes_bind fun _ => makes_pure id)
  have hvalued : ∀ isTypedName, (valued isTypedName).Passes ParenItem.IsStatic ParenItem.SpellsStatic := by
    intro isTypedName
    refine (passes_eat _).bind_of_ne (fun isSpread h => ?_) ?_
    · obtain rfl : isSpread = true := by simpa using h
      change (if isTypedName = true then _ else _ : Parser ParenItem).Never _
      split
      · exact never_bind hspread
      · exact never_bind hspread
    · change (if isTypedName = true then _ else _ : Parser ParenItem).Passes _ _
      split
      · refine hg.binary.bind _ (fun value => passes_plainItem (keeps_finishAssignment value)) ?_
        rintro mode l value l₁ item l' hwanted ⟨_, rfl, rfl, rfl⟩
        exact ⟨hwanted, fun hspells _ heq => (ParenItem.plain.inj heq) ▸ hspells⟩
      · intro c k item k' hquiet hgives hwanted hfaults
        obtain ⟨hfaults, value, rfl, hspells⟩ :=
          passes_plainItem hg.assignment hquiet hgives hwanted hfaults
        exact ⟨hfaults, fun _ heq => (ParenItem.plain.inj heq) ▸ hspells⟩
  split
  · refine Parser.Stays.bind (stays_isAtName.bind fun isName => ?_) hvalued
    split
    · exact stays_pure _
    · refine (stays_isAt _).bind fun isSpread => ?_
      split
      · exact stays_isFollowedBy _
      · exact stays_pure _
  · exact (stays_pure _).bind hvalued

lemma passes_parenMark (item : ParenItem) :
    (parenMark g start item).Passes (fun found => found.2 = false ∧ found.1.IsStatic)
      fun _ l found l' => found.1 = item ∧ l' = l := by
  refine stays_isTyped.bind fun typed => (stays_isAt _).bind fun isMark => ?_
  split
  · refine (stays_isFollowedBy _).bind fun isOptional => ?_
    extract_lets chosen
    have hchosen : ∀ u, (chosen u).Passes (fun found => found.2 = false ∧ found.1.IsStatic)
        fun _ l found l' => found.1 = item ∧ l' = l := by
      intro u
      dsimp only [chosen]
      split
      · exact never_bind (fun _ => Parser.Makes.bind_never (isDynamic_choiceBranches _)
          fun e he => Parser.Makes.never (makes_pure fun h => he h.2)) |>.passes
      · exact passes_pure fun _ _ _ => ⟨rfl, rfl⟩
    split
    · refine Parser.Never.passes (never_bind fun _ => ?_)
      split
      · exact Parser.Makes.never (makes_pure (by simp))
      · exact never_bind fun _ => never_bind fun _ => Parser.Makes.never (makes_pure (by simp))
      · exact (fails_failAt _ _).bind.passes
    · exact hchosen ()
  · exact passes_pure fun _ _ _ => ⟨rfl, rfl⟩

lemma makes_typedItem (isOptional : Bool) (item : ParenItem) :
    (typedItem g start isOptional item).Makes (¬ ·.IsStatic) := by
  rw [typedItem.eq_def]
  extract_lets mark bound typed
  have hbound : ∀ target, (bound target).Makes (¬ ·.IsStatic) := by
    refine fun target => makes_bind fun isBound => ?_
    split
    · exact makes_bind fun _ => makes_bind fun _ => makes_pure id
    · exact makes_pure id
  have htyped : ∀ target, (typed target).Makes (¬ ·.IsStatic) := by
    intro target
    dsimp only [typed]
    split
    · exact makes_bind hbound
    · exact makes_bind hbound
    · exact makes_bind fun _ => makes_bind hbound
  split
  · exact makes_bind htyped
  · exact makes_bind fun _ => makes_bind htyped
  · exact makes_bind htyped

lemma passes_readParenItem (hg : g.IsFaithful) :
    (readParenItem g).Passes ParenItem.IsStatic ParenItem.SpellsStatic := by
  refine stays_offsetHere.bind fun first => ?_
  refine Parser.Passes.inContext ?_ (fun _ => rfl) fun _ => rfl
  refine stays_isTyped.bind fun typed => ?_
  extract_lets given
  have hgiven : (given false).Passes ParenItem.IsStatic ParenItem.SpellsStatic := by
    refine stays_offsetHere.bind fun start => (passes_parenValue hg).bind_same fun value => ?_
    refine (passes_parenMark value).bind
      (fun found _ l item l' => found.2 = false ∧ item = found.1 ∧ l' = l)
      (fun ⟨item, isOptional⟩ => ?_) ?_
    · refine (stays_isAt _).bind fun isColon => ?_
      change (if (isOptional || typed && isColon) = true then _ else _ : Parser ParenItem).Passes _ _
      split
      · refine Parser.Never.passes ?_
        refine Parser.Makes.bind_never (makes_typedItem isOptional item) fun marked hmarked => ?_
        exact Parser.Makes.never (makes_pure hmarked)
      · rename_i hplain
        refine passes_pure fun _ _ _ => ⟨?_, rfl, rfl⟩
        simp only [Bool.or_eq_true, not_or] at hplain
        simpa using hplain.1
    · rintro mode l ⟨item, isOptional⟩ l₁ item' l' hwanted ⟨hoptional, rfl, rfl⟩
      exact ⟨⟨hoptional, hwanted⟩, id⟩
  have hmodified : (given true).Never ParenItem.IsStatic := by
    refine never_bind fun start => never_bind fun value => never_bind fun ⟨item, isOptional⟩ =>
      never_bind fun isColon => ?_
    have hnoted : ∀ item, (do
        noteAt .parameterModifier first
        return item : Parser ParenItem).Never ParenItem.IsStatic := by
      intro item
      have hitem : (pure item : Parser ParenItem).Passes ParenItem.IsStatic fun _ l _ l' => l' = l :=
        passes_pure fun _ _ _ => rfl
      exact (never_noteAt ..).bind fun _ => hitem
    change (if (isOptional || typed && isColon) = true then _ else _ : Parser ParenItem).Never _
    split
    · exact never_bind hnoted
    · exact hnoted item
  split
  · refine passes_eatParameterModifier.bind_of_ne (fun isModified h => ?_) hgiven
    obtain rfl : isModified = true := by simpa using h
    exact hmodified
  · exact hgiven

/-- What is read of the items in parentheses in one step. -/
def parenStep (g : Grammar) (s : List ParenItem × Option Nat) :
    Parser ((List ParenItem × Option Nat) ⊕ (List ParenItem × Option Nat)) := do
  let (found, comma) := s
  if (← isAt ")") || (← isAtEnd) then return .inr (found.reverse, comma)
  let item ← readParenItem g
  return .inl (item :: found, ← lastComma? ")")

lemma readParenItems_eq (g : Grammar) :
    readParenItems g = inContext Context.inBrackets (do
      expect "("
      let items ← iterate (parenStep g) ([], none)
      expect ")"
      return items) := rfl

/-- A step ends the items where it stands, or finds one more. -/
lemma gives_parenStep {found : List ParenItem} {comma : Option Nat}
    {s : (List ParenItem × Option Nat) ⊕ (List ParenItem × Option Nat)}
    (hgives : (parenStep g (found, comma)).Gives c k s k') :
    (s = .inr (found.reverse, comma) ∧ k' = k)
      ∨ ∃ item comma' k₁, s = .inl (item :: found, comma') ∧ (readParenItem g).Gives c k item k₁
        ∧ (lastComma? ")").Gives c k₁ comma' k' := by
  obtain ⟨isClosed, k₁, hclosed, hgives⟩ := exists_gives_of_bind hgives
  obtain ⟨isOver, k₂, hover, hgives⟩ := exists_gives_of_bind hgives
  cases hclosed
  cases hover
  split at hgives
  · cases hgives
    exact Or.inl ⟨rfl, rfl⟩
  · obtain ⟨item, k₃, hitem, hgives⟩ := exists_gives_of_bind hgives
    obtain ⟨comma', k₄, hcomma, hgives⟩ := exists_gives_of_bind hgives
    cases hgives
    exact Or.inr ⟨item, comma', k₃, rfl, hitem, hcomma⟩

/-- No item that has been found gets lost, and none is read without being found. -/
lemma gives_parenSteps (fuel : Nat) {found items : List ParenItem} {comma comma' : Option Nat}
    (hgives : (iterate.go (parenStep g) fuel (found, comma)).Gives c k (items, comma') k') :
    found.length ≤ items.length ∧ (items.length = found.length → items = found.reverse ∧ k' = k) := by
  induction fuel generalizing found comma k with
  | zero =>
      obtain ⟨_, _, -, hgives⟩ := exists_gives_of_bind hgives
      exact absurd hgives (not_gives_throw _)
  | succ fuel ih =>
      obtain ⟨s, k₁, hstep, hrest⟩ := exists_gives_of_bind hgives
      obtain ⟨rfl, heq⟩ | ⟨item, comma₁, k₂, rfl, -, -⟩ := gives_parenStep hstep
      · cases hrest
        simp [heq]
      · obtain ⟨hlength, -⟩ := ih hrest
        rw [List.length_cons] at hlength
        exact ⟨by omega, fun heq => by omega⟩

/-- A single static item stands alone in its parentheses, but for a comma behind it. -/
lemma passes_readParenItems (hg : g.IsFaithful) {value : Expr} (hstatic : value.IsStatic) :
    (readParenItems g).Passes (·.1 = [.plain value])
      fun mode l _ l' => ∀ span, SpellsStatic mode l (.paren span value) l' := by
  rw [readParenItems_eq]
  refine Parser.Passes.inContext ?_ (fun _ => rfl) fun _ => rfl
  rintro c k ⟨items, comma⟩ k' hquiet hgives rfl hfaults
  obtain ⟨_, k₁, hopen, hgives⟩ := exists_gives_of_bind hgives
  obtain ⟨found, k₂, hitems, hgives⟩ := exists_gives_of_bind hgives
  obtain ⟨_, k₃, hclose, hgives⟩ := exists_gives_of_bind hgives
  cases hgives
  obtain ⟨hfaults₂, hclosed, hnext⟩ := passes_expect ")" hquiet hclose trivial hfaults
  obtain ⟨item, comma₁, k₃, hitem, hcomma, hends⟩ : ∃ item comma₁ k₃, (readParenItem g).Gives c k₁ item k₃
      ∧ (lastComma? ")").Gives c k₃ comma₁ k₂ ∧ item = .plain value := by
    have hgo : (iterate.go (parenStep g) c.budget ([], none)).Gives c k₁ ([.plain value], comma) k₂ :=
      hitems
    cases hbudget : c.budget with
    | zero =>
        rw [hbudget] at hgo
        obtain ⟨_, _, -, hgo⟩ := exists_gives_of_bind hgo
        exact absurd hgo (not_gives_throw _)
    | succ fuel =>
        rw [hbudget] at hgo
        obtain ⟨s, k₃, hstep, hrest⟩ := exists_gives_of_bind hgo
        obtain ⟨rfl, heq⟩ | ⟨item, comma₁, k₄, rfl, hitem, hcomma⟩ := gives_parenStep hstep
        · cases hrest
        · -- the list is complete with this item, so that no further step is taken
          obtain ⟨hitems, rfl⟩ := (gives_parenSteps fuel hrest).2 rfl
          exact ⟨item, comma₁, k₄, hitem, hcomma, by simpa using hitems.symm⟩
  subst hends
  obtain ⟨hfaults₃, hends⟩ := passes_lastComma? ")" hquiet hcomma trivial hfaults₂
  obtain ⟨hfaults₁, hspells⟩ := passes_readParenItem hg hquiet hitem hstatic hfaults₃
  obtain ⟨hfaults₀, hopened, hnext₁⟩ := passes_expect "(" hquiet hopen trivial hfaults₁
  refine ⟨hfaults₀, fun span => (hspells value rfl).paren hopened hnext₁ ?_⟩
  obtain ⟨-, hcurrent⟩ | ⟨hcomma, hnext₂⟩ := hends
  · rw [← hcurrent]
    exact .plain hclosed hnext
  · exact .comma hcomma hnext₂ hclosed hnext

/-! ### What parentheses hold -/

lemma gives_parenArguments {items : List ParenItem} {arguments : List Argument}
    (hgives : (parenArguments items).Gives c k arguments k') :
    k' = k ∧ (arguments = [] → items = [])
      ∧ ∀ value, arguments = [.plain value] → items = [.plain value] := by
  induction items generalizing arguments k' with
  | nil =>
      cases hgives
      simp
  | cons item items ih =>
      cases item with
      | plain value =>
          obtain ⟨others, k₁, hothers, hgives⟩ := exists_gives_of_bind hgives
          cases hgives
          obtain ⟨hstays, hnil, -⟩ := ih hothers
          refine ⟨hstays, by simp, fun value' heq => ?_⟩
          obtain ⟨heq, hothers⟩ := List.cons.inj heq
          rw [hnil hothers, Argument.plain.inj heq]
      | spread span value =>
          obtain ⟨others, k₁, hothers, hgives⟩ := exists_gives_of_bind hgives
          cases hgives
          exact ⟨(ih hothers).1, by simp, by simp⟩
      | parameter start value => exact absurd hgives (not_gives_failAt _ _)

/-- The expression in an argument of parentheses that hold an expression. -/
def parenValue? : Argument → Parser Expr
  | .plain value => pure value
  | .spread value => failAt .spreadInParentheses value.span.start

lemma gives_parenValues {arguments : List Argument} {values : List Expr}
    (hgives : (arguments.mapM parenValue?).Gives c k values k') :
    k' = k ∧ arguments = values.map .plain := by
  induction arguments generalizing values k' with
  | nil =>
      cases hgives
      simp
  | cons argument arguments ih =>
      rw [List.mapM_cons] at hgives
      obtain ⟨value, k₁, hvalue, hgives⟩ := exists_gives_of_bind hgives
      obtain ⟨others, k₂, hothers, hgives⟩ := exists_gives_of_bind hgives
      cases hgives
      cases argument with
      | plain value' =>
          cases hvalue
          obtain ⟨rfl, rfl⟩ := ih hothers
          exact ⟨rfl, rfl⟩
      | spread value' => exact absurd hvalue (not_gives_failAt _ _)

lemma passes_parenExpression (arguments : List Argument) :
    (parenExpression start arguments).Passes Expr.IsStatic fun _ l e l' =>
      l' = l ∧ ∃ span value, e = .paren span value ∧ arguments = [.plain value] := by
  intro c k e k' hquiet hgives hstatic hfaults
  obtain ⟨values, k₁, hvalues, hexpr⟩ := exists_gives_of_bind hgives
  obtain ⟨rfl, rfl⟩ := gives_parenValues hvalues
  match values with
  | [] => exact absurd hexpr (not_gives_failAt _ _)
  | [value] =>
      cases hexpr
      exact ⟨hfaults, rfl, _, value, rfl, rfl⟩
  | first :: second :: others =>
      cases hexpr
      simp [Expr.IsStatic, Expr.string?, Expr.strings?] at hstatic

/-- The tokens of a static expression in parentheses are passed over. -/
lemma isFaithful_readParentheses (hg : g.IsFaithful) (mayBeArrow : Bool) :
    (readParentheses g mayBeArrow none).IsFaithful := by
  refine stays_offsetHere.bind fun start => ?_
  intro c k e k' hquiet hgives hstatic hfaults
  obtain ⟨⟨items, comma⟩, k₁, hitems, hgives⟩ := exists_gives_of_bind hgives
  have hbehind : ∀ result, (arrowBehind g start mayBeArrow false items comma result).Never
      Expr.IsStatic := fun result => never_arrowBehind hg.binaryRest mayBeArrow false items comma result
  -- what stands behind the parentheses has to pass over nothing at all
  have hfinish : ∀ {r : Parser Expr}, r.Gives c k₁ e k' →
      (r.Passes Expr.IsStatic fun _ l e l' =>
        l' = l ∧ ∃ span value, e = .paren span value ∧ items = [.plain value]) →
      k.faults = [] ∧ SpellsStatic c.lexMode k.current e k'.current := by
    intro r hgives hpasses
    obtain ⟨hfaults₁, hcurrent, span, value, rfl, rfl⟩ := hpasses hquiet hgives hstatic hfaults
    have hvalue : value.IsStatic := by
      simpa only [Expr.IsStatic, Expr.string?, Expr.strings?] using hstatic
    obtain ⟨hfaults₀, hspells⟩ := passes_readParenItems hg hvalue hquiet hitems rfl hfaults₁
    rw [hcurrent]
    exact ⟨hfaults₀, hspells span⟩
  -- nothing is passed over there unless the parentheses belong to an arrow function
  refine hfinish hgives ?_
  refine (offers_arrowInChoice? false items).bind (fun arrow harrow => ?_) ?_
  · exact Parser.Makes.never (makes_pure harrow)
  refine offers_arrowResult?.bind (fun result _ => ?_) ?_
  · refine never_bind fun isArrow => ?_
    rw [if_pos (by simp)]
    exact hbehind _
  refine (stays_isAt _).bind fun isArrow => ?_
  split
  · exact (hbehind _).passes
  refine (stays_forM (fun span => stays_noteAt ..) _).bind fun _ => ?_
  intro c k e k' hquiet hgives hstatic hfaults
  obtain ⟨arguments, k₁, harguments, hexpr⟩ := exists_gives_of_bind hgives
  obtain ⟨rfl, -, hplain⟩ := gives_parenArguments harguments
  obtain ⟨hfaults, hcurrent, span, value, rfl, heq⟩ :=
    passes_parenExpression arguments hquiet hexpr hstatic hfaults
  exact ⟨hfaults, hcurrent, span, value, rfl, hplain value heq⟩

end

end SvelteStories.Script
