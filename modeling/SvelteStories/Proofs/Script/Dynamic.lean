/-
Expressions that have to be run to know their values, and the readers that give no other ones:

* `Expr.IsStatic`: literals of strings, arrays of them, and these in parentheses;
* `Parser.IsDynamic`: a reader gives no static expression;
* `Parser.Keeps`: a reader gives back an expression without moving, or gives a dynamic one.

All forms but strings, arrays and parentheses are dynamic, and so is a static expression with anything
behind it that belongs to it.
-/
import SvelteStories.Proofs.Script.Passing
import SvelteStories.Script.Static

namespace SvelteStories.Script

variable {α β : Type}

/-! ### Static expressions -/

/-- An expression is a string literal or an array literal of string literals, in parentheses or
not. -/
def Expr.IsStatic (e : Expr) : Prop :=
  e.string?.isSome ∨ e.strings?.isSome

/-- A static expression is a string, an array of strings, or one of these in parentheses. -/
lemma Expr.IsStatic.cases {e : Expr} (h : e.IsStatic) :
    (∃ span value raw, e = .literal span (.string value raw))
      ∨ (∃ span inner, e = .paren span inner ∧ inner.IsStatic)
      ∨ ∃ span elements values, e = .array span elements
        ∧ elements.mapM Element.string? = some values := by
  cases e with
  | literal span value =>
      cases value with
      | string value raw => exact Or.inl ⟨span, value, raw, rfl⟩
      | _ => simp [IsStatic, string?, strings?] at h
  | paren span inner =>
      refine Or.inr (Or.inl ⟨span, inner, rfl, ?_⟩)
      simpa only [IsStatic, string?, strings?] using h
  | array span elements =>
      obtain ⟨values, hvalues⟩ : ∃ values, elements.mapM Element.string? = some values := by
        simpa [IsStatic, string?, strings?, Option.isSome_iff_exists] using h
      exact Or.inr (Or.inr ⟨span, elements, values, rfl, hvalues⟩)
  | _ => simp [IsStatic, string?, strings?] at h

lemma isStatic_of_string? {e : Expr} {value : String} (h : e.string? = some value) : e.IsStatic :=
  Or.inl (by rw [h]; rfl)

/-- The forms of expressions that are never static. -/
def Expr.HasDynamicForm : Expr → Prop
  | .literal _ (.string _ _) | .paren _ _ | .array _ _ => False
  | _ => True

lemma Expr.HasDynamicForm.not_isStatic {e : Expr} (h : e.HasDynamicForm) : ¬ e.IsStatic := by
  intro hstatic
  obtain ⟨span, value, raw, rfl⟩ | ⟨span, inner, rfl, -⟩ | ⟨span, elements, values, rfl, -⟩ :=
    hstatic.cases <;> exact h

lemma not_isStatic_of_isArrow {e : Expr} (h : e.isArrow = true) : ¬ e.IsStatic := by
  cases e with
  | arrow span parts => exact Expr.HasDynamicForm.not_isStatic trivial
  | _ => cases h

/-- A reader gives no static expression. -/
def Parser.IsDynamic (r : Parser Expr) : Prop :=
  r.Makes (¬ ·.IsStatic)

lemma isDynamic_pure {e : Expr} (h : e.HasDynamicForm) : (pure e : Parser Expr).IsDynamic :=
  makes_pure h.not_isStatic

lemma isDynamic_bind {p : Parser β} {f : β → Parser Expr} (h : ∀ b, (f b).IsDynamic) :
    (p >>= f).IsDynamic :=
  makes_bind h

/-- A step that is taken or not makes no difference. -/
lemma isDynamic_optional {b : Prop} [Decidable b] {p : Parser Unit} {f : Unit → Parser Expr}
    (h : ∀ u, (f u).IsDynamic) : (if b then p >>= f else f ()).IsDynamic := by
  split
  · exact isDynamic_bind h
  · exact h ()

/-- What a reader gives in the end is an expression of a form that is never static. -/
lemma isDynamic_spanFrom {start : Nat} {form : Span → Expr} (h : ∀ span, (form span).HasDynamicForm) :
    (do return form (← spanFrom start) : Parser Expr).IsDynamic :=
  isDynamic_bind fun span => isDynamic_pure (h span)

/-! ### Expressions that are given back -/

/-- A reader gives back an expression and stays, or gives something that holds a dynamic one. -/
def Parser.Keeps (value : α → Expr) (e : Expr) (r : Parser α) : Prop :=
  r.Passes (fun a => (value a).IsStatic) fun _ l a l' => value a = e ∧ l' = l

section

variable {value : α → Expr} {e : Expr} {r : Parser α} {a : α}

lemma keeps_pure (h : value a = e) : (pure a : Parser α).Keeps value e :=
  passes_pure fun _ _ _ => ⟨h, rfl⟩

lemma keeps_of_makes (h : r.Makes fun a => ¬ (value a).IsStatic) : r.Keeps value e :=
  (Parser.Makes.never h).passes

lemma Parser.IsDynamic.keeps {r : Parser Expr} (h : r.IsDynamic) : r.Keeps id e :=
  (Parser.Makes.never h).passes

/-- Where a dynamic expression is kept, no static one comes of it. -/
lemma Parser.Keeps.never {r : Parser Expr} (h : r.Keeps id e) (he : ¬ e.IsStatic) :
    r.Never Expr.IsStatic := by
  intro c k a k' hquiet hgives hwanted hfaults
  obtain ⟨-, heq, -⟩ := h hquiet hgives hwanted hfaults
  exact absurd (heq ▸ hwanted) he

/-- If the expression is dynamic, so is what is given. -/
lemma Parser.Passes.bind_keeps {across : LexMode → Lexeme → Expr → Lexeme → Prop} {p : Parser Expr}
    {f : Expr → Parser Expr} (hp : p.Passes Expr.IsStatic across) (h : ∀ e, (f e).Keeps id e) :
    (p >>= f).Passes Expr.IsStatic across :=
  hp.bind_same h

/-- A loop gives back what it starts with if each step does. -/
lemma keeps_iterate {step : Expr → Parser (Expr ⊕ Expr)}
    (hstep : ∀ e, (step e).Keeps (Sum.elim id id) e) (e : Expr) : (iterate step e).Keeps id e := by
  have hgo : ∀ n e, (iterate.go step n e).Keeps id e := by
    intro n
    induction n with
    | zero =>
        intro e c k a k' _ hgives
        obtain ⟨_, _, -, hgives⟩ := exists_gives_of_bind hgives
        exact absurd hgives (not_gives_throw _)
    | succ n ih =>
        intro e c k a k' hquiet hgives hwanted hfaults
        obtain ⟨s, k₁, hgives₁, hgives⟩ := exists_gives_of_bind hgives
        cases s with
        | inl e₁ =>
            obtain ⟨hfaults₁, rfl, hcurrent⟩ := ih e₁ hquiet hgives hwanted hfaults
            obtain ⟨hfaults₀, heq, hcurrent₀⟩ := hstep e hquiet hgives₁ hwanted hfaults₁
            exact ⟨hfaults₀, heq, hcurrent.trans hcurrent₀⟩
        | inr e₁ =>
            cases hgives
            exact hstep e hquiet hgives₁ hwanted hfaults
  exact stays_read.bind fun c => hgo _ e

end

/-! ### Functions and calls -/

section

variable {g : Grammar} {start offset : Nat} {e value : Expr}

lemma isDynamic_finishArrow (isAsync : Bool) (head : FunctionParts) :
    (finishArrow g start isAsync head).IsDynamic :=
  isDynamic_bind fun _ => isDynamic_spanFrom fun _ => trivial

lemma isDynamic_choiceBranches (test : Expr) : (choiceBranches g start test).IsDynamic :=
  isDynamic_bind fun _ => isDynamic_bind fun _ => isDynamic_bind fun _ =>
    isDynamic_spanFrom fun _ => trivial

lemma isDynamic_callOf (isOptional : Bool) (value : Expr) (types : List Piece)
    (arguments : List Argument) : (callOf start isOptional value types arguments).IsDynamic := by
  refine isDynamic_bind fun span => ?_
  dsimp only
  split
  · split
    · exact isDynamic_bind fun _ => isDynamic_pure trivial
    · exact isDynamic_pure trivial
  · exact isDynamic_pure trivial

lemma isDynamic_superMember (isOptional calls : Bool) (key : MemberKey) :
    (superMember start offset isOptional calls key).IsDynamic := by
  refine isDynamic_bind fun c => ?_
  -- whatever is refused on the way, a member is given in the end
  repeat' first
    | exact isDynamic_spanFrom fun _ => trivial
    | refine isDynamic_bind fun _ => ?_
    | split

lemma isDynamic_memberOf (isOptional calls : Bool) (value : Expr) (key : MemberKey) :
    (memberOf start offset isOptional calls value key).IsDynamic := by
  rw [memberOf]
  split
  · exact isDynamic_superMember isOptional calls key
  · refine isDynamic_bind fun span => ?_
    split
    · exact isDynamic_pure trivial
    · split <;> exact isDynamic_pure trivial

lemma isDynamic_readTemplate (isTagged : Bool) : (readTemplate g isTagged).IsDynamic :=
  isDynamic_bind fun _ => isDynamic_bind fun _ => isDynamic_spanFrom fun _ => trivial

lemma isDynamic_taggedTemplate (value : Expr) (types : List Piece) :
    (taggedTemplate g start value types).IsDynamic := by
  refine isDynamic_bind fun template => ?_
  dsimp only
  split
  · exact isDynamic_bind fun _ => isDynamic_spanFrom fun _ => trivial
  · exact isDynamic_spanFrom fun _ => trivial

/-! ### Chains -/

lemma offers_expressionTypes? : (expressionTypes? g).Offers fun _ => True := by
  refine stays_isTyped.offers fun typed => stays_isAt _ |>.offers fun isOpen => ?_
  split
  · exact offers_attempt fun _ _ _ _ _ _ _ => trivial
  · exact offers_none

lemma keeps_withTypes (value : Expr) : (withTypes g start value).Keeps id value := by
  refine offers_expressionTypes?.bind (fun types _ => ?_) (keeps_pure rfl)
  exact Parser.Makes.never (isDynamic_spanFrom fun _ => trivial)

lemma isDynamic_withTypes (h : ¬ value.IsStatic) : (withTypes g start value).IsDynamic := by
  refine isDynamic_bind fun types => ?_
  split
  · exact isDynamic_bind fun span => isDynamic_pure trivial
  · exact makes_pure h

/-- A link that makes something dynamic of a value. -/
lemma makes_link {r : Parser Expr} (h : r.IsDynamic) (goesOn : Bool) :
    (do return ⟨← r, goesOn⟩ : Parser Link).Makes fun link => ¬ link.value.IsStatic :=
  Parser.Makes.bind h fun _ hvalue => makes_pure hvalue

lemma makes_someLink {r : Parser Expr} (h : r.IsDynamic) (goesOn : Bool) :
    (do return some ⟨← r, goesOn⟩ : Parser (Option Link)).Makes
      fun found => ∀ link ∈ found, ¬ link.value.IsStatic :=
  Parser.Makes.bind h fun _ hvalue => makes_pure (by simpa using hvalue)

lemma offers_typedLink? (calls : Bool) (value : Expr) :
    (typedLink? g start calls value).Offers fun link => ¬ link.value.IsStatic := by
  refine stays_isTyped.offers fun typed => (stays_isAt _).offers fun isOpen => ?_
  split
  · refine offers_attempt (makes_bind fun types => makes_bind fun isCall => ?_)
    split
    · exact makes_bind fun arguments => makes_someLink (isDynamic_callOf ..) true
    · refine makes_bind fun isTemplate => ?_
      split
      · exact makes_someLink (isDynamic_taggedTemplate ..) true
      · refine makes_bind fun isAssigned => makes_bind fun isAscribed => ?_
        split
        · refine makes_bind fun span => makes_pure fun link hlink => ?_
          cases hlink
          exact Expr.HasDynamicForm.not_isStatic trivial
        · exact makes_pure (by simp)
  · exact offers_none

/-- A member of a value is dynamic, with type arguments behind it or without. -/
lemma makes_memberLink (isOptional calls : Bool) (value : Expr) (key : MemberKey) :
    (do let member ← memberOf start offset isOptional calls value key
        return ⟨← withTypes g start member, true⟩ : Parser Link).Makes
      fun link => ¬ link.value.IsStatic :=
  Parser.Makes.bind (isDynamic_memberOf isOptional calls value key) fun _ hmember =>
    makes_link (isDynamic_withTypes hmember) true

/-- Whatever stands behind a value makes something dynamic of it. -/
lemma keeps_chainLink (calls keys : Bool) (value : Expr) :
    (chainLink g start calls keys value).Keeps Link.value value := by
  refine stays_isTyped.bind fun typed => stays_isOnNewLine.bind fun isNew => ?_
  extract_lets ending imported linked typedOrLinked
  have hending : ∀ u, (ending u).Keeps Link.value value := by
    intro u
    refine (stays_isAt _).bind fun isTemplate => ?_
    split
    · exact keeps_of_makes (makes_link (isDynamic_taggedTemplate ..) true)
    · exact keeps_pure rfl
  have himported : ∀ u, (imported u).Keeps Link.value value := by
    intro u
    dsimp only [imported]
    split
    · exact (fails_failHere _).bind.passes
    · exact hending ()
  have hlinked : ∀ u, (linked u).Keeps Link.value value := by
    intro u
    refine (passes_eat _).bind_of_ne (fun isOptional h => Parser.Makes.never ?_) ?_
    · -- behind the mark of an optional chain there is a member or a call
      obtain rfl : isOptional = true := by simpa using h
      extract_lets behind called keyed
      have hcalled : ∀ types, (called types).Makes fun link => ¬ link.value.IsStatic := by
        intro types
        refine makes_bind fun isCall => ?_
        split
        · exact makes_bind fun arguments => makes_link (isDynamic_callOf ..) true
        · change (behind true).Makes _
          exact makes_bind fun offset => makes_bind fun key => makes_memberLink ..
      have hkeyed : ∀ u, (keyed u).Makes fun link => ¬ link.value.IsStatic := by
        refine fun u => makes_bind fun typed => makes_bind fun isOpen => ?_
        split
        · exact makes_bind hcalled
        · exact makes_bind hcalled
      split
      · refine makes_bind fun isOpen => ?_
        split
        · exact makes_bind fun key => makes_bind fun _ => makes_memberLink ..
        · exact hkeyed ()
      · exact hkeyed ()
    · extract_lets behind called keyed
      have hcalled : ∀ types, (called types).Keeps Link.value value := by
        refine fun types => (stays_isAt _).bind fun isCall => ?_
        split
        · exact keeps_of_makes (makes_bind fun arguments => makes_link (isDynamic_callOf ..) true)
        · refine (passes_eat _).bind_of_ne (fun isDotted h => Parser.Makes.never ?_) ?_
          · obtain rfl : isDotted = true := by simpa using h
            exact makes_bind fun offset => makes_bind fun key => makes_memberLink ..
          · change (if value.isWordForm .superWord = true then _ else _ : Parser Link).Keeps _ _
            split
            · exact (fails_failHere _).bind.passes
            · exact himported ()
      have hkeyed : ∀ u, (keyed u).Keeps Link.value value := by
        refine fun u => stays_isTyped.bind fun typed => (stays_isAt _).bind fun isOpen => ?_
        exact (stays_pure _).bind hcalled
      split
      · refine (passes_eat _).bind_of_ne (fun isOpen h => Parser.Makes.never ?_) (hkeyed ())
        obtain rfl : isOpen = true := by simpa using h
        exact makes_bind fun key => makes_bind fun _ => makes_memberLink ..
      · exact hkeyed ()
  have htyped : ∀ u, (typedOrLinked u).Keeps Link.value value := by
    intro u
    dsimp only [typedOrLinked]
    split
    · exact hlinked ()
    · refine (offers_typedLink? calls value).bind (fun link hlink => ?_) (hlinked ())
      exact Parser.Makes.never (makes_pure hlink)
  split
  · refine (passes_eat _).bind_of_ne (fun isMarked h => Parser.Makes.never ?_) (htyped ())
    obtain rfl : isMarked = true := by simpa using h
    exact makes_bind fun span => makes_pure (Expr.HasDynamicForm.not_isStatic trivial)
  · exact htyped ()

/-- A value is static only as long as nothing stands behind it. -/
lemma keeps_readChain (calls keys : Bool) (value : Expr) :
    (readChain g start calls keys value).Keeps id value := by
  refine keeps_iterate (fun value => ?_) value
  intro c k s k' hquiet hgives hwanted hfaults
  obtain ⟨link, k₁, hgives₁, hgives⟩ := exists_gives_of_bind hgives
  cases hgives
  have helim : Sum.elim id id (if link.goesOn = true then .inl link.value else .inr link.value)
      = link.value := by
    split <;> rfl
  dsimp only at hwanted ⊢
  rw [helim] at hwanted ⊢
  exact keeps_chainLink calls keys value hquiet hgives₁ hwanted hfaults

/-! ### Names and words -/

lemma isDynamic_asyncBeforeName {async : Expr} (h : ¬ async.IsStatic) :
    (asyncBeforeName g start async).IsDynamic := by
  refine isDynamic_bind fun c => isDynamic_bind fun isOf => ?_
  extract_lets named behind
  have hbehind : ∀ isLoop, (behind isLoop).IsDynamic := by
    intro isLoop
    dsimp only [behind]
    split
    · split
      · exact makes_pure h
      · exact isDynamic_bind fun cursor => isDynamic_bind fun _ => makes_pure h
    · refine isDynamic_bind fun nameStart => isDynamic_bind fun name => isDynamic_bind fun span =>
        isDynamic_bind fun isArrow => ?_
      split
      · exact isDynamic_bind fun type => isDynamic_spanFrom fun _ => trivial
      · exact isDynamic_bind fun _ => isDynamic_finishArrow ..
  split
  · exact isDynamic_bind hbehind
  · exact isDynamic_bind hbehind

lemma isDynamic_readNameOrArrow (mayBeArrow : Bool) :
    (readNameOrArrow g start mayBeArrow).IsDynamic := by
  refine isDynamic_bind fun c => isDynamic_bind fun name => isDynamic_bind fun span =>
    isDynamic_bind fun isNew => ?_
  split
  · refine isDynamic_bind fun isName => ?_
    split
    · exact isDynamic_asyncBeforeName (Expr.HasDynamicForm.not_isStatic trivial)
    · refine isDynamic_bind fun isArrow => ?_
      split
      · dsimp only
        split
        · exact isDynamic_bind fun _ => isDynamic_finishArrow ..
        · exact isDynamic_finishArrow ..
      · exact isDynamic_pure trivial
  · exact isDynamic_pure trivial

lemma makes_someArrow (isAsync : Bool) (head : FunctionParts) :
    (do return some (← finishArrow g start isAsync head) : Parser (Option Expr)).Makes
      fun found => ∀ e ∈ found, ¬ e.IsStatic :=
  Parser.Makes.bind (isDynamic_finishArrow isAsync head) fun _ harrow =>
    makes_pure (by simpa using harrow)

lemma offers_typedAsyncArrow? : (typedAsyncArrow? g start).Offers (¬ ·.IsStatic) :=
  offers_attempt (makes_bind fun _ => makes_bind fun _ => makes_bind fun head =>
    makes_someArrow true head)

lemma isDynamic_readFunctionExpression : (readFunctionExpression g).IsDynamic := by
  refine isDynamic_bind fun start => isDynamic_bind fun f => ?_
  dsimp only
  split
  · exact isDynamic_spanFrom fun _ => trivial
  · exact (fails_failUnexpected _).bind.makes

lemma isDynamic_readClassExpression : (readClassExpression g).IsDynamic :=
  isDynamic_bind fun _ => isDynamic_bind fun _ => isDynamic_spanFrom fun _ => trivial

lemma isDynamic_readRegexLiteral : readRegexLiteral.IsDynamic := by
  refine isDynamic_bind fun l => ?_
  split
  · exact isDynamic_bind fun _ => (fails_failHere _).makes
  · exact isDynamic_bind fun _ => isDynamic_bind fun _ => isDynamic_pure trivial

/-! ### Arrow functions -/

lemma offers_arrowInChoice? (isAsync : Bool) (items : List ParenItem) :
    (arrowInChoice? g start isAsync items).Offers (¬ ·.IsStatic) := by
  refine stays_read.offers fun c => (stays_isAt _).offers fun isColon => ?_
  split
  · refine offers_attempt (makes_bind fun result => makes_bind fun _ => makes_bind fun parameters => ?_)
    refine Parser.Makes.bind (isDynamic_finishArrow ..) fun arrow harrow => makes_bind fun isColon => ?_
    split
    · exact makes_pure (by simp)
    · exact makes_pure (by simpa using harrow)
  · exact offers_none

lemma offers_arrowResult? : (arrowResult? g).Offers fun _ => True := by
  refine stays_read.offers fun c => (stays_isAt _).offers fun isColon => ?_
  split
  · exact offers_attempt fun _ _ _ _ _ _ _ => trivial
  · exact offers_none

/-- Nothing static comes of an arrow function, whatever operators stand behind it. -/
lemma never_arrowBehind (hrest : ∀ above e, (g.binaryRest above e).Keeps id e)
    (mayBeArrow isAsync : Bool) (items : List ParenItem) (comma : Option Nat)
    (result : List Piece) :
    (arrowBehind g start mayBeArrow isAsync items comma result).Never Expr.IsStatic := by
  refine never_bind fun isNew => ?_
  extract_lets finished allowed
  have hfinished : ∀ u, (finished u).Never Expr.IsStatic := by
    refine fun u => never_bind fun _ => never_bind fun parameters => never_bind fun hasBlock => ?_
    refine Parser.Makes.bind_never (isDynamic_finishArrow ..) fun arrow harrow => ?_
    refine never_bind fun token => ?_
    split
    · refine never_bind fun offset => never_bind fun _ => ?_
      refine Parser.Passes.bind_keeps ((hrest 0 arrow).never harrow) fun value => ?_
      refine stays_isAtTerminator.bind fun ends => ?_
      dsimp only
      split
      · exact keeps_pure rfl
      · exact stays_offsetHere.bind fun _ => (stays_noteAt ..).bind fun _ => keeps_pure rfl
    · exact Parser.Makes.never (makes_pure harrow)
  have hallowed : ∀ u, (allowed u).Never Expr.IsStatic := by
    intro u
    dsimp only [allowed]
    split
    · exact hfinished ()
    · exact (fails_failAt _ _).bind.passes
  split
  · exact (fails_failAt _ _).bind.passes
  · exact hallowed ()

/-- Parentheses behind `async` hold the arguments of a call or the parameters of an arrow function. -/
lemma never_asyncParentheses (hrest : ∀ above e, (g.binaryRest above e).Keeps id e)
    (mayBeArrow : Bool) (span : Span) :
    (readParentheses g mayBeArrow (some span)).Never Expr.IsStatic := by
  refine never_bind fun offset => never_bind fun ⟨items, comma⟩ => ?_
  refine Parser.Makes.bind_never (offers_arrowInChoice? ..).makes fun arrow harrow => ?_
  cases arrow with
  | some arrow => exact Parser.Makes.never (makes_pure (harrow arrow rfl))
  | none =>
      refine never_bind fun result => never_bind fun isArrow => ?_
      split
      · exact never_arrowBehind hrest ..
      · exact never_bind fun _ => never_bind fun arguments => Parser.Makes.never (isDynamic_callOf ..)

/-! ### Expressions that start with a word -/

lemma never_readWordExpression (hrest : ∀ above e, (g.binaryRest above e).Keeps id e) (l : Lexeme)
    (word : String) (mayBeArrow : Bool) :
    (readWordExpression g l word mayBeArrow).Never Expr.IsStatic := by
  have hskip : ∀ e : Expr, e.HasDynamicForm → (do skip; return e : Parser Expr).Never Expr.IsStatic :=
    fun e he => Parser.Makes.never (isDynamic_bind fun _ => isDynamic_pure he)
  have hname : (do
      if word = "let" || (← isAtName) then readNameOrArrow g l.span.start mayBeArrow
      else failHere .expressionExpected : Parser Expr).Never Expr.IsStatic := by
    refine never_bind fun isName => ?_
    split
    · exact Parser.Makes.never (isDynamic_readNameOrArrow _)
    · exact (fails_failHere _).passes
  dsimp only [readWordExpression]
  split
  · exact hskip _ trivial
  · exact hskip _ trivial
  · exact hskip _ trivial
  · exact hskip _ trivial
  · exact Parser.Makes.never isDynamic_readClassExpression
  · refine never_bind fun isFunction => ?_
    split
    · exact Parser.Makes.never isDynamic_readFunctionExpression
    · have hcall : (do
          if ← isFollowedBy (·.token = .punctuator "(") then
            skip
            readParentheses g mayBeArrow (some l.span)
          else if word = "let" || (← isAtName) then readNameOrArrow g l.span.start mayBeArrow
          else failHere .expressionExpected : Parser Expr).Never Expr.IsStatic := by
        refine never_bind fun isCall => ?_
        split
        · exact never_bind fun _ => never_asyncParentheses hrest mayBeArrow l.span
        · exact hname
      split
      · refine never_bind fun typed => never_bind fun isOpen => ?_
        split
        · refine Parser.Makes.bind_never offers_typedAsyncArrow?.makes fun arrow harrow => ?_
          cases arrow with
          | some arrow => exact Parser.Makes.never (makes_pure (harrow arrow rfl))
          | none => exact hcall
        · exact hcall
      · exact hname

/-- Nothing static comes of what stands for itself only together with the links behind it. -/
lemma never_compoundChain (calls keys : Bool) (form : Form) (pieces : List Piece) :
    (do readChain g start calls keys (.compound (← spanFrom start) form pieces) :
      Parser Expr).Never Expr.IsStatic :=
  never_bind fun _ => (keeps_readChain ..).never (Expr.HasDynamicForm.not_isStatic trivial)

lemma never_readNewTarget : (readNewTarget g start).Never Expr.IsStatic := by
  refine never_bind fun isTarget => ?_
  extract_lets value target
  have htarget : ∀ u, (target u).Never Expr.IsStatic := by
    refine fun u => never_bind fun c => ?_
    split
    · exact never_compoundChain ..
    · exact never_bind fun _ => never_compoundChain ..
  split
  · exact htarget ()
  · exact never_bind htarget

lemma never_readNew : (readNew g).Never Expr.IsStatic := by
  refine never_bind fun start => never_bind fun _ => never_bind fun isTarget => ?_
  split
  · exact never_readNewTarget
  · refine never_bind fun callee => ?_
    split
    · exact Parser.Makes.never (makes_pure (not_isStatic_of_isArrow ‹_›))
    · extract_lets made
      have hmade : ∀ u, (made u).Never Expr.IsStatic := by
        refine fun u => never_bind fun types => never_bind fun isCall => ?_
        split
        · exact never_bind fun arguments => never_compoundChain ..
        · exact Parser.Makes.never (isDynamic_spanFrom fun _ => trivial)
      split
      · exact never_bind hmade
      · exact hmade ()

lemma never_readSuper (calls : Bool) : (readSuper g calls).Never Expr.IsStatic :=
  never_bind fun _ => (keeps_readChain ..).never (Expr.HasDynamicForm.not_isStatic trivial)

lemma never_readImportExpression (calls : Bool) :
    (readImportExpression g calls).Never Expr.IsStatic := by
  refine never_bind fun start => never_bind fun _ => never_bind fun isDotted => ?_
  split
  · refine never_bind fun name => ?_
    split
    · refine never_bind fun c => ?_
      dsimp only
      split
      · exact never_compoundChain ..
      · exact never_bind fun _ => never_compoundChain ..
    · exact never_compoundChain ..
    · exact never_compoundChain ..
    · exact (fails_failUnexpected _).passes
  · exact never_compoundChain ..

/-! ### Operators -/

lemma isDynamic_readPrefix (operator : String) : (readPrefix g operator).IsDynamic := by
  refine isDynamic_bind fun l => isDynamic_bind fun token => ?_
  extract_lets checked
  have hchecked : ∀ apart, (checked apart).IsDynamic := by
    refine fun apart => isDynamic_bind fun operand => ?_
    dsimp only
    split
    · exact isDynamic_bind fun _ => isDynamic_spanFrom fun _ => trivial
    · exact isDynamic_spanFrom fun _ => trivial
  split
  · exact isDynamic_bind hchecked
  · exact isDynamic_bind hchecked

lemma isDynamic_readAwait : (readAwait g).IsDynamic := by
  refine isDynamic_bind fun l => isDynamic_bind fun c => isDynamic_bind fun isStar => ?_
  extract_lets name value noted awaited decided started
  have hvalue : ∀ u, (value u).IsDynamic := fun _ =>
    isDynamic_bind fun _ => isDynamic_spanFrom fun _ => trivial
  have hdecided : ∀ isName, (decided isName).IsDynamic := by
    intro isName
    dsimp only [decided]
    split
    · exact isDynamic_optional fun _ => isDynamic_pure trivial
    · exact isDynamic_optional fun _ => isDynamic_optional fun _ => isDynamic_optional hvalue
  refine isDynamic_optional fun _ => isDynamic_bind fun ends => ?_
  split
  · exact isDynamic_bind hdecided
  · split <;> exact isDynamic_bind hdecided

lemma isDynamic_readCast : (readCast g).IsDynamic := by
  refine isDynamic_bind fun start => isDynamic_bind fun _ => isDynamic_bind fun isConstant => ?_
  split
  · exact isDynamic_bind fun _ => isDynamic_bind fun _ => isDynamic_bind fun _ =>
      isDynamic_spanFrom fun _ => trivial
  · exact isDynamic_bind fun _ => isDynamic_bind fun _ => isDynamic_bind fun _ =>
      isDynamic_bind fun _ => isDynamic_spanFrom fun _ => trivial

lemma isDynamic_readPrefixUpdate (operator : String) : (readPrefixUpdate g operator).IsDynamic :=
  isDynamic_bind fun _ => isDynamic_bind fun _ => isDynamic_bind fun _ =>
    isDynamic_spanFrom fun _ => trivial

lemma isDynamic_missingOperand (f : SyntaxFault) : (missingOperand f).IsDynamic := by
  refine isDynamic_bind fun _ => isDynamic_bind fun token => isDynamic_bind fun c => ?_
  dsimp only
  split
  · exact isDynamic_bind fun _ => isDynamic_bind fun _ => isDynamic_pure trivial
  · exact isDynamic_bind fun _ => isDynamic_bind fun _ => isDynamic_bind fun _ => isDynamic_pure trivial

lemma isDynamic_readYield : (readYield g).IsDynamic := by
  refine isDynamic_bind fun l => isDynamic_bind fun c => ?_
  extract_lets given allowed
  have hgiven : ∀ isBare, (given isBare).IsDynamic := by
    intro isBare
    dsimp only [given]
    split
    · exact isDynamic_spanFrom fun _ => trivial
    · exact isDynamic_bind fun _ => isDynamic_bind fun _ => isDynamic_spanFrom fun _ => trivial
  refine isDynamic_optional fun _ => isDynamic_bind fun ends => isDynamic_bind fun isStar => ?_
  split
  · exact isDynamic_bind hgiven
  · split
    · exact isDynamic_bind hgiven
    · exact isDynamic_bind fun _ => isDynamic_bind hgiven

lemma offers_typedArrow? : (typedArrow? g).Offers (¬ ·.IsStatic) := by
  refine stays_isTyped.offers fun typed => (stays_isAt _).offers fun isOpen =>
    (stays_isFollowedBy _).offers fun isWord => ?_
  split
  · refine offers_attempt (makes_bind fun start => makes_bind fun types => makes_bind fun arrow => ?_)
    split
    · refine makes_pure fun e he => ?_
      cases he
      exact Expr.HasDynamicForm.not_isStatic trivial
    · exact makes_pure (by simp)
  · exact offers_none

end

end SvelteStories.Script
