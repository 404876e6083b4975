/-
Names and their members as expressions, in scripts without types, told by their tokens:

* `Parser.Takes`: a reader goes over some tokens and stops before others;
* `gives_takeName`, `gives_readPrimary_name`: plain names are names wherever they stand;
* `gives_string`, `takes_member`: strings in brackets, and the members of a name that have a string
  for their key.
-/
import SvelteStories.Proofs.Script.Operands
import SvelteStories.Proofs.Script.Tokens

namespace SvelteStories.Script

/-! ### Readers and tokens -/

/-- Where a cursor has these tokens ahead, and the others behind them, a reader notes no fault, gives
a value that is as `good` says, and leaves the cursor before the others. -/
def Parser.Takes {α : Type} (r : Parser α) (c : Context) (tokens rest : List Token)
    (good : α → Prop) : Prop :=
  ∀ k : Cursor, k.Shows c (tokens ++ rest) →
    ∃ a k', r.Gives c k a k' ∧ good a ∧ k'.Shows c rest ∧ k'.faults = k.faults

section

variable {α : Type} {g : Grammar} {c c' : Context} {k k' : Cursor} {w v raw : String}
  {tokens rest : List Token}

lemma Cursor.moved_congr (hmode : c'.lexMode = c.lexMode) (hquiet : c'.isQuiet = c.isQuiet)
    (k : Cursor) : k.moved c' = k.moved c := by
  rw [moved, moved, hmode, hquiet]

/-- Of the context, only what it says about tokens counts. -/
lemma Cursor.shows_congr (hmode : c'.lexMode = c.lexMode) (hquiet : c'.isQuiet = c.isQuiet) :
    k.Shows c' tokens ↔ k.Shows c tokens := by
  induction tokens generalizing k with
  | nil => exact Iff.rfl
  | cons token tokens ih => rw [Shows, Shows, moved_congr hmode hquiet, ih]

lemma Parser.Takes.inContext {r : Parser α} {change : Context → Context} {good : α → Prop}
    (h : r.Takes (change c) tokens rest good) (hmode : (change c).lexMode = c.lexMode)
    (hquiet : (change c).isQuiet = c.isQuiet) : (inContext change r).Takes c tokens rest good := by
  intro k hk
  obtain ⟨a, k', hgives, hgood, hrest, hfaults⟩ := h k ((Cursor.shows_congr hmode hquiet).mpr hk)
  exact ⟨a, k', hgives, hgood, (Cursor.shows_congr hmode hquiet).mp hrest, hfaults⟩

lemma gives_isAtWord_of_ne (h : k.current.token ≠ .word w) : (isAtWord w).Gives c k false k := by
  refine (gives_tokenHere c k).bind ?_
  rw [decide_eq_false h]
  exact gives_pure false c k

lemma gives_isAtWord (h : k.current.token = .word w) : (isAtWord w).Gives c k true k := by
  refine (gives_tokenHere c k).bind ?_
  rw [decide_eq_true h]
  exact gives_pure true c k

lemma gives_eatWord (h : k.current.token = .word w) :
    (eatWord w).Gives c k true (k.moved c) := by
  refine (gives_isAtWord h).bind ?_
  rw [if_pos rfl]
  exact (gives_skip c k).bind (gives_pure true c _)

lemma gives_eatWord_of_ne (h : k.current.token ≠ .word w) : (eatWord w).Gives c k false k :=
  (gives_isAtWord_of_ne h).bind (gives_pure false c k)

/-! ### Names -/

/-- A list of words that mean something holds no plain name. -/
lemma IsPlainName.contains {ws : List String} (h : IsPlainName w) (hws : ∀ v ∈ ws, v ∈ formWords) :
    ws.contains w = false := by
  rw [← Bool.not_eq_true, List.contains_iff_mem]
  exact fun hmem => h (hws w hmem)

lemma IsPlainName.keyword (h : IsPlainName w) : keywords.contains w = false :=
  h.contains fun _ hv => List.mem_append_left _ (List.mem_append_left _ hv)

lemma IsPlainName.strictWord (h : IsPlainName w) : strictWords.contains w = false :=
  h.contains fun _ hv => List.mem_append_left _ (List.mem_append_right _ hv)

lemma IsPlainName.reserved (h : IsPlainName w) (c : Context) : c.reserved w = false := by
  rw [Context.reserved, if_neg (h.ne (by decide)), if_neg (h.ne (by decide)),
    if_neg (h.ne (by decide)), decide_eq_false (h.ne (by decide)), h.keyword, h.strictWord,
    Bool.and_false]
  rfl

lemma gives_isAtName (hw : IsPlainName w) (h : k.current.token = .word w) :
    isAtName.Gives c k true k := by
  refine (gives_read c k).bind ((gives_tokenHere c k).bind ?_)
  rw [h, Context.isNameToken, hw.reserved]
  exact gives_pure true c k

/-- A plain name is taken as a name wherever it stands. -/
lemma gives_takeName (hw : IsPlainName w) (h : k.current.token = .word w)
    (mayYield mayAwait : Bool) : (takeName mayYield mayAwait).Gives c k w (k.moved c) := by
  obtain ⟨offset, hoffset⟩ := exists_gives_offsetHere c k
  refine (gives_requireToken (by simp [h]) (by simp [h])).bind
    (hoffset.bind ((gives_tokenHere c k).bind ?_))
  rw [h]
  refine (gives_read c k).bind ?_
  have hstatic : ["yield", "let", "static"].contains w = false := hw.contains (by decide)
  simp only [isStrictName, hw.ne (v := "enum") (by decide), hw.ne (v := "await") (by decide),
    hw.ne (v := "yield") (by decide), hw.ne (v := "arguments") (by decide), hstatic, hw.strictWord,
    hw.keyword, Bool.or_false, Bool.false_eq_true, if_false, decide_false, Bool.false_and]
  exact (gives_skip c k).bind (gives_pure w c _)

/-- A plain name is bound wherever it stands. -/
lemma gives_takeBoundName (hw : IsPlainName w) (h : k.current.token = .word w) :
    takeBoundName.Gives c k w (k.moved c) := by
  obtain ⟨offset, hoffset⟩ := exists_gives_offsetHere c k
  have hunbound : isUnboundName w = false := by
    rw [isUnboundName, decide_eq_false (hw.ne (by decide)), decide_eq_false (hw.ne (by decide))]
    rfl
  refine hoffset.bind ((gives_takeName hw h true true).bind ((gives_read c _).bind ?_))
  simp only [hunbound, hw.ne (v := "await") (by decide), hw.ne (v := "yield") (by decide),
    Bool.false_eq_true, if_false, decide_false, Bool.and_false]
  exact gives_pure w c _

/-- A plain name is a pattern. -/
lemma gives_readPattern (hw : IsPlainName w) (h : k.current.token = .word w) :
    ∃ span, (readPattern g).Gives c k (.identifier span w []) (k.moved c) := by
  obtain ⟨start, hstart⟩ := exists_gives_offsetHere c k
  refine ⟨⟨start, (k.moved c).last.stop⟩, (gives_requireToken (by simp [h]) (by simp [h])).bind
    (hstart.bind ((gives_tokenHere c k).bind ?_))⟩
  rw [h]
  exact (gives_takeBoundName hw h).bind ((gives_spanFrom start c _).bind (gives_pure _ c _))

/-- A plain name that no arrow follows stands for itself. -/
lemma gives_readNameOrArrow (hw : IsPlainName w) (h : k.current.token = .word w)
    (harrow : (k.moved c).current.token ≠ .punctuator "=>") (start : Nat) (mayBeArrow : Bool) :
    (readNameOrArrow g start mayBeArrow).Gives c k
      (.identifier ⟨start, (k.moved c).last.stop⟩ w) (k.moved c) := by
  have hline : isOnNewLine.Gives c (k.moved c) (k.moved c).current.newline (k.moved c) := rfl
  obtain ⟨b, hname⟩ : ∃ b, isAtName.Gives c (k.moved c) b (k.moved c) := ⟨_, rfl⟩
  refine (gives_read c k).bind ((gives_takeName hw h _ _).bind
    ((gives_spanFrom start c _).bind (hline.bind ?_)))
  simp only [hw.ne (v := "async") (by decide), decide_false, Bool.false_and, Bool.false_eq_true,
    if_false]
  split
  · exact hname.bind ((gives_eat_of_ne harrow).bind (gives_pure _ c _))
  · exact gives_pure _ c _

lemma gives_readWordExpression (hw : IsPlainName w) (h : k.current.token = .word w)
    (harrow : (k.moved c).current.token ≠ .punctuator "=>") (mayBeArrow : Bool) :
    (readWordExpression g k.current w mayBeArrow).Gives c k
      (.identifier ⟨k.current.span.start, (k.moved c).last.stop⟩ w) (k.moved c) := by
  have hnot {v : String} (hv : v ∈ formWords) : (isAtWord v).Gives c k false k :=
    gives_isAtWord_of_ne (by simpa [h] using hw.ne hv)
  have hfunction : isAtFunction.Gives c k false k :=
    (hnot (by decide)).bind ((hnot (by decide)).bind (gives_pure false c k))
  -- the name is none of the words that stand for values of their own
  rw [readWordExpression]
  · refine hfunction.bind ?_
    simp only [hw.ne (v := "async") (by decide), hw.ne (v := "let") (by decide), decide_false,
      Bool.false_and, Bool.false_or, Bool.false_eq_true, if_false]
    exact (gives_isAtName hw h).bind (gives_readNameOrArrow hw h harrow _ _)
  all_goals exact hw.ne (by decide)

/-- A plain name is an expression. -/
lemma gives_readPrimary_name (hw : IsPlainName w) (h : k.current.token = .word w)
    (harrow : (k.moved c).current.token ≠ .punctuator "=>") :
    (readPrimary g).Gives c k
      (.identifier ⟨k.current.span.start, (k.moved c).last.stop⟩ w) (k.moved c) := by
  refine (gives_lexemeHere c k).bind ((gives_read c k).bind ?_)
  rw [h]
  exact gives_readWordExpression hw h harrow _

/-! ### Keys in brackets -/

lemma gives_readExpression {value : Expr} (h : g.assignment.Gives c k value k')
    (hcomma : k'.current.token ≠ .punctuator ",") : (readExpression g).Gives c k value k' := by
  obtain ⟨start, hstart⟩ := exists_gives_offsetHere c k
  have hat := gives_isAt "," c k'
  rw [decide_eq_false hcomma] at hat
  exact hstart.bind (h.bind (hat.bind (gives_pure value c k')))

/-- A key in brackets makes a member of a name. -/
lemma gives_chainLink_key (hc : c.dialect.isTyped = false) (hopen : k.current.token = .punctuator "[")
    {key : Expr} (hkey : g.expression.Gives c.withIn (k.moved c) key k')
    (hclose : k'.current.token = .punctuator "]") (start : Nat) (span : Span) (w : String) :
    (chainLink g start false true (.identifier span w)).Gives c k
      ⟨.member ⟨start, (k'.moved c).last.stop⟩ (.identifier span w) (.computed key), true⟩
      (k'.moved c) := by
  have htyped := gives_isTyped c k
  rw [hc] at htyped
  have hline : isOnNewLine.Gives c k k.current.newline k := rfl
  have hlink : (typedLink? g start false (.identifier span w)).Gives c k none k := by
    obtain ⟨⟨isTyped, isModule⟩, budget⟩ := c
    cases hc
    rfl
  have hmember : (memberOf start start false false (.identifier span w) (.computed key)).Gives c
      (k'.moved c) (.member ⟨start, (k'.moved c).last.stop⟩ (.identifier span w) (.computed key))
      (k'.moved c) := rfl
  refine htyped.bind (hline.bind (hlink.bind ((gives_eat_of_ne (by simp [hopen])).bind
    ((gives_eat hopen).bind ?_))))
  refine (Parser.Gives.inContext hkey).bind ((gives_expect hclose).bind (hmember.bind ?_))
  exact (gives_withTypes hc start _).bind (gives_pure _ c _)

/-- A string in brackets is an expression. -/
lemma gives_string {n : Nat} (hc : c.dialect.isTyped = false) (hbudget : 0 < c.budget)
    (hk : k.current.token = .string v raw) (hmoved : k.moved c = k')
    (hclose : k'.current.token = .punctuator "]") :
    (grammar (n + 6)).expression.Gives c k (.literal k.current.span (.string v raw)) k' := by
  subst hmoved
  have hends : (k.moved c).EndsHere := Or.inr (Or.inr (Or.inl hclose))
  have hstarts : k.StartsValue := Or.inl ⟨v, raw, hk⟩
  have hprimary (arrowStart : Option Nat) : (readPrimary (grammar n)).Gives { c with arrowStart } k
      (.literal k.current.span (.string v raw)) (k.moved c) := by
    refine (gives_lexemeHere _ k).bind ((gives_read _ k).bind ?_)
    rw [hk]
    exact (gives_skip _ k).bind (gives_pure _ _ _)
  have hassignment : (grammar (n + 5)).assignment.Gives c k
      (.literal k.current.span (.string v raw)) (k.moved c) :=
    gives_assignment hc hbudget (.literal _ _) hstarts hends fun arrowStart _ =>
      gives_readCallee (c := { c with arrowStart }) hc hbudget (.literal _ _) hstarts hends
        (hprimary arrowStart)
  exact gives_readExpression hassignment (by simp [hclose])

/-- A plain name with a key in brackets behind it is read as the member. -/
lemma gives_readCallee_member {k₁ k₂ k₃ k₄ : Cursor} (hc : c.dialect.isTyped = false)
    (hbudget : 1 < c.budget) (hw : IsPlainName w) {key : Expr} (hk : k.current.token = .word w)
    (h₁ : k.moved c = k₁) (hopen : k₁.current.token = .punctuator "[") (h₂ : k₁.moved c = k₂)
    (hkey : g.expression.Gives c.withIn k₂ key k₃) (hclose : k₃.current.token = .punctuator "]")
    (h₄ : k₃.moved c = k₄) (hends : k₄.EndsHere) :
    (readCallee g).Gives c k
      (.member ⟨k.current.span.start, k₄.last.stop⟩
        (.identifier ⟨k.current.span.start, k₁.last.stop⟩ w) (.computed key)) k₄ := by
  subst h₁ h₂ h₄
  obtain ⟨budget, hbudget⟩ : ∃ budget, c.budget = budget + 2 := ⟨c.budget - 2, by omega⟩
  have hstarts : k.StartsValue := Or.inr (Or.inr ⟨w, hw, hk⟩)
  have hstart : offsetHere.Gives c k k.current.span.start k := by
    refine (gives_get c k).bind ?_
    rw [if_neg (by simp [hk])]
    exact gives_pure _ c k
  have hprimary := gives_readPrimary_name (g := g) (c := c) hw hk (by simp [hopen])
  have hlink := gives_chainLink_key hc hopen hkey hclose k.current.span.start
    ⟨k.current.span.start, (k.moved c).last.stop⟩ w
  have hlast := gives_chainLink (g := g) hc (.member ⟨k.current.span.start, (k₃.moved c).last.stop⟩
    (.identifier ⟨k.current.span.start, (k.moved c).last.stop⟩ w) (.computed key)) hends
    k.current.span.start
  refine (gives_tokenHere c k).bind ?_
  split
  case h_4 =>
    refine hstart.bind (hprimary.bind ((gives_withTypes hc _ _).bind ((gives_read c _).bind ?_)))
    rw [hbudget]
    exact gives_go_inl (hlink.bind (gives_pure _ c _))
      (gives_go_inr (hlast.bind (gives_pure _ c _)))
  all_goals
    rename_i heq
    exact absurd heq (hstarts.ne_word (by decide))

/-- A member of a plain name with a string for its key is an expression. -/
lemma takes_member {n : Nat} (hc : c.dialect.isTyped = false) (hbudget : 1 < c.budget)
    (hw : IsPlainName w) :
    (grammar (n + 11)).assignment.Takes c
      [.word w, .punctuator "[", .string v raw, .punctuator "]"] (.punctuator ";" :: rest)
      (·.unplaced
        = .member nowhere (.identifier nowhere w) (.computed (.literal nowhere (.string v raw)))) := by
  intro k hk
  obtain ⟨k₁, h₁⟩ : ∃ k₁, k.moved c = k₁ := ⟨_, rfl⟩
  obtain ⟨k₂, h₂⟩ : ∃ k₂, k₁.moved c = k₂ := ⟨_, rfl⟩
  obtain ⟨k₃, h₃⟩ : ∃ k₃, k₂.moved c = k₃ := ⟨_, rfl⟩
  obtain ⟨k₄, h₄⟩ : ∃ k₄, k₃.moved c = k₄ := ⟨_, rfl⟩
  obtain ⟨hname, hfaults₁, hopen, hfaults₂, hkey, hfaults₃, hclose, hfaults₄, hends⟩ := hk
  rw [h₁] at hopen hfaults₁ hfaults₂ hkey hfaults₃ hclose hfaults₄ hends
  rw [h₂] at hfaults₂ hkey hfaults₃ hclose hfaults₄ hends
  rw [h₃] at hfaults₃ hclose hfaults₄ hends
  rw [h₄] at hfaults₄ hends
  have hends' : k₄.EndsHere := Or.inr (Or.inr (Or.inr hends.token_eq))
  -- tokens are moved over in the same way wherever an arrow function may start
  have hmoved (arrowStart : Option Nat) (k : Cursor) : k.moved { c with arrowStart } = k.moved c :=
    Cursor.moved_congr rfl rfl k
  have hmoved' (arrowStart : Option Nat) (k : Cursor) :
      k.moved ({ c with arrowStart } : Context).withIn = k.moved c :=
    Cursor.moved_congr rfl rfl k
  have hcallee (arrowStart : Option Nat) : (grammar (n + 7)).callee.Gives { c with arrowStart } k
      (.member ⟨k.current.span.start, k₄.last.stop⟩
        (.identifier ⟨k.current.span.start, k₁.last.stop⟩ w)
        (.computed (.literal k₂.current.span (.string v raw)))) k₄ :=
    gives_readCallee_member (c := { c with arrowStart }) hc hbudget hw hname
      ((hmoved _ k).trans h₁) hopen ((hmoved _ k₁).trans h₂)
      (gives_string (c := ({ c with arrowStart } : Context).withIn) hc (Nat.zero_lt_of_lt hbudget)
        hkey ((hmoved' _ k₂).trans h₃) hclose)
      hclose ((hmoved _ k₃).trans h₄) hends'
  have hassignment := gives_assignment hc (Nat.zero_lt_of_lt hbudget) (.member _ _ _)
    (Or.inr (Or.inr ⟨w, hw, hname⟩)) hends' fun arrowStart _ => hcallee arrowStart
  exact ⟨_, _, hassignment, rfl, hends, by rw [hfaults₄, hfaults₃, hfaults₂, hfaults₁]⟩

end

end SvelteStories.Script
