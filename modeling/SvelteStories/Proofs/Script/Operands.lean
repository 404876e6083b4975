/-
Object literals and strings as whole expressions, in scripts without types:

* `Cursor.EndsHere`: no expression goes on where a cursor stands;
* `IsPlainName`: the words that are names wherever they stand;
* `gives_assignment`: a simple value is read through all the operators that there might be around it;
* `reads_string`, `reads_object`: so strings and object literals are read as expressions by the grammar
  as a whole, wherever they stand as values of properties;
* `reads_objectOf_entry`: a printed object with a single entry is read again if its value is.
-/
import SvelteStories.Proofs.Script.Objects
import SvelteStories.Proofs.Script.Printed
import SvelteStories.Proofs.Script.Strings
import SvelteStories.Script.Parser.Modules

namespace SvelteStories.Script

/-! ### Where expressions end -/

/-- A comma, a semicolon or a closing bracket is the current token, so that an expression ends
here. -/
def Cursor.EndsHere (k : Cursor) : Prop :=
  k.current.token = .punctuator "," ∨ k.current.token = .punctuator "\x7d"
    ∨ k.current.token = .punctuator "]" ∨ k.current.token = .punctuator ";"

/-- The words that some script reserves or that mean something at the beginning of a form. -/
def formWords : List String :=
  keywords ++ strictWords
    ++ ["let", "yield", "static", "await", "enum", "async", "arguments", "eval"]

/-- A word that is a name wherever it stands. -/
def IsPlainName (w : String) : Prop :=
  w ∉ formWords

/-- A string, an opening brace or a plain name is the current token, so that a value starts here. -/
def Cursor.StartsValue (k : Cursor) : Prop :=
  (∃ value raw, k.current.token = .string value raw) ∨ k.current.token = .punctuator "\x7b"
    ∨ ∃ w, IsPlainName w ∧ k.current.token = .word w

/-- Object literals, other literals, names and members. -/
inductive Expr.IsSimple : Expr → Prop
  /-- An object literal. -/
  | object (o : ObjectLiteral) : IsSimple (.object o)
  /-- A literal of another kind. -/
  | literal (span : Span) (value : Literal) : IsSimple (.literal span value)
  /-- A name. -/
  | identifier (span : Span) (name : String) : IsSimple (.identifier span name)
  /-- A member. -/
  | member (span : Span) (owner : Expr) (key : MemberKey) : IsSimple (.member span owner key)

section

variable {α : Type} {g : Grammar} {c : Context} {k k' : Cursor} {value : Expr} {mode : LexMode}
  {offset : Nat} {rest : List Char} {w v : String}

lemma IsPlainName.ne (h : IsPlainName w) (hv : v ∈ formWords) : w ≠ v :=
  fun heq => h (heq ▸ hv)

/-- No value starts with a word that means something at the beginning of a form. -/
lemma Cursor.StartsValue.ne_word (h : k.StartsValue) (hv : v ∈ formWords) :
    k.current.token ≠ .word v := by
  obtain ⟨value, raw, hk⟩ | hk | ⟨w, hw, hk⟩ := h
  · simp [hk]
  · simp [hk]
  · simpa [hk] using hw.ne hv

lemma Cursor.Before.endsHere (h : k.Before mode offset rest) (hrest : EndsProperty rest) :
    k.EndsHere := by
  obtain ⟨gap, mark, t, hgap, hmark, rfl⟩ := hrest
  have hat := h.behind_gap hgap
  simp only [List.mem_cons, List.not_mem_nil, or_false] at hmark
  obtain rfl | rfl := hmark
  · exact Or.inl (hat.at_mark (Or.inl rfl)).1
  · exact Or.inr (Or.inl (hat.at_mark (Or.inr (Or.inr (Or.inr rfl)))).1)

lemma gives_tryCatch {r : Parser α} {a : α} (h : r.Gives c k a k') (f : SyntaxFault → Parser α) :
    (tryCatch r f).Gives c k a k' := by
  rw [Parser.Gives] at h ⊢
  change EStateM.tryCatch (r c) (fun e => f e c) k = _
  rw [EStateM.tryCatch, h]

/-! ### Nothing behind a value -/

lemma gives_chainLink (hc : c.dialect.isTyped = false) (hvalue : value.IsSimple) (hk : k.EndsHere)
    (start : Nat) : (chainLink g start false true value).Gives c k ⟨value, false⟩ k := by
  obtain ⟨⟨isTyped, isModule⟩, budget⟩ := c
  obtain ⟨⟨token, span⟩, last, faults, commas⟩ := k
  cases hc
  obtain hk | hk | hk | hk := hk <;> cases hk <;> cases hvalue <;> rfl

lemma gives_readChain (hc : c.dialect.isTyped = false) (hbudget : 0 < c.budget)
    (hvalue : value.IsSimple) (hk : k.EndsHere) (start : Nat) :
    (readChain g start false true value).Gives c k value k := by
  obtain ⟨budget, hbudget⟩ := Nat.exists_eq_succ_of_ne_zero (Nat.pos_iff_ne_zero.mp hbudget)
  refine (gives_read c k).bind ?_
  rw [hbudget]
  exact gives_go_inr ((gives_chainLink hc hvalue hk start).bind (gives_pure _ c k))

lemma gives_withTypes (hc : c.dialect.isTyped = false) (start : Nat) (value : Expr) :
    (withTypes g start value).Gives c k value k := by
  obtain ⟨⟨isTyped, isModule⟩, budget⟩ := c
  cases hc
  rfl

lemma Expr.IsSimple.isArrow (h : value.IsSimple) : value.isArrow = false := by
  cases h <;> rfl

/-! ### Through the operators -/

lemma gives_readCallee (hc : c.dialect.isTyped = false) (hbudget : 0 < c.budget)
    (hvalue : value.IsSimple) (hk : k.StartsValue) (hk' : k'.EndsHere)
    (h : (readPrimary g).Gives c k value k') : (readCallee g).Gives c k value k' := by
  obtain ⟨start, hstart⟩ := exists_gives_offsetHere c k
  refine (gives_tokenHere c k).bind ?_
  split
  case h_4 =>
    refine hstart.bind (h.bind ?_)
    rw [hvalue.isArrow]
    exact (gives_withTypes hc start value).bind (gives_readChain hc hbudget hvalue hk' start)
  all_goals
    rename_i heq
    exact absurd heq (hk.ne_word (by decide))

lemma gives_readOperand (hc : c.dialect.isTyped = false) (hvalue : value.IsSimple)
    (hk : k.StartsValue) (hk' : k'.EndsHere) (h : g.callee.Gives c k value k') :
    (readOperand g).Gives c k value k' := by
  obtain ⟨start, hstart⟩ := exists_gives_offsetHere c k
  have htypes : (callTypes? g).Gives c k' none k' := by
    obtain ⟨⟨isTyped, isModule⟩, budget⟩ := c
    cases hc
    rfl
  have hcall : (isAt "(").Gives c k' false k' := by
    have hat := gives_isAt "(" c k'
    obtain hk' | hk' | hk' | hk' := hk' <;> (rw [hk'] at hat; exact hat)
  have hform : value.isWordForm .bareConstruction = false := by
    cases hvalue <;> rfl
  refine (gives_tokenHere c k).bind ?_
  split
  case h_3 =>
    refine hstart.bind (h.bind ?_)
    rw [hvalue.isArrow]
    refine htypes.bind ?_
    rw [hform]
    exact hcall.bind (gives_pure value c k')
  all_goals
    rename_i heq
    exact absurd heq (hk.ne_word (by decide))

lemma gives_readPostfix (hvalue : value.IsSimple) (hk' : k'.EndsHere)
    (h : g.operand.Gives c k value k') : (readPostfix g).Gives c k value k' := by
  have hline : isOnNewLine.Gives c k' k'.current.newline k' := rfl
  refine h.bind (hline.bind ?_)
  rw [hvalue.isArrow, Bool.false_or]
  cases k'.current.newline with
  | true => exact gives_pure value c k'
  | false =>
      refine (gives_tokenHere c k').bind ?_
      obtain hk' | hk' | hk' | hk' := hk' <;> (rw [hk']; exact gives_pure value c k')

lemma gives_readUnary (hvalue : value.IsSimple) (hk : k.StartsValue) (hk' : k'.EndsHere)
    (h : g.operand.Gives c k value k') : (readUnary g).Gives c k value k' := by
  have hpostfix := gives_readPostfix hvalue hk' h
  refine (gives_tokenHere c k).bind ?_
  obtain ⟨text, raw, hk⟩ | hk | ⟨w, hw, hk⟩ := hk
  · rw [hk]
    exact hpostfix
  · rw [hk]
    exact (gives_isTyped c k).bind hpostfix
  · have hoperators : wordOperators.contains w = false := by
      rw [← Bool.not_eq_true, List.contains_iff_mem]
      exact fun hmem => hw ((by decide : ∀ v ∈ wordOperators, v ∈ formWords) w hmem)
    rw [hk]
    dsimp only
    rw [hoperators, if_neg Bool.false_ne_true, if_neg (hw.ne (by decide))]
    exact hpostfix

lemma gives_readBinaryRest (hc : c.dialect.isTyped = false) (hbudget : 0 < c.budget)
    (hk : k.EndsHere) (value : Expr) : (readBinaryRest g 0 value).Gives c k value k := by
  obtain ⟨budget, hbudget⟩ := Nat.exists_eq_succ_of_ne_zero (Nat.pos_iff_ne_zero.mp hbudget)
  refine (gives_read c k).bind ?_
  rw [hbudget]
  refine gives_go_inr ?_
  obtain ⟨⟨isTyped, isModule⟩, budget⟩ := c
  obtain ⟨⟨token, span⟩, last, faults, commas⟩ := k
  cases hc
  obtain hk | hk | hk | hk := hk <;> cases hk <;> rfl

lemma gives_readBinary (hvalue : value.IsSimple) (h : g.unary.Gives c k value k')
    (hrest : (g.binaryRest 0 value).Gives c k' value k') : (readBinary g).Gives c k value k' := by
  refine (gives_tryCatch h missingOperand).bind ?_
  rw [hvalue.isArrow]
  exact hrest

lemma gives_readConditional (hvalue : value.IsSimple) (hk' : k'.EndsHere)
    (h : g.binary.Gives c k value k') : (readConditional g).Gives c k value k' := by
  obtain ⟨start, hstart⟩ := exists_gives_offsetHere c k
  have hchoice : (eat "?").Gives c k' false k' :=
    gives_eat_of_ne (by obtain hk' | hk' | hk' | hk' := hk' <;> simp [hk'])
  refine hstart.bind (h.bind ?_)
  rw [hvalue.isArrow]
  exact hchoice.bind (gives_pure value c k')

/-- A value that is read with the operators around it is read as an expression without commas. An
arrow function might start with it if it starts with a name. -/
lemma gives_readAssignment (hc : c.dialect.isTyped = false) (hvalue : value.IsSimple)
    (hk : k.StartsValue) (hk' : k'.EndsHere)
    (h : ∀ arrowStart, (k.current.token.startsArrow = false → arrowStart = none) →
      g.binary.Gives { c with arrowStart } k value k') :
    (readAssignment g).Gives c k value k' := by
  obtain ⟨start, hstart⟩ := exists_gives_offsetHere c k
  have harrow : (typedArrow? g).Gives c k none k := by
    obtain ⟨⟨isTyped, isModule⟩, budget⟩ := c
    obtain ⟨⟨token, span⟩, last, faults, commas⟩ := k
    cases hc
    obtain ⟨text, raw, hk⟩ | hk | ⟨w, hw, hk⟩ := hk <;> cases hk <;> rfl
  have hword : (isAtWord "yield").Gives c k false k := by
    refine (gives_tokenHere c k).bind ?_
    rw [decide_eq_false (hk.ne_word (by decide))]
    exact gives_pure false c k
  have hrequire : requireToken.Gives c k () k := by
    obtain ⟨text, raw, hk⟩ | hk | ⟨w, hw, hk⟩ := hk <;>
      exact gives_requireToken (by simp [hk]) (by simp [hk])
  have hregex : refuseOpenRegex.Gives c k () k := by
    refine (gives_lexemeHere c k).bind ?_
    obtain ⟨text, raw, hk⟩ | hk | ⟨w, hw, hk⟩ := hk <;> (rw [hk]; exact gives_pure () c k)
  have hfinish : (finishAssignment g start value).Gives c k' value k' := by
    refine (gives_tokenHere c k').bind ?_
    obtain hk' | hk' | hk' | hk' := hk' <;> (rw [hk']; exact gives_pure value c k')
  have hends : value.endsAssignment = false := by
    cases hvalue <;> rfl
  refine harrow.bind ((gives_read c k).bind (hword.bind ?_))
  rw [Bool.and_false]
  refine hrequire.bind (hregex.bind (hstart.bind ((gives_tokenHere c k).bind ?_)))
  have hbinary := h (if k.current.token.startsArrow then some start else none) fun harrow => by
    rw [harrow]
    rfl
  have hvalue' := gives_readConditional hvalue hk' hbinary
  refine Parser.Gives.bind (Parser.Gives.inContext hvalue') ?_
  rw [hends]
  exact hfinish

end

/-! ### The grammar as a whole -/

section

variable {n : Nat} {c : Context} {k k' : Cursor} {value : Expr} {slots : List Slot}
  {closing : List Char}

/-- The context in which a value of a property is read. -/
def Context.inValue (c : Context) : Context :=
  { c.withIn with arrowStart := none }

@[simp] lemma dialect_inValue (c : Context) : c.inValue.dialect = c.dialect := rfl

@[simp] lemma budget_inValue (c : Context) : c.inValue.budget = c.budget := rfl

/-- A value that is read with its members is read through all the operators that there might be
around it. -/
lemma gives_assignment (hc : c.dialect.isTyped = false) (hbudget : 0 < c.budget)
    (hvalue : value.IsSimple) (hk : k.StartsValue) (hk' : k'.EndsHere)
    (h : ∀ arrowStart, (k.current.token.startsArrow = false → arrowStart = none) →
      (grammar n).callee.Gives { c with arrowStart } k value k') :
    (grammar (n + 4)).assignment.Gives c k value k' := by
  refine gives_readAssignment hc hvalue hk hk' fun arrowStart harrow => ?_
  have hoperand : (grammar (n + 1)).operand.Gives { c with arrowStart } k value k' :=
    gives_readOperand hc hvalue hk hk' (h arrowStart harrow)
  have hunary : (grammar (n + 2)).unary.Gives { c with arrowStart } k value k' :=
    gives_readUnary hvalue hk hk' hoperand
  have hrest : ((grammar (n + 2)).binaryRest 0 value).Gives { c with arrowStart } k' value k' :=
    gives_readBinaryRest (c := { c with arrowStart }) hc hbudget hk' value
  exact gives_readBinary hvalue hunary hrest

/-- A literal is read through all the operators that there might be around it. -/
lemma gives_bracketed (hc : c.dialect.isTyped = false) (hbudget : 0 < c.budget)
    (hvalue : value.IsSimple) (hk : k.StartsValue) (hk' : k'.EndsHere)
    (harrow : k.current.token.startsArrow = false)
    (h : (readPrimary (grammar n)).Gives c.inValue k value k') :
    (bracketed (grammar (n + 5))).Gives c k value k' := by
  refine Parser.Gives.inContext (gives_assignment hc hbudget hvalue hk hk' fun arrowStart hnone => ?_)
  obtain rfl := hnone harrow
  exact gives_readCallee hc hbudget hvalue hk hk' h

/-- A quoted text is read as the string, wherever it stands as the value of a property. -/
lemma reads_string (hc : c.dialect.isTyped = false) (hbudget : 0 < c.budget) (value : String) :
    (bracketed (grammar (n + 5))).Reads c EndsProperty (quote value.toList)
      (·.unplaced = (stringExpr value).unplaced) := by
  have hquote : StartsToken '"' := ⟨by decide, by decide, by decide, by decide⟩
  have htoken := fun rest => readToken_quote c.lexMode value.toList rest
  rw [String.ofList_toList] at htoken
  refine ⟨fun rest _ => clean_token hquote (htoken rest) (by simp) (by simp),
    fun k offset rest hrest hk => ?_⟩
  obtain ⟨hstring, hplace, hafter⟩ := hk.at_token hquote (htoken rest) (by simp) (by simp)
  have hspan : k.current.span
      = ⟨offset, offset + byteLength (upTo (quote value.toList ++ rest) rest)⟩ := hplace
  rw [upTo_append] at hspan
  obtain ⟨hmoved, hfaults⟩ := k.before_moved (by rw [hspan]) hafter
    (EndsProperty.clean hrest c.lexMode)
  have hprimary : (readPrimary (grammar n)).Gives c.inValue k
      (.literal k.current.span (.string value (String.ofList (quote value.toList)))) (k.moved c) := by
    refine (gives_lexemeHere _ k).bind ((gives_read _ k).bind ?_)
    rw [hstring]
    exact (gives_skip _ k).bind (gives_pure _ _ _)
  exact ⟨_, _, gives_bracketed hc hbudget (.literal _ _) (Or.inl ⟨_, _, hstring⟩)
    (hmoved.endsHere hrest) (by rw [hstring]; rfl) hprimary, rfl, hmoved, hfaults⟩

/-- The text of an object literal is read as the object, wherever it stands as the value of a
property. -/
lemma reads_object (hc : c.dialect.isTyped = false) (hbudget : slots.length < c.budget)
    (hseparates : Separates slots closing)
    (hlegible : Legible (grammar n) c.inValue.inObject slots) :
    (bracketed (grammar (n + 5))).Reads c EndsProperty (objectText slots closing)
      (·.unplaced = (Expr.object (objectOf (slots.map (·.property)))).unplaced) := by
  have hobject := readObject_reads (c := c.inValue) hbudget hseparates hlegible
  have hopen : IsMark '{' := Or.inr (Or.inr (Or.inl rfl))
  refine ⟨fun rest hrest => hobject.clean rest (EndsProperty.clean hrest _),
    fun k offset rest hrest hk => ?_⟩
  obtain ⟨o, k', hgives, hproperties, hk', hfaults⟩ :=
    hobject.gives k offset rest (EndsProperty.clean hrest _) hk
  have hbrace : k.current.token = .punctuator "\x7b" := (hk.at_mark hopen).1
  have hprimary : (readPrimary (grammar n)).Gives c.inValue k (.object o) k' := by
    refine (gives_lexemeHere _ k).bind ((gives_read _ k).bind ?_)
    rw [hbrace]
    exact hgives.bind (gives_pure _ _ _)
  refine ⟨_, _, gives_bracketed hc (Nat.zero_lt_of_lt hbudget) (.object o) (Or.inr (Or.inl hbrace))
    (Cursor.Before.endsHere hk' hrest) (by rw [hbrace]; rfl) hprimary, ?_, hk', hfaults⟩
  rw [Expr.unplaced, Expr.unplaced, ObjectLiteral.unplaced_eq_iff.mpr]
  rw [hproperties, objectOf, List.map_map]
  rfl

lemma isGap_newLine (depth : Nat) : IsGap isLineBreak (newLine depth) := by
  refine .blank (by decide) ?_
  induction 4 * depth with
  | zero => exact .nil
  | succ n ih => exact .blank (by decide) ih

/-- A printed object with a single entry is read again if its value is. -/
lemma reads_objectOf_entry {key : String} {depth : Nat} (hc : c.dialect.isTyped = false)
    (hbudget : 1 < c.budget) (hne : key.toList ≠ [])
    (hletters : ∀ d ∈ key.toList, isAsciiLetter d = true)
    (hvalue : (bracketed (grammar n)).Reads c.inValue.inObject EndsProperty (value.print (depth + 1))
      (·.unplaced = value.unplaced)) :
    (bracketed (grammar (n + 5))).Reads c EndsProperty
      ((Expr.object (objectOf [entry key value])).print depth)
      (·.unplaced = (Expr.object (objectOf [entry key value])).unplaced) := by
  have hseparates : Separates
      [entrySlot (newLine (depth + 1)) key (value.print (depth + 1)) value] (newLine depth) :=
    ⟨isGap_newLine _, Or.inl (isGap_newLine _)⟩
  have hlegible : Legible (grammar n) c.inValue.inObject
      [entrySlot (newLine (depth + 1)) key (value.print (depth + 1)) value] := by
    intro s hs
    rw [List.mem_singleton.mp hs]
    exact (slotText_entrySlot _ hne hletters hvalue).reads
  have hprint : (Expr.object (objectOf [entry key value])).print depth
      = objectText [entrySlot (newLine (depth + 1)) key (value.print (depth + 1)) value]
        (newLine depth) := by
    rw [objectOf, print_object, print_of_cons, printProperties_singleton, print_entry]
    simp [objectText, written, entrySlot, Slot.text]
  rw [hprint]
  exact reads_object hc hbudget hseparates hlegible

end

end SvelteStories.Script
