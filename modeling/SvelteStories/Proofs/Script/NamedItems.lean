/-
Constants and exported names as items of modules without types, told by their tokens:

* `takes_constant`: a constant that is a member of a name is an item;
* `takes_exportedName`: so is the export of a local name under another one;
* `takes_items`: items that are read one by one are read one behind the other;
* `parseModule_of_spells`: so a text of the tokens of such items is a module of these items.
-/
import SvelteStories.Proofs.Script.Alike
import SvelteStories.Proofs.Script.Members
import SvelteStories.Proofs.Script.Moved

namespace SvelteStories.Script

section

variable {g : Grammar} {c : Context} {k k' : Cursor} {w v : String} {tokens rest : List Token}
  {value : Expr} {n : Nat}

/-! ### Constants -/

lemma gives_isAtEnd (c : Context) (k : Cursor) :
    isAtEnd.Gives c k (k.current.token = .stop) k := rfl

/-- A constant with a value. -/
lemma takes_declarator (hc : c.dialect.isTyped = false) (hw : IsPlainName w)
    (hvalue : (grammar (n + 1)).assignment.Takes c tokens rest (·.unplaced = value.unplaced)) :
    (readDeclarator (grammar (n + 1)) "const" .statement).Takes c
      (.word w :: .punctuator "=" :: tokens) rest
      (·.unplaced = ⟨.identifier nowhere w [], some value.unplaced⟩) := by
  intro k hk
  obtain ⟨start, hstart⟩ := exists_gives_offsetHere c k
  obtain ⟨span, hpattern⟩ := gives_readPattern (g := grammar n) (c := c) hw hk.token_eq
  have hlet : (isAtWord "let").Gives c k false k :=
    gives_isAtWord_of_ne (by simpa [hk.token_eq] using hw.ne (v := "let") (by decide))
  have hdeclared : (declaredPattern (grammar (n + 1))).Gives c k (.identifier span w []) (k.moved c) :=
    hlet.bind hpattern
  have hannotation : (annotation? (grammar (n + 1))).Gives c (k.moved c) [] (k.moved c) := by
    have htyped := gives_isTyped c (k.moved c)
    rw [hc] at htyped
    exact htyped.bind (gives_pure [] c _)
  obtain ⟨value', k', hgives, hsame, hrest, hfaults⟩ := hvalue _ hk.moved.moved
  refine ⟨⟨.identifier span w [], some value'⟩, k', ?_, ?_, hrest, ?_⟩
  · refine hstart.bind (hdeclared.bind ((gives_read c _).bind ?_))
    rw [hc, Bool.false_and, if_neg Bool.false_ne_true]
    exact hannotation.bind ((gives_eat hk.moved.token_eq).bind
      (hgives.bind (gives_pure _ c k')))
  · exact congrArg (fun value => (⟨.identifier nowhere w [], some value⟩ : Declarator)) hsame
  · rw [hfaults, hk.moved.faults_moved, hk.faults_moved]

/-- A constant that no other one follows is all that is declared. -/
lemma takes_declarators (hc : c.dialect.isTyped = false) (hbudget : 0 < c.budget)
    (hw : IsPlainName w)
    (hvalue : (grammar (n + 1)).assignment.Takes c tokens (.punctuator ";" :: rest)
      (·.unplaced = value.unplaced)) (start : Nat) :
    (readDeclarators (grammar (n + 1)) "const" start .statement).Takes c
      (.word w :: .punctuator "=" :: tokens) (.punctuator ";" :: rest)
      (fun ds => unplacedDeclarators ds = [⟨.identifier nowhere w [], some value.unplaced⟩]) := by
  intro k hk
  obtain ⟨budget, hbudget⟩ := Nat.exists_eq_succ_of_ne_zero (Nat.pos_iff_ne_zero.mp hbudget)
  obtain ⟨d, k', hgives, hsame, hrest, hfaults⟩ := takes_declarator hc hw hvalue k hk
  have hsemicolon := gives_isAt ";" c k
  have hend := gives_isAtEnd c k
  rw [hk.token_eq, decide_eq_false (by simp)] at hsemicolon hend
  refine ⟨[d], k', ?_, ?_, hrest, hfaults⟩
  · refine (gives_get c k).bind ((gives_read c k).bind ?_)
    rw [hbudget]
    exact gives_go_inr (hsemicolon.bind (hend.bind
      (hgives.bind ((gives_eat_of_ne (by simp [hrest.token_eq])).bind (gives_pure _ c k')))))
  · exact congrArg (fun d => [d]) hsame

/-- The declaration of a constant with its end. -/
lemma takes_variables (hc : c.dialect.isTyped = false) (hbudget : 0 < c.budget)
    (hw : IsPlainName w)
    (hvalue : (grammar (n + 1)).assignment.Takes c.withIn tokens (.punctuator ";" :: rest)
      (·.unplaced = value.unplaced)) :
    (readVariables (grammar (n + 1))).Takes c
      (.word "const" :: .word w :: .punctuator "=" :: (tokens ++ [Token.punctuator ";"])) rest
      (·.unplaced = (constant w value).unplaced) := by
  intro k hk
  obtain ⟨start, hstart⟩ := exists_gives_offsetHere c k
  have hword : takeWord.Gives c k "const" (k.moved c) := by
    refine (gives_tokenHere c k).bind ?_
    rw [hk.token_eq]
    exact (gives_skip c k).bind (gives_pure _ c _)
  have hdeclarators := (takes_declarators (c := c.withIn) hc hbudget hw hvalue start).inContext
    (c := c) rfl rfl
  obtain ⟨ds, k', hgives, hsame, hrest, hfaults⟩ :=
    hdeclarators (k.moved c) (by simpa using hk.moved)
  have hterminator : eatTerminator.Gives c k' true (k'.moved c) :=
    (gives_eat hrest.token_eq).bind (gives_pure true c _)
  refine ⟨⟨⟨start, (k'.moved c).last.stop⟩, "const", ds⟩, k'.moved c, ?_, ?_, hrest.moved, ?_⟩
  · exact hstart.bind (hword.bind (hgives.bind (hterminator.bind
      ((gives_spanFrom start c _).bind (gives_pure _ c _)))))
  · exact congrArg (VariableDeclaration.mk nowhere "const") hsame
  · rw [hrest.faults_moved, hfaults, hk.faults_moved]

lemma gives_isAtImportExpression_of_ne (h : k.current.token ≠ .word "import") :
    isAtImportExpression.Gives c k false k :=
  (gives_isAtWord_of_ne h).bind (gives_pure false c k)

/-- The declaration of a constant is a statement. -/
lemma takes_constStatement (hc : c.dialect.isTyped = false) (hbudget : 0 < c.budget)
    (hw : IsPlainName w)
    (hvalue : (grammar (n + 1)).assignment.Takes ({ c with beforeColon := false } : Context).withIn
      tokens (.punctuator ";" :: rest) (·.unplaced = value.unplaced)) :
    (readStatement (grammar (n + 1)) true).Takes c
      (.word "const" :: .word w :: .punctuator "=" :: (tokens ++ [Token.punctuator ";"])) rest
      (·.unplaced = (Statement.variables (constant w value)).unplaced) := by
  refine Parser.Takes.inContext (c := c) ?_ rfl rfl
  intro k hk
  obtain ⟨d, k', hgives, hsame, hrest, hfaults⟩ :=
    takes_variables (c := { c with beforeColon := false }) hc hbudget hw hvalue k hk
  obtain ⟨start, hstart⟩ := exists_gives_offsetHere { c with beforeColon := false } k
  obtain ⟨b, henum⟩ : ∃ b, isAtConstEnum.Gives { c with beforeColon := false } k b k :=
    ⟨_, (gives_isAtWord hk.token_eq).bind rfl⟩
  have himport : isAtImportExpression.Gives { c with beforeColon := false } k false k :=
    gives_isAtImportExpression_of_ne (by simp [hk.token_eq])
  have hitem : isAtModuleItem.Gives { c with beforeColon := false } k false k := by
    refine (gives_tokenHere _ k).bind ?_
    rw [hk.token_eq]
    exact gives_pure false _ k
  have hkeyword : (keywordStatement? (grammar (n + 1)) true start "const").Gives
      { c with beforeColon := false } k (some (.variables d)) k' :=
    hgives.bind (gives_pure _ _ k')
  have hhere := gives_tokenHere { c with beforeColon := false } k
  have htyped := gives_isTyped { c with beforeColon := false } k
  rw [hk.token_eq] at hhere
  rw [hc] at htyped
  refine ⟨.variables d, k', ?_, congrArg Statement.variables hsame, hrest, hfaults⟩
  refine himport.bind
    (hitem.bind (hstart.bind (htyped.bind (henum.bind ?_))))
  exact (gives_requireToken (by simp [hk.token_eq]) (by simp [hk.token_eq])).bind
    (hhere.bind (hkeyword.bind (gives_pure _ _ k')))

/-- **The declaration of a constant is an item.** -/
lemma takes_constant (hc : c.dialect.isTyped = false) (hbudget : 0 < c.budget)
    (hw : IsPlainName w)
    (hvalue : (grammar (n + 1)).assignment.Takes ({ c with beforeColon := false } : Context).withIn
      tokens (.punctuator ";" :: rest) (·.unplaced = value.unplaced)) :
    (grammar (n + 3)).item.Takes c
      (.word "const" :: .word w :: .punctuator "=" :: (tokens ++ [Token.punctuator ";"])) rest
      (·.form.unplaced = (ItemForm.statement (.variables (constant w value))).unplaced) := by
  intro k hk
  obtain ⟨s, k', hgives, hsame, hrest, hfaults⟩ := takes_constStatement hc hbudget hw hvalue k hk
  have hexpression : isAtImportExpression.Gives c k false k :=
    gives_isAtImportExpression_of_ne (by simp [hk.token_eq])
  have himport : (isAtWord "import").Gives c k false k :=
    gives_isAtWord_of_ne (by simp [hk.token_eq])
  have hexport : (isAtWord "export").Gives c k false k :=
    gives_isAtWord_of_ne (by simp [hk.token_eq])
  have hstatement : ((grammar (n + 2)).statement true).Gives c k s k' := hgives
  refine ⟨⟨⟨k.current.span.start, k'.last.stop⟩, k.current.comments, .statement s⟩, k', ?_,
    congrArg ItemForm.statement hsame, hrest, hfaults⟩
  refine (gives_lexemeHere c k).bind (hexpression.bind (himport.bind (hexport.bind ?_)))
  exact hstatement.bind ((gives_pure _ c k').bind ((gives_spanFrom _ c k').bind (gives_pure _ c k')))

/-! ### Exported names -/

lemma gives_expectWord (h : k.current.token = .word w) :
    (expectWord w).Gives c k () (k.moved c) :=
  (gives_eatWord h).bind (gives_pure () c _)

lemma gives_readExternalName (h : k.current.token = .word w) :
    readExternalName.Gives c k (.word k.current.span w) (k.moved c) := by
  refine (gives_lexemeHere c k).bind ?_
  rw [h]
  exact (gives_skip c k).bind (gives_pure _ c _)

/-- A name and the name that it gets instead. -/
lemma takes_namePair (hc : c.dialect.isTyped = false) (mark : Nat → Parser Unit)
    (rest : List Token) :
    (readNamePair readExternalName mark).Takes c [.word w, .word "as", .word v] rest
      (fun p => ∃ span span', p = ⟨.word span w, some (.word span' v), false⟩) := by
  intro k hk
  obtain ⟨k₁, h₁⟩ : ∃ k₁, k.moved c = k₁ := ⟨_, rfl⟩
  obtain ⟨k₂, h₂⟩ : ∃ k₂, k₁.moved c = k₂ := ⟨_, rfl⟩
  obtain ⟨hname, hfaults₁, hword, hfaults₂, hother, hfaults₃, hrest⟩ := hk
  rw [h₁] at hfaults₁ hword hfaults₂ hother hfaults₃ hrest
  rw [h₂] at hfaults₂ hother hfaults₃ hrest
  have htyped := gives_isTyped c k₁
  rw [hc] at htyped
  have hfirst := gives_readExternalName (c := c) hname
  have heat := gives_eatWord (c := c) hword
  rw [h₁] at hfirst
  rw [h₂] at heat
  obtain ⟨b, hany⟩ : ∃ b, isAtAnyWord.Gives c k₁ b k₁ := ⟨_, rfl⟩
  refine ⟨⟨.word k.current.span w, some (.word k₂.current.span v), false⟩, k₂.moved c, ?_,
    ⟨_, _, rfl⟩, hrest, by rw [hfaults₃, hfaults₂, hfaults₁]⟩
  refine hfirst.bind (htyped.bind (hany.bind (Parser.Gives.bind ?_ (gives_pure _ c _))))
  refine heat.bind ?_
  rw [if_pos rfl]
  exact (gives_readExternalName hother).bind (gives_pure _ c _)

/-- A pair of names in braces. -/
lemma takes_bracedNames (hc : c.dialect.isTyped = false) (hbudget : 1 < c.budget)
    (mark : Nat → Parser Unit) (rest : List Token) :
    (bracedNames (readNamePair readExternalName mark)).Takes c
      [.punctuator "\x7b", .word w, .word "as", .word v, .punctuator "\x7d"] rest
      (fun ps => ∃ span span', ps = [⟨.word span w, some (.word span' v), false⟩]) := by
  intro k hk
  obtain ⟨budget, hbudget⟩ : ∃ budget, c.budget = budget + 2 := ⟨c.budget - 2, by omega⟩
  obtain ⟨pair, k', hgives, ⟨span, span', rfl⟩, hrest, hfaults⟩ :=
    takes_namePair hc mark (.punctuator "\x7d" :: rest) (k.moved c) hk.moved
  have hbrace := gives_isAt "\x7d" c (k.moved c)
  have hend := gives_isAtEnd c (k.moved c)
  rw [hk.moved.token_eq, decide_eq_false (by simp)] at hbrace hend
  have hbrace' := gives_isAt "\x7d" c k'
  rw [hrest.token_eq, decide_eq_true rfl] at hbrace'
  have hcomma : (expectComma "\x7d").Gives c k' () k' := hbrace'.bind (gives_pure () c k')
  refine ⟨_, k'.moved c, ?_, ⟨span, span', rfl⟩, hrest.moved, ?_⟩
  · refine (gives_expect hk.token_eq).bind (Parser.Gives.bind ((gives_read c _).bind ?_)
      ((gives_expect hrest.token_eq).bind (gives_pure _ c _)))
    rw [hbudget]
    refine gives_go_inl (hbrace.bind (hend.bind (hgives.bind (hcomma.bind (gives_pure _ c k')))))
      (gives_go_inr (hbrace'.bind ?_))
    exact (gives_isAtEnd c k').bind (gives_pure _ c k')
  · rw [hrest.faults_moved, hfaults, hk.faults_moved]

/-- The export of a plain name under another name, behind its keyword. -/
lemma takes_exportedList (hc : c.dialect.isTyped = false) (hbudget : 1 < c.budget)
    (hw : IsPlainName w) :
    (exportedList g false).Takes c
      [.punctuator "\x7b", .word w, .word "as", .word v, .punctuator "\x7d", .punctuator ";"] rest
      (·.unplaced = .exportNames [(.word nowhere w, .word nowhere v)] none) := by
  intro k hk
  obtain ⟨pairs, k', hpairs, ⟨span, span', rfl⟩, hrest, hfaults⟩ :=
    takes_bracedNames hc hbudget (fun offset => do if false then noteAt .typeInTypeExport offset)
      (.punctuator ";" :: rest) k hk
  have hfrom : (eatWord "from").Gives c k' false k' :=
    gives_eatWord_of_ne (by simp [hrest.token_eq])
  have hcheck : (checkLocalNames [⟨.word span w, some (.word span' v), false⟩]).Gives c k' () k' := by
    refine Parser.Gives.bind (a := ()) ?_ (gives_pure () c k')
    simp only [hw.ne (v := "enum") (by decide), hw.ne (v := "package") (by decide), hw.keyword,
      Bool.or_false, Bool.false_eq_true, if_false, decide_false]
    exact gives_pure () c k'
  have hterminator : eatTerminator.Gives c k' true (k'.moved c) :=
    (gives_eat hrest.token_eq).bind (gives_pure true c _)
  refine ⟨.exportNames [(.word span w, .word span' v)] none, k'.moved c, ?_, rfl, hrest.moved, ?_⟩
  · exact hpairs.bind (hfrom.bind (hcheck.bind (hterminator.bind
      ((gives_pure none c _).bind (gives_pure _ c _)))))
  · rw [hrest.faults_moved, hfaults]

/-- **The export of a plain name under another name is an item.** -/
lemma takes_exportedName (hc : c.dialect.isTyped = false) (hbudget : 1 < c.budget)
    (hw : IsPlainName w) :
    (grammar (n + 1)).item.Takes c
      [.word "export", .punctuator "\x7b", .word w, .word "as", .word v, .punctuator "\x7d",
        .punctuator ";"] rest
      (·.form.unplaced = .exportNames [(.word nowhere w, .word nowhere v)] none) := by
  intro k hk
  obtain ⟨k₁, h₁⟩ : ∃ k₁, k.moved c = k₁ := ⟨_, rfl⟩
  obtain ⟨hexport, hfaults₁, hlist⟩ := hk
  rw [h₁] at hfaults₁ hlist
  obtain ⟨form, k', hgives, hsame, hrest, hfaults⟩ :=
    takes_exportedList (g := grammar n) hc hbudget hw k₁ hlist
  have hbrace := hlist.token_eq
  have hnot (v : String) : (isAtWord v).Gives c k₁ false k₁ :=
    gives_isAtWord_of_ne (by simp [hbrace])
  have htyped := gives_isTyped c k₁
  rw [hc] at htyped
  have hword : (expectWord "export").Gives c k () k₁ := by
    rw [← h₁]
    exact gives_expectWord hexport
  have hfunction : isAtFunction.Gives c k₁ false k₁ :=
    (hnot "function").bind ((hnot "async").bind (gives_pure false c k₁))
  have hvariables : (isAtOneOfWords ["var", "const"]).Gives c k₁ false k₁ := by
    refine (gives_tokenHere c k₁).bind ?_
    rw [hbrace]
    exact gives_pure false c k₁
  have henum : isAtConstEnum.Gives c k₁ false k₁ := (hnot "const").bind (gives_pure false c k₁)
  have hlet : isAtLet.Gives c k₁ false k₁ := (hnot "let").bind (gives_pure false c k₁)
  have hdeclaration : (exportedDeclaration? (grammar n)).Gives c k₁ none k₁ := by
    obtain ⟨start, hstart⟩ := exists_gives_offsetHere c k₁
    exact hstart.bind ((hnot "class").bind (hfunction.bind (htyped.bind (henum.bind
      (hvariables.bind (hlet.bind (gives_pure none c k₁)))))))
  have htypedExport : (typedExport? (grammar n)).Gives c k₁ none k₁ :=
    htyped.bind (gives_pure none c k₁)
  have hdefault : (eatWord "default").Gives c k₁ false k₁ :=
    gives_eatWord_of_ne (by simp [hbrace])
  have hstar := gives_isAt "*" c k₁
  rw [hbrace, decide_eq_false (by decide)] at hstar
  have hread : (readExport (grammar n)).Gives c k form k' := by
    refine hword.bind ((gives_requireToken (by simp [hbrace]) (by simp [hbrace])).bind
      (htypedExport.bind (htyped.bind ((gives_pure false c k₁).bind ?_))))
    exact hdefault.bind (hdeclaration.bind (hstar.bind hgives))
  have hexpression : isAtImportExpression.Gives c k false k :=
    gives_isAtImportExpression_of_ne (by simp [hexport])
  have himport : (isAtWord "import").Gives c k false k :=
    gives_isAtWord_of_ne (by simp [hexport])
  refine ⟨⟨⟨k.current.span.start, k'.last.stop⟩, k.current.comments, form⟩, k', ?_, hsame, hrest,
    hfaults.trans hfaults₁⟩
  exact (gives_lexemeHere c k).bind (hexpression.bind (himport.bind ((gives_isAtWord hexport).bind
    (hread.bind ((gives_spanFrom _ c k').bind (gives_pure _ c k'))))))

end

/-! ### Modules -/

/-- An item of a module, and the tokens that tell it. -/
structure ToldItem where
  /-- The tokens. -/
  tokens : List Token
  /-- What the item does. -/
  form : ItemForm

/-- The item is read from its tokens, whatever follows. -/
def ToldItem.IsRead (g : Grammar) (c : Context) (i : ToldItem) : Prop :=
  i.tokens ≠ [] ∧ .stop ∉ i.tokens
    ∧ ∀ rest, g.item.Takes c i.tokens rest (·.form.unplaced = i.form.unplaced)

section

variable {g : Grammar} {c : Context} {mode : LexMode} {t : List Char} {tokens : List Token}
  {items : List ToldItem}

/-- One step of reading the items of a module. -/
def itemsStep (g : Grammar) (found : List Item) : Parser (List Item ⊕ Program) := do
  if ← isAtEnd then return .inr found.reverse
  return .inl ((← g.item) :: found)

/-- Items that are read one by one are read one behind the other. -/
lemma takes_items (hitems : ∀ i ∈ items, i.IsRead g c) (found : List Item) {fuel : Nat}
    (hfuel : items.length < fuel) :
    (iterate.go (itemsStep g) fuel found).Takes c (items.flatMap (·.tokens)) [.stop]
      (fun read => read.map (·.form.unplaced)
        = found.reverse.map (·.form.unplaced) ++ items.map (·.form.unplaced)) := by
  induction items generalizing found fuel with
  | nil =>
      intro k hk
      obtain ⟨fuel, rfl⟩ := Nat.exists_eq_succ_of_ne_zero (Nat.ne_of_gt hfuel)
      have hend := gives_isAtEnd c k
      rw [Cursor.Shows.token_eq hk, decide_eq_true rfl] at hend
      exact ⟨found.reverse, k, gives_go_inr (hend.bind (gives_pure _ c k)), by simp, hk, rfl⟩
  | cons i items ih =>
      intro k hk
      rw [List.length_cons] at hfuel
      obtain ⟨fuel, rfl⟩ := Nat.exists_eq_succ_of_ne_zero (show fuel ≠ 0 by omega)
      obtain ⟨hne, hstop, htakes⟩ := hitems i List.mem_cons_self
      rw [List.flatMap_cons, List.append_assoc] at hk
      obtain ⟨item, k₁, hgives, hsame, hrest, hfaults⟩ := htakes _ k hk
      have hend := gives_isAtEnd c k
      have htoken : k.current.token ≠ .stop := by
        obtain ⟨token, tokens, htokens⟩ := List.exists_cons_of_ne_nil hne
        rw [htokens] at hk hstop
        rw [Cursor.Shows.token_eq hk]
        exact fun heq => hstop (heq ▸ List.mem_cons_self)
      rw [decide_eq_false htoken] at hend
      have hstep : (itemsStep g found).Gives c k (.inl (item :: found)) k₁ :=
        hend.bind (hgives.bind (gives_pure _ c k₁))
      obtain ⟨read, k', hread, hforms, hrest', hfaults'⟩ :=
        ih (fun j hj => hitems j (List.mem_cons_of_mem i hj)) (item :: found)
          (Nat.lt_of_succ_lt_succ hfuel) k₁ hrest
      refine ⟨read, k', gives_go_inl hstep hread, hforms.trans ?_, hrest', hfaults'.trans hfaults⟩
      rw [List.reverse_cons, List.map_append, List.append_assoc, List.map_cons, List.map_nil,
        List.map_cons, hsame, List.singleton_append]

/-- The cursor at the beginning of a text. -/
def Cursor.atStart (c : Context) (offset : Nat) (t : List Char) : Cursor :=
  let first := lexeme c.lexMode ⟨false, false⟩ true offset t
  ⟨first, ⟨offset, offset⟩, first.faults, []⟩

/-- A reader that notes no faults gives the value of the whole text. -/
lemma run_eq_ok {α : Type} {r : Parser α} {dialect : Dialect} {offset : Nat} {a : α} {k' : Cursor}
    (h : r.Gives (Context.top dialect (t.length + 2))
      (.atStart (Context.top dialect (t.length + 2)) offset t) a k')
    (hfaults : k'.faults = []) : r.run dialect offset t = .ok a := by
  have hrun : (ReaderT.run r (Context.top dialect (t.length + 2))).run
      (.atStart (Context.top dialect (t.length + 2)) offset t) = .ok a k' := h
  rw [Cursor.atStart] at hrun
  rw [Parser.run, hrun]
  dsimp only
  rw [hfaults]

/-- There are no more tokens than characters, but for the end. -/
lemma Spells.length_le (h : Spells mode t tokens) : tokens.length ≤ t.length + 1 := by
  induction h with
  | stop _ => simp
  | token _ _ _ _ _ _ ih =>
      simp only [List.length_cons, List.length_append] at ih ⊢
      omega

/-- There are no more items than tokens. -/
lemma length_le_tokens (h : ∀ i ∈ items, i.tokens ≠ []) :
    items.length ≤ (items.flatMap (·.tokens)).length := by
  induction items with
  | nil => exact Nat.le_refl 0
  | cons i items ih =>
      have htokens := List.length_pos_iff.mpr (h i List.mem_cons_self)
      have hle := ih fun j hj => h j (List.mem_cons_of_mem i hj)
      rw [List.flatMap_cons, List.length_append, List.length_cons]
      omega

/-- The items of a text of tokens are read, with nothing wrong about them. -/
lemma run_readItems {dialect : Dialect}
    (hspells : Spells (Context.top dialect (t.length + 2)).lexMode t
      (items.flatMap (·.tokens) ++ [Token.stop]))
    (hitems : ∀ i ∈ items, i.IsRead g (Context.top dialect (t.length + 2))) (offset : Nat) :
    ∃ read, (readItems g).run dialect offset t = .ok read
      ∧ read.map (·.form.unplaced) = items.map (·.form.unplaced) := by
  have hfuel : items.length < t.length + 2 := by
    have hitems' := length_le_tokens fun i hi => (hitems i hi).1
    have htokens := hspells.length_le
    rw [List.length_append, List.length_singleton] at htokens
    omega
  have hstart : (Cursor.atStart (Context.top dialect (t.length + 2)) offset t).Shows
      (Context.top dialect (t.length + 2)) (items.flatMap (·.tokens) ++ [Token.stop]) :=
    hspells.shows rfl
  obtain ⟨read, k', hgives, hforms, -, hfaults⟩ :=
    takes_items hitems [] hfuel (.atStart _ offset t) hstart
  have hread : (readItems g).Gives (Context.top dialect (t.length + 2)) (.atStart _ offset t) read k' :=
    (gives_read (Context.top dialect (t.length + 2)) _).bind hgives
  exact ⟨read, run_eq_ok hread (hfaults.trans (hspells.faults _ true offset)), hforms⟩

/-! ### Moved items -/

lemma ExternalName.unplaced_movedBy (n : Nat) (name : ExternalName) :
    (name.movedBy n).unplaced = name.unplaced := by
  cases name <;> rfl

lemma ImportSpecifier.unplaced_movedBy (n : Nat) (specifier : ImportSpecifier) :
    (specifier.movedBy n).unplaced = specifier.unplaced := by
  cases specifier <;> rfl

lemma DefaultExport.unplaced_movedBy (n : Nat) (value : DefaultExport) :
    (value.movedBy n).unplaced = value.unplaced := by
  cases value with
  | function name parts => rw [movedBy, unplaced, unplaced, unplaced_movedPiecesBy]
  | classes name head heritage body =>
      rw [movedBy, unplaced, unplaced, unplaced_movedPiecesBy, unplaced_movedPiecesBy,
        unplaced_movedPiecesBy]
  | interfaces => rfl
  | expression value => rw [movedBy, unplaced, unplaced, value.unplaced_movedBy]

/-- An item that has been moved is the same but for its places. -/
lemma ItemForm.unplaced_movedBy (n : Nat) (form : ItemForm) :
    (form.movedBy n).unplaced = form.unplaced := by
  cases form with
  | imports typeOnly specifiers source =>
      simp [movedBy, unplaced, Function.comp_def, ImportSpecifier.unplaced_movedBy]
  | statement value => rw [movedBy, unplaced, unplaced, value.unplaced_movedBy]
  | exportDeclaration value => rw [movedBy, unplaced, unplaced, value.unplaced_movedBy]
  | exportDefault value => rw [movedBy, unplaced, unplaced, value.unplaced_movedBy]
  | exportNames names source =>
      simp [movedBy, unplaced, Function.comp_def, ExternalName.unplaced_movedBy]
  | exportAll typeOnly name source =>
      simp [movedBy, unplaced, Function.comp_def, ExternalName.unplaced_movedBy]
  | other parts => rw [movedBy, unplaced, unplaced, unplaced_movedPiecesBy]

/-- **A text of the tokens of items that are read is a module of these items.** -/
theorem parseModule_of_spells {dialect : Dialect} (hline : interpreterLine t = [])
    (hspells : Spells (Context.top dialect (t.length + 2)).lexMode t
      (items.flatMap (·.tokens) ++ [Token.stop]))
    (hitems : ∀ i ∈ items, ∀ n, i.IsRead (grammar (n + 13)) (Context.top dialect (t.length + 2)))
    (offset : Nat) :
    ∃ program, parseModule dialect offset t = .ok program
      ∧ program.map (·.form.unplaced) = items.map (·.form.unplaced) := by
  have hdepth : ∀ i ∈ items, ∃ n, depthFor t = n + 13 := by
    intro i hi
    have hne := List.length_pos_iff.mpr (List.ne_nil_of_mem hi)
    have htokens := length_le_tokens fun j hj => (hitems j hj 0).1
    have hlength := hspells.length_le
    rw [List.length_append, List.length_singleton] at hlength
    exact ⟨12 * t.length - 1, by rw [depthFor]; omega⟩
  have hitems' : ∀ i ∈ items, i.IsRead (grammar (depthFor t)) (Context.top dialect (t.length + 2)) := by
    intro i hi
    obtain ⟨n, hn⟩ := hdepth i hi
    rw [hn]
    exact hitems i hi n
  obtain ⟨read, hread, hforms⟩ := run_readItems hspells hitems' 0
  refine ⟨read.map (Item.movedBy offset), ?_, ?_⟩
  · rw [parseModule, hline, List.length_nil, List.drop_zero, byteLength_nil, hread]
    rfl
  · rw [← hforms, List.map_map]
    exact List.map_congr_left fun item _ => item.form.unplaced_movedBy offset

end

end SvelteStories.Script
