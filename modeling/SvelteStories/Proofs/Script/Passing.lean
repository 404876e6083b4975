/-
What a reader makes and what it passes over, whatever the text:

* `Parser.Makes`: whenever a reader gives a value, the value is good;
* `Parser.Passes`: whenever it gives a value that is wanted and no fault has been noted by then, none
  had been noted before, and what it has passed over is described;
* `Parser.Stays`: it passes over nothing; `Parser.Never`: it gives nothing that is wanted;
* `Parser.Offers`: it gives something good, or it gives nothing and stays.

Each property is put together along the steps of a reader. Where a reader gives up there is nothing to
say, so that all the ways to fail are passed by.
-/
import SvelteStories.Proofs.Script.Readers
import SvelteStories.Script.Parser.Modules

namespace SvelteStories.Script

variable {α β : Type}

/-! ### Values -/

/-- Whenever a reader gives a value, the value is good. -/
def Parser.Makes (good : α → Prop) (r : Parser α) : Prop :=
  ∀ ⦃c k a k'⦄, r.Gives c k a k' → good a

section

variable {good : α → Prop} {r : Parser α} {p : Parser β} {f : β → Parser α} {a : α}

lemma makes_pure (h : good a) : (pure a : Parser α).Makes good := by
  intro c k a k' hgives
  cases hgives
  exact h

/-- The last step counts. -/
lemma makes_bind (h : ∀ b, (f b).Makes good) : (p >>= f).Makes good := by
  intro c k a k' hgives
  obtain ⟨b, k₁, -, hgives⟩ := exists_gives_of_bind hgives
  exact h b hgives

lemma Parser.Makes.bind {good₁ : β → Prop} (hp : p.Makes good₁)
    (h : ∀ b, good₁ b → (f b).Makes good) : (p >>= f).Makes good := by
  intro c k a k' hgives
  obtain ⟨b, k₁, hgives₁, hgives⟩ := exists_gives_of_bind hgives
  exact h b (hp hgives₁) hgives

lemma Parser.Makes.inContext (h : r.Makes good) (change : Context → Context) :
    (inContext change r).Makes good :=
  fun _ _ _ _ hgives => h hgives

/-- Either a reader gives the value, or the one that stands in for it when it fails. -/
lemma gives_tryCatch_cases {g : SyntaxFault → Parser α} {c : Context} {k k' : Cursor}
    (h : (tryCatch r g).Gives c k a k') :
    r.Gives c k a k' ∨ ∃ f k₁, (g f).Gives c k₁ a k' := by
  rw [Parser.Gives] at h
  change EStateM.tryCatch (r c) (fun e => g e c) k = _ at h
  rw [EStateM.tryCatch] at h
  split at h
  · exact Or.inr ⟨_, _, h⟩
  · exact Or.inl h

end

/-- A reader gives nothing. -/
def Parser.Fails (r : Parser α) : Prop :=
  ∀ c k a k', ¬ r.Gives c k a k'

lemma fails_failAt (cause : SyntaxCause) (offset : Nat) : (failAt cause offset : Parser α).Fails :=
  fun _ _ _ _ => not_gives_failAt cause offset

lemma fails_failHere (cause : SyntaxCause) : (failHere cause : Parser α).Fails :=
  fun _ _ _ _ => not_gives_failHere cause

lemma fails_failUnexpected (wanted : String) : (failUnexpected wanted : Parser α).Fails :=
  fun _ _ _ _ => not_gives_failUnexpected wanted

lemma Parser.Fails.bind {p : Parser β} {f : β → Parser α} (h : p.Fails) : (p >>= f).Fails := by
  intro c k a k' hgives
  obtain ⟨b, k₁, hgives, -⟩ := exists_gives_of_bind hgives
  exact h c k b k₁ hgives

lemma Parser.Fails.makes {good : α → Prop} {r : Parser α} (h : r.Fails) : r.Makes good :=
  fun c k a k' hgives => absurd hgives (h c k a k')

/-! ### Passing over texts -/

/-- Whenever a reader gives a value that is wanted, and no fault has been noted by then, none had been
noted before, and what has been passed over is as `across` says. -/
def Parser.Passes (wanted : α → Prop) (across : LexMode → Lexeme → α → Lexeme → Prop)
    (r : Parser α) : Prop :=
  ∀ ⦃c k a k'⦄, c.isQuiet = false → r.Gives c k a k' → wanted a → k'.faults = [] →
    k.faults = [] ∧ across c.lexMode k.current a k'.current

/-- No value that a reader gives without a fault is wanted. -/
def Parser.Never (wanted : α → Prop) (r : Parser α) : Prop :=
  r.Passes wanted fun _ _ _ _ => False

/-- A reader passes over nothing. -/
def Parser.Stays (r : Parser α) : Prop :=
  r.Passes (fun _ => True) fun _ l _ l' => l' = l

section

variable {wanted : α → Prop} {across : LexMode → Lexeme → α → Lexeme → Prop} {r : Parser α}
  {p : Parser β} {f : β → Parser α} {a : α}

lemma Parser.Makes.never (h : r.Makes (¬ wanted ·)) : r.Never wanted :=
  fun _ _ _ _ _ hgives hwanted _ => absurd hwanted (h hgives)

/-- A reader that gives nothing wanted need not be looked at. -/
lemma Parser.Never.passes (h : r.Never wanted) : r.Passes wanted across :=
  fun _ _ _ _ hquiet hgives hwanted hfaults => (h hquiet hgives hwanted hfaults).2.elim

/-- The last step counts. -/
lemma never_bind (h : ∀ b, (f b).Never wanted) : (p >>= f).Never wanted := by
  intro c k a k' hquiet hgives hwanted hfaults
  obtain ⟨b, k₁, -, hgives⟩ := exists_gives_of_bind hgives
  exact (h b hquiet hgives hwanted hfaults).2.elim

lemma Parser.Makes.bind_never {good : β → Prop} (hp : p.Makes good)
    (h : ∀ b, good b → (f b).Never wanted) : (p >>= f).Never wanted := by
  intro c k a k' hquiet hgives hwanted hfaults
  obtain ⟨b, k₁, hgives₁, hgives⟩ := exists_gives_of_bind hgives
  exact (h b (hp hgives₁) hquiet hgives hwanted hfaults).2.elim

lemma Parser.Fails.passes (h : r.Fails) : r.Passes wanted across :=
  h.makes.never.passes

lemma passes_pure (h : wanted a → ∀ mode l, across mode l a l) : (pure a : Parser α).Passes wanted across := by
  intro c k a k' _ hgives hwanted hfaults
  cases hgives
  exact ⟨hfaults, h hwanted _ _⟩

/-- Two steps pass over what each of them does. -/
lemma Parser.Passes.bind {wanted₁ : β → Prop} {across₁ : LexMode → Lexeme → β → Lexeme → Prop}
    (hp : p.Passes wanted₁ across₁) (across₂ : β → LexMode → Lexeme → α → Lexeme → Prop)
    (h : ∀ b, (f b).Passes wanted (across₂ b))
    (hover : ∀ mode l b l₁ a l', wanted a → across₂ b mode l₁ a l' →
      wanted₁ b ∧ (across₁ mode l b l₁ → across mode l a l')) : (p >>= f).Passes wanted across := by
  intro c k a k' hquiet hgives hwanted hfaults
  obtain ⟨b, k₁, hgives₁, hgives⟩ := exists_gives_of_bind hgives
  obtain ⟨hfaults₁, hover₂⟩ := h b hquiet hgives hwanted hfaults
  obtain ⟨hwanted₁, hover⟩ := hover _ k.current _ _ _ _ hwanted hover₂
  obtain ⟨hfaults₀, hover₁⟩ := hp hquiet hgives₁ hwanted₁ hfaults₁
  exact ⟨hfaults₀, hover hover₁⟩

lemma Parser.Stays.bind (hp : p.Stays) (h : ∀ b, (f b).Passes wanted across) :
    (p >>= f).Passes wanted across :=
  Parser.Passes.bind hp _ h fun _ _ _ _ _ _ _ hover => ⟨trivial, fun heq => heq ▸ hover⟩

/-- Nothing is wanted behind a step that always notes a fault, as long as the fault stays noted. -/
lemma Parser.Never.bind (hp : p.Never fun _ => True) (h : ∀ b, (f b).Passes wanted across) :
    (p >>= f).Never wanted :=
  Parser.Passes.bind hp _ h fun _ _ _ _ _ _ _ _ => ⟨trivial, False.elim⟩

/-- A step that gives back what the one before it has given. -/
lemma Parser.Passes.bind_same {p : Parser α} {f : α → Parser α} (hp : p.Passes wanted across)
    (h : ∀ a, (f a).Passes wanted fun _ l a' l' => a' = a ∧ l' = l) :
    (p >>= f).Passes wanted across := by
  refine hp.bind _ h fun mode l b l₁ a l' hwanted heq => ?_
  obtain ⟨rfl, rfl⟩ := heq
  exact ⟨hwanted, id⟩

/-- A step that stays if it finds nothing. Where it finds something, nothing wanted may come of it. -/
lemma Parser.Passes.bind_of_ne {b₀ : β} (hp : p.Passes (· = b₀) fun _ l _ l' => l' = l)
    (h : ∀ b ≠ b₀, (f b).Never wanted) (h₀ : (f b₀).Passes wanted across) :
    (p >>= f).Passes wanted across := by
  have hall : ∀ b, (f b).Passes wanted fun mode l a l' => b = b₀ ∧ across mode l a l' := by
    intro b
    by_cases hb : b = b₀
    · subst hb
      intro c k a k' hquiet hgives hwanted hfaults
      obtain ⟨hfaults₀, hover⟩ := h₀ hquiet hgives hwanted hfaults
      exact ⟨hfaults₀, rfl, hover⟩
    · exact (h b hb).passes
  exact hp.bind _ hall fun _ _ _ _ _ _ _ hover => ⟨hover.1, fun heq => heq ▸ hover.2⟩

lemma stays_pure (a : α) : (pure a : Parser α).Stays :=
  passes_pure fun _ _ _ => rfl

lemma Parser.Passes.inContext {change : Context → Context} (h : r.Passes wanted across)
    (hquiet : ∀ c, (change c).isQuiet = c.isQuiet) (hmode : ∀ c, (change c).lexMode = c.lexMode) :
    (inContext change r).Passes wanted across := by
  intro c k a k' hc hgives hwanted hfaults
  rw [← hmode]
  exact h ((hquiet c).trans hc) hgives hwanted hfaults

/-- A step that only looks stays where it is. -/
lemma stays_of_looks (h : ∀ c k, ∃ a, r.Gives c k a k) : r.Stays := by
  intro c k a k' _ hgives _ hfaults
  obtain ⟨b, hlooks⟩ := h c k
  cases hgives.symm.trans hlooks
  exact ⟨hfaults, rfl⟩

lemma stays_forM {β : Type} {f : β → Parser Unit} (h : ∀ b, (f b).Stays) (bs : List β) :
    (bs.forM f).Stays := by
  induction bs with
  | nil => exact stays_pure ()
  | cons b bs ih => exact (h b).bind fun _ => ih

/-! ### Single steps -/

lemma stays_read : (read : Parser Context).Stays := stays_of_looks fun _ _ => ⟨_, rfl⟩

lemma stays_get : (get : Parser Cursor).Stays := stays_of_looks fun _ _ => ⟨_, rfl⟩

lemma stays_lexemeHere : lexemeHere.Stays := stays_of_looks fun _ _ => ⟨_, rfl⟩

lemma stays_tokenHere : tokenHere.Stays := stays_of_looks fun _ _ => ⟨_, rfl⟩

lemma stays_offsetHere : offsetHere.Stays := stays_of_looks fun _ _ => ⟨_, rfl⟩

lemma stays_isTyped : isTyped.Stays := stays_of_looks fun _ _ => ⟨_, rfl⟩

lemma stays_isAt (p : String) : (isAt p).Stays := stays_of_looks fun _ _ => ⟨_, rfl⟩

lemma stays_isAtWord (w : String) : (isAtWord w).Stays := stays_of_looks fun _ _ => ⟨_, rfl⟩

lemma stays_isAtName : isAtName.Stays := stays_of_looks fun _ _ => ⟨_, rfl⟩

lemma stays_isOnNewLine : isOnNewLine.Stays := stays_of_looks fun _ _ => ⟨_, rfl⟩

lemma stays_isAtTerminator : isAtTerminator.Stays := stays_of_looks fun _ _ => ⟨_, rfl⟩

lemma stays_isFollowedBy (test : Lexeme → Bool) : (isFollowedBy test).Stays :=
  stays_of_looks fun _ _ => ⟨_, rfl⟩

/-- A noted fault stays noted. -/
lemma gives_noteAt {cause : SyntaxCause} {offset : Nat} {c : Context} {k k' : Cursor} {u : Unit}
    (hquiet : c.isQuiet = false) (h : (noteAt cause offset).Gives c k u k') :
    k'.current = k.current ∧ k'.faults = k.faults ++ [⟨cause, offset⟩] := by
  obtain ⟨_, _, hread, h⟩ := exists_gives_of_bind h
  cases hread
  rw [hquiet] at h
  cases h
  exact ⟨rfl, rfl⟩

/-- So a fault has been noted behind this step. -/
lemma never_noteAt (cause : SyntaxCause) (offset : Nat) :
    (noteAt cause offset).Never fun _ => True := by
  intro c k u k' hquiet hgives _ hfaults
  obtain ⟨-, hnoted⟩ := gives_noteAt hquiet hgives
  rw [hnoted] at hfaults
  exact absurd hfaults (by simp)

lemma stays_noteAt (cause : SyntaxCause) (offset : Nat) : (noteAt cause offset).Stays :=
  (never_noteAt cause offset).passes

lemma stays_requireToken : requireToken.Stays := by
  refine stays_tokenHere.bind fun token => ?_
  split
  · intro c k u k' _ hgives
    obtain ⟨_, _, -, hgives⟩ := exists_gives_of_bind hgives
    exact absurd hgives (not_gives_throw _)
  · intro c k u k' _ hgives
    obtain ⟨_, _, -, hgives⟩ := exists_gives_of_bind hgives
    exact absurd hgives (not_gives_throw _)
  · exact stays_pure ()

lemma stays_refuseOpenRegex : refuseOpenRegex.Stays := by
  refine stays_lexemeHere.bind fun l => ?_
  split
  · intro c k u k' _ hgives
    exact absurd hgives (not_gives_throw _)
  · exact stays_pure ()

/-- A step that moves on behind the current token, if the token is what is looked for. -/
lemma passes_skip_of_test {test : Parser Bool} (htest : ∀ c k, ∃ b, test.Gives c k b k) :
    (do if ← test then do { skip; return true }
        return false : Parser Bool).Passes (· = false) fun _ l _ l' => l' = l := by
  intro c k b k' _ hgives hb hfaults
  obtain ⟨found, k₁, hgives₁, hgives⟩ := exists_gives_of_bind hgives
  obtain ⟨found', htest⟩ := htest c k
  cases hgives₁.symm.trans htest
  cases found with
  | true =>
      obtain ⟨_, k₂, -, hgives⟩ := exists_gives_of_bind hgives
      cases hgives
      cases hb
  | false =>
      cases hgives
      exact ⟨hfaults, rfl⟩

lemma passes_eat (q : String) : (eat q).Passes (· = false) fun _ l _ l' => l' = l :=
  passes_skip_of_test fun _ _ => ⟨_, rfl⟩

lemma passes_eatWord (w : String) : (eatWord w).Passes (· = false) fun _ l _ l' => l' = l :=
  passes_skip_of_test fun _ _ => ⟨_, rfl⟩

end

/-! ### Trials -/

/-- A reader gives something good, or gives nothing and stays. -/
structure Parser.Offers (good : α → Prop) (r : Parser (Option α)) : Prop where
  /-- What is given is good. -/
  makes : r.Makes (∀ a ∈ ·, good a)
  /-- Where nothing is given, nothing has been passed over. -/
  passes : r.Passes (· = none) fun _ l _ l' => l' = l

section

variable {good : α → Prop} {p : Parser β}

lemma offers_none : (pure none : Parser (Option α)).Offers good :=
  ⟨makes_pure (by simp), passes_pure fun _ _ _ => rfl⟩

/-- A reader that always gives something good. -/
lemma Parser.Makes.offers {r : Parser (Option α)} (h : r.Makes fun found => ∃ a, found = some a ∧ good a) :
    r.Offers good := by
  refine ⟨fun c k found k' hgives => ?_, fun c k found k' _ hgives hnone _ => ?_⟩
  · obtain ⟨a, rfl, ha⟩ := h hgives
    simpa using ha
  · obtain ⟨a, rfl, -⟩ := h hgives
    cases hnone

lemma Parser.Stays.offers {f : β → Parser (Option α)} (hp : p.Stays)
    (h : ∀ b, (f b).Offers good) : (p >>= f).Offers good :=
  ⟨makes_bind fun b => (h b).makes, hp.bind fun b => (h b).passes⟩

/-- Where a test stays if it fails, something good is given behind one that succeeds. -/
lemma Parser.Passes.offers {p : Parser Bool} {f : Bool → Parser (Option α)}
    (hp : p.Passes (· = false) fun _ l _ l' => l' = l)
    (htrue : (f true).Makes fun found => ∃ a, found = some a ∧ good a)
    (hfalse : (f false).Offers good) : (p >>= f).Offers good := by
  refine ⟨makes_bind fun b => ?_, hp.bind_of_ne (fun b hb => ?_) hfalse.passes⟩
  · cases b with
    | true => exact htrue.offers.makes
    | false => exact hfalse.makes
  · obtain rfl : b = true := by simpa using hb
    refine Parser.Makes.never fun c k found k' hgives hnone => ?_
    obtain ⟨a, rfl, -⟩ := htrue hgives
    cases hnone

/-- A trial finds nothing and takes everything back, or it gives what the reader gives. -/
lemma gives_attempt_cases {r : Parser (Option α)} {c : Context} {k k' : Cursor} {found : Option α}
    (h : (attempt r).Gives c k found k') :
    (found = none ∧ k' = k)
      ∨ ∃ a, found = some a ∧ r.Gives { c with isQuiet := true } k (some a) k' := by
  obtain ⟨_, _, hget, h⟩ := exists_gives_of_bind h
  cases hget
  obtain ⟨found', k₁, htry, h⟩ := exists_gives_of_bind h
  cases found' with
  | none =>
      obtain ⟨_, k₂, hset, h⟩ := exists_gives_of_bind h
      cases hset
      cases h
      exact Or.inl ⟨rfl, rfl⟩
  | some a =>
      cases h
      obtain hr | ⟨f, k₂, hnone⟩ := gives_tryCatch_cases htry
      · exact Or.inr ⟨a, rfl, hr⟩
      · cases hnone

lemma offers_attempt {r : Parser (Option α)} (h : r.Makes (∀ a ∈ ·, good a)) :
    (attempt r).Offers good := by
  refine ⟨fun c k found k' hgives => ?_, fun c k found k' _ hgives hnone hfaults => ?_⟩
  · obtain ⟨rfl, -⟩ | ⟨a, rfl, hr⟩ := gives_attempt_cases hgives
    · simp
    · exact h hr
  · obtain ⟨-, rfl⟩ | ⟨a, rfl, -⟩ := gives_attempt_cases hgives
    · exact ⟨hfaults, rfl⟩
    · cases hnone

/-- Where something is offered, nothing wanted may come of it. -/
lemma Parser.Offers.bind {wanted : β → Prop} {across : LexMode → Lexeme → β → Lexeme → Prop}
    {r : Parser (Option α)} {f : Option α → Parser β} (hr : r.Offers good)
    (hsome : ∀ a, good a → (f (some a)).Never wanted) (hnone : (f none).Passes wanted across) :
    (r >>= f).Passes wanted across := by
  intro c k b k' hquiet hgives hwanted hfaults
  obtain ⟨o, k₁, hgives₁, hgives⟩ := exists_gives_of_bind hgives
  cases o with
  | some a => exact (hsome a (hr.makes hgives₁ a rfl) hquiet hgives hwanted hfaults).2.elim
  | none =>
      obtain ⟨hfaults₁, hover⟩ := hnone hquiet hgives hwanted hfaults
      obtain ⟨hfaults₀, hcurrent⟩ := hr.passes hquiet hgives₁ rfl hfaults₁
      exact ⟨hfaults₀, hcurrent ▸ hover⟩

end

end SvelteStories.Script
