/-
Texts as sequences of tokens:

* `Cursor.Shows`: the tokens that a cursor goes over from where it stands;
* `Spells`: a text is made of some tokens with gaps between them, and ends behind the last one;
* `Spells.shows`: so a cursor at the beginning of the text goes over these tokens.
-/
import SvelteStories.Proofs.Script.Readers
import SvelteStories.Proofs.Script.Strings
import SvelteStories.Proofs.Script.Words

namespace SvelteStories.Script

/-! ### Tokens ahead -/

/-- A cursor goes over these tokens from its current one on, and nothing is wrong behind any of
them. -/
def Cursor.Shows (c : Context) : List Token → Cursor → Prop
  | [], _ => True
  | token :: tokens, k =>
    k.current.token = token ∧ (k.moved c).faults = k.faults ∧ (k.moved c).Shows c tokens

section

variable {c : Context} {k : Cursor} {a : Token} {tokens : List Token}

lemma Cursor.Shows.token_eq (h : k.Shows c (a :: tokens)) : k.current.token = a := h.1

lemma Cursor.Shows.faults_moved (h : k.Shows c (a :: tokens)) : (k.moved c).faults = k.faults :=
  h.2.1

lemma Cursor.Shows.moved (h : k.Shows c (a :: tokens)) : (k.moved c).Shows c tokens := h.2.2

/-- The text behind the current token is all that the next one comes from. -/
lemma Cursor.current_moved (c : Context) (k : Cursor) :
    (k.moved c).current = lexeme c.lexMode k.current.token.trailing false k.current.span.stop
      k.current.after := rfl

lemma Cursor.faults_moved (h : (k.moved c).current.faults = []) : (k.moved c).faults = k.faults := by
  rw [moved] at h ⊢
  simp only at h ⊢
  rw [h, List.append_nil, ite_self]

end

/-! ### Spelled tokens -/

/-- A text of these tokens, the last of which is the end of the text. -/
inductive Spells (mode : LexMode) : List Char → List Token → Prop
  /-- Blanks at the end. -/
  | stop {gap : List Char} : (∀ c ∈ gap, isScriptBlank c = true) → Spells mode gap [.stop]
  /-- A token behind a gap. -/
  | token {gap w rest : List Char} {first : Char} {token : Token} {tokens : List Token} :
      IsGap isLineBreak gap → StartsToken first →
      readToken mode (first :: (w ++ rest)) = ⟨token, rest, []⟩ → (∀ f, token ≠ .fault f) →
      token ≠ .stop → Spells mode rest tokens →
      Spells mode (gap ++ first :: (w ++ rest)) (token :: tokens)

section

variable {mode : LexMode} {gap rest t w : List Char} {tokens : List Token} {c d : Char}

lemma skipGap_blanks (h : ∀ c ∈ gap, isScriptBlank c = true) (isModule : Bool) (before : Trailing)
    (fuel : Nat) (hfuel : gap.length < fuel) (newline : Bool) (offset : Nat) :
    ∃ newline', skipGap isModule before fuel newline offset gap
      = ⟨offset + byteLength gap, [], newline', [], []⟩ := by
  obtain ⟨fuel, rfl⟩ := Nat.exists_eq_succ_of_ne_zero (Nat.ne_of_gt (Nat.zero_lt_of_lt hfuel))
  cases gap with
  | nil => exact ⟨newline, rfl⟩
  | cons c gap =>
      rw [List.length_cons] at hfuel
      obtain ⟨fuel, rfl⟩ := Nat.exists_eq_succ_of_ne_zero (show fuel ≠ 0 by omega)
      have hsplit : splitBlanks (c :: gap) = (c :: gap, []) := by
        rw [splitBlanks, List.takeWhile_eq_self_iff.mpr h, List.dropWhile_eq_nil_iff.mpr h]
      rw [skipGap_blank (h c List.mem_cons_self), hsplit]
      exact ⟨_, rfl⟩

/-- The text ends behind blanks. -/
lemma lexeme_blanks (h : ∀ c ∈ gap, isScriptBlank c = true) (mode : LexMode) (before : Trailing)
    (newline : Bool) (offset : Nat) :
    ∃ newline', lexeme mode before newline offset gap
      = ⟨.stop, ⟨offset + byteLength gap, offset + byteLength gap⟩, newline', [], [], [], []⟩ := by
  obtain ⟨newline', hskip⟩ := skipGap_blanks h mode.isModule before (gap.length + 1) (Nat.lt_succ_self _)
    newline offset
  refine ⟨newline', ?_⟩
  rw [lexeme, hskip]
  rfl

/-- Nothing is wrong at the beginning of a text of tokens. -/
lemma Spells.faults (h : Spells mode t tokens) (before : Trailing) (newline : Bool) (offset : Nat) :
    (lexeme mode before newline offset t).faults = [] := by
  cases h with
  | stop hgap =>
      obtain ⟨newline', hlexeme⟩ := lexeme_blanks hgap mode before newline offset
      rw [hlexeme]
  | token hgap hfirst htoken hfault hstop _ =>
      obtain ⟨newline', comments, hlexeme⟩ := lexeme_append (fun _ h => h) hgap hfirst htoken hfault
        hstop before newline offset
      rw [hlexeme]

/-- A cursor at the beginning of a text of tokens goes over these tokens. -/
lemma Spells.shows {context : Context} (h : Spells context.lexMode t tokens) {k : Cursor}
    {before : Trailing} {newline : Bool} {offset : Nat}
    (hk : k.current = lexeme context.lexMode before newline offset t) : k.Shows context tokens := by
  induction h generalizing k before newline offset with
  | @stop gap hgap =>
      obtain ⟨newline', hlexeme⟩ := lexeme_blanks hgap context.lexMode before newline offset
      refine ⟨by rw [hk, hlexeme], Cursor.faults_moved ?_, trivial⟩
      rw [Cursor.current_moved, hk, hlexeme]
      rfl
  | @token gap w rest first token tokens hgap hfirst htoken hfault hstop hrest ih =>
      obtain ⟨newline', comments, hlexeme⟩ := lexeme_append (fun _ h => h) hgap hfirst htoken hfault
        hstop before newline offset
      have hafter : k.current.after = rest := by rw [hk, hlexeme]
      have hnext := k.current_moved context
      rw [hafter] at hnext
      refine ⟨by rw [hk, hlexeme], Cursor.faults_moved ?_, ih hnext⟩
      rw [hnext]
      exact hrest.faults _ _ _

/-- A blank more at the beginning makes no difference. -/
lemma Spells.blank (hc : isScriptBlank c = true) (h : Spells mode t tokens) :
    Spells mode (c :: t) tokens := by
  cases h with
  | stop hgap => exact .stop (List.forall_mem_cons.mpr ⟨hc, hgap⟩)
  | token hgap hfirst htoken hfault hstop hrest =>
      exact .token (.blank hc hgap) hfirst htoken hfault hstop hrest

/-! ### Kinds of tokens -/

/-- An identifier, behind which something stands that belongs to none. -/
lemma Spells.word (hgap : IsGap isLineBreak gap) (hw : IsIdentifier w)
    (hd : isIdentifierPart d = false) (hslash : d ≠ '\\') (h : Spells mode (d :: rest) tokens) :
    Spells mode (gap ++ (w ++ d :: rest)) (.word (String.ofList w) :: tokens) := by
  have htoken := readToken_identifier hw hd hslash mode rest
  obtain ⟨first, w, rfl, hfirst, -⟩ := hw
  exact .token hgap (identifierStart_classes hfirst).2.1 htoken (by simp) (by simp) h

/-- A quoted text. -/
lemma Spells.string (hgap : IsGap isLineBreak gap) (value : String) (h : Spells mode rest tokens) :
    Spells mode (gap ++ (quote value.toList ++ rest))
      (.string value (String.ofList (quote value.toList)) :: tokens) := by
  have htoken := readToken_quote mode value.toList rest
  rw [String.ofList_toList] at htoken
  exact .token hgap ⟨by decide, by decide, by decide, by decide⟩ htoken (by simp) (by simp) h

/-- Punctuation of one character. -/
lemma Spells.mark (hgap : IsGap isLineBreak gap) (hc : StartsToken c)
    (htoken : readToken mode (c :: rest) = ⟨.punctuator (String.singleton c), rest, []⟩)
    (h : Spells mode rest tokens) :
    Spells mode (gap ++ c :: rest) (.punctuator (String.singleton c) :: tokens) :=
  .token (w := []) hgap hc htoken (by simp) (by simp) h

end

end SvelteStories.Script
