/-
String literals as the printer writes them:

* `escape_cases`: a character stands for itself, or for an escape that is read as the character;
* `readToken_quote`: a quoted text is read as a string of this text, up to its closing quote.
-/
import Mathlib.Tactic.Common
import SvelteStories.Proofs.Script.Gaps
import SvelteStories.Text.Quoted

namespace SvelteStories.Script

/-! ### Escapes -/

/-- A control character is read from its code. -/
lemma unicodeEscape_hexDigits {n : Nat} (h : n < 0x20) (t : List Char) :
    unicodeEscape ('0' :: '0' :: hexDigit (n / 16) :: hexDigit (n % 16) :: t) = .ok (n, t) := by
  have hcodes : ∀ n < 0x20,
      ['0', '0', hexDigit (n / 16), hexDigit (n % 16)].all isHexDigit = true
        ∧ digitsValue 16 ['0', '0', hexDigit (n / 16), hexDigit (n % 16)] = n := by
    decide
  obtain ⟨hdigits, hvalue⟩ := hcodes n h
  have hfour : fourHex? ('0' :: '0' :: hexDigit (n / 16) :: hexDigit (n % 16) :: t) = some (n, t) := by
    rw [fourHex?, if_pos hdigits, hvalue]
  rw [unicodeEscape, hfour]
  -- a digit is no brace
  simp

/-- In a quoted text, a character stands for itself, or there is an escape in its place. -/
lemma escape_cases (c : Char) :
    (escape c = [c] ∧ c ≠ '"' ∧ c ≠ '\\' ∧ c ≠ '\n' ∧ c ≠ '\r')
      ∨ ∃ escaped, escape c = '\\' :: escaped
        ∧ ∀ t, readEscape (escaped ++ t) = .ok ⟨[c], t, false⟩ := by
  by_cases hquote : c = '"'
  · subst hquote
    exact Or.inr ⟨['"'], rfl, fun _ => rfl⟩
  by_cases hslash : c = '\\'
  · subst hslash
    exact Or.inr ⟨['\\'], rfl, fun _ => rfl⟩
  by_cases hfeed : c = '\n'
  · subst hfeed
    exact Or.inr ⟨['n'], rfl, fun _ => rfl⟩
  by_cases hreturn : c = '\r'
  · subst hreturn
    exact Or.inr ⟨['r'], rfl, fun _ => rfl⟩
  by_cases htab : c = '\t'
  · subst htab
    exact Or.inr ⟨['t'], rfl, fun _ => rfl⟩
  by_cases hback : c = '\x08'
  · subst hback
    exact Or.inr ⟨['b'], rfl, fun _ => rfl⟩
  by_cases hform : c = '\x0c'
  · subst hform
    exact Or.inr ⟨['f'], rfl, fun _ => rfl⟩
  by_cases hcontrol : c.toNat < 0x20
  · refine Or.inr ⟨['u', '0', '0', hexDigit (c.toNat / 16), hexDigit (c.toNat % 16)],
      by simp only [escape, hquote, hslash, hfeed, hreturn, htab, hback, hform, hcontrol, if_true,
        if_false], fun t => ?_⟩
    have hcode : charOf? c.toNat = some c := by
      rw [charOf?, if_pos (by simp; omega), Char.ofNat_toNat]
    change (unicodeEscape ('0' :: '0' :: _ :: _ :: t) >>= _) = _
    rw [unicodeEscape_hexDigits hcontrol]
    simp only [bind, Except.bind, hcode]
  · refine Or.inl ⟨?_, hquote, hslash, hfeed, hreturn⟩
    simp only [escape, hquote, hslash, hfeed, hreturn, htab, hback, hform, hcontrol, if_false]

/-! ### Strings -/

section

variable {s : Strictness}

lemma readStringFrom_escape (whole : List Char) (c : Char) (t : List Char) (fuel offset : Nat)
    (value : List Char) :
    ∃ offset', readStringFrom s '"' whole (fuel + 1) offset value [] (escape c ++ t)
      = readStringFrom s '"' whole fuel offset' (c :: value) [] t := by
  obtain ⟨hescape, hquote, hslash, hfeed, hreturn⟩ | ⟨escaped, hescape, hread⟩ := escape_cases c
  · refine ⟨offset + c.utf8Size, ?_⟩
    rw [hescape, List.singleton_append, readStringFrom]
    · simp [hquote, hfeed, hreturn]
    · exact hslash
  · refine ⟨offset + byteLength (upTo ('\\' :: (escaped ++ t)) t), ?_⟩
    rw [hescape, List.cons_append, readStringFrom, hread]
    rfl

/-- A quoted text is read up to its closing quote. -/
lemma readStringFrom_quote (whole rest t : List Char) (fuel : Nat) (hfuel : t.length < fuel)
    (offset : Nat) (value : List Char) :
    readStringFrom s '"' whole fuel offset value [] (t.flatMap escape ++ '"' :: rest)
      = ⟨.string (String.ofList (value.reverse ++ t)) (String.ofList (upTo whole rest)), rest, []⟩ := by
  induction t generalizing fuel offset value with
  | nil =>
      obtain ⟨fuel, rfl⟩ := Nat.exists_eq_succ_of_ne_zero (Nat.ne_of_gt hfuel)
      rw [List.flatMap_nil, List.nil_append, List.append_nil]
      rfl
  | cons c t ih =>
      obtain ⟨fuel, rfl⟩ := Nat.exists_eq_succ_of_ne_zero (Nat.ne_of_gt (Nat.zero_lt_of_lt hfuel))
      rw [List.length_cons] at hfuel
      obtain ⟨offset', hstep⟩ := readStringFrom_escape (s := s) whole c
        (t.flatMap escape ++ '"' :: rest) fuel offset value
      rw [List.flatMap_cons, List.append_assoc, hstep, ih fuel (by omega)]
      simp

lemma length_le_flatMap_escape (t : List Char) : t.length ≤ (t.flatMap escape).length := by
  induction t with
  | nil => exact Nat.le_refl 0
  | cons c t ih =>
      have hescape : 1 ≤ (escape c).length := by
        obtain ⟨hescape, -⟩ | ⟨escaped, hescape, -⟩ := escape_cases c <;> simp [hescape]
      rw [List.flatMap_cons, List.length_append, List.length_cons]
      omega

/-- A quoted text is read as a string of this text, wherever it stands. -/
theorem readToken_quote (mode : LexMode) (t rest : List Char) :
    readToken mode (quote t ++ rest)
      = ⟨.string (String.ofList t) (String.ofList (quote t)), rest, []⟩ := by
  have hwhole : quote t ++ rest = '"' :: (t.flatMap escape ++ '"' :: rest) := by
    simp [quote]
  have hfuel : t.length < (quote t ++ rest).length + 1 := by
    have hlength := length_le_flatMap_escape t
    rw [hwhole, List.length_cons, List.length_append]
    omega
  have hread := readStringFrom_quote (s := mode.strictness) (quote t ++ rest) rest t _ hfuel 1 []
  rw [upTo_append, hwhole] at hread
  rw [hwhole, readToken, if_pos (by simp), readString]
  exact hread

end

end SvelteStories.Script
