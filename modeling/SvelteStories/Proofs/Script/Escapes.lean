/-
What the reader of strings makes of a string literal:

* `IsPair`: two escapes of four digits each for the halves of one character;
* `EscapeMeans`: what an escape stands for, old forms and halves of characters included;
* `Denotes`: what the text of a string literal stands for up to its closing quote;
* `denotes_readString`: the value of a string token is what its text stands for.

Escapes are described by the rules of the script language, as `escapeUnits?` states them. A half of a
character that is escaped without the other one stands for its own text, since no text can hold it.
-/
import Mathlib.Algebra.GroupWithZero.Nat
import SvelteStories.Proofs.Outcome
import SvelteStories.Proofs.Text.Boundary
import SvelteStories.Proofs.Text.Literal
import SvelteStories.Script.Lexer

namespace SvelteStories.Script

/-! ### What escapes stand for -/

/-- Behind a backslash, two escapes of four digits each give the halves of one character. -/
def IsPair (t : List Char) (c : Char) (rest : List Char) : Prop :=
  ∃ s s' high low, t = 'u' :: s ∧ hexUnit? 4 s = some ([high], '\\' :: 'u' :: s')
    ∧ hexUnit? 4 s' = some ([low], rest) ∧ unitsOfCode c.toNat = [high, low]

/-- An octal digit. -/
def IsOctalDigit (c : Char) : Prop :=
  (digitValue? 8 c).isSome

/-- A text starts with octal digits that are one escape. -/
structure IsOctal (t digits rest : List Char) : Prop where
  /-- The digits stand in front of the rest. -/
  text : t = digits ++ rest
  /-- There is one at least. -/
  ne_nil : digits ≠ []
  /-- There are three at most. -/
  length_le : digits.length ≤ 3
  /-- All of them are octal. -/
  isOctalDigit : ∀ d ∈ digits, IsOctalDigit d
  /-- Their number is below 256. -/
  lt : digitsValue 8 digits < 256
  /-- No further one could be among them. -/
  maximal : digits.length = 3 ∨ 32 ≤ digitsValue 8 digits ∨ ∀ d ∈ rest.head?, ¬ IsOctalDigit d

/-- What the escape stands for that a text starts with behind its backslash, and the text behind the
escape. -/
inductive EscapeMeans (t : List Char) : List Char → List Char → Prop
  /-- An escape that all scripts have. -/
  | standard {u rest : List Char} : escapeUnits? t = some (unitsOf u, rest) → EscapeMeans t u rest
  /-- The two halves of a character. -/
  | pair {c : Char} {rest : List Char} : IsPair t c rest → EscapeMeans t [c] rest
  /-- A half on its own, which stands for its own text. -/
  | half {n : Nat} {rest : List Char} : escapeUnits? t = some ([n], rest) → 0xD800 ≤ n →
      n ≤ 0xDFFF → (∀ c rest', ¬ IsPair t c rest') → EscapeMeans t ('\\' :: upTo t rest) rest
  /-- As many octal digits as make a number below 256, up to three of them. -/
  | octal {digits rest : List Char} : IsOctal t digits rest →
      EscapeMeans t [Char.ofNat (digitsValue 8 digits)] rest
  /-- A digit that is not octal. -/
  | digit {c : Char} {rest : List Char} : t = c :: rest → c = '8' ∨ c = '9' → EscapeMeans t [c] rest

/-- What a string literal stands for from behind its opening quote on, and the text behind its closing
quote. -/
inductive Denotes (quote : Char) : List Char → List Char → List Char → Prop
  /-- The closing quote. -/
  | close {rest : List Char} : Denotes quote (quote :: rest) [] rest
  /-- A character that stands for itself. -/
  | plain {c : Char} {t v rest : List Char} : c ≠ quote → c ≠ '\\' → c ≠ '\n' → c ≠ '\r' →
      Denotes quote t v rest → Denotes quote (c :: t) (c :: v) rest
  /-- An escape. -/
  | escape {t u t' v rest : List Char} : EscapeMeans t u t' → Denotes quote t' v rest →
      Denotes quote ('\\' :: t) (u ++ v) rest

/-! ### Digits -/

/-- A number with one more digit behind it. A character that is no digit adds nothing. -/
def addDigit (base n : Nat) (c : Char) : Nat :=
  ((digitValue? base c).map (n * base + ·)).getD n

lemma addDigit_of_some {base d : Nat} {c : Char} (h : digitValue? base c = some d) (n : Nat) :
    addDigit base n c = n * base + d := by
  rw [addDigit, h, Option.map_some, Option.getD_some]

lemma addDigit_of_none {base : Nat} {c : Char} (h : digitValue? base c = none) (n : Nat) :
    addDigit base n c = n := by
  rw [addDigit, h, Option.map_none, Option.getD_none]

lemma digitsValue_eq_foldl (base : Nat) (digits : List Char) :
    digitsValue base digits = digits.foldl (addDigit base) 0 := by
  refine congrArg (fun add => digits.foldl add 0) (funext₂ fun n c => ?_)
  rw [addDigit]
  cases digitValue? base c <;> rfl

lemma hexValue?_eq (c : Char) : hexValue? c = digitValue? 16 c := by
  have hle : ∀ d : Char, d ≤ c ↔ d.toNat ≤ c.toNat := fun d => by
    rw [Char.le_def, UInt32.le_iff_toNat_le]
    rfl
  have hge : ∀ d : Char, c ≤ d ↔ c.toNat ≤ d.toNat := fun d => by
    rw [Char.le_def, UInt32.le_iff_toNat_le]
    rfl
  have hcodes : '0'.toNat = 48 ∧ '9'.toNat = 57 ∧ 'a'.toNat = 97 ∧ 'f'.toNat = 102 ∧ 'A'.toNat = 65
      ∧ 'F'.toNat = 70 := by decide
  obtain ⟨h0, h9, ha, hf, hA, hF⟩ := hcodes
  have hsmall : ∀ n < 16, some n = (some n).filter (· < 16) := by decide
  simp only [hexValue?, digitValue?, isAsciiDigit, hle, hge, Bool.and_eq_true, decide_eq_true_eq,
    h0, h9, ha, hf, hA, hF]
  split_ifs
  · exact hsmall _ (by omega)
  · exact hsmall _ (by omega)
  · exact hsmall _ (by omega)
  · rfl

lemma isHexDigit_iff {c : Char} : isHexDigit c = true ↔ (digitValue? 16 c).isSome = true := by
  simp only [isHexDigit, digitValue?, isAsciiDigit, Bool.or_eq_true, Bool.and_eq_true,
    decide_eq_true_eq]
  split_ifs <;> simp <;> omega

lemma hexNumber?_eq (digits : List Char) :
    hexNumber? digits
      = if digits.all isHexDigit = true then some (digitsValue 16 digits) else none := by
  suffices hfold : ∀ n, digits.foldlM (fun n d => (hexValue? d).map (16 * n + ·)) n
      = if digits.all isHexDigit = true then some (digits.foldl (addDigit 16) n) else none by
    rw [digitsValue_eq_foldl]
    exact hfold 0
  induction digits with
  | nil => exact fun n => rfl
  | cons d digits ih =>
      intro n
      rw [List.foldlM_cons, hexValue?_eq, List.foldl_cons, List.all_cons]
      cases hd : digitValue? 16 d with
      | none =>
          have hother : isHexDigit d = false :=
            Bool.eq_false_iff.mpr fun hhex => by simpa [hd] using isHexDigit_iff.mp hhex
          rw [hother]
          rfl
      | some m =>
          have hhex : isHexDigit d = true := isHexDigit_iff.mpr (by simp [hd])
          rw [hhex, Bool.true_and, addDigit_of_some hd, Nat.mul_comm n]
          exact ih (16 * n + m)

/-! ### Escapes by code -/

section

variable {t rest : List Char} {n : Nat} {c : Char}

lemma digitValue?_lt {base d : Nat} (h : digitValue? base c = some d) : d < base := by
  simpa using (Option.filter_eq_some_iff.mp h).2

/-- Each digit makes a bound of the number before it a bound with one more digit. -/
lemma foldDigits_lt {base : Nat} (hbase : 0 < base) (digits : List Char) {n m : Nat} (h : n < m) :
    digits.foldl (addDigit base) n < m * base ^ digits.length := by
  induction digits generalizing n m with
  | nil => simpa using h
  | cons d digits ih =>
      have hm : n + 1 ≤ m := h
      have hnext : addDigit base n d < m * base := by
        cases hd : digitValue? base d with
        | none =>
            rw [addDigit_of_none hd]
            exact Nat.lt_of_lt_of_le h (Nat.le_mul_of_pos_right m hbase)
        | some value =>
            rw [addDigit_of_some hd]
            calc n * base + value < n * base + base := Nat.add_lt_add_left (digitValue?_lt hd) _
              _ = (n + 1) * base := (Nat.succ_mul n base).symm
              _ ≤ m * base := Nat.mul_le_mul_right base hm
      rw [List.foldl_cons, List.length_cons, Nat.pow_succ', ← Nat.mul_assoc]
      exact ih hnext

lemma digitsValue_lt {base : Nat} (hbase : 0 < base) (digits : List Char) :
    digitsValue base digits < base ^ digits.length := by
  rw [digitsValue_eq_foldl, ← Nat.one_mul (base ^ digits.length)]
  exact foldDigits_lt hbase digits Nat.one_pos

lemma digitsValue_cons_lt {base d : Nat} (hbase : 0 < base) (digits : List Char)
    (hc : digitValue? base c = some d) :
    digitsValue base (c :: digits) < (d + 1) * base ^ digits.length := by
  have hfirst : 0 * base + d < d + 1 := by omega
  rw [digitsValue_eq_foldl, List.foldl_cons, addDigit_of_some hc]
  exact foldDigits_lt hbase digits hfirst

lemma fourHex?_eq_some_iff : fourHex? t = some (n, rest) ↔ hexUnit? 4 t = some ([n], rest) := by
  rw [fourHex?.eq_def]
  split
  · rename_i d₁ d₂ d₃ d₄ behind
    have hlength : ¬ (d₁ :: d₂ :: d₃ :: d₄ :: behind).length < 4 := by simp
    rw [hexUnit?, if_neg hlength]
    show _ ↔ (hexNumber? [d₁, d₂, d₃, d₄]).map (fun n => ([n], behind)) = _
    rw [hexNumber?_eq]
    split <;> simp
  · rename_i hshort
    have hlength : t.length < 4 := by
      obtain _ | ⟨d₁, _ | ⟨d₂, _ | ⟨d₃, _ | ⟨d₄, behind⟩⟩⟩⟩ := t
      · simp
      · simp
      · simp
      · simp
      · exact absurd rfl (hshort d₁ d₂ d₃ d₄ behind)
    simp [hexUnit?, hlength]

lemma lt_of_fourHex? (h : fourHex? t = some (n, rest)) : n < 0x10000 ∧ t.head? ≠ some '{' := by
  rw [fourHex?.eq_def] at h
  split at h
  · rename_i d₁ d₂ d₃ d₄ behind
    split at h
    · rename_i hdigits
      cases h
      have hlt : digitsValue 16 [d₁, d₂, d₃, d₄] < 16 ^ 4 := digitsValue_lt (by decide) _
      refine ⟨hlt, fun hbrace => ?_⟩
      obtain rfl : d₁ = '{' := by simpa using hbrace
      exact absurd hdigits (by simp [show isHexDigit '{' = false by decide])
    · cases h
  · cases h

/-- What stands behind `u` is a code in braces, or four digits. -/
lemma unicodeEscape_eq_fourHex? (h : t.head? ≠ some '{') (hcode : unicodeEscape t = .ok (n, rest)) :
    fourHex? t = some (n, rest) := by
  rw [unicodeEscape.eq_def] at hcode
  split at hcode
  · exact absurd rfl h
  · split at hcode
    · rename_i found hfour
      cases hcode
      exact hfour
    · cases hcode

/-- A code in braces. -/
lemma bracedUnits?_append {digits : List Char} (hdigits : digits.all isHexDigit = true)
    (hne : digits ≠ []) (hle : digitsValue 16 digits ≤ 0x10FFFF) (rest : List Char) :
    bracedUnits? (digits ++ '}' :: rest) = some (unitsOfCode (digitsValue 16 digits), rest) := by
  have hplain : ∀ d ∈ digits, (d != '}') = true := by
    intro d hd
    have hhex := List.all_eq_true.mp hdigits d hd
    rw [bne_iff_ne]
    rintro rfl
    exact absurd hhex (by decide)
  have htake : (digits ++ '}' :: rest).takeWhile (· != '}') = digits := by
    rw [List.takeWhile_append_of_pos hplain]
    simp
  have hlength : digits.length ≠ (digits ++ '}' :: rest).length := by simp
  simp only [bracedUnits?, htake, hexNumber?_eq, if_pos hdigits]
  rw [if_neg (by simp [hne])]
  simp [Option.filter, hle, List.drop_append]

/-- A code behind `u` is what the escape stands for by the rules of the script language. -/
lemma escapeUnits?_of_unicodeEscape (h : unicodeEscape t = .ok (n, rest)) :
    escapeUnits? ('u' :: t) = some (unitsOfCode n, rest) ∧ n ≤ 0x10FFFF := by
  rw [unicodeEscape.eq_def] at h
  split at h
  · rename_i inside
    dsimp only at h
    split_ifs at h with hempty hlarge
    split at h
    · rename_i behind hbehind
      obtain ⟨rfl, rfl⟩ := Prod.mk.inj (Except.ok.inj h)
      have hinside := List.prefix_iff_eq_append.mp (List.takeWhile_prefix (l := inside) isHexDigit)
      rw [hbehind] at hinside
      have hbraced := bracedUnits?_append (List.all_takeWhile (p := isHexDigit) (l := inside))
        (by simpa using hempty) (by omega) behind
      rw [hinside] at hbraced
      exact ⟨hbraced, by omega⟩
    · cases h
  · split at h
    · rename_i found hfour
      cases h
      obtain ⟨hlt, hhead⟩ := lt_of_fourHex? hfour
      have hcode : unitsOfCode n = [n] := if_pos hlt
      refine ⟨?_, by omega⟩
      show (if t.head? = some '{' then bracedUnits? t.tail else hexUnit? 4 t) = _
      rw [if_neg hhead, fourHex?_eq_some_iff.mp hfour, hcode]
    · cases h

lemma toNat_ofNat (h : n.isValidChar) : (Char.ofNat n).toNat = n := by
  rw [Char.ofNat, dif_pos h]
  rfl

lemma charOf?_eq_some (h : charOf? n = some c) : c.toNat = n := by
  rw [charOf?] at h
  split at h
  · rename_i hvalid
    cases h
    simp only [Bool.or_eq_true, Bool.and_eq_true, decide_eq_true_eq] at hvalid
    exact toNat_ofNat hvalid
  · cases h

lemma charOf?_eq_none (h : charOf? n = none) (hn : n ≤ 0x10FFFF) :
    0xD800 ≤ n ∧ n ≤ 0xDFFF := by
  simp only [charOf?, Bool.or_eq_true, Bool.and_eq_true, decide_eq_true_eq, ite_eq_right_iff,
    reduceCtorEq, imp_false] at h
  omega

lemma lowSurrogate?_eq_some_iff {low : Nat} : lowSurrogate? t = some (low, rest) ↔
    ∃ s, t = '\\' :: 'u' :: s ∧ fourHex? s = some (low, rest) ∧ 0xDC00 ≤ low ∧ low ≤ 0xDFFF := by
  rw [lowSurrogate?.eq_def]
  split
  · rename_i s
    simp [Option.filter_eq_some_iff]
  · rename_i hother
    simp only [reduceCtorEq, false_iff]
    rintro ⟨s, rfl, -⟩
    exact hother s rfl

end

section

variable {t rest : List Char} {n : Nat}

/-- A code below the surrogates is a unit of its own. -/
lemma unitsOf_ofNat (h : n < 0xD800) : unitsOf [Char.ofNat n] = [n] := by
  have hcode : (Char.ofNat n).toNat = n := toNat_ofNat (.inl h)
  have hlow : n < 0x10000 := by omega
  simp [unitsOf, hcode, unitsOfCode, hlow]

/-- The two halves of a character, put together. -/
lemma unitsOfCode_halves {low : Nat} (hhigh : 0xD800 ≤ n ∧ n < 0xDC00)
    (hlow : 0xDC00 ≤ low ∧ low ≤ 0xDFFF) :
    unitsOfCode (Char.ofNat (0x10000 + (n - 0xD800) * 0x400 + (low - 0xDC00))).toNat
      = [n, low] := by
  obtain ⟨a, rfl⟩ := Nat.exists_eq_add_of_le hhigh.1
  obtain ⟨b, rfl⟩ := Nat.exists_eq_add_of_le hlow.1
  have ha : a < 0x400 := by omega
  have hb : b < 0x400 := by omega
  rw [toNat_ofNat (.inr (by omega)), unitsOfCode, if_neg (by omega)]
  have hquotient : (a * 0x400 + b) / 0x400 = a := by omega
  have hremainder : (a * 0x400 + b) % 0x400 = b := by omega
  have hrest : 0x10000 + (0xD800 + a - 0xD800) * 0x400 + (0xDC00 + b - 0xDC00) - 0x10000
      = a * 0x400 + b := by omega
  rw [hrest, hquotient, hremainder]

/-- What two halves of a character are is read off their codes. -/
lemma halves_of_unitsOfCode {c : Char} {high low : Nat} (h : unitsOfCode c.toNat = [high, low]) :
    (0xD800 ≤ high ∧ high < 0xDC00) ∧ 0xDC00 ≤ low ∧ low ≤ 0xDFFF := by
  have hvalid : c.toNat < 0xD800 ∨ 0xDFFF < c.toNat ∧ c.toNat < 0x110000 := c.valid
  rw [unitsOfCode] at h
  split at h
  · simp at h
  · simp only [List.cons.injEq, and_true] at h
    omega

/-- An escape by code: a character, two halves of one, or a half on its own. -/
lemma escapeMeans_unicodeEscape {e : Escape} (h : readEscape ('u' :: t) = .ok e) :
    EscapeMeans ('u' :: t) e.value e.rest := by
  rw [readEscape.eq_def] at h
  dsimp only at h
  obtain ⟨⟨n, behind⟩, hcode, htried⟩ := bind_eq_ok_iff.mp h
  obtain ⟨hunits, hle⟩ := escapeUnits?_of_unicodeEscape hcode
  dsimp only at htried
  split at htried
  · rename_i c hc
    cases htried
    refine .standard ?_
    rw [hunits, ← charOf?_eq_some hc]
    simp [unitsOf]
  · rename_i hnone
    obtain ⟨hlarge, hsmall⟩ := charOf?_eq_none hnone hle
    split at htried
    · rename_i low behind' hfound
      cases htried
      obtain ⟨hlow, hfour⟩ := Option.filter_eq_some_iff.mp hfound
      obtain ⟨s, rfl, hhalf, hrange⟩ := lowSurrogate?_eq_some_iff.mp hlow
      simp only [Bool.and_eq_true, decide_eq_true_eq, bne_iff_ne] at hfour
      exact .pair ⟨t, s, n, low, rfl,
        fourHex?_eq_some_iff.mp (unicodeEscape_eq_fourHex? hfour.2 hcode),
        fourHex?_eq_some_iff.mp hhalf, unitsOfCode_halves ⟨hlarge, hfour.1⟩ hrange⟩
    · rename_i hpair
      cases htried
      refine .half (n := n) (hunits.trans ?_) hlarge hsmall ?_
      · rw [unitsOfCode, if_pos (by omega)]
      · rintro c rest' ⟨s, s', high, low, htext, hhigh, hlow, hchar⟩
        obtain rfl : t = s := (List.cons.inj htext).2
        have hfour := fourHex?_eq_some_iff.mpr hhigh
        obtain ⟨-, hhead⟩ := lt_of_fourHex? hfour
        obtain ⟨rfl, rfl⟩ : n = high ∧ behind = '\\' :: 'u' :: s' := by
          simpa [unicodeEscape_eq_fourHex? hhead hcode] using hfour
        obtain ⟨⟨-, hbefore⟩, hrange⟩ := halves_of_unitsOfCode hchar
        have hsecond := lowSurrogate?_eq_some_iff.mpr
          ⟨s', rfl, fourHex?_eq_some_iff.mpr hlow, hrange⟩
        simp [hsecond, hbefore, hhead] at hpair

/-! ### Octal digits -/

/-- Taking characters while they have a property stops at the limit or before one without it. -/
lemma takeWhile_take_cases (p : Char → Bool) (most : Nat) (t : List Char) :
    ((t.take most).takeWhile p).length = most
      ∨ ∀ d ∈ (t.drop ((t.take most).takeWhile p).length).head?, p d = false := by
  induction most generalizing t with
  | zero => exact .inl (by simp)
  | succ most ih =>
      cases t with
      | nil => exact .inr (by simp)
      | cons c t =>
          rw [List.take_succ_cons]
          cases hc : p c with
          | false =>
              rw [List.takeWhile_cons_of_neg (by simp [hc])]
              exact .inr (by simpa using hc)
          | true =>
              rw [List.takeWhile_cons_of_pos hc, List.length_cons, List.drop_succ_cons]
              exact (ih t).imp_left (congrArg (· + 1))

lemma digitValue?_octal {c : Char} {d : Nat} (h : digitValue? 8 c = some d) : c.toNat = 48 + d := by
  have hlt := digitValue?_lt h
  simp only [digitValue?, isAsciiDigit, Bool.and_eq_true, decide_eq_true_eq] at h
  split_ifs at h <;> simp at h <;> omega

/-- Three octal digits make a number below 256 if the first one is below four, and two if it is not. -/
lemma octalValue_bounds {c : Char} {digits : List Char} {most : Nat}
    (hmost : most = if c.toNat < 52 then 3 else 2) (hc : IsOctalDigit c)
    (hdigits : ∀ d ∈ digits, IsOctalDigit d) (hlength : (c :: digits).length ≤ most) :
    digitsValue 8 (c :: digits) < 256
      ∧ ((c :: digits).length = most → most = 3 ∨ 32 ≤ digitsValue 8 (c :: digits)) := by
  obtain ⟨d, hd⟩ := Option.isSome_iff_exists.mp hc
  have hcode := digitValue?_octal hd
  have hlt := digitValue?_lt hd
  have hbound := digitsValue_cons_lt (by decide) digits hd
  rw [List.length_cons] at hlength ⊢
  split at hmost
  · have hpower : 8 ^ digits.length ≤ 8 ^ 2 := Nat.pow_le_pow_right (by decide) (by omega)
    refine ⟨?_, fun _ => .inl hmost⟩
    calc digitsValue 8 (c :: digits) < (d + 1) * 8 ^ digits.length := hbound
      _ ≤ 4 * 8 ^ 2 := Nat.mul_le_mul (by omega) hpower
  · have hpower : 8 ^ digits.length ≤ 8 ^ 1 := Nat.pow_le_pow_right (by decide) (by omega)
    constructor
    · calc digitsValue 8 (c :: digits) < (d + 1) * 8 ^ digits.length := hbound
        _ ≤ 8 * 8 ^ 1 := Nat.mul_le_mul (by omega) hpower
        _ ≤ 256 := by decide
    · intro hfull
      obtain ⟨c', rfl⟩ : ∃ c', digits = [c'] := List.length_eq_one_iff.mp (by omega)
      obtain ⟨d', hd'⟩ := Option.isSome_iff_exists.mp (hdigits c' (List.mem_singleton_self c'))
      have hvalue : digitsValue 8 [c, c'] = (0 * 8 + d) * 8 + d' := by
        rw [digitsValue_eq_foldl, List.foldl_cons, List.foldl_cons, List.foldl_nil,
          addDigit_of_some hd, addDigit_of_some hd']
      exact .inr (by omega)

/-- Old escapes by octal digits. -/
lemma escapeMeans_octal {c : Char} {digits : List Char} {most : Nat}
    (hmost : most = if c.toNat < 52 then 3 else 2) (hc : IsOctalDigit c)
    (hread : ((c :: t).take most).takeWhile (fun d => (digitValue? 8 d).isSome) = digits) :
    EscapeMeans (c :: t) [Char.ofNat (digitsValue 8 digits)] ((c :: t).drop digits.length) := by
  have hprefix : digits <+: c :: t := by
    rw [← hread]
    exact (List.takeWhile_prefix _).trans (List.take_prefix _ _)
  have hlength : digits.length ≤ most := by
    rw [← hread]
    exact Nat.le_trans (List.takeWhile_prefix _).length_le (List.length_take_le _ _)
  have hoctal : ∀ d ∈ digits, IsOctalDigit d := by
    rw [← hread]
    exact List.all_eq_true.mp List.all_takeWhile
  have hstop := takeWhile_take_cases (fun d => (digitValue? 8 d).isSome) most (c :: t)
  rw [hread] at hstop
  obtain ⟨more, rfl⟩ : ∃ more, digits = c :: more := by
    obtain ⟨limit, rfl⟩ : ∃ limit, most = limit + 1 :=
      Nat.exists_eq_succ_of_ne_zero (by split at hmost <;> omega)
    rw [← hread, List.take_succ_cons]
    exact ⟨_, List.takeWhile_cons_of_pos hc⟩
  obtain ⟨hsmall, hfull⟩ := octalValue_bounds hmost hc (fun d hd => hoctal d (.tail c hd)) hlength
  have hthree : most ≤ 3 := by split at hmost <;> omega
  refine .octal ⟨(List.prefix_iff_eq_append.mp hprefix).symm, List.cons_ne_nil c more,
    Nat.le_trans hlength hthree, hoctal, hsmall, ?_⟩
  obtain hall | hmaximal := hstop
  · exact (hfull hall).imp hall.trans .inl
  · exact .inr (.inr fun d hd => by simp [IsOctalDigit, hmaximal d hd])

end

/-! ### Every escape -/

lemma mem_lineTerminators_iff {c : Char} : c ∈ lineTerminators ↔ isLineBreak c = true := by
  have hsep : c = '\u2028' ↔ c.toNat = 0x2028 := Char.toNat_inj.symm
  have hpar : c = '\u2029' ↔ c.toNat = 0x2029 := Char.toNat_inj.symm
  simp [lineTerminators, isLineBreak, hsep, hpar, or_assoc]

lemma isDigit_iff {c : Char} : c.isDigit = true ↔ 48 ≤ c.toNat ∧ c.toNat ≤ 57 := by
  simp [Char.isDigit, UInt32.le_iff_toNat_le]

lemma isOctalDigit_of_lt {c : Char} (h : 48 ≤ c.toNat ∧ c.toNat < 56) : IsOctalDigit c := by
  have hdigit : isAsciiDigit c = true := by
    simp only [isAsciiDigit, Bool.and_eq_true, decide_eq_true_eq]
    omega
  have hlt : c.toNat - 48 < 8 := by omega
  simp [IsOctalDigit, digitValue?, hdigit, Option.filter, hlt]

/-- Two hexadecimal digits. -/
lemma escapeMeans_twoDigits {a b : Char} {rest : List Char}
    (hdigits : (isHexDigit a && isHexDigit b) = true) :
    EscapeMeans ('x' :: a :: b :: rest) [Char.ofNat (digitsValue 16 [a, b])] rest := by
  have hall : [a, b].all isHexDigit = true := by simpa using hdigits
  have hlt : digitsValue 16 [a, b] < 16 ^ 2 := digitsValue_lt (by decide) _
  have hlength : ¬ (a :: b :: rest).length < 2 := by simp
  refine .standard ?_
  show hexUnit? 2 (a :: b :: rest) = _
  rw [hexUnit?, if_neg hlength, unitsOf_ofNat (by omega)]
  show (hexNumber? [a, b]).map (fun n => ([n], rest)) = _
  rw [hexNumber?_eq, if_pos hall]
  rfl

/-- A line break that is escaped stands for nothing. -/
lemma escapeMeans_lineBreak {c : Char} {rest : List Char} (hbreak : isLineBreak c = true)
    (hfeed : ∀ rest', c = '\r' → rest = '\n' :: rest' → False) : EscapeMeans (c :: rest) [] rest := by
  have hmem := mem_lineTerminators_iff.mpr hbreak
  have hpair : ¬ (c = '\r' ∧ rest.head? = some '\n') := by
    rintro ⟨hc, hhead⟩
    obtain ⟨rest', hrest⟩ := List.head?_eq_some_iff.mp hhead
    exact hfeed rest' hc hrest
  have hletter : c ≠ 'u' ∧ c ≠ 'x' := by
    constructor
    all_goals
      rintro rfl
      exact absurd hbreak (by decide)
  refine .standard ?_
  simp only [escapeUnits?, if_neg hletter.1, if_neg hletter.2]
  rw [if_neg (by simpa using hpair), if_pos (by simpa using hmem)]
  rfl

/-- A character without a meaning of its own behind a backslash stands for itself. -/
lemma escapeMeans_other {c : Char} {rest : List Char}
    (hletter : ∀ d ∈ ['n', 'r', 't', 'b', 'v', 'f', 'x', 'u'], c ≠ d)
    (hbreak : isLineBreak c = false) (hoctal : ¬ IsOctalDigit c) :
    EscapeMeans (c :: rest) [c] rest := by
  by_cases hdigit : c.isDigit = true
  · have hcode : c.toNat = 56 ∨ c.toNat = 57 := by
      obtain ⟨hlow, hhigh⟩ := isDigit_iff.mp hdigit
      by_contra hother
      exact hoctal (isOctalDigit_of_lt ⟨hlow, by omega⟩)
    exact .digit rfl (hcode.imp Char.toNat_inj.mp Char.toNat_inj.mp)
  · have hreturn : c ≠ '\r' := by
      rintro rfl
      exact absurd hbreak (by decide)
    have hterminator : c ∉ lineTerminators := fun hmem => by
      simp [mem_lineTerminators_iff.mp hmem] at hbreak
    have hlookup : controlLetters.lookup c = none := by
      rw [List.lookup_eq_none_iff]
      intro p hp
      rw [bne_iff_ne]
      exact hletter p.1 (by
        simp only [controlLetters, List.mem_cons, List.not_mem_nil, or_false] at hp
        obtain rfl | rfl | rfl | rfl | rfl | rfl := hp <;> decide)
    have hu : c ≠ 'u' := hletter 'u' (by decide)
    have hx : c ≠ 'x' := hletter 'x' (by decide)
    refine .standard ?_
    simp [escapeUnits?, hu, hx, hreturn, hterminator, hdigit, hlookup, unitsOf]

/-- What an escape is read as is what it stands for. -/
theorem escapeMeans_readEscape {t : List Char} {e : Escape} (h : readEscape t = .ok e) :
    EscapeMeans t e.value e.rest := by
  rw [readEscape.eq_def] at h
  dsimp only at h
  split at h
  · cases h
  case h_9 rest =>
    split at h
    · split at h
      · rename_i hdigits
        cases h
        exact escapeMeans_twoDigits hdigits
      · cases h
    · cases h
  case h_10 => exact escapeMeans_unicodeEscape h
  case h_11 c rest hn hr ht hb hv hf hfeed hx hu =>
    split at h
    · rename_i hbreak
      cases h
      exact escapeMeans_lineBreak hbreak hfeed
    · rename_i hbreak
      split at h
      · rename_i hoctal
        cases h
        exact escapeMeans_octal rfl hoctal rfl
      · rename_i hoctal
        cases h
        exact escapeMeans_other (by simpa using ⟨hn, hr, ht, hb, hv, hf, hx, hu⟩)
          (by simpa using hbreak) hoctal
  all_goals
    cases h
    exact .standard rfl

/-! ### At most one meaning -/

section

variable {t u u' rest rest' digits digits' : List Char} {n : Nat} {c c' : Char}

lemma unitsOf_ne_surrogate (hlow : 0xD800 ≤ n) (hhigh : n ≤ 0xDFFF) : unitsOf u ≠ [n] := by
  intro h
  cases u with
  | nil => cases h
  | cons c u =>
      have hvalid : c.toNat < 0xD800 ∨ 0xDFFF < c.toNat ∧ c.toNat < 0x110000 := c.valid
      rw [unitsOf_cons, unitsOfCode] at h
      split at h
      · obtain ⟨hcode, -⟩ : c.toNat = n ∧ unitsOf u = [] := by simpa using h
        omega
      · simp at h

/-- The first of two halves is an escape of its own by the rules. -/
lemma IsPair.escapeUnits? (h : IsPair t c rest) :
    ∃ s n behind, t = 'u' :: s ∧ escapeUnits? t = some ([n], behind) ∧ 0xD800 ≤ n ∧ n ≤ 0xDFFF := by
  obtain ⟨s, s', high, low, rfl, hhigh, -, hchar⟩ := h
  obtain ⟨-, hhead⟩ := lt_of_fourHex? (fourHex?_eq_some_iff.mpr hhigh)
  obtain ⟨⟨hlow, hlt⟩, -⟩ := halves_of_unitsOfCode hchar
  exact ⟨s, high, _, rfl, (if_neg hhead).trans hhigh, hlow, by omega⟩

lemma IsPair.unique (h : IsPair t c rest) (h' : IsPair t c' rest') : c = c' ∧ rest = rest' := by
  obtain ⟨s, s₁, high, low, rfl, hhigh, hlow, hchar⟩ := h
  obtain ⟨s', s₁', high', low', heq, hhigh', hlow', hchar'⟩ := h'
  obtain rfl : s = s' := (List.cons.inj heq).2
  obtain ⟨rfl, rfl⟩ : high = high' ∧ s₁ = s₁' := by simpa [hhigh] using hhigh'
  obtain ⟨rfl, rfl⟩ : low = low' ∧ rest = rest' := by simpa [hlow] using hlow'
  have hunits : unitsOfCode c.toNat ++ [] = unitsOfCode c'.toNat ++ [] := by rw [hchar, hchar']
  exact ⟨(unitsOfCode_append_inj hunits).1, rfl⟩

lemma escapeUnits?_of_digit (hc : c.isDigit = true) (t : List Char) :
    escapeUnits? (c :: t)
      = if c = '0' && !t.head?.any Char.isDigit then some ([0], t) else none := by
  obtain ⟨hlow, hhigh⟩ := isDigit_iff.mp hc
  have hne : ∀ d : Char, d.toNat < 48 ∨ 57 < d.toNat → c ≠ d := by
    rintro d hd rfl
    omega
  have hterminator : c ∉ lineTerminators := by
    intro hmem
    have hd : ∀ d ∈ lineTerminators, d.toNat < 48 ∨ 57 < d.toNat := by decide
    exact hne c (hd c hmem) rfl
  rw [escapeUnits?, if_neg (hne 'u' (by decide)), if_neg (hne 'x' (by decide)),
    if_neg (by simp [hne '\r' (by decide)]), if_neg (by simpa using hterminator), if_pos hc]

lemma IsOctalDigit.toNat_bounds (h : IsOctalDigit c) : 48 ≤ c.toNat ∧ c.toNat < 56 := by
  obtain ⟨d, hd⟩ := Option.isSome_iff_exists.mp h
  have hcode := digitValue?_octal hd
  have hlt := digitValue?_lt hd
  omega

lemma IsOctalDigit.isDigit (h : IsOctalDigit c) : c.isDigit = true := by
  obtain ⟨hlow, hhigh⟩ := h.toNat_bounds
  exact isDigit_iff.mpr ⟨hlow, by omega⟩

lemma le_foldDigits {base : Nat} (hbase : 0 < base) (digits : List Char) (n : Nat) :
    n ≤ digits.foldl (addDigit base) n := by
  induction digits generalizing n with
  | nil => exact Nat.le_refl n
  | cons d digits ih =>
      refine Nat.le_trans ?_ (ih _)
      cases hd : digitValue? base d with
      | none => exact Nat.le_of_eq (addDigit_of_none hd n).symm
      | some value =>
          rw [addDigit_of_some hd]
          exact Nat.le_trans (Nat.le_mul_of_pos_right n hbase) (Nat.le_add_right _ _)

/-- Digits of one escape are as many as those of any other one. -/
lemma IsOctal.length_le_length (h : IsOctal t digits rest) (h' : IsOctal t digits' rest') :
    digits'.length ≤ digits.length := by
  by_contra hlt
  obtain ⟨more, hmore⟩ : digits <+: digits' :=
    List.prefix_of_prefix_length_le ⟨rest, h.text.symm⟩ ⟨rest', h'.text.symm⟩ (by omega)
  obtain ⟨d, more, rfl⟩ : ∃ d more', more = d :: more' := by
    refine List.exists_cons_of_ne_nil fun hnil => hlt ?_
    simp [← hmore, hnil]
  have hd : IsOctalDigit d := h'.isOctalDigit d (by simp [← hmore])
  obtain hthree | hlarge | hstop := h.maximal
  · exact absurd h'.length_le (by omega)
  · obtain ⟨d', hd'⟩ := Option.isSome_iff_exists.mp hd
    have hvalue : digitsValue 8 digits * 8 + d' ≤ digitsValue 8 digits' := by
      rw [← hmore, digitsValue_eq_foldl, digitsValue_eq_foldl, List.foldl_append, List.foldl_cons,
        addDigit_of_some hd']
      exact le_foldDigits (by decide) more _
    exact absurd h'.lt (by omega)
  · have hrest : rest = d :: (more ++ rest') := by
      have htext := h.text.symm.trans h'.text
      rw [← hmore, List.append_assoc] at htext
      exact List.append_cancel_left htext
    exact hstop d (by simp [hrest]) hd

lemma IsOctal.unique (h : IsOctal t digits rest) (h' : IsOctal t digits' rest') :
    digits = digits' ∧ rest = rest' :=
  List.append_inj (h.text.symm.trans h'.text)
    (Nat.le_antisymm (h'.length_le_length h) (h.length_le_length h'))

/-- The first octal digit. -/
lemma IsOctal.exists_cons (h : IsOctal t digits rest) :
    ∃ d more, digits = d :: more ∧ t = d :: (more ++ rest) ∧ IsOctalDigit d := by
  obtain ⟨d, more, rfl⟩ := List.exists_cons_of_ne_nil h.ne_nil
  exact ⟨d, more, rfl, h.text, h.isOctalDigit d List.mem_cons_self⟩

/-- Among octal digits, the rules only know a zero on its own. -/
lemma IsOctal.eq_of_escapeUnits? {units : List Nat} (h : IsOctal t digits rest)
    (hunits : escapeUnits? t = some (units, rest')) :
    units = [0] ∧ digits = ['0'] ∧ rest = rest' := by
  obtain ⟨d, more, rfl, rfl, hd⟩ := h.exists_cons
  rw [escapeUnits?_of_digit hd.isDigit] at hunits
  split_ifs at hunits with hzero
  · cases hunits
    obtain ⟨rfl, hnext⟩ : d = '0' ∧ (more ++ rest).head?.any Char.isDigit = false := by
      simpa using hzero
    cases more with
    | nil => exact ⟨rfl, rfl, rfl⟩
    | cons d' more =>
        have hd' : d'.isDigit = true := (h.isOctalDigit d' (by simp)).isDigit
        simp [hd'] at hnext

/-- Digits that are not octal have no meaning by the rules. -/
lemma escapeUnits?_of_large_digit (hc : c = '8' ∨ c = '9') (t : List Char) :
    escapeUnits? (c :: t) = none := by
  obtain rfl | rfl := hc <;> exact escapeUnits?_of_digit (by decide) t

lemma not_isOctalDigit_of_large (hc : c = '8' ∨ c = '9') : ¬ IsOctalDigit c := by
  intro h
  obtain rfl | rfl := hc <;> exact absurd h.toNat_bounds (by decide)

/-- What has a meaning by the rules that is a text has no other one. -/
lemma EscapeMeans.eq_of_standard (hunits : escapeUnits? t = some (unitsOf u, rest))
    (h : EscapeMeans t u' rest') : u = u' ∧ rest = rest' := by
  cases h with
  | standard h =>
      obtain ⟨hsame, rfl⟩ : unitsOf u = unitsOf u' ∧ rest = rest' := by
        simpa [hunits] using h
      exact ⟨unitsOf_injective hsame, rfl⟩
  | pair h =>
      obtain ⟨s, n, behind, -, hhalf, hlow, hhigh⟩ := h.escapeUnits?
      obtain ⟨hsame, -⟩ : unitsOf u = [n] ∧ rest = behind := by simpa [hunits] using hhalf
      exact absurd hsame (unitsOf_ne_surrogate hlow hhigh)
  | @half n _ hhalf hlow hhigh _ =>
      obtain ⟨hsame, -⟩ : unitsOf u = [n] ∧ rest = rest' := by simpa [hunits] using hhalf
      exact absurd hsame (unitsOf_ne_surrogate hlow hhigh)
  | octal h =>
      obtain ⟨hzero, rfl, rfl⟩ := h.eq_of_escapeUnits? hunits
      exact ⟨unitsOf_injective hzero, rfl⟩
  | digit htext hdigit =>
      rw [htext, escapeUnits?_of_large_digit hdigit] at hunits
      cases hunits

/-- What is half of a character by the rules is read with the other half, or on its own. -/
lemma EscapeMeans.cases_of_surrogate (hunits : escapeUnits? t = some ([n], rest'))
    (hlow : 0xD800 ≤ n) (hhigh : n ≤ 0xDFFF) (h : EscapeMeans t u rest) :
    (∃ c, IsPair t c rest ∧ u = [c])
      ∨ (∀ c behind, ¬ IsPair t c behind) ∧ u = '\\' :: upTo t rest' ∧ rest = rest' := by
  cases h with
  | standard h =>
      obtain ⟨hsame, -⟩ : unitsOf u = [n] ∧ rest = rest' := by simpa [h] using hunits
      exact absurd hsame (unitsOf_ne_surrogate hlow hhigh)
  | pair h => exact .inl ⟨_, h, rfl⟩
  | @half n' _ h _ _ halone =>
      obtain ⟨-, rfl⟩ : n' = n ∧ rest = rest' := by simpa [h] using hunits
      exact .inr ⟨halone, rfl, rfl⟩
  | octal h =>
      obtain ⟨hzero, -⟩ := h.eq_of_escapeUnits? hunits
      obtain rfl : n = 0 := by simpa using hzero
      omega
  | digit htext hdigit =>
      rw [htext, escapeUnits?_of_large_digit hdigit] at hunits
      cases hunits

/-- An escape stands for one thing. -/
theorem EscapeMeans.unique (h : EscapeMeans t u rest) (h' : EscapeMeans t u' rest') :
    u = u' ∧ rest = rest' := by
  cases h with
  | standard hunits => exact eq_of_standard hunits h'
  | pair hpair =>
      obtain ⟨s, n, behind, -, hunits, hlow, hhigh⟩ := hpair.escapeUnits?
      obtain ⟨c, hpair', rfl⟩ | ⟨halone, -⟩ := cases_of_surrogate hunits hlow hhigh h'
      · obtain ⟨rfl, rfl⟩ := hpair.unique hpair'
        exact ⟨rfl, rfl⟩
      · exact absurd hpair (halone _ _)
  | half hunits hlow hhigh halone =>
      obtain ⟨c, hpair, -⟩ | ⟨-, rfl, rfl⟩ := cases_of_surrogate hunits hlow hhigh h'
      · exact absurd hpair (halone _ _)
      · exact ⟨rfl, rfl⟩
  | octal hoctal =>
      obtain ⟨d, more, -, htext, hd⟩ := hoctal.exists_cons
      cases h' with
      | standard hunits => exact (eq_of_standard hunits (.octal hoctal)).imp Eq.symm Eq.symm
      | pair hpair =>
          obtain ⟨s, n, behind, htext', -⟩ := hpair.escapeUnits?
          obtain rfl := (List.cons.inj (htext.symm.trans htext')).1
          exact absurd hd.toNat_bounds (by decide)
      | half hunits hlow =>
          obtain ⟨hzero, -⟩ := hoctal.eq_of_escapeUnits? hunits
          obtain rfl : _ = 0 := (List.cons.inj hzero).1
          omega
      | octal hoctal' =>
          obtain ⟨rfl, rfl⟩ := hoctal.unique hoctal'
          exact ⟨rfl, rfl⟩
      | digit htext' hdigit =>
          obtain rfl := (List.cons.inj (htext.symm.trans htext')).1
          exact absurd hd (not_isOctalDigit_of_large hdigit)
  | digit htext hdigit =>
      subst htext
      have hunits := escapeUnits?_of_large_digit hdigit rest
      cases h' with
      | standard hunits' => cases hunits.symm.trans hunits'
      | pair hpair =>
          obtain ⟨s, n, behind, -, hunits', -⟩ := hpair.escapeUnits?
          cases hunits.symm.trans hunits'
      | half hunits' => cases hunits.symm.trans hunits'
      | octal hoctal =>
          obtain ⟨d, more, -, htext, hd⟩ := hoctal.exists_cons
          obtain rfl := (List.cons.inj htext).1
          exact absurd hd (not_isOctalDigit_of_large hdigit)
      | digit htext _ =>
          obtain ⟨rfl, rfl⟩ := List.cons.inj htext
          exact ⟨rfl, rfl⟩

end

/-! ### String literals -/

section

variable {s : Strictness} {quote : Char} {whole t rest : List Char} {v raw : String}

/-- A string read without faults stands for what its text stands for. -/
theorem denotes_readStringFrom {fuel offset : Nat} {value : List Char} {faults : List SyntaxFault}
    (h : readStringFrom s quote whole fuel offset value faults t = ⟨.string v raw, rest, []⟩) :
    ∃ v', Denotes quote t v' rest ∧ v = String.ofList (value.reverse ++ v') := by
  induction fuel generalizing offset value faults t with
  | zero => cases h
  | succ fuel ih =>
      rw [readStringFrom.eq_def] at h
      dsimp only at h
      split at h
      · -- the text ends inside
        simp at h
      · rename_i escaped
        split at h
        · cases h
        · rename_i e he
          obtain ⟨v', hrest, rfl⟩ := ih h
          exact ⟨e.value ++ v', .escape (escapeMeans_readEscape he) hrest, by simp⟩
      · rename_i c behind hslash
        split_ifs at h with hquote hbreak
        · obtain ⟨hv, rfl⟩ : Token.string (String.ofList value.reverse)
              (String.ofList (upTo whole behind)) = .string v raw ∧ behind = rest := by
            simp only [Scanned.mk.injEq] at h
            exact ⟨h.1, h.2.1⟩
          cases hv
          exact ⟨[], hquote ▸ .close, by simp⟩
        · simp at h
        · obtain ⟨v', hrest, rfl⟩ := ih h
          simp only [Bool.or_eq_true, decide_eq_true_eq, not_or] at hbreak
          exact ⟨c :: v', .plain hquote hslash hbreak.1 hbreak.2 hrest, by simp⟩

/-- A string token that is read without faults stands for what its text stands for behind its opening
quote. -/
theorem denotes_readString (h : readString s quote (quote :: t) = ⟨.string v raw, rest, []⟩) :
    ∃ value, Denotes quote t value rest ∧ v = String.ofList value :=
  denotes_readStringFrom h

/-- A string literal stands for one text and ends in one place. -/
theorem Denotes.unique {u u' rest' : List Char} (hquote : quote ≠ '\\')
    (h : Denotes quote t u rest) (h' : Denotes quote t u' rest') : u = u' ∧ rest = rest' := by
  induction h generalizing u' with
  | close =>
      cases h' with
      | close => exact ⟨rfl, rfl⟩
      | plain hne => exact absurd rfl hne
      | escape => exact absurd rfl hquote
  | @plain c t v rest hne hslash _ _ _ ih =>
      cases h' with
      | close => exact absurd rfl hne
      | plain _ _ _ _ h' => exact (ih h').imp (congrArg (c :: ·)) id
      | escape => exact absurd rfl hslash
  | @escape t u t₁ v rest hmeans _ ih =>
      cases h' with
      | close => exact absurd rfl hquote
      | plain _ hslash => exact absurd rfl hslash
      | escape hmeans' h' =>
          obtain ⟨rfl, rfl⟩ := hmeans.unique hmeans'
          exact (ih h').imp (congrArg (u ++ ·)) id

end

end SvelteStories.Script
