/-
What string literals denote:

* `unitsOfCode`, `unitsOf`: the code units of a code point and of a text in UTF-16;
* `unitsOf_injective`: different texts have different code units;
* `escapeUnits?`, `bodyUnits?`, `literalUnits?`: the code units of the string that a literal denotes,
  by the rules of the script language. Escapes of the old form, which strict code has not, denote
  nothing;
* `literalUnits?_quote`: a quoted text denotes its own code units;
* `literalUnits?_quote_eq_iff`: it denotes this text and no other.
-/
import Mathlib.Tactic.Common
import SvelteStories.Text.Quoted

namespace SvelteStories

/-! ### Code units -/

/-- The code units of a code point. -/
def unitsOfCode (n : Nat) : List Nat :=
  if n < 0x10000 then [n]
  else [0xD800 + (n - 0x10000) / 0x400, 0xDC00 + (n - 0x10000) % 0x400]

/-- The code units of a text. -/
def unitsOf (t : List Char) : List Nat :=
  t.flatMap fun c => unitsOfCode c.toNat

lemma unitsOf_cons (c : Char) (t : List Char) :
    unitsOf (c :: t) = unitsOfCode c.toNat ++ unitsOf t :=
  List.flatMap_cons

/-- No code point of a character is a surrogate, so the units of one character are read off the front
of a text. -/
lemma unitsOfCode_append_inj {c d : Char} {u v : List Nat}
    (h : unitsOfCode c.toNat ++ u = unitsOfCode d.toNat ++ v) : c = d ∧ u = v := by
  have hc : c.toNat < 0xD800 ∨ 0xDFFF < c.toNat ∧ c.toNat < 0x110000 := c.valid
  have hd : d.toNat < 0xD800 ∨ 0xDFFF < d.toNat ∧ d.toNat < 0x110000 := d.valid
  have hcode : c.toNat = d.toNat → c = d := fun h => Char.toNat_inj.mp h
  by_cases hlow : c.toNat < 0x10000 <;> by_cases hlow' : d.toNat < 0x10000 <;>
    simp only [unitsOfCode, hlow, hlow', if_true, if_false, List.cons_append, List.nil_append,
      List.cons.injEq] at h
  · exact ⟨hcode h.1, h.2⟩
  · omega
  · omega
  · exact ⟨hcode (by omega), h.2.2⟩

/-- Different texts have different code units. -/
theorem unitsOf_injective : Function.Injective unitsOf := by
  intro t
  induction t with
  | nil =>
      intro t' h
      cases t' with
      | nil => rfl
      | cons d t' =>
          rw [unitsOf_cons] at h
          by_cases hlow : d.toNat < 0x10000 <;> simp [unitsOf, unitsOfCode, hlow] at h
  | cons c t ih =>
      intro t' h
      cases t' with
      | nil =>
          rw [unitsOf_cons] at h
          by_cases hlow : c.toNat < 0x10000 <;> simp [unitsOf, unitsOfCode, hlow] at h
      | cons d t' =>
          rw [unitsOf_cons, unitsOf_cons] at h
          obtain ⟨rfl, htail⟩ := unitsOfCode_append_inj h
          rw [ih htail]

/-! ### Literals -/

/-- The value of a hexadecimal digit. -/
def hexValue? (c : Char) : Option Nat :=
  if '0' ≤ c ∧ c ≤ '9' then some (c.toNat - 48)
  else if 'a' ≤ c ∧ c ≤ 'f' then some (c.toNat - 87)
  else if 'A' ≤ c ∧ c ≤ 'F' then some (c.toNat - 55)
  else none

/-- The value of hexadecimal digits. -/
def hexNumber? (digits : List Char) : Option Nat :=
  digits.foldlM (fun n d => (hexValue? d).map (16 * n + ·)) 0

/-- The code unit that so many hexadecimal digits stand for, and the text behind them. -/
def hexUnit? (count : Nat) (t : List Char) : Option (List Nat × List Char) :=
  if t.length < count then none
  else (hexNumber? (t.take count)).map fun n => ([n], t.drop count)

/-- The code units of the code point whose digits stand before a closing brace, and the text behind
the brace. -/
def bracedUnits? (t : List Char) : Option (List Nat × List Char) :=
  let digits := t.takeWhile (· != '}')
  if digits.isEmpty || digits.length = t.length then none
  else
    ((hexNumber? digits).filter (· ≤ 0x10FFFF)).map fun n =>
      (unitsOfCode n, t.drop (digits.length + 1))

/-- Characters that end a line. -/
def lineTerminators : List Char :=
  ['\n', '\r', '\u2028', '\u2029']

/-- The code point that a letter behind a backslash stands for, if it is not the letter's own. -/
def controlLetters : List (Char × Nat) :=
  [('b', 8), ('t', 9), ('n', 10), ('v', 11), ('f', 12), ('r', 13)]

/-- The code units that the escape at the beginning of a text stands for, from behind its backslash,
and the text behind the escape. -/
def escapeUnits? : List Char → Option (List Nat × List Char)
  | [] => none
  | c :: t =>
    if c = 'u' then if t.head? = some '{' then bracedUnits? t.tail else hexUnit? 4 t
    else if c = 'x' then hexUnit? 2 t
    else if c = '\r' && t.head? = some '\n' then some ([], t.tail)
    else if lineTerminators.contains c then some ([], t)
    else if c.isDigit then
      if c = '0' && !t.head?.any Char.isDigit then some ([0], t) else none
    else some (((controlLetters.lookup c).map fun n => [n]).getD (unitsOfCode c.toNat), t)

lemma suffix_of_hexUnit? {count : Nat} {t rest : List Char} {units : List Nat}
    (h : hexUnit? count t = some (units, rest)) : rest <:+ t := by
  rw [hexUnit?] at h
  split at h
  · cases h
  · obtain ⟨n, -, hparts⟩ := Option.map_eq_some_iff.mp h
    cases hparts
    exact List.drop_suffix count t

lemma suffix_of_bracedUnits? {t rest : List Char} {units : List Nat}
    (h : bracedUnits? t = some (units, rest)) : rest <:+ t := by
  simp only [bracedUnits?] at h
  split at h
  · cases h
  · obtain ⟨n, -, hparts⟩ := Option.map_eq_some_iff.mp h
    cases hparts
    exact List.drop_suffix _ t

/-- What stands behind an escape is the end of the text. -/
lemma suffix_of_escapeUnits? {t rest : List Char} {units : List Nat}
    (h : escapeUnits? t = some (units, rest)) : rest <:+ t := by
  cases t with
  | nil => cases h
  | cons c t =>
      suffices htail : rest <:+ t from htail.trans (List.suffix_cons c t)
      rw [escapeUnits?] at h
      split_ifs at h
      · exact (suffix_of_bracedUnits? h).trans (List.tail_suffix t)
      · exact suffix_of_hexUnit? h
      · exact suffix_of_hexUnit? h
      · cases h
        exact List.tail_suffix t
      all_goals
        obtain ⟨-, rfl⟩ := Prod.mk.inj (Option.some.inj h)
        exact List.suffix_refl _

/-- The code units of what stands between the quotes of a literal. -/
def bodyUnits? (quote : Char) : List Char → Option (List Nat)
  | [] => some []
  | '\\' :: t =>
    match h : escapeUnits? t with
    | some (units, rest) =>
      have := (suffix_of_escapeUnits? h).length_le
      (bodyUnits? quote rest).map (units ++ ·)
    | none => none
  | c :: t =>
    if c = quote || c = '\n' || c = '\r' then none
    else (bodyUnits? quote t).map (unitsOfCode c.toNat ++ ·)
termination_by t => t.length

/-- The code units of the string that a literal denotes. -/
def literalUnits? : List Char → Option (List Nat)
  | [] => none
  | q :: t =>
    if (q = '"' || q = '\'') && t.getLast? = some q then bodyUnits? q t.dropLast else none

/-! ### Quoted texts -/

/-- A control character is denoted by its code. -/
lemma escapeUnits?_hexDigits {n : Nat} (h : n < 0x20) (t : List Char) :
    escapeUnits? ('u' :: '0' :: '0' :: hexDigit (n / 16) :: hexDigit (n % 16) :: t)
      = some ([n], t) := by
  have hcodes : ∀ n < 0x20, hexNumber? ['0', '0', hexDigit (n / 16), hexDigit (n % 16)] = some n := by
    decide
  rw [escapeUnits?, if_pos rfl, if_neg (by simp), hexUnit?,
    if_neg (by simp only [List.length_cons]; omega)]
  change (hexNumber? ['0', '0', hexDigit (n / 16), hexDigit (n % 16)]).map (fun m => ([m], t)) = _
  rw [hcodes n h]
  rfl

/-- In a quoted text, a character stands for itself, or there is an escape that denotes it. -/
lemma escape_cases_units (c : Char) :
    (escape c = [c] ∧ c ≠ '"' ∧ c ≠ '\\' ∧ c ≠ '\n' ∧ c ≠ '\r')
      ∨ ∃ escaped, escape c = '\\' :: escaped
        ∧ ∀ t, escapeUnits? (escaped ++ t) = some (unitsOfCode c.toNat, t) := by
  by_cases hquote : c = '"'
  · subst hquote
    exact Or.inr ⟨['"'], rfl, fun _ => rfl⟩
  by_cases hslash : c = '\\'
  · subst hslash
    exact Or.inr ⟨['\\'], rfl, fun _ => rfl⟩
  by_cases hfeed : c = '\n'
  · subst hfeed
    exact Or.inr ⟨['n'], rfl, fun _ => rfl⟩
  by_cases hreturn : c = '\r'
  · subst hreturn
    exact Or.inr ⟨['r'], rfl, fun _ => rfl⟩
  by_cases htab : c = '\t'
  · subst htab
    exact Or.inr ⟨['t'], rfl, fun _ => rfl⟩
  by_cases hback : c = '\x08'
  · subst hback
    exact Or.inr ⟨['b'], rfl, fun _ => rfl⟩
  by_cases hform : c = '\x0c'
  · subst hform
    exact Or.inr ⟨['f'], rfl, fun _ => rfl⟩
  by_cases hcontrol : c.toNat < 0x20
  · refine Or.inr ⟨['u', '0', '0', hexDigit (c.toNat / 16), hexDigit (c.toNat % 16)],
      by simp only [escape, hquote, hslash, hfeed, hreturn, htab, hback, hform, hcontrol, if_true,
        if_false], fun t => ?_⟩
    have hunits : unitsOfCode c.toNat = [c.toNat] := if_pos (by omega)
    rw [hunits]
    exact escapeUnits?_hexDigits hcontrol t
  · refine Or.inl ⟨?_, hquote, hslash, hfeed, hreturn⟩
    simp only [escape, hquote, hslash, hfeed, hreturn, htab, hback, hform, hcontrol, if_false]

lemma bodyUnits?_escape (c : Char) (t : List Char) :
    bodyUnits? '"' (escape c ++ t) = (bodyUnits? '"' t).map (unitsOfCode c.toNat ++ ·) := by
  obtain ⟨hescape, hquote, hslash, hfeed, hreturn⟩ | ⟨escaped, hescape, hread⟩ := escape_cases_units c
  · rw [hescape, List.singleton_append, bodyUnits?]
    · simp [hquote, hfeed, hreturn]
    · exact hslash
  · rw [hescape, List.cons_append, bodyUnits?]
    split
    · next heq =>
      cases (hread t).symm.trans heq
      rfl
    · next heq => cases (hread t).symm.trans heq

lemma bodyUnits?_flatMap_escape (t : List Char) :
    bodyUnits? '"' (t.flatMap escape) = some (unitsOf t) := by
  induction t with
  | nil => rw [List.flatMap_nil, bodyUnits?]; rfl
  | cons c t ih =>
      rw [List.flatMap_cons, bodyUnits?_escape, ih, Option.map_some, unitsOf_cons]

/-- A quoted text denotes its own code units. -/
theorem literalUnits?_quote (t : List Char) : literalUnits? (quote t) = some (unitsOf t) := by
  rw [quote, List.cons_append, literalUnits?, if_pos (by simp), List.dropLast_concat,
    bodyUnits?_flatMap_escape]

/-- A quoted text denotes this text and no other. -/
theorem literalUnits?_quote_eq_iff (t t' : List Char) :
    literalUnits? (quote t) = some (unitsOf t') ↔ t' = t := by
  rw [literalUnits?_quote, Option.some_inj]
  exact ⟨fun h => (unitsOf_injective h).symm, fun h => h ▸ rfl⟩

end SvelteStories
