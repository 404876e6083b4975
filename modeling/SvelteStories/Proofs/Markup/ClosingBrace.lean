/-
The closing brace of an open one:

* `BraceScan.QuoteInAscii.steps_bytesOf`: a reader that goes through the bytes of a text does what one
  does that goes through its characters, and so the bytes of a text are code if the text is
  (`code_bytesOf`);
* `ClosesAt`: between two offsets of a sequence of bytes stands code in braces;
* `closingBrace?_eq_some_iff`: the closing brace in terms of the characters of the text;
* `closingBrace?_spec`: it is the only brace of its kind, and depends on nothing behind it.
-/
import SvelteStories.Proofs.Markup.Code
import SvelteStories.Proofs.Text.Bytes

namespace SvelteStories

/-! ### Characters and bytes -/

namespace BraceScan

/-- What a character beyond ASCII makes of a reader, whatever character it is. -/
def pass (s : BraceScan) : BraceScan :=
  match s.mode with
  | .slash => ⟨.code, s.outer⟩
  | .stringEscape quote => ⟨.string quote, s.outer⟩
  | .star => ⟨.blockComment, s.outer⟩
  | .templateEscape | .dollar => ⟨.template, s.outer⟩
  | _ => s

/-- The string that a reader is in, if any, has a quote in ASCII. -/
def QuoteInAscii (s : BraceScan) : Prop :=
  match s.mode with
  | .string quote | .stringEscape quote => quote.toNat < 0x80
  | _ => True

lemma quoteInAscii_of_leave {outer : List Enclosure} {s : BraceScan}
    (h : leave outer = some s) : s.QuoteInAscii := by
  match outer, h with
  | .code :: _, h => obtain rfl := Option.some.inj h; trivial
  | .template :: _, h => obtain rfl := Option.some.inj h; trivial

lemma quoteInAscii_of_stepCode {outer : List Enclosure} {c : Char} {s : BraceScan}
    (h : stepCode outer c = some s) : s.QuoteInAscii := by
  unfold stepCode at h
  split_ifs at h with hquote
  · obtain rfl := Option.some.inj h
    rcases (by simpa using hquote : c = '"' ∨ c = '\'') with rfl | rfl <;>
      simp [QuoteInAscii]
  all_goals first
    | exact quoteInAscii_of_leave h
    | obtain rfl := Option.some.inj h; trivial

lemma quoteInAscii_of_stepTemplate {outer : List Enclosure} {c : Char} {s : BraceScan}
    (h : stepTemplate outer c = some s) : s.QuoteInAscii := by
  unfold stepTemplate at h
  split_ifs at h
  all_goals first
    | exact quoteInAscii_of_leave h
    | obtain rfl := Option.some.inj h; trivial

/-- Only code opens strings, and the quotes that it opens them with are in ASCII. -/
lemma QuoteInAscii.step {s s' : BraceScan} {c : Char} (hs : s.QuoteInAscii)
    (h : s.step c = some s') : s'.QuoteInAscii := by
  obtain ⟨mode, outer⟩ := s
  cases mode <;> simp only [BraceScan.step] at h <;> (try split_ifs at h)
  all_goals first
    | exact quoteInAscii_of_stepCode h
    | exact quoteInAscii_of_stepTemplate h
    | obtain rfl := Option.some.inj h; first | exact hs | trivial

/-- What a character beyond ASCII does. -/
lemma QuoteInAscii.step_eq {s : BraceScan} (hs : s.QuoteInAscii) {c : Char}
    (hc : 0x80 ≤ c.toNat) : s.step c = some s.pass := by
  have hne : ∀ d : Char, d.toNat < 0x80 → c ≠ d := fun d hd hcd => by
    subst hcd
    omega
  have hquote := hne '"' (by decide)
  have hquote' := hne '\'' (by decide)
  have hbacktick := hne '\x60' (by decide)
  have hslash := hne '/' (by decide)
  have hopen := hne '{' (by decide)
  have hclose := hne '}' (by decide)
  have hstar := hne '*' (by decide)
  have hline := hne '\n' (by decide)
  have hescape := hne '\\' (by decide)
  have hdollar := hne '$' (by decide)
  obtain ⟨mode, outer⟩ := s
  cases mode with
  | string quote => simp [BraceScan.step, pass, hne quote hs, hescape]
  | _ => simp [BraceScan.step, stepCode, stepTemplate, pass, *]

lemma pass_pass (s : BraceScan) : s.pass.pass = s.pass := by
  obtain ⟨mode, outer⟩ := s
  cases mode <;> rfl

/-- Characters beyond ASCII do together what one of them does. -/
lemma QuoteInAscii.steps_eq {s : BraceScan} (hs : s.QuoteInAscii) {l : List Char} (hl : l ≠ [])
    (h : ∀ c ∈ l, 0x80 ≤ c.toNat) : s.steps l = some s.pass := by
  induction l generalizing s with
  | nil => exact absurd rfl hl
  | cons c l ih =>
      have hstep := hs.step_eq (h c List.mem_cons_self)
      rw [steps_cons, hstep, Option.bind_some]
      cases l with
      | nil => rfl
      | cons d l =>
          rw [ih (hs.step hstep) (List.cons_ne_nil _ _)
            fun b hb => h b (List.mem_cons_of_mem _ hb), pass_pass]

/-- The bytes of a character do what the character does. -/
lemma QuoteInAscii.steps_encode {s : BraceScan} (hs : s.QuoteInAscii) (c : Char) :
    s.steps (encode c) = s.step c := by
  by_cases hc : c.toNat < 0x80
  · rw [encode_of_lt hc, steps_cons]
    cases s.step c <;> rfl
  · have hnil : encode c ≠ [] := by
      rw [← List.length_pos_iff, length_encode]
      exact c.utf8Size_pos
    rw [hs.step_eq (by omega), hs.steps_eq hnil fun b hb => le_toNat_of_mem_encode (by omega) hb]

/-- The bytes of a text do what the text does. -/
lemma QuoteInAscii.steps_bytesOf {s : BraceScan} (hs : s.QuoteInAscii) (w : List Char) :
    s.steps (bytesOf w) = s.steps w := by
  induction w generalizing s with
  | nil => rfl
  | cons c w ih =>
      rw [bytesOf_cons, steps_append, hs.steps_encode, steps_cons]
      cases hstep : s.step c with
      | none => rfl
      | some s' => exact ih (hs.step hstep)

end BraceScan

open BraceScan

/-- Code is what leads a reader to a closing brace. -/
lemma code_iff_steps {w : List Char} :
    Code w ↔ ∃ s, start.steps w = some s ∧ s.step '}' = none := by
  have hsplit : start.split? (w ++ ['}']) = some (w, ['}']) ↔ Code w := by
    simp [split?_start_eq_some_iff]
  rw [← hsplit, split?_eq_some_iff]
  simp

/-- The bytes of a text are code if the text is. -/
theorem code_bytesOf {w : List Char} : Code (bytesOf w) ↔ Code w := by
  have hstart : start.QuoteInAscii := trivial
  rw [code_iff_steps, code_iff_steps, hstart.steps_bytesOf]

/-! ### The offset of the closing brace -/

/-- Between the byte at `opening` and the byte at `closing`, which are an opening and a closing
brace, stands code. -/
def ClosesAt (bytes : List Char) (opening closing : Nat) : Prop :=
  opening < closing ∧ bytes[opening]? = some '{' ∧ bytes[closing]? = some '}'
    ∧ Code ((bytes.take closing).drop (opening + 1))

/-- Code in braces, as a decomposition of the bytes. -/
lemma closesAt_iff {bytes : List Char} {opening closing : Nat} :
    ClosesAt bytes opening closing
      ↔ ∃ before code rest, bytes = before ++ '{' :: (code ++ '}' :: rest)
        ∧ before.length = opening ∧ closing = opening + 1 + code.length ∧ Code code := by
  constructor
  · rintro ⟨hlt, hopen, hclose, hcode⟩
    obtain ⟨hopening, hopen⟩ := List.getElem?_eq_some_iff.mp hopen
    obtain ⟨hclosing, hclose⟩ := List.getElem?_eq_some_iff.mp hclose
    refine ⟨bytes.take opening, (bytes.take closing).drop (opening + 1),
      bytes.drop (closing + 1), ?_, by simp; omega, by simp; omega, hcode⟩
    calc bytes = bytes.take closing ++ bytes.drop closing := (List.take_append_drop _ _).symm
      _ = ((bytes.take closing).take opening ++ (bytes.take closing).drop opening)
          ++ bytes.drop closing := by rw [List.take_append_drop opening]
      _ = (bytes.take opening ++ '{' :: (bytes.take closing).drop (opening + 1))
          ++ '}' :: bytes.drop (closing + 1) := by
        rw [List.take_take, Nat.min_eq_left (by omega), List.drop_eq_getElem_cons (by simp; omega),
          List.drop_eq_getElem_cons hclosing, List.getElem_take, hopen, hclose]
      _ = _ := by simp
  · rintro ⟨before, code, rest, rfl, rfl, rfl, hcode⟩
    refine ⟨by omega, by simp, ?_, ?_⟩
    · simp [Nat.add_assoc, Nat.add_comm 1]
    · have hassoc : before ++ '{' :: (code ++ '}' :: rest)
          = (before ++ ['{'] ++ code) ++ '}' :: rest := by simp
      rwa [hassoc, List.take_left' (by simp; omega), List.drop_left' (by simp)]

/-- Code in braces depends on nothing behind the closing brace. -/
lemma ClosesAt.of_take_eq {bytes bytes' : List Char} {opening closing : Nat}
    (h : ClosesAt bytes opening closing)
    (hstarts : bytes'.take (closing + 1) = bytes.take (closing + 1)) :
    ClosesAt bytes' opening closing := by
  obtain ⟨hlt, hopen, hclose, hcode⟩ := h
  have hget : ∀ i < closing + 1, bytes'[i]? = bytes[i]? := fun i hi => by
    rw [← List.getElem?_take_of_lt hi, hstarts, List.getElem?_take_of_lt hi]
  have htake : bytes'.take closing = bytes.take closing := by
    have := congrArg (List.take closing) hstarts
    simpa [List.take_take] using this
  exact ⟨hlt, by rw [hget _ (by omega), hopen], by rw [hget _ (by omega), hclose],
    by rwa [htake]⟩

/-- The closing brace, as a decomposition of the text. -/
theorem closingBrace?_eq_some_iff {t : List Char} {opening closing : Nat} :
    closingBrace? t opening = some closing
      ↔ ∃ before code rest, t = before ++ '{' :: (code ++ '}' :: rest)
        ∧ byteLength before = opening ∧ closing = opening + 1 + byteLength code ∧ Code code := by
  rw [closingBrace?]
  constructor
  · intro h
    split at h
    · rename_i before t hsplit
      obtain ⟨rfl, rfl⟩ := splitAtByte_eq_some_iff.mp hsplit
      obtain ⟨⟨code, rest⟩, hread, rfl⟩ := Option.map_eq_some_iff.mp h
      obtain ⟨rfl, hcode, r, rfl⟩ := split?_start_eq_some_iff.mp hread
      exact ⟨before, code, r, rfl, rfl, rfl, hcode⟩
    · simp at h
  · rintro ⟨before, code, rest, rfl, rfl, rfl, hcode⟩
    have hsplit : start.split? (code ++ '}' :: rest) = some (code, '}' :: rest) :=
      split?_start_eq_some_iff.mpr ⟨rfl, hcode, rest, rfl⟩
    rw [splitAtByte_append]
    simp [hsplit]

/-- The closing brace, in terms of the bytes of the text. -/
lemma closingBrace?_eq_some_iff_closesAt {t : List Char} {opening closing : Nat} :
    closingBrace? t opening = some closing ↔ ClosesAt (bytesOf t) opening closing := by
  rw [closingBrace?_eq_some_iff, closesAt_iff]
  constructor
  · rintro ⟨before, code, rest, rfl, rfl, rfl, hcode⟩
    have hbytes := code_bytesOf.mpr hcode
    refine ⟨bytesOf before, bytesOf code, bytesOf rest, ?_, by simp, by simp, hbytes⟩
    simp [encode_of_lt (c := '{') (by decide), encode_of_lt (c := '}') (by decide)]
  · rintro ⟨before, code, rest, hbytes, rfl, rfl, hcode⟩
    obtain ⟨u, v, rfl, rfl, hv⟩ := exists_of_bytesOf_eq_append (by decide) hbytes
    obtain ⟨v, w, rfl, rfl, rfl⟩ := exists_of_bytesOf_eq_append (by decide) hv
    exact ⟨u, v, w, rfl, by simp, by simp, code_bytesOf.mp hcode⟩

/-- The closing brace of an open one is where code in braces ends, at the level of bytes. There is
only one such place, nothing behind it plays a part, and there is none only if none is found. -/
theorem closingBrace?_spec (t : List Char) (opening : Nat) :
    (∀ closing, closingBrace? t opening = some closing ↔ ClosesAt (bytesOf t) opening closing)
    ∧ (∀ closing closing', ClosesAt (bytesOf t) opening closing →
        ClosesAt (bytesOf t) opening closing' → closing = closing')
    ∧ (∀ closing t', closingBrace? t opening = some closing →
        (bytesOf t').take (closing + 1) = (bytesOf t).take (closing + 1) →
        closingBrace? t' opening = some closing)
    ∧ (closingBrace? t opening = none ↔ ¬ ∃ closing, ClosesAt (bytesOf t) opening closing) := by
  refine ⟨fun _ => closingBrace?_eq_some_iff_closesAt, ?_, ?_, ?_⟩
  · intro closing closing' h h'
    rw [← closingBrace?_eq_some_iff_closesAt] at h h'
    exact Option.some.inj (h.symm.trans h')
  · intro closing t' h hstarts
    rw [closingBrace?_eq_some_iff_closesAt] at h ⊢
    exact h.of_take_eq hstarts
  · rw [Option.eq_none_iff_forall_ne_some]
    simp [closingBrace?_eq_some_iff_closesAt]

example : closingBrace? "\x7b // \x7d\n \x7d".toList 0 = some 8 := by decide

end SvelteStories
