/-
Gaps between tokens, written out:

* `IsGap`: blanks and comments; what ends a line comment is left open;
* `skipGap_append`: a gap is skipped up to a character that starts a token;
* `lexeme_append`: so the next token is the one behind the gap.
-/
import SvelteStories.Proofs.Text.Boundary
import SvelteStories.Script.Lexer

namespace SvelteStories.Script

/-! ### Blanks and comments -/

/-- A text of blanks and comments. A comment that goes to the end of its line has a character behind
it that ends lines. -/
inductive IsGap (endsLine : Char → Bool) : List Char → Prop
  /-- Nothing. -/
  | nil : IsGap endsLine []
  /-- A blank. -/
  | blank {c : Char} {w : List Char} : isScriptBlank c = true → IsGap endsLine w →
      IsGap endsLine (c :: w)
  /-- A comment up to the end of its line. -/
  | line {inside w : List Char} {c : Char} : (∀ d ∈ inside, isLineBreak d = false) →
      endsLine c = true → IsGap endsLine w → IsGap endsLine ('/' :: '/' :: (inside ++ c :: w))
  /-- A comment up to its own end. -/
  | block {inside w : List Char} : ¬ ['*', '/'] <:+: inside → IsGap endsLine w →
      IsGap endsLine ('/' :: '*' :: (inside ++ '*' :: '/' :: w))

/-- The line feed, as what ends lines. -/
def isLineFeed (c : Char) : Bool :=
  c = '\n'

section

variable {endsLine endsLine' : Char → Bool} {v w : List Char}

lemma IsGap.append (hv : IsGap endsLine v) (hw : IsGap endsLine w) : IsGap endsLine (v ++ w) := by
  induction hv with
  | nil => exact hw
  | blank hc _ ih => exact ih.blank hc
  | line hinside hc _ ih => simpa using ih.line hinside hc
  | block hinside _ ih => simpa using ih.block hinside

lemma IsGap.mono (h : ∀ c, endsLine c = true → endsLine' c = true) (hw : IsGap endsLine w) :
    IsGap endsLine' w := by
  induction hw with
  | nil => exact .nil
  | blank hc _ ih => exact ih.blank hc
  | line hinside hc _ ih => exact ih.line hinside (h _ hc)
  | block hinside _ ih => exact ih.block hinside

lemma isLineBreak_of_isLineFeed (c : Char) (h : isLineFeed c = true) : isLineBreak c = true := by
  simp only [isLineFeed, decide_eq_true_eq] at h
  simp [isLineBreak, h]

lemma isGap_space : IsGap endsLine [' '] :=
  .blank (by decide) .nil

/-- A gap goes on behind its first blanks. -/
lemma IsGap.dropWhile (h : IsGap endsLine w) : IsGap endsLine (w.dropWhile isScriptBlank) := by
  have hslash : isScriptBlank '/' = false := by decide
  induction h with
  | nil => exact .nil
  | blank hc _ ih => rwa [List.dropWhile_cons_of_pos hc]
  | line hinside hc hw _ =>
      rw [List.dropWhile_cons_of_neg (by simp [hslash])]
      exact hw.line hinside hc
  | block hinside hw _ =>
      rw [List.dropWhile_cons_of_neg (by simp [hslash])]
      exact hw.block hinside

end

lemma isScriptBlank_of_isLineBreak {c : Char} (h : isLineBreak c = true) :
    isScriptBlank c = true := by
  simp only [isLineBreak, Bool.or_eq_true, decide_eq_true_eq] at h
  obtain ((rfl | rfl) | h) | h := h
  · decide
  · decide
  · simp [isScriptBlank, isBlank, h]
  · simp [isScriptBlank, isBlank, h]

/-- A star that is followed by a slash closes a comment. -/
lemma ne_star_of_append {inside rest t : List Char} {c : Char} (h : ¬ ['*', '/'] <:+: c :: inside)
    (ht : inside ++ '*' :: '/' :: rest = '/' :: t) : c ≠ '*' := by
  rintro rfl
  cases inside with
  | nil => simp at ht
  | cons d inside =>
      obtain ⟨rfl, -⟩ : d = '/' ∧ inside ++ '*' :: '/' :: rest = t := by simpa using ht
      exact h ⟨[], inside, rfl⟩

/-- A block comment ends where it is closed for the first time. -/
lemma blockComment?_append {inside : List Char} (h : ¬ ['*', '/'] <:+: inside)
    (rest : List Char) :
    blockComment? (inside ++ '*' :: '/' :: rest) = some (inside, rest) := by
  induction inside with
  | nil => rfl
  | cons c inside ih =>
      have hinside : ¬ ['*', '/'] <:+: inside := fun hin =>
        h (hin.trans (List.suffix_cons c inside).isInfix)
      rw [List.cons_append, blockComment?]
      · rw [ih hinside]
        rfl
      · intro t hc ht
        exact ne_star_of_append h ht hc

/-! ### Characters that start tokens -/

lemma upTo_append (w rest : List Char) : upTo (w ++ rest) rest = w := by
  simp [upTo]

/-- No gap goes on with this character. -/
def StartsToken (c : Char) : Prop :=
  isScriptBlank c = false ∧ c ≠ '/' ∧ c ≠ '<' ∧ c ≠ '-'

/-- Characters that are tokens of their own wherever a token starts with them. -/
def IsMark (c : Char) : Prop :=
  c = ',' ∨ c = ':' ∨ c = '{' ∨ c = '}'

section

variable {c : Char} {w t : List Char}

lemma IsMark.startsToken (h : IsMark c) : StartsToken c := by
  obtain rfl | rfl | rfl | rfl := h <;> exact ⟨by decide, by decide, by decide, by decide⟩

lemma readToken_mark (h : IsMark c) (mode : LexMode) (t : List Char) :
    readToken mode (c :: t) = ⟨.punctuator (String.singleton c), t, []⟩ := by
  obtain rfl | rfl | rfl | rfl := h <;> rfl

lemma skipGap_token (h : StartsToken c) (isModule : Bool) (before : Trailing) (fuel : Nat)
    (newline : Bool) (offset : Nat) (t : List Char) :
    skipGap isModule before fuel newline offset (c :: t) = ⟨offset, c :: t, newline, [], []⟩ := by
  obtain ⟨hblank, hslash, hangle, hdash⟩ := h
  cases fuel with
  | zero => rfl
  | succ fuel =>
      rw [skipGap, if_neg (by simp [hblank]), if_neg (by simp [hdash.symm])]
      · intro t' hslash' _
        exact hslash hslash'
      · intro t' hslash' _
        exact hslash hslash'
      · intro t' hangle' _
        exact hangle hangle'

/-- The blanks at the beginning of a gap end with it at the latest. -/
lemma splitBlanks_append (h : StartsToken c) :
    splitBlanks (w ++ c :: t)
      = (w.takeWhile isScriptBlank, w.dropWhile isScriptBlank ++ c :: t) := by
  induction w with
  | nil => simp [splitBlanks, h.1]
  | cons d w ih =>
      simp only [splitBlanks, Prod.mk.injEq] at ih
      cases hd : isScriptBlank d <;> simp [splitBlanks, hd, ih]

end

/-! ### Skipping gaps -/

section

variable {w t : List Char} {c : Char}

lemma skipGap_blank (hc : isScriptBlank c = true) (isModule : Bool) (before : Trailing) (fuel : Nat)
    (newline : Bool) (offset : Nat) :
    skipGap isModule before (fuel + 1) newline offset (c :: t)
      = skipGap isModule before fuel (newline || (splitBlanks (c :: t)).1.any isLineBreak)
        (offset + byteLength (splitBlanks (c :: t)).1) (splitBlanks (c :: t)).2 := by
  have hslash : c ≠ '/' := by
    rintro rfl
    exact absurd hc (by decide)
  have hangle : c ≠ '<' := by
    rintro rfl
    exact absurd hc (by decide)
  rw [skipGap, if_pos hc]
  · intro t' hslash' _
    exact hslash hslash'
  · intro t' hslash' _
    exact hslash hslash'
  · intro t' hangle' _
    exact hangle hangle'

lemma skipGap_line {inside : List Char} (hinside : ∀ d ∈ inside, isLineBreak d = false)
    (hc : isLineBreak c = true) (isModule : Bool) (before : Trailing) (fuel : Nat) (newline : Bool)
    (offset : Nat) :
    ∃ comments, skipGap isModule before (fuel + 1) newline offset ('/' :: '/' :: (inside ++ c :: t))
      = { skipGap isModule before fuel newline (offset + 2 + byteLength inside) (c :: t) with
          comments := comments } := by
  have htake : (inside ++ c :: t).takeWhile (fun c => !isLineBreak c) = inside := by
    rw [List.takeWhile_append_of_pos fun d hd => by simp [hinside d hd]]
    simp [hc]
  rw [skipGap]
  simp only [htake, List.drop_left]
  split
  · exact ⟨_, rfl⟩
  · exact ⟨_, rfl⟩

lemma skipGap_block {inside : List Char} (hinside : ¬ ['*', '/'] <:+: inside) (isModule : Bool)
    (before : Trailing) (fuel : Nat) (newline : Bool) (offset : Nat) :
    ∃ newline' comments,
      skipGap isModule before (fuel + 1) newline offset ('/' :: '*' :: (inside ++ '*' :: '/' :: t))
        = { skipGap isModule before fuel newline' (offset + 4 + byteLength inside) t with
            comments := comments } := by
  rw [skipGap, blockComment?_append hinside]
  dsimp only
  split
  · exact ⟨_, _, rfl⟩
  · exact ⟨_, _, rfl⟩

/-- A gap is skipped up to the token behind it. -/
lemma skipGap_append {endsLine : Char → Bool}
    (hends : ∀ d, endsLine d = true → isLineBreak d = true) (hw : IsGap endsLine w)
    (hc : StartsToken c) (isModule : Bool) (before : Trailing) (fuel : Nat) (hfuel : w.length < fuel)
    (newline : Bool) (offset : Nat) :
    ∃ newline' comments, skipGap isModule before fuel newline offset (w ++ c :: t)
      = ⟨offset + byteLength w, c :: t, newline', comments, []⟩ := by
  induction fuel generalizing w newline offset with
  | zero => omega
  | succ fuel ih =>
      cases hw with
      | nil => exact ⟨newline, [], by rw [List.nil_append, skipGap_token hc]; rfl⟩
      | @blank d w hd hw =>
          -- all blanks are skipped together
          have hsplit := splitBlanks_append (w := d :: w) (t := t) hc
          have hlength := (List.dropWhile_suffix isScriptBlank (l := w)).length_le
          have hbytes : byteLength ((d :: w).takeWhile isScriptBlank)
              + byteLength (w.dropWhile isScriptBlank) = byteLength (d :: w) := by
            rw [List.takeWhile_cons_of_pos hd, byteLength_cons, byteLength_cons, Nat.add_assoc,
              ← byteLength_append, List.takeWhile_append_dropWhile]
          rw [List.dropWhile_cons_of_pos hd] at hsplit
          rw [List.length_cons] at hfuel
          obtain ⟨newline', comments, hskip⟩ := ih hw.dropWhile (by omega)
            (newline || ((d :: w).takeWhile isScriptBlank).any isLineBreak)
            (offset + byteLength ((d :: w).takeWhile isScriptBlank))
          refine ⟨newline', comments, ?_⟩
          rw [List.cons_append, skipGap_blank hd, ← List.cons_append, hsplit, hskip, Nat.add_assoc,
            hbytes]
      | @line inside w d hinside hd hw =>
          have hbreak := hends d hd
          obtain ⟨comments, hline⟩ := skipGap_line (t := w ++ c :: t) hinside hbreak isModule before
            fuel newline offset
          rw [List.length_cons, List.length_cons, List.length_append, List.length_cons] at hfuel
          obtain ⟨newline', comments', hskip⟩ := ih (hw.blank (isScriptBlank_of_isLineBreak hbreak))
            (by rw [List.length_cons]; omega) newline (offset + 2 + byteLength inside)
          refine ⟨newline', comments, ?_⟩
          have hslash : '/'.utf8Size = 1 := by decide
          simp only [List.cons_append, List.append_assoc] at hline hskip ⊢
          rw [hline, hskip]
          simp only [byteLength_cons, byteLength_append, hslash, Gap.mk.injEq, and_true]
          omega
      | @block inside w hinside hw =>
          obtain ⟨newline₁, comments, hblock⟩ := skipGap_block (t := w ++ c :: t) hinside isModule
            before fuel newline offset
          simp only [List.length_cons, List.length_append] at hfuel
          obtain ⟨newline', comments', hskip⟩ := ih hw (by omega) newline₁
            (offset + 4 + byteLength inside)
          refine ⟨newline', comments, ?_⟩
          have hslash : '/'.utf8Size = 1 := by decide
          have hstar : '*'.utf8Size = 1 := by decide
          simp only [List.cons_append, List.append_assoc] at hblock ⊢
          rw [hblock, hskip]
          simp only [byteLength_cons, byteLength_append, hslash, hstar, Gap.mk.injEq, and_true]
          omega

/-- The next token of a gap with a token behind it is this token. -/
lemma lexeme_append {endsLine : Char → Bool}
    (hends : ∀ d, endsLine d = true → isLineBreak d = true) (hw : IsGap endsLine w)
    (hc : StartsToken c) {mode : LexMode} {token : Token} {rest : List Char}
    (htoken : readToken mode (c :: t) = ⟨token, rest, []⟩) (hfault : ∀ f, token ≠ .fault f)
    (hstop : token ≠ .stop) (before : Trailing) (newline : Bool) (offset : Nat) :
    ∃ newline' comments, lexeme mode before newline offset (w ++ c :: t)
      = ⟨token, ⟨offset + byteLength w, offset + byteLength w + byteLength (upTo (c :: t) rest)⟩,
          newline', comments, c :: t, rest, []⟩ := by
  obtain ⟨newline', comments, hskip⟩ := skipGap_append (t := t) hends hw hc mode.isModule before
    ((w ++ c :: t).length + 1) (by rw [List.length_append]; omega) newline offset
  refine ⟨newline', comments, ?_⟩
  have hplace : token.place (offset + byteLength w) = token := by
    cases token with
    | fault f => exact absurd rfl (hfault f)
    | _ => rfl
  rw [lexeme, hskip]
  simp [htoken, hplace, hstop]

end

end SvelteStories.Script
