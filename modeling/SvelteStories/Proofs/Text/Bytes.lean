/-
Texts as sequences of bytes:

* `bytesOf`: the bytes of a text in UTF-8;
* `length_bytesOf`: there are as many as `byteLength` says;
* `le_toNat_of_mem_encode`: the bytes of a character beyond ASCII are all beyond ASCII;
* `exists_of_bytesOf_eq_append`: a byte in ASCII is a character of the text;
* `IsAsciiTest`: a test of single bytes that takes characters as wholes, and `takeWhile_bytesOf`: the
  bytes that satisfy it are those of the characters that do.
-/
import SvelteStories.Proofs.Text.Boundary

namespace SvelteStories

/-- The bytes of a character in UTF-8, each written as the character with its number. -/
def encode (c : Char) : List Char :=
  (String.utf8EncodeChar c).map Char.ofUInt8

/-- The bytes of a text in UTF-8. -/
def bytesOf (t : List Char) : List Char :=
  t.flatMap encode

@[simp] lemma bytesOf_nil : bytesOf [] = [] := rfl

@[simp] lemma bytesOf_cons (c : Char) (t : List Char) :
    bytesOf (c :: t) = encode c ++ bytesOf t := rfl

@[simp] lemma bytesOf_append (s t : List Char) : bytesOf (s ++ t) = bytesOf s ++ bytesOf t :=
  List.flatMap_append

@[simp] lemma length_encode (c : Char) : (encode c).length = c.utf8Size := by
  simp [encode]

@[simp] lemma length_bytesOf (t : List Char) : (bytesOf t).length = byteLength t := by
  induction t with
  | nil => rfl
  | cons c t ih => simp [ih]

lemma toNat_ofUInt8 (b : UInt8) : (Char.ofUInt8 b).toNat = b.toNat := rfl

/-- A character in ASCII is its own byte. -/
lemma encode_of_lt {c : Char} (h : c.toNat < 0x80) : encode c = [c] := by
  have hle : c.val.toNat ≤ 0x7f := Nat.le_of_lt_succ h
  have hbyte : String.utf8EncodeChar c = [UInt8.ofNat c.val.toNat] := by
    simp only [String.utf8EncodeChar, hle, if_true]
  rw [encode, hbyte, List.map_singleton, List.singleton_inj]
  refine Char.ext (UInt32.toNat_inj.mp ?_)
  have hofNat : (Char.ofUInt8 (UInt8.ofNat c.val.toNat)).val.toNat = c.val.toNat % 2 ^ 8 :=
    UInt8.toNat_ofNat'
  rw [hofNat]
  omega

/-- The bytes of a character beyond ASCII. -/
lemma le_toNat_of_mem_encode {c b : Char} (h : 0x80 ≤ c.toNat) (hb : b ∈ encode c) :
    0x80 ≤ b.toNat := by
  have hlt : ¬ c.val.toNat ≤ 0x7f := Nat.not_le_of_lt h
  obtain ⟨byte, hbyte, rfl⟩ := List.mem_map.mp hb
  rw [toNat_ofUInt8]
  simp only [String.utf8EncodeChar, hlt, if_false] at hbyte
  split at hbyte
  · simp only [List.mem_cons, List.not_mem_nil, or_false] at hbyte
    rcases hbyte with rfl | rfl <;> simp <;> omega
  · split at hbyte
    · simp only [List.mem_cons, List.not_mem_nil, or_false] at hbyte
      rcases hbyte with rfl | rfl | rfl <;> simp <;> omega
    · simp only [List.mem_cons, List.not_mem_nil, or_false] at hbyte
      rcases hbyte with rfl | rfl | rfl | rfl <;> simp <;> omega

/-- Where a byte in ASCII stands, the text has that character. -/
lemma exists_of_bytesOf_eq_append {t : List Char} {c : Char} {before after : List Char}
    (hc : c.toNat < 0x80) (h : bytesOf t = before ++ c :: after) :
    ∃ u v, t = u ++ c :: v ∧ bytesOf u = before ∧ bytesOf v = after := by
  induction t generalizing before with
  | nil => simp at h
  | cons d t ih =>
      rw [bytesOf_cons, List.append_eq_append_iff] at h
      rcases h with ⟨m, rfl, hm⟩ | ⟨m, hd, hm⟩
      · obtain ⟨u, v, rfl, rfl, rfl⟩ := ih hm
        exact ⟨d :: u, v, rfl, by simp, rfl⟩
      · cases m with
        | nil =>
            -- the character before the byte ends where the byte begins
            obtain ⟨u, v, rfl, hu, rfl⟩ := @ih [] (by simpa using hm.symm)
            exact ⟨d :: u, v, rfl, by simp [hu, hd], rfl⟩
        | cons b m =>
            simp only [List.cons_append, List.cons.injEq] at hm
            obtain ⟨rfl, rfl⟩ := hm
            have hmem : c ∈ encode d := by simp [hd]
            have hlt : d.toNat < 0x80 := by
              by_contra hd'
              have := le_toNat_of_mem_encode (by omega) hmem
              omega
            rw [encode_of_lt hlt] at hd
            rcases List.singleton_eq_append_iff.mp hd with ⟨rfl, hm⟩ | ⟨-, hm⟩
            · simp only [List.cons.injEq] at hm
              obtain ⟨rfl, rfl⟩ := hm
              exact ⟨[], t, rfl, rfl, rfl⟩
            · simp at hm

/-! ### The first byte -/

/-- A text starts with a byte in ASCII if it starts with that character. -/
lemma head?_bytesOf_eq_some_iff {t : List Char} {c : Char} (hc : c.toNat < 0x80) :
    (bytesOf t).head? = some c ↔ t.head? = some c := by
  constructor
  · intro h
    obtain ⟨after, hafter⟩ := List.head?_eq_some_iff.mp h
    have hbytes : bytesOf t = [] ++ c :: after := hafter
    obtain ⟨u, v, rfl, hu, -⟩ := exists_of_bytesOf_eq_append hc hbytes
    have hlength := congrArg List.length hu
    rw [length_bytesOf, List.length_nil, byteLength_eq_zero_iff] at hlength
    rw [hlength]
    rfl
  · intro h
    obtain ⟨rest, rfl⟩ := List.head?_eq_some_iff.mp h
    rw [bytesOf_cons, encode_of_lt hc]
    rfl

/-- The first byte satisfies a test that nothing beyond ASCII does if the first character does. -/
lemma filter_head?_bytesOf {test : Char → Bool} (h : ∀ c : Char, 0x80 ≤ c.toNat → test c = false)
    (t : List Char) : (bytesOf t).head?.filter test = t.head?.filter test := by
  refine Option.ext fun c => ?_
  rw [Option.filter_eq_some_iff, Option.filter_eq_some_iff]
  refine and_congr_left fun hc => head?_bytesOf_eq_some_iff ?_
  by_contra hlarge
  rw [h c (by omega)] at hc
  cases hc

/-! ### Tests of bytes -/

/-- A test that does not tell characters beyond ASCII from one another. -/
def IsAsciiTest (test : Char → Bool) : Prop :=
  ∀ c d : Char, 0x80 ≤ c.toNat → 0x80 ≤ d.toNat → test c = test d

lemma isAsciiTest_of_forall {test : Char → Bool} (b : Bool)
    (h : ∀ c : Char, 0x80 ≤ c.toNat → test c = b) : IsAsciiTest test := by
  intro c d hc hd
  rw [h c hc, h d hd]

/-- A character beyond ASCII is none in ASCII. -/
lemma ne_of_le_of_lt {c d : Char} (hc : 0x80 ≤ c.toNat) (hd : d.toNat < 0x80) : c ≠ d := by
  rintro rfl
  omega

/-- A character satisfies such a test if its bytes do. -/
lemma IsAsciiTest.of_mem_encode {test : Char → Bool} (h : IsAsciiTest test) {c b : Char}
    (hb : b ∈ encode c) : test b = test c := by
  by_cases hc : c.toNat < 0x80
  · rw [encode_of_lt hc, List.mem_singleton] at hb
    rw [hb]
  · exact h b c (le_toNat_of_mem_encode (by omega) hb) (by omega)

/-- The bytes that satisfy such a test are those of the characters that do. -/
lemma IsAsciiTest.takeWhile_bytesOf {test : Char → Bool} (h : IsAsciiTest test) (t : List Char) :
    (bytesOf t).takeWhile test = bytesOf (t.takeWhile test) := by
  induction t with
  | nil => rfl
  | cons c t ih =>
      rw [bytesOf_cons]
      cases hc : test c with
      | true =>
          rw [List.takeWhile_append_of_pos fun b hb => (h.of_mem_encode hb).trans hc, ih,
            List.takeWhile_cons_of_pos hc, bytesOf_cons]
      | false =>
          have hnil : encode c ≠ [] := by
            rw [← List.length_pos_iff, length_encode]
            exact c.utf8Size_pos
          obtain ⟨b, bs, hbs⟩ := List.exists_cons_of_ne_nil hnil
          have hb : ¬ test b = true := by
            rw [h.of_mem_encode (hbs ▸ List.mem_cons_self), hc]
            exact Bool.false_ne_true
          rw [hbs, List.cons_append, List.takeWhile_cons_of_neg hb,
            List.takeWhile_cons_of_neg (by rw [hc]; exact Bool.false_ne_true), bytesOf_nil]

end SvelteStories
