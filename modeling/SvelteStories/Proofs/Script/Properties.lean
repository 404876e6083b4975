/-
How the properties of object literals are read:

* `readKey_token`: what the key of a property starts with;
* `readProperty_token`: so no property starts with a closing brace;
* `reads_keyValue`: a key, a colon and a value are read as a property, whatever gaps are between them;
* `reads_name`: a plain name is read as a key.
-/
import SvelteStories.Proofs.Script.Readers
import SvelteStories.Proofs.Script.Unplaced
import SvelteStories.Proofs.Script.Words
import SvelteStories.Script.Parser.Operands

namespace SvelteStories.Script

/-! ### First tokens -/

/-- Whether the key of a property may start with a token. -/
def Token.StartsKey : Token → Prop
  | .word _ | .string _ _ | .number _ _ | .bigint _ _ => True
  | .punctuator p => p = "["
  | .fault _ | .stop => False

section

variable {α : Type} {g : Grammar} {c : Context} {k k' k'' : Cursor} {key : PropertyKey}

lemma Parser.Gives.unique {r : Parser α} {a b : α} (h : r.Gives c k a k') (h' : r.Gives c k b k'') :
    a = b ∧ k' = k'' := by
  rw [Gives] at h h'
  rw [h] at h'
  cases h'
  exact ⟨rfl, rfl⟩

/-- The value of a step that is known can be put in for it. -/
lemma Parser.Gives.of_bind {β : Type} {r : Parser α} {f : α → Parser β} {a : α} {b : β}
    (h : (r >>= f).Gives c k b k'') (hr : r.Gives c k a k') : (f a).Gives c k' b k'' := by
  obtain ⟨a', k₁, hr', hf⟩ := exists_gives_of_bind h
  obtain ⟨rfl, rfl⟩ := hr.unique hr'
  exact hf

lemma requireToken_token {u : Unit} (h : requireToken.Gives c k u k') :
    k' = k ∧ k.current.token ≠ .stop ∧ ∀ f, k.current.token ≠ .fault f := by
  have h := h.of_bind (gives_tokenHere c k)
  cases htoken : k.current.token with
  | stop =>
      rw [htoken] at h
      obtain ⟨cursor, k₁, -, h⟩ := exists_gives_of_bind h
      exact absurd h (not_gives_throw _)
  | fault f =>
      rw [htoken] at h
      obtain ⟨u', k₁, -, h⟩ := exists_gives_of_bind h
      exact absurd h (not_gives_throw _)
  | _ =>
      rw [htoken] at h
      exact ⟨(h.unique (gives_pure () c k)).2, by simp, by simp⟩

/-- A key starts with a word, a string, a number or a bracket. -/
lemma readKey_token (h : (readKey g).Gives c k key k') : k.current.token.StartsKey := by
  obtain ⟨u, k₁, hrequire, hkey⟩ := exists_gives_of_bind h
  obtain ⟨rfl, hstop, hfault⟩ := requireToken_token hrequire
  have hkey := hkey.of_bind (gives_lexemeHere c k₁)
  cases htoken : k₁.current.token with
  | word value => trivial
  | string value raw => trivial
  | number value raw => trivial
  | bigint value raw => trivial
  | fault f => exact hfault f htoken
  | stop => exact hstop htoken
  | punctuator p =>
      by_contra hp
      have hp : p ≠ "[" := hp
      rw [htoken] at hkey
      split at hkey
      case h_5 heq => exact hp (Token.punctuator.inj heq)
      case h_6 => exact not_gives_failUnexpected _ hkey
      all_goals rename_i heq; cases heq

/-- Nothing is a modifier that does not stand before something to modify. -/
lemma gives_eatParameterModifier
    (h : ∀ w, k.current.token = .word w → (k.moved c).current.token.isWord = false
      ∧ (k.moved c).current.token.isOneOf ["[", "\x7b"] = false) :
    eatParameterModifier.Gives c k false k := by
  have hwords : ∃ b, (isAtOneOfWords ["public", "protected", "private", "readonly"]).Gives c k b k
      ∧ (b = true → ∃ w, k.current.token = .word w) := by
    cases htoken : k.current.token with
    | word w =>
        refine ⟨["public", "protected", "private", "readonly"].contains w,
          (gives_tokenHere c k).bind ?_, fun _ => ⟨w, rfl⟩⟩
        rw [htoken]
        exact gives_pure _ c k
    | _ =>
        refine ⟨false, (gives_tokenHere c k).bind ?_, nofun⟩
        rw [htoken]
        exact gives_pure false c k
  obtain ⟨b, hb, hword⟩ := hwords
  refine hb.bind ?_
  cases b with
  | false => exact (gives_pure false c k).bind (gives_pure false c k)
  | true =>
      obtain ⟨w, htoken⟩ := hword rfl
      obtain ⟨hword, hbracket⟩ := h w htoken
      have hfollowed : (isFollowedBy fun l => l.token.isWord || l.token.isOneOf ["[", "\x7b"]).Gives
          c k ((k.moved c).current.token.isWord
            || (k.moved c).current.token.isOneOf ["[", "\x7b"]) k := rfl
      refine hfollowed.bind ?_
      rw [hword, hbracket]
      exact gives_pure false c k

/-- No property starts with a closing brace. -/
lemma readProperty_token {p : Property} (h : (readProperty g).Gives c k p k') :
    k.current.token ≠ .punctuator "\x7d" := by
  intro htoken
  obtain ⟨start, hstart⟩ := exists_gives_offsetHere c k
  have hmodifier : eatParameterModifier.Gives c k false k :=
    gives_eatParameterModifier fun w hw => by simp [hw] at htoken
  rw [readProperty] at h
  have h := h.of_bind hstart
  have h := h.of_bind (gives_eat_of_ne (by simp [htoken]))
  simp only [Bool.false_eq_true, if_false] at h
  have h := h.of_bind (gives_eat_of_ne (by simp [htoken]))
  simp only [Bool.false_eq_true, if_false] at h
  have h := h.of_bind (gives_isTyped c k)
  -- with types or without, the key comes next
  have hkey : ∃ key k₁, (readKey g).Gives c k key k₁ := by
    split at h
    · have h := (h.of_bind hmodifier).of_bind (gives_get c k)
      obtain ⟨key, k₁, hkey, -⟩ := exists_gives_of_bind h
      exact ⟨key, k₁, hkey⟩
    · have h := (h.of_bind (gives_pure false c k)).of_bind (gives_get c k)
      obtain ⟨key, k₁, hkey, -⟩ := exists_gives_of_bind h
      exact ⟨key, k₁, hkey⟩
  obtain ⟨key, k₁, hkey⟩ := hkey
  have hstarts := readKey_token hkey
  rw [htoken] at hstarts
  exact absurd hstarts (by simp [Token.StartsKey])

/-! ### Keys and values -/

lemma gives_requireToken (hstop : k.current.token ≠ .stop) (hfault : ∀ f, k.current.token ≠ .fault f) :
    requireToken.Gives c k () k := by
  refine (gives_tokenHere c k).bind ?_
  cases htoken : k.current.token with
  | stop => exact absurd htoken hstop
  | fault f => exact absurd htoken (hfault f)
  | _ => exact gives_pure () c k

lemma gives_readKey_word {w : String} (htoken : k.current.token = .word w) :
    (readKey g).Gives c k (.identifier k.current.span w) (k.moved c) := by
  refine (gives_requireToken (by simp [htoken]) (by simp [htoken])).bind ?_
  refine (gives_lexemeHere c k).bind ?_
  rw [htoken]
  exact (gives_skip c k).bind (gives_pure _ c _)

/-- With types or without, what comes behind a missing modifier comes next. -/
lemma gives_modifier {β : Type} {f : Bool → Parser β} {b : β}
    (hmodifier : eatParameterModifier.Gives c k false k) (hf : (f false).Gives c k b k') :
    (if c.dialect.isTyped = true then eatParameterModifier >>= f
      else pure false >>= f).Gives c k b k' := by
  split
  · exact hmodifier.bind hf
  · exact (gives_pure false c k).bind hf

/-- A key with a colon and a value behind it is a property. -/
lemma gives_readProperty {k₁ k₂ : Cursor} {value : Expr} (hkey : (readKey g).Gives c k key k₁)
    (hcolon : k₁.current.token = .punctuator ":")
    (hvalue : (bracketed g).Gives c (k₁.moved c) value k₂) :
    (readProperty g).Gives c k (.keyValue key value) k₂ := by
  have hstarts := readKey_token hkey
  have hdots : k.current.token ≠ .punctuator "..." := by
    intro htoken
    simp [htoken, Token.StartsKey] at hstarts
  have hstar : k.current.token ≠ .punctuator "*" := by
    intro htoken
    simp [htoken, Token.StartsKey] at hstarts
  -- a word is no modifier before a colon
  have hmodifier : eatParameterModifier.Gives c k false k := by
    refine gives_eatParameterModifier fun w hw => ?_
    obtain ⟨-, rfl⟩ := hkey.unique (gives_readKey_word hw)
    rw [hcolon]
    decide
  have hgoes : continuesProperty (.punctuator ":") = true := by decide
  obtain ⟨start, hstart⟩ := exists_gives_offsetHere c k
  rw [readProperty]
  refine hstart.bind ((gives_eat_of_ne hdots).bind ?_)
  rw [if_neg Bool.false_ne_true]
  refine (gives_eat_of_ne hstar).bind ?_
  rw [if_neg Bool.false_ne_true]
  refine (gives_isTyped c k).bind ?_
  refine gives_modifier hmodifier ?_
  refine (gives_get c k).bind (hkey.bind ((gives_tokenHere c k₁).bind ?_))
  rw [hcolon, hgoes]
  simp only [Bool.not_true, Bool.and_false, Bool.false_and, Bool.false_eq_true, if_false]
  exact (gives_eat hcolon).bind (hvalue.bind (gives_pure _ c k₂))

end

/-! ### Texts of properties -/

/-- What may stand behind a property: a gap, and then a comma or the end of the object. -/
abbrev EndsProperty : List Char → Prop :=
  GoesOn [',', '}']

section

variable {g : Grammar} {c : Context} {word gap gap' body : List Char} {key : PropertyKey}
  {value : Expr}

lemma EndsProperty.clean {t : List Char} (h : EndsProperty t) (mode : LexMode) : Clean mode t := by
  refine GoesOn.clean h (fun mark hmark => ?_) mode
  simp only [List.mem_cons, List.not_mem_nil, or_false] at hmark
  obtain rfl | rfl := hmark
  · exact Or.inl rfl
  · exact Or.inr (Or.inr (Or.inr rfl))

/-- The text of a key and that of a value, with a colon and gaps between them, are read as a
property. -/
lemma reads_keyValue
    (hkey : (readKey g).Reads c (fun t => ∃ rest, t = gap ++ ':' :: rest) word
      (·.unplaced = key.unplaced))
    (hgap : IsGap isLineBreak gap) (hgap' : IsGap isLineBreak gap')
    (hvalue : (bracketed g).Reads c EndsProperty body (·.unplaced = value.unplaced)) :
    (readProperty g).Reads c EndsProperty (word ++ gap ++ ':' :: (gap' ++ body))
      (·.unplaced = (Property.keyValue key value).unplaced) := by
  have hcolon : IsMark ':' := Or.inr (Or.inl rfl)
  refine ⟨fun rest _ => ?_, fun k offset rest hends hbefore => ?_⟩
  · have hclean := hkey.clean (gap ++ ':' :: (gap' ++ body ++ rest)) ⟨_, rfl⟩
    simpa using hclean
  · obtain ⟨key', k₁, hgives, hsame, hk₁, hfaults₁⟩ := hkey.gives k offset
      (gap ++ ':' :: (gap' ++ body ++ rest)) ⟨_, rfl⟩ (by simpa using hbefore)
    have hat := hk₁.behind_gap hgap
    rw [List.append_assoc] at hat
    obtain ⟨hk₂, hfaults₂⟩ := hat.moved hcolon ((hvalue.clean rest hends).gap_append hgap')
    obtain ⟨value', k₃, hgives', hsame', hk₃, hfaults₃⟩ :=
      hvalue.gives _ _ rest hends (hk₂.behind_gap hgap')
    refine ⟨.keyValue key' value', k₃, gives_readProperty hgives (hat.at_mark hcolon).1 hgives', ?_,
      ?_, ?_⟩
    · rw [Property.unplaced, Property.unplaced, hsame, hsame']
    · have hsize : ':'.utf8Size = 1 := by decide
      have hoffset : offset + byteLength word + byteLength gap + 1 + byteLength gap'
          + byteLength body = offset + byteLength (word ++ gap ++ ':' :: (gap' ++ body)) := by
        simp only [byteLength_append, byteLength_cons, hsize]
        omega
      rw [← hoffset]
      exact hk₃
    · rw [hfaults₃, hfaults₂, hfaults₁]

end

/-! ### Names as keys -/

section

variable {w : List Char}

/-- A name of letters is read as a key. -/
lemma reads_name {g : Grammar} {context : Context} (hne : w ≠ [])
    (hw : ∀ c ∈ w, isAsciiLetter c = true) :
    (readKey g).Reads context (fun t => ∃ rest, t = ':' :: rest) w
      (·.unplaced = (PropertyKey.identifier nowhere (String.ofList w)).unplaced) := by
  have hname := isIdentifier_of_letters hne hw
  have htoken := readToken_identifier hname (d := ':') (by decide) (by decide) context.lexMode
  obtain ⟨first, w, rfl, hfirst, -⟩ := hname
  have hstarts := (identifierStart_classes hfirst).2.1
  refine ⟨?_, ?_⟩
  · rintro _ ⟨rest, rfl⟩
    exact clean_token hstarts (htoken rest) (by simp) (by simp)
  · rintro k offset _ ⟨rest, rfl⟩ hbefore
    obtain ⟨hword, hplace, hafter⟩ := hbefore.at_token hstarts (htoken rest) (by simp) (by simp)
    have hspan : k.current.span
        = ⟨offset, offset + byteLength (upTo (first :: w ++ ':' :: rest) (':' :: rest))⟩ := hplace
    rw [upTo_append] at hspan
    obtain ⟨hmoved, hfaults⟩ := k.before_moved (c := context) (by rw [hspan]) hafter
      (clean_mark (Or.inr (Or.inl rfl)) _ rest)
    exact ⟨_, _, gives_readKey_word hword, rfl, hmoved, hfaults⟩

end

end SvelteStories.Script
