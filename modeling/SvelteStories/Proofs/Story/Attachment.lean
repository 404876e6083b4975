/-
Comments and the stories that they are given to:

* `exists_of_mem_tagsOf`, `pendingAfter_eq_some_iff`: what a walk over stretches finds, and which
  comment it has pending;
* `BlankBetween`: between two offsets of a text stand blanks only, apart from what is taken out;
* `CoversApart`: stretches cover a text of which some is taken out;
* `comment_eq_some_iff`: a walk gives a story the comment that only blanks separate from it;
* `pairwise_tagsOf`: no comment is given twice.
-/
import Mathlib.Data.List.Induction
import Mathlib.Data.List.Nodup
import SvelteStories.Proofs.Story.Covers

namespace SvelteStories

open Markup

/-! ### Tiles -/

section

variable {spans : List Span} {s : Span} {l : List Stretch} {a b offset : Nat}

lemma Markup.Tiles.le (h : Tiles spans a b) : a ≤ b := by
  induction spans generalizing a with
  | nil => exact Nat.le_of_eq h
  | cons s spans ih =>
      obtain ⟨rfl, hle, hrest⟩ := h
      exact Nat.le_trans hle (ih hrest)

/-- A tile lies between the ends. -/
lemma Markup.Tiles.within (h : Tiles spans a b) (hs : s ∈ spans) : a ≤ s.start ∧ s.stop ≤ b := by
  induction spans generalizing a with
  | nil => exact absurd hs List.not_mem_nil
  | cons s' spans ih =>
      obtain ⟨rfl, hle, hrest⟩ := h
      rcases List.mem_cons.mp hs with rfl | hs
      · exact ⟨Nat.le_refl _, hrest.le⟩
      · exact ⟨Nat.le_trans hle (ih hrest hs).1, (ih hrest hs).2⟩

/-- Some tile holds an offset between the ends. -/
lemma Markup.Tiles.exists_holds (h : Tiles spans a b) (ha : a ≤ offset) (hb : offset < b) :
    ∃ s ∈ spans, s.Holds offset := by
  induction spans generalizing a with
  | nil =>
      obtain rfl : a = b := h
      omega
  | cons s spans ih =>
      obtain ⟨rfl, -, hrest⟩ := h
      by_cases hstop : offset < s.stop
      · exact ⟨s, List.mem_cons_self, ha, hstop⟩
      · obtain ⟨s', hs', hholds⟩ := ih hrest (by omega)
        exact ⟨s', List.mem_cons_of_mem _ hs', hholds⟩

/-- Stretches between two others cover what is between them. -/
lemma tiles_between {l₁ l₂ l₃ : List Stretch} {r s : Stretch}
    (h : Tiles ((l₁ ++ r :: l₂ ++ s :: l₃).map Stretch.span) a b) :
    Tiles (l₂.map Stretch.span) r.span.stop s.span.start := by
  rw [List.map_append, List.map_append, tiles_append_iff] at h
  obtain ⟨m, hbefore, hbehind⟩ := h
  obtain ⟨rfl, -, -⟩ := hbehind
  obtain ⟨k, -, hk⟩ := tiles_append_iff.mp hbefore
  obtain ⟨-, -, hbetween⟩ := hk
  exact hbetween

/-- No two stretches hold the same offset. -/
lemma eq_of_holds (h : Tiles (l.map Stretch.span) a b) {x y : Stretch} (hx : x ∈ l) (hy : y ∈ l)
    (hox : x.span.Holds offset) (hoy : y.span.Holds offset) : x = y := by
  induction l generalizing a with
  | nil => exact absurd hx List.not_mem_nil
  | cons s l ih =>
      obtain ⟨-, -, hrest⟩ := h
      have hbehind : ∀ r ∈ l, r.span.Holds offset → ¬ s.span.Holds offset := by
        intro r hr hor hos
        have hle := (hrest.within (List.mem_map_of_mem hr)).1
        exact absurd hos.2 (by have := hor.1; omega)
      rcases List.mem_cons.mp hx with hxs | hx
      · rcases List.mem_cons.mp hy with hys | hy
        · rw [hxs, hys]
        · exact absurd (hxs ▸ hox) (hbehind y hy hoy)
      · rcases List.mem_cons.mp hy with hys | hy
        · exact absurd (hys ▸ hoy) (hbehind x hx hox)
        · exact ih hrest hx hy

end

/-! ### What a walk finds -/

section

variable {pending : Option TemplateComment} {c : TemplateComment} {tag : StoryTag}
  {l : List Stretch}

lemma kind_eq_of_comment? {s : Stretch} (h : s.comment? = some c) :
    s.kind = .comment c.data ∧ s.span = c.span := by
  unfold Stretch.comment? at h
  split at h
  · rename_i data hkind
    obtain rfl := Option.some.inj h
    exact ⟨hkind, rfl⟩
  all_goals simp at h

lemma kind_eq_of_tag? {s : Stretch} (h : s.tag? pending = some tag) :
    s.kind = .story tag.element ∧ tag.comment = pending := by
  unfold Stretch.tag? at h
  split at h
  · rename_i e hkind
    obtain rfl := Option.some.inj h
    exact ⟨hkind, rfl⟩
  all_goals simp at h

/-- What is pending behind a stretch is the stretch itself or was pending before. -/
lemma eq_some_of_next {s : Stretch} (h : s.next pending = some c) :
    s.comment? = some c ∨ pending = some c := by
  unfold Stretch.next at h
  split at h
  · rename_i data hkind
    refine Or.inl ?_
    rw [Stretch.comment?, hkind]
    exact h
  · exact Or.inr h
  · simp at h
  · simp at h

/-- A story tag is found where a story begins, with the comment that is pending there. -/
lemma exists_of_mem_tagsOf (h : tag ∈ tagsOf pending l) :
    ∃ (l₁ : List Stretch) (s : Stretch) (l₂ : List Stretch), l = l₁ ++ s :: l₂
      ∧ s.kind = .story tag.element
      ∧ tag.comment = pendingAfter pending l₁ := by
  induction l generalizing pending with
  | nil => exact absurd h List.not_mem_nil
  | cons s l ih =>
      rw [tagsOf, List.mem_append, Option.mem_toList] at h
      rcases h with h | h
      · exact ⟨[], s, l, rfl, kind_eq_of_tag? h⟩
      · obtain ⟨l₁, r, l₂, rfl, hkind, hcomment⟩ := ih h
        exact ⟨s :: l₁, r, l₂, rfl, hkind, hcomment⟩

/-- A comment is pending if only quiet stretches are behind it. -/
lemma pendingAfter_eq_some_iff :
    pendingAfter none l = some c
      ↔ ∃ (l₁ : List Stretch) (s : Stretch) (l₂ : List Stretch), l = l₁ ++ s :: l₂
        ∧ s.comment? = some c ∧ ∀ r ∈ l₂, r.kind = .quiet := by
  induction l using List.reverseRecOn with
  | nil => simp [pendingAfter]
  | append_singleton l s ih =>
      have hnext : pendingAfter none (l ++ [s]) = s.next (pendingAfter none l) := by
        rw [pendingAfter_append]
        rfl
      rw [hnext]
      constructor
      · intro h
        unfold Stretch.next at h
        split at h
        · rename_i data hkind
          have hs : s.comment? = some c := by
            rw [Stretch.comment?, hkind]
            exact h
          exact ⟨l, s, [], rfl, hs, fun _ hr => absurd hr List.not_mem_nil⟩
        · rename_i hkind
          obtain ⟨l₁, r, l₂, rfl, hr, hquiet⟩ := ih.mp h
          refine ⟨l₁, r, l₂ ++ [s], by simp, hr, fun x hx => ?_⟩
          rcases List.mem_append.mp hx with hx | hx
          · exact hquiet x hx
          · exact List.mem_singleton.mp hx ▸ hkind
        · simp at h
        · simp at h
      · rintro ⟨l₁, r, l₂, hl, hr, hquiet⟩
        rcases List.eq_nil_or_concat l₂ with rfl | ⟨m, x, rfl⟩
        · obtain ⟨rfl, hs⟩ := List.append_inj' hl rfl
          obtain rfl := List.singleton_inj.mp hs
          obtain ⟨hkind, hspan⟩ := kind_eq_of_comment? hr
          rw [Stretch.next, hkind, hspan]
        · rw [List.concat_eq_append] at hl hquiet
          have hsplit : l ++ [s] = (l₁ ++ r :: m) ++ [x] := by simpa using hl
          obtain ⟨rfl, hs⟩ := List.append_inj' hsplit rfl
          obtain rfl := List.singleton_inj.mp hs
          have hx := hquiet s (List.mem_append_right _ (List.mem_singleton_self s))
          rw [Stretch.next, hx]
          exact ih.mpr ⟨l₁, r, m, rfl, hr, fun y hy => hquiet y (List.mem_append_left _ hy)⟩

/-- The comment of a story is the pending one, or stands among the stretches. -/
lemma comment_of_mem_tagsOf (h : tag ∈ tagsOf pending l) (hc : tag.comment = some c) :
    pending = some c ∨ c ∈ l.filterMap Stretch.comment? := by
  induction l generalizing pending with
  | nil => exact absurd h List.not_mem_nil
  | cons s l ih =>
      rw [tagsOf, List.mem_append, Option.mem_toList] at h
      rcases h with h | h
      · exact Or.inl ((kind_eq_of_tag? h).2 ▸ hc)
      · rcases ih h with hnext | hmem
        · rcases eq_some_of_next hnext with hs | hpending
          · exact Or.inr (List.mem_filterMap.mpr ⟨s, List.mem_cons_self, hs⟩)
          · exact Or.inl hpending
        · obtain ⟨r, hr, hcomment⟩ := List.mem_filterMap.mp hmem
          exact Or.inr (List.mem_filterMap.mpr ⟨r, List.mem_cons_of_mem _ hr, hcomment⟩)

/-- No comment is given twice. -/
lemma pairwise_tagsOf (hnodup : (l.filterMap Stretch.comment?).Nodup)
    (hpending : ∀ c, pending = some c → c ∉ l.filterMap Stretch.comment?) :
    (tagsOf pending l).Pairwise fun x y => ∀ c, x.comment = some c → y.comment ≠ some c := by
  induction l generalizing pending with
  | nil => exact List.Pairwise.nil
  | cons s l ih =>
      have hrest : ∀ c, c ∈ l.filterMap Stretch.comment? →
          c ∈ (s :: l).filterMap Stretch.comment? := by
        intro c hc
        obtain ⟨r, hr, hcomment⟩ := List.mem_filterMap.mp hc
        exact List.mem_filterMap.mpr ⟨r, List.mem_cons_of_mem _ hr, hcomment⟩
      have hnext : ∀ c, s.next pending = some c → c ∉ l.filterMap Stretch.comment? := by
        intro c hc
        rcases eq_some_of_next hc with hs | hp
        · rw [List.filterMap_cons_some hs] at hnodup
          exact (List.nodup_cons.mp hnodup).1
        · exact fun hmem => hpending c hp (hrest c hmem)
      have htail : (l.filterMap Stretch.comment?).Nodup := by
        cases hs : s.comment? with
        | none => rwa [List.filterMap_cons_none hs] at hnodup
        | some c =>
            rw [List.filterMap_cons_some hs] at hnodup
            exact (List.nodup_cons.mp hnodup).2
      rw [tagsOf, List.pairwise_append]
      refine ⟨?_, ih htail hnext, ?_⟩
      · cases s.tag? pending <;> simp
      · intro x hx y hy c hxc hyc
        obtain ⟨hkind, hcomment⟩ := kind_eq_of_tag? (Option.mem_toList.mp hx)
        -- behind a story nothing is pending
        rcases comment_of_mem_tagsOf hy hyc with hbehind | hmem
        · rw [Stretch.next, hkind] at hbehind
          simp at hbehind
        · exact hpending c (hcomment ▸ hxc) (hrest c hmem)

end

/-! ### What stands between a comment and a story -/

/-- Between two offsets of a text stand blanks only, apart from what is taken out of it. -/
def BlankBetween (t : List Char) (taken : List Span) (a b : Nat) : Prop :=
  a ≤ b ∧ ∀ offset c, a ≤ offset → offset < b → CharAt t offset c →
    isBlank c = true ∨ ∃ s ∈ taken, s.Holds offset

/-- Stretches cover a text, some of which is taken out of it as quiet stretches. -/
structure CoversApart (t : List Char) (taken : List Span) (l : List Stretch) (start stop : Nat) :
    Prop where
  /-- They follow one another. -/
  tiles : Tiles (l.map Stretch.span) start stop
  /-- Each has its text or is taken out. -/
  fits : ∀ s ∈ l, s.Fits t ∨ s.kind = .quiet ∧ s.span ∈ taken
  /-- What is taken out is a stretch. -/
  mem : ∀ s ∈ taken, ∃ r ∈ l, r.kind = .quiet ∧ r.span = s

section

variable {t : List Char} {taken : List Span} {l : List Stretch} {a b : Nat}

/-- A stretch that is not quiet is loud. -/
lemma CoversApart.isLoud (h : CoversApart t taken l a b) {s : Stretch} (hs : s ∈ l)
    (hkind : s.kind ≠ .quiet) : IsLoud t s.span := by
  rcases h.fits s hs with hfits | ⟨hquiet, -⟩
  · unfold Stretch.Fits at hfits
    split at hfits
    · exact hfits
    · exact hfits
    · exact hfits.2
    · rename_i hquiet
      exact absurd hquiet hkind
  · exact absurd hquiet hkind

/-- A story begins where its stretch does. -/
lemma CoversApart.start_eq (h : CoversApart t taken l a b) {s : Stretch} (hs : s ∈ l)
    {e : Markup.Element} (he : s.kind = .story e) : e.span.start = s.span.start := by
  rcases h.fits s hs with hfits | ⟨hquiet, -⟩
  · rw [Stretch.Fits, he] at hfits
    exact hfits.1
  · simp [he] at hquiet

/-- A walk gives a story the comment that only blanks separate from it. -/
theorem comment_eq_some_iff (h : CoversApart t taken l a b) {tag : StoryTag}
    (htag : tag ∈ tagsOf none l) {c : TemplateComment} (hc : c ∈ l.filterMap Stretch.comment?) :
    tag.comment = some c ↔ BlankBetween t taken c.span.stop tag.element.span.start := by
  obtain ⟨l₁, s, l₂, rfl, hkind, hcomment⟩ := exists_of_mem_tagsOf htag
  have hs : s ∈ l₁ ++ s :: l₂ := List.mem_append_right _ List.mem_cons_self
  rw [hcomment, h.start_eq hs hkind]
  constructor
  · intro hpending
    obtain ⟨m₁, r, m₂, rfl, hr, hquiet⟩ := pendingAfter_eq_some_iff.mp hpending
    rw [← (kind_eq_of_comment? hr).2]
    have htiles := tiles_between h.tiles
    refine ⟨htiles.le, fun offset d hle hlt hd => ?_⟩
    obtain ⟨_, hmem, hholds⟩ := htiles.exists_holds hle hlt
    obtain ⟨x, hx, rfl⟩ := List.mem_map.mp hmem
    have hxl : x ∈ m₁ ++ r :: m₂ ++ s :: l₂ := by simp [hx]
    rcases h.fits x hxl with hfits | ⟨-, htaken⟩
    · rw [Stretch.Fits, hquiet x hx] at hfits
      exact Or.inl (hfits offset d hholds hd)
    · exact Or.inr ⟨x.span, htaken, hholds⟩
  · rintro ⟨hle, hblank⟩
    obtain ⟨r, hr, hrc⟩ := List.mem_filterMap.mp hc
    obtain ⟨hrkind, hrspan⟩ := kind_eq_of_comment? hrc
    have hrloud := (h.isLoud hr (by simp [hrkind])).lt
    have hsloud := (h.isLoud hs (by simp [hkind])).lt
    rw [← hrspan] at hle hblank
    obtain ⟨m₁, m₂, rfl⟩ : ∃ m₁ m₂, l₁ = m₁ ++ r :: m₂ := by
      rcases List.mem_append.mp hr with hr | hr
      · exact List.append_of_mem hr
      · -- neither the story nor what is behind it ends before it
        exfalso
        rcases List.mem_cons.mp hr with rfl | hr
        · omega
        · obtain ⟨k₁, k₂, rfl⟩ := List.append_of_mem hr
          have hsplit : l₁ ++ s :: (k₁ ++ r :: k₂) = l₁ ++ s :: k₁ ++ r :: k₂ := by simp
          have hbehind := (tiles_between (hsplit ▸ h.tiles)).le
          omega
    refine pendingAfter_eq_some_iff.mpr ⟨m₁, r, m₂, rfl, hrc, fun x hx => ?_⟩
    by_contra hkind'
    have hxl : x ∈ m₁ ++ r :: m₂ ++ s :: l₂ := by simp [hx]
    obtain ⟨offset, d, hholds, hd, hloud⟩ := h.isLoud hxl hkind'
    obtain ⟨hstart', hstop'⟩ := (tiles_between h.tiles).within (List.mem_map_of_mem hx)
    rcases hblank offset d (Nat.le_trans hstart' hholds.1) (Nat.lt_of_lt_of_le hholds.2 hstop') hd
      with hd | ⟨taken, hmem, htaken⟩
    · simp [hloud] at hd
    · -- what is taken out is quiet, and stretches do not overlap
      obtain ⟨y, hy, hyquiet, rfl⟩ := h.mem taken hmem
      exact hkind' (eq_of_holds h.tiles hxl hy hholds htaken ▸ hyquiet)

/-- The stories among stretches that follow one another begin one behind the other. -/
lemma pairwise_start_tagsOf {pending : Option TemplateComment}
    (htiles : Tiles (l.map Stretch.span) a b)
    (hstories : ∀ s ∈ l, ∀ e, s.kind = .story e →
      e.span.start = s.span.start ∧ s.span.start < s.span.stop) :
    (∀ tag ∈ tagsOf pending l, a ≤ tag.element.span.start)
      ∧ (tagsOf pending l).Pairwise fun x y => x.element.span.start < y.element.span.start := by
  induction l generalizing a pending with
  | nil => exact ⟨fun _ h => absurd h List.not_mem_nil, List.Pairwise.nil⟩
  | cons s l ih =>
      obtain ⟨rfl, hle, hrest⟩ := htiles
      obtain ⟨hs, hl⟩ := List.forall_mem_cons.mp hstories
      obtain ⟨hbehind, hpairwise⟩ := @ih _ (s.next pending) hrest hl
      have hhere : ∀ x ∈ (s.tag? pending).toList, x.element.span.start = s.span.start
          ∧ s.span.start < s.span.stop := fun x hx =>
        hs x.element (kind_eq_of_tag? (Option.mem_toList.mp hx)).1
      rw [tagsOf]
      refine ⟨fun tag htag => ?_, List.pairwise_append.mpr ⟨?_, hpairwise, fun x hx y hy => ?_⟩⟩
      · rcases List.mem_append.mp htag with htag | htag
        · exact Nat.le_of_eq (hhere tag htag).1.symm
        · exact Nat.le_trans hle (hbehind tag htag)
      · cases s.tag? pending <;> simp
      · have hy := hbehind y hy
        have hx := hhere x hx
        omega

/-- The stories that a walk finds are in the order in which they begin in the text. -/
lemma CoversApart.pairwise_start (h : CoversApart t taken l a b) :
    (tagsOf none l).Pairwise fun x y => x.element.span.start < y.element.span.start := by
  refine (pairwise_start_tagsOf h.tiles fun s hs e he => ⟨?_, ?_⟩).2
  · exact h.start_eq hs he
  · exact (h.isLoud hs (by simp [he])).lt

/-- Comments stand at places of their own. -/
lemma CoversApart.nodup (h : CoversApart t taken l a b) :
    (l.filterMap Stretch.comment?).Nodup := by
  have hloud : ∀ s ∈ l, ∀ c, s.comment? = some c → s.span.start < s.span.stop := by
    intro s hs c hc
    have hkind := (kind_eq_of_comment? hc).1
    exact (h.isLoud hs (by simp [hkind])).lt
  have htiles := h.tiles
  clear h
  induction l generalizing a with
  | nil => exact List.nodup_nil
  | cons s l ih =>
      obtain ⟨-, -, hrest⟩ := htiles
      obtain ⟨hs, hl⟩ := List.forall_mem_cons.mp hloud
      cases hc : s.comment? with
      | none =>
          rw [List.filterMap_cons_none hc]
          exact ih hl hrest
      | some c =>
          rw [List.filterMap_cons_some hc]
          refine List.nodup_cons.mpr ⟨fun hmem => ?_, ih hl hrest⟩
          obtain ⟨r, hr, hrc⟩ := List.mem_filterMap.mp hmem
          have hlt := hs c hc
          have hle := (hrest.within (List.mem_map_of_mem hr)).1
          rw [(kind_eq_of_comment? hrc).2, ← (kind_eq_of_comment? hc).2] at hle
          omega

end

end SvelteStories
