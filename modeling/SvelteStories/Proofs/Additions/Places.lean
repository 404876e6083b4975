/-
Where additions to parameters are made:

* `ObjectLiteral.Braced.boundary_inner`: where the text between the braces of an object ends;
* `exists_edit_of_appendProperty`: a further property stands between the braces of its object;
* `editOwner_cases`: so does whatever is edited for the sake of additions, one edit at most.
-/
import SvelteStories.Additions.Parameters
import SvelteStories.Proofs.Edit.Regions
import SvelteStories.Proofs.Script.WellNested

namespace SvelteStories

open Script

/-! ### Between the braces -/

/-- The text between the braces of an object literal. -/
lemma Script.ObjectLiteral.Braced.boundary_inner {t : List Char} {o : ObjectLiteral}
    (h : o.Braced t) :
    o.inner.start ≤ o.inner.stop ∧ Boundary t o.inner.stop := by
  obtain ⟨inside, hslice⟩ := h.braces
  obtain ⟨before, behind, rfl, hstart, hstop⟩ := slice?_eq_some_iff.mp hslice
  have hbrace : '{'.utf8Size = 1 := by decide
  have hbrace' : '}'.utf8Size = 1 := by decide
  simp only [byteLength_cons, byteLength_append, byteLength_nil, hbrace, hbrace'] at hstop
  rw [ObjectLiteral.inner]
  refine ⟨by simp only; omega, before ++ '{' :: inside, '}' :: behind, by simp, ?_⟩
  simp only [byteLength_append, byteLength_cons, hbrace]
  omega

lemma Script.ObjectLiteral.Braced.contains_inner {t : List Char} {o : ObjectLiteral}
    (h : o.Braced t) : o.span.start < o.inner.start ∧ o.inner.stop < o.span.stop := by
  have := h.boundary_inner.1
  rw [ObjectLiteral.inner] at this ⊢
  simp only at this ⊢
  omega

/-- An edit between the braces of an object lies inside of the object. -/
lemma Edit.Within.inside_of_inner {t : List Char} {o : ObjectLiteral} {e : Edit}
    (ho : o.Braced t) (h : e.Within o.inner) : e.Inside o.span := by
  have hinner := ho.contains_inner
  rw [Within] at h
  exact ⟨by rw [Within]; omega, fun _ => by omega⟩

/-- A range of the text can be replaced. -/
lemma Script.Encloses.fits {t : List Char} {s : Span} {trees : List Tree} (h : Encloses t s trees)
    (text : List Char) : (⟨s.start, s.stop, text⟩ : Edit).Fits t :=
  ⟨h.ordered, h.stop.le, h.start, h.stop⟩

lemma Script.Encloses.within {t : List Char} {s s' : Span} {trees : List Tree}
    (h : Encloses t s trees) (hs : s'.contains s = true) (text : List Char) :
    (⟨s.start, s.stop, text⟩ : Edit).Within s' := by
  rw [Span.contains_iff] at hs
  exact ⟨hs.1, h.ordered, hs.2⟩

lemma fits_insertion {t : List Char} {offset : Nat} (h : Boundary t offset) (text : List Char) :
    (⟨offset, offset, text⟩ : Edit).Fits t :=
  ⟨Nat.le_refl _, h.le, h, h⟩

/-! ### Additions -/

/-- A property of an object literal is one of the trees in it. -/
lemma mem_children_of_property {o : ObjectLiteral} {p : Property} (hp : p ∈ o.properties) :
    Tree.property p ∈ (Tree.expr (.object o)).children :=
  List.mem_map_of_mem hp

lemma mem_of_splitLast? {α : Type} {test : α → Bool} {l before behind : List α} {a : α}
    (h : splitLast? test l = some (before, a, behind)) : a ∈ l := by
  induction l generalizing before with
  | nil => simp [splitLast?] at h
  | cons b l ih =>
      rw [splitLast?] at h
      split at h
      · rename_i before' c behind' hsplit
        simp only [Option.some.injEq, Prod.mk.injEq] at h
        obtain ⟨-, rfl, rfl⟩ := h
        exact List.mem_cons_of_mem _ (ih hsplit)
      · split_ifs at h
        simp only [Option.some.injEq, Prod.mk.injEq] at h
        simp [h.2.1]

/-- A further property is inserted between the braces of its object. -/
lemma exists_edit_of_appendProperty {t : List Char} {o : ObjectLiteral}
    (ho : (Tree.expr (.object o)).WellNested t) (draft : Draft) (text : List Char) :
    ∃ e : Edit, e.Fits t ∧ e.Within o.inner
      ∧ appendProperty draft o text = draft.overwrite e.start e.stop e.text := by
  obtain ⟨hle, hclosing⟩ := ho.braced.boundary_inner
  have hend : ∀ spaced : List Char, ∃ e : Edit, e.Fits t ∧ e.Within o.inner
      ∧ draft.insert o.inner.stop spaced = draft.overwrite e.start e.stop e.text := fun spaced =>
    ⟨⟨_, _, spaced⟩, fits_insertion hclosing spaced, ⟨hle, Nat.le_refl _, Nat.le_refl _⟩, rfl⟩
  rw [appendProperty]
  cases hlast : o.properties.getLast? with
  | none => exact hend _
  | some last =>
      have hmem : last ∈ o.properties := List.mem_of_getLast? hlast
      have hencloses := (ho.child (mem_children_of_property hmem)).encloses
      have hinner := Span.contains_iff.mp (ho.braced.properties last hmem)
      dsimp only
      split
      · exact hend _
      · -- behind the last property
        refine ⟨⟨_, _, _⟩, fits_insertion hencloses.stop _, ?_, rfl⟩
        exact ⟨Nat.le_trans hinner.1 hencloses.ordered, Nat.le_refl _, hinner.2⟩

/-- Additions to parameters take one edit at most, between the braces of the object. -/
theorem editOwner_cases {t : List Char} {o : ObjectLiteral}
    (ho : (Tree.expr (.object o)).WellNested t) (p : ParameterAdditions) (draft : Draft) :
    (p.editOwner draft o).value = .ok draft
      ∨ ∃ e : Edit, e.Fits t ∧ e.Within o.inner
        ∧ (p.editOwner draft o).value = draft.overwrite e.start e.stop e.text := by
  rw [ParameterAdditions.editOwner]
  split
  · exact Or.inl rfl
  split
  · exact Or.inr (exists_edit_of_appendProperty ho draft _)
  · rename_i before property behind hsplit
    have hmem := mem_of_splitLast? hsplit
    have hproperty := ho.child (mem_children_of_property hmem)
    have hinner := ho.braced.properties property hmem
    split
    · exact Or.inl rfl
    · right
      dsimp only
      split
      · -- the value is replaced
        rename_i key value _
        have hchild : Tree.expr value ∈ (Tree.property (.keyValue key value)).children := by
          simp [Tree.children, Property.children]
        have hvalue := (hproperty.child hchild).encloses
        have hinside := Span.contains_trans hinner (hproperty.contains hchild)
        exact ⟨⟨_, _, _⟩, hvalue.fits _, hvalue.within hinside _, rfl⟩
      · -- the whole property is replaced
        have hencloses := hproperty.encloses
        exact ⟨⟨_, _, _⟩, hencloses.fits _, hencloses.within hinner _, rfl⟩

end SvelteStories
