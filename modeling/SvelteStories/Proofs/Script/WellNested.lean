/-
Trees whose places are nested as the trees are:

* `Encloses`: a range of the text holds the places of some trees, which are apart from one another;
* `Tree.WellNested`: every tree in a tree encloses its children, and objects stand in their braces;
* `Program.WellNested`: so do the items of a module.

This is what a parser promises about the places that it gives. `Program.isWellNested` checks it.
-/
import SvelteStories.Proofs.Script.Tree
import SvelteStories.Proofs.Text.Boundary
import SvelteStories.Proofs.Text.Ranges

namespace SvelteStories.Script

/-! ### Trees -/

/-- A range of a text that begins and ends between characters holds the places of some trees, which
are apart from one another. -/
structure Encloses (t : List Char) (s : Span) (trees : List Tree) : Prop where
  /-- The range does not end before it begins. -/
  ordered : s.start ≤ s.stop
  /-- It begins between characters. -/
  start : Boundary t s.start
  /-- It ends between characters. -/
  stop : Boundary t s.stop
  /-- The trees stand in it. -/
  inside : ∀ n ∈ trees, s.contains n.span = true
  /-- They are apart. -/
  apart : trees.Pairwise fun m n => m.span.Apart n.span

/-- Between the braces of an object literal. -/
def ObjectLiteral.inner (o : ObjectLiteral) : Span :=
  ⟨o.span.start + 1, o.span.stop - 1⟩

/-- An object literal begins with its opening brace and ends with its closing brace, and its
properties stand between them. -/
structure ObjectLiteral.Braced (t : List Char) (o : ObjectLiteral) : Prop where
  /-- The braces. -/
  braces : ∃ inside, slice? t o.span = some ('{' :: (inside ++ ['}']))
  /-- The properties. -/
  properties : ∀ p ∈ o.properties, o.inner.contains p.span = true

/-- The braces of a tree, if it is an object literal. -/
def Tree.Braced (t : List Char) (n : Tree) : Prop :=
  ∀ o, n = .expr (.object o) → o.Braced t

/-- Every tree in a tree encloses its children in a text, and every object literal stands in its
braces. -/
inductive Tree.WellNested (t : List Char) : Tree → Prop
  /-- A tree with such children. -/
  | intro {n : Tree} : Encloses t n.span n.children → n.Braced t →
      (∀ c ∈ n.children, Tree.WellNested t c) → Tree.WellNested t n

namespace Tree.WellNested

variable {t : List Char} {n c : Tree}

lemma encloses (h : n.WellNested t) : Encloses t n.span n.children := by
  cases h with
  | intro hencloses _ _ => exact hencloses

lemma child (h : n.WellNested t) (hc : c ∈ n.children) : c.WellNested t := by
  cases h with
  | intro _ _ hchildren => exact hchildren c hc

lemma braced {o : ObjectLiteral} (h : (Tree.expr (.object o)).WellNested t) : o.Braced t := by
  cases h with
  | intro _ hbraced _ => exact hbraced o rfl

lemma contains (h : n.WellNested t) (hc : c ∈ n.children) : n.span.contains c.span = true :=
  h.encloses.inside c hc

end Tree.WellNested

/-! ### Modules -/

/-- The trees right inside of what an item exports by default. -/
def DefaultExport.trees : DefaultExport → List Tree
  | .function _ parts => treesOfPieces parts
  | .classes _ head heritage body =>
    treesOfPieces head ++ treesOfPieces body ++ treesOfPieces heritage
  | .interfaces => []
  | .expression value => [.expr value]

/-- The trees right inside of an item. -/
def Item.trees (i : Item) : List Tree :=
  match i.form with
  | .statement s | .exportDeclaration s => [.statement s]
  | .exportDefault value => value.trees
  | .imports _ _ _ | .exportNames _ _ | .exportAll _ _ _ | .other _ => []

/-- An item encloses its trees. -/
structure Item.WellNested (t : List Char) (i : Item) : Prop where
  /-- The trees stand in the item. -/
  encloses : Encloses t i.span i.trees
  /-- Each of them encloses its own. -/
  trees : ∀ n ∈ i.trees, n.WellNested t

/-- The items of a module are apart, and each encloses its trees. -/
structure Program.WellNested (t : List Char) (items : Program) : Prop where
  /-- The items have no byte in common. -/
  apart : items.Pairwise fun i j => i.span.Apart j.span
  /-- They enclose their trees. -/
  items : ∀ i ∈ items, i.WellNested t

/-! ### Checks -/

instance (t : List Char) (s : Span) (trees : List Tree) : Decidable (Encloses t s trees) :=
  decidable_of_iff
    (s.start ≤ s.stop ∧ Boundary t s.start ∧ Boundary t s.stop
      ∧ (∀ n ∈ trees, s.contains n.span = true) ∧ trees.Pairwise fun m n => m.span.Apart n.span)
    ⟨fun ⟨hordered, hstart, hstop, hinside, hapart⟩ => ⟨hordered, hstart, hstop, hinside, hapart⟩,
      fun h => ⟨h.ordered, h.start, h.stop, h.inside, h.apart⟩⟩

/-- Whether a tree that is an object literal stands in its braces. -/
def Tree.isBraced (t : List Char) : Tree → Bool
  | .expr (.object o) =>
    (match slice? t o.span with
      | some ('{' :: rest) => rest.getLast? = some '}'
      | _ => false)
      && o.properties.all fun p => o.inner.contains p.span
  | _ => true

/-- Whether a tree and the trees in it, down to a depth, are nested as their places. -/
def Tree.isWellNested (t : List Char) : (depth : Nat) → Tree → Bool
  | 0, _ => false
  | depth + 1, n =>
    decide (Encloses t n.span n.children) && n.isBraced t
      && n.children.all (Tree.isWellNested t depth)

/-- Whether the items of a module and the trees in them, down to a depth, are nested as their
places. -/
def Program.isWellNested (t : List Char) (depth : Nat) (items : Program) : Bool :=
  decide (items.Pairwise fun i j => i.span.Apart j.span)
    && items.all fun i =>
      decide (Encloses t i.span i.trees) && i.trees.all (Tree.isWellNested t depth)

lemma Tree.braced_of_isBraced {t : List Char} {n : Tree} (h : n.isBraced t = true) :
    n.Braced t := by
  intro o ho
  subst ho
  simp only [isBraced, Bool.and_eq_true, List.all_eq_true] at h
  obtain ⟨hbraces, hproperties⟩ := h
  refine ⟨?_, hproperties⟩
  split at hbraces
  · rename_i rest hslice
    obtain ⟨inside, rfl⟩ := List.getLast?_eq_some_iff.mp (of_decide_eq_true hbraces)
    exact ⟨inside, hslice⟩
  · exact absurd hbraces (by simp)

lemma Tree.wellNested_of_isWellNested {t : List Char} {depth : Nat} {n : Tree}
    (h : n.isWellNested t depth = true) : n.WellNested t := by
  induction depth generalizing n with
  | zero => simp [isWellNested] at h
  | succ depth ih =>
      simp only [isWellNested, Bool.and_eq_true, decide_eq_true_eq, List.all_eq_true] at h
      obtain ⟨⟨hencloses, hbraced⟩, hchildren⟩ := h
      exact .intro hencloses (braced_of_isBraced hbraced) fun c hc => ih (hchildren c hc)

/-- The check is sound. -/
theorem Program.wellNested_of_isWellNested {t : List Char} {depth : Nat} {items : Program}
    (h : items.isWellNested t depth = true) : items.WellNested t := by
  simp only [isWellNested, Bool.and_eq_true, decide_eq_true_eq, List.all_eq_true] at h
  obtain ⟨hapart, hitems⟩ := h
  refine ⟨hapart, fun i hi => ⟨(hitems i hi).1, fun n hn => ?_⟩⟩
  exact Tree.wellNested_of_isWellNested ((hitems i hi).2 n hn)

end SvelteStories.Script
