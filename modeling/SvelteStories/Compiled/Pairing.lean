/-
Story tags of a source paired with story calls of the compiled module. Both come in document
order, and the last pair comes first, so that whatever is done to one pair leaves the places of
the pairs still to come alone.
-/
import SvelteStories.Fault

namespace SvelteStories

/-- A story tag, its place among the tags, and the call it was compiled to. -/
structure StoryPair (α β : Type) where
  /-- The number of tags before it. -/
  index : Nat
  /-- The tag. -/
  source : α
  /-- The call. -/
  compiled : β
deriving Repr

/-- Pairs from the heads of two lists, numbered from `n`. -/
def pairFrom {α β : Type} (n : Nat) : List α → List β → List (StoryPair α β)
  | a :: as, b :: bs => ⟨n, a, b⟩ :: pairFrom (n + 1) as bs
  | _, _ => []

/-- The pairs, last first. There have to be as many calls as tags. -/
def pairStories {α β : Type} (tags : List α) (calls : List β) :
    Except Fault (List (StoryPair α β)) :=
  if tags.length = calls.length then .ok (pairFrom 0 tags calls).reverse
  else .error (.storyCountMismatch tags.length calls.length)

end SvelteStories
