/-
Letter case of single characters:

* `isUpper`, `isLower`: the Uppercase and Lowercase properties;
* `upperCase`, `lowerCase`: the full case mappings, one character to a list of characters.

The mappings look at one character at a time, so a final sigma is lowered like any other sigma.
-/
import SvelteStories.Text.CaseTable
import SvelteStories.Text.CharClass

namespace SvelteStories

/-- Whether one of the progressions holds `n`. -/
def inProgressions (progressions : List (Nat × Nat × Nat)) (n : Nat) : Bool :=
  progressions.any fun (first, last, step) => first ≤ n && n ≤ last && (n - first) % step = 0

/-- The Uppercase property. -/
def isUpper (c : Char) : Bool :=
  if c.toNat < 0x80 then 65 ≤ c.toNat && c.toNat ≤ 90
  else inProgressions CaseTable.upperRanges c.toNat

/-- The Lowercase property. -/
def isLower (c : Char) : Bool :=
  if c.toNat < 0x80 then 97 ≤ c.toNat && c.toNat ≤ 122
  else inProgressions CaseTable.lowerRanges c.toNat

/-- The image of `n` under the first shifted progression that holds it. -/
def shifted? (maps : List (Nat × Nat × Nat × Nat)) (n : Nat) : Option Nat :=
  maps.findSome? fun (first, last, step, image) =>
    if first ≤ n && n ≤ last && (n - first) % step = 0 then some (image + (n - first)) else none

/-- A case mapping given by its expansions and its shifts; every other character stays. -/
def mapCase (expansions : List (Nat × List Nat)) (maps : List (Nat × Nat × Nat × Nat))
    (c : Char) : List Char :=
  match expansions.lookup c.toNat with
  | some codes => codes.map Char.ofNat
  | none => [((shifted? maps c.toNat).map Char.ofNat).getD c]

/-- The full upper case of a character. -/
def upperCase (c : Char) : List Char :=
  if c.toNat < 0x80 then
    [if 97 ≤ c.toNat && c.toNat ≤ 122 then Char.ofNat (c.toNat - 32) else c]
  else mapCase CaseTable.upperExpansions CaseTable.upperMaps c

/-- The full lower case of a character. -/
def lowerCase (c : Char) : List Char :=
  if c.toNat < 0x80 then
    [if 65 ≤ c.toNat && c.toNat ≤ 90 then Char.ofNat (c.toNat + 32) else c]
  else mapCase CaseTable.lowerExpansions CaseTable.lowerMaps c

end SvelteStories
