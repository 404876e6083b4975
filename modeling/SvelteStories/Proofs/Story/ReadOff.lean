/-
The stories of a file and their tags:

* `isExportName_iff`: the names that can be exported;
* `Story.ReadOff`: a story as it is read off its tag;
* `readStories_forall₂`: the stories are read off the tags one by one, in the order of the tags;
* `isSome_tags`, `isSome_comment`: a story has tags of its own if its tag has the attribute,
  and a description only if a comment is attached;
* `nodup_exportNames`, `isExportName_of_mem`: the export names are valid, and no two are the same.
-/
import Mathlib.Data.List.Forall2
import Mathlib.Data.List.Nodup
import SvelteStories.Proofs.Outcome
import SvelteStories.Story.Stories

namespace SvelteStories

open Script Markup

/-! ### Names -/

/-- A character that an export name may start with. -/
def isNameStart (c : Char) : Bool :=
  isAlphabetic c || c = '_' || c = '$'

/-- The names that can be exported, by their characters. -/
lemma isExportName_iff {name : List Char} : isExportName name = true
    ↔ (∃ c t, name = c :: t ∧ isNameStart c = true ∧ ∀ d ∈ t, isNamePart d = true)
      ∧ String.ofList name ∉ reservedWords := by
  cases name with
  | nil => simp [isExportName]
  | cons c t => simp [isExportName, isNameStart]

lemma checkExportName_eq_ok {name name' : String} (h : checkExportName name = .ok name') :
    name' = name ∧ isExportName name.toList = true ∧ name ≠ exportsOrderName := by
  rw [checkExportName] at h
  split_ifs at h with hvalid horder
  exact ⟨(Except.ok.inj h).symm, hvalid, horder⟩

/-- Whoever gave an export name, it is a valid one. -/
lemma StoryNames.ofGiven_eq_ok {displayName exportName : Option String} {names : StoryNames}
    (h : StoryNames.ofGiven displayName exportName = .ok names) :
    isExportName names.exportName.toList = true ∧ names.exportName ≠ exportsOrderName := by
  rw [ofGiven.eq_def] at h
  split at h
  · cases h
  · obtain ⟨name, hname, hnames⟩ := bind_eq_ok_iff.mp h
    obtain ⟨rfl, hvalid⟩ := checkExportName_eq_ok hname
    rw [← pure_eq_ok_iff.mp hnames]
    exact hvalid
  · obtain ⟨name, hname, hnames⟩ := bind_eq_ok_iff.mp h
    obtain ⟨rfl, hvalid⟩ := checkExportName_eq_ok hname
    rw [← pure_eq_ok_iff.mp hnames]
    exact hvalid

/-- A name is taken exactly if no story holds it. -/
lemma NameRegistry.take_eq_ok {taken taken' : NameRegistry} {names : StoryNames}
    (h : taken.take names = .ok taken') :
    taken' = taken ++ [names] ∧ names.exportName ∉ taken.map StoryNames.exportName := by
  rw [take] at h
  split at h
  · cases h
  · rename_i hfree
    refine ⟨(Except.ok.inj h).symm, fun hmem => ?_⟩
    obtain ⟨holder, hholder, heq⟩ := List.mem_map.mp hmem
    exact List.find?_eq_none.mp hfree holder hholder (by simpa using heq)

/-! ### A single story -/

/-- A story as it is read off its tag. -/
structure Story.ReadOff (f : StoriesFile) (tag : StoryTag) (s : Story) : Prop where
  /-- The story remembers its tag. -/
  tag_eq : s.tag = tag
  /-- The attributes of the tag say the rest of it. -/
  attributes : storyAttributes f.source tag.element = .ok s.attributes
  /-- The code is that of the tag. -/
  rawCode : f.rawCode tag.element s.attributes = .ok s.rawCode
  /-- The description is in the comment that is attached to the tag. -/
  description : s.description = tag.comment.bind fun c => commentDescription c.data

/-- What is made of a value that may be missing is missing with it. -/
lemma isSome_of_mapM_eq_ok {ε α β : Type} {a : Option α} {b : Option β} {f : α → Except ε β}
    (h : a.mapM f = .ok b) : b.isSome = a.isSome := by
  cases a with
  | none =>
      rw [← pure_eq_ok_iff.mp h]
      rfl
  | some a =>
      obtain ⟨b', -, h⟩ := bind_eq_ok_iff.mp h
      rw [← pure_eq_ok_iff.mp h]
      rfl

/-- What the attributes of a tag say comes from readers that all succeed. -/
lemma storyAttributes_eq_ok {source : Source} {e : Markup.Element} {a : StoryAttributes}
    (h : storyAttributes source e = .ok a) :
    (isExportName a.names.exportName.toList = true ∧ a.names.exportName ≠ exportsOrderName)
      ∧ a.tags.isSome = (e.attribute? "tags").isSome := by
  rw [storyAttributes] at h
  simp only [bind_eq_ok_iff, mapError_eq_ok_iff, pure_eq_ok_iff] at h
  obtain ⟨_, -, _, -, names, hnames, tags, htags, _, -, rfl⟩ := h
  exact ⟨StoryNames.ofGiven_eq_ok hnames, isSome_of_mapM_eq_ok htags⟩

namespace Story.ReadOff

variable {f : StoriesFile} {tag : StoryTag} {s : Story}

/-- A story has tags of its own exactly if its tag has the attribute. -/
lemma isSome_tags (h : s.ReadOff f tag) :
    s.attributes.tags.isSome = (tag.element.attribute? "tags").isSome :=
  (storyAttributes_eq_ok h.attributes).2

/-- Only a comment gives a story its description. -/
lemma isSome_comment (h : s.ReadOff f tag) (hdescription : s.description.isSome = true) :
    tag.comment.isSome = true := by
  rw [h.description] at hdescription
  cases hcomment : tag.comment with
  | none => simp [hcomment] at hdescription
  | some _ => rfl

end Story.ReadOff

/-! ### The stories of a file -/

/-- The export names of stories. -/
def exportNamesOf (stories : List Story) : List String :=
  stories.map fun s => s.attributes.names.exportName

/-- The stories of some tags are read off them one by one, and their names are free and distinct. -/
lemma storiesFrom_eq_ok {f : StoriesFile} {taken : NameRegistry} {tags : List StoryTag}
    {stories : List Story} (h : f.storiesFrom taken tags = .ok stories)
    (htaken : (taken.map StoryNames.exportName).Nodup) :
    List.Forall₂ (fun tag s => s.ReadOff f tag) tags stories
      ∧ (taken.map StoryNames.exportName ++ exportNamesOf stories).Nodup := by
  induction tags generalizing taken stories with
  | nil =>
      obtain rfl := Except.ok.inj h
      exact ⟨.nil, by simpa [exportNamesOf] using htaken⟩
  | cons tag tags ih =>
      rw [StoriesFile.storiesFrom] at h
      simp only [bind_eq_ok_iff, mapError_eq_ok_iff, pure_eq_ok_iff] at h
      obtain ⟨attributes, hattributes, taken', htake, rawCode, hrawCode, rest, hrest, rfl⟩ := h
      obtain ⟨rfl, hfree⟩ := NameRegistry.take_eq_ok htake
      have htaken' : ((taken ++ [attributes.names]).map StoryNames.exportName).Nodup := by
        rw [List.map_append, List.map_singleton, List.nodup_append_comm]
        exact List.nodup_cons.mpr ⟨hfree, htaken⟩
      obtain ⟨hread, hnodup⟩ := ih hrest htaken'
      refine ⟨.cons ⟨rfl, hattributes, hrawCode, rfl⟩ hread, ?_⟩
      simpa [exportNamesOf] using hnodup

section

variable {f : StoriesFile} {stories : List Story}

/-- The stories of a file are read off its tags one by one, in the order of the tags. -/
theorem readStories_forall₂ (h : f.readStories = .ok stories) :
    List.Forall₂ (fun tag s => s.ReadOff f tag) f.stories stories :=
  (storiesFrom_eq_ok h List.nodup_nil).1

/-- No two stories of a file have the same export name. -/
theorem nodup_exportNames (h : f.readStories = .ok stories) : (exportNamesOf stories).Nodup :=
  (storiesFrom_eq_ok h List.nodup_nil).2

/-- The export names of a file are valid, and none is the name of the list of them. -/
lemma isExportName_of_mem (h : f.readStories = .ok stories) {name : String}
    (hname : name ∈ exportNamesOf stories) :
    isExportName name.toList = true ∧ name ≠ exportsOrderName := by
  obtain ⟨s, hs, rfl⟩ := List.mem_map.mp hname
  obtain ⟨i, hi, rfl⟩ := List.mem_iff_getElem.mp hs
  have hread := readStories_forall₂ h
  have hlength : i < f.stories.length := hread.length_eq ▸ hi
  exact (storyAttributes_eq_ok (hread.get hlength hi).attributes).1

end

end SvelteStories
