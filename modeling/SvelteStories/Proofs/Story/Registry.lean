/-
Export names that are claimed one after the other:

* `NameRegistry.afterAll`: the registry after some claims, where a refused one changes nothing;
* `NameRegistry.holder?_afterAll`: the holder of a name is the first that claimed it;
* `FirstClash`, `NameRegistry.take_firstClash`: the first claim of a name that is taken is refused;
* `ReadApart`, `StopsAt`: what comes of tags that are read, and what stops at a tag;
* `readStories_eq_ok_iff`, `readStories_eq_error_iff`: the stories of a file, and the report of the
  first fault in it.
-/
import SvelteStories.Proofs.Story.Comments
import SvelteStories.Proofs.Story.ReadOff

namespace SvelteStories

open Script Markup

/-! ### The registry -/

namespace NameRegistry

/-- The registry after a claim. One that is refused leaves it as it was. -/
def after (taken : NameRegistry) (names : StoryNames) : NameRegistry :=
  (taken.take names).toOption.getD taken

/-- The registry after claims, one after the other. -/
def afterAll (claims : List StoryNames) : NameRegistry :=
  claims.foldl after []

/-- The story that holds an export name. -/
def holder? (taken : NameRegistry) (exportName : String) : Option StoryNames :=
  taken.find? fun s => s.exportName = exportName

section

variable {taken : NameRegistry} {claims : List StoryNames} {names : StoryNames}

lemma holder?_eq_none_iff {exportName : String} :
    taken.holder? exportName = none ↔ exportName ∉ taken.map StoryNames.exportName := by
  rw [holder?, List.find?_eq_none, List.mem_map]
  simp

lemma take_of_holder?_eq_none (h : taken.holder? names.exportName = none) :
    taken.take names = .ok (taken ++ [names]) := by
  rw [holder?] at h
  rw [take, h]

lemma take_of_holder?_eq_some {holder : StoryNames}
    (h : taken.holder? names.exportName = some holder) :
    taken.take names = .error
      (.duplicateExportName names.exportName holder.displayName names.displayName) := by
  rw [holder?] at h
  rw [take, h]

/-- A claim gives a name to the claimer if it was free, and leaves the other names. -/
lemma holder?_after (taken : NameRegistry) (names : StoryNames) (exportName : String) :
    (taken.after names).holder? exportName
      = (taken.holder? exportName).or
        (if names.exportName = exportName then some names else none) := by
  rw [after]
  cases hholder : taken.holder? names.exportName with
  | none =>
      rw [take_of_holder?_eq_none hholder]
      simp [Except.toOption, holder?, List.find?_append, List.find?_singleton]
  | some holder =>
      rw [take_of_holder?_eq_some hholder]
      change taken.holder? exportName = _
      split
      · rename_i heq
        rw [← heq, hholder]
        rfl
      · rw [Option.or_none]

lemma afterAll_concat (claims : List StoryNames) (names : StoryNames) :
    afterAll (claims ++ [names]) = (afterAll claims).after names := by
  rw [afterAll, afterAll, List.foldl_append]
  rfl

/-- After any claims, the holder of a name is the first that claimed it. -/
lemma holder?_afterAll (claims : List StoryNames) (exportName : String) :
    (afterAll claims).holder? exportName
      = claims.find? fun s => s.exportName = exportName := by
  induction claims using List.reverseRecOn with
  | nil => rfl
  | append_singleton claims names ih =>
      rw [afterAll_concat, holder?_after, ih, List.find?_append, List.find?_singleton]
      simp

/-- A claim is accepted if no earlier one has its name. -/
lemma take_afterAll_of_notMem (h : names.exportName ∉ claims.map StoryNames.exportName) :
    (afterAll claims).take names = .ok (afterAll (claims ++ [names])) := by
  have hfree : (afterAll claims).holder? names.exportName = none := by
    rw [holder?_afterAll]
    exact holder?_eq_none_iff.mpr h
  rw [afterAll_concat, after, take_of_holder?_eq_none hfree]
  rfl

end

end NameRegistry

/-- Two claims for one name, and no other two up to the second of them: the first is at `i`, the second
at `j`. -/
structure FirstClash (claims : List StoryNames) (i j : ℕ) (first second : StoryNames) : Prop where
  /-- The first of the two claims. -/
  first_eq : claims[i]? = some first
  /-- The second one. -/
  second_eq : claims[j]? = some second
  /-- It is made later. -/
  before : i < j
  /-- Both are for one name. -/
  same : first.exportName = second.exportName
  /-- The claims before the second one are for different names. -/
  apart : ((claims.take j).map StoryNames.exportName).Nodup

/-- A list in which no two members have the same image has one member of each image. -/
lemma find?_eq_of_nodup {α β : Type} [DecidableEq β] {f : α → β} {l : List α} (h : (l.map f).Nodup)
    {a : α} (ha : a ∈ l) : l.find? (fun b => f b = f a) = some a := by
  cases hfind : l.find? (fun b => f b = f a) with
  | none =>
      exact absurd (by simp) (List.find?_eq_none.mp hfind a ha)
  | some b =>
      have hsame : f b = f a := by simpa using List.find?_some hfind
      rw [List.inj_on_of_nodup_map h (List.mem_of_find?_eq_some hfind) ha hsame]

/-- The first claim of a name that is taken is refused, with the names of both. -/
lemma NameRegistry.take_firstClash {claims : List StoryNames} {i j : ℕ} {first second : StoryNames}
    (h : FirstClash claims i j first second) :
    (afterAll (claims.take j)).take second = .error
        (.duplicateExportName second.exportName first.displayName second.displayName)
      ∧ afterAll (claims.take (j + 1)) = afterAll (claims.take j) := by
  have hmem : first ∈ claims.take j := by
    refine List.mem_of_getElem? (i := i) ?_
    rw [List.getElem?_take_of_lt h.before, h.first_eq]
  have hholder : (afterAll (claims.take j)).holder? second.exportName = some first := by
    rw [holder?_afterAll, ← h.same]
    exact find?_eq_of_nodup h.apart hmem
  have htake := take_of_holder?_eq_some hholder
  refine ⟨htake, ?_⟩
  rw [List.take_add_one, h.second_eq]
  change afterAll (claims.take j ++ [second]) = _
  rw [afterAll_concat, after, htake]
  rfl

/-! ### The stories of a file -/

/-- Stories that are read off tags, and whose export names differ. -/
structure ReadApart (f : StoriesFile) (tags : List StoryTag) (stories : List Story) : Prop where
  /-- Each is read off its tag. -/
  read : List.Forall₂ (fun tag s => s.ReadOff f tag) tags stories
  /-- No two have one export name. -/
  apart : (exportNamesOf stories).Nodup

/-- What keeps a tag from being read as a story behind some others. -/
inductive StopsAt (f : StoriesFile) (before : List Story) (tag : StoryTag) : Report → Prop
  /-- Its attributes are at fault. -/
  | attributes {r : Report} : storyAttributes f.source tag.element = .error r →
      StopsAt f before tag r
  /-- A story before it has its export name. The report is about this tag, and names both. -/
  | duplicate {a : StoryAttributes} {first : Story} :
      storyAttributes f.source tag.element = .ok a → first ∈ before →
      first.attributes.names.exportName = a.names.exportName →
      StopsAt f before tag (f.source.reportAt (.duplicateExportName a.names.exportName
        first.attributes.names.displayName a.names.displayName) tag.element.span.start)
  /-- It has an export name of its own, and no code can be shown for it. -/
  | code {a : StoryAttributes} {r : Report} : storyAttributes f.source tag.element = .ok a →
      a.names.exportName ∉ exportNamesOf before → f.rawCode tag.element a = .error r →
      StopsAt f before tag r

/-- The names that stories have taken. -/
def namesTaken (stories : List Story) : NameRegistry :=
  stories.map fun s => s.attributes.names

section

variable {f : StoriesFile} {done stories : List Story} {tags before behind : List StoryTag}
  {tag : StoryTag} {s : Story} {r : Report}

lemma map_namesTaken (stories : List Story) :
    (namesTaken stories).map StoryNames.exportName = exportNamesOf stories := by
  rw [namesTaken, List.map_map]
  rfl

/-- A tag that is read as a story gives way to the tags behind it. -/
lemma storiesFrom_cons_of_readOff (h : s.ReadOff f tag)
    (hfree : s.attributes.names.exportName ∉ exportNamesOf done) (behind : List StoryTag) :
    f.storiesFrom (namesTaken done) (tag :: behind)
      = (f.storiesFrom (namesTaken (done ++ [s])) behind).map (s :: ·) := by
  have hstory : Story.mk tag s.attributes s.rawCode
      (tag.comment.bind fun c => commentDescription c.data) = s := by
    rw [← h.description, ← h.tag_eq]
  have htaken : namesTaken done ++ [s.attributes.names] = namesTaken (done ++ [s]) := by
    rw [namesTaken, namesTaken, List.map_append]
    rfl
  rw [← map_namesTaken, ← NameRegistry.holder?_eq_none_iff] at hfree
  rw [StoriesFile.storiesFrom, h.attributes, ok_bind, NameRegistry.take_of_holder?_eq_none hfree]
  change (f.rawCode tag.element s.attributes >>= _) = _
  rw [h.rawCode, ok_bind, htaken]
  cases f.storiesFrom (namesTaken (done ++ [s])) behind with
  | error r => rfl
  | ok stories => exact congrArg (fun s => Except.ok (s :: stories)) hstory

/-- Nothing is read behind a tag that stops. -/
lemma storiesFrom_cons_of_stopsAt (h : StopsAt f done tag r) (hdone : (exportNamesOf done).Nodup)
    (behind : List StoryTag) : f.storiesFrom (namesTaken done) (tag :: behind) = .error r := by
  cases h with
  | attributes hattributes =>
      rw [StoriesFile.storiesFrom, hattributes]
      rfl
  | @duplicate a first hattributes hfirst hsame =>
      have hholder : (namesTaken done).holder? a.names.exportName = some first.attributes.names := by
        rw [← hsame]
        exact find?_eq_of_nodup ((map_namesTaken done).symm ▸ hdone)
          (List.mem_map.mpr ⟨first, hfirst, rfl⟩)
      rw [StoriesFile.storiesFrom, hattributes, ok_bind,
        NameRegistry.take_of_holder?_eq_some hholder]
      rfl
  | @code a r hattributes hfree hcode =>
      rw [← map_namesTaken, ← NameRegistry.holder?_eq_none_iff] at hfree
      rw [StoriesFile.storiesFrom, hattributes, ok_bind,
        NameRegistry.take_of_holder?_eq_none hfree]
      change (f.rawCode tag.element a >>= _) = _
      rw [hcode]
      rfl

/-- A tag is read as a story with an export name of its own, or it stops. -/
lemma readOff_or_stopsAt (f : StoriesFile) (done : List Story) (tag : StoryTag) :
    (∃ s : Story, s.ReadOff f tag ∧ s.attributes.names.exportName ∉ exportNamesOf done)
      ∨ ∃ r, StopsAt f done tag r := by
  cases hattributes : storyAttributes f.source tag.element with
  | error r => exact Or.inr ⟨r, .attributes hattributes⟩
  | ok a =>
      by_cases hfree : a.names.exportName ∈ exportNamesOf done
      · obtain ⟨first, hfirst, hsame⟩ := List.mem_map.mp hfree
        exact Or.inr ⟨_, .duplicate hattributes hfirst hsame⟩
      · cases hcode : f.rawCode tag.element a with
        | error r => exact Or.inr ⟨r, .code hattributes hfree hcode⟩
        | ok code =>
            exact Or.inl ⟨⟨tag, a, code, tag.comment.bind fun c => commentDescription c.data⟩,
              ⟨rfl, hattributes, hcode, rfl⟩, hfree⟩

lemma exportNamesOf_append (stories stories' : List Story) :
    exportNamesOf (stories ++ stories') = exportNamesOf stories ++ exportNamesOf stories' :=
  List.map_append

/-- Tags that are read as stories with different names give way to the tags behind them. -/
lemma storiesFrom_append (done : List Story)
    (h : List.Forall₂ (fun tag s => s.ReadOff f tag) before stories)
    (hapart : (exportNamesOf (done ++ stories)).Nodup) (behind : List StoryTag) :
    f.storiesFrom (namesTaken done) (before ++ behind)
      = (f.storiesFrom (namesTaken (done ++ stories)) behind).map (stories ++ ·) := by
  induction h generalizing done with
  | nil =>
      rw [List.nil_append, List.append_nil]
      cases f.storiesFrom (namesTaken done) behind <;> rfl
  | @cons tag s before stories hs _ ih =>
      have happend : done ++ s :: stories = done ++ [s] ++ stories := by
        rw [List.append_assoc, List.singleton_append]
      have hfree : s.attributes.names.exportName ∉ exportNamesOf done := by
        rw [exportNamesOf_append] at hapart
        exact fun hmem => (List.nodup_append'.mp hapart).2.2 hmem List.mem_cons_self
      rw [List.cons_append, storiesFrom_cons_of_readOff hs hfree, happend,
        ih (done ++ [s]) (happend ▸ hapart)]
      cases f.storiesFrom (namesTaken (done ++ [s] ++ stories)) behind <;> rfl

/-- If the reading of tags fails, one of them stops it, and those before it are read as stories. -/
lemma exists_stopsAt (done : List Story) (h : f.storiesFrom (namesTaken done) tags = .error r)
    (hdone : (exportNamesOf done).Nodup) :
    ∃ (before : List StoryTag) (tag : StoryTag) (behind : List StoryTag) (stories : List Story),
      tags = before ++ tag :: behind ∧ List.Forall₂ (fun tag s => s.ReadOff f tag) before stories
      ∧ (exportNamesOf (done ++ stories)).Nodup ∧ StopsAt f (done ++ stories) tag r := by
  induction tags generalizing done with
  | nil => cases h
  | cons tag tags ih =>
      obtain ⟨s, hs, hfree⟩ | ⟨r', hstops⟩ := readOff_or_stopsAt f done tag
      · rw [storiesFrom_cons_of_readOff hs hfree] at h
        have hrest : f.storiesFrom (namesTaken (done ++ [s])) tags = .error r := by
          cases hrest : f.storiesFrom (namesTaken (done ++ [s])) tags with
          | error r' =>
              rw [hrest] at h
              exact h
          | ok stories =>
              rw [hrest] at h
              cases h
        have hapart : (exportNamesOf (done ++ [s])).Nodup := by
          rw [exportNamesOf_append, List.nodup_append_comm]
          exact List.nodup_cons.mpr ⟨hfree, hdone⟩
        obtain ⟨before, tag', behind, stories, rfl, hread, hnodup, hstops⟩ := ih _ hrest hapart
        rw [List.append_assoc, List.singleton_append] at hnodup hstops
        exact ⟨tag :: before, tag', behind, s :: stories, rfl, .cons hs hread, hnodup, hstops⟩
      · rw [storiesFrom_cons_of_stopsAt hstops hdone] at h
        obtain rfl := Except.error.inj h
        exact ⟨[], tag, tags, [], rfl, .nil, by rwa [List.append_nil], by rwa [List.append_nil]⟩

/-- The stories of a file are what is read off its tags, if the export names differ. -/
lemma readStories_eq_ok_iff : f.readStories = .ok stories ↔ ReadApart f f.stories stories := by
  refine ⟨fun h => ⟨readStories_forall₂ h, nodup_exportNames h⟩, fun h => ?_⟩
  have hrun := storiesFrom_append [] h.read h.apart []
  rw [List.append_nil] at hrun
  rw [StoriesFile.readStories]
  exact hrun.trans (by simp [StoriesFile.storiesFrom, Except.map])

/-- The report about a file is that of the first tag that stops. -/
lemma readStories_eq_error_iff :
    f.readStories = .error r ↔ ∃ before tag behind stories, f.stories = before ++ tag :: behind
      ∧ ReadApart f before stories ∧ StopsAt f stories tag r := by
  constructor
  · intro h
    obtain ⟨before, tag, behind, stories, htags, hread, hapart, hstops⟩ :=
      exists_stopsAt [] h List.nodup_nil
    exact ⟨before, tag, behind, stories, htags, ⟨hread, hapart⟩, hstops⟩
  · rintro ⟨before, tag, behind, stories, htags, hread, hstops⟩
    have hrun := storiesFrom_append [] hread.read hread.apart (tag :: behind)
    rw [List.nil_append, storiesFrom_cons_of_stopsAt hstops hread.apart] at hrun
    rw [StoriesFile.readStories, htags]
    exact hrun

end

/-- **Claims of export names.** Claims are accepted as long as their names differ. The first one for a
name that is taken is refused, with the names of both stories, and leaves the registry as it was.

So the stories of a file are what its tags are read as, one for each and in the order of the text, if
their export names differ, and these are valid and not reserved. Otherwise the report is that of the
first tag at fault; if it has the export name of a story before it, the report is about the place of
this second tag. -/
theorem readStories_claims :
    (∀ (claims : List StoryNames) (j : ℕ), ((claims.take j).map StoryNames.exportName).Nodup →
        ∀ i names, i < j → claims[i]? = some names →
          (NameRegistry.afterAll (claims.take i)).take names
            = .ok (NameRegistry.afterAll (claims.take (i + 1))))
      ∧ (∀ (claims : List StoryNames) (i j : ℕ) (first second : StoryNames),
        FirstClash claims i j first second →
          (NameRegistry.afterAll (claims.take j)).take second = .error
              (.duplicateExportName second.exportName first.displayName second.displayName)
            ∧ NameRegistry.afterAll (claims.take (j + 1)) = NameRegistry.afterAll (claims.take j))
      ∧ ∀ f : StoriesFile,
        (∀ source document, readDocument source = .ok document → readStoriesFile document = .ok f →
          f.stories.Pairwise fun x y => x.element.span.start < y.element.span.start)
        ∧ (∀ stories, f.readStories = .ok stories ↔ ReadApart f f.stories stories)
        ∧ (∀ stories, f.readStories = .ok stories → ∀ name ∈ exportNamesOf stories,
          isExportName name.toList = true ∧ name ∉ reservedWords ∧ name ≠ exportsOrderName)
        ∧ ∀ r, f.readStories = .error r ↔ ∃ before tag behind stories,
          f.stories = before ++ tag :: behind ∧ ReadApart f before stories
            ∧ StopsAt f stories tag r := by
  refine ⟨fun claims j hapart i names hij hnames => ?_,
    fun claims i j first second h => NameRegistry.take_firstClash h,
    fun f => ⟨fun source document hdocument hfile => pairwise_start_stories hdocument hfile,
      fun stories => readStories_eq_ok_iff, fun stories h name hname => ?_,
      fun r => readStories_eq_error_iff⟩⟩
  · have hstep : claims.take (i + 1) = claims.take i ++ [names] := by
      rw [List.take_add_one, hnames]
      rfl
    have hclaims : claims.take i ++ [names] <+: claims.take j :=
      hstep ▸ List.take_prefix_take_left hij
    have hnodup := (hclaims.map StoryNames.exportName).sublist.nodup hapart
    rw [List.map_append, List.map_singleton, List.nodup_append_comm] at hnodup
    rw [hstep]
    exact NameRegistry.take_afterAll_of_notMem (List.nodup_cons.mp hnodup).1
  · obtain ⟨hvalid, horder⟩ := isExportName_of_mem h hname
    have hfree := (isExportName_iff.mp hvalid).2
    rw [String.ofList_toList] at hfree
    exact ⟨hvalid, hfree, horder⟩

/-- Three stories, two of which are named with other characters between the same words. -/
def wordClaims : List StoryNames :=
  [⟨"Basic", "Basic"⟩, ⟨"WithChildren", "With children"⟩, ⟨"WithChildren", "With-Children"⟩]

theorem wordClaims_clash :
    FirstClash wordClaims 1 2 ⟨"WithChildren", "With children"⟩ ⟨"WithChildren", "With-Children"⟩
      ∧ (NameRegistry.afterAll (wordClaims.take 2)).take ⟨"WithChildren", "With-Children"⟩
        = .error (.duplicateExportName "WithChildren" "With children" "With-Children")
      ∧ NameRegistry.afterAll wordClaims = NameRegistry.afterAll (wordClaims.take 2) := by
  have h : FirstClash wordClaims 1 2 ⟨"WithChildren", "With children"⟩
      ⟨"WithChildren", "With-Children"⟩ := ⟨rfl, rfl, by decide, rfl, by decide⟩
  exact ⟨h, readStories_claims.2.1 wordClaims 1 2 _ _ h⟩

end SvelteStories
