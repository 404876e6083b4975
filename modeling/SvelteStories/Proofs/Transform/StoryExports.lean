/-
The exports of single stories as text of a module:

* `print_storyItems`: the text that declares the local name of a story and exports it;
* `parseModule_storyItems`: it is a module of just these items if the export names are identifiers;
* `ofGiven_exportName`: which names are, of those that the author may give.
-/
import SvelteStories.Additions.Exports
import SvelteStories.Proofs.Script.NamedItems
import SvelteStories.Proofs.Story.Identifiers

namespace SvelteStories

open Script

variable {mode : LexMode} {name : String} {rest : List Char} {tokens : List Token}

/-! ### Local names -/

lemma toList_storyLocalName (name : String) :
    (storyLocalName name).toList = "__story_".toList ++ name.toList := by
  rw [storyLocalName, String.toList_append]

/-- The local name of a story means nothing at the beginning of any form. -/
lemma isPlainName_storyLocalName (name : String) : IsPlainName (storyLocalName name) := by
  have hforms : ∀ w ∈ formWords, w.toList.head? ≠ some '_' := by decide +kernel
  intro hmem
  refine hforms _ hmem ?_
  rw [toList_storyLocalName]
  rfl

lemma isIdentifier_storyLocalName (h : IsIdentifier name.toList) :
    IsIdentifier (storyLocalName name).toList := by
  rw [toList_storyLocalName]
  refine ⟨'_', "_story_".toList ++ name.toList, rfl, by decide, ?_⟩
  exact List.forall_mem_append.mpr ⟨by decide +kernel, h.part⟩

/-! ### Text -/

lemma text_constant (w : String) (value : Expr) :
    (ItemForm.statement (.variables (constant w value))).text
      = "const".toList ++ ' ' :: (w.toList ++ ' ' :: '=' :: ' ' :: (value.print 0 ++ [';'])) := by
  change "const".toList ++ ' ' :: ((w.toList ++ []) ++ " = ".toList ++ value.print 0) ++ [';'] ++ [] = _
  simp

lemma text_exportedName {w v : String} (h : w ≠ v) :
    (ItemForm.exportNames [(.word nowhere w, .word nowhere v)] none).text
      = "export".toList ++ ' ' :: '{' :: ' ' :: (w.toList ++ ' ' :: ("as".toList ++ ' ' ::
        (v.toList ++ ' ' :: '}' :: [';']))) := by
  have hbraced : ("export " ++ braced [renamed w v] ++ "" ++ ";").toList
      = "export".toList ++ ' ' :: '{' :: ' ' :: (w.toList ++ ' ' :: ("as".toList ++ ' ' ::
        (v.toList ++ ' ' :: '}' :: [';']))) := by
    have hrenamed : renamed w v = w ++ " as " ++ v := if_neg h
    rw [braced, hrenamed]
    simp [String.toList_append]
  rw [← hbraced, ← List.append_nil (String.toList _)]
  rfl

lemma print_storyItems (name : String) :
    printItems (ExportSurface.storyItems name)
      = "const".toList ++ ' ' :: ((storyLocalName name).toList ++ ' ' :: '=' :: ' ' ::
        (storiesName.toList ++ '[' :: (quote name.toList ++ ']' :: ';' :: '\n' ::
        ("export".toList ++ ' ' :: '{' :: ' ' :: ((storyLocalName name).toList ++ ' ' ::
        ("as".toList ++ ' ' :: (name.toList ++ ' ' :: '}' :: ';' :: ['\n']))))))) := by
  have hne : storyLocalName name ≠ name := by
    intro heq
    have hlist := congrArg String.toList heq
    rw [toList_storyLocalName, List.append_left_eq_self] at hlist
    exact absurd hlist (by decide)
  have hvalue : (Expr.member nowhere (nameExpr storiesName) (.computed (stringExpr name))).print 0
      = storiesName.toList ++ '[' :: (quote name.toList ++ [']']) := by
    rw [← print_stringExpr 0 name]
    rfl
  rw [printItems, ExportSurface.storyItems, List.flatMap_cons, List.flatMap_cons, List.flatMap_nil,
    text_constant, text_exportedName hne, hvalue]
  simp only [List.append_assoc, List.cons_append, List.nil_append, List.append_nil]

/-! ### Tokens -/

/-- The value of a story. -/
def storyValue (name : String) : Expr :=
  .member nowhere (nameExpr storiesName) (.computed (stringExpr name))

/-- The tokens of that value. -/
def storyValueTokens (name : String) : List Token :=
  [.word storiesName, .punctuator "[", .string name (String.ofList (quote name.toList)),
   .punctuator "]"]

/-- The items of a story with their tokens. -/
def toldStoryItems (name : String) : List ToldItem :=
  [⟨.word "const" :: .word (storyLocalName name) :: .punctuator "="
      :: (storyValueTokens name ++ [Token.punctuator ";"]),
    .statement (.variables (constant (storyLocalName name) (storyValue name)))⟩,
   ⟨[.word "export", .punctuator "\x7b", .word (storyLocalName name), .word "as", .word name,
      .punctuator "\x7d", .punctuator ";"],
    .exportNames [(.word nowhere (storyLocalName name), .word nowhere name)] none⟩]

lemma map_form_toldStoryItems (name : String) :
    (toldStoryItems name).map (·.form) = ExportSurface.storyItems name := rfl

lemma takes_storyValue {c : Context} (hc : c.dialect.isTyped = false) (hbudget : 1 < c.budget)
    (n : Nat) :
    (grammar (n + 11)).assignment.Takes c (storyValueTokens name) (.punctuator ";" :: tokens)
      (·.unplaced = (storyValue name).unplaced) := by
  have hstories : IsPlainName storiesName := by
    rw [IsPlainName]
    decide +kernel
  exact takes_member hc hbudget hstories

/-- The items of a story are read from their tokens. -/
lemma isRead_of_mem_toldStoryItems {c : Context} (hc : c.dialect.isTyped = false)
    (hbudget : 1 < c.budget) {i : ToldItem} (hi : i ∈ toldStoryItems name) (n : Nat) :
    i.IsRead (grammar (n + 13)) c := by
  have hlocal := isPlainName_storyLocalName name
  obtain rfl | rfl : i = _ ∨ i = _ := by simpa [toldStoryItems] using hi
  · refine ⟨by simp, by simp [storyValueTokens], fun rest => ?_⟩
    exact takes_constant hc (Nat.zero_lt_of_lt hbudget) hlocal
      (takes_storyValue (c := ({ c with beforeColon := false } : Context).withIn) hc hbudget n)
  · exact ⟨by simp, by simp, fun rest => takes_exportedName hc hbudget hlocal⟩

/-- A name, in front of a character that belongs to no identifier. -/
lemma spells_name {gap : List Char} {d : Char} (hgap : IsGap isLineBreak gap)
    (hname : IsIdentifier name.toList) (hd : isIdentifierPart d = false) (hslash : d ≠ '\\')
    (h : Spells mode (d :: rest) tokens) :
    Spells mode (gap ++ (name.toList ++ d :: rest)) (.word name :: tokens) := by
  have hword := Spells.word hgap hname hd hslash h
  rwa [String.ofList_toList] at hword

/-- The text of the items of a story is made of their tokens. -/
lemma spells_storyItems (hname : IsIdentifier name.toList) (h : Spells mode rest tokens) :
    Spells mode (printItems (ExportSurface.storyItems name) ++ rest)
      ((toldStoryItems name).flatMap (·.tokens) ++ tokens) := by
  have hlocal := isIdentifier_storyLocalName hname
  have hstories : IsIdentifier storiesName.toList :=
    ⟨'_', "_stories".toList, rfl, by decide, by decide +kernel⟩
  have hletters {w : String} (hne : w.toList ≠ []) (hw : ∀ c ∈ w.toList, isAsciiLetter c = true) :
      IsIdentifier w.toList := isIdentifier_of_letters hne hw
  have hmark {c : Char} (hblank : isScriptBlank c = false) (hc : c ≠ '/' ∧ c ≠ '<' ∧ c ≠ '-') :
      StartsToken c := ⟨hblank, hc⟩
  -- the tokens of the export from the last one on, then those of the constant
  have hend := h.blank (c := '\n') (by decide)
  have hsemicolon := Spells.mark .nil (hmark (c := ';') (by decide) (by decide)) rfl hend
  have hclose := Spells.mark isGap_space (hmark (c := '}') (by decide) (by decide)) rfl hsemicolon
  have hother := spells_name isGap_space hname (by decide) (by decide) hclose
  have has := spells_name isGap_space (hletters (w := "as") (by decide) (by decide)) (by decide)
    (by decide) hother
  have hexported := spells_name isGap_space hlocal (by decide) (by decide) has
  have hopen := Spells.mark isGap_space (hmark (c := '{') (by decide) (by decide)) rfl hexported
  have hexport := spells_name .nil (hletters (w := "export") (by decide) (by decide)) (by decide)
    (by decide) hopen
  have hline := hexport.blank (c := '\n') (by decide)
  have hsemicolon' := Spells.mark .nil (hmark (c := ';') (by decide) (by decide)) rfl hline
  have hclose' := Spells.mark .nil (hmark (c := ']') (by decide) (by decide)) rfl hsemicolon'
  have hkey := Spells.string .nil name hclose'
  have hopen' := Spells.mark .nil (hmark (c := '[') (by decide) (by decide)) rfl hkey
  have howner := spells_name isGap_space hstories (by decide) (by decide) hopen'
  have hequals := Spells.mark isGap_space (hmark (c := '=') (by decide) (by decide)) rfl howner
  have hdeclared := spells_name isGap_space hlocal (by decide) (by decide) hequals
  have hconst := spells_name .nil (hletters (w := "const") (by decide) (by decide)) (by decide)
    (by decide) hdeclared
  rw [print_storyItems]
  simpa [toldStoryItems, storyValueTokens] using hconst

/-! ### Modules -/

lemma printItems_append (forms forms' : List ItemForm) :
    printItems (forms ++ forms') = printItems forms ++ printItems forms' :=
  List.flatMap_append

lemma spells_flatMap_storyItems {names : List String}
    (h : ∀ name ∈ names, IsIdentifier name.toList) :
    Spells mode (printItems (names.flatMap ExportSurface.storyItems))
      ((names.flatMap toldStoryItems).flatMap (·.tokens) ++ [Token.stop]) := by
  induction names with
  | nil => exact .stop (by simp [printItems])
  | cons name names ih =>
      obtain ⟨hname, hnames⟩ := List.forall_mem_cons.mp h
      rw [List.flatMap_cons, List.flatMap_cons, printItems_append, List.flatMap_append,
        List.append_assoc]
      exact spells_storyItems hname (ih hnames)

/-- No interpreter is named before the exports. -/
lemma interpreterLine_storyItems (names : List String) :
    interpreterLine (printItems (names.flatMap ExportSurface.storyItems)) = [] := by
  cases names with
  | nil => rfl
  | cons name names =>
      rw [List.flatMap_cons, printItems_append, print_storyItems]
      rfl

/-- **The text of the exports of stories is a module of these exports** if their names are
identifiers. -/
theorem parseModule_storyItems {names : List String} (h : ∀ name ∈ names, IsIdentifier name.toList)
    (offset : Nat) :
    ∃ program, parseModule .plainModule offset
        (printItems (names.flatMap ExportSurface.storyItems)) = .ok program
      ∧ program.map (·.form.unplaced)
        = (names.flatMap ExportSurface.storyItems).map ItemForm.unplaced := by
  have hitems : ∀ i ∈ names.flatMap toldStoryItems, ∀ n budget,
      i.IsRead (grammar (n + 13)) (Context.top .plainModule (budget + 2)) := by
    intro i hi n budget
    obtain ⟨name, -, hi⟩ := List.mem_flatMap.mp hi
    exact isRead_of_mem_toldStoryItems rfl (Nat.lt_add_left budget Nat.one_lt_two) hi n
  obtain ⟨program, hprogram, hforms⟩ := parseModule_of_spells (interpreterLine_storyItems names)
    (spells_flatMap_storyItems h) (fun i hi n => hitems i hi n _) offset
  refine ⟨program, hprogram, hforms.trans ?_⟩
  rw [← funext map_form_toldStoryItems, ← List.map_flatMap, List.map_map]
  rfl

/-! ### Names that the author gives -/

/-- Which of the accepted export names are identifiers, and that the exports of these are module code:
no accepted name is reserved, and all are identifiers but for those that hold a stray character or start
with a mark. -/
theorem ofGiven_exportName {displayName exportName : Option String} {names : StoryNames}
    (h : StoryNames.ofGiven displayName exportName = .ok names) :
    (∀ budget, (Context.top .plainModule budget).reserved names.exportName = false)
      ∧ (IsIdentifier names.exportName.toList
        ↔ (∀ c ∈ names.exportName.toList, isStray c = false)
          ∧ ∀ c ∈ names.exportName.toList.head?, isLeadingMark c = false)
      ∧ (IsIdentifier names.exportName.toList → ∀ offset, ∃ program,
        parseModule .plainModule offset
            (printItems (ExportSurface.storyItems names.exportName)) = .ok program
          ∧ program.map (·.form.unplaced)
            = (ExportSurface.storyItems names.exportName).map ItemForm.unplaced) := by
  have hvalid := (StoryNames.ofGiven_eq_ok h).1
  refine ⟨reserved_of_isExportName hvalid, isIdentifier_iff_of_isExportName hvalid,
    fun hname offset => ?_⟩
  have hmodule := parseModule_storyItems (List.forall_mem_singleton.mpr hname) offset
  rwa [List.flatMap_singleton] at hmodule

/-- A story with an accented name: its derived export name is an identifier, and its exports are module
code. -/
theorem resume_exported :
    StoryNames.ofGiven (some "r\u00E9sum\u00E9 card") none
        = .ok ⟨"R\u00E9sum\u00E9Card", "r\u00E9sum\u00E9 card"⟩
      ∧ ∃ program, parseModule .plainModule 0
          (printItems (ExportSurface.storyItems "R\u00E9sum\u00E9Card")) = .ok program
        ∧ program.map (·.form.unplaced)
          = (ExportSurface.storyItems "R\u00E9sum\u00E9Card").map ItemForm.unplaced := by
  have h : StoryNames.ofGiven (some "r\u00E9sum\u00E9 card") none
      = .ok ⟨"R\u00E9sum\u00E9Card", "r\u00E9sum\u00E9 card"⟩ := by
    decide +kernel
  obtain ⟨-, hidentifier, hmodule⟩ := ofGiven_exportName h
  have hhead : "R\u00E9sum\u00E9Card".toList.head? = some 'R' := by decide +kernel
  have hleading : ∀ c ∈ "R\u00E9sum\u00E9Card".toList.head?, isLeadingMark c = false := by
    rw [hhead]
    rintro c ⟨⟩
    decide +kernel
  exact ⟨h, hmodule (hidentifier.mpr ⟨by decide +kernel, hleading⟩) 0⟩

/-- A superscript is accepted in an export name, but belongs to no identifier, and the exports of the
story are no module code. -/
theorem squared_not_identifier :
    StoryNames.ofGiven none (some "x\u00B2") = .ok ⟨"x\u00B2", "X\u00B2"⟩
      ∧ ¬ IsIdentifier "x\u00B2".toList
      ∧ (parseModule .plainModule 0 (printItems (ExportSurface.storyItems "x\u00B2"))).isOk
        = false := by
  refine ⟨by decide +kernel, ?_, ?_⟩
  · intro h
    exact absurd (h.part '\u00B2' (by decide +kernel)) (by decide +kernel)
  · decide +kernel

end SvelteStories
