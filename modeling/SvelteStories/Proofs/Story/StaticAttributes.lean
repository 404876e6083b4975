/-
Attributes that have to be written out, because a stories file is read and not run:

* `readAttribute_code`: an attribute with code as its value is read up to the code's closing brace;
* `staticAttribute_of_readAttribute`: its value is only taken for a string, or an array of strings, if
  its code starts with a literal of it, and is reported otherwise;
* `IsString`: a text is a string literal from its beginning to its end.

What stands behind the literal in the braces is not looked at: `twoStrings_accepted` is an attribute
that is no string literal and counts as one.
-/
import SvelteStories.Proofs.Markup.TagText
import SvelteStories.Proofs.Script.LiteralText
import SvelteStories.Story.Literals

namespace SvelteStories

open Script Markup Place

/-! ### Attributes with code -/

section

variable {p q : Place} {name t x : List Char}

lemma readValue_code_eq {read : ExpressionReader} (h : p.rest.head? = some '{') :
    readValue read p = (do
      let (code, q) ← braced p
      return (← expressionValue read (p.offset + 1) code, q)) := by
  obtain ⟨t, hrest⟩ := List.head?_eq_some_iff.mp h
  rw [readValue, hrest]
  rfl

/-- An attribute with code as its value is read up to the code's closing brace, unless it is a
fault. -/
lemma readAttribute_code {read : ExpressionReader} (hname : IsAttributeName name)
    (hplain : directiveOf? name = none) (hrest : p.rest = name ++ '=' :: '{' :: t) :
    (∃ f, readAttribute read p = .error f)
      ∨ ∃ x q offset span value, p.Reads (name ++ '=' :: inBraces x) q ∧ Code x
        ∧ read offset (trim x) = .ok value
        ∧ readAttribute read p = .ok (.plain ⟨p.spanTo q, name, .expression span value⟩, q) := by
  have hm : p.Reads name (p.after name) := reads_after hrest
  have hbehind : (p.after name).Reads ('=' :: '{' :: t) ((p.after name).after ('=' :: '{' :: t)) :=
    reads_after (u := []) (by simp [after, hrest])
  obtain ⟨v, hequals, hvalue, hplace⟩ := valuePlace?_eq hbehind (by decide)
  rw [readAttribute_of_name hm hname (not_isAttributeNamePart_of_equals hbehind), hplain, hplace]
  dsimp only
  rw [readValue_code_eq (by rw [hvalue.1]; rfl)]
  cases hbraced : braced v with
  | error f => exact .inl ⟨f, rfl⟩
  | ok found =>
      obtain ⟨x, q⟩ := found
      obtain ⟨hreads, hcode⟩ := reads_braced hbraced
      cases hexpression : expressionValue read (v.offset + 1) x with
      | error f => exact .inl ⟨f, by simp only [ok_bind, hexpression]; rfl⟩
      | ok value =>
          obtain ⟨e, hread, rfl⟩ := expressionValue_eq_ok_iff.mp hexpression
          refine .inr ⟨x, q, _, trimmedSpan x ⟨v.offset + 1, v.offset + 1 + byteLength x⟩, e,
            hm.trans (hequals.trans hreads), hcode, hread, ?_⟩
          simp only [ok_bind, hexpression]
          rfl

/-! ### Attributes that are written out -/

/-- An attribute is a string, or it is reported where one is wanted. -/
lemma stringAttribute_cases (source : Source) (a : Attribute) :
    (∃ value, a.string? = some value ∧ stringAttribute source a = .ok value)
      ∨ stringAttribute source a = .error (source.reportAt
          (.attributeNotString (String.ofList a.name) a.describe) a.span.start) := by
  rw [stringAttribute]
  cases a.string? with
  | some value => exact .inl ⟨value, rfl, rfl⟩
  | none => exact .inr rfl

/-- An attribute is an array of strings, or it is reported where one is wanted. -/
lemma stringsAttribute_cases (source : Source) (a : Attribute) :
    (∃ values, a.strings? = some values ∧ stringsAttribute source a = .ok values)
      ∨ stringsAttribute source a = .error (source.reportAt
          (.attributeNotStrings (String.ofList a.name) a.describe) a.span.start) := by
  rw [stringsAttribute]
  cases a.strings? with
  | some values => exact .inl ⟨values, rfl, rfl⟩
  | none => exact .inr rfl

/-- An attribute with code as its value is only taken for a string if its code starts with a literal
of this string, and for an array of strings if it starts with a literal of these. Otherwise it is
reported, if reading it is no fault already. -/
theorem staticAttribute_of_readAttribute (source : Source) (hname : IsAttributeName name)
    (hplain : directiveOf? name = none) (hrest : p.rest = name ++ '=' :: '{' :: t) :
    (∃ f, readAttribute readAttributeExpression p = .error f)
      ∨ ∃ x q a, p.Reads (name ++ '=' :: inBraces x) q ∧ Code x
        ∧ readAttribute readAttributeExpression p = .ok (.plain a, q) ∧ a.name = name
        ∧ ((∃ value rest, stringAttribute source a = .ok value
              ∧ StartsWith (StringText value) (trim x) rest)
            ∨ stringAttribute source a = .error (source.reportAt
                (.attributeNotString (String.ofList name) a.describe) p.offset))
        ∧ ((∃ values rest, stringsAttribute source a = .ok values
              ∧ StartsWith (StringsText values) (trim x) rest)
            ∨ stringsAttribute source a = .error (source.reportAt
                (.attributeNotStrings (String.ofList name) a.describe) p.offset)) := by
  obtain hfault | ⟨x, q, offset, span, e, hreads, hcode, hread, hattribute⟩ :=
    readAttribute_code hname hplain hrest
  · exact .inl hfault
  refine .inr ⟨x, q, _, hreads, hcode, hattribute, rfl, ?_, ?_⟩
  · refine (stringAttribute_cases source _).imp ?_ id
    rintro ⟨value, hvalue, hok⟩
    obtain ⟨rest, hstarts⟩ := startsWith_of_string? rfl hread hvalue
    exact ⟨value, rest, hok, hstarts⟩
  · refine (stringsAttribute_cases source _).imp ?_ id
    rintro ⟨values, hvalues, hok⟩
    obtain ⟨rest, hstarts⟩ := startsWith_of_strings? rfl hread hvalues
    exact ⟨values, rest, hok, hstarts⟩

end

/-- An attribute with a name in parentheses and a comment behind it. -/
def namedAttribute : Source :=
  ⟨"Named.stories.svelte", "name=\x7b ('A\\x42') /* b */ \x7d />".toList⟩

theorem namedAttribute_static :
    ∃ x q a, (start namedAttribute.text).Reads ("name".toList ++ '=' :: inBraces x) q
      ∧ readAttribute readAttributeExpression (start namedAttribute.text) = .ok (.plain a, q)
      ∧ stringAttribute namedAttribute a = .ok "AB"
      ∧ ∃ rest, StartsWith (StringText "AB") (trim x) rest := by
  have hread : (readAttribute readAttributeExpression (start namedAttribute.text)).toOption.any
      (fun found => match found with
        | (.plain a, _) => a.string? = some "AB"
        | _ => false) = true := by
    unfold namedAttribute
    repeat rewrite [String.toList_ofList]
    decide +kernel
  obtain ⟨found, hok, hfound⟩ := exists_of_toOption_any hread
  have hrest : (start namedAttribute.text).rest
      = "name".toList ++ '=' :: '{' :: " ('A\\x42') /* b */ \x7d />".toList := by decide
  obtain ⟨f, hfault⟩ | ⟨x, q, a, hreads, -, hattribute, -, hstring, -⟩ :=
    staticAttribute_of_readAttribute namedAttribute ⟨by decide, by decide⟩ (by decide) hrest
  · rw [hfault] at hok
    cases hok
  · rw [hattribute] at hok
    cases hok
    have hvalue : a.string? = some "AB" := of_decide_eq_true hfound
    have hgiven : stringAttribute namedAttribute a = .ok "AB" := by rw [stringAttribute, hvalue]
    refine ⟨x, q, a, hreads, hattribute, hgiven, ?_⟩
    obtain ⟨value, rest, hok, hstarts⟩ | herror := hstring
    · obtain rfl : "AB" = value := Except.ok.inj (hgiven.symm.trans hok)
      exact ⟨rest, hstarts⟩
    · cases hgiven.symm.trans herror

/-! ### Code behind a literal -/

/-- A text is a string literal of this value from its beginning to its end, but for blanks and
comments around it. -/
def IsString (t : List Char) (value : String) : Prop :=
  ∃ rest, StartsWith (StringText value) t rest ∧ Skips false rest []

/-- A text with something else behind a string literal is none. -/
lemma not_isString {t rest : List Char} {value value' : String}
    (h : StartsWith (StringText value) t rest) (hrest : ¬ Skips false rest []) :
    ¬ IsString t value' := by
  rintro ⟨rest', h', hskips⟩
  obtain ⟨-, rfl⟩ := startsWith_string_unique h h'
  exact hrest hskips

/-- A token behind blanks is not skipped. -/
lemma not_skips_token {newline : Bool} {t u : List Char} {c : Char} (h : Skips newline t (c :: u))
    (hc : StartsToken c) : ¬ Skips newline t [] := by
  intro h'
  have heq := h.unique h' (endsGap_cons_iff.mpr hc) (by simp [EndsGap])
  simp at heq

/-- An attribute with two string literals in its braces. -/
def twoStrings : Source :=
  ⟨"Two.stories.svelte", "name=\x7b'A' 'B'\x7d />".toList⟩

/-- The first one of two literals counts, and the second one is dropped. -/
theorem twoStrings_accepted :
    ∃ q a, (start twoStrings.text).Reads ("name".toList ++ '=' :: inBraces "'A' 'B'".toList) q
      ∧ readAttribute readAttributeExpression (start twoStrings.text) = .ok (.plain a, q)
      ∧ stringAttribute twoStrings a = .ok "A"
      ∧ ∀ value, ¬ IsString (trim "'A' 'B'".toList) value := by
  have hfirst : StartsWith (StringText (String.ofList ['A'])) (trim "'A' 'B'".toList) " 'B'".toList :=
    ⟨_, .refl, .literal (.inr rfl) (.plain (by decide) (by decide) (by decide) (by decide) .close)⟩
  have hsecond : ¬ Skips false " 'B'".toList [] :=
    not_skips_token (.blank (by decide) .refl) (startsToken_of_mem (c := '\'') (by decide))
  have hread : (readAttribute readAttributeExpression (start twoStrings.text)).toOption.any
      (fun found => match found with
        | (.plain a, q) => a.string? = some "A"
            ∧ q = (start twoStrings.text).after ("name".toList ++ '=' :: inBraces "'A' 'B'".toList)
        | _ => false) = true := by
    unfold twoStrings
    repeat rewrite [String.toList_ofList]
    decide +kernel
  obtain ⟨⟨node, q⟩, hok, hfound⟩ := exists_of_toOption_any hread
  cases node with
  | plain a =>
      obtain ⟨hvalue, rfl⟩ : a.string? = some "A" ∧ q = (start twoStrings.text).after
          ("name".toList ++ '=' :: inBraces "'A' 'B'".toList) := of_decide_eq_true hfound
      exact ⟨_, a, reads_of_startsWith ⟨" />".toList, by decide⟩, hok,
        by rw [stringAttribute, hvalue], fun _ => not_isString hfirst hsecond⟩
  | _ => cases hfound

end SvelteStories
