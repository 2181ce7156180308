import Mathlib.Data.List.TakeWhile
import ScopeTree.Resource.Basic

/-!
# References to resources as texts

The type of a reference ends at the first opening bracket of its text, and the title at the closing
one that ends the text.  So no bracket of the title is ever taken for one of those two, and where
the type has no opening bracket, the reference can be read off its text again.

    parse? s = some r ↔ r.WellFormed ∧ r.text = s                (parse?_eq_some_iff)
    parse? r.text = some r ↔ r.WellFormed                        (parse?_text_iff)
    well-formed references of one text are equal                 (text_inj)
-/

namespace ScopeTree.ResourceRef

/-! ## Specification -/

/-- Neither the type nor the title is empty, and the type has no opening bracket. -/
structure WellFormed (r : ResourceRef) : Prop where
  typeName_ne_empty : r.typeName ≠ ""
  bracket_not_mem : '[' ∉ r.typeName.toList
  title_ne_empty : r.title ≠ ""

/-! ## The two cuts -/

theorem text_toList (r : ResourceRef) :
    r.text.toList = r.typeName.toList ++ '[' :: (r.title.toList ++ [']']) := by
  simp [text]

theorem bne_bracket_of_not_mem {cs : List Char} (h : '[' ∉ cs) :
    ∀ c ∈ cs, (c != '[') = true := by
  intro c hc
  rw [bne_iff_ne]
  rintro rfl
  exact h hc

theorem parse?_of_not_mem {s : String} (h : '[' ∉ s.toList) : parse? s = none := by
  have hdrop : s.toList.dropWhile (· != '[') = [] :=
    List.dropWhile_eq_nil_iff.2 (bne_bracket_of_not_mem h)
  rw [parse?, hdrop]

theorem parse?_of_cut {s : String} {before rest : List Char}
    (hs : s.toList = before ++ '[' :: rest) (hbefore : '[' ∉ before) :
    parse? s = if rest.getLast? = some ']' ∧ before ≠ [] ∧ rest.dropLast ≠ [] then
      some ⟨String.ofList before, String.ofList rest.dropLast⟩ else none := by
  have hpos := bne_bracket_of_not_mem hbefore
  have htake : s.toList.takeWhile (· != '[') = before := by
    rw [hs, List.takeWhile_append_of_pos hpos]
    simp
  have hdrop : s.toList.dropWhile (· != '[') = '[' :: rest := by
    rw [hs, List.dropWhile_append_of_pos hpos]
    simp
  rw [parse?, htake, hdrop]

/-! ## There and back -/

/-- A well-formed reference is read off its text, whatever brackets are in its title. -/
theorem WellFormed.parse?_text {r : ResourceRef} (hr : r.WellFormed) : parse? r.text = some r := by
  have htype : r.typeName.toList ≠ [] := by
    simpa using hr.typeName_ne_empty
  have htitle : r.title.toList ≠ [] := by
    simpa using hr.title_ne_empty
  rw [parse?_of_cut (text_toList r) hr.bracket_not_mem, List.getLast?_concat, List.dropLast_concat,
    if_pos ⟨rfl, htype, htitle⟩, String.ofList_toList, String.ofList_toList]

theorem wellFormed_of_parse? {s : String} {r : ResourceRef} (h : parse? s = some r) :
    r.WellFormed ∧ r.text = s := by
  by_cases hmem : '[' ∈ s.toList
  · obtain ⟨before, rest, hs, hbefore⟩ := List.eq_append_cons_of_mem hmem
    rw [parse?_of_cut hs hbefore] at h
    split at h
    next hcond =>
      obtain ⟨hlast, htype, htitle⟩ := hcond
      obtain ⟨title, rfl⟩ := List.getLast?_eq_some_iff.1 hlast
      rw [List.dropLast_concat] at h htitle
      obtain rfl := Option.some.inj h
      refine ⟨⟨?_, ?_, ?_⟩, ?_⟩
      · simpa using htype
      · simpa using hbefore
      · simpa using htitle
      · rw [← String.toList_inj, text_toList, String.toList_ofList, String.toList_ofList, hs]
    next => cases h
  · rw [parse?_of_not_mem hmem] at h
    cases h

theorem parse?_eq_some_iff {s : String} {r : ResourceRef} :
    parse? s = some r ↔ r.WellFormed ∧ r.text = s := by
  constructor
  · exact wellFormed_of_parse?
  · rintro ⟨hr, rfl⟩
    exact hr.parse?_text

theorem parse?_text_iff {r : ResourceRef} : parse? r.text = some r ↔ r.WellFormed := by
  rw [parse?_eq_some_iff, and_iff_left rfl]

theorem text_inj {r r' : ResourceRef} (hr : r.WellFormed) (hr' : r'.WellFormed) :
    r.text = r'.text ↔ r = r' := by
  constructor
  · intro h
    apply Option.some.inj
    rw [← hr.parse?_text, ← hr'.parse?_text, h]
  · rintro rfl
    rfl

-- With an opening bracket in the type it is not so.
example : text ⟨"File[", "/"⟩ = text ⟨"File", "[/"⟩ := by decide

/-! ## Top theorem -/

/-- **References and their texts.**  A reference that is read off a text is well formed and has that
text, and a well-formed reference is read off its own text.  So what can be read are the texts of
well-formed references, and no two of those have the same text. -/
theorem parse_text_inverse :
    (∀ s r, parse? s = some r → r.WellFormed ∧ r.text = s) ∧
    (∀ r, r.WellFormed → parse? r.text = some r) ∧
    (∀ s, (∃ r, parse? s = some r) ↔ ∃ r : ResourceRef, r.WellFormed ∧ r.text = s) ∧
    ∀ r r' : ResourceRef, r.WellFormed → r'.WellFormed → r.text = r'.text → r = r' := by
  refine ⟨fun s r => wellFormed_of_parse?, fun r hr => hr.parse?_text, fun s => ?_,
    fun r r' hr hr' => (text_inj hr hr').1⟩
  simp only [parse?_eq_some_iff]

/-- The title has brackets of both kinds, also at its ends. -/
theorem parse_text_inverse_brackets :
    text ⟨"File", "]a[b]["⟩ = "File[]a[b][]" ∧
      parse? "File[]a[b][]" = some ⟨"File", "]a[b]["⟩ := by
  have hwell : WellFormed ⟨"File", "]a[b]["⟩ := ⟨by decide, by decide, by decide⟩
  have htext : text ⟨"File", "]a[b]["⟩ = "File[]a[b][]" := by decide
  refine ⟨htext, ?_⟩
  rw [← htext]
  exact parse_text_inverse.2.1 _ hwell

end ScopeTree.ResourceRef
