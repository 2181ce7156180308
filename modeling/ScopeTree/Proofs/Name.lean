import ScopeTree.Interpolation.Piece

/-!
# Where a name ends

A name is read off the front of a text up to the first character that cannot belong to it.
What follows a name is left alone unless it extends the name: a word character does, and so
does a separator with a word character behind it, but a separator alone does not.

    IsName name → extendsName rest = false → takeName (name ++ rest) = (name, rest)
                                                                  (takeName_append_of_isName)
    (takeName cs).1 ≠ [] → IsName (takeName cs).1                (isName_takeName)
    extendsName (takeName cs).2 = false                          (extendsName_takeName)
-/

namespace ScopeTree.Interpolation

open Text (isWordChar separator dropSeparator? dropSeparator?_eq_some_iff)

/-! ## Text that begins with no word character -/

theorem dropWhile_of_takeWhile_nil {cs : List Char} (h : cs.takeWhile isWordChar = []) :
    cs.dropWhile isWordChar = cs := by
  have := List.takeWhile_append_dropWhile (p := isWordChar) (l := cs)
  rwa [h, List.nil_append] at this

theorem takeWhile_dropWhile_isWordChar (cs : List Char) :
    (cs.dropWhile isWordChar).takeWhile isWordChar = [] := by
  induction cs with
  | nil => rfl
  | cons c cs ih =>
    by_cases hc : isWordChar c = true
    · rwa [List.dropWhile_cons_of_pos hc]
    · rw [List.dropWhile_cons_of_neg hc, List.takeWhile_cons_of_neg hc]

theorem takeWhile_segment {s cs : List Char} (hs : IsSegment s)
    (hcs : cs.takeWhile isWordChar = []) : (s ++ cs).takeWhile isWordChar = s := by
  rw [List.takeWhile_append_of_pos hs.2, hcs, List.append_nil]

theorem dropWhile_segment {s cs : List Char} (hs : IsSegment s)
    (hcs : cs.takeWhile isWordChar = []) : (s ++ cs).dropWhile isWordChar = cs := by
  rw [List.dropWhile_append_of_pos hs.2, dropWhile_of_takeWhile_nil hcs]

theorem takeWhile_of_not_extendsName {rest : List Char} (h : extendsName rest = false) :
    rest.takeWhile isWordChar = [] := by
  unfold extendsName at h
  split at h
  · rfl
  · next c cs _ =>
    refine List.takeWhile_cons_of_neg ?_
    rw [h]
    exact Bool.false_ne_true
  · rfl

/-- A separator that does not extend a name has no word character behind it. -/
theorem takeWhile_of_not_extendsName_separator {after : List Char}
    (h : extendsName (separator ++ after) = false) : after.takeWhile isWordChar = [] := by
  cases after with
  | nil => rfl
  | cons c cs =>
    have hc : isWordChar c = false := h
    refine List.takeWhile_cons_of_neg ?_
    rw [hc]
    exact Bool.false_ne_true

/-- What begins with no word character, and with no separator before one, extends no name. -/
theorem not_extendsName {rest : List Char} (hword : rest.takeWhile isWordChar = [])
    (hsep : ∀ after, rest = separator ++ after → after.takeWhile isWordChar = []) :
    extendsName rest = false := by
  have hhead : ∀ {c : Char} {cs : List Char}, (c :: cs).takeWhile isWordChar = [] →
      isWordChar c = false := by
    intro c cs h
    rw [List.takeWhile_cons] at h
    split at h
    · cases h
    · next hc => exact Bool.eq_false_iff.2 hc
  unfold extendsName
  split
  · exact hhead (hsep _ rfl)
  · exact hhead hword
  · rfl

/-! ## Segments -/

instance (cs : List Char) : Decidable (IsSegment cs) :=
  decidable_of_iff (cs ≠ [] ∧ cs.all isWordChar = true) (by rw [IsSegment, List.all_eq_true])

/-- Segments, each behind a separator. -/
def joinBehind (segments : List (List Char)) : List Char := segments.flatMap (separator ++ ·)

theorem intercalate_eq_joinBehind (s : List Char) (ss : List (List Char)) :
    separator.intercalate (s :: ss) = s ++ joinBehind ss := by
  induction ss generalizing s with
  | nil => rw [List.intercalate_singleton]; exact (List.append_nil s).symm
  | cons t ss ih =>
    rw [List.intercalate_cons_cons, ih t, joinBehind, joinBehind, List.flatMap_cons]
    simp only [List.append_assoc]

theorem takeWhile_joinBehind_append {ss : List (List Char)} {rest : List Char}
    (hr : extendsName rest = false) : (joinBehind ss ++ rest).takeWhile isWordChar = [] := by
  cases ss with
  | nil => exact takeWhile_of_not_extendsName hr
  | cons s ss => rfl

/-- The segments behind separators are cut off as far as they go, and no further. -/
theorem takeSegments_joinBehind_append {ss : List (List Char)} (hs : ∀ s ∈ ss, IsSegment s)
    {rest : List Char} (hr : extendsName rest = false) :
    takeSegments (joinBehind ss ++ rest) = (joinBehind ss, rest) := by
  induction ss with
  | nil =>
    show takeSegments rest = ([], rest)
    rw [takeSegments]
    split
    · rfl
    · next after hd =>
      rw [dropSeparator?_eq_some_iff.1 hd] at hr
      rw [if_pos (takeWhile_of_not_extendsName_separator hr)]
  | cons s ss ih =>
    have hseg : IsSegment s := hs s List.mem_cons_self
    have htail : (joinBehind ss ++ rest).takeWhile isWordChar = [] :=
      takeWhile_joinBehind_append hr
    have hcs : joinBehind (s :: ss) ++ rest = separator ++ (s ++ (joinBehind ss ++ rest)) := by
      simp only [joinBehind, List.flatMap_cons, List.append_assoc]
    have hdrop := dropSeparator?_eq_some_iff.2 hcs
    rw [takeSegments]
    split
    · next hnone =>
      rw [hdrop] at hnone
      cases hnone
    · next after hafter =>
      rw [hdrop] at hafter
      cases hafter
      rw [takeWhile_segment hseg htail, dropWhile_segment hseg htail, if_neg hseg.1,
        ih fun t ht => hs t (List.mem_cons_of_mem s ht)]
      simp only [joinBehind, List.flatMap_cons]

/-- Segments are cut off up to where nothing extends a name. -/
theorem extendsName_takeSegments {cs : List Char} (h : cs.takeWhile isWordChar = []) :
    extendsName (takeSegments cs).2 = false := by
  fun_induction takeSegments cs with
  | case1 cs hnone =>
    refine not_extendsName h fun after he => ?_
    rw [dropSeparator?_eq_some_iff.2 he] at hnone
    cases hnone
  | case2 cs after hsome hw =>
    refine not_extendsName h fun after' he => ?_
    rw [dropSeparator?_eq_some_iff.2 he] at hsome
    cases hsome
    exact hw
  | case3 cs after hsome hw more ih => exact ih (takeWhile_dropWhile_isWordChar after)

/-- What is cut off are segments behind separators. -/
theorem exists_joinBehind_takeSegments (cs : List Char) :
    ∃ ss, (∀ s ∈ ss, IsSegment s) ∧ (takeSegments cs).1 = joinBehind ss := by
  fun_induction takeSegments cs with
  | case1 cs hnone => exact ⟨[], by simp, rfl⟩
  | case2 cs after hsome hw => exact ⟨[], by simp, rfl⟩
  | case3 cs after hsome hw more ih =>
    obtain ⟨ss, hss, he⟩ := ih
    refine ⟨after.takeWhile isWordChar :: ss, ?_, ?_⟩
    · intro s hs
      rcases List.mem_cons.1 hs with rfl | hs
      · exact ⟨hw, fun c hc => List.all_eq_true.1 List.all_takeWhile c hc⟩
      · exact hss s hs
    · show _ ++ more.1 = _
      rw [he]
      simp only [joinBehind, List.flatMap_cons]

/-! ## Names -/

/-- A name is taken off the front of a text when the rest does not extend it. -/
theorem takeName_append_of_isName {name rest : List Char} (hn : IsName name)
    (hr : extendsName rest = false) : takeName (name ++ rest) = (name, rest) := by
  obtain ⟨segments, hne, hsegs, hname⟩ := hn
  cases segments with
  | nil => exact absurd rfl hne
  | cons s ss =>
    have hs : IsSegment s := hsegs s List.mem_cons_self
    have hss : ∀ t ∈ ss, IsSegment t := fun t ht => hsegs t (List.mem_cons_of_mem s ht)
    rw [intercalate_eq_joinBehind] at hname
    unfold takeName
    rcases hname with rfl | rfl
    · -- the first segment stands in front, the others behind separators
      have htail : (joinBehind ss ++ rest).takeWhile isWordChar = [] :=
        takeWhile_joinBehind_append hr
      rw [List.append_assoc, takeWhile_segment hs htail, dropWhile_segment hs htail,
        takeSegments_joinBehind_append hss hr]
    · -- all segments stand behind separators
      have hall : separator ++ (s ++ joinBehind ss) = joinBehind (s :: ss) := by
        simp only [joinBehind, List.flatMap_cons, List.append_assoc]
      have htail : (joinBehind (s :: ss) ++ rest).takeWhile isWordChar = [] :=
        takeWhile_joinBehind_append hr
      rw [hall, htail, dropWhile_of_takeWhile_nil htail, takeSegments_joinBehind_append hsegs hr]
      rfl

theorem takeName_of_not_extendsName {cs : List Char} (h : extendsName cs = false) :
    takeName cs = ([], cs) := by
  have hword := takeWhile_of_not_extendsName h
  have hsegments : takeSegments (joinBehind [] ++ cs) = (joinBehind [], cs) :=
    takeSegments_joinBehind_append (by simp) h
  rw [joinBehind, List.flatMap_nil, List.nil_append] at hsegments
  unfold takeName
  rw [hword, dropWhile_of_takeWhile_nil hword, hsegments]
  rfl

/-- Nothing behind the name at the front of a text extends it. -/
theorem extendsName_takeName (cs : List Char) : extendsName (takeName cs).2 = false :=
  extendsName_takeSegments (takeWhile_dropWhile_isWordChar cs)

theorem isName_takeName {cs : List Char} (h : (takeName cs).1 ≠ []) : IsName (takeName cs).1 := by
  obtain ⟨ss, hss, he⟩ := exists_joinBehind_takeSegments (cs.dropWhile isWordChar)
  have hname : (takeName cs).1 = cs.takeWhile isWordChar ++ joinBehind ss := by
    rw [← he]
    rfl
  rw [hname] at h ⊢
  by_cases hfront : cs.takeWhile isWordChar = []
  · rw [hfront, List.nil_append] at h ⊢
    cases ss with
    | nil => exact absurd rfl h
    | cons s ss =>
      refine ⟨s :: ss, List.cons_ne_nil _ _, hss, Or.inr ?_⟩
      rw [intercalate_eq_joinBehind]
      simp only [joinBehind, List.flatMap_cons, List.append_assoc]
  · refine ⟨cs.takeWhile isWordChar :: ss, List.cons_ne_nil _ _, ?_, Or.inl ?_⟩
    · intro s hs
      rcases List.mem_cons.1 hs with rfl | hs
      · exact ⟨hfront, fun c hc => List.all_eq_true.1 List.all_takeWhile c hc⟩
      · exact hss s hs
    · rw [intercalate_eq_joinBehind]

theorem IsName.exists_cons {name : List Char} (hn : IsName name) :
    ∃ c cs, name = c :: cs ∧ (isWordChar c = true ∨ c = ':') := by
  obtain ⟨segments, hne, hsegs, hname⟩ := hn
  cases segments with
  | nil => exact absurd rfl hne
  | cons s ss =>
    obtain ⟨hs, hword⟩ := hsegs s List.mem_cons_self
    rw [intercalate_eq_joinBehind] at hname
    rcases hname with rfl | rfl
    · cases s with
      | nil => exact absurd rfl hs
      | cons c cs => exact ⟨c, cs ++ joinBehind ss, rfl, Or.inl (hword c List.mem_cons_self)⟩
    · exact ⟨':', ':' :: (s ++ joinBehind ss), rfl, Or.inr rfl⟩

theorem IsName.not_mem {name : List Char} (hn : IsName name) {c : Char}
    (hword : isWordChar c = false) (hcolon : c ≠ ':') : c ∉ name := by
  obtain ⟨segments, hne, hsegs, hname⟩ := hn
  have hseg : ∀ s ∈ segments, c ∉ s := by
    intro s hs hc
    rw [(hsegs s hs).2 c hc] at hword
    cases hword
  cases segments with
  | nil => exact absurd rfl hne
  | cons s ss =>
    have hs : c ∉ s := hseg s List.mem_cons_self
    have hjoin : c ∉ joinBehind ss := by
      intro hc
      obtain ⟨t, ht, hc⟩ := List.mem_flatMap.1 hc
      rcases List.mem_append.1 hc with hc | hc
      · simp [separator, hcolon] at hc
      · exact hseg t (List.mem_cons_of_mem s ht) hc
    rw [intercalate_eq_joinBehind] at hname
    rcases hname with rfl | rfl <;> simp [separator, hcolon, hs, hjoin]

end ScopeTree.Interpolation
