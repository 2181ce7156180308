import ScopeTree.Proofs.LetterCase
import ScopeTree.Proofs.Registry

/-!
# Names in lower case

The registry goes by the lower-case form of a full name, so it makes no difference in which case a
namespace and a name are written, as long as the form of the whole is that of its parts.  It is not
where a capital sigma stands at the seam: a namespace that ends in one, or a name that opens with
one, can have the sigma as the end of a word by itself and inside a word when they are joined, since
a separator does not end a word.

    candidates (lower ns) (lower name) = candidates ns name ↔ SigmasStay ns name
                                                                 (candidates_lower_iff)
    'Σ' is in neither of them → SigmasStay ns name               (sigmasStay_of_no_sigma)
    every registry finds the same under the lower-case names ↔ SigmasStay ns name
                                                                 (find_lower_iff)

For the last one a registry is needed that tells the names apart when a sigma does change.  One
declaration is enough: its key can be told by its length from the keys of the other namespaces.
-/

namespace ScopeTree

open Text

/-- A name is absolute, or no capital sigma changes where it meets one of the namespaces around it:
one at the end of the namespace finds a letter behind the seam just when it found one in the full
namespace, and one that opens the name finds no letter in front. -/
def SigmasStay (ns name : List Char) : Prop :=
  separator <+: name ∨ ∀ outer ∈ enclosing ns, outer ≠ [] →
    (endsInSigma outer = true → touchesCased (ns.drop outer.length) = touchesCased name) ∧
      (opensWithSigma name = true → touchesCased outer.reverse = false)

/-! ## The namespaces around a namespace -/

theorem prefix_of_mem_enclosing {ns outer : List Char} (h : outer ∈ enclosing ns) :
    outer <+: ns := by
  induction ns using enclosing.induct with
  | case1 =>
    rw [enclosing_nil] at h
    have hnil : outer = [] := List.mem_singleton.1 h
    subst hnil
    exact List.prefix_refl _
  | case2 ns hns hnone =>
    rw [enclosing_of_splitLast?_none hns hnone] at h
    rcases List.mem_cons.1 h with rfl | h
    · exact List.prefix_refl _
    · rw [List.mem_singleton.1 h]
      exact List.nil_prefix
  | case3 ns hns q s hsplit ih =>
    rw [enclosing_of_splitLast? hsplit] at h
    rcases List.mem_cons.1 h with rfl | h
    · exact List.prefix_refl _
    · rw [eq_append_of_splitLast? hsplit, List.append_assoc]
      exact (ih h).trans (List.prefix_append q _)

/-- Around the lower-case form of a namespace are those of the namespaces around it, each as it is
inside the whole. -/
theorem enclosing_lowerIn (before ns after : List Char) :
    enclosing (lowerIn before ns after) =
      (enclosing ns).map fun outer => lowerIn before outer (ns.drop outer.length ++ after) := by
  induction ns using enclosing.induct generalizing after with
  | case1 =>
    rw [lowerIn, enclosing_nil]
    rfl
  | case2 ns hns hnone =>
    have hlower : lowerIn before ns after ≠ [] := fun h => hns (lowerIn_eq_nil_iff.1 h)
    have hcut := splitLast?_lowerIn before ns after
    rw [hnone] at hcut
    rw [enclosing_of_splitLast?_none hns hnone, enclosing_of_splitLast?_none hlower hcut]
    simp [lowerIn]
  | case3 ns hns q s hsplit ih =>
    have hcut := splitLast?_lowerIn before ns after
    rw [hsplit] at hcut
    rw [enclosing_of_splitLast? hsplit, enclosing_of_splitLast? hcut, ih, List.map_cons,
      List.drop_length, List.nil_append]
    refine congrArg _ (List.map_congr_left fun outer houter => ?_)
    have hle : outer.length ≤ q.length := (prefix_of_mem_enclosing houter).length_le
    rw [eq_append_of_splitLast? hsplit, List.append_assoc q, List.drop_append_of_le_length hle,
      List.append_assoc (List.drop _ _), List.append_assoc]

/-! ## Keys in lower case -/

theorem lower_ofList (cs : List Char) :
    lower (String.ofList cs) = String.ofList (lowerIn [] cs []) := by
  rw [lower, String.toList_ofList, lowerFrom_eq_lowerIn]

theorem toList_lower (s : String) : (lower s).toList = lowerIn [] s.toList [] := by
  rw [lower, String.toList_ofList, lowerFrom_eq_lowerIn]

theorem dropSeparator?_lowerIn_of_plain {name : List Char} (hname : dropSeparator? name = none)
    (before after : List Char) : dropSeparator? (lowerIn before name after) = none := by
  rw [dropSeparator?_lowerIn, hname]
  rfl

theorem nameKey_lower (name : String) : nameKey (lower name) = nameKey name := by
  rw [nameKey_eq_foldedName, nameKey_eq_foldedName, foldedName, foldedName, toList_lower,
    dropSeparator?_lowerIn, lower_ofList, lower_ofList]
  cases dropSeparator? name.toList with
  | some rest =>
    have hbefore : touchesCased (separator ++ []) = touchesCased [] := touchesCased_separator []
    rw [Option.map_some, Option.getD_some, Option.getD_some,
      lowerIn_of_isLower isLower_of_mem_lowerIn, lowerIn_congr hbefore rfl]
  | none =>
    rw [Option.map_none, Option.getD_none, Option.getD_none,
      lowerIn_of_isLower isLower_of_mem_lowerIn]

/-- The key of a plain name is made of the forms of its parts, each as it is inside the whole. -/
theorem qualifiedKey_of_plain {name : List Char} (hname : dropSeparator? name = none)
    {outer : List Char} (houter : outer ≠ []) :
    qualifiedKey outer name = String.ofList
      (lowerIn [] outer (separator ++ name) ++ separator ++
        lowerIn (separator ++ outer.reverse) name []) := by
  have hfull : qualify outer name = outer ++ (separator ++ name) := by
    rw [qualify, hname]
    simp [houter]
  rw [qualifiedKey, lower_ofList, hfull, lowerIn_append, lowerIn_separator, List.append_nil,
    List.append_nil, List.append_assoc]

theorem qualifiedKey_of_isLower {outer name : List Char} (hname : dropSeparator? name = none)
    (houter : outer ≠ []) (hlower : ∀ c ∈ outer, IsLower c) (hlower' : ∀ c ∈ name, IsLower c) :
    qualifiedKey outer name = String.ofList (outer ++ separator ++ name) := by
  rw [qualifiedKey_of_plain hname houter, lowerIn_of_isLower hlower, lowerIn_of_isLower hlower']

/-- The forms of the parts by themselves make the same key just when no sigma changes at the seam;
`after` is what follows the outer namespace in the full one. -/
theorem qualifiedKey_lowerIn_iff {name : List Char} (hname : dropSeparator? name = none)
    {outer : List Char} (houter : outer ≠ []) (after : List Char) :
    qualifiedKey (lowerIn [] outer after) (lowerIn [] name []) = qualifiedKey outer name ↔
      (endsInSigma outer = true → touchesCased after = touchesCased name) ∧
        (opensWithSigma name = true → touchesCased outer.reverse = false) := by
  have hnil : touchesCased [] = false := rfl
  have hlower : lowerIn [] outer after ≠ [] := fun h => houter (lowerIn_eq_nil_iff.1 h)
  have hfront : (lowerIn [] outer after).length = (lowerIn [] outer (separator ++ name)).length :=
    (length_lowerIn _ _ _).trans (length_lowerIn _ _ _).symm
  rw [qualifiedKey_of_isLower (dropSeparator?_lowerIn_of_plain hname _ _) hlower
      isLower_of_mem_lowerIn isLower_of_mem_lowerIn, qualifiedKey_of_plain hname houter,
    String.ofList_inj, List.append_assoc, List.append_assoc,
    List.append_eq_append_iff_of_size_eq_left hfront, List.append_right_inj, lowerIn_eq_iff_after,
    lowerIn_eq_iff_before, touchesCased_separator, touchesCased_separator, hnil]
  simp only [eq_comm]

/-- The candidates under lower-case names are the same just when no sigma changes at a seam. -/
theorem candidates_lower_iff (ns name : String) :
    candidates (lower ns) (lower name) = candidates ns name ↔
      SigmasStay ns.toList name.toList := by
  unfold candidates
  rw [toList_lower, toList_lower, dropSeparator?_lowerIn]
  cases hname : dropSeparator? name.toList with
  | some rest =>
    rw [Option.map_some, nameKey_lower]
    exact iff_of_true rfl (.inl ⟨rest, (dropSeparator?_eq_some_iff.1 hname).symm⟩)
  | none =>
    have hplain : ¬ separator <+: name.toList := by
      rintro ⟨rest, hrest⟩
      rw [dropSeparator?_eq_some_iff.2 hrest.symm] at hname
      cases hname
    rw [Option.map_none, enclosing_lowerIn, List.map_map]
    simp only [List.map_inj_left, Function.comp_apply, List.append_nil, SigmasStay, hplain,
      false_or]
    refine forall₂_congr fun outer _ => ?_
    by_cases houter : outer = []
    · have hkey : qualifiedKey [] (lowerIn [] name.toList []) = qualifiedKey [] name.toList := by
        rw [← toList_lower]
        exact nameKey_lower name
      rw [houter, lowerIn, hkey]
      simp
    · rw [qualifiedKey_lowerIn_iff hname houter]
      simp [houter]

/-! ## A registry that tells -/

/-- How many characters the lower-case form of a part has, in whatever surroundings. -/
def width (cs : List Char) : Nat := (cs.flatMap lowerChar).length

theorem width_append (cs ds : List Char) : width (cs ++ ds) = width cs + width ds := by
  simp [width]

theorem width_eq_zero_iff {cs : List Char} : width cs = 0 ↔ cs = [] := by
  rw [width, ← length_lowerIn [] cs [], List.length_eq_zero_iff, lowerIn_eq_nil_iff]

theorem width_lowerIn (before cs after : List Char) :
    width (lowerIn before cs after) = width cs := by
  have hlower : ∀ c ∈ lowerIn before cs after, IsLower c := isLower_of_mem_lowerIn
  rw [width, ← length_lowerIn [] _ [], lowerIn_of_isLower hlower, length_lowerIn]
  rfl

theorem length_qualifiedKey {name : List Char} (hname : dropSeparator? name = none)
    (outer : List Char) : (qualifiedKey outer name).length =
      width outer + (if outer = [] then 0 else 2) + width name := by
  have hparts : (qualifiedKey outer name).length = width (qualify outer name) := by
    rw [qualifiedKey, lower_ofList, String.length_ofList, length_lowerIn]
    rfl
  have hsep : width separator = 2 := by decide
  rw [hparts, qualify, hname]
  by_cases houter : outer = []
  · simp [houter, width]
  · simp [houter, width_append, hsep, Nat.add_assoc]

/-- Namespaces around the same one are told apart by their widths. -/
theorem eq_of_width_eq {ns outer outer' : List Char} (h : outer <+: ns) (h' : outer' <+: ns)
    (hwidth : width outer = width outer') : outer = outer' := by
  have heq : ∀ {a b : List Char}, a <+: b → width a = width b → a = b := by
    rintro a - ⟨rest, rfl⟩ hw
    rw [width_append] at hw
    rw [width_eq_zero_iff.1 (by omega : width rest = 0), List.append_nil]
  rcases List.prefix_or_prefix_of_prefix h h' with hle | hle
  · exact heq hle hwidth
  · exact (heq hle hwidth.symm).symm

/-- Where a sigma changes at a seam, a candidate is not among those under the lower-case names. -/
theorem sigmasStay_of_subset {ns name : String}
    (h : candidates ns name ⊆ candidates (lower ns) (lower name)) :
    SigmasStay ns.toList name.toList := by
  cases hname : dropSeparator? name.toList with
  | some rest => exact .inl ⟨rest, (dropSeparator?_eq_some_iff.1 hname).symm⟩
  | none =>
    refine .inr fun outer hmem houter => ?_
    have hlower := dropSeparator?_lowerIn_of_plain hname [] []
    have hkey : qualifiedKey outer name.toList ∈ candidates (lower ns) (lower name) := by
      refine h ?_
      rw [candidates, hname]
      exact List.mem_map_of_mem hmem
    rw [candidates, toList_lower, toList_lower, hlower, enclosing_lowerIn, List.map_map] at hkey
    obtain ⟨outer', hmem', heq⟩ := List.mem_map.1 hkey
    simp only [Function.comp_apply, List.append_nil] at heq
    -- the key tells by its length which namespace it belongs to
    have hlen := congrArg String.length heq
    rw [length_qualifiedKey hlower, length_qualifiedKey hname, width_lowerIn, width_lowerIn,
      if_neg houter] at hlen
    simp only [lowerIn_eq_nil_iff] at hlen
    have houter' : outer' ≠ [] := by
      rintro rfl
      have hzero : width [] = 0 := rfl
      rw [if_pos rfl, hzero] at hlen
      omega
    rw [if_neg houter'] at hlen
    have hsame : outer' = outer := eq_of_width_eq (prefix_of_mem_enclosing hmem')
      (prefix_of_mem_enclosing hmem) (by omega)
    rw [hsame] at heq
    exact (qualifiedKey_lowerIn_iff hname houter _).1 heq

theorem exists_eq_lower_of_mem_candidates {ns name key : String} (h : key ∈ candidates ns name) :
    ∃ full, key = lower full := by
  unfold candidates at h
  split at h
  · exact ⟨_, List.mem_singleton.1 h⟩
  · obtain ⟨outer, -, rfl⟩ := List.mem_map.1 h
    exact ⟨_, rfl⟩

/-- A single declaration is found under the keys that are its own. -/
theorem findSome?_lastNamed_single {α : Type} (nameOf : α → String) {d : α} {full : String}
    (hd : nameOf d = "::" ++ full) (keys : List String) :
    keys.findSome? (lastNamed nameOf [d]) = if lower full ∈ keys then some d else none := by
  have hentry : ∀ key, lastNamed nameOf [d] key = if lower full = key then some d else none := by
    intro key
    rw [lastNamed_cons, hd, foldedName_absolute]
    rfl
  induction keys with
  | nil => rfl
  | cons key keys ih =>
    rw [List.findSome?_cons, ih, hentry]
    by_cases hkey : lower full = key
    · simp [hkey]
    · simp [hkey]

/-- Declarations of one name each are enough to tell. -/
theorem sigmasStay_of_find {α : Type} (nameOf : α → String) {ns name : String}
    (entry : String → α) (hentry : ∀ full, nameOf (entry full) = "::" ++ full)
    (hfind : ∀ full, (candidates (lower ns) (lower name)).findSome?
        (lastNamed nameOf [entry full]) =
      (candidates ns name).findSome? (lastNamed nameOf [entry full])) :
    SigmasStay ns.toList name.toList := by
  refine sigmasStay_of_subset fun key hkey => ?_
  obtain ⟨full, rfl⟩ := exists_eq_lower_of_mem_candidates hkey
  have hsingle := hfind full
  rw [findSome?_lastNamed_single nameOf (hentry full),
    findSome?_lastNamed_single nameOf (hentry full), if_pos hkey] at hsingle
  by_contra hnot
  rw [if_neg hnot] at hsingle
  cases hsingle

/-! ## Names without a capital sigma -/

theorem mem_of_dropWhile_eq_cons {p : Char → Bool} {c : Char} {cs rest : List Char}
    (h : cs.dropWhile p = c :: rest) : c ∈ cs := by
  refine (List.dropWhile_suffix p).subset ?_
  rw [h]
  exact List.mem_cons_self

theorem endsInSigma_eq_false {cs : List Char} (h : 'Σ' ∉ cs) : endsInSigma cs = false := by
  unfold endsInSigma
  split
  · rfl
  · next c before heq =>
    have hc : c ∈ cs := List.mem_reverse.1 (mem_of_dropWhile_eq_cons heq)
    have hne : c ≠ 'Σ' := fun hsigma => h (hsigma ▸ hc)
    simp [hne]

theorem opensWithSigma_eq_false {cs : List Char} (h : 'Σ' ∉ cs) : opensWithSigma cs = false := by
  unfold opensWithSigma
  split
  · rfl
  · next c after heq =>
    have hc : c ∈ cs := mem_of_dropWhile_eq_cons heq
    have hne : c ≠ 'Σ' := fun hsigma => h (hsigma ▸ hc)
    simp [hne]

theorem sigmasStay_of_no_sigma {ns name : List Char} (hns : 'Σ' ∉ ns) (hname : 'Σ' ∉ name) :
    SigmasStay ns name := by
  refine .inr fun outer houter _ => ⟨fun hends => ?_, fun hopens => ?_⟩
  · have hfront := prefix_of_mem_enclosing houter
    rw [endsInSigma_eq_false fun h => hns (hfront.subset h)] at hends
    cases hends
  · rw [opensWithSigma_eq_false hname] at hopens
    cases hopens

namespace TypeTable

/-! ## Top theorem -/

/-- The registry finds the same under a namespace and a name in lower case, whatever is declared,
just when no capital sigma changes where the name meets a namespace.  It is the same for classes
and defined types. -/
theorem find_lower_iff (ns name : String) :
    ((∀ decls, (ofDecls decls).findClass? (lower ns) (lower name) =
        (ofDecls decls).findClass? ns name) ↔ SigmasStay ns.toList name.toList) ∧
      ((∀ decls, (ofDecls decls).findDefine? (lower ns) (lower name) =
        (ofDecls decls).findDefine? ns name) ↔ SigmasStay ns.toList name.toList) := by
  refine ⟨⟨fun hfind => ?_, fun hstay decls => ?_⟩, ⟨fun hfind => ?_, fun hstay decls => ?_⟩⟩
  · refine sigmasStay_of_find ClassDecl.name (fun full => ⟨"::" ++ full, .ordinary⟩) (fun _ => rfl)
      fun full => ?_
    have hsingle := hfind [.ofClass ⟨"::" ++ full, .ordinary⟩]
    simp only [findClass?, classes_ofDecls] at hsingle
    exact hsingle
  · rw [findClass?, (candidates_lower_iff ns name).2 hstay]
    rfl
  · refine sigmasStay_of_find DefineDecl.name (fun full => ⟨"::" ++ full⟩) (fun _ => rfl)
      fun full => ?_
    have hsingle := hfind [.define ⟨"::" ++ full⟩]
    simp only [findDefine?, defines_ofDecls] at hsingle
    exact hsingle
  · rw [findDefine?, (candidates_lower_iff ns name).2 hstay]
    rfl

/-- A class declared as `ΑΣ::b` is found as `b` inside `ΑΣ`, and not inside the lower-case form of
`ΑΣ`: by itself `ΑΣ` ends in the sigma that ends a word, and in the key another sigma stands. -/
theorem not_find_lower_final_sigma :
    (ofDecls [.ofClass ⟨"ΑΣ::b", .ordinary⟩]).findClass? "ΑΣ" "b" = some ⟨"ΑΣ::b", .ordinary⟩ ∧
      (ofDecls [.ofClass ⟨"ΑΣ::b", .ordinary⟩]).findClass? (lower "ΑΣ") (lower "b") = none := by
  decide +kernel

end TypeTable

end ScopeTree
