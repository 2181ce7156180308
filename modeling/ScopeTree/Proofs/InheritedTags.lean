import ScopeTree.Proofs.History
import ScopeTree.Proofs.Visibility

/-!
# Which tags a scope carries

A scope carries its own tags, its type unless that is the empty one, and all that the scopes
above it carry.  The tags come out in code point order, each once, whether it is there as a tag or
as a type and in however many of the scopes.

    isValidTag t = true ↔ IsTag t                                (isValidTag_iff)
    Reachable c → c.HasTag i t → IsTag t                         (Reachable.isTag)
    t ∈ tags ↔ ∃ j ∈ ids, c.HasTag j t ∨ c.HasType j t           (IsForest.effectiveTags_eq)

Only valid tags are ever stored, so what is carried and is not the type of a scope is valid.
-/

namespace ScopeTree

/-- An ASCII letter, a digit or an underscore. -/
def IsTagStart (c : Char) : Prop :=
  ('A' ≤ c ∧ c ≤ 'Z') ∨ ('a' ≤ c ∧ c ≤ 'z') ∨ ('0' ≤ c ∧ c ≤ '9') ∨ c = '_'

/-- The whole text is of the form `[A-Za-z0-9_][-A-Za-z0-9_]*`. -/
def IsTag (text : String) : Prop :=
  ∃ c cs, text.toList = c :: cs ∧ IsTagStart c ∧ ∀ d ∈ cs, IsTagStart d ∨ d = '-'

/-! ## Valid tags -/

theorem isWordChar_iff {c : Char} : Text.isWordChar c = true ↔ IsTagStart c := by
  have hword : Text.isWordChar c = (c.isUpper || c.isLower || c.isDigit || c == '_') := rfl
  have hupper : c.isUpper = true ↔ 'A' ≤ c ∧ c ≤ 'Z' := decide_eq_true_iff
  have hlower : c.isLower = true ↔ 'a' ≤ c ∧ c ≤ 'z' := by
    show (decide ('a' ≤ c) && decide (c ≤ 'z')) = true ↔ _
    rw [Bool.and_eq_true, decide_eq_true_iff, decide_eq_true_iff]
  have hdigit : c.isDigit = true ↔ '0' ≤ c ∧ c ≤ '9' := by
    show (decide ('0' ≤ c) && decide (c ≤ '9')) = true ↔ _
    rw [Bool.and_eq_true, decide_eq_true_iff, decide_eq_true_iff]
  simp only [hword, Bool.or_eq_true, hupper, hlower, hdigit, beq_iff_eq, IsTagStart, or_assoc]

theorem isValidTag_iff {text : String} : isValidTag text = true ↔ IsTag text := by
  unfold isValidTag IsTag
  cases text.toList with
  | nil => simp
  | cons c cs =>
    simp only [Bool.and_eq_true, List.all_eq_true, Bool.or_eq_true, beq_iff_eq, isWordChar_iff]
    constructor
    · rintro ⟨hc, hcs⟩
      exact ⟨c, cs, rfl, hc, hcs⟩
    · rintro ⟨c', cs', he, hc, hcs⟩
      obtain ⟨rfl, rfl⟩ := List.cons.inj he
      exact ⟨hc, hcs⟩

/-- Whether all of the names are accepted or not, only tags are added to tags. -/
theorem TagSet.isTag_addAll {tags : TagSet} (htags : ∀ t ∈ tags, IsTag t) (names : List String) :
    ∀ t ∈ (tags.addAll names).1, IsTag t := by
  intro t ht
  rcases TagSet.mem_addAll.1 ht with ht | ht
  · exact htags t ht
  · -- only names before the first invalid one are added
    have hvalid : isValidTag t = true := List.all_eq_true.1 List.all_takeWhile t ht
    exact isValidTag_iff.1 hvalid

/-- A scope adds its own tags to those above it, and its type if that is not empty. -/
theorem Scope.mem_ownTags {s : Scope} {t : String} :
    t ∈ s.ownTags ↔ t ∈ s.tags ∨ s.typeName = some t ∧ t ≠ "" := by
  simp [ownTags, Std.ExtTreeSet.mem_toList]

namespace Catalog

/-- The tag is one of the scope itself. -/
def HasTag (c : Catalog) (i : ScopeId) (t : String) : Prop := ∃ s, c.scope? i = some s ∧ t ∈ s.tags

/-- The text is the type of the scope, and not the empty one. -/
def HasType (c : Catalog) (i : ScopeId) (t : String) : Prop :=
  ∃ s, c.scope? i = some s ∧ s.typeName = some t ∧ t ≠ ""

theorem scopeInvariant_isTag : ScopeInvariant fun s => ∀ t ∈ s.tags, IsTag t where
  make _ _ _ := by
    intro t ht
    exact absurd ht Std.ExtTreeSet.not_mem_empty
  edit s e hs := by
    cases e with
    | addTags names => exact TagSet.isTag_addAll hs names
    | bind name value location =>
      simp only [Edit.run]
      split <;> exact hs
    | _ => exact hs
  registered _ _ hs := hs

theorem Reachable.isTag {c : Catalog} (hc : Reachable c) {i : ScopeId} {t : String}
    (ht : c.HasTag i t) : IsTag t := by
  obtain ⟨s, hs, ht⟩ := ht
  exact scopeInvariant_isTag.of_reachable hc i s hs t ht

/-! ## Collecting -/

theorem mem_joinTags_filterMap {c : Catalog} {ids : List ScopeId} {t : String} :
    t ∈ joinTags (ids.filterMap c.handle?) ↔ ∃ j ∈ ids, c.HasTag j t ∨ c.HasType j t := by
  rw [mem_joinTags]
  constructor
  · rintro ⟨h, hmem, ht⟩
    obtain ⟨j, hj, hh⟩ := List.mem_filterMap.1 hmem
    have hs := scope?_of_handle? hh
    rcases Scope.mem_ownTags.1 ht with ht | ht
    · exact ⟨j, hj, Or.inl ⟨h.scope, hs, ht⟩⟩
    · exact ⟨j, hj, Or.inr ⟨h.scope, hs, ht⟩⟩
  · rintro ⟨j, hj, ⟨s, hs, ht⟩ | ⟨s, hs, ht⟩⟩
    all_goals
      obtain ⟨h, hh, rfl⟩ := Option.map_eq_some_iff.1 hs
      refine ⟨h, List.mem_filterMap.2 ⟨j, hj, hh⟩, Scope.mem_ownTags.2 ?_⟩
    · exact Or.inl ht
    · exact Or.inr ht

namespace IsForest

variable {c : Catalog} {i : ScopeId} {h : Handle} {ids : List ScopeId}

theorem effectiveTags_eq (hc : IsForest c) (hi : c.handle? i = some h) (ha : Ancestry c i ids) :
    ∃ tags, c.effectiveTags h = .ok tags ∧ tags.Pairwise (· < ·) ∧
      ∀ t, t ∈ tags ↔ ∃ j ∈ ids, c.HasTag j t ∨ c.HasType j t := by
  refine ⟨(joinTags (ids.filterMap c.handle?)).toList, ?_, TagSet.pairwise_toList _, fun t => ?_⟩
  · rw [effectiveTags, hc.chain_eq hi ha]
    rfl
  · rw [Std.ExtTreeSet.mem_toList, mem_joinTags_filterMap]

theorem exists_ancestry_parent (hc : IsForest c) (hi : c.handle? i = some h)
    (ha : Ancestry c i ids) {up : Handle} (hup : c.parentScope h = .ok (some up)) :
    ∃ p above, c.handle? p = some up ∧ Ancestry c p above ∧ ids = i :: above := by
  rw [hc.parentScope_eq hi] at hup
  cases ha with
  | root hr =>
    rw [hr] at hup
    cases hup
  | @up _ p above hp habove =>
    rw [hp] at hup
    exact ⟨p, above, Except.ok.inj hup, habove, rfl⟩

end IsForest

/-! ## Top theorem -/

/-- In a reachable catalog the tags of every scope can be had.  They come in code point order, each
once: the tags of the scopes of its ancestry and their types other than the empty one, and nothing
else.  What its parent carries is among them, and each that is not a type there is a valid tag. -/
theorem mem_effectiveTags_iff {c : Catalog} (hc : Reachable c) {i : ScopeId} {h : Handle}
    (hi : c.handle? i = some h) :
    ∃ ids tags, Ancestry c i ids ∧ c.effectiveTags h = .ok tags ∧
      tags.Pairwise (· < ·) ∧ tags.Nodup ∧
      (∀ t, t ∈ tags ↔ ∃ j ∈ ids, c.HasTag j t ∨ c.HasType j t) ∧
      (∀ up, c.parentScope h = .ok (some up) →
        ∃ above, c.effectiveTags up = .ok above ∧ above ⊆ tags) ∧
      ∀ t ∈ tags, (∀ j ∈ ids, ¬ c.HasType j t) → IsTag t := by
  have hf := hc.isForest
  obtain ⟨ids, ha⟩ := hf.exists_ancestry i
  obtain ⟨tags, htags, hordered, hmem⟩ := hf.effectiveTags_eq hi ha
  have hnodup : tags.Nodup := by
    refine hordered.imp ?_
    rintro a b hlt rfl
    exact String.lt_irrefl a hlt
  refine ⟨ids, tags, ha, htags, hordered, hnodup, hmem, fun up hup => ?_, fun t ht hno => ?_⟩
  · obtain ⟨p, idsAbove, hp, habove, rfl⟩ := hf.exists_ancestry_parent hi ha hup
    obtain ⟨above, htagsAbove, -, hmemAbove⟩ := hf.effectiveTags_eq hp habove
    refine ⟨above, htagsAbove, fun t ht => ?_⟩
    obtain ⟨j, hj, hhas⟩ := (hmemAbove t).1 ht
    exact (hmem t).2 ⟨j, List.mem_cons_of_mem i hj, hhas⟩
  · obtain ⟨j, hj, htag | htype⟩ := (hmem t).1 ht
    · exact hc.isTag htag
    · exact absurd htype (hno j hj)

/-- A class under a root with a tag.  Of the tags that it was to have the second is none. -/
def sampleTagged : Catalog :=
  Command.runAll (.new .empty)
    [.edit top (.addTags ["site"]), .childScope top { typeName := some "apache::vhost" },
     .edit ⟨1⟩ (.addTags ["web", "not ok", "late"])]

/-- The class carries its first tag, its type and the tag of the root, which adds no type.  Of these
the first tag is no type and so is valid. -/
theorem mem_effectiveTags_iff_web :
    ∃ h up above, sampleTagged.handle? ⟨1⟩ = some h ∧
      sampleTagged.effectiveTags h = .ok ["apache::vhost", "site", "web"] ∧
      ["apache::vhost", "site", "web"].Pairwise (· < ·) ∧
      sampleTagged.parentScope h = .ok (some up) ∧ sampleTagged.effectiveTags up = .ok above ∧
      above ⊆ ["apache::vhost", "site", "web"] ∧ IsTag "web" := by
  have hreach : Reachable sampleTagged := (Reachable.new .empty).runAll _
  obtain ⟨ids, tags, ha, htags, hordered, -, -, hparent, hvalid⟩ :=
    mem_effectiveTags_iff hreach (i := ⟨1⟩) rfl
  obtain rfl : ids = [⟨1⟩, ⟨0⟩] := ha.unique (.up rfl (.root rfl))
  obtain rfl : tags = ["apache::vhost", "site", "web"] := Except.ok.inj (htags.symm.trans rfl)
  obtain ⟨above, habove, hsubset⟩ := hparent _ rfl
  refine ⟨_, _, above, rfl, htags, hordered, rfl, habove, hsubset, hvalid "web" (by simp) ?_⟩
  rintro j hj ⟨s, hs, htype, -⟩
  have hnone : ∀ j ∈ [(⟨1⟩ : ScopeId), ⟨0⟩],
      (sampleTagged.scope? j).bind (·.typeName) ≠ some "web" := by decide
  exact hnone j hj (by rw [hs]; exact htype)

end Catalog

end ScopeTree
