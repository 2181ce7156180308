import ScopeTree.Error
import ScopeTree.Text.Word
import Std.Data.ExtTreeSet

/-!
# Tags

A tag is a word that may contain dashes after its first character.  Tags are added one by
one; those before an invalid one stay.

    (addAll ts names).1 = ts ∪ the valid names up to the first invalid one
-/

namespace ScopeTree

/-- A set of tags, in code point order. -/
abbrev TagSet := Std.ExtTreeSet String

/-- A word character first, then word characters and dashes. -/
def isValidTag (tag : String) : Bool :=
  match tag.toList with
  | [] => false
  | c :: cs => Text.isWordChar c && cs.all fun d => Text.isWordChar d || d == '-'

namespace TagSet

/-- Add tags in order, up to the first invalid one. -/
def addAll (tags : TagSet) : List String → TagSet × Except ScopeError Unit
  | [] => (tags, .ok ())
  | name :: names =>
    if isValidTag name then addAll (tags.insert name) names
    else (tags, .error (.invalidTag name))

/-! ## Lemmas -/

theorem addAll_snd (tags : TagSet) (names : List String) :
    (addAll tags names).2 =
      match names.find? fun n => !isValidTag n with
      | none => .ok ()
      | some n => .error (.invalidTag n) := by
  induction names generalizing tags with
  | nil => rfl
  | cons n ns ih => cases h : isValidTag n <;> simp [addAll, h, ih]

/-- Exactly the names before the first invalid one are added. -/
theorem mem_addAll {tags : TagSet} {names : List String} {t : String} :
    t ∈ (addAll tags names).1 ↔ t ∈ tags ∨ t ∈ names.takeWhile isValidTag := by
  induction names generalizing tags with
  | nil => simp [addAll]
  | cons n ns ih =>
    cases h : isValidTag n
    · simp [addAll, h]
    · have hc : compare n t = .eq ↔ t = n := by rw [Std.compare_eq_iff_eq, eq_comm]
      simp only [addAll, h, if_true, ih, Std.ExtTreeSet.mem_insert, hc, List.takeWhile_cons,
        List.mem_cons]
      constructor
      · rintro ((rfl | h) | h)
        · exact Or.inr (Or.inl rfl)
        · exact Or.inl h
        · exact Or.inr (Or.inr h)
      · rintro (h | rfl | h)
        · exact Or.inl (Or.inr h)
        · exact Or.inl (Or.inl rfl)
        · exact Or.inr h

theorem pairwise_toList (tags : TagSet) : tags.toList.Pairwise (· < ·) := by
  refine (Std.ExtTreeSet.ordered_toList (t := tags)).imp fun h => ?_
  exact compareOfLessAndEq_eq_lt.1 h

end TagSet

end ScopeTree
