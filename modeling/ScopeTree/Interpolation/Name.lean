import ScopeTree.Text.Separator
import ScopeTree.Text.Word

/-!
# Names in strings

The name of a variable in a string is one or more words joined by separators, with or without
a separator in front.  A separator that no word follows is not a part of the name.

    takeName cs = (name, rest) → name ++ rest = cs               (takeName_append)
-/

namespace ScopeTree.Interpolation

open Text (isWordChar separator dropSeparator? dropSeparator?_eq_some_iff)

/-! ## Algorithm -/

/-- Cut off as many words as there are, each behind its separator. -/
def takeSegments (cs : List Char) : List Char × List Char :=
  match _h : dropSeparator? cs with
  | none => ([], cs)
  | some after =>
    if after.takeWhile isWordChar = [] then ([], cs)
    else
      let more := takeSegments (after.dropWhile isWordChar)
      (separator ++ after.takeWhile isWordChar ++ more.1, more.2)
termination_by cs.length
decreasing_by
  have hcs := congrArg List.length (dropSeparator?_eq_some_iff.1 _h)
  have hle := (List.dropWhile_suffix (l := after) isWordChar).length_le
  simp only [separator, List.length_append, List.length_cons, List.length_nil] at hcs
  omega

/-- Cut a name off the front of a text: the name, empty if there is none, and the rest. -/
def takeName (cs : List Char) : List Char × List Char :=
  let more := takeSegments (cs.dropWhile isWordChar)
  (cs.takeWhile isWordChar ++ more.1, more.2)

/-- The length of the name at the front of a text, 0 if there is none. -/
def nameLength (cs : List Char) : Nat := (takeName cs).1.length

/-! ## Grammar -/

/-- One or more word characters. -/
def IsSegment (cs : List Char) : Prop := cs ≠ [] ∧ ∀ c ∈ cs, isWordChar c = true

/-- One or more segments joined by separators, with or without a separator in front. -/
def IsName (cs : List Char) : Prop :=
  ∃ segments : List (List Char), segments ≠ [] ∧ (∀ s ∈ segments, IsSegment s) ∧
    (cs = separator.intercalate segments ∨ cs = separator ++ separator.intercalate segments)

/-- What follows a name would be read as a part of it. -/
def extendsName : List Char → Bool
  | ':' :: ':' :: c :: _ => isWordChar c
  | c :: _ => isWordChar c
  | [] => false

/-! ## Lemmas -/

theorem takeSegments_append (cs : List Char) : (takeSegments cs).1 ++ (takeSegments cs).2 = cs := by
  fun_induction takeSegments cs with
  | case1 cs h => rfl
  | case2 cs after h hw => rfl
  | case3 cs after h hw more ih =>
    rw [dropSeparator?_eq_some_iff.1 h]
    simp only [List.append_assoc]
    rw [ih, List.takeWhile_append_dropWhile]

theorem takeName_append (cs : List Char) : (takeName cs).1 ++ (takeName cs).2 = cs := by
  simp [takeName, takeSegments_append]

theorem length_takeName_snd_le (cs : List Char) : (takeName cs).2.length ≤ cs.length := by
  have := congrArg List.length (takeName_append cs)
  rw [List.length_append] at this
  omega

theorem nameLength_le (cs : List Char) : nameLength cs ≤ cs.length := by
  have := congrArg List.length (takeName_append cs)
  rw [List.length_append] at this
  unfold nameLength
  omega

end ScopeTree.Interpolation
