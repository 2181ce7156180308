/-!
# Word characters

Tags and the segments of variable names are made of ASCII letters, digits and underscores.
-/

namespace ScopeTree.Text

/-- An ASCII letter or digit, or an underscore. -/
def isWordChar (c : Char) : Bool := c.isAlphanum || c == '_'

/-- Word characters are ASCII. -/
theorem isWordChar_ascii {c : Char} (h : isWordChar c = true) : c.toNat < 128 := by
  rcases Bool.or_eq_true_iff.1 h with h | h
  · rcases Bool.or_eq_true_iff.1 h with h | h
    · rcases Bool.or_eq_true_iff.1 h with h | h
      · exact Nat.lt_of_le_of_lt (of_decide_eq_true h).2 (by decide)
      · exact Nat.lt_of_le_of_lt (of_decide_eq_true (Bool.and_eq_true_iff.1 h).2) (by decide)
    · exact Nat.lt_of_le_of_lt (of_decide_eq_true (Bool.and_eq_true_iff.1 h).2) (by decide)
  · rw [beq_iff_eq.1 h]
    decide

end ScopeTree.Text
