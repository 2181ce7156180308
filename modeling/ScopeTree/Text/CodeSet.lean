/-!
# Sets of code points

A set of code points is the increasing list of the points where membership flips: the
first bound opens a range, the second closes it, the third opens the next one.

    mem b₀ :: bs n ↔ b₀ ≤ n and n is not in the set of bs      (CodeSet.has_cons)
-/

namespace ScopeTree.Text

/-- A set of code points, by the increasing list of its bounds. -/
structure CodeSet where
  bounds : List Nat

namespace CodeSet

/-- Counts the flips up to `n`: below the first bound nothing is in, and past it the rest
of the bounds describe the complement. -/
def flips : List Nat → Nat → Bool
  | [], _ => false
  | b :: bs, n => decide (b ≤ n) && !flips bs n

def has (s : CodeSet) (c : Char) : Bool := flips s.bounds c.toNat

def isIncreasing : List Nat → Bool
  | a :: b :: rest => a < b && isIncreasing (b :: rest)
  | _ => true

/-! ## Lemmas -/

theorem has_nil (c : Char) : has ⟨[]⟩ c = false := rfl

/-- A bound opens a range, and the bounds after it are those of what is left out. -/
theorem has_cons (b : Nat) (bs : List Nat) (c : Char) :
    has ⟨b :: bs⟩ c = true ↔ b ≤ c.toNat ∧ has ⟨bs⟩ c = false := by
  simp [has, flips]

end CodeSet

end ScopeTree.Text
