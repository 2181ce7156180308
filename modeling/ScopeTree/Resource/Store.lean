import ScopeTree.Resource.Basic
import ScopeTree.ScopeId

/-!
# The resource store

Every declared resource in order of declaration, with the scope that declared it; the place
of the first declaration of each reference; and the overrides of each reference in order.

    (s.declare scope r).toList = s.toList ++ [r]                 (toList_declare)
-/

namespace ScopeTree

/-- The resources of a catalog. -/
structure ResourceStore where
  declared : Array (ScopeId × Resource) := #[]
  firstAt : Std.ExtTreeMap ResourceRef Nat := ∅
  overridden : Std.ExtTreeMap ResourceRef (Array Resource) := ∅

namespace ResourceStore

def empty : ResourceStore := {}

def declare (s : ResourceStore) (scope : ScopeId) (r : Resource) : ResourceStore :=
  { s with
    declared := s.declared.push (scope, r)
    firstAt := s.firstAt.insertIfNew r.reference s.declared.size }

/-- Add an override; its resource may be declared later or never. -/
def override (s : ResourceStore) (r : Resource) : ResourceStore :=
  { s with
    overridden := s.overridden.insert r.reference
      ((s.overridden[r.reference]?.getD #[]).push r) }

/-- The first declaration of a reference. -/
def find? (s : ResourceStore) (reference : ResourceRef) : Option Resource := do
  let place ← s.firstAt[reference]?
  let (_, r) ← s.declared[place]?
  return r

def toList (s : ResourceStore) : List Resource := s.declared.toList.map (·.2)

def inScope (s : ResourceStore) (scope : ScopeId) : List Resource :=
  (s.declared.toList.filter (·.1 = scope)).map (·.2)

def overrides (s : ResourceStore) (reference : ResourceRef) : List Resource :=
  (s.overridden[reference]?.getD #[]).toList

/-! ## Lemmas -/

@[simp] theorem toList_declare (s : ResourceStore) (scope : ScopeId) (r : Resource) :
    (s.declare scope r).toList = s.toList ++ [r] := by
  simp [toList, declare]

theorem inScope_declare (s : ResourceStore) (scope other : ScopeId) (r : Resource) :
    (s.declare scope r).inScope other =
      s.inScope other ++ if scope = other then [r] else [] := by
  by_cases h : scope = other <;> simp [inScope, declare, h]

theorem overrides_override (s : ResourceStore) (r : Resource) (reference : ResourceRef) :
    (s.override r).overrides reference =
      s.overrides reference ++ if r.reference = reference then [r] else [] := by
  by_cases h : r.reference = reference
  · subst h; simp [overrides, override]
  · have hc : compare r.reference reference ≠ .eq := fun hc => h (Std.compare_eq_iff_eq.1 hc)
    simp [overrides, override, Std.ExtTreeMap.getElem?_insert, hc, h]

end ResourceStore

end ScopeTree
