import ScopeTree.Catalog.Basic

/-!
# Climbing to the root

Everything that a scope inherits is found by climbing from it to its parent, from there to
the next parent, and so on.  A climb looks for something in each scope it comes to.  It ends
where that is found, at a scope without a parent, or at one whose parent is not in the
catalog.

In a catalog built by its own operations a parent is always an older scope, so a climb from
a scope of the catalog leaves no more than its id + 1 scopes.  A climb is cut off when it has
left one scope more than the catalog has, which only a handle from elsewhere could need.
-/

namespace ScopeTree

/-- How a climb ends. -/
inductive Climb.Stop (α : Type)
  | found (scope : Handle) (result : α)
  | root
  | lost (child : Handle) (parent : ScopeId)
  | endless (child : Handle)

/-- A climb: the scopes it has left for their parents, nearest first, and how it ended. -/
structure Climb (α : Type) where
  passed : List Handle
  stop : Climb.Stop α

namespace Catalog

/-- The parent of a scope, by what it has kept or else by the catalog. -/
def parentId (c : Catalog) (h : Handle) : Option ScopeId :=
  h.link.resolve (c.parentOf h.scope.id)

/-- Climb through at most `fuel` parents. -/
def climbWithin {α : Type} (c : Catalog) (find : Scope → Option α) : Nat → Handle → Climb α
  | fuel, h =>
    match find h.scope with
    | some a => ⟨[], .found h a⟩
    | none =>
      match c.parentId h with
      | none => ⟨[h], .root⟩
      | some p =>
        match c.handle? p with
        | none => ⟨[h], .lost h p⟩
        | some up =>
          match fuel with
          | 0 => ⟨[h], .endless h⟩
          | fuel + 1 =>
            let above := climbWithin c find fuel up
            ⟨h :: above.passed, above.stop⟩

/-- Climb from a scope until something is found. -/
def climb {α : Type} (c : Catalog) (find : Scope → Option α) (h : Handle) : Climb α :=
  c.climbWithin find c.count h

/-- A climb that looks for nothing and ends at the root only. -/
def climbAll (c : Catalog) (h : Handle) : Climb Empty := c.climb (fun _ => none) h

/-- The fault of a scope whose parent is not in the catalog. -/
def lostParent (child : Handle) (parent : ScopeId) : ScopeError :=
  .internal (.missingParent parent child.scope.text)

/-- The scopes from this one up to its root. -/
def chain (c : Catalog) (h : Handle) : Except ScopeError (List Handle) :=
  let above := c.climbAll h
  match above.stop with
  | .root => .ok above.passed
  | .lost child parent => .error (lostParent child parent)
  | .endless child => .error (.internal (.endlessChain child.scope.text))

/-- The parent, which has to be in the catalog. -/
def parentScope (c : Catalog) (h : Handle) : Except ScopeError (Option Handle) :=
  match c.parentId h with
  | none => .ok none
  | some p =>
    match c.handle? p with
    | some up => .ok (some up)
    | none => .error (lostParent h p)

def topScope (c : Catalog) (h : Handle) : Except ScopeError Handle :=
  (c.chain h).map (·.getLastD h)

/-! ## Lemmas -/

/-- A climb that does not find anything at once leaves the scope it starts from first. -/
theorem climbWithin_passed_head {α : Type} (c : Catalog) (find : Scope → Option α) (fuel : Nat)
    (h : Handle) (hf : find h.scope = none) :
    (c.climbWithin find fuel h).passed.head? = some h := by
  cases fuel <;> rw [climbWithin, hf] <;> dsimp only <;> split <;> try rfl
  all_goals split <;> rfl

theorem find_eq_none_of_mem_passed {α : Type} (c : Catalog) (find : Scope → Option α)
    (fuel : Nat) (h : Handle) :
    ∀ g ∈ (c.climbWithin find fuel h).passed, find g.scope = none := by
  induction fuel generalizing h with
  | zero =>
    rw [climbWithin]
    split
    · simp
    · next hf =>
      split
      · simp [hf]
      · split <;> simp [hf]
  | succ fuel ih =>
    rw [climbWithin]
    split
    · simp
    · next hf =>
      split
      · simp [hf]
      · split
        · simp [hf]
        · next up _ =>
          intro g hg
          rcases List.mem_cons.1 hg with rfl | hg
          · exact hf
          · exact ih up g hg

end Catalog

end ScopeTree
