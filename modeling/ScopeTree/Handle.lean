import ScopeTree.Scope

/-!
# Handles

A scope asks who its parent is when it first needs to know, and keeps the answer for ever,
"no parent" included.  A handle is a scope together with what it has kept so far; a copy of
a handle keeps the same answer.
-/

namespace ScopeTree

/-- What a scope knows of its parent: nothing yet, or the answer it was given. -/
inductive ParentLink
  | unasked
  | settled (parent : Option ScopeId)
deriving DecidableEq, Repr

/-- The answer that counts when `answer` is what would be given now. -/
def ParentLink.resolve (link : ParentLink) (answer : Option ScopeId) : Option ScopeId :=
  match link with
  | unasked => answer
  | settled parent => parent

/-- Keep an answer, unless there is one. -/
def ParentLink.settle (link : ParentLink) (answer : Option ScopeId) : ParentLink :=
  .settled (link.resolve answer)

/-- A scope and what it knows of its parent. -/
structure Handle where
  scope : Scope
  link : ParentLink := .unasked

/-! ## Lemmas -/

/-- An answer that was kept counts whatever would be given later. -/
@[simp] theorem ParentLink.resolve_settle (link : ParentLink) (answer later : Option ScopeId) :
    (link.settle answer).resolve later = link.resolve answer := rfl

end ScopeTree
