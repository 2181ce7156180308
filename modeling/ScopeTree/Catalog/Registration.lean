import ScopeTree.Catalog.Basic

/-!
# Registration

What the evaluation of a scope hands to its catalog: that the scope is the evaluation of a
class, the resources that it declares, and overrides.  Exported scopes export their
resources; other virtual scopes make them virtual.  A resource can also be put into the store
directly, and then gets no marks.
-/

namespace ScopeTree

/-- The kind of a scope once a class is registered for it.  A node body stays one. -/
def ScopeKind.registered (kind : ScopeKind) (d : ClassDecl) : ScopeKind :=
  if d.isNode then .ofNode
  else
    match kind with
    | .ordinary => .ofClass
    | kind => kind

/-- A resource with the marks that the scope that declares it puts on it. -/
def Scope.stamp (s : Scope) (r : Resource) : Resource :=
  if s.exported then { r with exported := true }
  else if s.isVirtual then { r with virtual := true }
  else r

namespace Catalog

/-- Register a scope as the evaluation of a class. -/
def registerClass (c : Catalog) (scope : ScopeId) (d : ClassDecl) : Except ScopeError Catalog :=
  if d.name = "" then .error (.internal .namelessClass)
  else
    match c.scope? scope with
    | none => .error (.internal (.missingScope scope))
    | some _ =>
      .ok ((c.modifyScope scope fun s => { s with kind := s.kind.registered d }).setClassScope
        d.name scope)

/-- Put a resource into the store as it is.  The scope that counts as its own need not be there. -/
def storeResource (c : Catalog) (scope : ScopeId) (r : Resource) : Catalog × ResourceRef :=
  ({ c with resources := c.resources.declare scope r }, r.reference)

/-- Register a resource that a scope declares.  The answer is the resource as it is kept. -/
def registerResource (c : Catalog) (scope : ScopeId) (r : Resource) :
    Except ScopeError (Catalog × Resource) :=
  match c.scope? scope with
  | none => .error (.internal (.missingScope scope))
  | some s => .ok ((c.storeResource scope (s.stamp r)).1, s.stamp r)

/-- Register an override of a resource that may be declared later. -/
def registerOverride (c : Catalog) (r : Resource) : Catalog :=
  { c with resources := c.resources.override r }

/-! ## Lemmas -/

/-- The marks on a resource never change what it is. -/
@[simp] theorem stamp_reference (s : Scope) (r : Resource) :
    (s.stamp r).reference = r.reference := by
  unfold Scope.stamp
  split
  · rfl
  · split <;> rfl

theorem stamp_exported (s : Scope) (r : Resource) :
    (s.stamp r).exported = (r.exported || s.exported) := by
  unfold Scope.stamp
  cases he : s.exported
  · simp; split <;> rfl
  · simp

theorem stamp_virtual (s : Scope) (r : Resource) :
    (s.stamp r).virtual = (r.virtual || (s.virtual && !s.exported)) := by
  unfold Scope.stamp Scope.isVirtual
  cases he : s.exported <;> cases hv : s.virtual <;> simp

end Catalog

end ScopeTree
