import ScopeTree.Catalog.Inherited
import ScopeTree.Catalog.Variable
import ScopeTree.Interpolation.Evaluation

/-!
# Queries

The questions that a scope answers with the help of its catalog, as data.  Answering changes
no scope, but every scope that had to know its parent on the way keeps what it was told:

- a question about the parent is asked by the scope itself, and so it is when the scope is
  asked for its own variables only;
- questions about the root, the tags, the defaults and all variables are asked by the whole
  chain;
- a lookup is asked by the scopes that are left on the way to the binding, which for a
  variable of a class are scopes above the one of that class.
-/

namespace ScopeTree

/-- A question to one scope. -/
inductive Query
  | parentId
  | parentScope
  | topScope
  | lookup (name : String) (mode : LookupMode)
  | lookupString (name : String)
  | interpolate (text : String) (location : SourceLocation)
  | visibleVariables (recursive : Bool)
  | collectDefaults (typeName : String)
  | effectiveTags

/-- The scopes that ask for their parents: perhaps the one the question was put to, and
scopes of the catalog. -/
structure Asking where
  self : Bool := false
  others : List ScopeId := []

namespace Asking

def nobody : Asking := {}

/-- The scopes that a climb leaves, when it starts from the scope itself. -/
def fromSelf : List Handle → Asking
  | [] => nobody
  | _ :: above => ⟨true, above.map (·.scope.id)⟩

/-- The scopes that a climb leaves, when it starts from a scope of the catalog. -/
def fromOther (passed : List Handle) : Asking := ⟨false, passed.map (·.scope.id)⟩

def join (all : List Asking) : Asking := ⟨all.any (·.self), all.flatMap (·.others)⟩

end Asking

namespace Query

@[reducible] def Answer : Query → Type
  | parentId => Option ScopeId
  | parentScope => Except ScopeError (Option Scope)
  | topScope => Except ScopeError Scope
  | lookup .. => Except ScopeError Lookup
  | lookupString _ => Except ScopeError String
  | interpolate .. => Interpolation
  | visibleVariables _ => Except ScopeError VariableMap
  | collectDefaults _ => Except ScopeError DefaultMap
  | effectiveTags => Except ScopeError (List String)

def answer (c : Catalog) (h : Handle) : (q : Query) → q.Answer
  | parentId => c.parentId h
  | parentScope => (c.parentScope h).map fun parent => parent.map (·.scope)
  | topScope => (c.topScope h).map (·.scope)
  | lookup name mode => c.lookup h mode name
  | lookupString name => c.lookupString h name
  | interpolate text location => Interpolation.evaluate (c.lookupString h) text location
  | visibleVariables recursive => c.visibleVariables h recursive
  | collectDefaults typeName => c.collectDefaults h typeName
  | effectiveTags => c.effectiveTags h

/-- The scopes that ask for their parents when a name is looked up. -/
def askingFor (c : Catalog) (h : Handle) (name : String) : Asking :=
  match Catalog.splitName? name with
  | none => .fromSelf (c.climbToBinding h name).passed
  | some (qualifier, short) =>
    if qualifier = "" then .fromSelf (c.climbAll h).passed
    else
      match c.classOrigin h.scope qualifier name with
      | .ok g => .fromOther (c.climbToBinding g short).passed
      | .error _ => .nobody

/-- The scopes that ask for their parents when a question is answered. -/
def asking (c : Catalog) (h : Handle) : Query → Asking
  | parentId | parentScope | visibleVariables false => ⟨true, []⟩
  | topScope | visibleVariables true | collectDefaults _ | effectiveTags =>
    .fromSelf (c.climbAll h).passed
  | lookup name _ | lookupString name => askingFor c h name
  | interpolate text _ =>
    let names := Interpolation.namesAsked (c.lookupString h) (Interpolation.pieces text.toList)
    .join (names.map (askingFor c h))

end Query

namespace Catalog

/-- A handle that has been told its parent. -/
def settle (c : Catalog) (h : Handle) : Handle :=
  { h with link := h.link.settle (c.parentOf h.scope.id) }

def settleAt (c : Catalog) (id : ScopeId) : Catalog :=
  { c with
    nodes := c.nodes.modify id.index fun n =>
      { n with handle := { n.handle with link := n.handle.link.settle n.parent } } }

def settleAll (c : Catalog) (ids : List ScopeId) : Catalog := ids.foldl settleAt c

/-! ## Lemmas -/

theorem handle?_settleAt (c : Catalog) (id i : ScopeId) :
    (c.settleAt id).handle? i =
      if i = id then
        (c.handle? i).map fun h => { h with link := h.link.settle (c.parentOf i) }
      else c.handle? i := by
  obtain ⟨i⟩ := i
  obtain ⟨n⟩ := id
  simp only [handle?, parentOf, settleAt, Array.getElem?_modify, ScopeId.mk.injEq]
  by_cases h : n = i
  · subst h; cases c.nodes[n]? <;> simp
  · simp [h, Ne.symm h]

@[simp] theorem parentOf_settleAt (c : Catalog) (id i : ScopeId) :
    (c.settleAt id).parentOf i = c.parentOf i := by
  obtain ⟨i⟩ := i
  obtain ⟨n⟩ := id
  simp only [parentOf, settleAt, Array.getElem?_modify]
  by_cases h : n = i
  · subst h; cases c.nodes[n]? <;> simp
  · simp [h]

@[simp] theorem parentOf_settleAll (c : Catalog) (ids : List ScopeId) (i : ScopeId) :
    (c.settleAll ids).parentOf i = c.parentOf i := by
  induction ids generalizing c with
  | nil => rfl
  | cons id ids ih => exact (ih _).trans (parentOf_settleAt c id i)

@[simp] theorem scope?_settleAll (c : Catalog) (ids : List ScopeId) (i : ScopeId) :
    (c.settleAll ids).scope? i = c.scope? i := by
  induction ids generalizing c with
  | nil => rfl
  | cons id ids ih =>
    refine (ih _).trans ?_
    unfold scope?
    rw [handle?_settleAt]
    split
    · cases c.handle? i <;> rfl
    · rfl

end Catalog

end ScopeTree
