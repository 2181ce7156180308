import ScopeTree.Edit
import ScopeTree.Handle
import ScopeTree.Resource.Store

/-!
# Catalogs

A catalog owns the scopes of one configuration and knows the parent of each.  Beside them it
keeps the scope in which each class was evaluated, the resources and the declared types.  A
new catalog has one scope, the top scope of the empty type.

    newScope succeeds ↔ the parent, if any, exists and the scope is not also to be a top
      scope                                                      (newScope_eq_ok_iff)
-/

namespace ScopeTree

/-- A scope in its place: the handle and the parent that the catalog gives it. -/
structure Node where
  handle : Handle
  parent : Option ScopeId

/-- The scopes of a configuration and what belongs to them. -/
structure Catalog where
  nodes : Array Node
  classScopes : Std.ExtTreeMap String ScopeId := ∅
  resources : ResourceStore := .empty
  types : TypeTable := .empty

namespace Catalog

/-- The id of the scope with which every catalog begins. -/
def top : ScopeId := ⟨0⟩

def topOptions : ScopeOptions := { typeName := some "", top := true }

/-- A catalog over declared types, with its top scope. -/
def new (types : TypeTable) : Catalog where
  nodes := #[⟨⟨Scope.make top topOptions none, .unasked⟩, none⟩]
  types

/-! ## Reading -/

def count (c : Catalog) : Nat := c.nodes.size

/-- The scope of this id, with what it knows of its parent. -/
def handle? (c : Catalog) (id : ScopeId) : Option Handle := c.nodes[id.index]?.map (·.handle)

def scope? (c : Catalog) (id : ScopeId) : Option Scope := (c.handle? id).map (·.scope)

/-- The parent that the catalog gives to an id. -/
def parentOf (c : Catalog) (id : ScopeId) : Option ScopeId :=
  c.nodes[id.index]?.bind (·.parent)

/-- The scope in which the class of this name was evaluated. -/
def classScope? (c : Catalog) (className : String) : Option ScopeId :=
  c.classScopes[nameKey className]?

/-! ## Changing -/

def modifyScope (c : Catalog) (id : ScopeId) (f : Scope → Scope) : Catalog :=
  { c with
    nodes := c.nodes.modify id.index fun n =>
      { n with handle := { n.handle with scope := f n.handle.scope } } }

/-- Edit one scope; there is no answer if it does not exist. -/
def edit (c : Catalog) (id : ScopeId) (e : Edit) : Catalog × Option e.Answer :=
  match c.scope? id with
  | some s => (c.modifyScope id fun s => (e.run s).1, some (e.run s).2)
  | none => (c, none)

/-- Record the scope in which a class is evaluated, whether it exists or not. -/
def setClassScope (c : Catalog) (className : String) (scope : ScopeId) : Catalog :=
  { c with classScopes := c.classScopes.insert (nameKey className) scope }

def addClass (c : Catalog) (d : ClassDecl) : Catalog := { c with types := c.types.addClass d }

def addDefine (c : Catalog) (d : DefineDecl) : Catalog := { c with types := c.types.addDefine d }

/-- The level of the parent to be, which has to exist. -/
def parentLevel (c : Catalog) : Option ScopeId → Except ScopeError (Option UInt32)
  | none => .ok none
  | some id =>
    match c.scope? id with
    | some s => .ok (some s.level)
    | none => .error (.construction (.missingParent id))

def push (c : Catalog) (s : Scope) (parent : Option ScopeId) : Catalog :=
  { c with nodes := c.nodes.push ⟨⟨s, .unasked⟩, parent⟩ }

/-- Make a scope.  A parent given directly counts before one among the options; a top scope
has none. -/
def newScope (c : Catalog) (parent : Option ScopeId) (o : ScopeOptions) :
    Except ScopeError (Catalog × ScopeId) :=
  let parent := parent.or o.parent
  if o.top && parent.isSome then .error (.construction .topWithParent)
  else
    match c.parentLevel parent with
    | .error e => .error e
    | .ok level =>
      if c.count < ScopeId.limit then
        .ok (c.push (Scope.make ⟨c.count⟩ o level) parent, ⟨c.count⟩)
      else .error (.internal .tooManyScopes)

/-- Make a scope under one that exists. -/
def childScope (c : Catalog) (parent : ScopeId) (o : ScopeOptions) :
    Except ScopeError (Catalog × ScopeId) :=
  match c.scope? parent with
  | none => .error (.internal (.missingScope parent))
  | some _ => c.newScope (some parent) o

/-! ## Lemmas -/

@[simp] theorem count_new (types : TypeTable) : (new types).count = 1 := rfl

@[simp] theorem count_push (c : Catalog) (s : Scope) (parent : Option ScopeId) :
    (c.push s parent).count = c.count + 1 := by
  simp [count, push]

@[simp] theorem count_modifyScope (c : Catalog) (id : ScopeId) (f : Scope → Scope) :
    (c.modifyScope id f).count = c.count := by
  simp [count, modifyScope]

theorem handle?_push (c : Catalog) (s : Scope) (parent : Option ScopeId) (i : ScopeId) :
    (c.push s parent).handle? i = if i.index = c.count then some ⟨s, .unasked⟩ else c.handle? i := by
  unfold handle? push count
  rw [Array.getElem?_push]
  by_cases h : i.index = c.nodes.size <;> simp [h]

/-- The new scope has the parent it is given, and no other scope gets one. -/
theorem parentOf_push (c : Catalog) (s : Scope) (parent : Option ScopeId) (i : ScopeId) :
    (c.push s parent).parentOf i = if i.index = c.count then parent else c.parentOf i := by
  unfold parentOf push count
  rw [Array.getElem?_push]
  by_cases h : i.index = c.nodes.size <;> simp [h]

theorem handle?_isSome_iff (c : Catalog) (id : ScopeId) :
    (c.handle? id).isSome ↔ id.index < c.count := by
  simp [handle?, count]

theorem scope?_isSome_iff (c : Catalog) (id : ScopeId) :
    (c.scope? id).isSome ↔ id.index < c.count := by
  simp [scope?, handle?, count]

theorem exists_handle?_of_index_lt {c : Catalog} {i : ScopeId} (hi : i.index < c.count) :
    ∃ h, c.handle? i = some h :=
  Option.isSome_iff_exists.1 ((handle?_isSome_iff c i).2 hi)

theorem index_lt_of_handle? {c : Catalog} {i : ScopeId} {h : Handle} (hi : c.handle? i = some h) :
    i.index < c.count := by
  rw [← handle?_isSome_iff, hi]
  rfl

theorem index_lt_of_scope? {c : Catalog} {i : ScopeId} {s : Scope} (hi : c.scope? i = some s) :
    i.index < c.count := by
  rw [← scope?_isSome_iff, hi]
  rfl

theorem scope?_of_handle? {c : Catalog} {i : ScopeId} {h : Handle} (hi : c.handle? i = some h) :
    c.scope? i = some h.scope := by
  rw [scope?, hi]
  rfl

theorem handle?_modifyScope (c : Catalog) (id : ScopeId) (f : Scope → Scope) (i : ScopeId) :
    (c.modifyScope id f).handle? i =
      if i = id then (c.handle? i).map fun h => { h with scope := f h.scope } else c.handle? i := by
  obtain ⟨i⟩ := i
  obtain ⟨n⟩ := id
  simp only [handle?, modifyScope, Array.getElem?_modify, ScopeId.mk.injEq]
  by_cases h : n = i
  · subst h; cases c.nodes[n]? <;> simp
  · simp [h, Ne.symm h]

theorem scope?_modifyScope (c : Catalog) (id : ScopeId) (f : Scope → Scope) (i : ScopeId) :
    (c.modifyScope id f).scope? i = if i = id then (c.scope? i).map f else c.scope? i := by
  obtain ⟨i⟩ := i
  obtain ⟨n⟩ := id
  simp only [scope?, handle?, modifyScope, Array.getElem?_modify, ScopeId.mk.injEq]
  by_cases h : n = i
  · subst h; cases c.nodes[n]? <;> simp
  · simp [h, Ne.symm h]

/-- A change to a scope moves nothing in the tree. -/
@[simp] theorem parentOf_modifyScope (c : Catalog) (id : ScopeId) (f : Scope → Scope)
    (i : ScopeId) : (c.modifyScope id f).parentOf i = c.parentOf i := by
  obtain ⟨i⟩ := i
  obtain ⟨n⟩ := id
  simp only [parentOf, modifyScope, Array.getElem?_modify]
  by_cases h : n = i
  · subst h; cases c.nodes[n]? <;> simp
  · simp [h]

theorem parentLevel_eq_ok_iff (c : Catalog) (parent : Option ScopeId) :
    (∃ level, c.parentLevel parent = .ok level) ↔ ∀ p ∈ parent, (c.scope? p).isSome := by
  cases parent with
  | none => simp [parentLevel]
  | some id => cases h : c.scope? id <;> simp [parentLevel, h]

/-- When a scope can be made, as long as there are ids. -/
theorem newScope_eq_ok_iff (c : Catalog) (parent : Option ScopeId) (o : ScopeOptions)
    (hc : c.count < ScopeId.limit) :
    (∃ r, c.newScope parent o = .ok r) ↔
      (∀ p ∈ parent.or o.parent, (c.scope? p).isSome) ∧
        ¬ (o.top = true ∧ (parent.or o.parent).isSome) := by
  rw [← parentLevel_eq_ok_iff]
  unfold newScope
  generalize parent.or o.parent = p
  cases ht : o.top && p.isSome with
  | true =>
    rw [Bool.and_eq_true] at ht
    simp [ht.1, ht.2]
  | false =>
    have hn : ¬ (o.top = true ∧ p.isSome = true) := fun h => by simp [h.1, h.2] at ht
    cases hp : c.parentLevel p <;> simp [ht, hp, hc, hn]

end Catalog

end ScopeTree
