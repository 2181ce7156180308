import ScopeTree.Bindings
import ScopeTree.Declaration
import ScopeTree.Defaults
import ScopeTree.Options
import ScopeTree.Tag

/-!
# Scopes

A scope holds what one unit of configuration declares: its variables, defaults and tags, the
namespaces in which it looks for types, and who made it.  Where it stands in the tree is the
catalog's knowledge, apart from its level, which is settled when it is made.
-/

namespace ScopeTree

/-- What a scope is the evaluation of. -/
inductive ScopeKind
  | ordinary
  | ofClass
  | ofNode
deriving DecidableEq, Repr

/-- The state of one scope. -/
structure Scope where
  id : ScopeId
  level : UInt32
  namespaces : List String := [""]
  bindings : Bindings := .empty
  defaults : DefaultTable := .empty
  tags : TagSet := ∅
  kind : ScopeKind := .ordinary
  typeName : Option String := none
  name : Option String := none
  source : Option String := none
  keyword : Option String := none
  exported : Bool := false
  virtual : Bool := false
  translated : Bool := false

/-- The form in which a scope is handed on: its type and, if it has one, its name. -/
structure TransportNode where
  typeName : String
  name : Option String
deriving DecidableEq, Repr

namespace Scope

/-! ## Making a scope -/

/-- The deepest level.  Scopes below it stay on it. -/
def maxLevel : UInt32 := 4294967295

/-- The level under a level. -/
def levelBelow (level : UInt32) : UInt32 := if level = maxLevel then maxLevel else level + 1

/-- The level of a new scope: the explicit one if there is one, 1 for a top scope or one
without a parent, and otherwise the level below the parent. -/
def levelFor (o : ScopeOptions) (parentLevel : Option UInt32) : UInt32 :=
  match o.level with
  | some level => level
  | none =>
    if o.top then 1
    else
      match parentLevel with
      | none => 1
      | some level => levelBelow level

/-- Add a namespace to a search path.  The first one takes the place of the global path; one
that is there already changes nothing. -/
def extendPath (path : List String) (ns : String) : List String :=
  if ns ∈ path then path else if path = [""] then [ns] else path ++ [ns]

def make (id : ScopeId) (o : ScopeOptions) (parentLevel : Option UInt32) : Scope where
  id
  level := levelFor o parentLevel
  namespaces := o.initialNamespace.elim [""] (extendPath [""])
  typeName := o.typeName
  name := o.name
  source := o.source
  keyword := o.keyword
  exported := o.exported
  virtual := o.virtual
  translated := o.translated

/-! ## Reading -/

/-- The scope is on the level of roots. -/
def isTop (s : Scope) : Bool := s.level = 1

def isNode (s : Scope) : Bool := s.kind = .ofNode

/-- Resources of the scope are virtual; those of an exported scope are in any case. -/
def isVirtual (s : Scope) : Bool := s.virtual || s.exported

/-- The three marks as a number: 1 for exported, 2 for virtual, 4 for translated. -/
def flags (s : Scope) : Nat :=
  s.exported.toNat + 2 * s.virtual.toNat + 4 * s.translated.toNat

/-- The type as it is shown; the empty type is that of the main scope. -/
def shownType (s : Scope) : Option String :=
  s.typeName.map fun t => if t = "" then "main" else t

/-- The scope as it is shown: its type and name, or its id if it has no type. -/
def text (s : Scope) : String :=
  match s.shownType, s.name with
  | some t, some n => "Scope(" ++ t ++ "[" ++ n ++ "])"
  | some t, none => "Scope(" ++ t ++ ")"
  | none, _ => "Scope(" ++ s.id.text ++ ")"

/-- The scope as it is handed on; one without a type cannot be. -/
def transport (s : Scope) : Except ScopeError TransportNode :=
  match s.shownType with
  | some t => .ok ⟨t, s.name⟩
  | none => .error (.internal (.untypedScope s.id))

/-- The tags that the scope adds to those of its parent: its own, and its type. -/
def ownTags (s : Scope) : List String :=
  s.tags.toList ++ s.typeName.toList.filter (· != "")

/-- The class that a name stands for: the answer for the first namespace that has one. -/
def findClass? (s : Scope) (types : TypeTable) (name : String) : Option ClassDecl :=
  s.namespaces.findSome? (types.findClass? · name)

def findDefine? (s : Scope) (types : TypeTable) (name : String) : Option DefineDecl :=
  s.namespaces.findSome? (types.findDefine? · name)

/-- The type that a name stands for; a defined type comes before a class. -/
def lookupType? (s : Scope) (types : TypeTable) (name : String) : Option TypeDecl :=
  ((s.findDefine? types name).map .define).or ((s.findClass? types name).map .ofClass)

/-! ## Lemmas -/

theorem levelBelow_toNat (level : UInt32) :
    (levelBelow level).toNat = min (level.toNat + 1) 4294967295 := by
  unfold levelBelow maxLevel
  split
  · next h => subst h; rfl
  · next h =>
    have hne : level.toNat ≠ 4294967295 := fun he => h (UInt32.toNat_inj.1 he)
    have hlt := level.toNat_lt
    rw [UInt32.toNat_add]
    simp only [UInt32.reduceToNat]
    omega

theorem extendPath_ne_nil {path : List String} (h : path ≠ []) (ns : String) :
    extendPath path ns ≠ [] := by
  unfold extendPath
  split
  · exact h
  · split <;> simp

theorem nodup_extendPath {path : List String} (h : path.Nodup) (ns : String) :
    (extendPath path ns).Nodup := by
  unfold extendPath
  split
  · exact h
  · next hns =>
    split
    · simp
    · refine List.nodup_append.2 ⟨h, by simp, fun a ha b hb => ?_⟩
      rw [List.mem_singleton.1 hb]
      rintro rfl
      exact hns ha

end Scope

end ScopeTree
