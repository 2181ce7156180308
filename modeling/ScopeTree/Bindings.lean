import ScopeTree.Error
import ScopeTree.Value
import Std.Data.ExtTreeMap

/-!
# Bindings of one scope

The variables of a scope.  A name is bound once; a second binding is refused and changes
nothing.

    bind b n v l = ok b' ↔ n is free in b, and b' has it with v and l   (bind_eq_ok_iff)
-/

namespace ScopeTree

/-- A value and where it was bound. -/
structure Binding where
  value : Value
  location : SourceLocation
deriving DecidableEq, Repr

/-- The variables of one scope, by name. -/
structure Bindings where
  byName : Std.ExtTreeMap String Binding := ∅

namespace Bindings

def empty : Bindings := {}

def get? (b : Bindings) (name : String) : Option Binding := b.byName[name]?

def value? (b : Bindings) (name : String) : Option Value := (b.get? name).map (·.value)

def location? (b : Bindings) (name : String) : Option SourceLocation :=
  (b.get? name).map (·.location)

def contains (b : Bindings) (name : String) : Bool := b.byName.contains name

/-- Bind a free name. -/
def bind (b : Bindings) (name : String) (value : Value) (location : SourceLocation) :
    Except ScopeError Bindings :=
  match b.get? name with
  | some first => .error (.duplicateBinding name location first.location)
  | none => .ok ⟨b.byName.insert name ⟨value, location⟩⟩

def erase (b : Bindings) (name : String) : Bindings := ⟨b.byName.erase name⟩

def size (b : Bindings) : Nat := b.byName.size

def isEmpty (b : Bindings) : Bool := b.byName.isEmpty

/-- Names and values, in name order. -/
def toList (b : Bindings) : List (String × Value) :=
  b.byName.toList.map fun (name, binding) => (name, binding.value)

/-! ## Lemmas -/

@[simp] theorem get?_empty (name : String) : empty.get? name = none := by
  simp [empty, get?]

theorem bind_eq_ok_iff {b b' : Bindings} {name : String} {value : Value}
    {location : SourceLocation} :
    b.bind name value location = .ok b' ↔
      b.get? name = none ∧ b' = ⟨b.byName.insert name ⟨value, location⟩⟩ := by
  unfold bind
  cases b.get? name <;> simp [eq_comm (a := b')]

/-- A new binding is seen under its name and leaves the others alone. -/
theorem get?_bind {b b' : Bindings} {name : String} {value : Value} {location : SourceLocation}
    (h : b.bind name value location = .ok b') (n : String) :
    b'.get? n = if n = name then some ⟨value, location⟩ else b.get? n := by
  obtain ⟨-, rfl⟩ := bind_eq_ok_iff.1 h
  simp only [get?, Std.ExtTreeMap.getElem?_insert, Std.compare_eq_iff_eq, eq_comm (a := name)]

theorem get?_erase (b : Bindings) (name n : String) :
    (b.erase name).get? n = if n = name then none else b.get? n := by
  simp only [get?, erase, Std.ExtTreeMap.getElem?_erase, Std.compare_eq_iff_eq,
    eq_comm (a := name)]

theorem contains_eq (b : Bindings) (name : String) : b.contains name = (b.get? name).isSome := by
  simp [contains, get?]

@[ext] theorem ext {b c : Bindings} (h : ∀ n, b.get? n = c.get? n) : b = c := by
  cases b; cases c
  exact congrArg mk (Std.ExtTreeMap.ext_getElem? h)

end Bindings

end ScopeTree
