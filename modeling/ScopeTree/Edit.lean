import ScopeTree.Scope

/-!
# Edits

The changes that a scope can make to itself, as data.  An edit gives the scope afterwards and
an answer; one that fails may have done a part of its work, which stays.
-/

namespace ScopeTree

/-- A change to one scope. -/
inductive Edit
  | bind (name : String) (value : Value) (location : SourceLocation)
  | unbind (name : String)
  | addNamespace (ns : String)
  | setDefaults (typeName : String) (specs : List DefaultSpec)
  | addTags (names : List String)
  | setExported (exported : Bool)
  | setVirtual (virtual : Bool)
  | markTranslated

namespace Edit

/-- What an edit answers: whether it succeeded, the value it removed, or whether it changed
anything. -/
@[reducible] def Answer : Edit → Type
  | bind .. => Except ScopeError Unit
  | unbind _ => Option Value
  | addNamespace _ => Bool
  | setDefaults .. => Except ScopeError Unit
  | addTags _ => Except ScopeError Unit
  | setExported _ => Unit
  | setVirtual _ => Unit
  | markTranslated => Unit

def run (s : Scope) : (e : Edit) → Scope × e.Answer
  | bind name value location =>
    match s.bindings.bind name value location with
    | .ok bindings => ({ s with bindings }, .ok ())
    | .error e => (s, .error e)
  | unbind name => ({ s with bindings := s.bindings.erase name }, s.bindings.value? name)
  | addNamespace ns =>
    ({ s with namespaces := Scope.extendPath s.namespaces ns }, !s.namespaces.contains ns)
  | setDefaults typeName specs =>
    let (defaults, outcome) := s.defaults.insertAll typeName specs
    ({ s with defaults }, outcome)
  | addTags names =>
    let (tags, outcome) := s.tags.addAll names
    ({ s with tags }, outcome)
  | setExported exported => ({ s with exported }, ())
  | setVirtual virtual => ({ s with virtual }, ())
  | markTranslated => ({ s with translated := true }, ())

/-! ## Lemmas -/

theorem run_id (s : Scope) (e : Edit) : (run s e).1.id = s.id := by
  cases e <;> simp only [run]
  split <;> rfl

theorem run_level (s : Scope) (e : Edit) : (run s e).1.level = s.level := by
  cases e <;> simp only [run]
  split <;> rfl

theorem run_kind (s : Scope) (e : Edit) : (run s e).1.kind = s.kind := by
  cases e <;> simp only [run]
  split <;> rfl

end Edit

end ScopeTree
