import ScopeTree.Diagnostic.Location
import ScopeTree.Value
import Std.Data.ExtTreeMap

/-!
# Resources

A resource has a type and a title, by which it is referred to as `Type[title]`, and
parameters.  It may be exported, virtual or both.

    parse? s = some r ↔ s is the text of r, whose type has no opening bracket
-/

namespace ScopeTree

/-- The type and the title of a resource. -/
structure ResourceRef where
  typeName : String
  title : String
deriving DecidableEq, Repr, Inhabited

namespace ResourceRef

/-- The title in brackets behind the type. -/
def text (r : ResourceRef) : String := r.typeName ++ "[" ++ r.title ++ "]"

/-- Read a reference.  The type ends at the first opening bracket, the title at the closing
bracket that ends the text; neither is empty. -/
def parse? (s : String) : Option ResourceRef :=
  let typeName := s.toList.takeWhile (· != '[')
  match s.toList.dropWhile (· != '[') with
  | [] => none
  | _ :: rest =>
    let title := rest.dropLast
    if rest.getLast? = some ']' ∧ typeName ≠ [] ∧ title ≠ [] then
      some ⟨String.ofList typeName, String.ofList title⟩
    else none

/-- References are ordered by type, then by title. -/
instance : Ord ResourceRef where
  compare r s := (compare r.typeName s.typeName).then (compare r.title s.title)

instance : Std.TransOrd ResourceRef :=
  inferInstanceAs (Std.TransCmp (compareLex (compareOn typeName) (compareOn title)))

instance : Std.LawfulEqOrd ResourceRef where
  eq_of_compare {r s} h := by
    obtain ⟨ht, hs⟩ := Ordering.then_eq_eq.1 h
    cases r; cases s
    simp_all

end ResourceRef

/-- A resource as it is declared or overridden. -/
structure Resource where
  reference : ResourceRef
  parameters : Std.ExtTreeMap String Value := ∅
  exported : Bool := false
  virtual : Bool := false
  location : SourceLocation := .unknown

end ScopeTree
