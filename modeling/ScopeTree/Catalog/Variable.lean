import ScopeTree.Catalog.Climb
import ScopeTree.Lookup

/-!
# Looking up variables

A plain name is looked for in the scope, then in its parent, and so on to the root.  A name
with a separator is cut at the last one: with nothing in front the rest is looked for in the
root of the scope; otherwise the front names a class, and the rest is looked for from the
scope in which that class was evaluated.

    lookup c h mode name = lookupFrom c g mode short             (when origin c h name = (g, short))
-/

namespace ScopeTree

namespace Catalog

/-- The qualifier and the short name of a name that has a separator. -/
def splitName? (name : String) : Option (String × String) :=
  (Text.splitLast? name.toList).map fun (q, s) => (String.ofList q, String.ofList s)

/-- The climb to the nearest scope that binds a name. -/
def climbToBinding (c : Catalog) (h : Handle) (name : String) : Climb Value :=
  c.climb (·.bindings.value? name) h

/-- Look for a plain name from a scope upwards. -/
def lookupFrom (c : Catalog) (h : Handle) (mode : LookupMode) (name : String) :
    Except ScopeError Lookup :=
  match (c.climbToBinding h name).stop with
  | .found _ value => .ok (mode.bound value)
  | .root => .ok mode.unbound
  | .lost child parent => .error (lostParent child parent)
  | .endless child => .error (.internal (.endlessChain child.scope.text))

/-- The scope in which the class of a qualifier was evaluated; `name` is the full name, for
the message. -/
def classOrigin (c : Catalog) (s : Scope) (qualifier name : String) :
    Except ScopeError Handle :=
  match s.findClass? c.types qualifier with
  | none => .error (.unresolvedClass qualifier name)
  | some decl =>
    match c.classScope? decl.name with
    | none => .error (.unevaluatedClass decl.name name)
    | some id =>
      match c.handle? id with
      | none => .error (.internal (.missingClassScope id decl.name))
      | some h => .ok h

/-- Where a name is looked for, and as what plain name. -/
def origin (c : Catalog) (h : Handle) (name : String) : Except ScopeError (Handle × String) :=
  match splitName? name with
  | none => .ok (h, name)
  | some (qualifier, short) =>
    if qualifier = "" then (c.topScope h).map (·, short)
    else (c.classOrigin h.scope qualifier name).map (·, short)

/-- Look up a variable from a scope. -/
def lookup (c : Catalog) (h : Handle) (mode : LookupMode) (name : String) :
    Except ScopeError Lookup :=
  match c.origin h name with
  | .ok (g, short) => c.lookupFrom g mode short
  | .error e => .error e

def lookupString (c : Catalog) (h : Handle) (name : String) : Except ScopeError String :=
  (c.lookup h .asString name).map Lookup.text

/-! ## Lemmas -/

theorem lookup_of_plain (c : Catalog) (h : Handle) (mode : LookupMode) {name : String}
    (hn : splitName? name = none) : c.lookup h mode name = c.lookupFrom h mode name := by
  simp [lookup, origin, hn]

theorem lookupFrom_of_bound (c : Catalog) (h : Handle) (mode : LookupMode) {name : String}
    {value : Value} (hv : h.scope.bindings.value? name = some value) :
    c.lookupFrom h mode name = .ok (mode.bound value) := by
  have : c.climbToBinding h name = ⟨[], .found h value⟩ := by
    simp only [climbToBinding, climb]
    cases c.count <;> simp [climbWithin, hv]
  simp [lookupFrom, this]

end Catalog

end ScopeTree
