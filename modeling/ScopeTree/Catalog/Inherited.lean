import ScopeTree.Catalog.Climb

/-!
# What a scope inherits

Variables, defaults and tags of a scope are its own and those of the scopes above it.  Of two
variables with one name, and of two defaults for one parameter, the nearer one counts.
-/

namespace ScopeTree

abbrev VariableMap := Std.ExtTreeMap String Value

namespace Catalog

/-- The variables of scopes, nearest first, laid over each other. -/
def layVariables (above : List Handle) : VariableMap :=
  above.foldr (fun h seen => seen.insertMany h.scope.bindings.toList) ∅

/-- The defaults of a type in scopes, nearest first, laid over each other. -/
def layDefaults (typeName : String) (above : List Handle) : DefaultMap :=
  above.foldr (fun h seen => seen.insertMany ((h.scope.defaults.get? typeName).getD ∅).toList) ∅

def joinTags (above : List Handle) : TagSet :=
  above.foldr (fun h seen => seen.insertMany h.scope.ownTags) ∅

/-- The variables that can be seen from a scope: its own only, though its parent has to be
there, or also those of the scopes above it. -/
def visibleVariables (c : Catalog) (h : Handle) (recursive : Bool) : Except ScopeError VariableMap :=
  if recursive then (c.chain h).map layVariables
  else (c.parentScope h).map fun _ => layVariables [h]

def collectDefaults (c : Catalog) (h : Handle) (typeName : String) :
    Except ScopeError DefaultMap :=
  (c.chain h).map (layDefaults typeName)

/-- The tags of a scope and of the scopes above it, with their types, in order. -/
def effectiveTags (c : Catalog) (h : Handle) : Except ScopeError (List String) :=
  (c.chain h).map fun above => (joinTags above).toList

/-! ## Lemmas -/

theorem mem_joinTags {above : List Handle} {t : String} :
    t ∈ joinTags above ↔ ∃ h ∈ above, t ∈ h.scope.ownTags := by
  induction above with
  | nil => simp [joinTags]
  | cons h hs ih =>
    have : joinTags (h :: hs) = (joinTags hs).insertMany h.scope.ownTags := rfl
    simp [this, Std.ExtTreeSet.mem_insertMany_list, ih, or_comm]

end Catalog

end ScopeTree
