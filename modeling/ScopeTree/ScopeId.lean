/-!
# Scope ids

A scope is named by its number in the catalog.  Ids fit in 32 bits, which bounds the number
of scopes a catalog can hold.
-/

namespace ScopeTree

/-- The name of a scope: its number in the catalog. -/
structure ScopeId where
  index : Nat
deriving DecidableEq, Repr, Inhabited

namespace ScopeId

/-- How many ids there are. -/
def limit : Nat := 4294967296

def text (id : ScopeId) : String := "#" ++ toString id.index

end ScopeId

end ScopeTree
