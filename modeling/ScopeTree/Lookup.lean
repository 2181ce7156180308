import ScopeTree.Value

/-!
# Results of looking up a variable

A variable can be bound to the explicit `undef` or not be bound at all.  A raw lookup keeps
the two apart; a lookup for its text reads both as the empty text.
-/

namespace ScopeTree

/-- What a lookup makes of a missing value. -/
inductive LookupMode
  | asString
  | raw
deriving DecidableEq, Repr, Inhabited

/-- The result of a lookup: a value, or no binding on the way to the root. -/
inductive Lookup
  | found (value : Value)
  | undefined
deriving DecidableEq, Repr, Inhabited

namespace Lookup

def value? : Lookup → Option Value
  | found v => some v
  | undefined => none

def isUndefined : Lookup → Bool
  | found _ => false
  | undefined => true

/-- What interpolation puts in the place of the variable. -/
def text : Lookup → String
  | found v => v.text
  | undefined => ""

end Lookup

/-- The result for a variable that is bound. -/
def LookupMode.bound : LookupMode → Value → Lookup
  | asString, .undef => .found .empty
  | _, v => .found v

def LookupMode.unbound : LookupMode → Lookup
  | asString => .found .empty
  | raw => .undefined

end ScopeTree
