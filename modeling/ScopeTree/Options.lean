import ScopeTree.Error

/-!
# Options of a new scope

The settings of a scope to be made, either given directly or read from key and value pairs.
Pairs are read in order and a later pair of a key replaces an earlier one; the first pair with
an unknown key or a value of the wrong kind is the error.

    assign o k v = error ↔ v is not of the kind that k takes     (assign_eq_error_iff)
-/

namespace ScopeTree

/-- What is settled about a scope before it is made. -/
structure ScopeOptions where
  initialNamespace : Option String := none
  typeName : Option String := none
  name : Option String := none
  parent : Option ScopeId := none
  source : Option String := none
  keyword : Option String := none
  exported : Bool := false
  virtual : Bool := false
  top : Bool := false
  translated : Bool := false
  level : Option UInt32 := none
deriving DecidableEq, Repr, Inhabited

/-- The value is of the kind that the key takes. -/
def OptionKey.admits : OptionKey → OptionValue → Bool
  | initialNamespace, .str _ | typeName, .str _ | name, .str _ | source, .str _
  | keyword, .str _ => true
  | exported, .bool _ | virtual, .bool _ | top, .bool _ | translated, .bool _ => true
  | level, .int _ => true
  | parent, .scope _ => true
  | configuration, _ => true
  | _, _ => false

namespace ScopeOptions

def typed (typeName : String) : ScopeOptions := { typeName := some typeName }

def withName (o : ScopeOptions) (name : String) : ScopeOptions := { o with name := some name }

def withNamespace (o : ScopeOptions) (ns : String) : ScopeOptions :=
  { o with initialNamespace := some ns }

/-- Settle one key.  The configuration is always at hand and is passed over. -/
def assign (o : ScopeOptions) : OptionKey → OptionValue → Except ScopeError ScopeOptions
  | .initialNamespace, .str s => .ok { o with initialNamespace := some s }
  | .typeName, .str s => .ok { o with typeName := some s }
  | .name, .str s => .ok { o with name := some s }
  | .source, .str s => .ok { o with source := some s }
  | .keyword, .str s => .ok { o with keyword := some s }
  | .exported, .bool b => .ok { o with exported := b }
  | .virtual, .bool b => .ok { o with virtual := b }
  | .top, .bool b => .ok { o with top := b }
  | .translated, .bool b => .ok { o with translated := b }
  | .level, .int n => .ok { o with level := some n }
  | .parent, .scope id => .ok { o with parent := some id }
  | .configuration, _ => .ok o
  | key, value => .error (.construction (.unexpectedOption key value))

/-- Settle one key given by its spelling. -/
def assignPair (o : ScopeOptions) (pair : String × OptionValue) :
    Except ScopeError ScopeOptions :=
  match OptionKey.ofText? pair.1 with
  | some key => o.assign key pair.2
  | none => .error (.construction (.unknownOption pair.1))

/-- Read pairs in order. -/
def ofPairs (pairs : List (String × OptionValue)) : Except ScopeError ScopeOptions :=
  pairs.foldlM assignPair {}

/-! ## Lemmas -/

theorem assign_eq_error_iff (o : ScopeOptions) (key : OptionKey) (value : OptionValue)
    (e : ScopeError) :
    o.assign key value = .error e ↔
      key.admits value = false ∧ e = .construction (.unexpectedOption key value) := by
  cases key <;> cases value <;> simp [assign, OptionKey.admits, eq_comm]

end ScopeOptions

end ScopeTree
