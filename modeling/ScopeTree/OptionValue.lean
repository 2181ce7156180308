import ScopeTree.ScopeId
import ScopeTree.Text.Quoted

/-!
# Option keys and values

The settings with which a scope is described when it is made: the keys that are known, the
kind of value each of them takes, and the values that can be given.
-/

namespace ScopeTree

/-- The known settings of a new scope. -/
inductive OptionKey
  | initialNamespace
  | typeName
  | name
  | source
  | keyword
  | exported
  | virtual
  | top
  | translated
  | level
  | parent
  | configuration
deriving DecidableEq, Repr

/-- A setting as it is given. -/
inductive OptionValue
  | str (text : String)
  | bool (b : Bool)
  | int (n : UInt32)
  | scope (id : ScopeId)
  | catalog
deriving DecidableEq, Repr

namespace OptionKey

def all : List OptionKey :=
  [initialNamespace, typeName, name, source, keyword, exported, virtual, top, translated, level,
    parent, configuration]

def text : OptionKey → String
  | initialNamespace => "namespace"
  | typeName => "type"
  | name => "name"
  | source => "source"
  | keyword => "keyword"
  | exported => "exported"
  | virtual => "virtual"
  | top => "top"
  | translated => "translated"
  | level => "level"
  | parent => "parent"
  | configuration => "configuration"

def ofText? (s : String) : Option OptionKey := all.find? fun k => k.text = s

/-- What a value of the key has to be. -/
def expected : OptionKey → String
  | initialNamespace | typeName | name | source | keyword => "a string"
  | exported | virtual | top | translated => "a boolean"
  | level => "an integer"
  | parent => "a scope"
  | configuration => "anything"

/-! ## Lemmas -/

theorem mem_all (k : OptionKey) : k ∈ all := by cases k <;> decide

theorem text_injective {k l : OptionKey} (h : k.text = l.text) : k = l := by
  cases k <;> cases l <;> first | rfl | exact absurd h (by decide)

theorem ofText?_text (k : OptionKey) : ofText? k.text = some k := by cases k <;> decide

theorem ofText?_eq_some_iff {s : String} {k : OptionKey} : ofText? s = some k ↔ k.text = s := by
  constructor
  · intro h
    simpa using List.find?_some h
  · rintro rfl
    exact ofText?_text k

end OptionKey

namespace OptionValue

/-- The value together with its kind, for messages. -/
def description : OptionValue → String
  | str s => "Str(" ++ Text.quote s ++ ")"
  | bool b => "Bool(" ++ toString b ++ ")"
  | int n => "Int(" ++ toString n.toNat ++ ")"
  | scope id => "Scope(ScopeId(" ++ toString id.index ++ "))"
  | catalog => "Catalog"

end OptionValue

end ScopeTree
