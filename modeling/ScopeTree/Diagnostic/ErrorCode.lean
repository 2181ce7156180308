/-!
# Error codes

Every kind of diagnostic has a code.  Its letter and first digit give the family: `E3` for
faults of scopes and names, `E9` for faults of the compiler itself, `W` for warnings.

    parse? c.text = some c                                       (parse?_text)
-/

namespace ScopeTree

/-- The kinds of diagnostics. -/
inductive ErrorCode
  | duplicateBinding
  | duplicateDefault
  | unresolvedClass
  | unevaluatedClass
  | invalidTag
  | stringParse
  | construction
  | internal
  | unknownEscape
deriving DecidableEq, Repr

namespace ErrorCode

/-- Every code, in the order of the families. -/
def all : List ErrorCode :=
  [duplicateBinding, duplicateDefault, unresolvedClass, unevaluatedClass, invalidTag,
    stringParse, construction, internal, unknownEscape]

def text : ErrorCode → String
  | duplicateBinding => "E3001"
  | duplicateDefault => "E3002"
  | unresolvedClass => "E3003"
  | unevaluatedClass => "E3004"
  | invalidTag => "E3005"
  | stringParse => "E3006"
  | construction => "E3007"
  | internal => "E9001"
  | unknownEscape => "W3001"

def summary : ErrorCode → String
  | duplicateBinding => "variable reassigned in the same scope"
  | duplicateDefault => "duplicate resource default"
  | unresolvedClass => "unresolved class in qualified name"
  | unevaluatedClass => "class has not been evaluated"
  | invalidTag => "invalid tag"
  | stringParse => "string could not be interpolated"
  | construction => "invalid scope construction"
  | internal => "internal compiler error"
  | unknownEscape => "unrecognised escape sequence"

def isWarning : ErrorCode → Bool
  | unknownEscape => true
  | _ => false

/-- A fault of the compiler itself. -/
def isInternalError : ErrorCode → Bool
  | internal => true
  | _ => false

/-- A fault of scopes and names. -/
def isScopeError (c : ErrorCode) : Bool := !c.isWarning && !c.isInternalError

/-- Read a code in either letter case.  Codes are ASCII, and no character beyond ASCII has an
upper-case form in ASCII alone that occurs in a code. -/
def parse? (s : String) : Option ErrorCode :=
  all.find? fun c => c.text.toList = s.toList.map Char.toUpper

/-! ## Lemmas -/

theorem mem_all (c : ErrorCode) : c ∈ all := by cases c <;> decide

theorem parse?_text (c : ErrorCode) : parse? c.text = some c := by cases c <;> decide

end ErrorCode

end ScopeTree
