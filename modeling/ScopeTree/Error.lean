import ScopeTree.Diagnostic.Basic
import ScopeTree.OptionValue

/-!
# Errors

What can go wrong in the engine, by cause.  Every error has a code, a message and a
diagnostic; the wording is here and nowhere else.
-/

namespace ScopeTree

/-- Why a scope cannot be made as described. -/
inductive ConstructionFault
  | unknownOption (key : String)
  | unexpectedOption (key : OptionKey) (value : OptionValue)
  | topWithParent
  | missingParent (parent : ScopeId)
  | described (text : String)
deriving DecidableEq, Repr

/-- What must not happen in a compiler without faults. -/
inductive InternalFault
  | missingParent (parent : ScopeId) (child : String)
  | missingScope (scope : ScopeId)
  | missingClassScope (scope : ScopeId) (className : String)
  | untypedScope (scope : ScopeId)
  | namelessClass
  | tooManyScopes
  | endlessChain (child : String)
  | described (text : String)
deriving DecidableEq, Repr

/-- The errors of the engine.  Each one ends the compilation that meets it. -/
inductive ScopeError
  | duplicateBinding (name : String) (location previous : SourceLocation)
  | duplicateDefault (typeName param : String) (location : SourceLocation)
  | unresolvedClass (className variableName : String)
  | unevaluatedClass (className variableName : String)
  | invalidTag (tag : String)
  | stringParse (text : String) (location : SourceLocation)
  | construction (fault : ConstructionFault)
  | internal (fault : InternalFault)
deriving DecidableEq, Repr

def ConstructionFault.message : ConstructionFault → String
  | unknownOption key => s!"unknown scope option `{key}`"
  | unexpectedOption key value =>
    s!"scope option `{key.text}` expects {key.expected}, found {value.description}"
  | topWithParent => "a top scope cannot have a parent"
  | missingParent parent => s!"parent scope {parent.text} does not exist"
  | described text => text

def InternalFault.message : InternalFault → String
  | missingParent parent child => s!"parent {parent.text} of {child} is not in the catalog"
  | missingScope scope => s!"scope {scope.text} is not in the catalog"
  | missingClassScope scope className =>
    s!"scope {scope.text} of class `{className}` is not in the catalog"
  | untypedScope scope => s!"scope {scope.text} has no type"
  | namelessClass => "cannot register a class without a qualified name"
  | tooManyScopes => "too many scopes"
  | endlessChain child => s!"the parents of {child} have no end"
  | described text => text

namespace ScopeError

def message : ScopeError → String
  | duplicateBinding name _ _ => s!"cannot reassign variable `{name}`"
  | duplicateDefault typeName param _ =>
    s!"default for parameter `{param}` of `{typeName}` is already set in this scope"
  | unresolvedClass className variableName =>
    s!"could not find class `{className}` for variable `{variableName}`"
  | unevaluatedClass className variableName =>
    s!"class `{className}` has not been evaluated, so `{variableName}` cannot be looked up"
  | invalidTag tag => s!"invalid tag `{tag}`"
  | stringParse text _ => s!"could not interpolate string `{text}`"
  | construction fault => s!"invalid scope construction: {fault.message}"
  | internal fault => s!"internal error: {fault.message}"

def code : ScopeError → ErrorCode
  | duplicateBinding .. => .duplicateBinding
  | duplicateDefault .. => .duplicateDefault
  | unresolvedClass .. => .unresolvedClass
  | unevaluatedClass .. => .unevaluatedClass
  | invalidTag .. => .invalidTag
  | stringParse .. => .stringParse
  | construction .. => .construction
  | internal .. => .internal

/-- The error as a diagnostic, with what may help to mend it. -/
def toDiagnostic (e : ScopeError) : Diagnostic :=
  let d : Diagnostic := { code := e.code, severity := .error, message := e.message }
  match e with
  | duplicateBinding _ location previous =>
    let d := d.withLocation location
    if previous.isUnknown then d else d.withNote s!"previously set at {previous.text}"
  | duplicateDefault _ _ location => d.withLocation location
  | unresolvedClass className _ =>
    d.withSuggestion s!"check that class `{className}` is declared and spelled correctly"
  | unevaluatedClass className _ =>
    d.withSuggestion s!"include `{className}` before referring to its variables"
  | invalidTag _ =>
    d.withNote ("tags may contain only letters, digits, underscores and dashes, " ++
      "and may not start with a dash")
  | stringParse _ location => d.withLocation location
  | construction _ => d
  | internal _ => d.withNote "this is a bug in the compiler"

/-! ## Lemmas -/

theorem toDiagnostic_code (e : ScopeError) : e.toDiagnostic.code = e.code := by
  cases e <;> simp only [toDiagnostic] <;> first | rfl | (split <;> rfl)

theorem toDiagnostic_isError (e : ScopeError) : e.toDiagnostic.isError = true := by
  cases e <;> simp only [toDiagnostic] <;> first | rfl | (split <;> rfl)

end ScopeError

end ScopeTree
