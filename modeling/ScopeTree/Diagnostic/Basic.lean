import ScopeTree.Diagnostic.ErrorCode
import ScopeTree.Diagnostic.Location

/-!
# Diagnostics

A diagnostic is a coded message with what is known about it: a location, notes and
suggestions.  It is built up from an empty one of its severity.  Its text has one line for
each part.
-/

namespace ScopeTree

/-- How grave a diagnostic is. -/
inductive Severity
  | error
  | warning
  | note
  | help
deriving DecidableEq, Repr

def Severity.text : Severity → String
  | error => "error"
  | warning => "warning"
  | note => "note"
  | help => "help"

/-- All that is needed to report one problem.  A location, where there is one, is known. -/
structure Diagnostic where
  code : ErrorCode
  severity : Severity
  message : String := ""
  location : Option SourceLocation := none
  notes : List String := []
  suggestions : List String := []
deriving DecidableEq, Repr

namespace Diagnostic

/-! ## Building -/

def withMessage (d : Diagnostic) (message : String) : Diagnostic := { d with message }

/-- Replace the location; one of which nothing is known counts as none. -/
def withLocation (d : Diagnostic) (location : SourceLocation) : Diagnostic :=
  { d with location := if location.isUnknown then none else some location }

def withNote (d : Diagnostic) (note : String) : Diagnostic :=
  { d with notes := d.notes ++ [note] }

def withSuggestion (d : Diagnostic) (suggestion : String) : Diagnostic :=
  { d with suggestions := d.suggestions ++ [suggestion] }

/-! ## Reading -/

def isError (d : Diagnostic) : Bool := d.severity = .error

def isWarning (d : Diagnostic) : Bool := d.severity = .warning

/-- Severity, code and message on one line. -/
def headline (d : Diagnostic) : String :=
  d.severity.text ++ " [" ++ d.code.text ++ "]: " ++ d.message

def locationLine (l : SourceLocation) : String := "  --> " ++ l.text

def noteLine (note : String) : String := "  = note: " ++ note

def suggestionLine (suggestion : String) : String := "  = help: " ++ suggestion

/-- The parts under the headline: the location, the notes, the suggestions. -/
def details (d : Diagnostic) : List String :=
  d.location.toList.map locationLine ++ d.notes.map noteLine ++ d.suggestions.map suggestionLine

/-- The headline and the details, a line feed between each two. -/
def text (d : Diagnostic) : String := "\n".intercalate (d.headline :: d.details)

/-! ## Lemmas -/

@[simp] theorem withLocation_unknown (d : Diagnostic) :
    d.withLocation .unknown = { d with location := none } := rfl

theorem withLocation_of_known (d : Diagnostic) {l : SourceLocation} (h : l.isUnknown = false) :
    d.withLocation l = { d with location := some l } := by
  simp [withLocation, h]

end Diagnostic

end ScopeTree
