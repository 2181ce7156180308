/-!
# Source locations

Where a binding, a default or a string was written: a file, a line, both or neither.  Each
half is known or not on its own; an empty file name and line 0 are still known halves.
-/

namespace ScopeTree

/-- A place in the configuration, as far as it is known. -/
structure SourceLocation where
  file : Option String := none
  line : Option Nat := none
deriving DecidableEq, Repr, Inhabited

namespace SourceLocation

def unknown : SourceLocation := {}

def isUnknown (l : SourceLocation) : Bool := l.file.isNone && l.line.isNone

/-- The file and the line with a colon between them, or the half that is known. -/
def text : SourceLocation → String
  | ⟨some file, some line⟩ => file ++ ":" ++ toString line
  | ⟨some file, none⟩ => file
  | ⟨none, some line⟩ => "line " ++ toString line
  | ⟨none, none⟩ => "<unknown>"

theorem isUnknown_iff (l : SourceLocation) : l.isUnknown = true ↔ l = unknown := by
  rcases l with ⟨_ | file, _ | line⟩ <;> simp [isUnknown, unknown]

end SourceLocation

end ScopeTree
