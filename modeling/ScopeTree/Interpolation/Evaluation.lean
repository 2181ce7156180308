import ScopeTree.Error
import ScopeTree.Interpolation.Piece

/-!
# Evaluating a string

Each piece of a string contributes its text: a reference the text of its variable, an escape
what it stands for.  An unknown escape stays as written and causes a warning.  The first
reference that cannot be looked up, or a backslash that nothing follows, is the error; the
warnings before it stand.
-/

namespace ScopeTree

/-- The outcome of interpolation, with the warnings given on the way, in order. -/
structure Interpolation where
  outcome : Except ScopeError String
  warnings : List Diagnostic := []

namespace Interpolation

/-- Go on after a part that succeeded. -/
def andThen (a : Interpolation) (b : Unit → Interpolation) : Interpolation :=
  match a.outcome with
  | .error _ => a
  | .ok before =>
    let rest := b ()
    ⟨rest.outcome.map (before ++ ·), a.warnings ++ rest.warnings⟩

/-- The warning about a backslash before a character that it gives no meaning. -/
def unknownEscapeWarning (c : Char) (location : SourceLocation) : Diagnostic :=
  let d : Diagnostic := { code := .unknownEscape, severity := .warning }
  let written := String.ofList ['\\', c]
  ((d.withMessage s!"unrecognised escape sequence `{written}`").withLocation location).withNote
    "the sequence is kept as written"

/-- The contribution of one piece.  `look` gives the text of a variable, and `whole` is the
whole string, for the message. -/
def ofPiece (look : String → Except ScopeError String) (whole : String)
    (location : SourceLocation) : Piece → Interpolation
  | .text run => ⟨.ok (String.ofList run), []⟩
  | .reference name _ => ⟨look (String.ofList name), []⟩
  | .escape c => ⟨.ok (String.ofList (escaped? c).toList), []⟩
  | .unknownEscape c => ⟨.ok (String.ofList ['\\', c]), [unknownEscapeWarning c location]⟩
  | .joinedLines _ => ⟨.ok "", []⟩
  | .dollar => ⟨.ok "$", []⟩
  | .trailingBackslash => ⟨.error (.stringParse whole location), []⟩

def ofPieces (look : String → Except ScopeError String) (whole : String)
    (location : SourceLocation) : List Piece → Interpolation
  | [] => ⟨.ok "", []⟩
  | p :: ps =>
    (ofPiece look whole location p).andThen fun _ => ofPieces look whole location ps

def evaluate (look : String → Except ScopeError String) (s : String)
    (location : SourceLocation) : Interpolation :=
  ofPieces look s location (pieces s.toList)

/-- The names that are looked up on the way: those of the references up to the first that
cannot be. -/
def namesAsked (look : String → Except ScopeError String) : List Piece → List String
  | [] => []
  | .reference name _ :: ps =>
    String.ofList name ::
      match look (String.ofList name) with
      | .ok _ => namesAsked look ps
      | .error _ => []
  | _ :: ps => namesAsked look ps

end Interpolation

end ScopeTree
