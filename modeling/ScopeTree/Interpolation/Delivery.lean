import ScopeTree.Diagnostic.Sink
import ScopeTree.Interpolation.Evaluation

/-!
# Handing over warnings

The warnings about a string are handed over while it is read, each as soon as its escape is met
and before anything behind it is looked up.  What becomes of them is the business of the sink:
here that is any state, and what a warning does to it.
-/

namespace ScopeTree

namespace Interpolation

/-- Read pieces behind the text `out`, and hand over each warning as it comes up: what has become
of the sink, and the outcome. -/
def deliver {σ : Type} (emit : σ → Diagnostic → σ) (look : String → Except ScopeError String)
    (whole : String) (location : SourceLocation) :
    σ → String → List Piece → σ × Except ScopeError String
  | sink, out, [] => (sink, .ok out)
  | sink, out, p :: ps =>
    let part := ofPiece look whole location p
    let sink := part.warnings.foldl emit sink
    match part.outcome with
    | .error e => (sink, .error e)
    | .ok s => deliver emit look whole location sink (out ++ s) ps

/-- Interpolate a string with a sink for its warnings. -/
def evaluateInto {σ : Type} (emit : σ → Diagnostic → σ) (sink : σ)
    (look : String → Except ScopeError String) (s : String) (location : SourceLocation) :
    σ × Except ScopeError String :=
  deliver emit look s location sink "" (pieces s.toList)

end Interpolation

/-- Hand over one more diagnostic to a sink that has already written to the log. -/
def Sink.handOver : Sink × List LogEvent → Diagnostic → Sink × List LogEvent
  | (s, logged), d => ((s.emit d).1, logged ++ (s.emit d).2)

/-! ## Lemmas -/

theorem Sink.foldl_handOver (s : Sink) (logged : List LogEvent) (ds : List Diagnostic) :
    ds.foldl handOver (s, logged) = ((s.emitAll ds).1, logged ++ (s.emitAll ds).2) := by
  induction ds generalizing s logged with
  | nil => simp [emitAll]
  | cons d ds ih => rw [List.foldl_cons, handOver, ih, List.append_assoc]; rfl

namespace Interpolation

/-- It makes no difference whether the warnings are handed over on the way or at the end. -/
theorem deliver_eq {σ : Type} (emit : σ → Diagnostic → σ)
    (look : String → Except ScopeError String) (whole : String) (location : SourceLocation)
    (sink : σ) (out : String) (ps : List Piece) :
    deliver emit look whole location sink out ps =
      ((ofPieces look whole location ps).warnings.foldl emit sink,
        (ofPieces look whole location ps).outcome.map (out ++ ·)) := by
  induction ps generalizing sink out with
  | nil => simp [deliver, ofPieces, Except.map]
  | cons p ps ih =>
    rw [deliver, ofPieces, andThen]
    cases hp : (ofPiece look whole location p).outcome with
    | error e => rw [hp]; rfl
    | ok s =>
      simp only [ih, List.foldl_append]
      cases (ofPieces look whole location ps).outcome <;> simp [Except.map, String.append_assoc]

theorem evaluateInto_eq {σ : Type} (emit : σ → Diagnostic → σ) (sink : σ)
    (look : String → Except ScopeError String) (s : String) (location : SourceLocation) :
    evaluateInto emit sink look s location =
      ((evaluate look s location).warnings.foldl emit sink,
        (evaluate look s location).outcome) := by
  rw [evaluateInto, deliver_eq, evaluate]
  cases (ofPieces look s location (pieces s.toList)).outcome <;> simp [Except.map]

end Interpolation

end ScopeTree
