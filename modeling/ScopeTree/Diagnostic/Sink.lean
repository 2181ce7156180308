import ScopeTree.Diagnostic.Basic
import ScopeTree.Log

/-!
# Sinks

Where diagnostics that stop nothing are handed to: a buffer keeps them in order, the log
passes each one on as an event, and the silent sink forgets them.

    captured (emitAll (buffer ds) es).1 = ds ++ es                (captured_emitAll_buffer)
-/

namespace ScopeTree

def Severity.logLevel : Severity → LogLevel
  | error => .error
  | warning => .warn
  | note | help => .info

/-- A diagnostic as an event of the log; notes and suggestions stay behind. -/
def Diagnostic.logEvent (d : Diagnostic) : LogEvent where
  level := d.severity.logLevel
  message := d.message
  fields :=
    [("code", .text d.code.text), ("location", .text (d.location.getD .unknown).text)]

/-- A destination for diagnostics. -/
inductive Sink
  | buffer (captured : Array Diagnostic)
  | log
  | silent

namespace Sink

/-- Hand over one diagnostic: the sink afterwards, and what enters the log. -/
def emit : Sink → Diagnostic → Sink × List LogEvent
  | buffer ds, d => (buffer (ds.push d), [])
  | log, d => (log, [d.logEvent])
  | silent, _ => (silent, [])

def emitAll (s : Sink) : List Diagnostic → Sink × List LogEvent
  | [] => (s, [])
  | d :: ds =>
    let (s, logged) := s.emit d
    let (s, more) := emitAll s ds
    (s, logged ++ more)

/-- What a sink has kept. -/
def captured : Sink → List Diagnostic
  | buffer ds => ds.toList
  | log | silent => []

def clear : Sink → Sink
  | buffer _ => buffer #[]
  | log => log
  | silent => silent

/-! ## Lemmas -/

theorem captured_emit_buffer (ds : Array Diagnostic) (d : Diagnostic) :
    ((buffer ds).emit d).1.captured = ds.toList ++ [d] := by
  simp [emit, captured]

theorem captured_emitAll_buffer (ds : Array Diagnostic) (es : List Diagnostic) :
    ((buffer ds).emitAll es).1.captured = ds.toList ++ es := by
  induction es generalizing ds with
  | nil => simp [emitAll, captured]
  | cons e es ih => simpa [emitAll, emit] using ih (ds.push e)

end Sink

end ScopeTree
