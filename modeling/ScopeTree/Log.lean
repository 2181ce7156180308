/-!
# Log events

What the engine tells about its work: a message at a level, with named fields.
-/

namespace ScopeTree

/-- How much attention an event asks for. -/
inductive LogLevel
  | error
  | warn
  | info
  | debug
  | trace
deriving DecidableEq, Repr

def LogLevel.text : LogLevel → String
  | error => "ERROR"
  | warn => "WARN"
  | info => "INFO"
  | debug => "DEBUG"
  | trace => "TRACE"

/-- The content of a field. -/
inductive LogField
  | text (s : String)
  | flag (b : Bool)
deriving DecidableEq, Repr

/-- One entry of the log. -/
structure LogEvent where
  level : LogLevel
  message : String
  fields : List (String × LogField)
deriving DecidableEq, Repr

end ScopeTree
