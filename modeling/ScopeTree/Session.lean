import ScopeTree.Command

/-!
# Sessions

A session is a catalog and a number of detached scopes: copies of scopes of the catalog and
scopes made without one.  A detached scope works with the catalog of the session like one of
its own scopes, and keeps what it was once told about its parent, also when the catalog is
replaced.
-/

namespace ScopeTree

/-- A catalog and the scopes held outside it. -/
structure Session where
  catalog : Catalog
  detached : Array Handle := #[]

/-- A scope of the catalog or a detached one. -/
inductive Target
  | inCatalog (id : ScopeId)
  | detached (n : Nat)
deriving DecidableEq, Repr

namespace Session

def new (types : TypeTable) : Session := { catalog := .new types }

/-- The scope that is meant. -/
def handle? (s : Session) : Target → Option Handle
  | .inCatalog id => s.catalog.handle? id
  | .detached n => s.detached[n]?

/-- A step of a session. -/
inductive Step
  | command (cmd : Command)
  | edit (n : Nat) (e : Edit)
  | ask (n : Nat) (q : Query)
  | make (id : ScopeId) (o : ScopeOptions) (parentLevel : Option UInt32)
  | copy (t : Target)
  | reset (types : TypeTable)

/-- What a step is answered with.  A new detached scope is answered with its number. -/
@[reducible] def Step.Answer : Step → Type
  | command cmd => cmd.Answer
  | edit _ e => Option e.Answer
  | ask _ q => Option q.Answer
  | make .. => Nat
  | copy _ => Option Nat
  | reset _ => Unit

def hold (s : Session) (h : Handle) : Session := { s with detached := s.detached.push h }

def run (s : Session) : (step : Step) → Session × step.Answer
  | .command cmd =>
    let (catalog, a) := cmd.run s.catalog
    ({ s with catalog }, a)
  | .edit n e =>
    match s.detached[n]? with
    | none => (s, none)
    | some h =>
      let (scope, a) := e.run h.scope
      ({ s with detached := s.detached.set! n { h with scope } }, some a)
  | .ask n q =>
    match s.detached[n]? with
    | none => (s, none)
    | some h =>
      let asking := q.asking s.catalog h
      let h' := if asking.self then s.catalog.settle h else h
      ({ catalog := s.catalog.settleAll asking.others, detached := s.detached.set! n h' },
        some (q.answer s.catalog h))
  | .make id o parentLevel =>
    (s.hold { scope := .make id o parentLevel }, s.detached.size)
  | .copy t =>
    match s.handle? t with
    | none => (s, none)
    | some h => (s.hold h, some s.detached.size)
  | .reset types => ({ s with catalog := .new types }, ())

def runAll (s : Session) (steps : List Step) : Session :=
  steps.foldl (fun s step => (s.run step).1) s

/-! ## Steps on either kind of scope -/

/-- Edit a scope, if there is one: the session afterwards, the answer and the log. -/
def edit (s : Session) (t : Target) (e : Edit) : Option (Session × e.Answer × List LogEvent) := do
  let h ← s.handle? t
  match t with
  | .inCatalog id =>
    let (s', a) := s.run (.command (.edit id e))
    return (s', ← a, e.log h.scope.id)
  | .detached n =>
    let (s', a) := s.run (.edit n e)
    return (s', ← a, e.log h.scope.id)

/-- Put a question to a scope, if there is one. -/
def ask (s : Session) (t : Target) (q : Query) : Option (Session × q.Answer) :=
  match t with
  | .inCatalog id =>
    let (s', a) := s.run (.command (.ask id q))
    a.map (s', ·)
  | .detached n =>
    let (s', a) := s.run (.ask n q)
    a.map (s', ·)

/-- Make a line of scopes, each under the last, and answer with the lowest.  It ends early at
the first scope that cannot be made.  Options that could not be read fail the first scope; a
line of no scopes has no use for them. -/
def grow (options : Except ScopeError ScopeOptions) :
    Nat → ScopeId → Session → Session × Except ScopeError ScopeId × List LogEvent
  | 0, parent, s => (s, .ok parent, [])
  | n + 1, parent, s =>
    match options with
    | .error e => (s, .error e, [])
    | .ok o =>
      let cmd : Command := .childScope parent o
      let (s', a) := s.run (.command cmd)
      match a with
      | .error e => (s', .error e, [])
      | .ok id =>
        let (s'', outcome, logged) := grow options n id s'
        (s'', outcome, cmd.log (.ok id) ++ logged)

end Session

end ScopeTree
