import ScopeTree.Catalog.Registration
import ScopeTree.Log
import ScopeTree.Query

/-!
# Commands

Everything that can be done with a catalog, as data: editing one of its scopes, putting a
question to one, making scopes, and registering and declaring things.  A command gives the
catalog afterwards, an answer, and what enters the log.
-/

namespace ScopeTree

/-- Something done with a catalog. -/
inductive Command
  | edit (scope : ScopeId) (e : Edit)
  | ask (scope : ScopeId) (q : Query)
  | newScope (parent : Option ScopeId) (o : ScopeOptions)
  | childScope (parent : ScopeId) (o : ScopeOptions)
  | registerClass (scope : ScopeId) (d : ClassDecl)
  | registerResource (scope : ScopeId) (r : Resource)
  | storeResource (scope : ScopeId) (r : Resource)
  | registerOverride (r : Resource)
  | setClassScope (className : String) (scope : ScopeId)
  | addClass (d : ClassDecl)
  | addDefine (d : DefineDecl)

/-- The entry about an edit of a scope.  A binding is announced before it is tried. -/
def Edit.log (scope : ScopeId) : Edit → List LogEvent
  | bind name .. =>
    [{ level := .trace, message := "set variable",
       fields := [("scope", .text scope.text), ("name", .text name)] }]
  | _ => []

namespace Command

/-- What a command is answered with.  An edit of a scope that does not exist, and a question
to one, have no answer. -/
@[reducible] def Answer : Command → Type
  | edit _ e => Option e.Answer
  | ask _ q => Option q.Answer
  | newScope .. => Except ScopeError ScopeId
  | childScope .. => Except ScopeError ScopeId
  | registerClass .. => Except ScopeError Unit
  | registerResource .. => Except ScopeError Resource
  | storeResource .. => ResourceRef
  | registerOverride _ => Unit
  | setClassScope .. => Unit
  | addClass _ => Unit
  | addDefine _ => Unit

/-- The catalog after an operation that may fail, which then has changed nothing. -/
def orUnchanged {α : Type} (c : Catalog) :
    Except ScopeError (Catalog × α) → Catalog × Except ScopeError α
  | .ok (c', a) => (c', .ok a)
  | .error e => (c, .error e)

def run (c : Catalog) : (cmd : Command) → Catalog × cmd.Answer
  | edit scope e => c.edit scope e
  | ask scope q =>
    match c.handle? scope with
    | none => (c, none)
    | some h =>
      let asking := q.asking c h
      let ids := if asking.self then scope :: asking.others else asking.others
      (c.settleAll ids, some (q.answer c h))
  | newScope parent o => orUnchanged c (c.newScope parent o)
  | childScope parent o => orUnchanged c (c.childScope parent o)
  | registerClass scope d =>
    orUnchanged c ((c.registerClass scope d).map (·, ()))
  | registerResource scope r => orUnchanged c (c.registerResource scope r)
  | storeResource scope r => c.storeResource scope r
  | registerOverride r => (c.registerOverride r, ())
  | setClassScope className scope => (c.setClassScope className scope, ())
  | addClass d => (c.addClass d, ())
  | addDefine d => (c.addDefine d, ())

def runAll (c : Catalog) (cmds : List Command) : Catalog :=
  cmds.foldl (fun c cmd => (run c cmd).1) c

/-! ## The log -/

def parentText : Option ScopeId → String
  | none => "None"
  | some id => "Some(ScopeId(" ++ toString id.index ++ "))"

def newScopeEvent (id : ScopeId) (parent : Option ScopeId) : LogEvent where
  level := .debug
  message := "new scope"
  fields := [("scope", .text id.text), ("parent", .text (parentText parent))]

/-- What enters the log when a command has been answered; nothing for one that failed, a
binding apart. -/
def log : (cmd : Command) → cmd.Answer → List LogEvent
  | edit scope e, some _ => e.log scope
  | newScope parent o, .ok id => [newScopeEvent id (parent.or o.parent)]
  | childScope parent _, .ok id => [newScopeEvent id (some parent)]
  | registerClass scope d, .ok _ =>
    [{ level := .debug, message := "register class",
       fields := [("scope", .text scope.text), ("class", .text d.name),
         ("node", .flag d.isNode)] }]
  | registerResource scope _, .ok r =>
    [{ level := .debug, message := "register resource",
       fields := [("scope", .text scope.text), ("resource", .text r.reference.text),
         ("exported", .flag r.exported), ("virtual_", .flag r.virtual)] }]
  | registerOverride r, _ =>
    [{ level := .debug, message := "register override",
       fields := [("resource", .text r.reference.text)] }]
  | _, _ => []

end Command

end ScopeTree
