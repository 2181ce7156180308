import ScopeTree.Proofs.Forest

/-!
# Histories of catalogs

A catalog comes about turn by turn.  A turn is a command, a question put to a scope that is
held outside the catalog (by which scopes of the catalog may come to ask for their parents), or
the exchange of the registry.  What a turn can do to a catalog is said once, and what a turn
keeps is kept by a run of turns.

    Reachable c ↔ c = runAll (.new types) turns                  (reachable_iff_exists_turns)
    Effect c t (t.run c)                                         (Turn.effect)
    (∀ t ∈ turns, P c → P (t.run c)) → P c → P (runAll c turns)  (Turn.runAll_keeps)
    P c told → P (runAll c turns) (told ++ gather tell c turns)  (Turn.runAll_gathers)

    ScopeInvariant Q → Reachable c → c.scope? i = some s → Q s   (ScopeInvariant.of_reachable)

    h ∈ (s.run step).1.detached → HeldAfter s h                  (Session.heldAfter)

Scopes are never removed and keep their parents, so a catalog only grows.
-/

namespace ScopeTree.Catalog

/-- A turn in the history of a catalog. -/
inductive Turn
  | command (cmd : Command)
  | askedBy (outsider : Handle) (q : Query)
  | exchange (types : TypeTable)

namespace Turn

def run (c : Catalog) : Turn → Catalog
  | command cmd => (cmd.run c).1
  | askedBy outsider q => c.settleAll (q.asking c outsider).others
  | exchange types => { c with types }

def runAll (c : Catalog) (turns : List Turn) : Catalog := turns.foldl run c

/-- A registry that is put in was filled by declarations. -/
def Sound : Turn → Prop
  | exchange types => types.Built
  | _ => True

/-- The edit that a turn makes to a scope that is there. -/
def editIn? (c : Catalog) : Turn → Option (ScopeId × Edit)
  | command (.edit id e) => if (c.scope? id).isSome then some (id, e) else none
  | _ => none

/-! ## The catalog after commands that can fail, or that only ask -/

theorem run_ask (c : Catalog) (id : ScopeId) (q : Query) :
    ∃ ids, (command (.ask id q)).run c = c.settleAll ids := by
  show ∃ ids, (Command.run c (.ask id q)).1 = c.settleAll ids
  simp only [Command.run]
  split
  · exact ⟨[], rfl⟩
  · exact ⟨_, rfl⟩

theorem run_newScope (c : Catalog) (parent : Option ScopeId) (o : ScopeOptions) :
    (command (.newScope parent o)).run c = c ∨
      ∃ level, (command (.newScope parent o)).run c =
        c.push (Scope.make ⟨c.count⟩ o level) (parent.or o.parent) := by
  show (Command.orUnchanged c (c.newScope parent o)).1 = c ∨
    ∃ level, (Command.orUnchanged c (c.newScope parent o)).1 = _
  cases h : c.newScope parent o with
  | error e => exact Or.inl rfl
  | ok made =>
    obtain ⟨level, -, -, -, hc', -⟩ := newScope_eq_ok h
    exact Or.inr ⟨level, hc'⟩

theorem run_childScope (c : Catalog) (parent : ScopeId) (o : ScopeOptions) :
    (command (.childScope parent o)).run c =
      if (c.scope? parent).isSome then (command (.newScope (some parent) o)).run c else c := by
  show (Command.orUnchanged c (c.childScope parent o)).1 = _
  unfold childScope
  cases c.scope? parent <;> rfl

theorem run_registerClass (c : Catalog) (id : ScopeId) (d : ClassDecl) :
    (command (.registerClass id d)).run c =
      if d.name ≠ "" ∧ (c.scope? id).isSome then
        (c.modifyScope id fun s => { s with kind := s.kind.registered d }).setClassScope d.name id
      else c := by
  show (Command.orUnchanged c ((c.registerClass id d).map (·, ()))).1 = _
  unfold registerClass
  by_cases hname : d.name = ""
  · simp [hname, Except.map, Command.orUnchanged]
  · cases c.scope? id <;> simp [hname, Except.map, Command.orUnchanged]

theorem run_registerResource (c : Catalog) (id : ScopeId) (r : Resource) :
    (command (.registerResource id r)).run c =
      match c.scope? id with
      | none => c
      | some s => { c with resources := c.resources.declare id (s.stamp r) } := by
  show (Command.orUnchanged c (c.registerResource id r)).1 = _
  unfold registerResource
  cases c.scope? id <;> rfl

/-! ## What a turn can do -/

/-- All that a turn can do to a catalog. -/
inductive Effect (c : Catalog) (t : Turn) : Catalog → Prop
  | nothing (ht : t.editIn? c = none) : Effect c t c
  | edited {id : ScopeId} {e : Edit} (ht : t.editIn? c = some (id, e)) :
      Effect c t (c.modifyScope id fun s => (e.run s).1)
  | asked (ids : List ScopeId) (ht : t.editIn? c = none) : Effect c t (c.settleAll ids)
  | grown (o : ScopeOptions) (level : Option UInt32) (parent : Option ScopeId)
      (ht : t.editIn? c = none) : Effect c t (c.push (Scope.make ⟨c.count⟩ o level) parent)
  | registered {id : ScopeId} {d : ClassDecl} (ht : t = command (.registerClass id d)) :
      Effect c t ((c.modifyScope id fun s => { s with kind := s.kind.registered d }).setClassScope
        d.name id)
  | recorded {className : String} {id : ScopeId}
      (ht : t = command (.setClassScope className id)) :
      Effect c t (c.setClassScope className id)
  | stored (resources : ResourceStore) (ht : t.editIn? c = none) :
      Effect c t { c with resources }
  | declared (types : TypeTable) (ht : t.editIn? c = none) : Effect c t { c with types }

/-- Nothing else can happen.  A command that fails does nothing. -/
theorem effect (c : Catalog) (t : Turn) : Effect c t (t.run c) := by
  cases t with
  | askedBy outsider q => exact .asked _ rfl
  | exchange types => exact .declared types rfl
  | command cmd =>
    cases cmd with
    | edit id e =>
      show Effect c _ (c.edit id e).1
      unfold Catalog.edit
      split
      · next s hs => exact .edited (by simp [editIn?, hs])
      · next hs => exact .nothing (by simp [editIn?, hs])
    | ask id q =>
      obtain ⟨ids, hrun⟩ := run_ask c id q
      rw [hrun]
      exact .asked ids rfl
    | newScope parent o =>
      rcases run_newScope c parent o with hrun | ⟨level, hrun⟩
      · rw [hrun]
        exact .nothing rfl
      · rw [hrun]
        exact .grown o level _ rfl
    | childScope parent o =>
      rw [run_childScope]
      split
      · rcases run_newScope c (some parent) o with hrun | ⟨level, hrun⟩
        · rw [hrun]
          exact .nothing rfl
        · rw [hrun]
          exact .grown o level _ rfl
      · exact .nothing rfl
    | registerClass id d =>
      rw [run_registerClass]
      split
      · exact .registered rfl
      · exact .nothing rfl
    | registerResource id r =>
      rw [run_registerResource]
      split
      · exact .nothing rfl
      · exact .stored _ rfl
    | storeResource id r => exact .stored _ rfl
    | registerOverride r => exact .stored _ rfl
    | setClassScope className id => exact .recorded rfl
    | addClass d => exact .declared _ rfl
    | addDefine d => exact .declared _ rfl

/-! ## Runs -/

@[simp] theorem runAll_nil (c : Catalog) : runAll c [] = c := rfl

@[simp] theorem runAll_cons (c : Catalog) (t : Turn) (turns : List Turn) :
    runAll c (t :: turns) = runAll (t.run c) turns := rfl

theorem runAll_append (c : Catalog) (turns later : List Turn) :
    runAll c (turns ++ later) = runAll (runAll c turns) later :=
  List.foldl_append

/-- What each of the turns keeps, the run keeps. -/
theorem runAll_keeps {P : Catalog → Prop} {turns : List Turn}
    (hturns : ∀ t ∈ turns, ∀ c, P c → P (t.run c)) {c : Catalog} (hc : P c) :
    P (runAll c turns) := by
  induction turns generalizing c with
  | nil => exact hc
  | cons t turns ih =>
    have hfirst : P (t.run c) := hturns t List.mem_cons_self c hc
    exact ih (fun t' ht' => hturns t' (List.mem_cons_of_mem _ ht')) hfirst

/-- What there is to tell of the turns of a run, in order. -/
def gather {α : Type} (tell : Catalog → Turn → Option α) : Catalog → List Turn → List α
  | _, [] => []
  | c, t :: turns => (tell c t).toList ++ gather tell (t.run c) turns

/-- What a turn keeps when it is told of, a run keeps when all of it is told. -/
theorem runAll_gathers {α : Type} (tell : Catalog → Turn → Option α) {P : Catalog → List α → Prop}
    (hturn : ∀ c told t, P c told → P (t.run c) (told ++ (tell c t).toList)) {c : Catalog}
    (told : List α) (hc : P c told) (turns : List Turn) :
    P (runAll c turns) (told ++ gather tell c turns) := by
  induction turns generalizing c told with
  | nil =>
    rw [gather, List.append_nil]
    exact hc
  | cons t turns ih =>
    rw [runAll_cons, gather, ← List.append_assoc]
    exact ih _ (hturn c told t hc)

end Turn

/-! ## Reachable catalogs are those with a history -/

/-- A turn is a step of some session, or the exchange itself. -/
theorem Reachable.run_turn {c : Catalog} (hc : Reachable c) {t : Turn} (ht : t.Sound) :
    Reachable (t.run c) := by
  cases t with
  | command cmd =>
    have hstep : Reachable (({ catalog := c } : Session).run (.command cmd)).1.catalog :=
      .step hc trivial
    exact hstep
  | askedBy outsider q =>
    have hstep : Reachable
        (({ catalog := c, detached := #[outsider] } : Session).run (.ask 0 q)).1.catalog :=
      .step hc trivial
    exact hstep
  | exchange types => exact .exchange hc ht

theorem Reachable.runTurns {c : Catalog} (hc : Reachable c) {turns : List Turn}
    (hturns : ∀ t ∈ turns, t.Sound) : Reachable (Turn.runAll c turns) :=
  Turn.runAll_keeps (fun t ht _ hc => hc.run_turn (hturns t ht)) hc

/-- Every step of a session that does not begin anew is one turn of its catalog or none. -/
theorem exists_turns_of_step (s : Session) {step : Session.Step}
    (hstep : ∀ types, step ≠ .reset types) :
    ∃ turns : List Turn, (∀ t ∈ turns, t.Sound) ∧
      (s.run step).1.catalog = Turn.runAll s.catalog turns := by
  cases step with
  | command cmd => exact ⟨[.command cmd], by simp [Turn.Sound], rfl⟩
  | edit n e =>
    refine ⟨[], by simp, ?_⟩
    simp only [Session.run]
    split <;> rfl
  | ask n q =>
    simp only [Session.run]
    split
    · exact ⟨[], by simp, rfl⟩
    · next h _ => exact ⟨[.askedBy h q], by simp [Turn.Sound], rfl⟩
  | make id o parentLevel => exact ⟨[], by simp, rfl⟩
  | copy target =>
    refine ⟨[], by simp, ?_⟩
    simp only [Session.run]
    split <;> rfl
  | reset types => exact absurd rfl (hstep types)

/-- The catalogs that can be come to are those that turns make of new ones. -/
theorem reachable_iff_exists_turns {c : Catalog} :
    Reachable c ↔ ∃ (types : TypeTable) (turns : List Turn), types.Built ∧
      (∀ t ∈ turns, t.Sound) ∧ c = Turn.runAll (.new types) turns := by
  constructor
  · intro hc
    induction hc with
    | @new types ht => exact ⟨types, [], ht, by simp, rfl⟩
    | @step s _ step hstep ih =>
      by_cases hreset : ∃ types, step = .reset types
      · obtain ⟨types, rfl⟩ := hreset
        exact ⟨types, [], hstep, by simp, rfl⟩
      · obtain ⟨types, past, ht, hpast, heq⟩ := ih
        obtain ⟨turns, hturns, hrun⟩ :=
          exists_turns_of_step s fun types he => hreset ⟨types, he⟩
        refine ⟨types, past ++ turns, ht, ?_, ?_⟩
        · intro t hmem
          rcases List.mem_append.1 hmem with hmem | hmem
          · exact hpast t hmem
          · exact hturns t hmem
        · rw [hrun, heq, Turn.runAll_append]
    | @exchange c _ registry hregistry ih =>
      obtain ⟨types, past, ht, hpast, rfl⟩ := ih
      refine ⟨types, past ++ [.exchange registry], ht, ?_, ?_⟩
      · intro t hmem
        rcases List.mem_append.1 hmem with hmem | hmem
        · exact hpast t hmem
        · rw [List.mem_singleton.1 hmem]
          exact hregistry
      · rw [Turn.runAll_append]
        rfl
  · rintro ⟨types, turns, ht, hturns, rfl⟩
    exact (Reachable.new ht).runTurns hturns

namespace IsForest

variable {c : Catalog}

/-- Whatever registry is put in, the scopes stay a forest. -/
theorem run_turn (hc : IsForest c) (t : Turn) : IsForest (t.run c) := by
  cases t with
  | command cmd => exact IsForest.invariant.run_command hc cmd
  | askedBy outsider q => exact IsForest.invariant.settleAll hc _
  | exchange types => exact hc.of_nodes_eq rfl

theorem runTurns (hc : IsForest c) (turns : List Turn) : IsForest (Turn.runAll c turns) :=
  Turn.runAll_keeps (fun t _ _ hc => hc.run_turn t) hc

end IsForest

/-! ## What no turn changes -/

@[simp] theorem count_settleAll (c : Catalog) (ids : List ScopeId) :
    (c.settleAll ids).count = c.count := by
  induction ids generalizing c with
  | nil => rfl
  | cons id ids ih =>
    have hone : (c.settleAt id).count = c.count := by simp [count, settleAt]
    exact (ih _).trans hone

@[simp] theorem count_setClassScope (c : Catalog) (className : String) (id : ScopeId) :
    (c.setClassScope className id).count = c.count := rfl

@[simp] theorem parentOf_setClassScope (c : Catalog) (className : String) (id i : ScopeId) :
    (c.setClassScope className id).parentOf i = c.parentOf i := rfl

theorem scope?_push (c : Catalog) (s : Scope) (parent : Option ScopeId) (i : ScopeId) :
    (c.push s parent).scope? i = if i.index = c.count then some s else c.scope? i := by
  unfold scope?
  rw [handle?_push]
  split <;> rfl

@[simp] theorem scope?_setClassScope (c : Catalog) (className : String) (id i : ScopeId) :
    (c.setClassScope className id).scope? i = c.scope? i := rfl

@[simp] theorem classScopes_settleAll (c : Catalog) (ids : List ScopeId) :
    (c.settleAll ids).classScopes = c.classScopes := by
  induction ids generalizing c with
  | nil => rfl
  | cons id ids ih => exact ih (c.settleAt id)

namespace Turn.Effect

variable {c c' : Catalog} {t : Turn}

/-- No scope is ever removed. -/
theorem count_le (he : Effect c t c') : c.count ≤ c'.count := by
  cases he with
  | nothing _ => exact Nat.le_refl _
  | edited _ => simp
  | asked _ _ => simp
  | grown _ _ _ _ => simp
  | registered _ => simp
  | recorded _ => simp
  | stored _ _ => exact Nat.le_refl _
  | declared _ _ => exact Nat.le_refl _

theorem parentOf_eq (he : Effect c t c') {i : ScopeId} (hi : i.index < c.count) :
    c'.parentOf i = c.parentOf i := by
  cases he with
  | nothing _ => rfl
  | edited _ => simp
  | asked _ _ => simp
  | grown _ _ _ _ =>
    have hne : i.index ≠ c.count := by omega
    rw [parentOf_push, if_neg hne]
  | registered _ => simp
  | recorded _ => simp
  | stored _ _ => rfl
  | declared _ _ => rfl

end Turn.Effect

/-! ## The life of a scope -/

/-- The second scope is what can have become of the first in one turn. -/
inductive ScopeAfter (s : Scope) : Scope → Prop
  | kept : ScopeAfter s s
  | edited (e : Edit) : ScopeAfter s (e.run s).1
  | registered (kind : ScopeKind) : ScopeAfter s { s with kind }

/-- One catalog has the scopes of the other as one turn can have left them, and beside them only
new scopes. -/
structure ScopesAfter (c c' : Catalog) : Prop where
  kept (i : ScopeId) (s : Scope) : c.scope? i = some s →
    ∃ s', c'.scope? i = some s' ∧ ScopeAfter s s'
  made (i : ScopeId) (s' : Scope) : c.scope? i = none → c'.scope? i = some s' →
    ∃ id o level, s' = Scope.make id o level

namespace ScopesAfter

theorem of_scope?_eq {c c' : Catalog} (h : ∀ i, c'.scope? i = c.scope? i) : ScopesAfter c c' where
  kept i s hs := ⟨s, (h i).trans hs, .kept⟩
  made i s' hi hs' := by
    rw [h i, hi] at hs'
    cases hs'

theorem modifyScope (c : Catalog) (id : ScopeId) {f : Scope → Scope}
    (hf : ∀ s, ScopeAfter s (f s)) : ScopesAfter c (c.modifyScope id f) where
  kept i s hs := by
    rw [scope?_modifyScope, hs]
    split
    · exact ⟨f s, rfl, hf s⟩
    · exact ⟨s, rfl, .kept⟩
  made i s' hi hs' := by
    rw [scope?_modifyScope, hi] at hs'
    split at hs' <;> cases hs'

theorem push (c : Catalog) (id : ScopeId) (o : ScopeOptions) (level : Option UInt32)
    (parent : Option ScopeId) : ScopesAfter c (c.push (Scope.make id o level) parent) where
  kept i s hs := by
    have hi := index_lt_of_scope? hs
    have hne : i.index ≠ c.count := by omega
    refine ⟨s, ?_, .kept⟩
    rw [scope?_push, if_neg hne, hs]
  made i s' hi hs' := by
    rw [scope?_push, hi] at hs'
    split at hs'
    · cases hs'
      exact ⟨id, o, level, rfl⟩
    · cases hs'

end ScopesAfter

/-- A turn edits or registers scopes, or makes a new one. -/
theorem Turn.Effect.scopesAfter {c c' : Catalog} {t : Turn} (he : Effect c t c') :
    ScopesAfter c c' := by
  cases he with
  | nothing _ => exact .of_scope?_eq fun _ => rfl
  | @edited id e _ => exact .modifyScope c id fun s => .edited e
  | asked ids _ => exact .of_scope?_eq fun i => scope?_settleAll c ids i
  | grown o level parent _ => exact .push c _ o level parent
  | @registered id d _ =>
    -- what is recorded for the class is not a matter of its scope
    have hscopes := ScopesAfter.modifyScope c id
      (f := fun s => { s with kind := s.kind.registered d }) fun s => .registered _
    exact ⟨hscopes.kept, hscopes.made⟩
  | recorded _ => exact .of_scope?_eq fun _ => rfl
  | stored _ _ => exact .of_scope?_eq fun _ => rfl
  | declared _ _ => exact .of_scope?_eq fun _ => rfl

/-- What holds of every new scope and is kept by all that can become of one. -/
structure ScopeInvariant (Q : Scope → Prop) : Prop where
  make (id : ScopeId) (o : ScopeOptions) (level : Option UInt32) : Q (Scope.make id o level)
  edit (s : Scope) (e : Edit) : Q s → Q (e.run s).1
  registered (s : Scope) (kind : ScopeKind) : Q s → Q { s with kind }

namespace ScopeInvariant

variable {Q : Scope → Prop}

theorem scopeAfter (hQ : ScopeInvariant Q) {s s' : Scope} (h : ScopeAfter s s') (hs : Q s) :
    Q s' := by
  cases h with
  | kept => exact hs
  | edited e => exact hQ.edit s e hs
  | registered kind => exact hQ.registered s kind hs

theorem of_reachable (hQ : ScopeInvariant Q) {c : Catalog} (hc : Reachable c) :
    ∀ i s, c.scope? i = some s → Q s := by
  obtain ⟨types, turns, -, -, rfl⟩ := reachable_iff_exists_turns.1 hc
  refine Turn.runAll_keeps (P := fun c => ∀ i s, c.scope? i = some s → Q s) ?_ ?_
  · intro t _ c ih i s' hs'
    have hafter := (t.effect c).scopesAfter
    cases hs : c.scope? i with
    | none =>
      obtain ⟨id, o, level, rfl⟩ := hafter.made i s' hs hs'
      exact hQ.make id o level
    | some s =>
      obtain ⟨s'', hs'', hbecame⟩ := hafter.kept i s hs
      rw [hs'] at hs''
      cases hs''
      exact hQ.scopeAfter hbecame (ih i s hs)
  · rintro ⟨_ | n⟩ s hs
    · cases hs
      exact hQ.make _ _ _
    · cases hs

end ScopeInvariant

end ScopeTree.Catalog

/-! ## Scopes outside the catalog -/

namespace ScopeTree.Session

/-- All that a scope outside the catalog can be after a step. -/
inductive HeldAfter (s : Session) : Handle → Prop
  | kept {h : Handle} (hh : h ∈ s.detached) : HeldAfter s h
  | made (id : ScopeId) (o : ScopeOptions) (level : Option UInt32) :
      HeldAfter s { scope := .make id o level }
  | copied {t : Target} {h : Handle} (ht : s.handle? t = some h) : HeldAfter s h
  | edited {h : Handle} (hh : h ∈ s.detached) (e : Edit) :
      HeldAfter s { h with scope := (e.run h.scope).1 }
  | asked {h : Handle} (hh : h ∈ s.detached) : HeldAfter s (s.catalog.settle h)

theorem heldAfter {s : Session} {step : Step} {g : Handle} (hg : g ∈ (s.run step).1.detached) :
    HeldAfter s g := by
  cases step with
  | command cmd => exact .kept hg
  | reset types => exact .kept hg
  | make id o level =>
    rcases Array.mem_push.1 hg with hg | rfl
    · exact .kept hg
    · exact .made id o level
  | copy t =>
    simp only [run] at hg
    cases ht : s.handle? t with
    | none =>
      rw [ht] at hg
      exact .kept hg
    | some h =>
      rw [ht] at hg
      rcases Array.mem_push.1 hg with hg | rfl
      · exact .kept hg
      · exact .copied ht
  | edit n e =>
    simp only [run] at hg
    cases hn : s.detached[n]? with
    | none =>
      rw [hn] at hg
      exact .kept hg
    | some h =>
      rw [hn] at hg
      rcases Array.mem_or_eq_of_mem_setIfInBounds hg with hg | rfl
      · exact .kept hg
      · exact .edited (Array.mem_of_getElem? hn) e
  | ask n q =>
    simp only [run] at hg
    cases hn : s.detached[n]? with
    | none =>
      rw [hn] at hg
      exact .kept hg
    | some h =>
      have hmem : h ∈ s.detached := Array.mem_of_getElem? hn
      rw [hn] at hg
      rcases Array.mem_or_eq_of_mem_setIfInBounds hg with hg | rfl
      · exact .kept hg
      · split
        · exact .asked hmem
        · exact .kept hmem

end ScopeTree.Session
