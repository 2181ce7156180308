import ScopeTree.Session

/-!
# Reachable catalogs are forests

A catalog is reachable when steps of sessions can lead to it, whatever scopes the sessions
hold beside it.  What holds of new catalogs and is kept by every operation holds of all of
them.  The first such property is the shape of the tree: a scope stands at the place that its
id names, its parent is an older scope, and what it has kept of its parent is what the
catalog says.

    Invariant P → Reachable c → P c                              (Invariant.of_reachable)
    Reachable c → IsForest c                                     (Reachable.isForest)

A scope can be made without a parent at any time, so there can be more roots than the top
scope.
-/

namespace ScopeTree

/-- A registry that was filled by declarations alone. -/
inductive TypeTable.Built : TypeTable → Prop
  | empty : Built .empty
  | addClass {t : TypeTable} (ht : Built t) (d : ClassDecl) : Built (t.addClass d)
  | addDefine {t : TypeTable} (ht : Built t) (d : DefineDecl) : Built (t.addDefine d)

/-- A step that begins anew has a built registry for it. -/
def Session.Step.Sound : Session.Step → Prop
  | .reset types => types.Built
  | _ => True

namespace Catalog

/-- A catalog that steps of sessions lead to.  Its own scopes are asked with it and with no other
catalog, as they have to be: a scope keeps the parent that it was told first, so whoever is asked
must go on giving the same one, as a catalog does for its scopes.  The scopes that a session holds
outside its catalog are arbitrary, and can stem from other catalogs.  The registry can be
exchanged. -/
inductive Reachable : Catalog → Prop
  | new {types : TypeTable} (ht : types.Built) : Reachable (.new types)
  | step {s : Session} (hs : Reachable s.catalog) {step : Session.Step} (hstep : step.Sound) :
      Reachable (s.run step).1.catalog
  | exchange {c : Catalog} (hc : Reachable c) {types : TypeTable} (ht : types.Built) :
      Reachable { c with types }

/-- What holds of every new catalog and is kept by all that can be done with one. -/
structure Invariant (P : Catalog → Prop) : Prop where
  new (types : TypeTable) : types.Built → P (.new types)
  exchange (c : Catalog) (types : TypeTable) : types.Built → P c → P { c with types }
  edit (c : Catalog) (id : ScopeId) (e : Edit) : P c → P (c.edit id e).1
  settleAt (c : Catalog) (id : ScopeId) : P c → P (c.settleAt id)
  newScope (c c' : Catalog) (parent : Option ScopeId) (o : ScopeOptions) (id : ScopeId) :
    c.newScope parent o = .ok (c', id) → P c → P c'
  registerClass (c c' : Catalog) (id : ScopeId) (d : ClassDecl) :
    c.registerClass id d = .ok c' → P c → P c'
  registerResource (c c' : Catalog) (id : ScopeId) (r r' : Resource) :
    c.registerResource id r = .ok (c', r') → P c → P c'
  storeResource (c : Catalog) (id : ScopeId) (r : Resource) : P c → P (c.storeResource id r).1
  registerOverride (c : Catalog) (r : Resource) : P c → P (c.registerOverride r)
  setClassScope (c : Catalog) (className : String) (id : ScopeId) :
    P c → P (c.setClassScope className id)
  addClass (c : Catalog) (d : ClassDecl) : P c → P (c.addClass d)
  addDefine (c : Catalog) (d : DefineDecl) : P c → P (c.addDefine d)

/-- The scopes form a forest in which every parent is older than its children. -/
structure IsForest (c : Catalog) : Prop where
  /-- There is a scope. -/
  count_pos : 0 < c.count
  /-- A scope stands where its id says. -/
  id_eq : ∀ i h, c.handle? i = some h → h.scope.id = i
  /-- Only scopes have parents, and a parent is an older scope. -/
  parent_lt : ∀ i p, c.parentOf i = some p → i.index < c.count ∧ p.index < i.index
  /-- What a scope has kept of its parent is what the catalog says. -/
  link_eq : ∀ i h, c.handle? i = some h → h.link = .unasked ∨ h.link = .settled (c.parentOf i)

/-! ## What an operation can do -/

theorem parentLevel_eq_ok {c : Catalog} {parent : Option ScopeId} {level : Option UInt32}
    (h : c.parentLevel parent = .ok level) : ∀ p ∈ parent, p.index < c.count := by
  intro p hp
  rw [← scope?_isSome_iff]
  exact (parentLevel_eq_ok_iff c parent).1 ⟨level, h⟩ p hp

theorem edit_eq_some {c c' : Catalog} {id : ScopeId} {e : Edit} {a : e.Answer}
    (h : c.edit id e = (c', some a)) :
    ∃ s, c.scope? id = some s ∧ (e.run s).2 = a ∧ c' = c.modifyScope id fun s => (e.run s).1 := by
  unfold edit at h
  split at h
  · next s hs =>
    obtain ⟨hc', ha⟩ := Prod.mk.inj h
    exact ⟨s, hs, Option.some.inj ha, hc'.symm⟩
  · cases h

theorem newScope_eq_ok {c c' : Catalog} {parent : Option ScopeId} {o : ScopeOptions}
    {id : ScopeId} (h : c.newScope parent o = .ok (c', id)) :
    ∃ level, c.parentLevel (parent.or o.parent) = .ok level ∧
      (o.top && (parent.or o.parent).isSome) = false ∧ c.count < ScopeId.limit ∧
      c' = c.push (Scope.make ⟨c.count⟩ o level) (parent.or o.parent) ∧ id = ⟨c.count⟩ := by
  unfold newScope at h
  dsimp only at h
  split at h
  · cases h
  · next ht =>
    split at h
    · cases h
    · next level hl =>
      split at h
      · next hc =>
        cases h
        exact ⟨level, hl, Bool.eq_false_iff.2 ht, hc, rfl, rfl⟩
      · cases h

theorem childScope_eq (c : Catalog) (parent : ScopeId) (o : ScopeOptions) :
    c.childScope parent o =
      if (c.scope? parent).isSome then c.newScope (some parent) o
      else .error (.internal (.missingScope parent)) := by
  unfold childScope
  cases c.scope? parent <;> rfl

theorem childScope_eq_ok {c : Catalog} {parent : ScopeId} {o : ScopeOptions}
    {r : Catalog × ScopeId} (h : c.childScope parent o = .ok r) :
    c.newScope (some parent) o = .ok r := by
  unfold childScope at h
  split at h
  · cases h
  · exact h

theorem registerClass_eq_ok {c c' : Catalog} {id : ScopeId} {d : ClassDecl}
    (h : c.registerClass id d = .ok c') :
    d.name ≠ "" ∧ id.index < c.count ∧
      c' = (c.modifyScope id fun s => { s with kind := s.kind.registered d }).setClassScope
        d.name id := by
  unfold registerClass at h
  split at h
  · cases h
  · next hn =>
    split at h
    · cases h
    · next s hs =>
      cases h
      exact ⟨hn, index_lt_of_scope? hs, rfl⟩

theorem registerResource_eq_ok {c c' : Catalog} {id : ScopeId} {r r' : Resource}
    (h : c.registerResource id r = .ok (c', r')) :
    ∃ s, c.scope? id = some s ∧ r' = s.stamp r ∧
      c' = { c with resources := c.resources.declare id (s.stamp r) } := by
  unfold registerResource at h
  split at h
  · cases h
  · next s hs =>
    cases h
    exact ⟨s, hs, rfl, rfl⟩

/-! ## Invariants hold of reachable catalogs -/

namespace Invariant

variable {P : Catalog → Prop}

theorem settleAll (hP : Invariant P) {c : Catalog} (hc : P c) (ids : List ScopeId) :
    P (c.settleAll ids) := by
  induction ids generalizing c with
  | nil => exact hc
  | cons id ids ih =>
    show P ((c.settleAt id).settleAll ids)
    exact ih (hP.settleAt c id hc)

/-- A failed operation changes nothing, so only the others count. -/
theorem orUnchanged {α : Type} {c : Catalog} (hc : P c) {r : Except ScopeError (Catalog × α)}
    (hr : ∀ c' a, r = .ok (c', a) → P c') : P (Command.orUnchanged c r).1 := by
  cases r with
  | error e => exact hc
  | ok p => exact hr p.1 p.2 rfl

theorem run_command (hP : Invariant P) {c : Catalog} (hc : P c) (cmd : Command) :
    P (cmd.run c).1 := by
  cases cmd with
  | edit id e => exact hP.edit c id e hc
  | ask id q =>
    simp only [Command.run]
    split
    · exact hc
    · exact hP.settleAll hc _
  | newScope parent o =>
    exact orUnchanged hc fun c' id h => hP.newScope c c' parent o id h hc
  | childScope parent o =>
    exact orUnchanged hc fun c' id h =>
      hP.newScope c c' (some parent) o id (childScope_eq_ok h) hc
  | registerClass id d =>
    refine orUnchanged hc fun c' a h => ?_
    cases hr : c.registerClass id d with
    | error e => rw [hr] at h; cases h
    | ok c'' =>
      rw [hr] at h
      cases h
      exact hP.registerClass c _ id d hr hc
  | registerResource id r =>
    exact orUnchanged hc fun c' r' h => hP.registerResource c c' id r r' h hc
  | storeResource id r => exact hP.storeResource c id r hc
  | registerOverride r => exact hP.registerOverride c r hc
  | setClassScope className id => exact hP.setClassScope c className id hc
  | addClass d => exact hP.addClass c d hc
  | addDefine d => exact hP.addDefine c d hc

/-- Scopes outside the catalog can make scopes inside ask for their parents, and no more. -/
theorem run_step (hP : Invariant P) {s : Session} (hs : P s.catalog) {step : Session.Step}
    (hstep : step.Sound) : P (s.run step).1.catalog := by
  cases step with
  | command cmd => exact hP.run_command hs cmd
  | edit n e =>
    simp only [Session.run]
    split <;> exact hs
  | ask n q =>
    simp only [Session.run]
    split
    · exact hs
    · exact hP.settleAll hs _
  | make id o parentLevel => exact hs
  | copy t =>
    simp only [Session.run]
    split <;> exact hs
  | reset types => exact hP.new types hstep

theorem of_reachable (hP : Invariant P) {c : Catalog} (hc : Reachable c) : P c := by
  induction hc with
  | new ht => exact hP.new _ ht
  | step _ hstep ih => exact hP.run_step ih hstep
  | exchange _ ht ih => exact hP.exchange _ _ ht ih

end Invariant

theorem Reachable.runAll {c : Catalog} (hc : Reachable c) (cmds : List Command) :
    Reachable (Command.runAll c cmds) := by
  induction cmds generalizing c with
  | nil => exact hc
  | cons cmd cmds ih =>
    have hstep : Reachable (({ catalog := c } : Session).run (.command cmd)).1.catalog :=
      .step hc trivial
    exact ih hstep

/-- A small catalog.  A scope with the next id as its parent was refused; then came a scope
under the top scope, in which the class `web` is evaluated, and one under that, which has asked
for its root.  The scope recorded for the class `Ghost` does not exist. -/
def sample : Catalog :=
  let types := (TypeTable.empty.addClass ⟨"Web", .ordinary⟩).addClass ⟨"Ghost", .ordinary⟩
  Command.runAll (.new types)
    [.edit top (.bind "x" (.str "$y") .unknown),
     .newScope none { parent := some ⟨1⟩ },
     .childScope top {},
     .edit ⟨1⟩ (.bind "x" .undef .unknown),
     .registerClass ⟨1⟩ ⟨"web", .ordinary⟩,
     .setClassScope "ghost" ⟨9⟩,
     .childScope ⟨1⟩ {},
     .ask ⟨2⟩ .topScope]

theorem reachable_sample : Reachable sample :=
  Reachable.runAll (.new (.addClass (.addClass .empty _) _)) _

/-! ## The forest is kept -/

namespace IsForest

/-- Whether a catalog is a forest is a matter of its scopes alone. -/
theorem of_nodes_eq {c c' : Catalog} (hc : IsForest c) (hn : c'.nodes = c.nodes) :
    IsForest c' := by
  have hh : ∀ i, c'.handle? i = c.handle? i := fun i => by simp only [handle?, hn]
  have hp : ∀ i, c'.parentOf i = c.parentOf i := fun i => by simp only [parentOf, hn]
  have hs : c'.count = c.count := by simp only [count, hn]
  constructor
  case count_pos =>
    rw [hs]
    exact hc.count_pos
  case id_eq =>
    intro i h hi
    rw [hh] at hi
    exact hc.id_eq i h hi
  case parent_lt =>
    intro i p hi
    rw [hp] at hi
    rw [hs]
    exact hc.parent_lt i p hi
  case link_eq =>
    intro i h hi
    rw [hh] at hi
    rw [hp]
    exact hc.link_eq i h hi

theorem new (types : TypeTable) : IsForest (.new types) := by
  have handle : ∀ i h, (Catalog.new types).handle? i = some h →
      i = top ∧ h = ⟨Scope.make top topOptions none, .unasked⟩ := by
    rintro ⟨_ | i⟩ h hi
    · cases hi
      exact ⟨rfl, rfl⟩
    · cases hi
  constructor
  case count_pos => exact Nat.one_pos
  case id_eq =>
    intro i h hi
    obtain ⟨rfl, rfl⟩ := handle i h hi
    rfl
  case parent_lt =>
    intro i p hi
    obtain ⟨_ | i⟩ := i <;> cases hi
  case link_eq =>
    intro i h hi
    obtain ⟨rfl, rfl⟩ := handle i h hi
    exact Or.inl rfl

theorem modifyScope {c : Catalog} (hc : IsForest c) (id : ScopeId) {f : Scope → Scope}
    (hf : ∀ s, (f s).id = s.id) : IsForest (c.modifyScope id f) := by
  have same : ∀ i h, (c.modifyScope id f).handle? i = some h →
      ∃ g, c.handle? i = some g ∧ h.scope.id = g.scope.id ∧ h.link = g.link := by
    intro i h hi
    rw [handle?_modifyScope] at hi
    split at hi
    · obtain ⟨g, hg, rfl⟩ := Option.map_eq_some_iff.1 hi
      exact ⟨g, hg, hf g.scope, rfl⟩
    · exact ⟨h, hi, rfl, rfl⟩
  constructor
  case count_pos =>
    rw [count_modifyScope]
    exact hc.count_pos
  case id_eq =>
    intro i h hi
    obtain ⟨g, hg, hid, -⟩ := same i h hi
    rw [hid]
    exact hc.id_eq i g hg
  case parent_lt =>
    intro i p hi
    rw [parentOf_modifyScope] at hi
    rw [count_modifyScope]
    exact hc.parent_lt i p hi
  case link_eq =>
    intro i h hi
    obtain ⟨g, hg, -, hl⟩ := same i h hi
    rw [hl, parentOf_modifyScope]
    exact hc.link_eq i g hg

/-- A scope that asks for its parent keeps the catalog's answer. -/
theorem settleAt {c : Catalog} (hc : IsForest c) (id : ScopeId) : IsForest (c.settleAt id) := by
  have hs : (c.settleAt id).count = c.count := by simp [count, Catalog.settleAt]
  -- all that can differ is the link, and only by what the catalog gives
  have same : ∀ i h, (c.settleAt id).handle? i = some h → ∃ g, c.handle? i = some g ∧
      h.scope.id = g.scope.id ∧ (h.link = g.link ∨ h.link = g.link.settle (c.parentOf i)) := by
    intro i h hi
    rw [handle?_settleAt] at hi
    split at hi
    · obtain ⟨g, hg, rfl⟩ := Option.map_eq_some_iff.1 hi
      exact ⟨g, hg, rfl, Or.inr rfl⟩
    · exact ⟨h, hi, rfl, Or.inl rfl⟩
  constructor
  case count_pos =>
    rw [hs]
    exact hc.count_pos
  case id_eq =>
    intro i h hi
    obtain ⟨g, hg, hid, -⟩ := same i h hi
    rw [hid]
    exact hc.id_eq i g hg
  case parent_lt =>
    intro i p hi
    rw [parentOf_settleAt] at hi
    rw [hs]
    exact hc.parent_lt i p hi
  case link_eq =>
    intro i h hi
    obtain ⟨g, hg, -, hl⟩ := same i h hi
    rw [parentOf_settleAt]
    rcases hl with hl | hl
    · rw [hl]
      exact hc.link_eq i g hg
    · right
      rw [hl]
      rcases hc.link_eq i g hg with hg | hg <;> rw [hg] <;> rfl

/-- Nobody can have asked for the parent of a scope before there is the scope, so a parent
given to the next id contradicts no answer. -/
theorem push {c : Catalog} (hc : IsForest c) {s : Scope} (hs : s.id = ⟨c.count⟩)
    {parent : Option ScopeId} (hp : ∀ p ∈ parent, p.index < c.count) :
    IsForest (c.push s parent) := by
  constructor
  case count_pos =>
    rw [count_push]
    omega
  case id_eq =>
    intro i h hi
    rw [handle?_push] at hi
    split at hi
    · next hn =>
      cases hi
      obtain ⟨i⟩ := i
      rw [hs]
      exact congrArg ScopeId.mk hn.symm
    · exact hc.id_eq i h hi
  case parent_lt =>
    intro i p hi
    rw [parentOf_push] at hi
    rw [count_push]
    split at hi
    · next hn =>
      have := hp p hi
      omega
    · have := hc.parent_lt i p hi
      omega
  case link_eq =>
    intro i h hi
    rw [handle?_push] at hi
    rw [parentOf_push]
    split at hi
    · cases hi
      exact Or.inl rfl
    · next hn =>
      rw [if_neg hn]
      exact hc.link_eq i h hi

theorem newScope {c c' : Catalog} {parent : Option ScopeId} {o : ScopeOptions} {id : ScopeId}
    (h : c.newScope parent o = .ok (c', id)) (hc : IsForest c) : IsForest c' := by
  obtain ⟨level, hl, -, -, rfl, -⟩ := newScope_eq_ok h
  exact hc.push rfl (parentLevel_eq_ok hl)

theorem edit {c : Catalog} (hc : IsForest c) (id : ScopeId) (e : Edit) :
    IsForest (c.edit id e).1 := by
  unfold Catalog.edit
  split
  · exact hc.modifyScope id fun s => Edit.run_id s e
  · exact hc

theorem invariant : Invariant IsForest where
  new types _ := IsForest.new types
  exchange _ _ _ hc := hc.of_nodes_eq rfl
  edit _ id e hc := hc.edit id e
  settleAt _ id hc := hc.settleAt id
  newScope _ _ _ _ _ h hc := hc.newScope h
  registerClass _ _ id d h hc := by
    obtain ⟨-, -, rfl⟩ := registerClass_eq_ok h
    have hm := hc.modifyScope id (f := fun s => { s with kind := s.kind.registered d }) fun _ => rfl
    exact hm.of_nodes_eq rfl
  registerResource _ _ _ _ _ h hc := by
    obtain ⟨s, -, -, rfl⟩ := registerResource_eq_ok h
    exact hc.of_nodes_eq rfl
  storeResource _ _ _ hc := hc.of_nodes_eq rfl
  registerOverride _ _ hc := hc.of_nodes_eq rfl
  setClassScope _ _ _ hc := hc.of_nodes_eq rfl
  addClass _ _ hc := hc.of_nodes_eq rfl
  addDefine _ _ hc := hc.of_nodes_eq rfl

/-! ## What the forest gives -/

variable {c : Catalog} {i : ScopeId} {h : Handle}

/-- The first scope is a root: nothing is older. -/
theorem parentOf_top (hc : IsForest c) : c.parentOf top = none := by
  cases hp : c.parentOf top with
  | none => rfl
  | some p => exact absurd (hc.parent_lt top p hp).2 (Nat.not_lt_zero _)

theorem exists_handle_of_parentOf (hc : IsForest c) {p : ScopeId} (hp : c.parentOf i = some p) :
    ∃ up, c.handle? p = some up := by
  have := hc.parent_lt i p hp
  exact exists_handle?_of_index_lt (by omega)

/-- A scope of the catalog has the parent that the catalog gives it, whether it has asked
before or not. -/
theorem parentId_eq (hc : IsForest c) (hi : c.handle? i = some h) :
    c.parentId h = c.parentOf i := by
  unfold parentId
  rcases hc.link_eq i h hi with hl | hl <;> rw [hl]
  · rw [hc.id_eq i h hi]
    rfl
  · rfl

end IsForest

/-- However a catalog was come to, it is a forest. -/
theorem Reachable.isForest {c : Catalog} (hc : Reachable c) : IsForest c :=
  IsForest.invariant.of_reachable hc

end Catalog

end ScopeTree
