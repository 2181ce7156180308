import ScopeTree.Proofs.Qualified

/-!
# Scopes that keep nothing

What a scope has kept of its parent can be taken from it.  A catalog in which every scope has
forgotten what it was told asks anew at every step, since nothing else in it says who a parent
is.  Answers are the same as before, as long as what was kept is what the catalog would say.

    parentId c.forget h.forget = parentOf c h.scope.id           (parentId_forget)
    q.answer c.forget h.forget = q.answer c h                    (answer_forget)

What is done to a catalog does not depend on what its scopes have kept, so it can be done
before or after they forget.

    (cmd.run c.forget).1.forget = (cmd.run c).1.forget           (forget_run_command)
-/

namespace ScopeTree

/-- The scope, as if it had never asked for its parent. -/
def Handle.forget (h : Handle) : Handle := { h with link := .unasked }

@[simp] theorem Handle.scope_forget (h : Handle) : h.forget.scope = h.scope := rfl

namespace Climb

def Stop.forget {α : Type} : Stop α → Stop α
  | found h a => found h.forget a
  | root => root
  | lost child parent => lost child.forget parent
  | endless child => endless child.forget

/-- A climb by scopes that have forgotten. -/
def forget {α : Type} (a : Climb α) : Climb α := ⟨a.passed.map Handle.forget, a.stop.forget⟩

end Climb

namespace Catalog

/-- The catalog, as if none of its scopes had ever asked. -/
def forget (c : Catalog) : Catalog :=
  { c with nodes := c.nodes.map fun n => { n with handle := n.handle.forget } }

/-- The scope takes for its parent what the catalog says. -/
def Truthful (c : Catalog) (h : Handle) : Prop := c.parentId h = c.parentOf h.scope.id

/-! ## Reading -/

@[simp] theorem handle?_forget (c : Catalog) (i : ScopeId) :
    c.forget.handle? i = (c.handle? i).map Handle.forget := by
  simp [handle?, forget, Function.comp_def]

@[simp] theorem scope?_forget (c : Catalog) (i : ScopeId) : c.forget.scope? i = c.scope? i := by
  rw [scope?, scope?, handle?_forget, Option.map_map]
  rfl

@[simp] theorem parentOf_forget (c : Catalog) (i : ScopeId) :
    c.forget.parentOf i = c.parentOf i := by
  rw [parentOf, parentOf, forget, Array.getElem?_map, Option.bind_map]
  rfl

@[simp] theorem count_forget (c : Catalog) : c.forget.count = c.count := by
  simp [count, forget]

@[simp] theorem forget_forget (c : Catalog) : c.forget.forget = c.forget := by
  simp [forget, Handle.forget, Function.comp_def]

theorem parentId_forget (c : Catalog) (h : Handle) :
    c.forget.parentId h.forget = c.parentOf h.scope.id :=
  parentOf_forget c h.scope.id

/-- A truthful scope is told again what it has kept. -/
theorem Truthful.parentId_forget {c : Catalog} {h : Handle} (hh : c.Truthful h) :
    c.forget.parentId h.forget = c.parentId h :=
  (Catalog.parentId_forget c h).trans hh.symm

theorem parentScope_forget {c : Catalog} {h : Handle} (hh : c.Truthful h) :
    c.forget.parentScope h.forget = (c.parentScope h).map (Option.map Handle.forget) := by
  unfold parentScope
  rw [hh.parentId_forget]
  cases c.parentId h with
  | none => rfl
  | some p =>
    simp only [handle?_forget]
    cases c.handle? p <;> rfl

theorem classOrigin_forget (c : Catalog) (s : Scope) (qualifier name : String) :
    c.forget.classOrigin s qualifier name =
      (c.classOrigin s qualifier name).map Handle.forget := by
  have htypes : c.forget.types = c.types := rfl
  have hclass : ∀ name, c.forget.classScope? name = c.classScope? name := fun _ => rfl
  unfold classOrigin
  rw [htypes]
  cases s.findClass? c.types qualifier with
  | none => rfl
  | some decl =>
    simp only [hclass]
    cases c.classScope? decl.name with
    | none => rfl
    | some id =>
      simp only [handle?_forget]
      cases c.handle? id <;> rfl

/-! ## Climbing -/

section Climbing

variable {c : Catalog} (hc : ∀ i g, c.handle? i = some g → c.Truthful g)
include hc

theorem climbWithin_forget {α : Type} (find : Scope → Option α) (fuel : Nat) {h : Handle}
    (hh : c.Truthful h) :
    c.forget.climbWithin find fuel h.forget = (c.climbWithin find fuel h).forget := by
  -- the parent asked for is the same at every step, so the climbs keep pace
  induction fuel generalizing h with
  | zero =>
    rw [climbWithin, climbWithin, hh.parentId_forget, Handle.scope_forget]
    cases find h.scope with
    | some a => rfl
    | none =>
      cases c.parentId h with
      | none => rfl
      | some p =>
        simp only [handle?_forget]
        cases c.handle? p <;> rfl
  | succ fuel ih =>
    rw [climbWithin, climbWithin, hh.parentId_forget, Handle.scope_forget]
    cases find h.scope with
    | some a => rfl
    | none =>
      cases c.parentId h with
      | none => rfl
      | some p =>
        simp only [handle?_forget]
        cases hp : c.handle? p with
        | none => rfl
        | some up =>
          simp only [Option.map_some, ih (hc p up hp)]
          rfl

theorem truthful_of_mem_passed {α : Type} (find : Scope → Option α) (fuel : Nat) {h : Handle}
    (hh : c.Truthful h) : ∀ g ∈ (c.climbWithin find fuel h).passed, c.Truthful g := by
  induction fuel generalizing h with
  | zero =>
    rw [climbWithin]
    split
    · simp
    · split
      · simpa using hh
      · split <;> simpa using hh
  | succ fuel ih =>
    rw [climbWithin]
    split
    · simp
    · split
      · simpa using hh
      · split
        · simpa using hh
        · next up hp =>
          intro g hg
          rcases List.mem_cons.1 hg with rfl | hg
          · exact hh
          · exact ih (hc _ up hp) g hg

theorem chain_forget {h : Handle} (hh : c.Truthful h) :
    c.forget.chain h.forget = (c.chain h).map (List.map Handle.forget) := by
  unfold chain climbAll climb
  rw [count_forget, climbWithin_forget hc _ _ hh]
  generalize c.climbWithin (fun _ => (none : Option Empty)) c.count h = above
  obtain ⟨passed, stop⟩ := above
  cases stop with
  | found g a => exact a.elim
  | root => rfl
  | lost child parent => rfl
  | endless child => rfl

theorem truthful_of_mem_chain {h : Handle} (hh : c.Truthful h) {hs : List Handle}
    (hchain : c.chain h = .ok hs) : ∀ g ∈ hs, c.Truthful g := by
  unfold chain at hchain
  dsimp only at hchain
  split at hchain
  · cases hchain
    exact truthful_of_mem_passed hc _ _ hh
  · cases hchain
  · cases hchain

theorem topScope_forget {h : Handle} (hh : c.Truthful h) :
    c.forget.topScope h.forget = (c.topScope h).map Handle.forget := by
  unfold topScope
  rw [chain_forget hc hh]
  cases c.chain h with
  | error e => rfl
  | ok hs =>
    show Except.ok ((hs.map Handle.forget).getLastD h.forget) = .ok (hs.getLastD h).forget
    rw [List.getLastD_eq_getLast?, List.getLastD_eq_getLast?, List.getLast?_map]
    cases hs.getLast? <;> rfl

/-! ## Looking up -/

theorem lookupFrom_forget (mode : LookupMode) (name : String) {h : Handle}
    (hh : c.Truthful h) : c.forget.lookupFrom h.forget mode name = c.lookupFrom h mode name := by
  unfold lookupFrom climbToBinding climb
  rw [count_forget, climbWithin_forget hc _ _ hh]
  generalize c.climbWithin (·.bindings.value? name) c.count h = above
  obtain ⟨passed, stop⟩ := above
  cases stop <;> rfl

theorem jumpTarget_forget {h : Handle} (hh : c.Truthful h) (qualifier name : String) :
    c.forget.jumpTarget h.forget qualifier name =
      (c.jumpTarget h qualifier name).map Handle.forget := by
  unfold jumpTarget
  split
  · exact topScope_forget hc hh
  · exact classOrigin_forget c h.scope qualifier name

/-- A lookup jumps to a scope of the catalog or to the scope itself. -/
theorem truthful_of_jumpTarget {h g : Handle} (hh : c.Truthful h) {qualifier name : String}
    (ht : c.jumpTarget h qualifier name = .ok g) : c.Truthful g := by
  unfold jumpTarget at ht
  split at ht
  · unfold topScope at ht
    cases hchain : c.chain h with
    | error e =>
      rw [hchain] at ht
      cases ht
    | ok hs =>
      rw [hchain] at ht
      cases ht
      show c.Truthful (hs.getLastD h)
      rw [List.getLastD_eq_getLast?]
      cases hlast : hs.getLast? with
      | none => exact hh
      | some g =>
        exact truthful_of_mem_chain hc hh hchain g (List.mem_of_getLast? hlast)
  · unfold classOrigin at ht
    split at ht
    · cases ht
    · split at ht
      · cases ht
      · split at ht
        · cases ht
        · next hg =>
          cases ht
          exact hc _ _ hg

theorem lookup_forget (mode : LookupMode) (name : String) {h : Handle} (hh : c.Truthful h) :
    c.forget.lookup h.forget mode name = c.lookup h mode name := by
  cases hn : splitName? name with
  | none =>
    rw [lookup_of_plain _ _ mode hn, lookup_of_plain _ _ mode hn]
    exact lookupFrom_forget hc mode name hh
  | some parts =>
    obtain ⟨q, s⟩ := parts
    rw [lookup_of_splitName? _ _ mode hn, lookup_of_splitName? _ _ mode hn,
      jumpTarget_forget hc hh]
    cases ht : c.jumpTarget h q name with
    | error e => rfl
    | ok g =>
      have hplain := splitName?_short hn
      show c.forget.lookup g.forget mode s = c.lookup g mode s
      rw [lookup_of_plain _ _ mode hplain, lookup_of_plain _ _ mode hplain]
      exact lookupFrom_forget hc mode s (truthful_of_jumpTarget hc hh ht)

/-! ## Answers -/

theorem answer_forget (q : Query) {h : Handle} (hh : c.Truthful h) :
    q.answer c.forget h.forget = q.answer c h := by
  have hstring : c.forget.lookupString h.forget = c.lookupString h := by
    funext name
    rw [lookupString, lookupString, lookup_forget hc .asString name hh]
  have hchain := chain_forget hc hh
  cases q with
  | parentId => exact hh.parentId_forget
  | parentScope =>
    show (c.forget.parentScope h.forget).map _ = (c.parentScope h).map _
    rw [parentScope_forget hh]
    cases c.parentScope h with
    | error e => rfl
    | ok up => cases up <;> rfl
  | topScope =>
    show (c.forget.topScope h.forget).map _ = (c.topScope h).map _
    rw [topScope_forget hc hh]
    cases c.topScope h <;> rfl
  | lookup name mode => exact lookup_forget hc mode name hh
  | lookupString name => exact congrFun hstring name
  | interpolate text location =>
    -- interpolation sees the catalog through string lookups only
    show Interpolation.evaluate (c.forget.lookupString h.forget) text location = _
    rw [hstring]
    rfl
  | visibleVariables recursive =>
    cases recursive with
    | true =>
      show (c.forget.chain h.forget).map layVariables = (c.chain h).map layVariables
      rw [hchain]
      cases c.chain h with
      | error e => rfl
      | ok hs => exact congrArg Except.ok (List.foldr_map ..)
    | false =>
      show (c.forget.parentScope h.forget).map _ = (c.parentScope h).map _
      rw [parentScope_forget hh]
      cases c.parentScope h <;> rfl
  | collectDefaults typeName =>
    show (c.forget.chain h.forget).map (layDefaults typeName) =
      (c.chain h).map (layDefaults typeName)
    rw [hchain]
    cases c.chain h with
    | error e => rfl
    | ok hs => exact congrArg Except.ok (List.foldr_map ..)
  | effectiveTags =>
    show (c.forget.chain h.forget).map _ = (c.chain h).map _
    rw [hchain]
    cases c.chain h with
    | error e => rfl
    | ok hs =>
      have hjoin : joinTags (hs.map Handle.forget) = joinTags hs := List.foldr_map ..
      show Except.ok (joinTags (hs.map Handle.forget)).toList = _
      rw [hjoin]
      rfl

end Climbing

/-! ## Changing -/

theorem modifyScope_forget (c : Catalog) (id : ScopeId) (f : Scope → Scope) :
    c.forget.modifyScope id f = (c.modifyScope id f).forget := by
  have hnodes : (c.forget.modifyScope id f).nodes = (c.modifyScope id f).forget.nodes := by
    apply Array.ext_getElem?
    intro n
    simp only [modifyScope, forget, Array.getElem?_modify, Array.getElem?_map]
    split <;> cases c.nodes[n]? <;> rfl
  simp only [modifyScope, forget] at hnodes ⊢
  rw [hnodes]

theorem push_forget (c : Catalog) (s : Scope) (parent : Option ScopeId) :
    c.forget.push s parent = (c.push s parent).forget := by
  simp [push, forget, Handle.forget]

theorem forget_settleAt (c : Catalog) (id : ScopeId) : (c.settleAt id).forget = c.forget := by
  have hnodes : (c.settleAt id).forget.nodes = c.forget.nodes := by
    apply Array.ext_getElem?
    intro n
    simp only [settleAt, forget, Array.getElem?_modify, Array.getElem?_map]
    split <;> cases c.nodes[n]? <;> rfl
  simp only [settleAt, forget] at hnodes ⊢
  rw [hnodes]

/-- What scopes have been told is forgotten again. -/
theorem forget_settleAll (c : Catalog) (ids : List ScopeId) :
    (c.settleAll ids).forget = c.forget := by
  induction ids generalizing c with
  | nil => rfl
  | cons id ids ih => exact (ih (c.settleAt id)).trans (forget_settleAt c id)

theorem edit_forget (c : Catalog) (id : ScopeId) (e : Edit) :
    (c.forget.edit id e).1 = (c.edit id e).1.forget := by
  unfold edit
  rw [scope?_forget]
  cases c.scope? id with
  | none => rfl
  | some s =>
    dsimp only
    exact modifyScope_forget ..

theorem parentLevel_forget (c : Catalog) (parent : Option ScopeId) :
    c.forget.parentLevel parent = c.parentLevel parent := by
  cases parent with
  | none => rfl
  | some id => rw [parentLevel, parentLevel, scope?_forget]

theorem newScope_forget (c : Catalog) (parent : Option ScopeId) (o : ScopeOptions) :
    c.forget.newScope parent o = (c.newScope parent o).map fun (c', id) => (c'.forget, id) := by
  unfold newScope
  dsimp only
  rw [parentLevel_forget, count_forget]
  split
  · rfl
  · cases c.parentLevel (parent.or o.parent) with
    | error e => rfl
    | ok level =>
      dsimp only
      split
      · rw [push_forget]
        rfl
      · rfl

theorem childScope_forget (c : Catalog) (parent : ScopeId) (o : ScopeOptions) :
    c.forget.childScope parent o =
      (c.childScope parent o).map fun (c', id) => (c'.forget, id) := by
  unfold childScope
  rw [scope?_forget]
  cases c.scope? parent with
  | none => rfl
  | some s => exact newScope_forget ..

theorem registerClass_forget (c : Catalog) (id : ScopeId) (d : ClassDecl) :
    c.forget.registerClass id d = (c.registerClass id d).map forget := by
  unfold registerClass
  rw [scope?_forget]
  split
  · rfl
  · cases c.scope? id with
    | none => rfl
    | some s =>
      show Except.ok ((c.forget.modifyScope id _).setClassScope d.name id) = _
      rw [modifyScope_forget]
      rfl

theorem registerResource_forget (c : Catalog) (id : ScopeId) (r : Resource) :
    c.forget.registerResource id r =
      (c.registerResource id r).map fun (c', r') => (c'.forget, r') := by
  unfold registerResource
  rw [scope?_forget]
  cases c.scope? id <;> rfl

/-- Whether the scopes forget before or after an operation, it has the same effect, and it
fails in the same cases. -/
theorem orUnchanged_forget {α : Type} (c : Catalog) (r : Except ScopeError (Catalog × α)) :
    (Command.orUnchanged c.forget (r.map fun (c', a) => (c'.forget, a))).1 =
      (Command.orUnchanged c r).1.forget := by
  cases r <;> rfl

theorem forget_run_ask (c : Catalog) (id : ScopeId) (q : Query) :
    (Command.run c (.ask id q)).1.forget = c.forget := by
  simp only [Command.run]
  split
  · rfl
  · exact forget_settleAll ..

/-- A command does the same to scopes that have forgotten. -/
theorem forget_run_command (c : Catalog) (cmd : Command) :
    (cmd.run c.forget).1.forget = (cmd.run c).1.forget := by
  cases cmd with
  | edit id e =>
    show (c.forget.edit id e).1.forget = (c.edit id e).1.forget
    rw [edit_forget, forget_forget]
  | ask id q => rw [forget_run_ask, forget_run_ask, forget_forget]
  | newScope parent o =>
    show (Command.orUnchanged _ (c.forget.newScope parent o)).1.forget = _
    rw [newScope_forget, orUnchanged_forget, forget_forget]
    rfl
  | childScope parent o =>
    show (Command.orUnchanged _ (c.forget.childScope parent o)).1.forget = _
    rw [childScope_forget, orUnchanged_forget, forget_forget]
    rfl
  | registerClass id d =>
    show (Command.orUnchanged _ ((c.forget.registerClass id d).map (·, ()))).1.forget =
      (Command.orUnchanged c ((c.registerClass id d).map (·, ()))).1.forget
    rw [registerClass_forget]
    cases c.registerClass id d with
    | error e => exact forget_forget c
    | ok c' => exact forget_forget c'
  | registerResource id r =>
    show (Command.orUnchanged _ (c.forget.registerResource id r)).1.forget = _
    rw [registerResource_forget, orUnchanged_forget, forget_forget]
    rfl
  | storeResource id r => exact forget_forget (c.storeResource id r).1
  | registerOverride r => exact forget_forget (c.registerOverride r)
  | setClassScope className id => exact forget_forget (c.setClassScope className id)
  | addClass d => exact forget_forget (c.addClass d)
  | addDefine d => exact forget_forget (c.addDefine d)

end Catalog

end ScopeTree
