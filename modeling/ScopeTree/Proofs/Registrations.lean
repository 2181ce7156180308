import ScopeTree.Proofs.Registry

/-!
# Registering classes

To register a class for a scope does two things: the scope becomes the evaluation of a class, or
of a node body, and it is recorded for the name of the class.  A node body stays one, whatever else
is registered for the scope, so the kind of a scope does not depend on the order of registrations.
What is recorded for a name does: the last one counts, under any spelling.

    s.kind = kindOf registrations i                              (registered_runAll)
    classScope? name = (lastNamed Prod.fst recordings (foldedName name)).map Prod.snd
                                                                 (classScopes_runAll)
    no turn records a scope directly → classScope? name = some i → i.index < count
                                                                 (classScope_lt_of_registered)

A scope that is recorded directly need not exist.  It is only in catalogs without such recordings
that a variable of a class is looked up without an internal error in any case.
-/

namespace ScopeTree.Catalog

/-! ## Specification -/

/-- The registration that a turn makes, if it does not fail. -/
def Turn.registered? (c : Catalog) : Turn → Option (ScopeId × ClassDecl)
  | command (.registerClass id d) => (c.registerClass id d).toOption.map fun _ => (id, d)
  | _ => none

/-- The name for which a turn records a scope, and that scope: as part of a registration, or
directly. -/
def Turn.recorded? (c : Catalog) : Turn → Option (String × ScopeId)
  | command (.setClassScope className id) => some (className, id)
  | t => (t.registered? c).map fun r => (r.2.name, r.1)

def classesFor (registrations : List (ScopeId × ClassDecl)) (i : ScopeId) : List ClassDecl :=
  (registrations.filter fun r => r.1 = i).map (·.2)

/-- The kind of a scope for which these classes were registered. -/
def kindOf (ds : List ClassDecl) : ScopeKind :=
  if ds.any (·.isNode) then .ofNode else if ds = [] then .ordinary else .ofClass

/-! ## Kinds -/

theorem mem_classesFor {registrations : List (ScopeId × ClassDecl)} {i : ScopeId} {d : ClassDecl} :
    d ∈ classesFor registrations i ↔ (i, d) ∈ registrations := by
  simp [classesFor]

theorem classesFor_concat (registrations : List (ScopeId × ClassDecl)) (id i : ScopeId)
    (d : ClassDecl) :
    classesFor (registrations ++ [(id, d)]) i =
      if id = i then classesFor registrations i ++ [d] else classesFor registrations i := by
  unfold classesFor
  rw [List.filter_append, List.map_append]
  by_cases hid : id = i
  · simp [hid]
  · simp [hid]

theorem kindOf_eq_ofNode_iff {ds : List ClassDecl} :
    kindOf ds = .ofNode ↔ ∃ d ∈ ds, d.isNode = true := by
  rw [← List.any_eq_true, kindOf]
  split
  · next h => simp [h]
  · next h => split <;> simp [h]

theorem kindOf_eq_ordinary_iff {ds : List ClassDecl} : kindOf ds = .ordinary ↔ ds = [] := by
  unfold kindOf
  by_cases hnil : ds = []
  · simp [hnil]
  · rw [if_neg hnil]
    split <;> simp [hnil]

theorem kindOf_eq_ofClass_iff {ds : List ClassDecl} :
    kindOf ds = .ofClass ↔ ds ≠ [] ∧ ¬ ∃ d ∈ ds, d.isNode = true := by
  rw [← kindOf_eq_ofNode_iff, ne_eq, ← kindOf_eq_ordinary_iff]
  cases kindOf ds <;> simp

/-- One more registration changes the kind as the registration of a class does. -/
theorem kindOf_concat (ds : List ClassDecl) (d : ClassDecl) :
    kindOf (ds ++ [d]) = (kindOf ds).registered d := by
  unfold kindOf ScopeKind.registered
  rw [List.any_append, List.any_cons, List.any_nil, Bool.or_false]
  cases hnode : d.isNode with
  | true => simp
  | false =>
    cases hany : ds.any (·.isNode) with
    | true => simp
    | false =>
      by_cases hnil : ds = []
      · simp [hnil]
      · simp [hnil]

/-- It only matters which classes are registered, not in which order or how often. -/
theorem kindOf_congr {ds ds' : List ClassDecl} (h : ∀ d, d ∈ ds' ↔ d ∈ ds) :
    kindOf ds' = kindOf ds := by
  have hany : ds'.any (·.isNode) = ds.any (·.isNode) := by
    rw [Bool.eq_iff_iff, List.any_eq_true, List.any_eq_true]
    simp only [h]
  have hnil : ds' = [] ↔ ds = [] := by
    rw [List.eq_nil_iff_forall_not_mem, List.eq_nil_iff_forall_not_mem]
    simp only [h]
  unfold kindOf
  rw [hany]
  simp only [hnil]

/-! ## What a turn registers and records -/

theorem registerClass_eq (c : Catalog) (id : ScopeId) (d : ClassDecl) :
    c.registerClass id d =
      if d.name = "" then .error (.internal .namelessClass)
      else if (c.scope? id).isSome then
        .ok ((c.modifyScope id fun s => { s with kind := s.kind.registered d }).setClassScope
          d.name id)
      else .error (.internal (.missingScope id)) := by
  unfold registerClass
  cases c.scope? id <;> rfl

theorem Turn.registered?_registerClass (c : Catalog) (id : ScopeId) (d : ClassDecl) :
    registered? c (command (.registerClass id d)) =
      if d.name ≠ "" ∧ (c.scope? id).isSome then some (id, d) else none := by
  rw [registered?, registerClass_eq]
  by_cases hname : d.name = ""
  · simp [hname, Except.toOption]
  · cases (c.scope? id).isSome <;> simp [hname, Except.toOption]

theorem Turn.recorded?_registerClass (c : Catalog) (id : ScopeId) (d : ClassDecl) :
    recorded? c (command (.registerClass id d)) =
      if d.name ≠ "" ∧ (c.scope? id).isSome then some (d.name, id) else none := by
  show (registered? c (command (.registerClass id d))).map _ = _
  rw [registered?_registerClass]
  split <;> rfl

theorem run_registerClass_fails_iff (c : Catalog) (id : ScopeId) (d : ClassDecl) :
    ((∃ e, (Command.run c (.registerClass id d)).2 = .error e) ↔
        d.name = "" ∨ c.scope? id = none) ∧
      ∀ e, (Command.run c (.registerClass id d)).2 = .error e →
        (Command.run c (.registerClass id d)).1 = c := by
  have hrun : Command.run c (.registerClass id d) =
      Command.orUnchanged c ((c.registerClass id d).map (·, ())) := rfl
  rw [hrun, registerClass_eq]
  by_cases hname : d.name = ""
  · simp [hname, Except.map, Command.orUnchanged]
  · cases c.scope? id <;> simp [hname, Except.map, Command.orUnchanged]

/-- Only a registration changes the kind of a scope.  A new scope is an ordinary one. -/
theorem Turn.Effect.kind_eq {c c' : Catalog} {t : Turn} (he : Effect c t c')
    (ht : ∀ id d, t ≠ .command (.registerClass id d)) {i : ScopeId} {s' : Scope}
    (hs' : c'.scope? i = some s') : s'.kind = ((c.scope? i).map (·.kind)).getD .ordinary := by
  cases he with
  | nothing _ =>
    rw [hs']
    rfl
  | @edited id e _ =>
    rw [scope?_modifyScope] at hs'
    split at hs'
    · obtain ⟨s, hs, rfl⟩ := Option.map_eq_some_iff.1 hs'
      rw [hs]
      exact Edit.run_kind s e
    · rw [hs']
      rfl
  | asked ids _ =>
    rw [scope?_settleAll] at hs'
    rw [hs']
    rfl
  | grown o level parent _ =>
    rw [scope?_push] at hs'
    split at hs'
    · next hi =>
      -- no scope stood there before, and a new one begins as the absent one counts
      have hfree : c.scope? i = none := by
        rw [← Option.not_isSome_iff_eq_none, scope?_isSome_iff]
        omega
      cases hs'
      rw [hfree]
      rfl
    · rw [hs']
      rfl
  | @registered id d heq => exact absurd heq (ht id d)
  | recorded _ =>
    rw [scope?_setClassScope] at hs'
    rw [hs']
    rfl
  | stored _ _ =>
    have hs : c.scope? i = some s' := hs'
    rw [hs]
    rfl
  | declared _ _ =>
    have hs : c.scope? i = some s' := hs'
    rw [hs]
    rfl

/-- A turn that records a scope for a name changes what is recorded for that name, and no turn
changes more. -/
theorem Turn.classScopes_run (c : Catalog) (t : Turn) (key : String) :
    (t.run c).classScopes[key]? =
      (((t.recorded? c).filter fun r => nameKey r.1 = key).map (·.2)).or c.classScopes[key]? := by
  have hrecord : ∀ (c' : Catalog) (className : String) (id : ScopeId),
      c'.classScopes = c.classScopes →
      (c'.setClassScope className id).classScopes[key]? =
        (((some (className, id)).filter fun r => nameKey r.1 = key).map (·.2)).or
          c.classScopes[key]? := by
    intro c' className id hc'
    rw [classScopes_setClassScope, hc', Option.filter_some]
    by_cases hkey : nameKey className = key
    · simp [hkey]
    · simp [hkey]
  have hkept : ¬ t.Records key → t.recorded? c = none →
      (t.run c).classScopes[key]? =
        (((t.recorded? c).filter fun r => nameKey r.1 = key).map (·.2)).or
          c.classScopes[key]? := by
    intro ht hnone
    rw [(t.effect c).classScopes_eq ht, hnone]
    rfl
  cases t with
  | askedBy outsider q => exact hkept (fun h => h) rfl
  | exchange types => exact hkept (fun h => h) rfl
  | command cmd =>
    cases cmd with
    | registerClass id d =>
      rw [run_registerClass, recorded?_registerClass]
      split
      · exact hrecord _ d.name id rfl
      · rfl
    | setClassScope className id => exact hrecord c className id rfl
    | _ => exact hkept (fun h => h) rfl

/-! ## Runs -/

/-- These are the registrations that the scopes of the catalog have their kinds from. -/
structure Registered (c : Catalog) (registrations : List (ScopeId × ClassDecl)) : Prop where
  index_lt (r : ScopeId × ClassDecl) : r ∈ registrations → r.1.index < c.count
  kind_eq (i : ScopeId) (s : Scope) : c.scope? i = some s →
    s.kind = kindOf (classesFor registrations i)

namespace Registered

variable {c : Catalog} {registrations : List (ScopeId × ClassDecl)}

theorem classesFor_of_free (hc : Registered c registrations) {i : ScopeId}
    (hi : c.scope? i = none) : classesFor registrations i = [] := by
  rw [List.eq_nil_iff_forall_not_mem]
  intro d hd
  have hlt := hc.index_lt _ (mem_classesFor.1 hd)
  rw [← scope?_isSome_iff, hi] at hlt
  cases hlt

theorem run_register (hc : Registered c registrations) {id : ScopeId}
    (hid : (c.scope? id).isSome) (d : ClassDecl) :
    Registered ((c.modifyScope id fun s => { s with kind := s.kind.registered d }).setClassScope
      d.name id) (registrations ++ [(id, d)]) where
  index_lt r hr := by
    rw [count_setClassScope, count_modifyScope]
    rcases List.mem_append.1 hr with hr | hr
    · exact hc.index_lt r hr
    · rw [List.mem_singleton.1 hr]
      exact (scope?_isSome_iff c id).1 hid
  kind_eq i s' hs' := by
    rw [scope?_setClassScope, scope?_modifyScope] at hs'
    rw [classesFor_concat]
    by_cases hi : i = id
    · subst hi
      rw [if_pos rfl] at hs'
      obtain ⟨s, hs, rfl⟩ := Option.map_eq_some_iff.1 hs'
      rw [if_pos rfl, kindOf_concat, ← hc.kind_eq i s hs]
    · rw [if_neg hi] at hs'
      rw [if_neg fun h => hi h.symm]
      exact hc.kind_eq i s' hs'

theorem run_other (hc : Registered c registrations) {t : Turn}
    (ht : ∀ id d, t ≠ .command (.registerClass id d)) : Registered (t.run c) registrations where
  index_lt r hr := Nat.lt_of_lt_of_le (hc.index_lt r hr) (t.effect c).count_le
  kind_eq i s' hs' := by
    have hkind := (t.effect c).kind_eq ht hs'
    rw [hkind]
    cases hs : c.scope? i with
    | none =>
      rw [hc.classesFor_of_free hs]
      rfl
    | some s => exact hc.kind_eq i s hs

theorem run (hc : Registered c registrations) (t : Turn) :
    Registered (t.run c) (registrations ++ (t.registered? c).toList) := by
  by_cases ht : ∃ id d, t = .command (.registerClass id d)
  · obtain ⟨id, d, rfl⟩ := ht
    rw [Turn.registered?_registerClass, Turn.run_registerClass]
    split
    · next h => exact hc.run_register h.2 d
    · rw [Option.toList_none, List.append_nil]
      exact hc
  · have hother : ∀ id d, t ≠ .command (.registerClass id d) := fun id d h => ht ⟨id, d, h⟩
    have hnone : t.registered? c = none := by
      unfold Turn.registered?
      split
      · next id d => exact absurd rfl (hother id d)
      · rfl
    rw [hnone, Option.toList_none, List.append_nil]
    exact hc.run_other hother

end Registered

/-- The kinds of scopes tell what was registered, whatever the history of the catalog. -/
theorem registered_runAll (types : TypeTable) (turns : List Turn) :
    Registered (Turn.runAll (.new types) turns)
      (Turn.gather Turn.registered? (.new types) turns) := by
  have hnew : Registered (.new types) [] := by
    refine ⟨fun r hr => absurd hr List.not_mem_nil, ?_⟩
    rintro ⟨_ | n⟩ s hs
    · cases hs
      rfl
    · cases hs
  exact Turn.runAll_gathers Turn.registered? (fun c registrations t hc => hc.run t) [] hnew turns

theorem lastNamed_append_toList {α : Type} (nameOf : α → String) (ds : List α) (d : Option α)
    (key : String) :
    lastNamed nameOf (ds ++ d.toList) key =
      (d.filter fun d => foldedName (nameOf d) = key).or (lastNamed nameOf ds key) := by
  cases d with
  | none => rw [Option.toList_none, List.append_nil, Option.filter_none, Option.none_or]
  | some d =>
    unfold lastNamed
    rw [Option.toList_some, List.filter_append, List.getLast?_append, Option.filter_some]
    by_cases hkey : foldedName (nameOf d) = key
    · simp [hkey]
    · simp [hkey]

/-- For each name the last scope is recorded, whatever the history of the catalog. -/
theorem classScopes_runAll (types : TypeTable) (turns : List Turn) (key : String) :
    (Turn.runAll (.new types) turns).classScopes[key]? =
      (lastNamed Prod.fst (Turn.gather Turn.recorded? (.new types) turns) key).map Prod.snd := by
  refine Turn.runAll_gathers Turn.recorded?
    (P := fun c told => c.classScopes[key]? = (lastNamed Prod.fst told key).map Prod.snd)
    (fun c told t hc => ?_) [] rfl turns
  rw [Turn.classScopes_run, hc, lastNamed_append_toList, Option.map_or]
  simp only [nameKey_eq_foldedName]

/-- A class has the scope that was recorded last for its name, under any spelling. -/
theorem classScope?_runAll (types : TypeTable) (turns : List Turn) (name : String) :
    let recordings := Turn.gather Turn.recorded? (.new types) turns
    (Turn.runAll (.new types) turns).classScope? name =
        (lastNamed Prod.fst recordings (foldedName name)).map Prod.snd ∧
      ((Turn.runAll (.new types) turns).classScope? name = none ↔
        ∀ r ∈ recordings, foldedName r.1 ≠ foldedName name) := by
  intro recordings
  have hlast : (Turn.runAll (.new types) turns).classScope? name =
      (lastNamed Prod.fst recordings (foldedName name)).map Prod.snd := by
    rw [classScope?, nameKey_eq_foldedName]
    exact classScopes_runAll types turns (foldedName name)
  refine ⟨hlast, ?_⟩
  rw [hlast, Option.map_eq_none_iff, lastNamed, List.getLast?_eq_none_iff, List.filter_eq_nil_iff]
  simp only [decide_eq_true_eq]

/-! ## Recordings that registrations make -/

theorem Turn.index_lt_of_recorded? {c : Catalog} {t : Turn}
    (ht : ∀ className id, t ≠ .command (.setClassScope className id)) {r : String × ScopeId}
    (hr : t.recorded? c = some r) : r.2.index < c.count := by
  cases t with
  | askedBy outsider q => cases hr
  | exchange types => cases hr
  | command cmd =>
    cases cmd with
    | registerClass id d =>
      rw [recorded?_registerClass] at hr
      split at hr
      · next h =>
        cases hr
        exact (scope?_isSome_iff c id).1 h.2
      · cases hr
    | setClassScope className id => exact absurd rfl (ht className id)
    | _ => cases hr

theorem classScope_lt_of_registered (types : TypeTable) {turns : List Turn}
    (hturns : ∀ t ∈ turns, ∀ className id, t ≠ .command (.setClassScope className id)) :
    ∀ (key : String) (id : ScopeId), (Turn.runAll (.new types) turns).classScopes[key]? = some id →
      id.index < (Turn.runAll (.new types) turns).count := by
  refine Turn.runAll_keeps (P := fun c => ∀ (key : String) (id : ScopeId),
    c.classScopes[key]? = some id → id.index < c.count) (fun t ht c hc key id hid => ?_) ?_
  · have hcount := (t.effect c).count_le
    rw [Turn.classScopes_run, Option.or_eq_some_iff] at hid
    rcases hid with hnew | ⟨-, hold⟩
    · obtain ⟨r, hr, rfl⟩ := Option.map_eq_some_iff.1 hnew
      have hlt := Turn.index_lt_of_recorded? (hturns t ht) (Option.filter_eq_some_iff.1 hr).1
      omega
    · have hlt := hc key id hold
      omega
  · intro key id hid
    have hnone : (Catalog.new types).classScopes[key]? = none := Std.ExtTreeMap.getElem?_empty
    rw [hnone] at hid
    cases hid

/-- Where every recorded scope is there, a lookup from a scope of the catalog, or of a variable of a
class from anywhere, has no internal error. -/
theorem IsForest.lookup_ne_internal {c : Catalog} (hc : IsForest c)
    (hrecorded : ∀ name id, c.classScope? name = some id → (c.scope? id).isSome) {h : Handle}
    {name : String} (hplace : (∃ i, c.handle? i = some h) ∨
      ∃ q short, splitName? name = some (q, short) ∧ q ≠ "") (mode : LookupMode)
    (fault : InternalFault) : c.lookup h mode name ≠ .error (.internal fault) := by
  intro hfail
  cases hsplit : splitName? name with
  | none =>
    obtain ⟨i, hi⟩ | ⟨q, short, hq, -⟩ := hplace
    · obtain ⟨a, ha⟩ := hc.exists_lookup hi mode hsplit
      rw [ha] at hfail
      cases hfail
    · rw [hsplit] at hq
      cases hq
  | some parts =>
    obtain ⟨q, short⟩ := parts
    by_cases hq : q = ""
    · subst hq
      obtain ⟨i, hi⟩ | ⟨q, short', hq, hne⟩ := hplace
      · obtain ⟨ids, ha⟩ := hc.exists_ancestry i
        obtain ⟨r, root, a, -, -, -, -, hjump, hans⟩ := hc.lookup_of_leading hi mode hsplit ha
        rw [hjump, hans] at hfail
        cases hfail
      · rw [hsplit] at hq
        cases hq
        exact hne rfl
    · rcases hc.lookup_of_class h mode hsplit hq with
        ⟨-, hl⟩ | ⟨d, -, ⟨-, hl⟩ | ⟨id, hid, ⟨hlost, -⟩ | ⟨g, a, -, -, ha⟩⟩⟩
      · rw [hl] at hfail
        cases hfail
      · rw [hl] at hfail
        cases hfail
      · have hthere := hrecorded d.name id hid
        rw [scope?, hlost] at hthere
        cases hthere
      · rw [ha] at hfail
        cases hfail

/-! ## Top theorem -/

/-- Whatever the history of a catalog, a scope is the evaluation of a node body exactly if a node
body was ever registered for it, otherwise of a class if anything was, and otherwise of nothing; in
which order, and how often, makes no difference.  For the name of a class that scope is recorded
that was recorded last under any spelling.  A registration fails exactly for a class without a name
or a scope that is not there, and then changes nothing.  As long as scopes are recorded by
registrations only, they are there, and no lookup of a variable of a class meets an internal
error. -/
theorem registrations_tell (types : TypeTable) (turns : List Turn) :
    let c := Turn.runAll (.new types) turns
    let registrations := Turn.gather Turn.registered? (.new types) turns
    let recordings := Turn.gather Turn.recorded? (.new types) turns
    (∀ i s, c.scope? i = some s →
      (s.kind = .ofNode ↔ ∃ d, (i, d) ∈ registrations ∧ d.isNode = true) ∧
      (s.kind = .ofClass ↔ (∃ d, (i, d) ∈ registrations) ∧
        ¬ ∃ d, (i, d) ∈ registrations ∧ d.isNode = true) ∧
      (s.kind = .ordinary ↔ ¬ ∃ d, (i, d) ∈ registrations) ∧
      ∀ types' turns' s', (Turn.runAll (.new types') turns').scope? i = some s' →
        (∀ d, (i, d) ∈ Turn.gather Turn.registered? (.new types') turns' ↔
          (i, d) ∈ registrations) → s'.kind = s.kind) ∧
    (∀ name, c.classScope? name = (lastNamed Prod.fst recordings (foldedName name)).map Prod.snd ∧
      (c.classScope? name = none ↔ ∀ r ∈ recordings, foldedName r.1 ≠ foldedName name)) ∧
    (∀ id d, ((∃ e, (Command.run c (.registerClass id d)).2 = .error e) ↔
        d.name = "" ∨ c.scope? id = none) ∧
      ∀ e, (Command.run c (.registerClass id d)).2 = .error e →
        (Command.run c (.registerClass id d)).1 = c) ∧
    ((∀ t ∈ turns, ∀ className id, t ≠ .command (.setClassScope className id)) →
      (∀ name id, c.classScope? name = some id → (c.scope? id).isSome) ∧
      ∀ h name, (∃ i, c.handle? i = some h) ∨
          (∃ q short, splitName? name = some (q, short) ∧ q ≠ "") →
        ∀ mode fault, c.lookup h mode name ≠ .error (.internal fault)) := by
  intro c registrations recordings
  have hregistered : Registered c registrations := registered_runAll types turns
  refine ⟨fun i s hs => ?_, fun name => ?_, fun id d => ?_, fun hturns => ?_⟩
  · rw [hregistered.kind_eq i s hs]
    refine ⟨?_, ?_, ?_, fun types' turns' s' hs' hsame => ?_⟩
    · rw [kindOf_eq_ofNode_iff]
      simp only [mem_classesFor]
    · rw [kindOf_eq_ofClass_iff, ne_eq, List.eq_nil_iff_forall_not_mem, Classical.not_forall]
      simp only [Classical.not_not, mem_classesFor]
    · rw [kindOf_eq_ordinary_iff, List.eq_nil_iff_forall_not_mem, not_exists]
      simp only [mem_classesFor]
    · rw [(registered_runAll types' turns').kind_eq i s' hs']
      refine kindOf_congr fun d => ?_
      rw [mem_classesFor, mem_classesFor]
      exact hsame d
  · exact classScope?_runAll types turns name
  · exact run_registerClass_fails_iff c id d
  · have hrecorded : ∀ name id, c.classScope? name = some id → (c.scope? id).isSome := by
      intro name id hid
      rw [scope?_isSome_iff]
      exact classScope_lt_of_registered types hturns (nameKey name) id hid
    have hf : IsForest c := (IsForest.new types).runTurns turns
    exact ⟨hrecorded, fun h name hplace => hf.lookup_ne_internal hrecorded hplace⟩

/-- A node body and then a class are registered for a scope; then the top scope is registered, first
for a class without a name and then for the same class in another spelling. -/
def sampleEvaluations : List Turn :=
  [.command (.childScope top {}), .command (.registerClass ⟨1⟩ ⟨"db1", .node⟩),
    .command (.registerClass ⟨1⟩ ⟨"Web", .ordinary⟩), .command (.registerClass top ⟨"", .node⟩),
    .command (.registerClass top ⟨"::WEB", .ordinary⟩)]

/-- The scope stays a node body, the top scope is recorded for the class, and what is recorded is
there. -/
theorem registrations_tell_node :
    ∃ s, (Turn.runAll (.new .empty) sampleEvaluations).scope? ⟨1⟩ = some s ∧ s.kind = .ofNode ∧
      (Turn.runAll (.new .empty) sampleEvaluations).classScope? "web" = some top ∧
      ((Turn.runAll (.new .empty) sampleEvaluations).scope? top).isSome := by
  obtain ⟨hkinds, hscopes, -, hthere⟩ := registrations_tell .empty sampleEvaluations
  obtain ⟨hnode, -⟩ := hkinds ⟨1⟩ _ rfl
  have hweb : (Turn.runAll (.new .empty) sampleEvaluations).classScope? "web" = some top := by
    rw [(hscopes "web").1]
    decide
  have honly : ∀ t ∈ sampleEvaluations, ∀ className id,
      t ≠ .command (.setClassScope className id) := by
    simp [sampleEvaluations]
  exact ⟨_, rfl, hnode.2 ⟨⟨"db1", .node⟩, by decide, rfl⟩, hweb, (hthere honly).1 "web" top hweb⟩

end ScopeTree.Catalog
