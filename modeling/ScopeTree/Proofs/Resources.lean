import ScopeTree.Proofs.History

/-!
# What the resource store shows

Resources are declared and overridden in the course of a history.  What is kept of a declaration
is settled by the marks of the scope that makes it, at that moment; a resource that is put into the
store directly is kept as it is.  The store shows the declarations in order, all together and by
scope; for a reference it shows the first declaration and all overrides.

    Keeps s ds os → Shows s ds os                                (ResourceStore.Keeps.shows)
    Keeps (runAll (.new types) turns).resources
      (declarations (.new types) turns) (turns.filterMap override?)
                                                                 (ResourceStore.Keeps.runAll)
    declarations c turns with or without its overrides           (declarations_filter)

Declarations are never taken back, so what is found for a reference once is found for ever.
-/

namespace ScopeTree

/-- A resource as it is kept when a scope declares it: exported if it or the scope is, virtual if
it is or if the scope is virtual and not exported, and otherwise as it was given. -/
def Resource.keptBy (r : Resource) (s : Scope) : Resource :=
  { r with
    exported := r.exported || s.exported
    virtual := r.virtual || (s.virtual && !s.exported) }

theorem stamp_eq_keptBy (s : Scope) (r : Resource) : s.stamp r = r.keptBy s := by
  unfold Scope.stamp Scope.isVirtual Resource.keptBy
  cases s.exported <;> cases s.virtual <;> simp

namespace ResourceStore

/-- The answers of a store when these resources were declared, each in its scope, and these
overrides were registered. -/
structure Shows (s : ResourceStore) (declared : List (ScopeId × Resource))
    (overriding : List Resource) : Prop where
  toList : s.toList = declared.map (·.2)
  inScope (scope : ScopeId) :
    s.inScope scope = (declared.filter fun d => d.1 = scope).map (·.2)
  find? (reference : ResourceRef) :
    s.find? reference = s.toList.find? fun r => r.reference = reference
  overrides (reference : ResourceRef) :
    s.overrides reference = overriding.filter fun r => r.reference = reference

/-- The tables of a store when these resources were declared and these overrides were registered.
The place that is kept for a reference is that of its first declaration. -/
structure Keeps (s : ResourceStore) (declared : List (ScopeId × Resource))
    (overriding : List Resource) : Prop where
  declared_eq : s.declared.toList = declared
  firstAt_eq (reference : ResourceRef) :
    s.firstAt[reference]? = declared.findIdx? fun d => d.2.reference = reference
  overrides_eq (reference : ResourceRef) :
    s.overrides reference = overriding.filter fun r => r.reference = reference

namespace Keeps

variable {s : ResourceStore} {declared : List (ScopeId × Resource)} {overriding : List Resource}

theorem empty : Keeps .empty [] [] where
  declared_eq := rfl
  firstAt_eq _ := Std.ExtTreeMap.getElem?_empty
  overrides_eq reference := by simp [overrides, ResourceStore.empty]

/-- The place of a reference that has one stays; a new one gets the place of its declaration,
which is behind all others. -/
theorem declare (hs : Keeps s declared overriding) (scope : ScopeId) (r : Resource) :
    Keeps (s.declare scope r) (declared ++ [(scope, r)]) overriding where
  declared_eq := by
    rw [← hs.declared_eq]
    exact Array.toList_push
  firstAt_eq reference := by
    have hsize : s.declared.size = declared.length := by rw [← hs.declared_eq]; simp
    have hold := hs.firstAt_eq reference
    show (s.firstAt.insertIfNew r.reference s.declared.size)[reference]? = _
    rw [Std.ExtTreeMap.getElem?_insertIfNew, List.findIdx?_append, List.findIdx?_singleton,
      ← hold, hsize]
    by_cases hr : r.reference = reference
    · subst hr
      cases hplace : s.firstAt[r.reference]? with
      | none =>
        have hnew : r.reference ∉ s.firstAt := by
          rw [Std.ExtTreeMap.mem_iff_isSome_getElem?, hplace]
          simp
        simp [hnew]
      | some place =>
        have hthere : r.reference ∈ s.firstAt := by
          rw [Std.ExtTreeMap.mem_iff_isSome_getElem?, hplace]
          rfl
        simp [hthere]
    · simp [hr]
  overrides_eq := hs.overrides_eq

theorem override (hs : Keeps s declared overriding) (r : Resource) :
    Keeps (s.override r) declared (overriding ++ [r]) where
  declared_eq := hs.declared_eq
  firstAt_eq := hs.firstAt_eq
  overrides_eq reference := by
    rw [overrides_override, hs.overrides_eq, List.filter_append]
    by_cases hr : r.reference = reference <;> simp [hr]

theorem find?_eq (hs : Keeps s declared overriding) (reference : ResourceRef) :
    s.find? reference = (declared.map (·.2)).find? fun r => r.reference = reference := by
  have hfind : s.find? reference =
      (declared.findIdx? fun d => d.2.reference = reference).bind fun place =>
        declared[place]?.map (·.2) := by
    rw [← hs.firstAt_eq, ← hs.declared_eq]
    unfold ResourceStore.find?
    cases s.firstAt[reference]? with
    | none => rfl
    | some place =>
      rw [Option.bind_some, Array.getElem?_toList]
      cases h : s.declared[place]? <;> simp [h]
  have hmap : ((declared.map (·.2)).find? fun r => r.reference = reference) =
      (declared.find? fun d => d.2.reference = reference).map (·.2) := List.find?_map
  rw [hfind, hmap, List.find?_eq_bind_findIdx?_getElem?]
  cases declared.findIdx? fun d => d.2.reference = reference <;> rfl

theorem shows (hs : Keeps s declared overriding) : Shows s declared overriding := by
  have hlist : s.toList = declared.map (·.2) := by rw [toList, hs.declared_eq]
  constructor
  case toList => exact hlist
  case inScope =>
    intro scope
    rw [ResourceStore.inScope, hs.declared_eq]
  case find? =>
    intro reference
    rw [hlist]
    exact hs.find?_eq reference
  case overrides => exact hs.overrides_eq

end Keeps

end ResourceStore

namespace Catalog

/-- What a turn adds to the declarations.  A scope that is not there registers nothing; whatever is
stored directly is added as it is. -/
def Turn.declared? (c : Catalog) : Turn → Option (ScopeId × Resource)
  | command (.registerResource id r) => (c.scope? id).map fun s => (id, r.keptBy s)
  | command (.storeResource id r) => some (id, r)
  | _ => none

def Turn.override? : Turn → Option Resource
  | command (.registerOverride r) => some r
  | _ => none

def declarations : Catalog → List Turn → List (ScopeId × Resource)
  | _, [] => []
  | c, t :: turns => (t.declared? c).toList ++ declarations (t.run c) turns

theorem declarations_append (c : Catalog) (turns later : List Turn) :
    declarations c (turns ++ later) =
      declarations c turns ++ declarations (Turn.runAll c turns) later := by
  induction turns generalizing c with
  | nil => rfl
  | cons t turns ih =>
    rw [List.cons_append, declarations, declarations, ih, Turn.runAll_cons, List.append_assoc]

/-! ## What a turn does to the store -/

@[simp] theorem resources_settleAll (c : Catalog) (ids : List ScopeId) :
    (c.settleAll ids).resources = c.resources := by
  induction ids generalizing c with
  | nil => rfl
  | cons id ids ih => exact ih (c.settleAt id)

theorem run_registerResource (c : Catalog) (id : ScopeId) (r : Resource) :
    Command.run c (.registerResource id r) =
      match c.scope? id with
      | none => (c, .error (.internal (.missingScope id)))
      | some s => ({ c with resources := c.resources.declare id (r.keptBy s) }, .ok (r.keptBy s)) := by
  show Command.orUnchanged c (c.registerResource id r) = _
  unfold registerResource
  cases c.scope? id with
  | none => rfl
  | some s =>
    simp only [stamp_eq_keptBy]
    rfl

/-- What a turn declares it puts into the store. -/
theorem resources_run_of_declared {c : Catalog} {t : Turn} {id : ScopeId} {r : Resource}
    (hd : t.declared? c = some (id, r)) : (t.run c).resources = c.resources.declare id r := by
  unfold Turn.declared? at hd
  split at hd
  · next id' r' =>
    obtain ⟨s, hs, hkept⟩ := Option.map_eq_some_iff.1 hd
    cases hkept
    show (Command.run c (.registerResource id r')).1.resources = _
    rw [run_registerResource, hs]
  · cases hd
    rfl
  · cases hd

theorem resources_run (c : Catalog) {t : Turn} (hd : t.declared? c = none)
    (ho : t.override? = none) : (t.run c).resources = c.resources := by
  have hmade : ∀ parent o,
      (Turn.run c (.command (.newScope parent o))).resources = c.resources := by
    intro parent o
    rcases Turn.run_newScope c parent o with hrun | ⟨level, hrun⟩ <;> rw [hrun]
    rfl
  cases t with
  | askedBy outsider q => exact resources_settleAll c _
  | exchange types => rfl
  | command cmd =>
    cases cmd with
    | edit id e =>
      show (c.edit id e).1.resources = _
      unfold edit
      split <;> rfl
    | ask id q =>
      obtain ⟨ids, hrun⟩ := Turn.run_ask c id q
      rw [hrun, resources_settleAll]
    | newScope parent o => exact hmade parent o
    | childScope parent o =>
      rw [Turn.run_childScope]
      split
      · exact hmade (some parent) o
      · rfl
    | registerClass id d =>
      rw [Turn.run_registerClass]
      split <;> rfl
    | registerResource id r =>
      have hs : c.scope? id = none := Option.map_eq_none_iff.1 hd
      rw [Turn.run_registerResource, hs]
    | storeResource id r => cases hd
    | registerOverride r => cases ho
    | setClassScope className id => rfl
    | addClass d => rfl
    | addDefine d => rfl

end Catalog

namespace ResourceStore.Keeps

open Catalog (Turn declarations)

variable {c : Catalog} {declared : List (ScopeId × Resource)} {overriding : List Resource}

theorem run_turn (hc : c.resources.Keeps declared overriding) (t : Turn) :
    (t.run c).resources.Keeps (declared ++ (t.declared? c).toList)
      (overriding ++ t.override?.toList) := by
  cases hd : t.declared? c with
  | some d =>
    have ho : t.override? = none := by
      unfold Turn.declared? at hd
      split at hd
      · rfl
      · rfl
      · cases hd
    rw [Catalog.resources_run_of_declared hd, ho, Option.toList_none, List.append_nil]
    exact hc.declare d.1 d.2
  | none =>
    rw [Option.toList_none, List.append_nil]
    cases ho : t.override? with
    | none =>
      rw [Catalog.resources_run c hd ho, Option.toList_none, List.append_nil]
      exact hc
    | some r =>
      have ht : t = .command (.registerOverride r) := by
        unfold Turn.override? at ho
        split at ho
        · cases ho
          rfl
        · cases ho
      subst ht
      exact hc.override r

theorem runAll (hc : c.resources.Keeps declared overriding) (turns : List Turn) :
    (Turn.runAll c turns).resources.Keeps (declared ++ declarations c turns)
      (overriding ++ turns.filterMap Turn.override?) := by
  induction turns generalizing c declared overriding with
  | nil =>
    rw [List.filterMap_nil, declarations, List.append_nil, List.append_nil]
    exact hc
  | cons t turns ih =>
    have hfilter : (t :: turns).filterMap Turn.override? =
        t.override?.toList ++ turns.filterMap Turn.override? := by
      rw [List.filterMap_cons]
      cases t.override? <;> rfl
    rw [Turn.runAll_cons, hfilter, declarations, ← List.append_assoc, ← List.append_assoc]
    exact ih (hc.run_turn t)

end ResourceStore.Keeps

namespace Catalog

/-! ## Overrides do not matter to declarations -/

section SameScopes

variable {c c' : Catalog}

theorem count_eq_of_scope?_eq (h : c.scope? = c'.scope?) : c.count = c'.count := by
  have hiff : ∀ n, n < c.count ↔ n < c'.count := by
    intro n
    rw [← scope?_isSome_iff c ⟨n⟩, ← scope?_isSome_iff c' ⟨n⟩, h]
  have h₁ := hiff c.count
  have h₂ := hiff c'.count
  omega

/-- Whether and how a scope can be made is a matter of the scopes that are there. -/
theorem scope?_newScope_congr (h : c.scope? = c'.scope?) (parent : Option ScopeId)
    (o : ScopeOptions) :
    (Command.orUnchanged c (c.newScope parent o)).1.scope? =
      (Command.orUnchanged c' (c'.newScope parent o)).1.scope? := by
  have hcount := count_eq_of_scope?_eq h
  have hlevel : ∀ p, c.parentLevel p = c'.parentLevel p := by
    intro p
    cases p with
    | none => rfl
    | some id => simp only [parentLevel, h]
  unfold newScope
  simp only [hlevel, hcount]
  split
  · exact h
  · split
    · exact h
    · split
      · funext i
        show (c.push _ _).scope? i = (c'.push _ _).scope? i
        rw [scope?_push, scope?_push, hcount, h]
      · exact h

theorem scope?_modifyScope_congr (h : c.scope? = c'.scope?) (id : ScopeId) (f : Scope → Scope) :
    (c.modifyScope id f).scope? = (c'.modifyScope id f).scope? := by
  funext i
  rw [scope?_modifyScope, scope?_modifyScope, h]

/-- What becomes of the scopes in a turn is a matter of the scopes alone. -/
theorem scope?_run_congr (h : c.scope? = c'.scope?) (t : Turn) :
    (t.run c).scope? = (t.run c').scope? := by
  -- which scopes come to ask may differ between the two, but asking changes no scope
  have hasked : ∀ ids ids', (c.settleAll ids).scope? = (c'.settleAll ids').scope? := by
    intro ids ids'
    funext i
    rw [scope?_settleAll, scope?_settleAll, h]
  cases t with
  | askedBy outsider q => exact hasked _ _
  | exchange types => exact h
  | command cmd =>
    cases cmd with
    | edit id e =>
      show (c.edit id e).1.scope? = (c'.edit id e).1.scope?
      unfold edit
      rw [h]
      cases c'.scope? id with
      | none => exact h
      | some s => exact scope?_modifyScope_congr h id _
    | ask id q =>
      obtain ⟨ids, hrun⟩ := Turn.run_ask c id q
      obtain ⟨ids', hrun'⟩ := Turn.run_ask c' id q
      rw [hrun, hrun']
      exact hasked ids ids'
    | newScope parent o => exact scope?_newScope_congr h parent o
    | childScope parent o =>
      rw [Turn.run_childScope, Turn.run_childScope, h]
      split
      · exact scope?_newScope_congr h (some parent) o
      · exact h
    | registerClass id d =>
      rw [Turn.run_registerClass, Turn.run_registerClass, h]
      split
      · exact scope?_modifyScope_congr h id fun s => { s with kind := s.kind.registered d }
      · exact h
    | registerResource id r =>
      rw [Turn.run_registerResource, Turn.run_registerResource, h]
      cases c'.scope? id <;> exact h
    | storeResource id r => exact h
    | registerOverride r => exact h
    | setClassScope className id => exact h
    | addClass d => exact h
    | addDefine d => exact h

theorem declarations_congr (h : c.scope? = c'.scope?) (turns : List Turn) :
    declarations c turns = declarations c' turns := by
  induction turns generalizing c c' with
  | nil => rfl
  | cons t turns ih =>
    have hdeclared : t.declared? c = t.declared? c' := by
      unfold Turn.declared?
      simp only [h]
    rw [declarations, declarations, hdeclared, ih (scope?_run_congr h t)]

end SameScopes

theorem declarations_filter (c : Catalog) (turns : List Turn) :
    declarations c (turns.filter fun t => t.override?.isNone) = declarations c turns := by
  induction turns generalizing c with
  | nil => rfl
  | cons t turns ih =>
    cases ho : t.override? with
    | none => rw [List.filter_cons_of_pos (by simp [ho]), declarations, declarations, ih]
    | some r =>
      have ht : t.declared? c = none ∧ (t.run c).scope? = c.scope? := by
        unfold Turn.override? at ho
        split at ho
        · exact ⟨rfl, rfl⟩
        · cases ho
      rw [List.filter_cons_of_neg (by simp [ho]), ih, declarations, ht.1,
        declarations_congr ht.2]
      rfl

/-! ## Top theorem -/

/-- Whatever happens to a catalog from the beginning, its store shows exactly the resources that
scopes of the catalog have registered, with the marks of that moment, and those that were stored
directly, as they were given, all in order, and for each reference the first of them and all its
overrides.  What is found once is found for ever.  The overrides of the history do not matter to
what is declared, and a registration by a scope that is not there changes nothing at all. -/
theorem resources_show_declarations (types : TypeTable) (turns : List Turn) :
    (Turn.runAll (.new types) turns).resources.Shows (declarations (.new types) turns)
      (turns.filterMap Turn.override?) ∧
    (∀ reference, (Turn.runAll (.new types) turns).resources.find? reference = none ↔
      ∀ r ∈ (Turn.runAll (.new types) turns).resources.toList, r.reference ≠ reference) ∧
    (∀ reference r, (Turn.runAll (.new types) turns).resources.find? reference = some r →
      ∀ later, (Turn.runAll (.new types) (turns ++ later)).resources.find? reference = some r) ∧
    declarations (.new types) (turns.filter fun t => t.override?.isNone) =
      declarations (.new types) turns ∧
    (∀ id r s, (Turn.runAll (.new types) turns).scope? id = some s →
      (Command.run (Turn.runAll (.new types) turns) (.registerResource id r)).2 =
        .ok (r.keptBy s)) ∧
    ∀ id r, (Turn.runAll (.new types) turns).scope? id = none →
      Command.run (Turn.runAll (.new types) turns) (.registerResource id r) =
        (Turn.runAll (.new types) turns, .error (.internal (.missingScope id))) := by
  have hkeeps : ∀ turns, (Turn.runAll (.new types) turns).resources.Keeps
      (declarations (.new types) turns) (turns.filterMap Turn.override?) := by
    intro turns
    have hempty : (Catalog.new types).resources.Keeps [] [] := ResourceStore.Keeps.empty
    exact hempty.runAll turns
  have hshows := (hkeeps turns).shows
  refine ⟨hshows, fun reference => ?_, fun reference r hr later => ?_, declarations_filter _ _,
    fun id r s hs => ?_, fun id r hs => ?_⟩
  · rw [hshows.find?, List.find?_eq_none]
    simp
  · rw [(hkeeps _).find?_eq, declarations_append, List.map_append, List.find?_append,
      ← (hkeeps turns).find?_eq, hr]
    rfl
  · rw [run_registerResource, hs]
  · rw [run_registerResource, hs]

/-- A history in which the top scope declares `File[a]` and, once it is exported, declares it
again, with an override in between; a scope that is not there declares it in vain, and a virtual
scope declares `Pkg[b]`. -/
def sampleDeclaring : List Turn :=
  [.command (.registerResource top { reference := ⟨"File", "a"⟩ }),
   .command (.edit top (.setExported true)),
   .command (.registerOverride { reference := ⟨"File", "a"⟩, virtual := true }),
   .command (.registerResource top { reference := ⟨"File", "a"⟩ }),
   .command (.registerResource ⟨1⟩ { reference := ⟨"File", "a"⟩ }),
   .command (.childScope top { virtual := true }),
   .command (.registerResource ⟨1⟩ { reference := ⟨"Pkg", "b"⟩ })]

/-- The first `File[a]` is found, and the second one is kept behind it as exported. -/
theorem resources_show_first_file :
    (Turn.runAll (.new .empty) sampleDeclaring).resources.toList =
      [{ reference := ⟨"File", "a"⟩ }, { reference := ⟨"File", "a"⟩, exported := true },
        { reference := ⟨"Pkg", "b"⟩, virtual := true }] ∧
    (Turn.runAll (.new .empty) sampleDeclaring).resources.inScope ⟨1⟩ =
      [{ reference := ⟨"Pkg", "b"⟩, virtual := true }] ∧
    (Turn.runAll (.new .empty) sampleDeclaring).resources.find? ⟨"File", "a"⟩ =
      some { reference := ⟨"File", "a"⟩ } ∧
    (Turn.runAll (.new .empty) sampleDeclaring).resources.overrides ⟨"File", "a"⟩ =
      [{ reference := ⟨"File", "a"⟩, virtual := true }] := by
  obtain ⟨hshows, -⟩ := resources_show_declarations .empty sampleDeclaring
  have hlist := hshows.toList
  refine ⟨hlist, hshows.inScope ⟨1⟩, ?_, hshows.overrides _⟩
  rw [hshows.find?, hlist]
  rfl

/-- A resource that is stored directly is kept as it is given, also for a scope that is not there. -/
example :
    (Turn.runAll (.new .empty)
      [.command (.edit top (.setExported true)),
       .command (.storeResource ⟨7⟩ { reference := ⟨"File", "a"⟩ })]).resources.toList =
      [{ reference := ⟨"File", "a"⟩ }] := rfl

end Catalog

end ScopeTree
