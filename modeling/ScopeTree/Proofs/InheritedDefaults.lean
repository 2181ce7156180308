import ScopeTree.Proofs.History
import ScopeTree.Proofs.Visibility

/-!
# Which defaults hold in a scope

The defaults of a type are laid from the root inward, parameter by parameter.  So for each
parameter that default holds which the nearest scope of the ancestry has set, whatever the scopes
between have set for other parameters and other types.

    defaults[p]? = ids.findSome? (defaultAt? · t p)              (IsForest.collectDefaults_eq)
    defaultAt? j t p = some spec stays                           (defaultAt?_runAll_of_some)

Nothing is kept from one question to the next: what an ancestor sets in between holds from then
on in every scope below it that has no nearer default for the parameter.
-/

namespace ScopeTree

/-- No edit takes a default away or changes one. -/
theorem Edit.spec?_run_of_some {s : Scope} {typeName param : String} {spec : DefaultSpec}
    (hs : s.defaults.spec? typeName param = some spec) (e : Edit) :
    (e.run s).1.defaults.spec? typeName param = some spec := by
  cases e with
  | setDefaults ty specs => exact DefaultTable.spec?_insertAll_of_some hs ty specs
  | bind name value location =>
    simp only [run]
    split <;> exact hs
  | _ => exact hs

namespace Catalog

/-- What a scope itself sets as the default of a parameter. -/
def defaultAt? (c : Catalog) (i : ScopeId) (typeName param : String) : Option DefaultSpec :=
  (c.scope? i).bind (·.defaults.spec? typeName param)

/-- Of these scopes one sets this default, and none of those before it sets one. -/
def NearestDefault (c : Catalog) (ids : List ScopeId) (typeName param : String)
    (spec : DefaultSpec) : Prop :=
  ∃ near j far, ids = near ++ j :: far ∧ c.defaultAt? j typeName param = some spec ∧
    ∀ k ∈ near, c.defaultAt? k typeName param = none

/-! ## The defaults of one scope -/

theorem scopeInvariant_keyed : ScopeInvariant fun s => s.defaults.Keyed where
  make _ _ _ := .empty
  edit s e hs := by
    cases e with
    | setDefaults typeName specs => exact hs.insertAll typeName specs
    | bind name value location =>
      simp only [Edit.run]
      split <;> exact hs
    | _ => exact hs
  registered _ _ hs := hs

theorem Reachable.param_eq_of_defaultAt? {c : Catalog} (hc : Reachable c) {i : ScopeId}
    {typeName param : String} {spec : DefaultSpec}
    (hi : c.defaultAt? i typeName param = some spec) : spec.param = param := by
  obtain ⟨s, hs, hspec⟩ := Option.bind_eq_some_iff.1 hi
  exact scopeInvariant_keyed.of_reachable hc i s hs typeName param spec hspec

/-- A default that a scope has set stays, whatever happens. -/
theorem Turn.Effect.defaultAt?_of_some {c c' : Catalog} {t : Turn} (he : Effect c t c')
    {j : ScopeId} {typeName param : String} {spec : DefaultSpec}
    (hj : c.defaultAt? j typeName param = some spec) :
    c'.defaultAt? j typeName param = some spec := by
  obtain ⟨s, hs, hspec⟩ := Option.bind_eq_some_iff.1 hj
  obtain ⟨s', hs', hafter⟩ := he.scopesAfter.kept j s hs
  rw [defaultAt?, hs', Option.bind_some]
  cases hafter with
  | kept => exact hspec
  | edited e => exact Edit.spec?_run_of_some hspec e
  | registered kind => exact hspec

theorem defaultAt?_runAll_of_some {c : Catalog} {j : ScopeId} {typeName param : String}
    {spec : DefaultSpec} (hj : c.defaultAt? j typeName param = some spec) (turns : List Turn) :
    (Turn.runAll c turns).defaultAt? j typeName param = some spec :=
  Turn.runAll_keeps (P := fun c => c.defaultAt? j typeName param = some spec)
    (fun t _ c hc => (t.effect c).defaultAt?_of_some hc) hj

theorem defaultAt?_of_edit_setDefaults {c c' : Catalog} {j : ScopeId} {typeName : String}
    {specs : List DefaultSpec}
    (hset : c.edit j (.setDefaults typeName specs) = (c', some (.ok ()))) :
    ∀ spec ∈ specs, c'.defaultAt? j typeName spec.param = some spec := by
  obtain ⟨s, hs, hrun, rfl⟩ := edit_eq_some hset
  intro spec hspec
  rw [defaultAt?, scope?_modifyScope, if_pos rfl, hs]
  exact DefaultTable.spec?_insertAll_of_ok hrun spec hspec

/-! ## Ancestries in the course of time -/

theorem Ancestry.run_turn {c : Catalog} (hc : IsForest c) {i : ScopeId} {ids : List ScopeId}
    (ha : Ancestry c i ids) (hi : i.index < c.count) (t : Turn) : Ancestry (t.run c) i ids := by
  have hkept : ∀ {k : ScopeId}, k.index < c.count → (t.run c).parentOf k = c.parentOf k :=
    (t.effect c).parentOf_eq
  induction ha with
  | root hr => exact .root ((hkept hi).trans hr)
  | up hp _ ih =>
    -- the parent is older, so it was there too
    have hlt := (hc.parent_lt _ _ hp).2
    exact .up ((hkept hi).trans hp) (ih (by omega))

theorem Ancestry.runTurns {c : Catalog} (hc : IsForest c) {i : ScopeId} {ids : List ScopeId}
    (ha : Ancestry c i ids) (hi : i.index < c.count) (turns : List Turn) :
    Ancestry (Turn.runAll c turns) i ids ∧ i.index < (Turn.runAll c turns).count := by
  induction turns generalizing c with
  | nil => exact ⟨ha, hi⟩
  | cons t turns ih =>
    have hcount := (t.effect c).count_le
    exact ih (hc.run_turn t) (ha.run_turn hc hi t) (by omega)

/-! ## Collecting -/

theorem nearestDefault_iff {c : Catalog} {ids : List ScopeId} {typeName param : String}
    {spec : DefaultSpec} :
    c.NearestDefault ids typeName param spec ↔
      ids.findSome? (c.defaultAt? · typeName param) = some spec :=
  List.findSome?_eq_some_iff.symm

/-- Laying defaults from the root inward leaves the nearest of each parameter on top. -/
theorem getElem?_layDefaults (typeName : String) (hs : List Handle) (param : String) :
    (layDefaults typeName hs)[param]? =
      hs.findSome? fun h => h.scope.defaults.spec? typeName param := by
  induction hs with
  | nil => exact Std.ExtTreeMap.getElem?_empty
  | cons h hs ih =>
    have hlay : layDefaults typeName (h :: hs) = (layDefaults typeName hs).insertMany
        ((h.scope.defaults.get? typeName).getD ∅).toList := rfl
    have hown : ((h.scope.defaults.get? typeName).getD ∅)[param]? =
        h.scope.defaults.spec? typeName param := by
      rw [DefaultTable.spec?]
      cases h.scope.defaults.get? typeName with
      | none => exact Std.ExtTreeMap.getElem?_empty
      | some own => rfl
    rw [hlay, getElem?_insertMany_self, hown, ih, List.findSome?_cons]
    cases h.scope.defaults.spec? typeName param <;> rfl

theorem IsForest.collectDefaults_eq {c : Catalog} (hc : IsForest c) {i : ScopeId} {h : Handle}
    (hi : c.handle? i = some h) {ids : List ScopeId} (ha : Ancestry c i ids)
    (typeName : String) :
    ∃ defaults, c.collectDefaults h typeName = .ok defaults ∧
      ∀ param, defaults[param]? = ids.findSome? (c.defaultAt? · typeName param) := by
  refine ⟨layDefaults typeName (ids.filterMap c.handle?), ?_, fun param => ?_⟩
  · show (c.chain h).map (layDefaults typeName) = _
    rw [hc.chain_eq hi ha]
    rfl
  · rw [getElem?_layDefaults]
    exact c.findSome?_filterMap_scope ids (·.defaults.spec? typeName param)

/-- After any turns the defaults are collected from the same scopes as before. -/
theorem IsForest.collectDefaults_runAll {c : Catalog} (hc : IsForest c) {i : ScopeId} {h : Handle}
    (hi : c.handle? i = some h) {ids : List ScopeId} (ha : Ancestry c i ids) (typeName : String)
    (turns : List Turn) :
    ∃ h' after, (Turn.runAll c turns).handle? i = some h' ∧
      (Turn.runAll c turns).collectDefaults h' typeName = .ok after ∧
      ∀ param, after[param]? =
        ids.findSome? ((Turn.runAll c turns).defaultAt? · typeName param) := by
  obtain ⟨ha', hcount⟩ := ha.runTurns hc (index_lt_of_handle? hi) turns
  obtain ⟨h', hi'⟩ := exists_handle?_of_index_lt hcount
  obtain ⟨after, hafter, hget⟩ := (hc.runTurns turns).collectDefaults_eq hi' ha' typeName
  exact ⟨h', after, hi', hafter, hget⟩

/-! ## Top theorem -/

/-- In a reachable catalog the defaults of a type can be collected from every scope.  They are
there for exactly the parameters for which some scope of the ancestry has one, each is the default
of the nearest such scope, and each stands under its own parameter.  If later a scope of the
ancestry sets defaults, then whatever happens after that, each default that it has is collected
unless a nearer scope has one for the parameter; and it has all that were set if that succeeded. -/
theorem collectDefaults_iff_nearest {c : Catalog} (hc : Reachable c) {i : ScopeId} {h : Handle}
    (hi : c.handle? i = some h) (typeName : String) :
    ∃ ids defaults, Ancestry c i ids ∧ c.collectDefaults h typeName = .ok defaults ∧
      (∀ param, param ∈ defaults ↔ ∃ j ∈ ids, c.defaultAt? j typeName param ≠ none) ∧
      (∀ (param : String) (spec : DefaultSpec),
        (defaults[param]? = some spec ↔ c.NearestDefault ids typeName param spec) ∧
        (defaults[param]? = some spec → spec.param = param)) ∧
      ∀ near j far, ids = near ++ j :: far → ∀ specs c' outcome,
        c.edit j (.setDefaults typeName specs) = (c', outcome) →
        (outcome = some (.ok ()) →
          ∀ spec ∈ specs, c'.defaultAt? j typeName spec.param = some spec) ∧
        ∀ turns, ∃ h' after, (Turn.runAll c' turns).handle? i = some h' ∧
          (Turn.runAll c' turns).collectDefaults h' typeName = .ok after ∧
          ∀ param spec, c'.defaultAt? j typeName param = some spec →
            (∀ k ∈ near, (Turn.runAll c' turns).defaultAt? k typeName param = none) →
            after[param]? = some spec := by
  have hf := hc.isForest
  obtain ⟨ids, ha⟩ := hf.exists_ancestry i
  obtain ⟨defaults, hdefaults, hget⟩ := hf.collectDefaults_eq hi ha typeName
  refine ⟨ids, defaults, ha, hdefaults, fun param => ?_, fun param spec => ?_, ?_⟩
  · rw [Std.ExtTreeMap.mem_iff_isSome_getElem?, hget, List.findSome?_isSome_iff]
    simp only [Option.isSome_iff_ne_none]
  · rw [hget, ← nearestDefault_iff]
    refine ⟨Iff.rfl, ?_⟩
    rintro ⟨near, j, far, -, hj, -⟩
    exact hc.param_eq_of_defaultAt? hj
  · rintro near j far rfl specs c' outcome hset
    -- that defaults are set is a turn like those that follow
    have hc' : Turn.run c (.command (.edit j (.setDefaults typeName specs))) = c' := by
      show (c.edit j _).1 = c'
      rw [hset]
    refine ⟨?_, fun turns => ?_⟩
    · rintro rfl
      exact defaultAt?_of_edit_setDefaults hset
    · obtain ⟨h', after, hi', hafter, hget'⟩ := hf.collectDefaults_runAll hi ha typeName
        (.command (.edit j (.setDefaults typeName specs)) :: turns)
      rw [Turn.runAll_cons, hc'] at hi' hafter
      refine ⟨h', after, hi', hafter, fun param spec hspec hfree => ?_⟩
      -- the ancestry is the one from before, and `j` still has what it had when it was edited
      rw [hget', Turn.runAll_cons, hc', ← nearestDefault_iff]
      exact ⟨near, j, far, rfl, defaultAt?_runAll_of_some hspec turns, hfree⟩

/-- The sample with defaults in its root and, for one of the parameters, in its lowest scope. -/
def sampleDefaults : Catalog :=
  Command.runAll sample
    [.edit top (.setDefaults "File" [⟨"mode", .str "0644", .unknown⟩,
      ⟨"owner", .str "root", .unknown⟩]),
     .edit ⟨2⟩ (.setDefaults "File" [⟨"mode", .str "0600", ⟨none, some 3⟩⟩])]

/-- The lowest scope has its own mode and the owner of the root.  A group that the scope between
sets is collected there too, and its mode is not. -/
theorem collectDefaults_iff_nearest_file :
    ∃ h defaults c' h' after, sampleDefaults.handle? ⟨2⟩ = some h ∧
      sampleDefaults.collectDefaults h "File" = .ok defaults ∧
      defaults["mode"]? = some ⟨"mode", .str "0600", ⟨none, some 3⟩⟩ ∧
      defaults["owner"]? = some ⟨"owner", .str "root", .unknown⟩ ∧ "group" ∉ defaults ∧
      sampleDefaults.edit ⟨1⟩ (.setDefaults "File" [⟨"mode", .str "0640", .unknown⟩,
        ⟨"group", .str "adm", .unknown⟩]) = (c', some (.ok ())) ∧
      c'.handle? ⟨2⟩ = some h' ∧ c'.collectDefaults h' "File" = .ok after ∧
      after["group"]? = some ⟨"group", .str "adm", .unknown⟩ := by
  have hreach : Reachable sampleDefaults := reachable_sample.runAll _
  obtain ⟨ids, defaults, ha, hdefaults, hmem, hget, hlater⟩ :=
    collectDefaults_iff_nearest hreach (i := ⟨2⟩) rfl "File"
  obtain rfl : ids = [⟨2⟩, ⟨1⟩, ⟨0⟩] := ha.unique (.up rfl (.up rfl (.root rfl)))
  obtain ⟨hset, hafter⟩ := hlater [⟨2⟩] ⟨1⟩ [⟨0⟩] rfl
    [⟨"mode", .str "0640", .unknown⟩, ⟨"group", .str "adm", .unknown⟩] _ _ rfl
  obtain ⟨h', after, hh', hcollected, hshown⟩ := hafter []
  refine ⟨_, defaults, _, h', after, rfl, hdefaults, ?_, ?_, ?_, rfl, hh', hcollected, ?_⟩
  · exact (hget _ _).1.2 ⟨[], ⟨2⟩, [⟨1⟩, ⟨0⟩], rfl, by decide, by simp⟩
  · exact (hget _ _).1.2 ⟨[⟨2⟩, ⟨1⟩], ⟨0⟩, [], rfl, by decide, by decide⟩
  · rw [hmem]
    decide
  · have hgroup := hset rfl ⟨"group", .str "adm", .unknown⟩ (by simp)
    exact hshown _ _ hgroup (by decide)

end Catalog

end ScopeTree
