import ScopeTree.Proofs.Ancestry

/-!
# Which binding is seen

From a scope the nearest binding of a name is seen: that of the first scope of its ancestry
that binds the name.  A lookup goes outward and stops at it; the snapshot of all variables is
laid from the root inward and ends with it on top.  Both come out at the same value.

    lookup c h mode name = the first of (ids.findSome? (valueAt? · name))   (IsForest.lookup_eq)
    vars[name]? = ids.findSome? (valueAt? · name)                 (IsForest.visibleVariables_eq)

An explicit `undef` is a value like any other: as the nearest binding it is what is seen.
-/

namespace ScopeTree

open Text (separator splitLast?_eq_none_iff)

namespace Catalog

/-- The value that a scope itself binds to a name. -/
def valueAt? (c : Catalog) (i : ScopeId) (name : String) : Option Value :=
  (c.scope? i).bind fun s => s.bindings.value? name

/-- Of these scopes one binds the name to `v`, and none of those before it binds the name. -/
def NearestBinding (c : Catalog) (ids : List ScopeId) (name : String) (v : Value) : Prop :=
  ∃ near j far, ids = near ++ j :: far ∧ c.valueAt? j name = some v ∧
    ∀ k ∈ near, c.valueAt? k name = none

/-! ## Lemmas -/

theorem splitName?_eq_none_iff {name : String} :
    splitName? name = none ↔ ¬ separator <:+: name.toList := by
  rw [splitName?, Option.map_eq_none_iff, splitLast?_eq_none_iff]

theorem valueAt?_of_handle? {c : Catalog} {i : ScopeId} {h : Handle} (hi : c.handle? i = some h)
    (name : String) : c.valueAt? i name = h.scope.bindings.value? name := by
  unfold valueAt? scope?
  rw [hi]
  rfl

theorem nearestBinding_iff {c : Catalog} {ids : List ScopeId} {name : String} {v : Value} :
    c.NearestBinding ids name v ↔ ids.findSome? (c.valueAt? · name) = some v :=
  List.findSome?_eq_some_iff.symm

/-- What the first scope of a line gives that gives anything is the first of what their ids
give. -/
theorem findSome?_filterMap_scope {α : Type} (c : Catalog) (ids : List ScopeId)
    (f : Scope → Option α) :
    ((ids.filterMap c.handle?).findSome? fun h => f h.scope) =
      ids.findSome? fun i => (c.scope? i).bind f := by
  induction ids with
  | nil => rfl
  | cons i ids ih =>
    rw [List.findSome?_cons, scope?]
    cases hi : c.handle? i with
    | none =>
      rw [List.filterMap_cons_none hi, ih]
      rfl
    | some h =>
      rw [List.filterMap_cons_some hi, List.findSome?_cons, ih]
      rfl

/-- Of the scopes of a line the first binding counts as of their ids. -/
theorem findSome?_filterMap_handle? (c : Catalog) (ids : List ScopeId) (name : String) :
    ((ids.filterMap c.handle?).findSome? fun h => h.scope.bindings.value? name) =
      ids.findSome? (c.valueAt? · name) :=
  c.findSome?_filterMap_scope ids (·.bindings.value? name)

theorem getElem?_insertMany_toList {α β : Type} (upper : Std.ExtTreeMap String α)
    (lower : Std.ExtTreeMap String β) (f : α → β) (key : String) :
    (lower.insertMany (upper.toList.map fun (k, a) => (k, f a)))[key]? =
      (upper[key]?.map f).or lower[key]? := by
  cases hu : upper[key]? with
  | none =>
    refine Std.ExtTreeMap.getElem?_insertMany_list_of_contains_eq_false ?_
    rw [Bool.eq_false_iff]
    intro hc
    rw [List.contains_iff_mem, List.map_map, List.mem_map] at hc
    obtain ⟨⟨k, a⟩, hm, hk⟩ := hc
    rw [Std.ExtTreeMap.mem_toList_iff_getElem?_eq_some] at hm
    rw [show k = key from hk, hu] at hm
    cases hm
  | some a =>
    refine Std.ExtTreeMap.getElem?_insertMany_list_of_mem (Std.compare_eq_iff_eq.2 rfl) ?_ ?_
    · rw [List.pairwise_map]
      exact Std.ExtTreeMap.distinct_keys_toList
    · rw [List.mem_map]
      exact ⟨(key, a), Std.ExtTreeMap.mem_toList_iff_getElem?_eq_some.2 hu, rfl⟩

theorem getElem?_insertMany_self {α : Type} (upper lower : Std.ExtTreeMap String α)
    (key : String) : (lower.insertMany upper.toList)[key]? = upper[key]?.or lower[key]? := by
  have hover := getElem?_insertMany_toList upper lower id key
  rw [Option.map_id, id] at hover
  rw [← hover]
  exact congrArg (fun entries => (lower.insertMany entries)[key]?) (List.map_id upper.toList).symm

/-- Laying variables from the root inward leaves the nearest on top. -/
theorem getElem?_layVariables (hs : List Handle) (name : String) :
    (layVariables hs)[name]? = hs.findSome? fun h => h.scope.bindings.value? name := by
  induction hs with
  | nil => exact Std.ExtTreeMap.getElem?_empty
  | cons h hs ih =>
    have hlay : layVariables (h :: hs) =
        (layVariables hs).insertMany h.scope.bindings.toList := rfl
    rw [hlay, Bindings.toList, getElem?_insertMany_toList, ih, List.findSome?_cons]
    show (h.scope.bindings.value? name).or _ = _
    cases h.scope.bindings.value? name <;> rfl

theorem Line.lookupFrom_eq {c : Catalog} {h : Handle} {hs : List Handle} (hl : Line c h hs)
    (hf : hs.length ≤ c.count + 1) (mode : LookupMode) (name : String) :
    c.lookupFrom h mode name =
      .ok ((hs.findSome? fun g => g.scope.bindings.value? name).elim mode.unbound mode.bound) := by
  have hstop := stop_along (fun s : Scope => s.bindings.value? name) hs
  have hclimb : c.climbToBinding h name = Climb.along (·.bindings.value? name) hs :=
    hl.climb_eq _ hf
  unfold lookupFrom
  rw [hclimb]
  split at hstop
  · next v hv =>
    obtain ⟨g, hg⟩ := hstop
    rw [hg, hv]
    rfl
  · next hv =>
    rw [hstop, hv]
    rfl

namespace IsForest

variable {c : Catalog} {i : ScopeId} {h : Handle} {ids : List ScopeId}

/-- A plain lookup answers with the nearest binding, and always answers. -/
theorem lookup_eq (hc : IsForest c) (hi : c.handle? i = some h) (ha : Ancestry c i ids)
    (mode : LookupMode) {name : String} (hn : ¬ separator <:+: name.toList) :
    c.lookup h mode name =
      .ok ((ids.findSome? (c.valueAt? · name)).elim mode.unbound mode.bound) := by
  rw [lookup_of_plain c h mode (splitName?_eq_none_iff.2 hn),
    (ha.line hc hi).lookupFrom_eq (hc.length_line_le hi ha), findSome?_filterMap_handle?]

theorem visibleVariables_eq (hc : IsForest c) (hi : c.handle? i = some h)
    (ha : Ancestry c i ids) :
    ∃ vars, c.visibleVariables h true = .ok vars ∧
      ∀ name, vars[name]? = ids.findSome? (c.valueAt? · name) := by
  refine ⟨layVariables (ids.filterMap c.handle?), ?_, fun name => ?_⟩
  · show (c.chain h).map layVariables = _
    rw [hc.chain_eq hi ha]
    rfl
  · rw [getElem?_layVariables, findSome?_filterMap_handle?]

end IsForest

/-! ## Top theorem -/

/-- In a reachable catalog a raw lookup of a plain name never fails.  It finds exactly the
value of the nearest binding in the ancestry of the scope, and nothing exactly when no scope
there binds the name; and all variables together show the same. -/
theorem lookup_raw_iff_nearestBinding {c : Catalog} (hc : Reachable c) {i : ScopeId}
    {h : Handle} (hi : c.handle? i = some h) :
    ∃ ids vars, Ancestry c i ids ∧ c.visibleVariables h true = .ok vars ∧
      ∀ name, ¬ separator <:+: name.toList →
        (∃ r, c.lookup h .raw name = .ok r) ∧
        (∀ v, c.lookup h .raw name = .ok (.found v) ↔ c.NearestBinding ids name v) ∧
        (c.lookup h .raw name = .ok .undefined ↔ ∀ j ∈ ids, c.valueAt? j name = none) ∧
        (∀ v, vars[name]? = some v ↔ c.NearestBinding ids name v) := by
  have hf := hc.isForest
  obtain ⟨ids, ha⟩ := hf.exists_ancestry i
  obtain ⟨vars, hvars, hget⟩ := hf.visibleVariables_eq hi ha
  refine ⟨ids, vars, ha, hvars, fun name hn => ?_⟩
  rw [hf.lookup_eq hi ha .raw hn, hget, ← List.findSome?_eq_none_iff]
  simp only [nearestBinding_iff]
  cases ids.findSome? (c.valueAt? · name) with
  | none =>
    refine ⟨⟨_, rfl⟩, fun v => ⟨fun hv => ?_, fun hv => ?_⟩, ⟨fun _ => rfl, fun _ => rfl⟩,
      fun _ => trivial⟩
    · cases hv
    · cases hv
  | some w =>
    have hraw : LookupMode.raw.bound w = .found w := by cases w <;> rfl
    refine ⟨⟨_, rfl⟩, fun v => ⟨fun hv => ?_, fun hv => ?_⟩, ⟨fun hv => ?_, fun hv => ?_⟩,
      fun _ => trivial⟩
    · rw [Option.elim_some, hraw] at hv
      cases hv
      rfl
    · cases hv
      rw [Option.elim_some, hraw]
    · rw [Option.elim_some, hraw] at hv
      cases hv
    · cases hv

/-- In the lowest scope of the sample `x` is `undef`, though the root binds it to a text. -/
theorem lookup_raw_undef_hides :
    ∃ h, sample.handle? ⟨2⟩ = some h ∧ ¬ separator <:+: "x".toList ∧
      sample.lookup h .raw "x" = .ok (.found .undef) := by
  refine ⟨_, rfl, by decide, ?_⟩
  obtain ⟨ids, vars, ha, -, hall⟩ :=
    lookup_raw_iff_nearestBinding reachable_sample (i := ⟨2⟩) rfl
  have hids : ids = [⟨2⟩, ⟨1⟩, ⟨0⟩] := ha.unique (.up rfl (.up rfl (.root rfl)))
  have hnear : sample.NearestBinding ids "x" .undef := by
    refine ⟨[⟨2⟩], ⟨1⟩, [⟨0⟩], hids, by decide, fun k hk => ?_⟩
    rw [List.mem_singleton.1 hk]
    decide
  exact ((hall "x" (by decide)).2.1 .undef).2 hnear

end Catalog

end ScopeTree
