import ScopeTree.Proofs.SearchPath

/-!
# The defaults that a scope sets

Defaults are set one by one.  The first whose parameter is taken, by the table or by one before it
in the list, ends that with an error, and those before it stay.  A table that is worked on in place
gives the type a map before it looks for the parameter there; no empty map is ever left behind by
that, since a parameter that is taken is in a map that was there before.

    insertAll sets the list up to its first repeat               (insertAll_cases)
    setInPlace t typeName specs = insertAll t typeName specs     (setInPlace_eq)
    Sets (attemptAll .empty attempts) (accepted .empty attempts) (Sets.attemptAll)

So what a table has is what was accepted, type by type, and a type has a map exactly if something
was accepted for it.
-/

namespace ScopeTree

namespace DefaultTable

/-! ## Specification -/

/-- The parameter at this position has a default already, in the table or by an earlier position. -/
def IsRepeat (t : DefaultTable) (typeName : String) (specs : List DefaultSpec) (k : Nat) : Prop :=
  ∃ spec, specs[k]? = some spec ∧
    ((t.spec? typeName spec.param).isSome ∨ ∃ earlier ∈ specs.take k, earlier.param = spec.param)

/-- The second table has the defaults of the first one and, for one type, these. -/
structure Adds (t : DefaultTable) (typeName : String) (added : List DefaultSpec)
    (t' : DefaultTable) : Prop where
  get?_other (ty : String) : ty ≠ typeName → t'.get? ty = t.get? ty
  spec?_iff (param : String) (spec : DefaultSpec) : t'.spec? typeName param = some spec ↔
    t.spec? typeName param = some spec ∨ (spec ∈ added ∧ spec.param = param)
  get?_eq_none_iff : t'.get? typeName = none ↔ t.get? typeName = none ∧ added = []

/-- The table has just these defaults, each for a type. -/
structure Sets (t : DefaultTable) (defaults : List (String × DefaultSpec)) : Prop where
  spec?_iff (typeName param : String) (spec : DefaultSpec) :
    t.spec? typeName param = some spec ↔ (typeName, spec) ∈ defaults ∧ spec.param = param
  get?_isSome_iff (typeName : String) :
    (t.get? typeName).isSome ↔ ∃ spec, (typeName, spec) ∈ defaults

/-- Setting a default in place: the type gets its map, if it has none, and then the parameter is
looked for there. -/
def insertInPlace (t : DefaultTable) (typeName : String) (spec : DefaultSpec) :
    DefaultTable × Except ScopeError Unit :=
  let params := (t.get? typeName).getD ∅
  let entered : DefaultTable := ⟨t.byType.insert typeName params⟩
  if params.contains spec.param then
    (entered, .error (.duplicateDefault typeName spec.param spec.location))
  else (⟨entered.byType.insert typeName (params.insert spec.param spec)⟩, .ok ())

/-- Setting defaults in place, in order, up to the first that is refused. -/
def setInPlace (t : DefaultTable) (typeName : String) :
    List DefaultSpec → DefaultTable × Except ScopeError Unit
  | [] => (t, .ok ())
  | spec :: specs =>
    match t.insertInPlace typeName spec with
    | (t', .ok ()) => t'.setInPlace typeName specs
    | (t', .error e) => (t', .error e)

/-- The table after attempts to set defaults, each for a type, one after another. -/
def attemptAll (t : DefaultTable) (attempts : List (String × DefaultSpec)) : DefaultTable :=
  attempts.foldl (fun t a => (t.insertInPlace a.1 a.2).1) t

/-- Those of the attempts that succeed. -/
def accepted : DefaultTable → List (String × DefaultSpec) → List (String × DefaultSpec)
  | _, [] => []
  | t, (typeName, spec) :: attempts =>
    match t.insertInPlace typeName spec with
    | (t', .ok ()) => (typeName, spec) :: accepted t' attempts
    | (t', .error _) => accepted t' attempts

/-! ## Setting in place -/

/-- Working in place makes no difference: where the parameter is taken, the map was there. -/
theorem insertInPlace_eq (t : DefaultTable) (typeName : String) (spec : DefaultSpec) :
    t.insertInPlace typeName spec = match t.insert typeName spec with
      | .ok t' => (t', .ok ())
      | .error e => (t, .error e) := by
  unfold insertInPlace insert
  dsimp only
  by_cases hparam : ((t.get? typeName).getD ∅).contains spec.param = true
  · rw [if_pos hparam, if_pos hparam]
    have hkept : t.byType.insert typeName ((t.get? typeName).getD ∅) = t.byType := by
      refine Std.ExtTreeMap.ext_getElem? fun ty => ?_
      rw [Std.ExtTreeMap.getElem?_insert]
      split
      · next hty =>
        obtain rfl := Std.compare_eq_iff_eq.1 hty
        show some ((t.get? typeName).getD ∅) = t.get? typeName
        cases hparams : t.get? typeName with
        | some params => rfl
        | none =>
          rw [hparams] at hparam
          simp at hparam
      · rfl
    rw [hkept]
  · rw [if_neg hparam, if_neg hparam]
    have hover : (t.byType.insert typeName ((t.get? typeName).getD ∅)).insert typeName
        (((t.get? typeName).getD ∅).insert spec.param spec) =
          t.byType.insert typeName (((t.get? typeName).getD ∅).insert spec.param spec) := by
      refine Std.ExtTreeMap.ext_getElem? fun ty => ?_
      rw [Std.ExtTreeMap.getElem?_insert, Std.ExtTreeMap.getElem?_insert,
        Std.ExtTreeMap.getElem?_insert]
      split <;> rfl
    rw [hover]

theorem setInPlace_eq (t : DefaultTable) (typeName : String) (specs : List DefaultSpec) :
    t.setInPlace typeName specs = t.insertAll typeName specs := by
  induction specs generalizing t with
  | nil => rfl
  | cons spec specs ih =>
    rw [setInPlace, insertAll, insertInPlace_eq]
    cases t.insert typeName spec with
    | ok t' => exact ih t'
    | error e => rfl

/-! ## One default more -/

/-- A new default is in the map of its type, which is there from then on, and no other map is
touched. -/
theorem get?_insert {t t' : DefaultTable} {typeName : String} {spec : DefaultSpec}
    (h : t.insert typeName spec = .ok t') (ty : String) :
    t'.get? ty = if ty = typeName then
        some (((t.get? typeName).getD ∅).insert spec.param spec)
      else t.get? ty := by
  unfold insert at h
  dsimp only at h
  split at h
  · cases h
  · cases h
    show (t.byType.insert typeName _)[ty]? = _
    rw [Std.ExtTreeMap.getElem?_insert]
    simp only [Std.compare_eq_iff_eq, eq_comm (a := typeName)]
    rfl

theorem spec?_insert_eq_some_iff {t t' : DefaultTable} {typeName : String} {spec : DefaultSpec}
    (h : t.insert typeName spec = .ok t') {ty param : String} {found : DefaultSpec} :
    t'.spec? ty param = some found ↔
      t.spec? ty param = some found ∨ (ty = typeName ∧ found = spec ∧ spec.param = param) := by
  rw [spec?_insert h]
  by_cases hnew : ty = typeName ∧ param = spec.param
  · obtain ⟨rfl, rfl⟩ := hnew
    rw [if_pos ⟨rfl, rfl⟩, spec?_eq_none_of_insert h]
    simp [eq_comm]
  · rw [if_neg hnew]
    constructor
    · intro hold
      exact Or.inl hold
    · rintro (hold | ⟨rfl, -, rfl⟩)
      · exact hold
      · exact absurd ⟨rfl, rfl⟩ hnew

namespace Adds

variable {t t' : DefaultTable} {typeName : String}

theorem refl (t : DefaultTable) (typeName : String) : Adds t typeName [] t where
  get?_other _ _ := rfl
  spec?_iff _ _ := by simp
  get?_eq_none_iff := by simp

/-- One default, and then others. -/
theorem cons {spec : DefaultSpec} (h : t.insert typeName spec = .ok t') {added : List DefaultSpec}
    {t'' : DefaultTable} (hrest : Adds t' typeName added t'') :
    Adds t typeName (spec :: added) t'' where
  get?_other ty hty := by
    rw [hrest.get?_other ty hty, get?_insert h, if_neg hty]
  spec?_iff param found := by
    rw [hrest.spec?_iff, spec?_insert_eq_some_iff h, List.mem_cons]
    constructor
    · rintro ((hold | ⟨-, rfl, hparam⟩) | ⟨hadded, hparam⟩)
      · exact Or.inl hold
      · exact Or.inr ⟨Or.inl rfl, hparam⟩
      · exact Or.inr ⟨Or.inr hadded, hparam⟩
    · rintro (hold | ⟨rfl | hadded, hparam⟩)
      · exact Or.inl (Or.inl hold)
      · exact Or.inl (Or.inr ⟨rfl, rfl, hparam⟩)
      · exact Or.inr ⟨hadded, hparam⟩
  get?_eq_none_iff := by
    rw [hrest.get?_eq_none_iff, get?_insert h, if_pos rfl]
    simp

end Adds

/-! ## Up to the first repeat -/

section

variable {t t' : DefaultTable} {typeName : String} {spec : DefaultSpec} {specs : List DefaultSpec}

theorem isRepeat_zero_iff :
    t.IsRepeat typeName (spec :: specs) 0 ↔ (t.spec? typeName spec.param).isSome := by
  simp [IsRepeat]

theorem isRepeat_succ_iff (h : t.insert typeName spec = .ok t') (k : Nat) :
    t.IsRepeat typeName (spec :: specs) (k + 1) ↔ t'.IsRepeat typeName specs k := by
  have htaken : ∀ param, (t'.spec? typeName param).isSome ↔
      (t.spec? typeName param).isSome ∨ spec.param = param := by
    intro param
    rw [spec?_insert h]
    by_cases hparam : param = spec.param
    · simp [hparam]
    · have hne : ¬ spec.param = param := fun he => hparam he.symm
      simp [hparam, hne]
  unfold IsRepeat
  simp only [List.getElem?_cons_succ, List.take_succ_cons, htaken, List.mem_cons, or_and_right,
    exists_or, exists_eq_left, or_assoc]

/-- Setting a list of defaults either succeeds and sets them all, or stops at its first repeat. -/
theorem insertAll_cases (t : DefaultTable) (typeName : String) (specs : List DefaultSpec) :
    ((∀ k, ¬ t.IsRepeat typeName specs k) ∧ (t.insertAll typeName specs).2 = .ok () ∧
      t.Adds typeName specs (t.insertAll typeName specs).1) ∨
    ∃ k spec, specs[k]? = some spec ∧ t.IsRepeat typeName specs k ∧
      (∀ j < k, ¬ t.IsRepeat typeName specs j) ∧
      (t.insertAll typeName specs).2 =
        .error (.duplicateDefault typeName spec.param spec.location) ∧
      t.Adds typeName (specs.take k) (t.insertAll typeName specs).1 := by
  induction specs generalizing t with
  | nil => exact Or.inl ⟨by simp [IsRepeat], rfl, .refl t typeName⟩
  | cons first specs ih =>
    cases h : t.insert typeName first with
    | error e =>
      obtain ⟨htaken, rfl⟩ := insert_eq_error_iff.1 h
      refine Or.inr ⟨0, first, rfl, isRepeat_zero_iff.2 htaken, by simp, ?_, ?_⟩
      · rw [insertAll, h]
      · rw [insertAll, h]
        exact .refl t typeName
    | ok t' =>
      have hall : t.insertAll typeName (first :: specs) = t'.insertAll typeName specs := by
        rw [insertAll, h]
      have hfirst : ¬ t.IsRepeat typeName (first :: specs) 0 := by
        rw [isRepeat_zero_iff, spec?_eq_none_of_insert h]
        simp
      -- the first place is no repeat, so the rest has its places moved by one
      rw [hall]
      rcases ih t' with ⟨hnone, hok, hadds⟩ | ⟨k, spec, hk, hrepeat, hbefore, herror, hadds⟩
      · refine Or.inl ⟨fun k => ?_, hok, hadds.cons h⟩
        cases k with
        | zero => exact hfirst
        | succ k =>
          rw [isRepeat_succ_iff h]
          exact hnone k
      · refine Or.inr ⟨k + 1, spec, hk, (isRepeat_succ_iff h k).2 hrepeat, fun j hj => ?_, herror,
          hadds.cons h⟩
        cases j with
        | zero => exact hfirst
        | succ j =>
          rw [isRepeat_succ_iff h]
          exact hbefore j (Nat.lt_of_succ_lt_succ hj)

end

/-! ## What was accepted is what there is -/

namespace Sets

variable {t : DefaultTable} {defaults : List (String × DefaultSpec)}

theorem empty : Sets .empty [] where
  spec?_iff typeName param spec := by simp
  get?_isSome_iff typeName := by simp [DefaultTable.empty, get?]

theorem insert (ht : Sets t defaults) {typeName : String} {spec : DefaultSpec} {t' : DefaultTable}
    (h : t.insert typeName spec = .ok t') : Sets t' (defaults ++ [(typeName, spec)]) where
  spec?_iff ty param found := by
    rw [spec?_insert_eq_some_iff h, ht.spec?_iff, List.mem_append, List.mem_singleton,
      Prod.mk.injEq, or_and_right]
    constructor
    · rintro (hold | ⟨rfl, rfl, hparam⟩)
      · exact Or.inl hold
      · exact Or.inr ⟨⟨rfl, rfl⟩, hparam⟩
    · rintro (hold | ⟨⟨rfl, rfl⟩, hparam⟩)
      · exact Or.inl hold
      · exact Or.inr ⟨rfl, rfl, hparam⟩
  get?_isSome_iff ty := by
    rw [get?_insert h]
    by_cases hty : ty = typeName
    · rw [if_pos hty, hty]
      exact ⟨fun _ => ⟨spec, List.mem_append_right _ List.mem_cons_self⟩, fun _ => rfl⟩
    · rw [if_neg hty, ht.get?_isSome_iff]
      simp [hty]

theorem attemptAll (ht : Sets t defaults) (attempts : List (String × DefaultSpec)) :
    Sets (t.attemptAll attempts) (defaults ++ t.accepted attempts) := by
  induction attempts generalizing t defaults with
  | nil =>
    rw [accepted, List.append_nil]
    exact ht
  | cons a attempts ih =>
    obtain ⟨typeName, spec⟩ := a
    rw [DefaultTable.attemptAll, List.foldl_cons, accepted, insertInPlace_eq]
    cases h : t.insert typeName spec with
    | ok t' =>
      have hrest := ih (ht.insert h)
      rw [List.append_assoc] at hrest
      exact hrest
    | error e => exact ih ht

theorem param_eq (ht : Sets t defaults) {typeName param : String} {params : DefaultMap}
    {spec : DefaultSpec} (hparams : t.get? typeName = some params)
    (hspec : params[param]? = some spec) : spec.param = param := by
  refine ((ht.spec?_iff typeName param spec).1 ?_).2
  rw [spec?, hparams]
  exact hspec

theorem ne_empty (ht : Sets t defaults) {typeName : String} {params : DefaultMap}
    (hparams : t.get? typeName = some params) : params ≠ ∅ := by
  rintro rfl
  obtain ⟨spec, hspec⟩ := (ht.get?_isSome_iff typeName).1 (by rw [hparams]; rfl)
  have hfound := (ht.spec?_iff typeName spec.param spec).2 ⟨hspec, rfl⟩
  rw [spec?, hparams, Option.bind_some, Std.ExtTreeMap.getElem?_empty] at hfound
  cases hfound

end Sets

theorem values_eq_map_toList {α : Type} (m : Std.ExtTreeMap String α) :
    m.values = m.toList.map (·.2) := by
  obtain ⟨m⟩ := m
  induction m using Std.ExtDTreeMap.inductionOn with
  | mk m =>
    have hlist : Std.DTreeMap.Const.toList m = m.inner.toListModel.map fun e => (e.1, e.2) :=
      Std.DTreeMap.Internal.Impl.Const.toList_eq_toListModel_map
    show m.inner.values = (Std.DTreeMap.Const.toList m).map (·.2)
    rw [Std.DTreeMap.Internal.Impl.values_eq_map_snd, hlist, List.map_map]
    rfl

theorem isEmpty_iff {t : DefaultTable} :
    t.isEmpty = true ↔ ∀ typeName params, t.get? typeName = some params → params = ∅ := by
  rw [isEmpty, values_eq_map_toList, List.all_map, List.all_eq_true]
  constructor
  · intro h typeName params hparams
    exact Std.ExtTreeMap.isEmpty_iff.1
      (h (typeName, params) (Std.ExtTreeMap.mem_toList_iff_getElem?_eq_some.2 hparams))
  · rintro h ⟨typeName, params⟩ hmem
    exact Std.ExtTreeMap.isEmpty_iff.2
      (h typeName params (Std.ExtTreeMap.mem_toList_iff_getElem?_eq_some.1 hmem))

theorem Sets.isEmpty_iff {t : DefaultTable} {defaults : List (String × DefaultSpec)}
    (ht : Sets t defaults) : t.isEmpty = true ↔ defaults = [] := by
  rw [DefaultTable.isEmpty_iff, List.eq_nil_iff_forall_not_mem]
  constructor
  · rintro h ⟨typeName, spec⟩ hmem
    obtain ⟨params, hparams⟩ :=
      Option.isSome_iff_exists.1 ((ht.get?_isSome_iff typeName).2 ⟨spec, hmem⟩)
    exact ht.ne_empty hparams (h typeName params hparams)
  · intro h typeName params hparams
    obtain ⟨spec, hmem⟩ := (ht.get?_isSome_iff typeName).1 (by rw [hparams]; rfl)
    exact absurd hmem (h (typeName, spec))

end DefaultTable

/-! ## Scopes -/

theorem DefaultTable.exists_attempts_insertAll (t : DefaultTable) (typeName : String)
    (specs : List DefaultSpec) :
    ∃ attempts, (t.insertAll typeName specs).1 = t.attemptAll attempts := by
  induction specs generalizing t with
  | nil => exact ⟨[], rfl⟩
  | cons spec specs ih =>
    cases h : t.insert typeName spec with
    | error e => exact ⟨[], by rw [insertAll, h]; rfl⟩
    | ok t' =>
      obtain ⟨attempts, hrest⟩ := ih t'
      refine ⟨(typeName, spec) :: attempts, ?_⟩
      rw [insertAll, h, attemptAll, List.foldl_cons, insertInPlace_eq, h]
      exact hrest

theorem Catalog.scopeInvariant_attempted :
    ScopeInvariant fun s => ∃ attempts, s.defaults = DefaultTable.empty.attemptAll attempts where
  make _ _ _ := ⟨[], rfl⟩
  edit s e hs := by
    cases e with
    | setDefaults typeName specs =>
      obtain ⟨attempts, hs⟩ := hs
      obtain ⟨more, hmore⟩ := s.defaults.exists_attempts_insertAll typeName specs
      refine ⟨attempts ++ more, ?_⟩
      show (s.defaults.insertAll typeName specs).1 = _
      rw [hmore, hs, DefaultTable.attemptAll, DefaultTable.attemptAll, DefaultTable.attemptAll,
        List.foldl_append]
    | bind name value location =>
      simp only [Edit.run]
      split <;> exact hs
    | _ => exact hs
  registered _ _ hs := hs

/-- Wherever a session holds a scope, the defaults of the scope are those of accepted attempts. -/
theorem Session.sets_of_runAll {types : TypeTable} (ht : types.Built) {steps : List Step}
    (hsteps : ∀ step ∈ steps, step.Sound) {t : Target} {h : Handle}
    (hh : (runAll (.new types) steps).handle? t = some h) :
    ∃ attempts, h.scope.defaults.Sets (DefaultTable.empty.accepted attempts) := by
  have hlived := lived_of_runAll ht hsteps hh
  obtain ⟨attempts, hattempts⟩ := hlived.of_invariant Catalog.scopeInvariant_attempted
  exact ⟨attempts, hattempts ▸ DefaultTable.Sets.empty.attemptAll attempts⟩

/-! ## Top theorem -/

/-- A scope that is given defaults for a type sets all of them if no parameter is taken, by the
scope or by one before it in the list.  Otherwise it fails with the first that is, and has set just
those before it; working on the table in place comes to the same.  Nothing else about the scope
changes.  Its table is one that attempts to set defaults lead to, and any such table has what was
accepted under its parameters and nothing else, with a map for exactly the types for which something
was. -/
theorem Scope.Lived.sets_up_to_repeat {s : Scope} (hs : s.Lived) (typeName : String)
    (specs : List DefaultSpec) :
    let result := Edit.run s (.setDefaults typeName specs)
    ((∀ k, ¬ s.defaults.IsRepeat typeName specs k) → result.2 = .ok () ∧
      s.defaults.Adds typeName specs result.1.defaults) ∧
    (∀ k spec, specs[k]? = some spec → s.defaults.IsRepeat typeName specs k →
      (∀ j < k, ¬ s.defaults.IsRepeat typeName specs j) →
      result.2 = .error (.duplicateDefault typeName spec.param spec.location) ∧
        s.defaults.Adds typeName (specs.take k) result.1.defaults) ∧
    result.1 = { s with defaults := result.1.defaults } ∧
    s.defaults.setInPlace typeName specs = (result.1.defaults, result.2) ∧
    (∃ attempts, s.defaults = DefaultTable.empty.attemptAll attempts) ∧
    ∀ attempts, let t := DefaultTable.empty.attemptAll attempts
      let accepted := DefaultTable.empty.accepted attempts
      (∀ ty param spec,
        t.spec? ty param = some spec ↔ (ty, spec) ∈ accepted ∧ spec.param = param) ∧
      (∀ ty params, t.get? ty = some params → params ≠ ∅ ∧
        ∀ (param : String) (spec : DefaultSpec), params[param]? = some spec → spec.param = param) ∧
      (∀ ty, (t.get? ty).isSome ↔ ∃ spec, (ty, spec) ∈ accepted) ∧
      (t.isEmpty = true ↔ accepted = []) := by
  intro result
  have hdefaults : result.1.defaults = (s.defaults.insertAll typeName specs).1 := rfl
  have houtcome : result.2 = (s.defaults.insertAll typeName specs).2 := rfl
  rw [hdefaults, houtcome]
  have hcases := s.defaults.insertAll_cases typeName specs
  refine ⟨fun hnone => ?_, fun k spec hk hrepeat hbefore => ?_, rfl,
    s.defaults.setInPlace_eq typeName specs,
    hs.of_invariant Catalog.scopeInvariant_attempted, fun attempts => ?_⟩
  · rcases hcases with ⟨-, hset⟩ | ⟨k, -, -, hrepeat, -⟩
    · exact hset
    · exact absurd hrepeat (hnone k)
  · rcases hcases with ⟨hnone, -⟩ | ⟨k', spec', hk', hrepeat', hbefore', hset⟩
    · exact absurd hrepeat (hnone k)
    · -- there is one first repeat only
      obtain rfl : k' = k := by
        rcases Nat.lt_trichotomy k' k with hlt | heq | hlt
        · exact absurd hrepeat' (hbefore k' hlt)
        · exact heq
        · exact absurd hrepeat (hbefore' k hlt)
      rw [hk] at hk'
      cases hk'
      exact hset
  · intro t accepted
    have ht : t.Sets accepted := DefaultTable.Sets.empty.attemptAll attempts
    exact ⟨ht.spec?_iff, fun ty params hparams => ⟨ht.ne_empty hparams, fun param spec hspec =>
      ht.param_eq hparams hspec⟩, ht.get?_isSome_iff, ht.isEmpty_iff⟩

def sampleOwner : Scope :=
  (Edit.run (.make ⟨1⟩ {} none) (.setDefaults "File"
    [⟨"mode", .str "0644", .unknown⟩, ⟨"owner", .str "root", .unknown⟩])).1

/-- Of three more defaults the second is the first for a parameter that is taken, by the first of
them.  The third one would have been refused too, for the scope has set it. -/
theorem Scope.Lived.sets_up_to_repeat_group :
    let specs : List DefaultSpec := [⟨"group", .str "adm", .unknown⟩,
      ⟨"group", .str "staff", ⟨none, some 4⟩⟩, ⟨"mode", .str "0600", .unknown⟩]
    sampleOwner.Lived ∧
      (Edit.run sampleOwner (.setDefaults "File" specs)).2 =
        .error (.duplicateDefault "File" "group" ⟨none, some 4⟩) ∧
      sampleOwner.defaults.Adds "File" (specs.take 1)
        (Edit.run sampleOwner (.setDefaults "File" specs)).1.defaults := by
  intro specs
  have hlived : sampleOwner.Lived := .edit (.make ⟨1⟩ {} none) _
  have hrepeat : sampleOwner.defaults.IsRepeat "File" specs 1 :=
    ⟨_, rfl, Or.inr ⟨_, List.mem_cons_self, rfl⟩⟩
  have hfirst : ¬ sampleOwner.defaults.IsRepeat "File" specs 0 := by
    rw [DefaultTable.isRepeat_zero_iff]
    decide
  obtain ⟨-, hstops, -⟩ := hlived.sets_up_to_repeat "File" specs
  have hbefore : ∀ j < 1, ¬ sampleOwner.defaults.IsRepeat "File" specs j := by
    intro j hj
    obtain rfl := Nat.lt_one_iff.1 hj
    exact hfirst
  obtain ⟨herror, hadds⟩ := hstops 1 _ rfl hrepeat hbefore
  exact ⟨hlived, herror, hadds⟩

end ScopeTree
