import ScopeTree.Proofs.History
import ScopeTree.Proofs.KeptParent

/-!
# The variables that a scope itself binds

What a scope binds itself is its own matter.  All the same it looks for its parent before it
answers, even if it is asked for nothing else.  With the catalog in which it asked for its parent
first this cannot be noticed.  If another catalog takes that one's place, though, and does not have
the parent that the scope has kept, there is no answer.

    visibleVariables h false = ok own ↔ the kept parent, if any, is there
                                                                 (IsForest.visibleVariables_own_iff)
    Whole s → step does not begin anew → Whole (s.run step)      (Whole.run)

So a session with one catalog always gets the answer, from scopes of the catalog and from those
outside it.
-/

namespace ScopeTree

/-! ## Specification -/

/-- The variables are those that the scope binds, each with its value. -/
def Scope.HasVariables (s : Scope) (vars : VariableMap) : Prop :=
  ∀ name, vars[name]? = s.bindings.value? name

/-- If the scope has kept a parent, the catalog has a scope of that id. -/
def Catalog.HasKept (c : Catalog) (h : Handle) : Prop :=
  ∀ p, h.link = .settled (some p) → p.index < c.count

/-- Every scope of the session has kept a parent that is there, if it has kept any. -/
structure Session.Whole (s : Session) : Prop where
  forest : s.catalog.IsForest
  hasKept : ∀ h ∈ s.detached, s.catalog.HasKept h

/-! ## One answer -/

namespace Catalog

theorem hasVariables_layVariables (h : Handle) : h.scope.HasVariables (layVariables [h]) := by
  intro name
  rw [getElem?_layVariables, List.findSome?_cons, List.findSome?_nil]
  cases h.scope.bindings.value? name <;> rfl

namespace IsForest

variable {c : Catalog} {h : Handle}

/-- The parent that a scope goes by is there: the catalog gives none that it does not have. -/
theorem index_lt_of_parentId (hc : IsForest c) (hkept : c.HasKept h) {p : ScopeId}
    (hp : c.parentId h = some p) : p.index < c.count := by
  unfold parentId at hp
  cases hl : h.link with
  | settled q =>
    rw [hl] at hp
    exact hkept p (hl.trans (congrArg ParentLink.settled hp))
  | unasked =>
    rw [hl] at hp
    have hparent := hc.parent_lt h.scope.id p hp
    omega

theorem exists_parentScope (hc : IsForest c) (hkept : c.HasKept h) :
    ∃ up, c.parentScope h = .ok up := by
  unfold parentScope
  cases hp : c.parentId h with
  | none => exact ⟨none, rfl⟩
  | some p =>
    obtain ⟨up, hup⟩ := exists_handle?_of_index_lt (hc.index_lt_of_parentId hkept hp)
    exact ⟨some up, by simp only [hup]⟩

theorem visibleVariables_own (hc : IsForest c) (hkept : c.HasKept h) :
    c.visibleVariables h false = .ok (layVariables [h]) := by
  obtain ⟨up, hup⟩ := hc.exists_parentScope hkept
  show (c.parentScope h).map _ = _
  rw [hup]
  rfl

end IsForest

theorem visibleVariables_own_of_lost {c : Catalog} {h : Handle} {p : ScopeId}
    (hl : h.link = .settled (some p)) (hp : c.count ≤ p.index) :
    c.visibleVariables h false = .error (lostParent h p) := by
  have hparent : c.parentId h = some p := by
    rw [parentId, hl]
    rfl
  have hlost : c.handle? p = none := by
    rw [← Option.not_isSome_iff_eq_none, handle?_isSome_iff]
    omega
  exact (failsAbove_of_lost hparent hlost).visibleVariables false

theorem IsForest.visibleVariables_own_iff {c : Catalog} (hc : IsForest c) {h : Handle} :
    c.visibleVariables h false = .ok (layVariables [h]) ↔ c.HasKept h := by
  refine ⟨fun hown p hl => Nat.lt_of_not_le fun hp => ?_, hc.visibleVariables_own⟩
  rw [visibleVariables_own_of_lost hl hp] at hown
  cases hown

/-! ## One catalog -/

theorem HasKept.of_count_le {c c' : Catalog} {h : Handle} (hkept : c.HasKept h)
    (hcount : c.count ≤ c'.count) : c'.HasKept h :=
  fun p hl => Nat.lt_of_lt_of_le (hkept p hl) hcount

theorem IsForest.hasKept_settle {c : Catalog} (hc : IsForest c) {h : Handle}
    (hkept : c.HasKept h) : c.HasKept (c.settle h) := by
  intro p hl
  have hp : c.parentId h = some p := ParentLink.settled.inj hl
  exact hc.index_lt_of_parentId hkept hp

theorem IsForest.hasKept {c : Catalog} (hc : IsForest c) {i : ScopeId} {h : Handle}
    (hi : c.handle? i = some h) : c.HasKept h := by
  intro p hl
  rcases hc.link_eq i h hi with hlink | hlink
  · rw [hlink] at hl
    cases hl
  · rw [hlink] at hl
    have hparent := hc.parent_lt i p (ParentLink.settled.inj hl)
    omega

theorem Turn.count_le_runAll (c : Catalog) (turns : List Turn) :
    c.count ≤ (Turn.runAll c turns).count :=
  Turn.runAll_keeps (P := fun c' => c.count ≤ c'.count)
    (fun t _ c' hle => Nat.le_trans hle (t.effect c').count_le) (Nat.le_refl _)

end Catalog

namespace Session

variable {s : Session}

theorem whole_new (types : TypeTable) : Whole (.new types) :=
  ⟨.new types, by simp [new]⟩

theorem Whole.of_handle? (hs : s.Whole) {t : Target} {h : Handle} (ht : s.handle? t = some h) :
    s.catalog.HasKept h := by
  cases t with
  | inCatalog id => exact hs.forest.hasKept ht
  | detached n => exact hs.hasKept h (Array.mem_of_getElem? ht)

/-- A step that does not begin anew keeps the catalog, to which it may add. -/
theorem Whole.run (hs : s.Whole) {step : Step} (hstep : ∀ types, step ≠ .reset types) :
    (s.run step).1.Whole := by
  obtain ⟨turns, -, hturns⟩ := Catalog.exists_turns_of_step s hstep
  have hforest : (s.run step).1.catalog.IsForest := by
    rw [hturns]
    exact hs.forest.runTurns turns
  have hcount : s.catalog.count ≤ (s.run step).1.catalog.count := by
    rw [hturns]
    exact Catalog.Turn.count_le_runAll s.catalog turns
  refine ⟨hforest, fun g hg => Catalog.HasKept.of_count_le ?_ hcount⟩
  cases heldAfter hg with
  | kept hh => exact hs.hasKept g hh
  | made id o level =>
    -- a scope that was just made has not asked
    intro p hl
    cases hl
  | copied ht => exact hs.of_handle? ht
  | @edited h hh e => exact fun p hl => hs.hasKept h hh p hl
  | asked hh => exact hs.forest.hasKept_settle (hs.hasKept _ hh)

theorem Whole.runAll (hs : s.Whole) {steps : List Step}
    (hsteps : ∀ step ∈ steps, ∀ types, step ≠ .reset types) : (s.runAll steps).Whole := by
  induction steps generalizing s with
  | nil => exact hs
  | cons step steps ih =>
    exact ih (hs.run (hsteps step List.mem_cons_self))
      fun step' h => hsteps step' (List.mem_cons_of_mem _ h)

end Session

/-! ## Top theorem -/

/-- There is one answer that a scope gives when it is asked for its own variables, which is what it
binds.  It gives it with every catalog that can be come to, unless it has kept a parent that this
catalog does not have, and fails then.  In a session that never begins anew it always gives it,
whether it is a scope of the catalog or one outside it. -/
theorem ownVariables_iff_hasKept (h : Handle) :
    ∃ own, h.scope.HasVariables own ∧
      (∀ c : Catalog, c.Reachable →
        (c.visibleVariables h false = .ok own ↔ c.HasKept h) ∧
        ∀ p, h.link = .settled (some p) → c.count ≤ p.index →
          c.visibleVariables h false = .error (.internal (.missingParent p h.scope.text))) ∧
      ∀ types steps t, (∀ step ∈ steps, ∀ types', step ≠ Session.Step.reset types') →
        let s := (Session.new types).runAll steps
        s.handle? t = some h → s.catalog.visibleVariables h false = .ok own := by
  refine ⟨Catalog.layVariables [h], Catalog.hasVariables_layVariables h, fun c hc => ?_,
    fun types steps t hsteps => ?_⟩
  · exact ⟨hc.isForest.visibleVariables_own_iff, fun p hl hp =>
      Catalog.visibleVariables_own_of_lost hl hp⟩
  · intro s ht
    have hs : s.Whole := (Session.whole_new types).runAll hsteps
    exact hs.forest.visibleVariables_own (hs.of_handle? ht)

/-- A scope under a scope under the top scope binds `x` and is asked for its variables.  A copy of
it outlives the catalog. -/
def sampleOutlived : Session :=
  (Session.new .empty).runAll
    [.command (.childScope Catalog.top {}), .command (.childScope ⟨1⟩ {}),
      .command (.edit ⟨2⟩ (.bind "x" (.str "1") .unknown)),
      .command (.ask ⟨2⟩ (.visibleVariables false)), .copy (.inCatalog ⟨2⟩), .reset .empty]

/-- The copy binds `x` as ever, and has no answer in the new catalog. -/
theorem not_ownVariables_outlived :
    (∃ h, sampleOutlived.detached[0]? = some h ∧ h.scope.bindings.value? "x" = some (.str "1") ∧
      (sampleOutlived.run (.ask 0 (.visibleVariables false))).2 =
        some (.error (.internal (.missingParent ⟨1⟩ h.scope.text)))) ∧
    ¬ ∀ (h : Handle) (c c' : Catalog), c.Reachable → c'.Reachable →
      ∃ vars, h.scope.HasVariables vars ∧ c.visibleVariables h false = .ok vars ∧
        c'.visibleVariables h false = .ok vars := by
  obtain ⟨h, hn⟩ : ∃ h, sampleOutlived.detached[0]? = some h := ⟨_, rfl⟩
  have hbound : h.scope.bindings.value? "x" = some (.str "1") := by
    cases hn
    decide
  have hkept : h.link = .settled (some ⟨1⟩) := by
    cases hn
    rfl
  have hlost : (Catalog.new .empty).visibleVariables h false =
      .error (.internal (.missingParent ⟨1⟩ h.scope.text)) :=
    Catalog.visibleVariables_own_of_lost hkept (Nat.le_refl 1)
  refine ⟨⟨h, hn, hbound, ?_⟩, fun hall => ?_⟩
  · obtain ⟨hanswer, -⟩ := Session.run_ask_detached hn (.visibleVariables false)
    exact hanswer.trans (congrArg some hlost)
  · obtain ⟨vars, -, -, hanswer⟩ := hall h _ _ (.new .empty) (.new .empty)
    rw [hlost] at hanswer
    cases hanswer

end ScopeTree
