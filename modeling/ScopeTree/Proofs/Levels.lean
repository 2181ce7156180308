import ScopeTree.Proofs.InheritedDefaults
import ScopeTree.Proofs.Isolation
import ScopeTree.Proofs.Roots

/-!
# Levels

A scope gets its level once, when it is made: the one that is asked for, or the level below its
parent's.  So the level counts the links up to the nearest scope of the ancestry that was given one,
and starts there from what that scope was given, or from 1 at the root.  Counting ends at the last
level that there is.

    Charts (runAll (.new types) turns) (makings types turns)     (charts_runAll)
    level? i = levelAlong (explicitLevel? made) ids              (Charts.level?_eq)
    levelAlong (near ++ far) = min (levelAlong far + near.length) maxLevel
                                                                 (levelAlong_append)

That a scope is marked as a top scope makes no difference to its level: it has no parent then.
-/

namespace ScopeTree.Catalog

/-! ## Specification -/

/-- The scope that a turn makes, if it makes one, and the options that it is made with. -/
def Turn.made? (c : Catalog) : Turn → Option (ScopeId × ScopeOptions)
  | command (.newScope parent o) => (c.newScope parent o).toOption.map fun r => (r.2, o)
  | command (.childScope parent o) => (c.childScope parent o).toOption.map fun r => (r.2, o)
  | _ => none

/-- The scopes of a catalog with this history, each with the options that it was made with. -/
def makings (types : TypeTable) (turns : List Turn) : List (ScopeId × ScopeOptions) :=
  (top, topOptions) :: Turn.gather Turn.made? (.new types) turns

/-- The level that was asked for when the scope was made, if any was. -/
def explicitLevel? (made : List (ScopeId × ScopeOptions)) (i : ScopeId) : Option UInt32 :=
  (made.lookup i).bind (·.level)

def level? (c : Catalog) (i : ScopeId) : Option UInt32 := (c.scope? i).map (·.level)

/-- The level at the foot of a line of scopes, some of which were given one.  Above the root the
count would stand at 0. -/
def levelAlong (given : ScopeId → Option UInt32) : List ScopeId → UInt32
  | [] => 0
  | i :: above => (given i).getD (Scope.levelBelow (levelAlong given above))

/-- These are the scopes of the catalog in order, with options that account for their levels. -/
structure Charts (c : Catalog) (made : List (ScopeId × ScopeOptions)) : Prop where
  ids_eq : made.map (·.1) = (List.range c.count).map ScopeId.mk
  level_eq (i : ScopeId) : i.index < c.count → ∃ o, made.lookup i = some o ∧
    (o.top = true → c.parentOf i = none) ∧
    c.level? i = some (Scope.levelFor o ((c.parentOf i).bind c.level?))

/-! ## Counting -/

/-- Every scope that was given no level counts one, up to the last level. -/
theorem levelAlong_append (given : ScopeId → Option UInt32) {near : List ScopeId}
    (hnear : ∀ k ∈ near, given k = none) (far : List ScopeId) :
    (levelAlong given (near ++ far)).toNat =
      min ((levelAlong given far).toNat + near.length) 4294967295 := by
  induction near with
  | nil =>
    have hbound := (levelAlong given far).toNat_lt
    rw [List.nil_append, List.length_nil]
    omega
  | cons k near ih =>
    have hrest := ih fun j hj => hnear j (List.mem_cons_of_mem _ hj)
    rw [List.cons_append, levelAlong, hnear k List.mem_cons_self, Option.getD_none,
      Scope.levelBelow_toNat, hrest, List.length_cons]
    omega

theorem levelAlong_of_nearest {given : ScopeId → Option UInt32} {near : List ScopeId}
    (hnear : ∀ k ∈ near, given k = none) {a : ScopeId} {start : UInt32} (ha : given a = some start)
    (far : List ScopeId) :
    (levelAlong given (near ++ a :: far)).toNat =
      min (start.toNat + near.length) 4294967295 := by
  rw [levelAlong_append given hnear, levelAlong, ha, Option.getD_some]

theorem levelAlong_of_none {given : ScopeId → Option UInt32} {ids : List ScopeId}
    (hids : ∀ k ∈ ids, given k = none) :
    (levelAlong given ids).toNat = min ids.length 4294967295 := by
  have hcount := levelAlong_append given hids []
  rwa [List.append_nil, levelAlong, UInt32.toNat_zero, Nat.zero_add] at hcount

theorem explicitLevel?_eq_none {made : List (ScopeId × ScopeOptions)}
    (hmade : ∀ m ∈ made, m.2.level = none) (i : ScopeId) : explicitLevel? made i = none := by
  unfold explicitLevel?
  cases hi : made.lookup i with
  | none => rfl
  | some o =>
    obtain ⟨before, after, heq, -⟩ := List.lookup_eq_some_iff.1 hi
    exact hmade (i, o) (heq ▸ List.mem_append_right _ List.mem_cons_self)

/-! ## What a turn makes -/

theorem parentLevel_eq {c : Catalog} {parent : Option ScopeId} {level : Option UInt32}
    (h : c.parentLevel parent = .ok level) : level = parent.bind c.level? := by
  unfold parentLevel at h
  split at h
  · cases h
    rfl
  · split at h
    · next s hs =>
      cases h
      rw [Option.bind_some, level?, hs]
      rfl
    · cases h

/-- A turn that makes a scope puts it at the end, and any other leaves the tree as it is. -/
inductive Turn.Making (c : Catalog) (t : Turn) : Prop
  | no (hmade : t.made? c = none) (htree : SameTree c (t.run c))
  | yes (parent : Option ScopeId) (o : ScopeOptions) (hmade : t.made? c = some (⟨c.count⟩, o))
      (hparent : ∀ p ∈ parent, p.index < c.count) (htop : o.top = true → parent = none)
      (hrun : t.run c = c.push (Scope.make ⟨c.count⟩ o (parent.bind c.level?)) parent)

theorem Turn.making_newScope (c : Catalog) (parent : Option ScopeId) (o : ScopeOptions) :
    Turn.Making c (.command (.newScope parent o)) := by
  have hrun : (command (.newScope parent o)).run c =
      (Command.orUnchanged c (c.newScope parent o)).1 := rfl
  cases hr : c.newScope parent o with
  | error e =>
    refine .no (by rw [made?, hr]; rfl) ?_
    rw [hrun, hr]
    exact SameTree.of_nodes_eq rfl
  | ok r =>
    obtain ⟨c', id⟩ := r
    rw [hr] at hrun
    obtain ⟨level, hlevel, htop, -, rfl, rfl⟩ := newScope_eq_ok hr
    obtain rfl := parentLevel_eq hlevel
    refine .yes (parent.or o.parent) o (by rw [made?, hr]; rfl) (parentLevel_eq_ok hlevel) ?_ hrun
    intro ho
    simpa only [ho, Bool.true_and, Option.isSome_eq_false_iff, Option.isNone_iff_eq_none] using htop

theorem Turn.making (c : Catalog) (t : Turn) : Turn.Making c t := by
  cases t with
  | askedBy outsider q => exact .no rfl (SameTree.run c (by simp) (by simp))
  | exchange types => exact .no rfl (SameTree.run c (by simp) (by simp))
  | command cmd =>
    cases cmd with
    | newScope parent o => exact Turn.making_newScope c parent o
    | childScope parent o =>
      have hrun := Turn.run_childScope c parent o
      have hchild := c.childScope_eq parent o
      by_cases hp : (c.scope? parent).isSome
      · -- the turn is that of making a scope under this parent
        rw [if_pos hp] at hrun hchild
        have hmade? : made? c (.command (.childScope parent o)) =
            made? c (.command (.newScope (some parent) o)) := by
          rw [made?, made?, hchild]
        cases Turn.making_newScope c (some parent) o with
        | no hmade htree =>
          rw [← hrun] at htree
          exact .no (hmade?.trans hmade) htree
        | yes parent' o' hmade hparent htop hnew =>
          exact .yes parent' o' (hmade?.trans hmade) hparent htop (hrun.trans hnew)
      · rw [if_neg hp] at hrun hchild
        refine .no (by rw [made?, hchild]; rfl) ?_
        rw [hrun]
        exact SameTree.of_nodes_eq rfl
    | _ => exact .no rfl (SameTree.run c (by simp) (by simp))

/-! ## Charts -/

theorem level?_push_of_lt (c : Catalog) (s : Scope) (parent : Option ScopeId) {i : ScopeId}
    (hi : i.index < c.count) : (c.push s parent).level? i = c.level? i := by
  have hne : i.index ≠ c.count := by omega
  rw [level?, level?, scope?_push, if_neg hne]

theorem bind_level?_push (c : Catalog) (s : Scope) (parent : Option ScopeId)
    {up : Option ScopeId} (hup : ∀ p ∈ up, p.index < c.count) :
    up.bind (c.push s parent).level? = up.bind c.level? := by
  cases up with
  | none => rfl
  | some p => exact level?_push_of_lt c s parent (hup p rfl)

theorem SameTree.level?_eq {c c' : Catalog} (h : SameTree c c') : c'.level? = c.level? :=
  funext h.level_eq

namespace Charts

variable {c : Catalog} {made : List (ScopeId × ScopeOptions)}

theorem of_sameTree (hc : Charts c made) {c' : Catalog} (h : SameTree c c') : Charts c' made where
  ids_eq := by
    rw [h.count_eq]
    exact hc.ids_eq
  level_eq i hi := by
    rw [h.count_eq] at hi
    rw [h.parentOf_eq, h.level?_eq]
    exact hc.level_eq i hi

theorem lookup_next (hc : Charts c made) : made.lookup ⟨c.count⟩ = none := by
  rw [List.lookup_eq_none_iff]
  intro m hm
  have hid : m.1 ∈ (List.range c.count).map ScopeId.mk := by
    rw [← hc.ids_eq]
    exact List.mem_map_of_mem hm
  obtain ⟨n, hn, heq⟩ := List.mem_map.1 hid
  have hlt := List.mem_range.1 hn
  rw [bne_iff_ne, ← heq]
  intro hnext
  have := congrArg ScopeId.index hnext
  dsimp only at this
  omega

/-- The new scope has the level below its parent's unless another was asked for. -/
theorem push (hc : Charts c made) (hf : IsForest c) {parent : Option ScopeId} {o : ScopeOptions}
    (hparent : ∀ p ∈ parent, p.index < c.count) (htop : o.top = true → parent = none) :
    Charts (c.push (Scope.make ⟨c.count⟩ o (parent.bind c.level?)) parent)
      (made ++ [(⟨c.count⟩, o)]) := by
  constructor
  case ids_eq =>
    rw [count_push, List.range_succ, List.map_append, List.map_append, hc.ids_eq]
    rfl
  case level_eq =>
    intro i hi
    rw [count_push] at hi
    by_cases hnew : i.index = c.count
    · obtain rfl : i = ⟨c.count⟩ := congrArg ScopeId.mk hnew
      refine ⟨o, ?_, ?_, ?_⟩
      · rw [List.lookup_append, hc.lookup_next]
        simp
      · rw [parentOf_push, if_pos rfl]
        exact htop
      · rw [parentOf_push, if_pos rfl, bind_level?_push c _ parent hparent, level?, scope?_push,
          if_pos rfl]
        rfl
    · have hi : i.index < c.count := by omega
      obtain ⟨o', hlookup, htop', hlevel⟩ := hc.level_eq i hi
      have hup : ∀ p ∈ c.parentOf i, p.index < c.count := by
        intro p hp
        have hlt := hf.parent_lt i p hp
        omega
      refine ⟨o', ?_, ?_, ?_⟩
      · rw [List.lookup_append, hlookup]
        rfl
      · rw [parentOf_push, if_neg hnew]
        exact htop'
      · rw [parentOf_push, if_neg hnew, bind_level?_push c _ parent hup,
          level?_push_of_lt c _ parent hi]
        exact hlevel

theorem level?_of_root (hc : Charts c made) {i : ScopeId} (hi : i.index < c.count)
    (hroot : c.parentOf i = none) : c.level? i = some ((explicitLevel? made i).getD 1) := by
  obtain ⟨o, hlookup, -, hlevel⟩ := hc.level_eq i hi
  rw [hlevel, hroot, explicitLevel?, hlookup]
  simp only [Scope.levelFor, Option.bind_none, Option.bind_some, ite_self]
  cases o.level <;> rfl

theorem level?_of_parent (hc : Charts c made) {i p : ScopeId} (hi : i.index < c.count)
    (hp : c.parentOf i = some p) {level : UInt32} (hlevel : c.level? p = some level) :
    c.level? i = some ((explicitLevel? made i).getD (Scope.levelBelow level)) := by
  obtain ⟨o, hlookup, htop, hown⟩ := hc.level_eq i hi
  have hplain : o.top = false := by
    rw [← Bool.not_eq_true]
    intro ho
    rw [htop ho] at hp
    cases hp
  rw [hown, hp, explicitLevel?, hlookup, Option.bind_some, Option.bind_some, hlevel]
  simp only [Scope.levelFor, hplain, Bool.false_eq_true, if_false]
  cases o.level <;> rfl

theorem level?_eq (hc : Charts c made) (hf : IsForest c) {i : ScopeId} {ids : List ScopeId}
    (ha : Ancestry c i ids) (hi : i.index < c.count) :
    c.level? i = some (levelAlong (explicitLevel? made) ids) := by
  induction ha with
  | root hroot => exact hc.level?_of_root hi hroot
  | up hp _ ih =>
    have hlt := hf.parent_lt _ _ hp
    exact hc.level?_of_parent hi hp (ih (by omega))

end Charts

theorem charts_new (types : TypeTable) : Charts (.new types) [(top, topOptions)] where
  ids_eq := rfl
  level_eq i hi := by
    obtain rfl : i = top := congrArg ScopeId.mk (Nat.lt_one_iff.1 hi)
    exact ⟨topOptions, rfl, fun _ => rfl, rfl⟩

/-- The scopes that were made account for the levels of a catalog, whatever its history. -/
theorem charts_runAll (types : TypeTable) (turns : List Turn) :
    Charts (Turn.runAll (.new types) turns) (makings types turns) := by
  have hall := Turn.runAll_gathers Turn.made? (P := fun c made => IsForest c ∧ Charts c made) ?_
    [(top, topOptions)] ⟨.new types, charts_new types⟩ turns
  · exact hall.2
  · rintro c made t ⟨hf, hc⟩
    refine ⟨hf.run_turn t, ?_⟩
    cases t.making c with
    | no hmade htree =>
      rw [hmade, Option.toList_none, List.append_nil]
      exact hc.of_sameTree htree
    | yes parent o hmade hparent htop hrun =>
      rw [hmade, hrun]
      exact hc.push hf hparent htop

/-! ## Levels stay -/

theorem ScopeAfter.level_eq {s s' : Scope} (h : ScopeAfter s s') : s'.level = s.level := by
  cases h with
  | kept => rfl
  | edited e => exact Edit.run_level s e
  | registered kind => rfl

theorem level?_runAll_of_some {c : Catalog} {i : ScopeId} {level : UInt32}
    (hi : c.level? i = some level) (turns : List Turn) :
    (Turn.runAll c turns).level? i = some level := by
  refine Turn.runAll_keeps (P := fun c => c.level? i = some level) (fun t _ c hc => ?_) hi
  obtain ⟨s, hs, rfl⟩ := Option.map_eq_some_iff.1 hc
  obtain ⟨s', hs', hafter⟩ := (t.effect c).scopesAfter.kept i s hs
  rw [level?, hs', ← hafter.level_eq]
  rfl

/-! ## Top theorem -/

/-- Whatever the history of a catalog, its scopes are those that were made, in order, and each has
the level counted down from the nearest scope of its ancestry that was made with an explicit one, or
from 1 at the root if there is none, as far as there are levels.  It has it for ever.  If no scope
was made with an explicit level, the scopes on the level of roots are those without a parent. -/
theorem level_along_ancestry (types : TypeTable) (turns : List Turn) :
    let c := Turn.runAll (.new types) turns
    let given := explicitLevel? (makings types turns)
    (makings types turns).map (·.1) = (List.range c.count).map ScopeId.mk ∧
    (∀ i s, c.scope? i = some s → ∃ above, Ancestry c i (i :: above) ∧
      (∀ near a far start, i :: above = near ++ a :: far → (∀ k ∈ near, given k = none) →
        given a = some start → s.level.toNat = min (start.toNat + near.length) 4294967295) ∧
      ((∀ k ∈ i :: above, given k = none) →
        s.level.toNat = min (1 + above.length) 4294967295) ∧
      ∀ later, ∃ s', (Turn.runAll c later).scope? i = some s' ∧ s'.level = s.level) ∧
    ((∀ made ∈ makings types turns, made.2.level = none) →
      ∀ i s, c.scope? i = some s → (s.isTop = true ↔ c.parentOf i = none)) := by
  intro c given
  have hf : IsForest c := (IsForest.new types).runTurns turns
  have hc : Charts c (makings types turns) := charts_runAll types turns
  -- both ways of counting, from an explicit level and from the root, are read off this one
  have hcounted : ∀ i s, c.scope? i = some s → ∃ above, Ancestry c i (i :: above) ∧
      s.level = levelAlong given (i :: above) := by
    intro i s hs
    obtain ⟨ids, ha⟩ := hf.exists_ancestry i
    have hlevel := hc.level?_eq hf ha (index_lt_of_scope? hs)
    rw [level?, hs] at hlevel
    obtain ⟨above, rfl⟩ : ∃ above, ids = i :: above := by
      cases ha with
      | root _ => exact ⟨[], rfl⟩
      | up _ _ => exact ⟨_, rfl⟩
    exact ⟨above, ha, Option.some.inj hlevel⟩
  refine ⟨hc.ids_eq, fun i s hs => ?_, fun hnone i s hs => ?_⟩
  · obtain ⟨above, ha, hlevel⟩ := hcounted i s hs
    refine ⟨above, ha, ?_, fun hnone => ?_, fun later => ?_⟩
    · intro near a far start hids hnear hstart
      rw [hlevel, hids]
      exact levelAlong_of_nearest hnear hstart far
    · rw [hlevel, levelAlong_of_none hnone, List.length_cons, Nat.add_comm]
    · have hstays := level?_runAll_of_some (c := c) (by rw [level?, hs]; rfl) later
      exact Option.map_eq_some_iff.1 hstays
  · obtain ⟨above, ha, hlevel⟩ := hcounted i s hs
    have hcount : (levelAlong given (i :: above)).toNat = _ :=
      levelAlong_of_none fun k _ => explicitLevel?_eq_none hnone k
    rw [← hlevel, List.length_cons] at hcount
    rw [Scope.isTop, decide_eq_true_eq, ← UInt32.toNat_inj, hcount]
    cases ha with
    | root hroot => simp [hroot]
    | up hp habove =>
      -- with a scope above it the count is at least two, also where it stops at the last level
      have hpos : 0 < above.length := by cases habove <;> exact Nat.succ_pos _
      rw [hp]
      simp only [UInt32.reduceToNat, reduceCtorEq, iff_false]
      omega

/-- A scope on the last level but one, a scope under it, and one under that. -/
def sampleDeep : List Turn :=
  [.command (.newScope (some top) { level := some 4294967294 }), .command (.childScope ⟨1⟩ {}),
    .command (.childScope ⟨2⟩ {})]

/-- The lowest scope is two links away from the given level, and on the last one. -/
theorem level_along_ancestry_deep :
    ∃ s, (Turn.runAll (.new .empty) sampleDeep).scope? ⟨3⟩ = some s ∧
      explicitLevel? (makings .empty sampleDeep) ⟨1⟩ = some 4294967294 ∧
      s.level.toNat = 4294967295 := by
  obtain ⟨-, hscopes, -⟩ := level_along_ancestry .empty sampleDeep
  obtain ⟨above, ha, hnearest, -⟩ := hscopes ⟨3⟩ _ rfl
  obtain rfl : above = [⟨2⟩, ⟨1⟩, ⟨0⟩] := by
    have hids := ha.unique (.up rfl (.up rfl (.up rfl (.root rfl))))
    exact List.tail_eq_of_cons_eq hids
  have hgiven : explicitLevel? (makings .empty sampleDeep) ⟨1⟩ = some 4294967294 := by decide
  exact ⟨_, rfl, hgiven, hnearest [⟨3⟩, ⟨2⟩] ⟨1⟩ [⟨0⟩] _ rfl (by decide) hgiven⟩

end ScopeTree.Catalog
