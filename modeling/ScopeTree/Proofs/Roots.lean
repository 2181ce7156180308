import ScopeTree.Proofs.ClassScope

/-!
# Roots

A catalog begins with the top scope as its only root, the only scope on the level of roots and
the one that a leading separator leads to.  Whether it stays so is up to the scopes that are made:
one without a parent is a root of its own, whose names behind a leading separator are looked for
in itself, and one that is put on level 1 counts as a top scope wherever it stands.

    OneRoot c ↔ Rooted c                                         (IsForest.oneRoot_iff)
    Rooted (t.run c) ↔ Rooted c ∧ KeepsRoot c t                  (IsForest.rooted_run_iff)
    OneRoot (runAll (.new types) turns) ↔ KeepRoot (.new types) turns   (oneRoot_runAll_iff)

Nothing that happens later mends a catalog with a second root.
-/

namespace ScopeTree.Catalog

/-- From every scope the top scope is the root, no other scope counts as a top scope, and behind
a leading separator the top scope answers. -/
structure OneRoot (c : Catalog) : Prop where
  topScope (i : ScopeId) (h : Handle) : c.handle? i = some h →
    ∃ root, c.handle? top = some root ∧ c.topScope h = .ok root
  isTop_iff (i : ScopeId) (h : Handle) : c.handle? i = some h →
    (h.scope.isTop = true ↔ i = top)
  lookup (i : ScopeId) (h root : Handle) (mode : LookupMode) (name : String) :
    c.handle? i = some h → c.handle? top = some root → ':' ∉ name.toList →
      c.lookup h mode ("::" ++ name) = c.lookup root mode name

/-- The top scope is the only scope without a parent, and the only one on the level of roots. -/
structure Rooted (c : Catalog) : Prop where
  eq_top_of_root (i : ScopeId) : i.index < c.count → c.parentOf i = none → i = top
  isTop_iff (i : ScopeId) (s : Scope) : c.scope? i = some s → (s.isTop = true ↔ i = top)

/-- A scope with these options is put under another one, and not on the level of roots: neither
its own level nor, without one, that below its parent is 1. -/
def PutsBelow (c : Catalog) (parent : Option ScopeId) (o : ScopeOptions) : Prop :=
  ∃ p up, parent.or o.parent = some p ∧ c.scope? p = some up ∧
    o.level.getD (Scope.levelBelow up.level) ≠ 1

/-- If the turn makes a scope, then one that is put below another. -/
def Turn.KeepsRoot (c : Catalog) : Turn → Prop
  | command (.newScope parent o) => (∃ r, c.newScope parent o = .ok r) → c.PutsBelow parent o
  | command (.childScope parent o) =>
    (∃ r, c.childScope parent o = .ok r) → c.PutsBelow (some parent) o
  | _ => True

/-- Every scope that is made in the course of these turns is put below another. -/
def KeepRoot : Catalog → List Turn → Prop
  | _, [] => True
  | c, t :: turns => t.KeepsRoot c ∧ KeepRoot (t.run c) turns

/-- The same scopes stand in the same places on the same levels. -/
structure SameTree (c c' : Catalog) : Prop where
  count_eq : c'.count = c.count
  parentOf_eq (i : ScopeId) : c'.parentOf i = c.parentOf i
  level_eq (i : ScopeId) : (c'.scope? i).map (·.level) = (c.scope? i).map (·.level)

/-! ## Turns that make no scope -/

namespace SameTree

theorem of_nodes_eq {c c' : Catalog} (hn : c'.nodes = c.nodes) : SameTree c c' where
  count_eq := by simp only [count, hn]
  parentOf_eq i := by simp only [parentOf, hn]
  level_eq i := by simp only [scope?, handle?, hn]

theorem symm {c c' : Catalog} (h : SameTree c c') : SameTree c' c :=
  ⟨h.count_eq.symm, fun i => (h.parentOf_eq i).symm, fun i => (h.level_eq i).symm⟩

theorem trans {c c' c'' : Catalog} (h : SameTree c c') (h' : SameTree c' c'') : SameTree c c'' :=
  ⟨h'.count_eq.trans h.count_eq, fun i => (h'.parentOf_eq i).trans (h.parentOf_eq i),
    fun i => (h'.level_eq i).trans (h.level_eq i)⟩

theorem modifyScope (c : Catalog) (id : ScopeId) {f : Scope → Scope}
    (hf : ∀ s, (f s).level = s.level) : SameTree c (c.modifyScope id f) where
  count_eq := count_modifyScope c id f
  parentOf_eq := parentOf_modifyScope c id f
  level_eq i := by
    rw [scope?_modifyScope]
    split
    · rw [Option.map_map, show (fun s : Scope => s.level) ∘ f = (·.level) from funext hf]
    · rfl

theorem settleAll (c : Catalog) (ids : List ScopeId) : SameTree c (c.settleAll ids) where
  count_eq := count_settleAll c ids
  parentOf_eq := parentOf_settleAll c ids
  level_eq i := by rw [scope?_settleAll]

theorem run (c : Catalog) {t : Turn} (hnew : ∀ parent o, t ≠ .command (.newScope parent o))
    (hchild : ∀ parent o, t ≠ .command (.childScope parent o)) : SameTree c (t.run c) := by
  cases t with
  | askedBy outsider q => exact settleAll c _
  | exchange types => exact of_nodes_eq rfl
  | command cmd =>
    cases cmd with
    | edit id e =>
      show SameTree c (c.edit id e).1
      unfold edit
      split
      · exact modifyScope c id fun s => Edit.run_level s e
      · exact of_nodes_eq rfl
    | ask id q =>
      obtain ⟨ids, hrun⟩ := Turn.run_ask c id q
      rw [hrun]
      exact settleAll c ids
    | newScope parent o => exact absurd rfl (hnew parent o)
    | childScope parent o => exact absurd rfl (hchild parent o)
    | registerClass id d =>
      rw [Turn.run_registerClass]
      split
      · have hkind := modifyScope c id (f := fun s => { s with kind := s.kind.registered d })
          fun _ => rfl
        exact hkind.trans (of_nodes_eq rfl)
      · exact of_nodes_eq rfl
    | registerResource id r =>
      rw [Turn.run_registerResource]
      split <;> exact of_nodes_eq rfl
    | storeResource id r => exact of_nodes_eq rfl
    | registerOverride r => exact of_nodes_eq rfl
    | setClassScope className id => exact of_nodes_eq rfl
    | addClass d => exact of_nodes_eq rfl
    | addDefine d => exact of_nodes_eq rfl

/-- Which scopes are roots and which count as top scopes is a matter of the tree. -/
theorem rooted {c c' : Catalog} (h : SameTree c c') (hc : Rooted c) : Rooted c' := by
  constructor
  case eq_top_of_root =>
    intro i hi hroot
    rw [h.count_eq] at hi
    rw [h.parentOf_eq] at hroot
    exact hc.eq_top_of_root i hi hroot
  case isTop_iff =>
    intro i s' hs'
    have hlevel := h.level_eq i
    rw [hs', Option.map_some, eq_comm, Option.map_eq_some_iff] at hlevel
    obtain ⟨s, hs, hl⟩ := hlevel
    rw [← hc.isTop_iff i s hs, Scope.isTop, Scope.isTop, hl]

end SameTree

/-! ## New scopes -/

/-- A new scope leaves a catalog rooted if it has a parent and does not count as a top scope. -/
theorem rooted_push_iff {c : Catalog} (hpos : 0 < c.count) (s : Scope) (parent : Option ScopeId) :
    Rooted (c.push s parent) ↔ Rooted c ∧ parent ≠ none ∧ s.isTop = false := by
  -- with a scope there already the new one is not the top scope
  have hlast : (⟨c.count⟩ : ScopeId) ≠ top := by
    intro he
    have := congrArg ScopeId.index he
    simp only [top] at this
    omega
  have hnew : (c.push s parent).scope? ⟨c.count⟩ = some s := by rw [scope?_push, if_pos rfl]
  have hold : ∀ i : ScopeId, i.index < c.count →
      (c.push s parent).scope? i = c.scope? i ∧ (c.push s parent).parentOf i = c.parentOf i := by
    intro i hi
    have hne : i.index ≠ c.count := by omega
    rw [scope?_push, parentOf_push, if_neg hne, if_neg hne]
    exact ⟨rfl, rfl⟩
  constructor
  · intro hc
    refine ⟨⟨fun i hi hroot => ?_, fun i s' hs' => ?_⟩, fun hnone => ?_, ?_⟩
    · refine hc.eq_top_of_root i (by rw [count_push]; omega) ?_
      rw [(hold i hi).2]
      exact hroot
    · refine hc.isTop_iff i s' ?_
      rw [(hold i (index_lt_of_scope? hs')).1]
      exact hs'
    · refine hlast (hc.eq_top_of_root ⟨c.count⟩ (by rw [count_push]; exact Nat.lt_succ_self _) ?_)
      rw [parentOf_push, if_pos rfl, hnone]
    · rw [Bool.eq_false_iff]
      exact fun htop => hlast ((hc.isTop_iff _ _ hnew).1 htop)
  · rintro ⟨hc, hparent, htop⟩
    refine ⟨fun i hi hroot => ?_, fun i s' hs' => ?_⟩
    · rw [parentOf_push] at hroot
      split at hroot
      · exact absurd hroot hparent
      · next hne =>
        rw [count_push] at hi
        exact hc.eq_top_of_root i (by omega) hroot
    · rw [scope?_push] at hs'
      split at hs'
      · next he =>
        obtain ⟨n⟩ := i
        cases hs'
        obtain rfl : n = c.count := he
        exact ⟨fun ht => absurd ht (by simp [htop]), fun ht => absurd ht hlast⟩
      · exact hc.isTop_iff i s' hs'

/-- What it means for the options that a scope made with them is neither a root nor on the level
of roots. -/
theorem putsBelow_iff {c : Catalog} {parent : Option ScopeId} {o : ScopeOptions}
    {level : Option UInt32} (hlevel : c.parentLevel (parent.or o.parent) = .ok level)
    (htop : (o.top && (parent.or o.parent).isSome) = false) :
    c.PutsBelow parent o ↔
      parent.or o.parent ≠ none ∧ (Scope.make ⟨c.count⟩ o level).isTop = false := by
  unfold PutsBelow
  cases hp : parent.or o.parent with
  | none => simp
  | some p =>
    rw [hp] at hlevel htop
    have ho : o.top = false := by simpa using htop
    cases hs : c.scope? p with
    | none => simp only [parentLevel, hs] at hlevel; cases hlevel
    | some up =>
      simp only [parentLevel, hs] at hlevel
      cases hlevel
      have hmade : (Scope.make ⟨c.count⟩ o (some up.level)).level =
          o.level.getD (Scope.levelBelow up.level) := by
        show Scope.levelFor o (some up.level) = _
        unfold Scope.levelFor
        rw [ho]
        cases o.level <;> rfl
      simp [Scope.isTop, hmade, hs]

namespace IsForest

variable {c : Catalog}

theorem rooted_newScope_iff (hc : IsForest c) (parent : Option ScopeId) (o : ScopeOptions) :
    Rooted (Command.orUnchanged c (c.newScope parent o)).1 ↔
      Rooted c ∧ ((∃ r, c.newScope parent o = .ok r) → c.PutsBelow parent o) := by
  cases h : c.newScope parent o with
  | error e =>
    show Rooted c ↔ _
    simp
  | ok made =>
    obtain ⟨level, hlevel, htop, -, hc', -⟩ := newScope_eq_ok h
    show Rooted made.1 ↔ _
    rw [hc', rooted_push_iff hc.count_pos, putsBelow_iff hlevel htop]
    simp

/-- A turn leaves a catalog rooted exactly if it was so before and a scope that the turn makes is
put below another. -/
theorem rooted_run_iff (hc : IsForest c) (t : Turn) :
    Rooted (t.run c) ↔ Rooted c ∧ t.KeepsRoot c := by
  by_cases hnew : ∃ parent o, t = .command (.newScope parent o)
  · obtain ⟨parent, o, rfl⟩ := hnew
    exact hc.rooted_newScope_iff parent o
  by_cases hchild : ∃ parent o, t = .command (.childScope parent o)
  · obtain ⟨parent, o, rfl⟩ := hchild
    show Rooted (Command.orUnchanged c (c.childScope parent o)).1 ↔
      Rooted c ∧ ((∃ r, c.childScope parent o = .ok r) → c.PutsBelow (some parent) o)
    unfold childScope
    cases c.scope? parent with
    | none =>
      show Rooted c ↔ _
      simp
    | some _ => exact hc.rooted_newScope_iff (some parent) o
  · have hsame : SameTree c (t.run c) := SameTree.run c
      (fun parent o he => hnew ⟨parent, o, he⟩) fun parent o he => hchild ⟨parent, o, he⟩
    have hkeeps : t.KeepsRoot c := by
      unfold Turn.KeepsRoot
      split
      · next parent o => exact absurd ⟨parent, o, rfl⟩ hnew
      · next parent o => exact absurd ⟨parent, o, rfl⟩ hchild
      · trivial
    exact ⟨fun h => ⟨hsame.symm.rooted h, hkeeps⟩, fun h => hsame.rooted h.1⟩

theorem rooted_runAll_iff (hc : IsForest c) (turns : List Turn) :
    Rooted (Turn.runAll c turns) ↔ Rooted c ∧ KeepRoot c turns := by
  induction turns generalizing c with
  | nil => simp [KeepRoot]
  | cons t turns ih =>
    rw [Turn.runAll_cons, ih (hc.run_turn t), hc.rooted_run_iff t, KeepRoot, and_assoc]

/-- Where the climb from a scope ends, that scope answers behind a leading separator.  So there is
one root for all that is asked when there is one in the tree. -/
theorem oneRoot_iff (hc : IsForest c) : OneRoot c ↔ Rooted c := by
  have hsome : ∀ i s, c.scope? i = some s → ∃ h, c.handle? i = some h ∧ h.scope = s :=
    fun i s hs => Option.map_eq_some_iff.1 hs
  constructor
  · intro hone
    refine ⟨fun i hi hroot => ?_, fun i s hs => ?_⟩
    · obtain ⟨h, hh⟩ := exists_handle?_of_index_lt hi
      obtain ⟨root, htop, hclimb⟩ := hone.topScope i h hh
      -- a scope without a parent is its own root
      obtain ⟨r, root', hlast, -, hr, hclimb'⟩ := hc.exists_topScope hh (.root hroot)
      obtain rfl : i = r := Option.some.inj hlast
      rw [hclimb] at hclimb'
      cases hclimb'
      rw [← hc.id_eq i root hr, hc.id_eq top root htop]
    · obtain ⟨h, hh, rfl⟩ := hsome i s hs
      exact hone.isTop_iff i h hh
  · intro hrooted
    have hend : ∀ i h, c.handle? i = some h → ∃ ids root, Ancestry c i ids ∧
        ids.getLast? = some top ∧ c.handle? top = some root ∧ c.topScope h = .ok root := by
      intro i h hh
      obtain ⟨ids, ha⟩ := hc.exists_ancestry i
      obtain ⟨r, root, hlast, hr, hroot, hclimb⟩ := hc.exists_topScope hh ha
      obtain rfl := hrooted.eq_top_of_root r (index_lt_of_handle? hroot) hr
      exact ⟨ids, root, ha, hlast, hroot, hclimb⟩
    refine ⟨fun i h hh => ?_, fun i h hh => ?_, fun i h root mode name hh htop hn => ?_⟩
    · obtain ⟨-, root, -, -, htop, hclimb⟩ := hend i h hh
      exact ⟨root, htop, hclimb⟩
    · exact hrooted.isTop_iff i h.scope (scope?_of_handle? hh)
    · obtain ⟨ids, root', ha, -, htop', hclimb⟩ := hend i h hh
      rw [htop] at htop'
      cases htop'
      have hsplit : splitName? ("::" ++ name) = some ("", name) :=
        splitName?_absolute (no_separator_of_no_colon hn)
      obtain ⟨r, found, -, -, -, -, hfound, hlookup, -⟩ :=
        hc.lookup_of_leading hh mode hsplit ha
      rw [hclimb] at hfound
      cases hfound
      exact hlookup

end IsForest

theorem rooted_new (types : TypeTable) : Rooted (.new types) := by
  constructor
  case eq_top_of_root =>
    rintro ⟨n⟩ hn -
    have hzero : n = 0 := Nat.lt_one_iff.1 hn
    rw [hzero]
    rfl
  case isTop_iff =>
    rintro ⟨_ | n⟩ s hs
    · cases hs
      exact ⟨fun _ => rfl, fun _ => rfl⟩
    · cases hs

/-! ## Top theorem -/

/-- The top scope is the one root of a catalog exactly as long as every scope that was made since
the beginning has a parent and was not put on level 1, neither by its options nor under a scope
on level 0. -/
theorem oneRoot_runAll_iff (types : TypeTable) (turns : List Turn) :
    OneRoot (Turn.runAll (.new types) turns) ↔ KeepRoot (.new types) turns := by
  have hnew : IsForest (.new types) := IsForest.new types
  rw [(hnew.runTurns turns).oneRoot_iff, hnew.rooted_runAll_iff turns]
  exact and_iff_right (rooted_new types)

/-- A catalog in which `x` is bound in the top scope and a scope was made without a parent. -/
def sampleOrphan : Catalog :=
  Command.runAll (.new .empty) [.edit top (.bind "x" (.str "1") .unknown), .newScope none {}]

/-- The scope without a parent is a root and counts as a top scope, and `::x` is not found from
there, though the top scope binds `x`. -/
theorem not_oneRoot_orphan :
    Reachable sampleOrphan ∧ ¬ OneRoot sampleOrphan ∧
      ∃ h root, sampleOrphan.handle? ⟨1⟩ = some h ∧ sampleOrphan.handle? top = some root ∧
        sampleOrphan.topScope h = .ok h ∧ h.scope.isTop = true ∧
        sampleOrphan.lookup h .raw "::x" = .ok .undefined ∧
        sampleOrphan.lookup root .raw "x" = .ok (.found (.str "1")) := by
  refine ⟨Reachable.runAll (.new .empty) _, fun hone => ?_, _, _, rfl, rfl, rfl, rfl, rfl, rfl⟩
  have htop := (hone.isTop_iff ⟨1⟩ _ rfl).1 rfl
  exact absurd htop (by decide)

end ScopeTree.Catalog
