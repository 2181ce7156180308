import ScopeTree.Proofs.Forest

/-!
# Lines of ancestors

Two views of the scopes above a scope.  The ancestry is the catalog's own: ids, each the
parent that the catalog gives to the one before, up to one without a parent.  The line is
what a climb comes through: handles, each what the one before takes for its parent.  In a
forest the line of a scope consists of the scopes of its ancestry, and a climb goes along it.

    IsForest c → ∃ ids, Ancestry c i ids                         (IsForest.exists_ancestry)
    Ancestry c i ids → ids.length ≤ i.index + 1                  (Ancestry.length_le)
    Line c h hs → climb c find h = along find hs                 (Line.climb_eq)
-/

namespace ScopeTree

/-- A climb along a line of scopes, the last of which is a root. -/
def Climb.along {α : Type} (find : Scope → Option α) : List Handle → Climb α
  | [] => ⟨[], .root⟩
  | h :: hs =>
    match find h.scope with
    | some a => ⟨[], .found h a⟩
    | none => ⟨h :: (along find hs).passed, (along find hs).stop⟩

/-- The climb has found something or come to a root. -/
def Climb.Arrives {α : Type} (a : Climb α) : Prop :=
  a.stop = .root ∨ ∃ h x, a.stop = .found h x

namespace Catalog

/-- The ids from a scope up to its root, by the links of the catalog. -/
inductive Ancestry (c : Catalog) : ScopeId → List ScopeId → Prop
  | root {i : ScopeId} (hi : c.parentOf i = none) : Ancestry c i [i]
  | up {i p : ScopeId} {ids : List ScopeId} (hi : c.parentOf i = some p)
      (hp : Ancestry c p ids) : Ancestry c i (i :: ids)

/-- The scopes from one up to its root, by what each takes for its parent. -/
inductive Line (c : Catalog) : Handle → List Handle → Prop
  | root {h : Handle} (hh : c.parentId h = none) : Line c h [h]
  | up {h g : Handle} {p : ScopeId} {hs : List Handle} (hh : c.parentId h = some p)
      (hp : c.handle? p = some g) (hg : Line c g hs) : Line c h (h :: hs)

/-! ## Ancestries -/

namespace Ancestry

variable {c : Catalog} {i : ScopeId} {ids : List ScopeId}

theorem unique (ha : Ancestry c i ids) {ids' : List ScopeId} (hb : Ancestry c i ids') :
    ids = ids' := by
  induction ha generalizing ids' with
  | root hi =>
    cases hb with
    | root _ => rfl
    | up hi' _ => rw [hi] at hi'; cases hi'
  | up hi _ ih =>
    cases hb with
    | root hi' => rw [hi] at hi'; cases hi'
    | up hi' hp' =>
      rw [hi] at hi'
      cases hi'
      rw [ih hp']

theorem length_le (hc : IsForest c) (ha : Ancestry c i ids) : ids.length ≤ i.index + 1 := by
  induction ha with
  | root _ => simp
  | up hi _ ih =>
    have := (hc.parent_lt _ _ hi).2
    rw [List.length_cons]
    omega

/-- The line of a scope of the catalog is its ancestry. -/
theorem line (hc : IsForest c) (ha : Ancestry c i ids) {h : Handle} (hi : c.handle? i = some h) :
    Line c h (ids.filterMap c.handle?) := by
  induction ha generalizing h with
  | root hr =>
    rw [List.filterMap_cons_some hi]
    exact .root ((hc.parentId_eq hi).trans hr)
  | up hp _ ih =>
    obtain ⟨g, hg⟩ := hc.exists_handle_of_parentOf hp
    rw [List.filterMap_cons_some hi]
    exact .up ((hc.parentId_eq hi).trans hp) hg (ih hg)

/-- The last of an ancestry is a root, and the line ends there too. -/
theorem exists_root (hc : IsForest c) (ha : Ancestry c i ids) {h : Handle}
    (hi : c.handle? i = some h) :
    ∃ r root, ids.getLast? = some r ∧ c.parentOf r = none ∧ c.handle? r = some root ∧
      (ids.filterMap c.handle?).getLast? = some root := by
  induction ha generalizing h with
  | @root i hr =>
    refine ⟨i, h, rfl, hr, hi, ?_⟩
    rw [List.filterMap_cons_some hi]
    rfl
  | up hp _ ih =>
    obtain ⟨g, hg⟩ := hc.exists_handle_of_parentOf hp
    obtain ⟨r, root, hl, hr, hroot, hline⟩ := ih hg
    refine ⟨r, root, ?_, hr, hroot, ?_⟩
    · rw [List.getLast?_cons, hl]
      rfl
    · rw [List.filterMap_cons_some hi, List.getLast?_cons, hline]
      rfl

end Ancestry

theorem IsForest.exists_ancestry {c : Catalog} (hc : IsForest c) (i : ScopeId) :
    ∃ ids, Ancestry c i ids := by
  obtain ⟨n⟩ := i
  -- a parent is older, so this is an induction on the number of the scope
  induction n using Nat.strongRecOn with
  | ind n ih =>
    cases hp : c.parentOf ⟨n⟩ with
    | none => exact ⟨_, .root hp⟩
    | some p =>
      obtain ⟨ids, hids⟩ := ih p.index (hc.parent_lt _ p hp).2
      exact ⟨_, .up hp hids⟩

/-! ## Climbing along a line -/

theorem along_eq_passed (hs : List Handle) :
    Climb.along (fun _ => (none : Option Empty)) hs = ⟨hs, .root⟩ := by
  induction hs with
  | nil => rfl
  | cons h hs ih => simp only [Climb.along, ih]

/-- What is found is what the first scope of the line gives that gives anything. -/
theorem stop_along {α : Type} (find : Scope → Option α) (hs : List Handle) :
    match hs.findSome? fun h => find h.scope with
    | some a => ∃ h, (Climb.along find hs).stop = .found h a
    | none => (Climb.along find hs).stop = .root := by
  induction hs with
  | nil => rfl
  | cons h hs ih =>
    rw [List.findSome?_cons]
    cases hf : find h.scope with
    | some a => exact ⟨h, by simp only [Climb.along, hf]⟩
    | none =>
      simp only [Climb.along, hf]
      exact ih

theorem arrives_along {α : Type} (find : Scope → Option α) (hs : List Handle) :
    (Climb.along find hs).Arrives := by
  have := stop_along find hs
  split at this
  · next a _ =>
    obtain ⟨h, hh⟩ := this
    exact Or.inr ⟨h, a, hh⟩
  · exact Or.inl this

namespace Line

variable {c : Catalog} {h : Handle} {hs : List Handle}

/-- Fuel for the parents of the line is enough. -/
theorem climbWithin_eq {α : Type} (hl : Line c h hs) (find : Scope → Option α) {fuel : Nat}
    (hf : hs.length ≤ fuel + 1) : c.climbWithin find fuel h = Climb.along find hs := by
  induction hl generalizing fuel with
  | @root h hh =>
    cases fuel <;> rw [climbWithin, Climb.along] <;> cases find h.scope <;> simp only [hh] <;> rfl
  | @up h g p hs hh hp hg ih =>
    have hpos : 0 < hs.length := by cases hg <;> exact Nat.succ_pos _
    rw [List.length_cons] at hf
    obtain ⟨fuel, rfl⟩ : ∃ n, fuel = n + 1 := ⟨fuel - 1, by omega⟩
    have hfuel : hs.length ≤ fuel + 1 := by omega
    rw [climbWithin, Climb.along]
    cases find h.scope with
    | some a => rfl
    | none => simp only [hh, hp, ih hfuel]

theorem climb_eq {α : Type} (hl : Line c h hs) (find : Scope → Option α)
    (hf : hs.length ≤ c.count + 1) : c.climb find h = Climb.along find hs :=
  hl.climbWithin_eq find hf

theorem chain_eq (hl : Line c h hs) (hf : hs.length ≤ c.count + 1) : c.chain h = .ok hs := by
  have : c.climbAll h = ⟨hs, .root⟩ := (hl.climb_eq _ hf).trans (along_eq_passed hs)
  simp only [chain, this]

end Line

/-! ## Scopes of a forest -/

namespace IsForest

variable {c : Catalog} {i : ScopeId} {h : Handle} {ids : List ScopeId}

theorem length_line_le (hc : IsForest c) (hi : c.handle? i = some h) (ha : Ancestry c i ids) :
    (ids.filterMap c.handle?).length ≤ c.count + 1 := by
  have h₁ := index_lt_of_handle? hi
  have h₂ := ha.length_le hc
  have h₃ := List.length_filterMap_le c.handle? ids
  omega

theorem climb_eq {α : Type} (hc : IsForest c) (hi : c.handle? i = some h) (ha : Ancestry c i ids)
    (find : Scope → Option α) : c.climb find h = Climb.along find (ids.filterMap c.handle?) :=
  (ha.line hc hi).climb_eq find (hc.length_line_le hi ha)

/-- A climb from a scope needs no more parents than its id. -/
theorem climbWithin_index_eq {α : Type} (hc : IsForest c) (hi : c.handle? i = some h)
    (find : Scope → Option α) : c.climbWithin find i.index h = c.climb find h := by
  obtain ⟨ids, ha⟩ := hc.exists_ancestry i
  have h₁ := ha.length_le hc
  have h₂ := List.length_filterMap_le c.handle? ids
  rw [hc.climb_eq hi ha find]
  exact (ha.line hc hi).climbWithin_eq find (by omega)

theorem chain_eq (hc : IsForest c) (hi : c.handle? i = some h) (ha : Ancestry c i ids) :
    c.chain h = .ok (ids.filterMap c.handle?) :=
  (ha.line hc hi).chain_eq (hc.length_line_le hi ha)

theorem exists_topScope (hc : IsForest c) (hi : c.handle? i = some h) (ha : Ancestry c i ids) :
    ∃ r root, ids.getLast? = some r ∧ c.parentOf r = none ∧ c.handle? r = some root ∧
      c.topScope h = .ok root := by
  obtain ⟨r, root, hl, hr, hroot, hline⟩ := ha.exists_root hc hi
  refine ⟨r, root, hl, hr, hroot, ?_⟩
  show (c.chain h).map (·.getLastD h) = .ok root
  rw [hc.chain_eq hi ha]
  show Except.ok ((ids.filterMap c.handle?).getLastD h) = .ok root
  rw [List.getLastD_eq_getLast?, hline]
  rfl

theorem parentScope_eq (hc : IsForest c) (hi : c.handle? i = some h) :
    c.parentScope h = .ok ((c.parentOf i).bind c.handle?) := by
  unfold parentScope
  rw [hc.parentId_eq hi]
  cases hp : c.parentOf i with
  | none => rfl
  | some p =>
    obtain ⟨g, hg⟩ := hc.exists_handle_of_parentOf hp
    simp only [hg, Option.bind_some]

end IsForest

end Catalog

end ScopeTree
