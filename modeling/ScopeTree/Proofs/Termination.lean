import ScopeTree.Proofs.Qualified

/-!
# Walks up the tree end

Everything that a scope asks of its ancestors is a climb.  In a reachable catalog a climb
from a scope of the catalog needs no more parents than the number of the scope and misses
none, so what the scope asks is answered: its parent, its root, plain names, names behind a
leading separator, variables, defaults and tags.

    Reachable c → IsForest c ∧ ∀ i h, handle? i = some h → WalksEnd c i h   (walksEnd_of_reachable)
-/

namespace ScopeTree

open Text (separator)

namespace Catalog

/-- What the scope `h` with the id `i` asks of its ancestors is answered, after no more steps
up than its id. -/
structure WalksEnd (c : Catalog) (i : ScopeId) (h : Handle) : Prop where
  /-- A climb comes to an end when cut off after as many parents as the id, and so it leaves
  one scope more at most. -/
  climb {α : Type} (find : Scope → Option α) :
    c.climbWithin find i.index h = c.climb find h ∧ (c.climb find h).Arrives ∧
      (c.climb find h).passed.length ≤ i.index + 1
  /-- Variables, defaults and tags are gathered from one scope more than the id at most. -/
  chain : ∃ hs, c.chain h = .ok hs ∧ hs.length ≤ i.index + 1
  parentScope : ∃ parent, c.parentScope h = .ok parent
  topScope : ∃ root, c.topScope h = .ok root
  lookup (mode : LookupMode) (name : String) :
    ¬ separator <:+: name.toList → ∃ a, c.lookup h mode name = .ok a
  /-- Behind a leading separator and no other the root answers, and it has no parent to ask. -/
  lookupTop (mode : LookupMode) (name : String) : ¬ separator <:+: ':' :: name.toList →
    ∃ root a, c.topScope h = .ok root ∧ c.parentScope root = .ok none ∧
      c.lookup root mode name = .ok a ∧ c.lookup h mode ("::" ++ name) = .ok a
  visible (recursive : Bool) : ∃ vars, c.visibleVariables h recursive = .ok vars
  defaults (typeName : String) : ∃ specs, c.collectDefaults h typeName = .ok specs
  tags : ∃ tags, c.effectiveTags h = .ok tags

/-! ## Lemmas -/

/-- A climb along a line leaves no scope twice. -/
theorem length_passed_along_le {α : Type} (find : Scope → Option α) (hs : List Handle) :
    (Climb.along find hs).passed.length ≤ hs.length := by
  induction hs with
  | nil => exact Nat.le_refl 0
  | cons h hs ih =>
    cases hf : find h.scope with
    | some a => simp only [Climb.along, hf, List.length_nil, Nat.zero_le]
    | none =>
      simp only [Climb.along, hf, List.length_cons]
      omega

namespace IsForest

variable {c : Catalog} {i : ScopeId} {h : Handle}

theorem length_passed_climb_le {α : Type} (hc : IsForest c) (hi : c.handle? i = some h)
    (find : Scope → Option α) : (c.climb find h).passed.length ≤ i.index + 1 := by
  obtain ⟨ids, ha⟩ := hc.exists_ancestry i
  rw [hc.climb_eq hi ha find]
  have h₁ := length_passed_along_le find (ids.filterMap c.handle?)
  have h₂ := List.length_filterMap_le c.handle? ids
  have h₃ := ha.length_le hc
  omega

theorem arrives_climb {α : Type} (hc : IsForest c) (hi : c.handle? i = some h)
    (find : Scope → Option α) : (c.climb find h).Arrives := by
  obtain ⟨ids, ha⟩ := hc.exists_ancestry i
  rw [hc.climb_eq hi ha find]
  exact arrives_along find _

theorem exists_chain (hc : IsForest c) (hi : c.handle? i = some h) :
    ∃ hs, c.chain h = .ok hs ∧ hs.length ≤ i.index + 1 := by
  obtain ⟨ids, ha⟩ := hc.exists_ancestry i
  refine ⟨ids.filterMap c.handle?, hc.chain_eq hi ha, ?_⟩
  have h₁ := List.length_filterMap_le c.handle? ids
  have h₂ := ha.length_le hc
  omega

theorem walksEnd (hc : IsForest c) (hi : c.handle? i = some h) : WalksEnd c i h := by
  obtain ⟨ids, ha⟩ := hc.exists_ancestry i
  obtain ⟨hs, hchain, hlen⟩ := hc.exists_chain hi
  have hparent := hc.parentScope_eq hi
  constructor
  case climb =>
    intro α find
    exact ⟨hc.climbWithin_index_eq hi find, hc.arrives_climb hi find,
      hc.length_passed_climb_le hi find⟩
  case chain => exact ⟨hs, hchain, hlen⟩
  case parentScope => exact ⟨_, hparent⟩
  case topScope =>
    obtain ⟨r, root, -, -, -, htop⟩ := hc.exists_topScope hi ha
    exact ⟨root, htop⟩
  case lookup =>
    intro mode name hn
    exact hc.exists_lookup hi mode (splitName?_eq_none_iff.2 hn)
  case lookupTop =>
    -- a name behind a leading separator is answered by the root, where a climb ends
    intro mode name hn
    obtain ⟨r, root, a, -, hr, hroot, htop, hjump, hans⟩ :=
      hc.lookup_of_leading hi mode (splitName?_absolute hn) ha
    refine ⟨root, a, htop, ?_, hans, hjump.trans hans⟩
    rw [hc.parentScope_eq hroot, hr]
    rfl
  case visible =>
    intro recursive
    cases recursive with
    | true => exact ⟨layVariables hs, by rw [visibleVariables, if_pos rfl, hchain]; rfl⟩
    | false =>
      exact ⟨layVariables [h], by rw [visibleVariables, if_neg (by simp), hparent]; rfl⟩
  case defaults =>
    intro typeName
    exact ⟨layDefaults typeName hs, by rw [collectDefaults, hchain]; rfl⟩
  case tags => exact ⟨(joinTags hs).toList, by rw [effectiveTags, hchain]; rfl⟩

end IsForest

/-! ## Top theorem -/

/-- In a reachable catalog every scope stands where its id says, parents are older scopes,
the first scope has none, and what scopes have kept of their parents is true.  So whatever a
scope asks of its ancestors is answered, after no more steps up than its id. -/
theorem walksEnd_of_reachable {c : Catalog} (hc : Reachable c) :
    IsForest c ∧ c.parentOf top = none ∧ ∀ i h, c.handle? i = some h → WalksEnd c i h :=
  ⟨hc.isForest, hc.isForest.parentOf_top, fun _ _ hi => hc.isForest.walksEnd hi⟩

/-- The lowest scope of the sample has asked for its parent and the refused scope left no
trace, and its walks end after two steps. -/
theorem walksEnd_of_reachable_sample :
    ∃ h, sample.handle? ⟨2⟩ = some h ∧ h.link = .settled (some ⟨1⟩) ∧
      sample.parentOf ⟨1⟩ = some ⟨0⟩ ∧ sample.parentOf ⟨0⟩ = none ∧ WalksEnd sample ⟨2⟩ h := by
  obtain ⟨-, htop, hends⟩ := walksEnd_of_reachable reachable_sample
  exact ⟨_, rfl, rfl, rfl, htop, hends ⟨2⟩ _ rfl⟩

end Catalog

end ScopeTree
