import Mathlib.Data.List.Basic
import ScopeTree.Proofs.Visibility

/-!
# What edits of a scope change elsewhere

What a scope sees is decided by the scopes of its ancestry and nothing else.  So edits of a
scope that is not in it change nothing of what is seen, and a new binding in one that is there
shows exactly where no nearer scope has one.

    the same ancestry of the same scopes → SameView c c' h       (IsForest.sameView)
    valueAt? k m after a binding of n in j                       (valueAt?_of_edit_bind)
-/

namespace ScopeTree

open Text (separator)

namespace Catalog

/-- In both catalogs the scope sees the same variables, by name and all together, the same
defaults and the same tags. -/
structure SameView (c c' : Catalog) (h : Handle) : Prop where
  lookup (mode : LookupMode) (name : String) :
    ¬ separator <:+: name.toList → c'.lookup h mode name = c.lookup h mode name
  visible (recursive : Bool) : c'.visibleVariables h recursive = c.visibleVariables h recursive
  defaults (typeName : String) : c'.collectDefaults h typeName = c.collectDefaults h typeName
  tags : c'.effectiveTags h = c.effectiveTags h

def editAll (c : Catalog) (j : ScopeId) (edits : List Edit) : Catalog :=
  edits.foldl (fun c e => (c.edit j e).1) c

/-! ## Ancestries again -/

namespace Ancestry

variable {c : Catalog} {i : ScopeId} {ids : List ScopeId}

theorem congr (ha : Ancestry c i ids) {c' : Catalog}
    (hp : ∀ k ∈ ids, c'.parentOf k = c.parentOf k) : Ancestry c' i ids := by
  induction ha with
  | root hi => exact .root ((hp _ List.mem_cons_self).trans hi)
  | up hi _ ih =>
    have habove := ih fun k hk => hp k (List.mem_cons_of_mem _ hk)
    exact .up ((hp _ List.mem_cons_self).trans hi) habove

theorem of_parentOf_eq (ha : Ancestry c i ids) {c' : Catalog}
    (hp : ∀ k, c'.parentOf k = c.parentOf k) : Ancestry c' i ids :=
  ha.congr fun k _ => hp k

theorem index_le (hc : IsForest c) (ha : Ancestry c i ids) : ∀ k ∈ ids, k.index ≤ i.index := by
  induction ha with
  | root _ =>
    intro k hk
    obtain rfl := List.mem_singleton.1 hk
    exact Nat.le_refl _
  | up hi _ ih =>
    have hlt := (hc.parent_lt _ _ hi).2
    intro k hk
    rcases List.mem_cons.1 hk with rfl | hk
    · exact Nat.le_refl _
    · have := ih k hk
      omega

theorem pairwise_lt (hc : IsForest c) (ha : Ancestry c i ids) :
    ids.Pairwise fun a b => b.index < a.index := by
  induction ha with
  | root _ => exact List.pairwise_singleton _ _
  | up hi hp ih =>
    have hlt := (hc.parent_lt _ _ hi).2
    refine List.pairwise_cons.2 ⟨fun k hk => ?_, ih⟩
    have := hp.index_le hc k hk
    omega

theorem ne_of_mem_near (hc : IsForest c) {j : ScopeId} {near far : List ScopeId}
    (ha : Ancestry c i (near ++ j :: far)) {k : ScopeId} (hk : k ∈ near) : k ≠ j := by
  have hlt := (List.pairwise_append.1 (ha.pairwise_lt hc)).2.2 k hk j List.mem_cons_self
  rintro rfl
  omega

end Ancestry

/-! ## What a view depends on -/

section

variable {c c' : Catalog} (hc : IsForest c) (hc' : IsForest c') {i : ScopeId} {ids : List ScopeId}
variable (ha : Ancestry c i ids) (hp : ∀ k ∈ ids, c'.parentOf k = c.parentOf k)
variable (hsame : ∀ k ∈ ids, c'.handle? k = c.handle? k) {h : Handle}
variable (hi : c.handle? i = some h) (hi' : c'.handle? i = some h)
include hc hc' ha hp hsame hi hi'

theorem IsForest.chain_congr : c'.chain h = c.chain h := by
  have hline : ids.filterMap c'.handle? = ids.filterMap c.handle? := List.filterMap_congr hsame
  rw [hc'.chain_eq hi' (ha.congr hp), hc.chain_eq hi ha, hline]

/-- Two forests look the same to a scope whose ancestors are the same in both, with the same
parents. -/
theorem IsForest.sameView : SameView c c' h := by
  have ha' : Ancestry c' i ids := ha.congr hp
  have hline : ids.filterMap c'.handle? = ids.filterMap c.handle? := List.filterMap_congr hsame
  have hchain := hc.chain_congr hc' ha hp hsame hi hi'
  constructor
  case lookup =>
    intro mode name hn
    have hplain := splitName?_eq_none_iff.2 hn
    rw [lookup_of_plain c h mode hplain, lookup_of_plain c' h mode hplain,
      (ha.line hc hi).lookupFrom_eq (hc.length_line_le hi ha),
      (ha'.line hc' hi').lookupFrom_eq (hc'.length_line_le hi' ha'), hline]
  case visible =>
    intro recursive
    cases recursive with
    | true =>
      rw [visibleVariables, visibleVariables, hchain]
      rfl
    | false =>
      have hparent := hc.parentScope_eq hi
      have hparent' := hc'.parentScope_eq hi'
      show (c'.parentScope h).map _ = (c.parentScope h).map _
      rw [hparent, hparent']
      rfl
  case defaults =>
    intro typeName
    rw [collectDefaults, collectDefaults, hchain]
  case tags => rw [effectiveTags, effectiveTags, hchain]

end

/-! ## Edits -/

@[simp] theorem parentOf_edit (c : Catalog) (j : ScopeId) (e : Edit) (k : ScopeId) :
    (c.edit j e).1.parentOf k = c.parentOf k := by
  unfold edit
  split
  · exact parentOf_modifyScope ..
  · rfl

theorem handle?_edit_of_ne (c : Catalog) {j k : ScopeId} (hk : k ≠ j) (e : Edit) :
    (c.edit j e).1.handle? k = c.handle? k := by
  unfold edit
  split
  · rw [handle?_modifyScope, if_neg hk]
  · rfl

theorem parentOf_editAll (c : Catalog) (j : ScopeId) (edits : List Edit) (k : ScopeId) :
    (c.editAll j edits).parentOf k = c.parentOf k := by
  induction edits generalizing c with
  | nil => rfl
  | cons e edits ih => exact (ih _).trans (parentOf_edit c j e k)

theorem handle?_editAll_of_ne (c : Catalog) {j k : ScopeId} (hk : k ≠ j) (edits : List Edit) :
    (c.editAll j edits).handle? k = c.handle? k := by
  induction edits generalizing c with
  | nil => rfl
  | cons e edits ih => exact (ih _).trans (handle?_edit_of_ne c hk e)

theorem IsForest.editAll {c : Catalog} (hc : IsForest c) (j : ScopeId) (edits : List Edit) :
    IsForest (c.editAll j edits) := by
  induction edits generalizing c with
  | nil => exact hc
  | cons e edits ih => exact ih (hc.edit j e)

/-- Edits of a scope outside the ancestry of another are not seen from there. -/
theorem IsForest.sameView_editAll {c : Catalog} (hc : IsForest c) {i j : ScopeId}
    {ids : List ScopeId} (ha : Ancestry c i ids) (hj : j ∉ ids) {h : Handle}
    (hi : c.handle? i = some h) (edits : List Edit) :
    (c.editAll j edits).handle? i = some h ∧ SameView c (c.editAll j edits) h := by
  have hne : ∀ k ∈ ids, k ≠ j := fun k hk he => hj (he ▸ hk)
  have hself : i ∈ ids := by cases ha <;> exact List.mem_cons_self
  have hi' : (c.editAll j edits).handle? i = some h :=
    (handle?_editAll_of_ne c (hne i hself) edits).trans hi
  refine ⟨hi', ?_⟩
  exact hc.sameView (hc.editAll j edits) ha (fun k _ => parentOf_editAll c j edits k)
    (fun k hk => handle?_editAll_of_ne c (hne k hk) edits) hi hi'

/-! ## A new binding -/

/-- A binding that was made is there under its name, and nothing else is bound anew. -/
theorem valueAt?_of_edit_bind {c c' : Catalog} {j : ScopeId} {name : String} {value : Value}
    {location : SourceLocation}
    (hset : c.edit j (.bind name value location) = (c', some (.ok ()))) (k : ScopeId)
    (other : String) :
    c'.valueAt? k other = if k = j ∧ other = name then some value else c.valueAt? k other := by
  obtain ⟨s, hs, hrun, rfl⟩ := edit_eq_some hset
  cases hb : s.bindings.bind name value location with
  | error e =>
    simp only [Edit.run, hb] at hrun
    cases hrun
  | ok bindings =>
    have hnew : (Edit.run s (.bind name value location)).1 = { s with bindings } := by
      simp only [Edit.run, hb]
    unfold valueAt?
    rw [scope?_modifyScope]
    by_cases hk : k = j
    · subst hk
      rw [if_pos rfl, hs]
      show (Edit.run s (.bind name value location)).1.bindings.value? other = _
      rw [hnew]
      show (bindings.get? other).map _ = _
      rw [Bindings.get?_bind hb]
      by_cases ho : other = name
      · rw [if_pos ho, if_pos ⟨rfl, ho⟩]
        rfl
      · rw [if_neg ho, if_neg fun hand => ho hand.2]
        rfl
    · rw [if_neg hk, if_neg fun hand => hk hand.1]

theorem IsForest.lookup_raw_of_nearestBinding {c : Catalog} (hc : IsForest c) {i : ScopeId}
    {h : Handle} (hi : c.handle? i = some h) {ids : List ScopeId} (ha : Ancestry c i ids)
    {name : String} (hn : ¬ separator <:+: name.toList) {v : Value}
    (hv : c.NearestBinding ids name v) : c.lookup h .raw name = .ok (.found v) := by
  rw [hc.lookup_eq hi ha .raw hn, nearestBinding_iff.1 hv]
  cases v <;> rfl

section NewBinding

variable {c c' : Catalog} {i j : ScopeId} {near far : List ScopeId} {name : String}
  {value : Value} {location : SourceLocation}

/-- Where no nearer scope binds the name, the new binding is the nearest. -/
theorem nearestBinding_of_edit_bind (hc : IsForest c) (ha : Ancestry c i (near ++ j :: far))
    (hset : c.edit j (.bind name value location) = (c', some (.ok ())))
    (hfree : ∀ k ∈ near, c.valueAt? k name = none) :
    c'.NearestBinding (near ++ j :: far) name value := by
  refine ⟨near, j, far, rfl, ?_, fun k hk => ?_⟩
  · rw [valueAt?_of_edit_bind hset, if_pos ⟨rfl, rfl⟩]
  · rw [valueAt?_of_edit_bind hset, if_neg fun hand => ha.ne_of_mem_near hc hk hand.1]
    exact hfree k hk

/-- Where a nearer scope binds the name, that binding stays the nearest. -/
theorem exists_nearestBinding_of_edit_bind (hc : IsForest c)
    (ha : Ancestry c i (near ++ j :: far))
    (hset : c.edit j (.bind name value location) = (c', some (.ok ())))
    (hbound : ∃ k ∈ near, c.valueAt? k name ≠ none) :
    ∃ w, c.NearestBinding (near ++ j :: far) name w ∧
      c'.NearestBinding (near ++ j :: far) name w := by
  have hsome : near.findSome? (c.valueAt? · name) ≠ none := by
    intro hnone
    obtain ⟨k, hk, hv⟩ := hbound
    exact hv (List.findSome?_eq_none_iff.1 hnone k hk)
  obtain ⟨w, hw⟩ := Option.ne_none_iff_exists'.1 hsome
  obtain ⟨before, k, after, rfl, hk, hbefore⟩ := List.findSome?_eq_some_iff.1 hw
  have hsame : ∀ k' ∈ before ++ k :: after, c'.valueAt? k' name = c.valueAt? k' name := by
    intro k' hk'
    rw [valueAt?_of_edit_bind hset, if_neg fun hand => ha.ne_of_mem_near hc hk' hand.1]
  refine ⟨w, ⟨before, k, after ++ j :: far, by simp, hk, hbefore⟩,
    ⟨before, k, after ++ j :: far, by simp, ?_, fun k' hk' => ?_⟩⟩
  · rw [hsame k (by simp)]
    exact hk
  · rw [hsame k' (List.mem_append_left _ hk')]
    exact hbefore k' hk'

end NewBinding

/-! ## Top theorem -/

/-- In a reachable catalog edits of a scope outside the ancestry of another change nothing of
what is seen from there.  A new binding of a plain name in a scope of the ancestry is seen if no
nearer scope binds the name; otherwise the name is looked up as before, and so are all others. -/
theorem view_of_edited {c : Catalog} (hc : Reachable c) {i : ScopeId} {h : Handle}
    (hi : c.handle? i = some h) :
    ∃ ids, Ancestry c i ids ∧ ∀ j,
      (j ∉ ids → ∀ edits : List Edit, (c.editAll j edits).handle? i = some h ∧
        SameView c (c.editAll j edits) h) ∧
      ∀ near far, ids = near ++ j :: far → ∀ name value location c',
        ¬ separator <:+: name.toList →
        c.edit j (.bind name value location) = (c', some (.ok ())) →
        ∃ h', c'.handle? i = some h' ∧
          ((∀ k ∈ near, c.valueAt? k name = none) →
            c'.lookup h' .raw name = .ok (.found value)) ∧
          ((∃ k ∈ near, c.valueAt? k name ≠ none) →
            c'.lookup h' .raw name = c.lookup h .raw name) ∧
          ∀ mode other, ¬ separator <:+: other.toList → other ≠ name →
            c'.lookup h' mode other = c.lookup h mode other := by
  have hf := hc.isForest
  obtain ⟨ids, ha⟩ := hf.exists_ancestry i
  refine ⟨ids, ha, fun j => ⟨fun hj edits => hf.sameView_editAll ha hj hi edits, ?_⟩⟩
  rintro near far rfl name value location c' hn hset
  have hc' : c' = (c.edit j (.bind name value location)).1 := by rw [hset]
  have hf' : IsForest c' := by
    rw [hc']
    exact hf.edit j _
  have ha' : Ancestry c' i (near ++ j :: far) := by
    rw [hc']
    exact ha.of_parentOf_eq (parentOf_edit c j _)
  have hcount : c'.count = c.count := by
    rw [hc']
    unfold edit
    split <;> simp
  obtain ⟨h', hi'⟩ : ∃ h', c'.handle? i = some h' := by
    refine exists_handle?_of_index_lt ?_
    rw [hcount]
    exact index_lt_of_handle? hi
  refine ⟨h', hi', fun hfree => ?_, fun hbound => ?_, fun mode other ho hne => ?_⟩
  · have hnear := nearestBinding_of_edit_bind hf ha hset hfree
    exact hf'.lookup_raw_of_nearestBinding hi' ha' hn hnear
  · obtain ⟨w, hold, hnew⟩ := exists_nearestBinding_of_edit_bind hf ha hset hbound
    rw [hf.lookup_raw_of_nearestBinding hi ha hn hold,
      hf'.lookup_raw_of_nearestBinding hi' ha' hn hnew]
  · have hvalues : ∀ k, c'.valueAt? k other = c.valueAt? k other := by
      intro k
      rw [valueAt?_of_edit_bind hset, if_neg fun hand => hne hand.2]
    rw [hf.lookup_eq hi ha mode ho, hf'.lookup_eq hi' ha' mode ho]
    simp only [hvalues]

def sampleShadowed : Catalog :=
  Command.runAll sample [.edit ⟨2⟩ (.bind "z" (.str "near") .unknown)]

/-- A binding of `z` in the root is seen from the scope in the middle and not from the lowest
one, which binds `z` itself; that binding is not seen from above. -/
theorem view_of_edited_shadowed :
    ∃ c' low middle, sampleShadowed.edit top (.bind "z" (.str "far") .unknown) =
        (c', some (.ok ())) ∧
      c'.handle? ⟨2⟩ = some low ∧ c'.lookup low .raw "z" = .ok (.found (.str "near")) ∧
      c'.handle? ⟨1⟩ = some middle ∧ c'.lookup middle .raw "z" = .ok (.found (.str "far")) ∧
      (sampleShadowed.editAll ⟨2⟩ [.unbind "z", .addTags ["low"]]).effectiveTags middle =
        sampleShadowed.effectiveTags middle := by
  have hreach : Reachable sampleShadowed := reachable_sample.runAll _
  have hplain : ¬ separator <:+: "z".toList := by decide
  have hset : sampleShadowed.edit top (.bind "z" (.str "far") .unknown) =
      ((sampleShadowed.edit top (.bind "z" (.str "far") .unknown)).1, some (.ok ())) := rfl
  obtain ⟨ids, ha, hlow⟩ := view_of_edited hreach (i := ⟨2⟩) rfl
  obtain rfl : ids = [⟨2⟩, ⟨1⟩, ⟨0⟩] := ha.unique (.up rfl (.up rfl (.root rfl)))
  obtain ⟨ids, ha, hmiddle⟩ := view_of_edited hreach (i := ⟨1⟩) rfl
  obtain rfl : ids = [⟨1⟩, ⟨0⟩] := ha.unique (.up rfl (.root rfl))
  obtain ⟨low, hlow₂, -, hkept, -⟩ :=
    (hlow ⟨0⟩).2 [⟨2⟩, ⟨1⟩] [] rfl "z" _ _ _ hplain hset
  obtain ⟨middle, hmiddle₁, hnew, -, -⟩ :=
    (hmiddle ⟨0⟩).2 [⟨1⟩] [] rfl "z" _ _ _ hplain hset
  refine ⟨_, low, middle, hset, hlow₂, ?_, hmiddle₁, hnew (by decide), ?_⟩
  · rw [hkept ⟨⟨2⟩, by decide, by decide⟩]
    rfl
  · cases hmiddle₁
    exact ((hmiddle ⟨2⟩).1 (by decide) _).2.tags

end Catalog

end ScopeTree
