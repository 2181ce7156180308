import ScopeTree.Proofs.Visibility

/-!
# Looking up qualified names

A name with a separator in it is cut at its last separator, wherever colons overlap, so the
short name has none and is looked for as a plain name: a lookup jumps at most once.  With an
empty qualifier it jumps to the root of the scope, otherwise to the scope of a class.

    splitName? name = some (q, s) → IsLastSplit name q s          (isLastSplit_of_splitName?)
    Resolves c mode h name n r → r = lookup c h mode name ∧ n ≤ 1
                                                                  (Resolves.lookup_eq_and)
    ∃ n ≤ 1, Resolves c mode h name n (lookup c h mode name)      (IsForest.resolves_lookup)

`Resolves` is the lookup as a scope does it, one step at a time: it asks the next scope to
look up a name in its turn.  Nothing in its rules keeps a lookup from jumping again, or for
ever; that it ends is a property of forests and of the cut.
-/

namespace ScopeTree

open Text (separator splitLast? dropSeparator? dropSeparator?_eq_some_iff length_of_splitLast?
  eq_append_of_splitLast? splitLast?_eq_none_iff)

/-! ## The last separator -/

/-- The name is `q`, a separator and `s`, and no separator begins further to the right. -/
def IsLastSplit (name q s : String) : Prop :=
  name = q ++ "::" ++ s ∧ ∀ q' s', name = q' ++ "::" ++ s' → s.length ≤ s'.length

theorem IsLastSplit.unique {name q s q' s' : String} (h : IsLastSplit name q s)
    (h' : IsLastSplit name q' s') : q = q' ∧ s = s' := by
  have hlen : s.toList.length = s'.toList.length := by
    rw [String.length_toList, String.length_toList]
    exact Nat.le_antisymm (h.2 q' s' h'.1) (h'.2 q s h.1)
  have heq := congrArg String.toList (h.1.symm.trans h'.1)
  rw [String.toList_append, String.toList_append, String.toList_append, String.toList_append]
    at heq
  obtain ⟨hfront, hs⟩ := List.append_inj' heq hlen
  exact ⟨String.toList_injective (List.append_cancel_right hfront), String.toList_injective hs⟩

/-- No separator leaves less behind it than the one of the cut. -/
theorem length_le_of_splitLast? {cs q s : List Char} (h : splitLast? cs = some (q, s))
    {q' s' : List Char} (he : cs = q' ++ separator ++ s') : s.length ≤ s'.length := by
  induction cs generalizing q q' with
  | nil => simp [splitLast?] at h
  | cons c cs ih =>
    have hlen := length_of_splitLast? h
    have hlen' := congrArg List.length he
    simp only [List.length_append, List.length_cons, separator, List.length_nil] at hlen hlen'
    cases q' with
    | nil =>
      rw [List.length_nil] at hlen'
      omega
    | cons c' q' =>
      have hcs : cs = q' ++ separator ++ s' := (List.cons.inj he).2
      rw [splitLast?] at h
      split at h
      · next q₀ s₀ h₀ =>
        cases h
        exact ih h₀ hcs
      · next hnone =>
        -- there is a separator in the rest, so the rest is cut
        have := splitLast?_eq_none_iff.1 hnone
        rw [hcs] at this
        exact absurd (List.infix_append _ _ _) this

theorem not_infix_of_splitLast? {cs q s : List Char} (h : splitLast? cs = some (q, s)) :
    ¬ separator <:+: s := by
  rintro ⟨a, b, rfl⟩
  have he : cs = (q ++ separator ++ a) ++ separator ++ b := by
    rw [eq_append_of_splitLast? h]
    simp only [List.append_assoc]
  have := length_le_of_splitLast? h he
  simp only [List.length_append, separator, List.length_cons, List.length_nil] at this
  omega

namespace Catalog

theorem splitName?_eq_some {name q s : String} (h : splitName? name = some (q, s)) :
    splitLast? name.toList = some (q.toList, s.toList) := by
  obtain ⟨⟨q', s'⟩, hs, he⟩ := Option.map_eq_some_iff.1 h
  cases he
  simpa only [String.toList_ofList] using hs

theorem isLastSplit_of_splitName? {name q s : String} (h : splitName? name = some (q, s)) :
    IsLastSplit name q s := by
  have hs := splitName?_eq_some h
  constructor
  · apply String.toList_injective
    rw [eq_append_of_splitLast? hs]
    simp [separator]
  · rintro q' s' rfl
    have he : (q' ++ "::" ++ s').toList = q'.toList ++ separator ++ s'.toList := by
      simp [separator]
    have hle := length_le_of_splitLast? hs he
    rwa [String.length_toList, String.length_toList] at hle

theorem splitName?_short {name q s : String} (h : splitName? name = some (q, s)) :
    splitName? s = none :=
  splitName?_eq_none_iff.2 (not_infix_of_splitLast? (splitName?_eq_some h))

/-- A leading separator is the last one when no other begins behind it, in its second colon
neither. -/
theorem splitName?_absolute {x : String} (hx : ¬ separator <:+: ':' :: x.toList) :
    splitName? ("::" ++ x) = some ("", x) := by
  have hs : splitLast? (':' :: ':' :: x.toList) = some ([], x.toList) := by
    rw [splitLast?, splitLast?_eq_none_iff.2 hx]
    rfl
  have hl : ("::" ++ x).toList = ':' :: ':' :: x.toList := by simp
  rw [splitName?, hl, hs]
  simp

/-! ## Where a lookup jumps -/

/-- The scope to which a lookup with this qualifier jumps. -/
def jumpTarget (c : Catalog) (h : Handle) (qualifier name : String) : Except ScopeError Handle :=
  if qualifier = "" then c.topScope h else c.classOrigin h.scope qualifier name

/-- A lookup as a scope does it: what it comes to after so many jumps. -/
inductive Resolves (c : Catalog) (mode : LookupMode) :
    Handle → String → Nat → Except ScopeError Lookup → Prop
  /-- The scope binds the plain name. -/
  | here {h : Handle} {name : String} {v : Value} (hn : splitName? name = none)
      (hv : h.scope.bindings.value? name = some v) : Resolves c mode h name 0 (.ok (mode.bound v))
  /-- The parent is asked for a plain name that the scope does not bind. -/
  | up {h g : Handle} {name : String} {n : Nat} {r : Except ScopeError Lookup}
      (hn : splitName? name = none) (hv : h.scope.bindings.value? name = none)
      (hp : c.parentScope h = .ok (some g)) (hg : Resolves c mode g name n r) :
      Resolves c mode h name n r
  /-- There is no parent to ask. -/
  | root {h : Handle} {name : String} (hn : splitName? name = none)
      (hv : h.scope.bindings.value? name = none) (hp : c.parentScope h = .ok none) :
      Resolves c mode h name 0 (.ok mode.unbound)
  /-- The parent is not in the catalog. -/
  | lost {h : Handle} {name : String} {e : ScopeError} (hn : splitName? name = none)
      (hv : h.scope.bindings.value? name = none) (hp : c.parentScope h = .error e) :
      Resolves c mode h name 0 (.error e)
  /-- Another scope is asked for the short name. -/
  | jump {h g : Handle} {name q s : String} {n : Nat} {r : Except ScopeError Lookup}
      (hn : splitName? name = some (q, s)) (ht : c.jumpTarget h q name = .ok g)
      (hg : Resolves c mode g s n r) : Resolves c mode h name (n + 1) r
  /-- There is no scope to jump to. -/
  | stuck {h : Handle} {name q s : String} {e : ScopeError}
      (hn : splitName? name = some (q, s)) (ht : c.jumpTarget h q name = .error e) :
      Resolves c mode h name 0 (.error e)

/-! ## Steps of a lookup -/

theorem lookup_of_splitName? (c : Catalog) (h : Handle) (mode : LookupMode)
    {name q s : String} (hn : splitName? name = some (q, s)) :
    c.lookup h mode name = (c.jumpTarget h q name).bind fun g => c.lookup g mode s := by
  have hshort : ∀ g, c.lookup g mode s = c.lookupFrom g mode s := fun g =>
    lookup_of_plain c g mode (splitName?_short hn)
  simp only [hshort]
  simp only [lookup, origin, hn, jumpTarget]
  by_cases hq : q = ""
  · rw [if_pos hq, if_pos hq]
    cases c.topScope h <;> rfl
  · rw [if_neg hq, if_neg hq]
    cases c.classOrigin h.scope q name <;> rfl

theorem lookup_of_jumpTarget {c : Catalog} {h g : Handle} {mode : LookupMode}
    {name q s : String} (hn : splitName? name = some (q, s))
    (ht : c.jumpTarget h q name = .ok g) : c.lookup h mode name = c.lookup g mode s := by
  rw [lookup_of_splitName? c h mode hn, ht]
  rfl

theorem lookup_of_jumpTarget_error {c : Catalog} {h : Handle} {mode : LookupMode}
    {name q s : String} {e : ScopeError} (hn : splitName? name = some (q, s))
    (ht : c.jumpTarget h q name = .error e) : c.lookup h mode name = .error e := by
  rw [lookup_of_splitName? c h mode hn, ht]
  rfl

namespace IsForest

variable {c : Catalog} {i : ScopeId} {h : Handle}

/-- A plain name is always answered. -/
theorem exists_lookup (hc : IsForest c) (hi : c.handle? i = some h) (mode : LookupMode)
    {name : String} (hn : splitName? name = none) : ∃ a, c.lookup h mode name = .ok a := by
  obtain ⟨ids, ha⟩ := hc.exists_ancestry i
  exact ⟨_, hc.lookup_eq hi ha mode (splitName?_eq_none_iff.1 hn)⟩

theorem lookup_up (hc : IsForest c) (hi : c.handle? i = some h) (mode : LookupMode)
    {name : String} (hn : splitName? name = none) (hv : h.scope.bindings.value? name = none)
    {g : Handle} (hp : c.parentScope h = .ok (some g)) :
    ∃ p, c.handle? p = some g ∧ c.lookup h mode name = c.lookup g mode name := by
  rw [hc.parentScope_eq hi] at hp
  obtain ⟨p, hip, hg⟩ := Option.bind_eq_some_iff.1 (Except.ok.inj hp)
  obtain ⟨ids, ha⟩ := hc.exists_ancestry p
  refine ⟨p, hg, ?_⟩
  have hplain := splitName?_eq_none_iff.1 hn
  rw [hc.lookup_eq hi (.up hip ha) mode hplain, hc.lookup_eq hg ha mode hplain,
    List.findSome?_cons, valueAt?_of_handle? hi, hv]

theorem lookup_root (hc : IsForest c) (hi : c.handle? i = some h) {mode : LookupMode}
    {name : String} (hn : splitName? name = none) (hv : h.scope.bindings.value? name = none)
    (hp : c.parentScope h = .ok none) : c.lookup h mode name = .ok mode.unbound := by
  have hroot : c.parentOf i = none := by
    cases hip : c.parentOf i with
    | none => rfl
    | some p =>
      obtain ⟨g, hg⟩ := hc.exists_handle_of_parentOf hip
      rw [hc.parentScope_eq hi, hip, Option.bind_some, hg] at hp
      cases hp
  rw [hc.lookup_eq hi (.root hroot) mode (splitName?_eq_none_iff.1 hn), List.findSome?_cons,
    valueAt?_of_handle? hi, hv]
  rfl

theorem exists_handle_of_jumpTarget (hc : IsForest c) (hi : c.handle? i = some h)
    {q name : String} {g : Handle} (ht : c.jumpTarget h q name = .ok g) :
    ∃ j, c.handle? j = some g := by
  unfold jumpTarget at ht
  split at ht
  · obtain ⟨ids, ha⟩ := hc.exists_ancestry i
    obtain ⟨r, root, -, -, hr, htop⟩ := hc.exists_topScope hi ha
    rw [htop] at ht
    cases ht
    exact ⟨r, hr⟩
  · unfold classOrigin at ht
    split at ht
    · cases ht
    · split at ht
      · cases ht
      · split at ht
        · cases ht
        · next hj =>
          cases ht
          exact ⟨_, hj⟩

end IsForest

/-! ## A lookup jumps at most once -/

/-- What a scope comes to step by step is the answer.  A plain name makes no jump, and the
short name behind a jump is plain. -/
theorem Resolves.lookup_eq_and {c : Catalog} (hc : IsForest c) {mode : LookupMode} {h : Handle}
    {name : String} {n : Nat} {r : Except ScopeError Lookup} (hr : Resolves c mode h name n r)
    {i : ScopeId} (hi : c.handle? i = some h) :
    r = c.lookup h mode name ∧ n ≤ 1 ∧ (splitName? name = none → n = 0) := by
  induction hr generalizing i with
  | @here h name v hn hv =>
    refine ⟨?_, Nat.zero_le 1, fun _ => rfl⟩
    rw [lookup_of_plain c h mode hn, lookupFrom_of_bound c h mode hv]
  | up hn hv hp _ ih =>
    obtain ⟨p, hg, hup⟩ := hc.lookup_up hi mode hn hv hp
    rw [hup]
    exact ih hg
  | root hn hv hp => exact ⟨(hc.lookup_root hi hn hv hp).symm, Nat.zero_le 1, fun _ => rfl⟩
  | lost _ _ hp =>
    rw [hc.parentScope_eq hi] at hp
    cases hp
  | jump hn ht _ ih =>
    obtain ⟨j, hg⟩ := hc.exists_handle_of_jumpTarget hi ht
    obtain ⟨rfl, -, hzero⟩ := ih hg
    refine ⟨(lookup_of_jumpTarget hn ht).symm, ?_, fun hnone => ?_⟩
    · have := hzero (splitName?_short hn)
      omega
    · rw [hn] at hnone
      cases hnone
  | stuck hn ht => exact ⟨(lookup_of_jumpTarget_error hn ht).symm, Nat.zero_le 1, fun _ => rfl⟩

/-- For a plain name the steps end: they go up the ancestry. -/
theorem IsForest.resolves_plain {c : Catalog} (hc : IsForest c) (mode : LookupMode)
    {name : String} (hn : splitName? name = none) {i : ScopeId} {ids : List ScopeId}
    (ha : Ancestry c i ids) {h : Handle} (hi : c.handle? i = some h) :
    Resolves c mode h name 0 (c.lookup h mode name) := by
  induction ha generalizing h with
  | root hr =>
    have hp : c.parentScope h = .ok none := by rw [hc.parentScope_eq hi, hr]; rfl
    cases hv : h.scope.bindings.value? name with
    | some v =>
      rw [lookup_of_plain c h mode hn, lookupFrom_of_bound c h mode hv]
      exact .here hn hv
    | none =>
      rw [hc.lookup_root hi hn hv hp]
      exact .root hn hv hp
  | up hip _ ih =>
    obtain ⟨g, hg⟩ := hc.exists_handle_of_parentOf hip
    have hp : c.parentScope h = .ok (some g) := by
      rw [hc.parentScope_eq hi, hip, Option.bind_some, hg]
    cases hv : h.scope.bindings.value? name with
    | some v =>
      rw [lookup_of_plain c h mode hn, lookupFrom_of_bound c h mode hv]
      exact .here hn hv
    | none =>
      obtain ⟨p, -, hup⟩ := hc.lookup_up hi mode hn hv hp
      rw [hup]
      exact .up hn hv hp (ih hg)

/-- Every lookup ends, after one jump at most. -/
theorem IsForest.resolves_lookup {c : Catalog} (hc : IsForest c) {i : ScopeId} {h : Handle}
    (hi : c.handle? i = some h) (mode : LookupMode) (name : String) :
    ∃ n ≤ 1, Resolves c mode h name n (c.lookup h mode name) := by
  cases hn : splitName? name with
  | none =>
    obtain ⟨ids, ha⟩ := hc.exists_ancestry i
    exact ⟨0, Nat.zero_le 1, hc.resolves_plain mode hn ha hi⟩
  | some p =>
    obtain ⟨q, s⟩ := p
    cases ht : c.jumpTarget h q name with
    | error e =>
      rw [lookup_of_jumpTarget_error hn ht]
      exact ⟨0, Nat.zero_le 1, .stuck hn ht⟩
    | ok g =>
      obtain ⟨j, hg⟩ := hc.exists_handle_of_jumpTarget hi ht
      obtain ⟨ids, ha⟩ := hc.exists_ancestry j
      rw [lookup_of_jumpTarget hn ht]
      exact ⟨1, Nat.le_refl 1, .jump hn ht (hc.resolves_plain mode (splitName?_short hn) ha hg)⟩

/-! ## Qualifiers -/

theorem exists_splitName? {name : String} (hn : separator <:+: name.toList) :
    ∃ q s, splitName? name = some (q, s) := by
  cases h : splitName? name with
  | none => exact absurd hn (splitName?_eq_none_iff.1 h)
  | some p => exact ⟨p.1, p.2, rfl⟩

/-- With an empty qualifier the root answers, and it always answers. -/
theorem IsForest.lookup_of_leading {c : Catalog} (hc : IsForest c) {i : ScopeId} {h : Handle}
    (hi : c.handle? i = some h) (mode : LookupMode) {name s : String}
    (hn : splitName? name = some ("", s)) {ids : List ScopeId} (ha : Ancestry c i ids) :
    ∃ r root a, ids.getLast? = some r ∧ c.parentOf r = none ∧ c.handle? r = some root ∧
      c.topScope h = .ok root ∧ c.lookup h mode name = c.lookup root mode s ∧
      c.lookup root mode s = .ok a := by
  obtain ⟨r, root, hlast, hr, hroot, htop⟩ := hc.exists_topScope hi ha
  obtain ⟨a, hans⟩ := hc.exists_lookup hroot mode (splitName?_short hn)
  exact ⟨r, root, a, hlast, hr, hroot, htop, lookup_of_jumpTarget hn htop, hans⟩

/-- What any other qualifier can lead to: it names no class, the class is not evaluated, its
scope is not in the catalog, or that scope answers. -/
theorem IsForest.lookup_of_class {c : Catalog} (hc : IsForest c) (h : Handle)
    (mode : LookupMode) {name q s : String} (hn : splitName? name = some (q, s)) (hq : q ≠ "") :
    (h.scope.findClass? c.types q = none ∧
        c.lookup h mode name = .error (.unresolvedClass q name)) ∨
      ∃ d, h.scope.findClass? c.types q = some d ∧
        ((c.classScope? d.name = none ∧
            c.lookup h mode name = .error (.unevaluatedClass d.name name)) ∨
          ∃ id, c.classScope? d.name = some id ∧
            ((c.handle? id = none ∧
                c.lookup h mode name = .error (.internal (.missingClassScope id d.name))) ∨
              ∃ g a, c.handle? id = some g ∧ c.lookup h mode name = c.lookup g mode s ∧
                c.lookup h mode name = .ok a)) := by
  have ht : c.jumpTarget h q name = c.classOrigin h.scope q name := if_neg hq
  unfold classOrigin at ht
  cases hd : h.scope.findClass? c.types q with
  | none =>
    simp only [hd] at ht
    exact Or.inl ⟨rfl, lookup_of_jumpTarget_error hn ht⟩
  | some d =>
    refine Or.inr ⟨d, rfl, ?_⟩
    cases hs : c.classScope? d.name with
    | none =>
      simp only [hd, hs] at ht
      exact Or.inl ⟨rfl, lookup_of_jumpTarget_error hn ht⟩
    | some id =>
      refine Or.inr ⟨id, rfl, ?_⟩
      cases hg : c.handle? id with
      | none =>
        simp only [hd, hs, hg] at ht
        exact Or.inl ⟨rfl, lookup_of_jumpTarget_error hn ht⟩
      | some g =>
        simp only [hd, hs, hg] at ht
        have hjump : c.lookup h mode name = c.lookup g mode s := lookup_of_jumpTarget hn ht
        obtain ⟨a, ha⟩ := hc.exists_lookup hg mode (splitName?_short hn)
        exact Or.inr ⟨g, a, rfl, hjump, hjump.trans ha⟩

/-! ## Top theorem -/

/-- In a reachable catalog a name with a separator is cut at its last one.  With nothing in
front the root of the scope answers for the short name.  Otherwise the lookup fails exactly
when no namespace of the scope leads to a class, when that class has no scope recorded, or
when the recorded scope is not in the catalog, each in its own way; and in all other cases
the recorded scope answers for the short name.  There is one jump at most, and an end. -/
theorem lookup_of_separator {c : Catalog} (hc : Reachable c) {i : ScopeId} {h : Handle}
    (hi : c.handle? i = some h) (mode : LookupMode) {name : String}
    (hn : separator <:+: name.toList) :
    ∃ q s, IsLastSplit name q s ∧ ¬ separator <:+: s.toList ∧
      (q = "" → ∃ ids r root a, Ancestry c i ids ∧ ids.getLast? = some r ∧
        c.handle? r = some root ∧ c.lookup h mode name = c.lookup root mode s ∧
        c.lookup h mode name = .ok a) ∧
      (q ≠ "" →
        (c.lookup h mode name = .error (.unresolvedClass q name) ↔
          ∀ ns ∈ h.scope.namespaces, c.types.findClass? ns q = none) ∧
        ∀ d, h.scope.findClass? c.types q = some d →
          (c.lookup h mode name = .error (.unevaluatedClass d.name name) ↔
            c.classScope? d.name = none) ∧
          ∀ id, c.classScope? d.name = some id →
            ((∃ e, c.lookup h mode name = .error (.internal e)) ↔ c.handle? id = none) ∧
            ∀ g, c.handle? id = some g →
              c.lookup h mode name = c.lookup g mode s ∧ ∃ a, c.lookup h mode name = .ok a) ∧
      (∃ n ≤ 1, Resolves c mode h name n (c.lookup h mode name)) ∧
      ∀ n r, Resolves c mode h name n r → n ≤ 1 ∧ r = c.lookup h mode name := by
  have hf := hc.isForest
  obtain ⟨q, s, hs⟩ := exists_splitName? hn
  refine ⟨q, s, isLastSplit_of_splitName? hs, splitName?_eq_none_iff.1 (splitName?_short hs),
    ?_, ?_, hf.resolves_lookup hi mode name, fun n r hr => ?_⟩
  · rintro rfl
    obtain ⟨ids, ha⟩ := hf.exists_ancestry i
    obtain ⟨r, root, a, hlast, -, hroot, -, hjump, hans⟩ := hf.lookup_of_leading hi mode hs ha
    exact ⟨ids, r, root, a, ha, hlast, hroot, hjump, hjump.trans hans⟩
  · intro hq
    rw [← List.findSome?_eq_none_iff]
    change (_ ↔ h.scope.findClass? c.types q = none) ∧ _
    rcases hf.lookup_of_class h mode hs hq with
      ⟨hd, hl⟩ | ⟨d, hd, ⟨hid, hl⟩ | ⟨id, hid, ⟨hg, hl⟩ | ⟨g, a, hg, hl, ha⟩⟩⟩
    · simp [hd, hl]
    · simp [hd, hid, hl]
    · simp [hd, hid, hg, hl]
    · simp [hd, hid, hg, ← hl, ha]
  · obtain ⟨heq, hle, -⟩ := hr.lookup_eq_and hf hi
    exact ⟨hle, heq⟩

/-- In the sample the class `Ghost` is found under any spelling, but its scope is not there. -/
theorem lookup_of_separator_ghost :
    ∃ h, sample.handle? ⟨2⟩ = some h ∧ separator <:+: "::ghost::x".toList ∧
      ∃ e, sample.lookup h .raw "::ghost::x" = .error (.internal e) := by
  refine ⟨_, rfl, by decide, ?_⟩
  have hn : separator <:+: "::ghost::x".toList := by decide
  obtain ⟨q, s, hsplit, -, -, hclass, -⟩ :=
    lookup_of_separator reachable_sample (i := ⟨2⟩) rfl .raw hn
  have hqs : splitName? "::ghost::x" = some ("::ghost", "x") := by decide
  obtain ⟨rfl, rfl⟩ := hsplit.unique (isLastSplit_of_splitName? hqs)
  obtain ⟨-, hfound⟩ := hclass (by decide)
  obtain ⟨-, hscope⟩ := hfound ⟨"Ghost", .ordinary⟩ (by decide)
  exact (hscope ⟨9⟩ (by decide)).1.2 rfl

end Catalog

end ScopeTree
