import ScopeTree.Proofs.Qualified

/-!
# Lookups in the two modes

A raw lookup keeps a variable that is bound to `undef` apart from one that is not bound, and the
lookup for the text reads both as the empty text.  That is all the difference there is: it does not
matter where on the way the lookup is answered, and it fails in the same cases and in the same way.

    c.lookup h .asString name = (c.lookup h .raw name).map Lookup.orEmpty
                                                                 (lookup_asString)
    Resolves c .asString h name n r ↔ some Resolves c .raw h name n r' has r = r'.map Lookup.orEmpty
                                                                 (resolves_asString_iff)
-/

namespace ScopeTree

namespace Lookup

/-! ## Specification -/

/-- There is a value in the result. -/
def HasValue (a : Lookup) : Prop := a ≠ .found .undef ∧ a ≠ .undefined

/-- The result, with the empty text for a missing value. -/
def orEmpty : Lookup → Lookup
  | found .undef | undefined => found .empty
  | a => a

/-! ## Results -/

theorem orEmpty_of_hasValue {a : Lookup} (ha : a.HasValue) : a.orEmpty = a := by
  unfold orEmpty
  split
  · exact absurd rfl ha.1
  · exact absurd rfl ha.2
  · rfl

theorem orEmpty_of_not_hasValue {a : Lookup} (ha : a = .found .undef ∨ a = .undefined) :
    a.orEmpty = .found (.str "") := by
  rcases ha with rfl | rfl <;> rfl

theorem hasValue_orEmpty (a : Lookup) : a.orEmpty.HasValue := by
  unfold orEmpty
  split
  · simp [HasValue, Value.empty]
  · simp [HasValue, Value.empty]
  · next hundef hundefined => exact ⟨hundef, hundefined⟩

/-- A missing value leaves no text either way. -/
theorem text_orEmpty (a : Lookup) : a.orEmpty.text = a.text := by
  unfold orEmpty
  split <;> rfl

end Lookup

theorem LookupMode.bound_asString (v : Value) : asString.bound v = (raw.bound v).orEmpty := by
  cases v <;> rfl

namespace Catalog

/-! ## Lookups at once -/

theorem lookupFrom_asString (c : Catalog) (h : Handle) (name : String) :
    c.lookupFrom h .asString name = (c.lookupFrom h .raw name).map Lookup.orEmpty := by
  unfold lookupFrom
  cases (c.climbToBinding h name).stop with
  | found g v => exact congrArg Except.ok (LookupMode.bound_asString v)
  | root => rfl
  | lost child parent => rfl
  | endless child => rfl

theorem lookup_asString (c : Catalog) (h : Handle) (name : String) :
    c.lookup h .asString name = (c.lookup h .raw name).map Lookup.orEmpty := by
  unfold lookup
  cases c.origin h name with
  | error e => rfl
  | ok goal => exact lookupFrom_asString c goal.1 goal.2

/-! ## Lookups step by step -/

section

variable {c : Catalog} {h : Handle} {name : String} {n : Nat} {r : Except ScopeError Lookup}

/-- Whoever is asked next is asked in the same mode, so the modes part where the lookup ends. -/
theorem Resolves.asString (hr : Resolves c .raw h name n r) :
    Resolves c .asString h name n (r.map Lookup.orEmpty) := by
  induction hr with
  | @here h name v hn hv =>
    have hhere : Resolves c .asString h name 0 (.ok (LookupMode.asString.bound v)) := .here hn hv
    rwa [LookupMode.bound_asString] at hhere
  | up hn hv hp _ ih => exact .up hn hv hp ih
  | root hn hv hp => exact .root hn hv hp
  | lost hn hv hp => exact .lost hn hv hp
  | jump hn ht _ ih => exact .jump hn ht ih
  | stuck hn ht => exact .stuck hn ht

theorem Resolves.exists_raw (hr : Resolves c .asString h name n r) :
    ∃ r', Resolves c .raw h name n r' ∧ r = r'.map Lookup.orEmpty := by
  induction hr with
  | @here h name v hn hv =>
    exact ⟨_, .here hn hv, congrArg Except.ok (LookupMode.bound_asString v)⟩
  | up hn hv hp _ ih =>
    obtain ⟨r', hr', heq⟩ := ih
    exact ⟨r', .up hn hv hp hr', heq⟩
  | root hn hv hp => exact ⟨_, .root hn hv hp, rfl⟩
  | lost hn hv hp => exact ⟨_, .lost hn hv hp, rfl⟩
  | jump hn ht _ ih =>
    obtain ⟨r', hr', heq⟩ := ih
    exact ⟨r', .jump hn ht hr', heq⟩
  | stuck hn ht => exact ⟨_, .stuck hn ht, rfl⟩

theorem resolves_asString_iff : Resolves c .asString h name n r ↔
    ∃ r', Resolves c .raw h name n r' ∧ r = r'.map Lookup.orEmpty := by
  refine ⟨Resolves.exists_raw, ?_⟩
  rintro ⟨r', hr', rfl⟩
  exact hr'.asString

end

/-! ## Top theorem -/

/-- A lookup for the text fails when the raw one does, with the same error.  It gives the empty text
where the raw one has found `undef` or nothing, and the same value otherwise, so it is never without
a value; and the text of a variable is that of the raw result. -/
theorem modes_agree (c : Catalog) (h : Handle) (name : String) :
    (∀ e, c.lookup h .asString name = .error e ↔ c.lookup h .raw name = .error e) ∧
      (∀ a, c.lookup h .raw name = .ok a →
        (a = .found .undef ∨ a = .undefined →
          c.lookup h .asString name = .ok (.found (.str ""))) ∧
        (a.HasValue → c.lookup h .asString name = .ok a)) ∧
      (∀ a, c.lookup h .asString name = .ok a → a.HasValue) ∧
      c.lookupString h name = (c.lookup h .raw name).map Lookup.text ∧
      ∀ n r, Resolves c .asString h name n r ↔
        ∃ r', Resolves c .raw h name n r' ∧ r = r'.map Lookup.orEmpty := by
  have heq := lookup_asString c h name
  refine ⟨fun e => ?_, fun a ha => ⟨fun hmissing => ?_, fun hvalue => ?_⟩, fun a ha => ?_, ?_,
    fun n r => resolves_asString_iff⟩
  · rw [heq]
    cases c.lookup h .raw name <;> simp [Except.map]
  · rw [heq, ha]
    exact congrArg Except.ok (Lookup.orEmpty_of_not_hasValue hmissing)
  · rw [heq, ha]
    exact congrArg Except.ok (Lookup.orEmpty_of_hasValue hvalue)
  · rw [heq] at ha
    cases hraw : c.lookup h .raw name with
    | error e =>
      rw [hraw] at ha
      cases ha
    | ok b =>
      rw [hraw] at ha
      cases ha
      exact b.hasValue_orEmpty
  · rw [lookupString, heq]
    cases c.lookup h .raw name with
    | error e => rfl
    | ok a => exact congrArg Except.ok a.text_orEmpty

end Catalog

end ScopeTree
