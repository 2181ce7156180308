import ScopeTree.Error
import ScopeTree.Value
import Std.Data.ExtTreeMap

/-!
# Resource defaults

The parameter values that resources of a type take when they do not say otherwise.  Within
one scope a parameter of a type gets its default once.  Defaults are set in order, and those
before a duplicate stay.
-/

namespace ScopeTree

/-- The default of one parameter. -/
structure DefaultSpec where
  param : String
  value : Value
  location : SourceLocation := .unknown
deriving DecidableEq, Repr

abbrev DefaultMap := Std.ExtTreeMap String DefaultSpec

/-- Defaults of one scope, by type. -/
structure DefaultTable where
  byType : Std.ExtTreeMap String DefaultMap := ∅

namespace DefaultTable

def empty : DefaultTable := {}

/-- The defaults of a type, if any was ever set. -/
def get? (t : DefaultTable) (typeName : String) : Option DefaultMap := t.byType[typeName]?

def spec? (t : DefaultTable) (typeName param : String) : Option DefaultSpec :=
  (t.get? typeName).bind (·[param]?)

/-- Set a default that is not set yet. -/
def insert (t : DefaultTable) (typeName : String) (spec : DefaultSpec) :
    Except ScopeError DefaultTable :=
  let params := (t.get? typeName).getD ∅
  if params.contains spec.param then
    .error (.duplicateDefault typeName spec.param spec.location)
  else .ok ⟨t.byType.insert typeName (params.insert spec.param spec)⟩

/-- Set defaults in order, up to the first duplicate. -/
def insertAll (t : DefaultTable) (typeName : String) :
    List DefaultSpec → DefaultTable × Except ScopeError Unit
  | [] => (t, .ok ())
  | spec :: specs =>
    match t.insert typeName spec with
    | .ok t => t.insertAll typeName specs
    | .error e => (t, .error e)

/-- No type has a default. -/
def isEmpty (t : DefaultTable) : Bool := t.byType.values.all (·.isEmpty)

/-! ## Lemmas -/

@[simp] theorem spec?_empty (typeName param : String) : empty.spec? typeName param = none := by
  simp [empty, spec?, get?]

/-- A default is refused exactly when its parameter has one. -/
theorem insert_eq_error_iff {t : DefaultTable} {typeName : String} {spec : DefaultSpec}
    {e : ScopeError} :
    t.insert typeName spec = .error e ↔
      (t.spec? typeName spec.param).isSome ∧
        e = .duplicateDefault typeName spec.param spec.location := by
  unfold insert spec?
  cases t.get? typeName with
  | none => simp
  | some params =>
    cases h : params[spec.param]? <;>
      simp [Std.ExtTreeMap.contains_eq_isSome_getElem?, h, eq_comm (a := e)]

/-- A new default is seen under its type and parameter and leaves the others alone. -/
theorem spec?_insert {t t' : DefaultTable} {typeName : String} {spec : DefaultSpec}
    (h : t.insert typeName spec = .ok t') (ty p : String) :
    t'.spec? ty p =
      if ty = typeName ∧ p = spec.param then some spec else t.spec? ty p := by
  unfold insert at h
  simp only at h
  split at h
  · cases h
  · cases h
    by_cases hty : ty = typeName
    · subst hty
      by_cases hp : p = spec.param
      · subst hp
        simp [spec?, get?]
      · have hc : compare spec.param p ≠ .eq := fun hc => hp (Std.compare_eq_iff_eq.1 hc).symm
        cases ht : t.byType[ty]? <;>
          simp [spec?, get?, Std.ExtTreeMap.getElem?_insert, hc, hp, ht]
    · have hc : compare typeName ty ≠ .eq := fun hc => hty (Std.compare_eq_iff_eq.1 hc).symm
      simp [spec?, get?, Std.ExtTreeMap.getElem?_insert, hc, hty]

/-- What an insertion does not refuse, the table did not have yet. -/
theorem spec?_eq_none_of_insert {t t' : DefaultTable} {typeName : String} {spec : DefaultSpec}
    (h : t.insert typeName spec = .ok t') : t.spec? typeName spec.param = none := by
  rw [← Option.not_isSome_iff_eq_none]
  intro hsome
  have hrefused := insert_eq_error_iff.2 ⟨hsome, rfl⟩
  rw [h] at hrefused
  cases hrefused

theorem spec?_insertAll_of_some {t : DefaultTable} {ty p : String} {old : DefaultSpec}
    (hold : t.spec? ty p = some old) (typeName : String) (specs : List DefaultSpec) :
    (t.insertAll typeName specs).1.spec? ty p = some old := by
  induction specs generalizing t with
  | nil => exact hold
  | cons spec specs ih =>
    cases h : t.insert typeName spec with
    | error e => simpa only [insertAll, h] using hold
    | ok t' =>
      -- what was inserted is another default: this one would have been refused
      have hkept : t'.spec? ty p = some old := by
        rw [spec?_insert h, if_neg, hold]
        rintro ⟨rfl, rfl⟩
        rw [spec?_eq_none_of_insert h] at hold
        cases hold
      simpa only [insertAll, h] using ih hkept

theorem spec?_insertAll_of_ok {t : DefaultTable} {typeName : String} {specs : List DefaultSpec}
    (h : (t.insertAll typeName specs).2 = .ok ()) :
    ∀ spec ∈ specs, (t.insertAll typeName specs).1.spec? typeName spec.param = some spec := by
  induction specs generalizing t with
  | nil => simp
  | cons first specs ih =>
    cases hfirst : t.insert typeName first with
    | error e =>
      simp only [insertAll, hfirst] at h
      cases h
    | ok t' =>
      simp only [insertAll, hfirst] at h ⊢
      have hset : t'.spec? typeName first.param = some first := by
        rw [spec?_insert hfirst, if_pos ⟨rfl, rfl⟩]
      intro spec hspec
      rcases List.mem_cons.1 hspec with rfl | hspec
      · exact spec?_insertAll_of_some hset typeName specs
      · exact ih h spec hspec

/-- Every default stands under its own parameter. -/
def Keyed (t : DefaultTable) : Prop :=
  ∀ typeName param spec, t.spec? typeName param = some spec → spec.param = param

namespace Keyed

theorem empty : Keyed .empty := by
  intro typeName param spec h
  rw [spec?_empty] at h
  cases h

theorem insert {t t' : DefaultTable} (ht : t.Keyed) {typeName : String} {spec : DefaultSpec}
    (h : t.insert typeName spec = .ok t') : t'.Keyed := by
  intro ty param old hold
  rw [spec?_insert h] at hold
  split at hold
  · next hnew =>
    cases hold
    exact hnew.2.symm
  · exact ht ty param old hold

theorem insertAll {t : DefaultTable} (ht : t.Keyed) (typeName : String)
    (specs : List DefaultSpec) : (t.insertAll typeName specs).1.Keyed := by
  induction specs generalizing t with
  | nil => exact ht
  | cons spec specs ih =>
    cases h : t.insert typeName spec with
    | error e => simpa only [DefaultTable.insertAll, h] using ht
    | ok t' => simpa only [DefaultTable.insertAll, h] using ih (ht.insert h)

end Keyed

end DefaultTable

end ScopeTree
