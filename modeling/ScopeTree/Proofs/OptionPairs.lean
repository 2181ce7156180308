import Mathlib.Data.Option.Basic
import ScopeTree.Options

/-!
# Options read from pairs

Pairs of a key and a value are read one after another.  The first that cannot be read, because its
key is unknown or its value is of another kind than the key takes, is the error, also where a later
pair of its key would have taken its place.  If there is none, every setting is what was given to
its key last, and what it is by default if nothing was.

    o.assignPair p = error e ↔ BadPair p e                       (assignPair_eq_error_iff)
    ofPairs (before ++ p :: after) = error e, if before is good and BadPair p e
                                                                 (ofPairs_of_first_bad)
    ofPairs pairs = ok o ↔ all are good and o.get? key = what key was given last, or by default
                                                                 (ofPairs_eq_ok_iff)
    a pair of the configuration counts for nothing, nor does one whose key is given once more
                                                                 (ofPairs_drop)
    SameByKey pairs pairs' → ofPairs pairs' = ofPairs pairs, if that is ok
                                                                 (ofPairs_of_sameByKey)
-/

namespace ScopeTree

/-! ## Specification -/

/-- The pair cannot be read, and why. -/
inductive BadPair : String × OptionValue → ScopeError → Prop
  | unknown {text : String} {value : OptionValue} (h : ∀ key : OptionKey, key.text ≠ text) :
      BadPair (text, value) (.construction (.unknownOption text))
  | unexpected {key : OptionKey} {value : OptionValue} (h : key.admits value = false) :
      BadPair (key.text, value) (.construction (.unexpectedOption key value))

/-- What is given to a key last, if anything is. -/
def lastGiven (pairs : List (String × OptionValue)) (key : OptionKey) : Option OptionValue :=
  (pairs.reverse.find? fun p => p.1 = key.text).map (·.2)

/-- The pairs of any one spelling are the same in both, and in the same order.  Pairs of different
spellings may stand anywhere to each other. -/
def SameByKey (pairs pairs' : List (String × OptionValue)) : Prop :=
  ∀ text, pairs'.filter (·.1 = text) = pairs.filter (·.1 = text)

namespace ScopeOptions

/-- The setting of a key.  There is none of the configuration. -/
def get? (o : ScopeOptions) : OptionKey → Option OptionValue
  | .initialNamespace => o.initialNamespace.map .str
  | .typeName => o.typeName.map .str
  | .name => o.name.map .str
  | .source => o.source.map .str
  | .keyword => o.keyword.map .str
  | .exported => some (.bool o.exported)
  | .virtual => some (.bool o.virtual)
  | .top => some (.bool o.top)
  | .translated => some (.bool o.translated)
  | .level => o.level.map .int
  | .parent => o.parent.map .scope
  | .configuration => none

/-! ## Settings -/

/-- Options are told apart by their settings. -/
theorem ext_get? {o o' : ScopeOptions}
    (h : ∀ key, key ≠ .configuration → o.get? key = o'.get? key) : o = o' := by
  have hstr : Function.Injective OptionValue.str := fun _ _ h => OptionValue.str.inj h
  have hint : Function.Injective OptionValue.int := fun _ _ h => OptionValue.int.inj h
  have hscope : Function.Injective OptionValue.scope := fun _ _ h => OptionValue.scope.inj h
  cases o
  cases o'
  congr
  · exact Option.map_injective hstr (h .initialNamespace (by decide))
  · exact Option.map_injective hstr (h .typeName (by decide))
  · exact Option.map_injective hstr (h .name (by decide))
  · exact Option.map_injective hscope (h .parent (by decide))
  · exact Option.map_injective hstr (h .source (by decide))
  · exact Option.map_injective hstr (h .keyword (by decide))
  · exact OptionValue.bool.inj (Option.some.inj (h .exported (by decide)))
  · exact OptionValue.bool.inj (Option.some.inj (h .virtual (by decide)))
  · exact OptionValue.bool.inj (Option.some.inj (h .top (by decide)))
  · exact OptionValue.bool.inj (Option.some.inj (h .translated (by decide)))
  · exact Option.map_injective hint (h .level (by decide))

theorem get?_assign {o o' : ScopeOptions} {key : OptionKey} {value : OptionValue}
    (h : o.assign key value = .ok o') (k : OptionKey) :
    o'.get? k = if k = key ∧ k ≠ .configuration then some value else o.get? k := by
  cases key <;> cases value <;> cases h <;> cases k <;> rfl

/-! ## One pair -/

variable {o o' : ScopeOptions} {p : String × OptionValue}

theorem assignPair_eq_error_iff {e : ScopeError} :
    o.assignPair p = .error e ↔ BadPair p e := by
  obtain ⟨text, value⟩ := p
  rw [assignPair]
  cases hkey : OptionKey.ofText? text with
  | none =>
    have hunknown : ∀ key : OptionKey, key.text ≠ text := by
      intro key h
      rw [OptionKey.ofText?_eq_some_iff.2 h] at hkey
      cases hkey
    constructor
    · intro h
      cases h
      exact .unknown hunknown
    · intro h
      cases h with
      | unknown => rfl
      | unexpected => exact absurd rfl (hunknown _)
  | some key =>
    obtain rfl := OptionKey.ofText?_eq_some_iff.1 hkey
    rw [assign_eq_error_iff]
    constructor
    · rintro ⟨hadmits, rfl⟩
      exact .unexpected hadmits
    · intro h
      generalize htext : key.text = text at h
      cases h with
      | unknown h => exact absurd htext (h key)
      | unexpected hadmits =>
        obtain rfl := OptionKey.text_injective htext
        exact ⟨hadmits, rfl⟩

theorem not_badPair (h : o.assignPair p = .ok o') (e : ScopeError) : ¬ BadPair p e := by
  intro hbad
  rw [assignPair_eq_error_iff.2 hbad] at h
  cases h

theorem get?_assignPair (h : o.assignPair p = .ok o') {key : OptionKey}
    (hkey : key ≠ .configuration) :
    o'.get? key = (if p.1 = key.text then some p.2 else none).or (o.get? key) := by
  rw [assignPair] at h
  cases hp : OptionKey.ofText? p.1 with
  | none =>
    rw [hp] at h
    cases h
  | some k =>
    rw [hp] at h
    have htext : p.1 = key.text ↔ key = k := by
      rw [← OptionKey.ofText?_eq_some_iff.1 hp]
      exact ⟨fun h => (OptionKey.text_injective h).symm, fun h => by rw [h]⟩
    rw [get?_assign h]
    simp only [htext, hkey, ne_eq, not_false_eq_true, and_true]
    split <;> rfl

end ScopeOptions

/-! ## What is given last -/

theorem lastGiven_append (pairs pairs' : List (String × OptionValue)) (key : OptionKey) :
    lastGiven (pairs ++ pairs') key = (lastGiven pairs' key).or (lastGiven pairs key) := by
  simp only [lastGiven, List.reverse_append, List.find?_append, Option.map_or]

theorem lastGiven_singleton (p : String × OptionValue) (key : OptionKey) :
    lastGiven [p] key = if p.1 = key.text then some p.2 else none := by
  simp only [lastGiven, List.reverse_singleton, List.find?_singleton, decide_eq_true_eq]
  split <;> rfl

theorem lastGiven_cons (p : String × OptionValue) (pairs : List (String × OptionValue))
    (key : OptionKey) :
    lastGiven (p :: pairs) key =
      (lastGiven pairs key).or (if p.1 = key.text then some p.2 else none) := by
  rw [← List.singleton_append, lastGiven_append, lastGiven_singleton]

theorem lastGiven_filter (pairs : List (String × OptionValue)) (key : OptionKey) :
    lastGiven (pairs.filter (·.1 = key.text)) key = lastGiven pairs key := by
  simp only [lastGiven, ← List.filter_reverse, List.find?_filter, decide_eq_true_eq, and_self]

theorem lastGiven_eq_none_iff {pairs : List (String × OptionValue)} {key : OptionKey} :
    lastGiven pairs key = none ↔ ∀ p ∈ pairs, p.1 ≠ key.text := by
  simp [lastGiven]

/-! ## All pairs -/

namespace ScopeOptions

variable {o o' : ScopeOptions} {e : ScopeError} {pairs : List (String × OptionValue)}

/-- A run over the pairs that comes through: none is bad, and a setting is what was given last, or
what it was before. -/
theorem foldlM_assignPair_eq_ok (h : pairs.foldlM assignPair o = .ok o') :
    (∀ p ∈ pairs, ∀ e, ¬ BadPair p e) ∧ ∀ key, key ≠ .configuration →
      o'.get? key = (lastGiven pairs key).or (o.get? key) := by
  induction pairs generalizing o with
  | nil =>
    cases h
    exact ⟨by simp, fun key _ => rfl⟩
  | cons p pairs ih =>
    rw [List.foldlM_cons] at h
    cases h₁ : o.assignPair p with
    | error e =>
      rw [h₁] at h
      cases h
    | ok o₁ =>
      rw [h₁] at h
      obtain ⟨hpairs, hget⟩ := ih h
      refine ⟨List.forall_mem_cons.2 ⟨not_badPair h₁, hpairs⟩, fun key hkey => ?_⟩
      rw [hget key hkey, get?_assignPair h₁ hkey, lastGiven_cons, Option.or_assoc]

/-- A run over the pairs that stops does so at the first that is bad. -/
theorem foldlM_assignPair_eq_error (h : pairs.foldlM assignPair o = .error e) :
    ∃ before p after, pairs = before ++ p :: after ∧
      (∀ q ∈ before, ∀ e, ¬ BadPair q e) ∧ BadPair p e := by
  induction pairs generalizing o with
  | nil => cases h
  | cons p pairs ih =>
    rw [List.foldlM_cons] at h
    cases h₁ : o.assignPair p with
    | error e' =>
      rw [h₁] at h
      cases h
      exact ⟨[], p, pairs, rfl, by simp, assignPair_eq_error_iff.1 h₁⟩
    | ok o₁ =>
      rw [h₁] at h
      obtain ⟨before, q, after, rfl, hbefore, hq⟩ := ih h
      exact ⟨p :: before, q, after, rfl, List.forall_mem_cons.2 ⟨not_badPair h₁, hbefore⟩, hq⟩

theorem foldlM_assignPair_of_good (o : ScopeOptions) (hpairs : ∀ p ∈ pairs, ∀ e, ¬ BadPair p e) :
    ∃ o', pairs.foldlM assignPair o = .ok o' := by
  cases h : pairs.foldlM assignPair o with
  | ok o' => exact ⟨o', rfl⟩
  | error e =>
    obtain ⟨before, p, after, rfl, -, hp⟩ := foldlM_assignPair_eq_error h
    exact absurd hp (hpairs p (by simp) e)

theorem ofPairs_eq_ok_iff :
    ofPairs pairs = .ok o ↔ (∀ p ∈ pairs, ∀ e, ¬ BadPair p e) ∧ ∀ key, key ≠ .configuration →
      o.get? key = (lastGiven pairs key).or (({} : ScopeOptions).get? key) := by
  refine ⟨foldlM_assignPair_eq_ok, fun ⟨hpairs, hget⟩ => ?_⟩
  obtain ⟨o', h⟩ := foldlM_assignPair_of_good {} hpairs
  obtain rfl : o' = o := by
    apply ext_get?
    intro key hkey
    rw [hget key hkey, (foldlM_assignPair_eq_ok h).2 key hkey]
  exact h

theorem ofPairs_of_first_bad {before after : List (String × OptionValue)}
    {p : String × OptionValue} (hbefore : ∀ q ∈ before, ∀ e, ¬ BadPair q e) (hp : BadPair p e) :
    ofPairs (before ++ p :: after) = .error e := by
  obtain ⟨o, h⟩ := foldlM_assignPair_of_good {} hbefore
  rw [ofPairs, List.foldlM_append, h]
  show List.foldlM assignPair o (p :: after) = .error e
  rw [List.foldlM_cons, assignPair_eq_error_iff.2 hp]
  rfl

theorem ofPairs_eq_error_iff :
    ofPairs pairs = .error e ↔ ∃ before p after, pairs = before ++ p :: after ∧
      (∀ q ∈ before, ∀ e, ¬ BadPair q e) ∧ BadPair p e := by
  refine ⟨foldlM_assignPair_eq_error, ?_⟩
  rintro ⟨before, p, after, rfl, hbefore, hp⟩
  exact ofPairs_of_first_bad hbefore hp

/-- What counts of the pairs is which there are, and which come last. -/
theorem ofPairs_congr {pairs' : List (String × OptionValue)} (h : ofPairs pairs = .ok o)
    (hmem : ∀ p ∈ pairs', p ∈ pairs)
    (hlast : ∀ key, key ≠ .configuration → lastGiven pairs' key = lastGiven pairs key) :
    ofPairs pairs' = .ok o := by
  obtain ⟨hgood, hget⟩ := ofPairs_eq_ok_iff.1 h
  refine ofPairs_eq_ok_iff.2 ⟨fun p hp => hgood p (hmem p hp), fun key hkey => ?_⟩
  rw [hlast key hkey, hget key hkey]

/-- A pair counts for nothing if it is of the configuration, or if its key is given once more. -/
theorem ofPairs_drop {before after : List (String × OptionValue)} {p : String × OptionValue}
    (h : ofPairs (before ++ p :: after) = .ok o)
    (hp : p.1 = OptionKey.configuration.text ∨ ∃ q ∈ after, q.1 = p.1) :
    ofPairs (before ++ after) = .ok o := by
  refine ofPairs_congr h (fun q hq => ?_) (fun key hkey => ?_)
  · rw [List.mem_append] at hq ⊢
    exact hq.imp id (List.mem_cons_of_mem p)
  · rw [lastGiven_append, lastGiven_append, lastGiven_cons]
    by_cases hkey' : p.1 = key.text
    · -- the key is found behind the pair
      have hafter : lastGiven after key ≠ none := by
        rw [ne_eq, lastGiven_eq_none_iff]
        intro hnone
        rcases hp with hp | ⟨q, hq, hqp⟩
        · exact hkey (OptionKey.text_injective (hkey'.symm.trans hp))
        · exact hnone q hq (hqp.trans hkey')
      obtain ⟨value, hvalue⟩ := Option.ne_none_iff_exists'.1 hafter
      rw [hvalue, Option.some_or, Option.some_or]
      rfl
    · rw [if_neg hkey', Option.or_none]

theorem ofPairs_filter_configuration (h : ofPairs pairs = .ok o) :
    ofPairs (pairs.filter (·.1 ≠ OptionKey.configuration.text)) = .ok o := by
  refine ofPairs_congr h (fun p hp => (List.mem_filter.1 hp).1) (fun key hkey => ?_)
  -- the configuration is spelled otherwise than the key
  have htext : key.text ≠ OptionKey.configuration.text := fun h =>
    hkey (OptionKey.text_injective h)
  rw [← lastGiven_filter, List.filter_filter, ← lastGiven_filter pairs]
  congr 2
  funext p
  rw [Bool.eq_iff_iff, Bool.and_eq_true, decide_eq_true_eq, decide_eq_true_eq]
  exact ⟨And.left, fun h => ⟨h, h ▸ htext⟩⟩

theorem ofPairs_of_sameByKey {pairs' : List (String × OptionValue)}
    (hsame : SameByKey pairs pairs') (h : ofPairs pairs = .ok o) : ofPairs pairs' = .ok o := by
  refine ofPairs_congr h (fun p hp => ?_) (fun key _ => ?_)
  · have hmem : p ∈ pairs'.filter (·.1 = p.1) := List.mem_filter.2 ⟨hp, decide_eq_true rfl⟩
    rw [hsame p.1] at hmem
    exact (List.mem_filter.1 hmem).1
  · rw [← lastGiven_filter, hsame, lastGiven_filter]

/-! ## Top theorem -/

/-- **What is read from pairs.**  Reading fails if and only if one of the pairs is bad, and the
first that is bad is the error.  Otherwise every setting is what was given to its key last, or by
default.  So the pairs of the configuration may be left out, as may a pair whose key is given once
more, and pairs of different keys may change places. -/
theorem ofPairs_last_given (pairs : List (String × OptionValue)) :
    ((∃ e, ofPairs pairs = .error e) ↔ ∃ p ∈ pairs, ∃ e, BadPair p e) ∧
    (∀ e, ofPairs pairs = .error e ↔ ∃ before p after, pairs = before ++ p :: after ∧
      (∀ q ∈ before, ∀ e', ¬ BadPair q e') ∧ BadPair p e) ∧
    ∀ o, ofPairs pairs = .ok o →
      (∀ key, key ≠ .configuration →
        o.get? key = (lastGiven pairs key).or (({} : ScopeOptions).get? key)) ∧
      ofPairs (pairs.filter (·.1 ≠ OptionKey.configuration.text)) = .ok o ∧
      (∀ before p after, pairs = before ++ p :: after →
        (p.1 = OptionKey.configuration.text ∨ ∃ q ∈ after, q.1 = p.1) →
        ofPairs (before ++ after) = .ok o) ∧
      ∀ pairs', SameByKey pairs pairs' → ofPairs pairs' = .ok o := by
  refine ⟨⟨?_, ?_⟩, fun e => ofPairs_eq_error_iff, fun o h => ⟨(ofPairs_eq_ok_iff.1 h).2,
    ofPairs_filter_configuration h, ?_, fun pairs' hsame => ofPairs_of_sameByKey hsame h⟩⟩
  · rintro ⟨e, h⟩
    obtain ⟨before, p, after, rfl, -, hp⟩ := ofPairs_eq_error_iff.1 h
    exact ⟨p, by simp, e, hp⟩
  · rintro ⟨p, hp, e, hbad⟩
    cases h : ofPairs pairs with
    | error e' => exact ⟨e', rfl⟩
    | ok o => exact absurd hbad ((ofPairs_eq_ok_iff.1 h).1 p hp e)
  · rintro before p after rfl hp
    exact ofPairs_drop h hp

/-- The level is given twice, and the second time counts, wherever the other pairs stand. -/
theorem ofPairs_last_given_level :
    ofPairs [("level", .int 7), ("configuration", .catalog), ("level", .int 3),
        ("top", .bool true)] = .ok { level := some 3, top := true } ∧
      ofPairs [("top", .bool true), ("level", .int 7), ("level", .int 3)] =
        .ok { level := some 3, top := true } := by
  have hread : ofPairs [("level", .int 7), ("configuration", .catalog), ("level", .int 3),
      ("top", .bool true)] = .ok { level := some 3, top := true } := rfl
  obtain ⟨-, -, hdrop, -⟩ := (ofPairs_last_given _).2.2 _ hread
  have hwithout := hdrop [("level", .int 7)] _ _ rfl (.inl rfl)
  obtain ⟨-, -, -, hsame⟩ := (ofPairs_last_given _).2.2 _ hwithout
  refine ⟨hread, hsame _ fun text => ?_⟩
  by_cases htop : "top" = text
  · subst htop
    rfl
  · simp [List.filter_cons, htop]

end ScopeOptions

end ScopeTree
