import ScopeTree.Proofs.References

/-!
# How interpolation fails

Interpolation fails for two reasons: a reference is to a variable that cannot be looked up, or a
backslash is left over at the end.  The first such reference counts, and the end counts only when
there is none.

    FailsAt look text before e → it is the error                 (evaluate_of_failsAt)
    no reference fails → success or, with a backslash left over at the end, a parse error
                                                                 (evaluate_of_no_failure)
    c.lookup h mode name = .error e → e.OfLookup                 (ofLookup_of_lookup)

A lookup never gives a parse error, so the two reasons can be told apart by the error.
-/

namespace ScopeTree

/-- The errors in which a lookup can end: there is no such class, it has not been evaluated, or
the tree is damaged. -/
def ScopeError.OfLookup : ScopeError → Prop
  | unresolvedClass .. | unevaluatedClass .. | internal _ => True
  | _ => False

/-- What a scope makes of a string. -/
def Catalog.interpolate (c : Catalog) (h : Handle) (text : String) (location : SourceLocation) :
    Interpolation :=
  (Query.interpolate text location).answer c h

theorem map_eq_error_iff {ε α β : Type} {f : α → β} {x : Except ε α} {e : ε} :
    x.map f = .error e ↔ x = .error e := by
  cases x <;> simp [Except.map]

/-! ## Lookups -/

namespace Catalog

theorem ofLookup_of_lookupFrom {c : Catalog} {h : Handle} {mode : LookupMode} {name : String}
    {e : ScopeError} (he : c.lookupFrom h mode name = .error e) : e.OfLookup := by
  unfold lookupFrom at he
  split at he <;> cases he <;> trivial

theorem ofLookup_of_topScope {c : Catalog} {h : Handle} {e : ScopeError}
    (he : c.topScope h = .error e) : e.OfLookup := by
  unfold topScope chain at he
  dsimp only at he
  split at he <;> cases he <;> trivial

theorem ofLookup_of_classOrigin {c : Catalog} {s : Scope} {qualifier name : String}
    {e : ScopeError} (he : c.classOrigin s qualifier name = .error e) : e.OfLookup := by
  unfold classOrigin at he
  split at he
  · cases he
    trivial
  · split at he
    · cases he
      trivial
    · split at he
      · cases he
        trivial
      · cases he

theorem ofLookup_of_origin {c : Catalog} {h : Handle} {name : String} {e : ScopeError}
    (he : c.origin h name = .error e) : e.OfLookup := by
  unfold origin at he
  split at he
  · cases he
  · split at he
    · exact ofLookup_of_topScope (map_eq_error_iff.1 he)
    · exact ofLookup_of_classOrigin (map_eq_error_iff.1 he)

theorem ofLookup_of_lookup {c : Catalog} {h : Handle} {mode : LookupMode} {name : String}
    {e : ScopeError} (he : c.lookup h mode name = .error e) : e.OfLookup := by
  unfold lookup at he
  split at he
  · exact ofLookup_of_lookupFrom he
  · next horigin =>
    cases he
    exact ofLookup_of_origin horigin

theorem ofLookup_of_lookupString {c : Catalog} {h : Handle} {name : String} {e : ScopeError}
    (he : c.lookupString h name = .error e) : e.OfLookup :=
  ofLookup_of_lookup (map_eq_error_iff.1 he)

end Catalog

namespace Interpolation

section

variable (look : String → Except ScopeError String) (whole : String) (location : SourceLocation)

/-! ## Pieces -/

/-- The warnings about characters without a meaning. -/
def warningsAbout (location : SourceLocation) (cs : List Char) : List Diagnostic :=
  cs.map fun c => unknownEscapeWarning c location

theorem ofPiece_of_failure?_eq_none {p : Piece} (hp : p.failure? look = none)
    (hend : p ≠ .trailingBackslash) :
    ∃ s, ofPiece look whole location p = ⟨.ok s, warningsAbout location p.stray?.toList⟩ := by
  cases p with
  | reference name braced =>
    obtain ⟨s, hs⟩ := Piece.failure?_reference_eq_none_iff.1 hp
    exact ⟨s, by rw [ofPiece, hs]; rfl⟩
  | trailingBackslash => exact absurd rfl hend
  | _ => exact ⟨_, rfl⟩

/-- Pieces that do not fail give a text and their warnings, and leave the rest to those behind
them. -/
theorem ofPieces_append_of_failure?_eq_none {ps : List Piece}
    (hps : ∀ p ∈ ps, p.failure? look = none) (hend : .trailingBackslash ∉ ps)
    (qs : List Piece) :
    ∃ s, ofPieces look whole location (ps ++ qs) =
      ⟨(ofPieces look whole location qs).outcome.map (s ++ ·),
        warningsAbout location (ps.filterMap Piece.stray?) ++
          (ofPieces look whole location qs).warnings⟩ := by
  induction ps with
  | nil =>
    refine ⟨"", ?_⟩
    show _ = prepend "" (ofPieces look whole location qs)
    rw [prepend_empty, List.nil_append]
  | cons p ps ih =>
    have hp : p.failure? look = none := hps p List.mem_cons_self
    have hne : p ≠ .trailingBackslash := fun h => hend (by rw [h]; exact List.mem_cons_self)
    obtain ⟨s, hs⟩ := ofPiece_of_failure?_eq_none look whole location hp hne
    obtain ⟨t, ht⟩ := ih (fun q hq => hps q (List.mem_cons_of_mem p hq))
      fun hm => hend (List.mem_cons_of_mem p hm)
    refine ⟨s ++ t, ?_⟩
    rw [List.cons_append, ofPieces, hs, ht, andThen]
    cases hq : (ofPieces look whole location qs).outcome <;> cases hstray : p.stray? <;>
      simp [Except.map, warningsAbout, hstray, String.append_assoc]

/-! ## Texts -/

/-- The first reference that cannot be looked up is what interpolation fails for, after the
warnings that belong before it. -/
theorem evaluate_of_failsAt {text : String} {before : List Char} {e : ScopeError}
    (h : FailsAt look text.toList before e) :
    evaluate look text location = ⟨.error e, warningsAbout location (strays [] before)⟩ := by
  obtain ⟨ps, p, qs, hpieces, rfl, hp, hps⟩ := failsAt_iff.1 h
  obtain ⟨name, braced, rfl, hlook⟩ := Piece.failure?_eq_some_iff.1 hp
  obtain ⟨s, hs⟩ := ofPieces_append_of_failure?_eq_none look text location hps
    (trailingBackslash_not_mem_of_pieces_eq_append hpieces) (.reference name braced :: qs)
  have hreference : ofPieces look text location (.reference name braced :: qs) =
      ⟨.error e, []⟩ := by
    rw [ofPieces, ofPiece, hlook]
    rfl
  rw [evaluate, hpieces, hs, hreference, strays_flatMap_source hpieces, List.append_nil]
  rfl

/-- When no reference fails, only the end of the text can, and all characters without a meaning are
warned about. -/
theorem evaluate_of_no_failure {text : String}
    (h : ∀ before name, RefersAt text.toList before name → ∃ s, look (String.ofList name) = .ok s) :
    ∃ outcome, evaluate look text location =
        ⟨outcome, warningsAbout location (strays [] text.toList)⟩ ∧
      (endRun text.toList % 2 = 0 → ∃ s, outcome = .ok s) ∧
      (endRun text.toList % 2 = 1 → outcome = .error (.stringParse text location)) := by
  have hnone : ∀ p ∈ pieces text.toList, p.failure? look = none := by
    intro p hp
    rw [Option.eq_none_iff_forall_ne_some]
    intro e he
    obtain ⟨name, braced, rfl, hlook⟩ := Piece.failure?_eq_some_iff.1 he
    obtain ⟨ps, qs, hpieces⟩ := List.append_of_mem hp
    obtain ⟨s, hs⟩ := h _ name (refersAt_iff.2 ⟨ps, braced, qs, hpieces, rfl⟩)
    rw [hlook] at hs
    cases hs
  have hempty : endRun [] % 2 = 0 := rfl
  rw [strays_eq_filterMap_pieces hempty, evaluate]
  have hodd := trailingBackslash_mem_pieces_iff text.toList
  by_cases hend : .trailingBackslash ∈ pieces text.toList
  · obtain ⟨ps, qs, hpieces⟩ := List.append_of_mem hend
    obtain rfl := eq_nil_of_pieces_eq_append_trailing hpieces
    obtain ⟨s, hs⟩ := ofPieces_append_of_failure?_eq_none look text location
      (fun p hp => hnone p (by rw [hpieces]; exact List.mem_append_left _ hp))
      (trailingBackslash_not_mem_of_pieces_eq_append hpieces) [.trailingBackslash]
    refine ⟨.error (.stringParse text location), ?_, fun heven => ?_, fun _ => rfl⟩
    · have hlast : ofPieces look text location [.trailingBackslash] =
          ⟨.error (.stringParse text location), []⟩ := rfl
      have hstray : [Piece.trailingBackslash].filterMap Piece.stray? = [] := rfl
      rw [hpieces, hs, hlast, List.filterMap_append, hstray, List.append_nil, List.append_nil]
      rfl
    · have := hodd.1 hend
      omega
  · obtain ⟨s, hs⟩ := ofPieces_append_of_failure?_eq_none look text location hnone hend []
    rw [List.append_nil] at hs
    refine ⟨.ok (s ++ ""), ?_, fun _ => ⟨_, rfl⟩, fun h => absurd (hodd.2 h) hend⟩
    rw [hs, ofPieces, List.append_nil]
    rfl

end

end Interpolation

namespace Catalog

open Interpolation

variable (c : Catalog) (h : Handle) (text : String) (location : SourceLocation)

theorem failsAt_not_stringParse {before : List Char} {t : String} {l : SourceLocation} :
    ¬ FailsAt (c.lookupString h) text.toList before (.stringParse t l) := by
  rintro ⟨⟨name, -, hlook⟩, -⟩
  exact ofLookup_of_lookupString hlook

/-! ## Top theorem -/

/-- A string that ends in an odd run of backslashes fails: with the error of its first reference
that cannot be looked up, or, if there is none, with a parse error that carries the whole string and
its location.  A string that ends in an even run, or in none, never gives a parse error; it fails
with an error exactly when that is the error of its first reference that cannot be looked up. -/
theorem outcome_interpolate_of_endRun :
    (endRun text.toList % 2 = 1 →
      (∃ before e, FailsAt (c.lookupString h) text.toList before e ∧
        (c.interpolate h text location).outcome = .error e) ∨
      ((∀ before name, RefersAt text.toList before name →
          ∃ s, c.lookupString h (String.ofList name) = .ok s) ∧
        (c.interpolate h text location).outcome = .error (.stringParse text location))) ∧
    (endRun text.toList % 2 = 0 →
      (∀ t l, (c.interpolate h text location).outcome ≠ .error (.stringParse t l)) ∧
      ∀ e, (c.interpolate h text location).outcome = .error e ↔
        ∃ before, FailsAt (c.lookupString h) text.toList before e) := by
  have hfails : ∀ before e, FailsAt (c.lookupString h) text.toList before e →
      (c.interpolate h text location).outcome = .error e := by
    intro before e hfail
    exact congrArg Interpolation.outcome (evaluate_of_failsAt _ location hfail)
  rcases exists_failsAt_or (c.lookupString h) text.toList with ⟨before, e, hfail⟩ | hnone
  · have he := hfails before e hfail
    refine ⟨fun _ => Or.inl ⟨before, e, hfail, he⟩, fun _ => ⟨fun t l hparse => ?_, fun e' => ?_⟩⟩
    · rw [he] at hparse
      cases hparse
      exact failsAt_not_stringParse c h text hfail
    · constructor
      · intro he'
        rw [he] at he'
        cases he'
        exact ⟨before, hfail⟩
      · rintro ⟨before', hfail'⟩
        exact hfails before' e' hfail'
  · obtain ⟨outcome, hout, heven, hodd⟩ := evaluate_of_no_failure _ location hnone
    have hout : (c.interpolate h text location).outcome = outcome :=
      congrArg Interpolation.outcome hout
    rw [hout]
    refine ⟨fun ho => Or.inr ⟨hnone, hodd ho⟩, fun ho => ?_⟩
    obtain ⟨s, rfl⟩ := heven ho
    constructor
    · rintro t l ⟨⟩
    · intro e
      constructor
      · rintro ⟨⟩
      · rintro ⟨before, ⟨name, hrefers, hfail⟩, -⟩
        obtain ⟨t, ht⟩ := hnone before name hrefers
        rw [hfail] at ht
        cases ht

/-- In the sample a class that is not declared fails a string that ends in a pair of backslashes. -/
theorem outcome_interpolate_of_endRun_nowhere :
    ∃ h, sample.handle? top = some h ∧ endRun "\\$$::nowhere::y\\\\".toList % 2 = 0 ∧
      FailsAt (sample.lookupString h) "\\$$::nowhere::y\\\\".toList "\\$".toList
        (.unresolvedClass "::nowhere" "::nowhere::y") ∧
      (sample.interpolate h "\\$$::nowhere::y\\\\" .unknown).outcome =
        .error (.unresolvedClass "::nowhere" "::nowhere::y") := by
  have hname : IsName "::nowhere::y".toList :=
    ⟨["nowhere".toList, "y".toList], by decide, by decide, Or.inr rfl⟩
  have hpieces : pieces "\\$$::nowhere::y\\\\".toList =
      [.escape '$'] ++ .reference "::nowhere::y".toList false :: [.escape '\\'] := by
    have hdollar : Cut "\\$$::nowhere::y\\\\".toList (.escape '$') "$::nowhere::y\\\\".toList :=
      .escape rfl
    have hreference : Cut "$::nowhere::y\\\\".toList (.reference "::nowhere::y".toList false)
        "\\\\".toList := .bare hname rfl
    have hpair : Cut "\\\\".toList (.escape '\\') [] := .escape rfl
    rw [hdollar.pieces_eq, hreference.pieces_eq, hpair.pieces_eq, pieces_nil]
    rfl
  obtain ⟨h, hh, hlook⟩ : ∃ h, sample.handle? top = some h ∧
      sample.lookupString h "::nowhere::y" = .error (.unresolvedClass "::nowhere" "::nowhere::y") :=
    ⟨_, rfl, rfl⟩
  have hfail : FailsAt (sample.lookupString h) "\\$$::nowhere::y\\\\".toList "\\$".toList
      (.unresolvedClass "::nowhere" "::nowhere::y") :=
    failsAt_iff.2 ⟨_, _, _, hpieces, rfl, Piece.failure?_eq_some_iff.2 ⟨_, _, rfl, hlook⟩,
      by simp [Piece.failure?]⟩
  have heven := (outcome_interpolate_of_endRun sample h "\\$$::nowhere::y\\\\" .unknown).2
  exact ⟨h, hh, by decide, hfail, ((heven (by decide)).2 _).2 ⟨_, hfail⟩⟩

end Catalog

end ScopeTree
