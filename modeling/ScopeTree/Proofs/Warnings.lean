import ScopeTree.Interpolation.Delivery
import ScopeTree.Proofs.Failures

/-!
# What interpolation warns about

The warnings about a string can be read off its runs of backslashes: each odd run warns of the
character behind it, unless that has a meaning there, and nothing else warns.  A string that is
read to its end warns of all of them; one that fails for a reference warns of those before it.

    strays [] text, the characters behind such runs in order     (interpolate_warns_of_strays)

The sink has no say in it: it gets the same warnings in the same order whatever it does with
them, and the outcome is the same.
-/

namespace ScopeTree.Catalog

open Interpolation

/-- A warning names the character that it is about, and says where the string is, if that is
known. -/
theorem unknownEscapeWarning_eq (ch : Char) (location : SourceLocation) :
    unknownEscapeWarning ch location =
      { code := .unknownEscape
        severity := .warning
        message := "unrecognised escape sequence `" ++ String.ofList ['\\', ch] ++ "`"
        location := if location = .unknown then none else some location
        notes := ["the sequence is kept as written"] } := by
  have hlocation : ∀ d : Diagnostic, d.withLocation location =
      { d with location := if location = .unknown then none else some location } := by
    intro d
    simp only [Diagnostic.withLocation, SourceLocation.isUnknown_iff]
  simp only [unknownEscapeWarning, hlocation]
  rfl

/-! ## Top theorem -/

/-- Interpolation hands to any sink its warnings in order, and no sink changes the outcome.  When
the string succeeds or fails with a parse error there is one warning for each odd run of backslashes
in front of a character without a meaning; when it fails with another error, that is the error of
the first reference that cannot be looked up, and there is one for each such run before it.  A
warning names the character, and the location if that is known. -/
theorem interpolate_warns_of_strays {σ : Type} (emit : σ → Diagnostic → σ) (sink : σ)
    (c : Catalog) (h : Handle) (text : String) (location : SourceLocation) :
    evaluateInto emit sink (c.lookupString h) text location =
      ((c.interpolate h text location).warnings.foldl emit sink,
        (c.interpolate h text location).outcome) ∧
    (((∃ out, (c.interpolate h text location).outcome = .ok out) ∨
        ∃ t l, (c.interpolate h text location).outcome = .error (.stringParse t l)) →
      (c.interpolate h text location).warnings = warningsAbout location (strays [] text.toList)) ∧
    (∀ e, (c.interpolate h text location).outcome = .error e → (∀ t l, e ≠ .stringParse t l) →
      ∃ before, FailsAt (c.lookupString h) text.toList before e ∧
        (c.interpolate h text location).warnings = warningsAbout location (strays [] before)) ∧
    ∀ cs, warningsAbout location cs = cs.map fun ch =>
      { code := .unknownEscape
        severity := .warning
        message := "unrecognised escape sequence `" ++ String.ofList ['\\', ch] ++ "`"
        location := if location = .unknown then none else some location
        notes := ["the sequence is kept as written"] } := by
  refine ⟨evaluateInto_eq emit sink _ text location, ?_⟩
  rw [← and_assoc]
  refine ⟨?_, fun cs => List.map_congr_left fun ch _ => unknownEscapeWarning_eq ch location⟩
  rcases exists_failsAt_or (c.lookupString h) text.toList with ⟨before, e, hfail⟩ | hnone
  · have heval : c.interpolate h text location =
        ⟨.error e, warningsAbout location (strays [] before)⟩ :=
      evaluate_of_failsAt _ location hfail
    rw [heval]
    constructor
    · rintro (⟨out, ⟨⟩⟩ | ⟨t, l, ⟨⟩⟩)
      exact absurd hfail (failsAt_not_stringParse c h text)
    · rintro e' ⟨⟩ -
      exact ⟨before, hfail, rfl⟩
  · obtain ⟨outcome, heval, heven, hodd⟩ := evaluate_of_no_failure _ location hnone
    have heval : c.interpolate h text location =
        ⟨outcome, warningsAbout location (strays [] text.toList)⟩ := heval
    rw [heval]
    refine ⟨fun _ => rfl, fun e he hparse => ?_⟩
    dsimp only at he
    subst he
    rcases Nat.mod_two_eq_zero_or_one (endRun text.toList) with h0 | h1
    · obtain ⟨s, ⟨⟩⟩ := heven h0
    · cases hodd h1
      exact absurd rfl (hparse _ _)

/-- The first and the third run of this string are odd and in front of no escape; a buffer gets
their two warnings. -/
theorem interpolate_warns_of_strays_buffer :
    ∃ h, sample.handle? top = some h ∧
      strays [] "\\q\\\\$x\\\\\\w\\\r\n".toList = ['q', 'w'] ∧
      (evaluateInto Sink.handOver (.buffer #[], []) (sample.lookupString h)
        "\\q\\\\$x\\\\\\w\\\r\n" ⟨none, some 4⟩).1.1.captured =
          warningsAbout ⟨none, some 4⟩ ['q', 'w'] := by
  have hpieces : pieces "\\q\\\\$x\\\\\\w\\\r\n".toList =
      [.unknownEscape 'q', .escape '\\', .reference ['x'] false, .escape '\\', .unknownEscape 'w',
        .joinedLines ['\r', '\n']] := by
    have hname : IsName ['x'] := ⟨[['x']], by decide, by decide, Or.inl rfl⟩
    have hq : Cut "\\q\\\\$x\\\\\\w\\\r\n".toList (.unknownEscape 'q')
        "\\\\$x\\\\\\w\\\r\n".toList := .unknownEscape rfl (by decide) (by decide)
    have hpair : Cut "\\\\$x\\\\\\w\\\r\n".toList (.escape '\\') "$x\\\\\\w\\\r\n".toList :=
      .escape rfl
    have hreference : Cut "$x\\\\\\w\\\r\n".toList (.reference ['x'] false)
        "\\\\\\w\\\r\n".toList := .bare hname rfl
    have hfront : Cut "\\\\\\w\\\r\n".toList (.escape '\\') "\\w\\\r\n".toList := .escape rfl
    have hw : Cut "\\w\\\r\n".toList (.unknownEscape 'w') "\\\r\n".toList :=
      .unknownEscape rfl (by decide) (by decide)
    have hjoined : Cut "\\\r\n".toList (.joinedLines ['\r', '\n']) [] := .joinedLines (Or.inr rfl)
    rw [hq.pieces_eq, hpair.pieces_eq, hreference.pieces_eq, hfront.pieces_eq, hw.pieces_eq,
      hjoined.pieces_eq, pieces_nil]
  obtain ⟨h, hh, out, hout⟩ : ∃ h, sample.handle? top = some h ∧
      ∃ out, (sample.interpolate h "\\q\\\\$x\\\\\\w\\\r\n" ⟨none, some 4⟩).outcome = .ok out := by
    refine ⟨_, rfl, "\\q\\$y\\\\w", ?_⟩
    show (evaluate _ _ _).outcome = _
    rw [evaluate, hpieces]
    rfl
  have hstrays : strays [] "\\q\\\\$x\\\\\\w\\\r\n".toList = ['q', 'w'] := by decide
  obtain ⟨hdeliver, hread, -⟩ := interpolate_warns_of_strays Sink.handOver (.buffer #[], [])
    sample h "\\q\\\\$x\\\\\\w\\\r\n" ⟨none, some 4⟩
  refine ⟨h, hh, hstrays, ?_⟩
  rw [hdeliver, hread (Or.inl ⟨out, hout⟩), Sink.foldl_handOver, hstrays,
    Sink.captured_emitAll_buffer]
  rfl

end ScopeTree.Catalog
