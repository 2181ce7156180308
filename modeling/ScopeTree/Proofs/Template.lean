import ScopeTree.Interpolation.Template
import ScopeTree.Proofs.Forest
import ScopeTree.Proofs.Name

/-!
# Templates are read back

A template is written down by escaping its literals and by putting braces around a name where
the text behind it would extend the name.  Interpolation reads the written form back as what
the template stands for: its literals and the texts of its variables, in order, as they are.

    interpolate (render parts) = (value look parts, no warnings)     (interpolate_render)

The texts of variables are never read again, and the first variable that cannot be looked up
is the error.
-/

namespace ScopeTree.Interpolation

open Text (isWordChar)

/-! ## Text in front -/

/-- An interpolation with text in front of what it gives. -/
def prepend (s : String) (a : Interpolation) : Interpolation :=
  ⟨a.outcome.map (s ++ ·), a.warnings⟩

@[simp] theorem prepend_empty (a : Interpolation) : prepend "" a = a := by
  obtain ⟨outcome, warnings⟩ := a
  cases outcome with
  | error e => rfl
  | ok s => simp only [prepend, Except.map, String.empty_append]

theorem prepend_prepend (s t : String) (a : Interpolation) :
    prepend s (prepend t a) = prepend (s ++ t) a := by
  obtain ⟨outcome, warnings⟩ := a
  cases outcome with
  | error e => rfl
  | ok u => simp only [prepend, Except.map, String.append_assoc]

theorem ok_andThen (s : String) (b : Unit → Interpolation) :
    (⟨.ok s, []⟩ : Interpolation).andThen b = prepend s (b ()) := by
  simp only [andThen, prepend, List.nil_append]

/-! ## Pieces at the front -/

theorem pieces_dollar (cs : List Char) :
    pieces ('$' :: cs) = (afterDollar cs).1 :: pieces (afterDollar cs).2 := by
  rw [pieces]
  rfl

theorem pieces_backslash (cs : List Char) :
    pieces ('\\' :: cs) = (afterBackslash cs).1 :: pieces (afterBackslash cs).2 := by
  rw [pieces]
  rfl

theorem pieces_plain {c : Char} (hc : isPlain c = true) (cs : List Char) :
    pieces (c :: cs) = .text (c :: cs.takeWhile isPlain) :: pieces (cs.dropWhile isPlain) := by
  have hne : c ≠ '$' ∧ c ≠ '\\' := by
    constructor <;> rintro rfl <;> exact absurd hc (by decide)
  rw [pieces, firstPiece, if_neg hne.1, if_neg hne.2]

theorem afterBackslash_of_not_plain {c : Char} (hc : isPlain c = false) (cs : List Char) :
    afterBackslash (c :: cs) = (.escape c, cs) := by
  have : c = '\\' ∨ c = '$' := by
    simpa [isPlain, Decidable.or_iff_not_imp_left] using hc
  rcases this with rfl | rfl <;> rfl

section

variable (look : String → Except ScopeError String) (whole : String) (location : SourceLocation)

theorem ofPieces_plain {c : Char} (hc : isPlain c = true) (cs : List Char) :
    ofPieces look whole location (pieces (c :: cs)) =
      prepend (String.ofList [c]) (ofPieces look whole location (pieces cs)) := by
  rw [pieces_plain hc, ofPieces, ofPiece, ok_andThen]
  cases cs with
  | nil => rfl
  | cons d ds =>
    cases hd : isPlain d with
    | true =>
      -- the run goes on, so the rest begins with a piece of it
      rw [pieces_plain hd, ofPieces, ofPiece, ok_andThen, prepend_prepend,
        List.takeWhile_cons_of_pos hd, List.dropWhile_cons_of_pos hd, ← String.ofList_append]
      rfl
    | false =>
      have hneg : ¬ isPlain d = true := by rw [hd]; exact Bool.false_ne_true
      rw [List.takeWhile_cons_of_neg hneg, List.dropWhile_cons_of_neg hneg]

/-- A backslash in front makes the other characters contribute themselves. -/
theorem ofPieces_escaped {c : Char} (hc : isPlain c = false) (cs : List Char) :
    ofPieces look whole location (pieces ('\\' :: c :: cs)) =
      prepend (String.ofList [c]) (ofPieces look whole location (pieces cs)) := by
  rw [pieces_backslash, afterBackslash_of_not_plain hc, ofPieces, ofPiece, ok_andThen,
    escaped?_of_not_plain hc]
  rfl

theorem ofPieces_literal (text rest : List Char) :
    ofPieces look whole location (pieces (text.flatMap escapeChar ++ rest)) =
      prepend (String.ofList text) (ofPieces look whole location (pieces rest)) := by
  induction text with
  | nil =>
    show _ = prepend "" _
    rw [prepend_empty]
    rfl
  | cons c cs ih =>
    have hsplit : String.ofList (c :: cs) = String.ofList [c] ++ String.ofList cs := by
      rw [← String.ofList_append]
      rfl
    rw [List.flatMap_cons, List.append_assoc, hsplit, ← prepend_prepend, ← ih]
    cases hc : isPlain c with
    | true =>
      rw [escapeChar, if_pos hc]
      exact ofPieces_plain look whole location hc _
    | false =>
      rw [escapeChar, hc, if_neg Bool.false_ne_true]
      exact ofPieces_escaped look whole location hc _

/-! ## References -/

theorem takeBraced?_of_isName {name : List Char} (hn : IsName name) (rest : List Char) :
    takeBraced? ('{' :: (name ++ '}' :: rest)) = some (name, rest) := by
  have hne : name ≠ [] := by
    obtain ⟨c, cs, rfl, -⟩ := hn.exists_cons
    exact List.cons_ne_nil c cs
  have htake : takeName (name ++ '}' :: rest) = (name, '}' :: rest) :=
    takeName_append_of_isName hn rfl
  simp only [takeBraced?, htake, if_neg hne]

theorem takeBraced?_name_append {name : List Char} (hn : IsName name) (rest : List Char) :
    takeBraced? (name ++ rest) = none := by
  obtain ⟨c, cs, rfl, hc⟩ := hn.exists_cons
  have hbrace : c ≠ '{' := by
    rcases hc with hc | rfl
    · rintro rfl
      exact absurd hc (by decide)
    · decide
  rw [List.cons_append, takeBraced?]
  rintro _ h
  exact hbrace (List.cons.inj h).1

theorem afterDollar_braced {name : List Char} (hn : IsName name) (rest : List Char) :
    afterDollar ('{' :: (name ++ '}' :: rest)) = (.reference name true, rest) := by
  unfold afterDollar
  rw [takeBraced?_of_isName hn]

theorem afterDollar_bare {name rest : List Char} (hn : IsName name)
    (hr : extendsName rest = false) : afterDollar (name ++ rest) = (.reference name false, rest) := by
  have hne : name ≠ [] := by
    obtain ⟨c, cs, rfl, -⟩ := hn.exists_cons
    exact List.cons_ne_nil c cs
  unfold afterDollar
  rw [takeBraced?_name_append hn, takeName_append_of_isName hn hr]
  exact if_neg hne

theorem exists_pieces_reference {name : List Char} (hn : IsName name) (bare : Bool)
    (parts : List Part) :
    ∃ braced, pieces (render (.reference name bare :: parts)) =
      .reference name braced :: pieces (render parts) := by
  rw [render]
  split
  · next hbare =>
    rw [Bool.and_eq_true, Bool.not_eq_true'] at hbare
    refine ⟨false, ?_⟩
    rw [List.cons_append, pieces_dollar, afterDollar_bare hn hbare.2]
  · refine ⟨true, ?_⟩
    rw [List.cons_append, List.cons_append, pieces_dollar, afterDollar_braced hn]

/-! ## Templates -/

def Named (parts : List Part) : Prop := ∀ name bare, .reference name bare ∈ parts → IsName name

/-- The pieces of a written template give what the template stands for. -/
theorem ofPieces_render {parts : List Part} (hp : Named parts) :
    ofPieces look whole location (pieces (render parts)) = ⟨value look parts, []⟩ := by
  induction parts with
  | nil => rw [render, pieces_nil]; rfl
  | cons part parts ih =>
    have ih := ih fun name bare hm => hp name bare (List.mem_cons_of_mem part hm)
    cases part with
    | literal text =>
      rw [render, ofPieces_literal, ih]
      rfl
    | reference name bare =>
      obtain ⟨braced, hpieces⟩ :=
        exists_pieces_reference (hp name bare List.mem_cons_self) bare parts
      rw [hpieces, ofPieces, ofPiece, value]
      cases look (String.ofList name) with
      | error e => rfl
      | ok s =>
        rw [ok_andThen, ih]
        rfl

end

/-- The first variable of a template that cannot be looked up fails with `e`. -/
def FirstFailure (look : String → Except ScopeError String) (parts : List Part)
    (e : ScopeError) : Prop :=
  ∃ before name bare after, parts = before ++ .reference name bare :: after ∧
    (∀ n b, .reference n b ∈ before → ∃ s, look (String.ofList n) = .ok s) ∧
    look (String.ofList name) = .error e

theorem firstFailure_cons {look : String → Except ScopeError String} {part : Part}
    {parts : List Part} {e : ScopeError} :
    FirstFailure look (part :: parts) e ↔
      (∃ name bare, part = .reference name bare ∧ look (String.ofList name) = .error e) ∨
        (∀ name bare, part = .reference name bare → ∃ s, look (String.ofList name) = .ok s) ∧
          FirstFailure look parts e := by
  constructor
  · rintro ⟨before, name, bare, after, heq, hok, hfail⟩
    cases before with
    | nil =>
      cases heq
      exact Or.inl ⟨name, bare, rfl, hfail⟩
    | cons p before =>
      cases heq
      refine Or.inr ⟨fun n b hp => hok n b (by rw [hp]; exact List.mem_cons_self), ?_⟩
      exact ⟨before, name, bare, after, rfl,
        fun n b hm => hok n b (List.mem_cons_of_mem _ hm), hfail⟩
  · rintro (⟨name, bare, rfl, hfail⟩ | ⟨hfirst, before, name, bare, after, rfl, hok, hfail⟩)
    · exact ⟨[], name, bare, parts, rfl, fun n b hm => absurd hm List.not_mem_nil, hfail⟩
    · refine ⟨part :: before, name, bare, after, rfl, fun n b hm => ?_, hfail⟩
      rcases List.mem_cons.1 hm with hp | hm
      · exact hfirst n b hp.symm
      · exact hok n b hm

theorem value_eq_error_iff {look : String → Except ScopeError String} {parts : List Part}
    {e : ScopeError} : value look parts = .error e ↔ FirstFailure look parts e := by
  induction parts with
  | nil =>
    constructor
    · intro h
      cases h
    · rintro ⟨before, name, bare, after, heq, -⟩
      cases before <;> cases heq
  | cons part parts ih =>
    rw [firstFailure_cons, ← ih, value.eq_def]
    cases part with
    | literal text =>
      dsimp only
      cases value look parts with
      | error e' => simp [Except.map]
      | ok s => simp [Except.map]
    | reference name bare =>
      dsimp only
      cases hl : look (String.ofList name) with
      | error e' => simp [hl]
      | ok s => cases value look parts <;> simp [Except.map, hl]

/-! ## Top theorem -/

/-- A written template is interpolated to what it stands for, without a warning: its literals
and the texts of its variables in order, or the error of the first variable that cannot be
looked up. -/
theorem interpolate_render (c : Catalog) (h : Handle) (location : SourceLocation)
    {parts : List Part} (hp : Named parts) :
    (Query.interpolate (String.ofList (render parts)) location).answer c h =
        ⟨value (c.lookupString h) parts, []⟩ ∧
      ∀ e, value (c.lookupString h) parts = .error e ↔
        FirstFailure (c.lookupString h) parts e := by
  refine ⟨?_, fun e => value_eq_error_iff⟩
  show evaluate (c.lookupString h) (String.ofList (render parts)) location = _
  rw [evaluate, String.toList_ofList, ofPieces_render _ _ _ hp]

/-- A template in which a bare `x` would run into the text behind it, and at whose end `::x`
is written bare. -/
def priceTag : List Part :=
  [.literal "$5\\".toList, .reference "x".toList true, .literal "::x ".toList,
    .reference "::x".toList true]

/-- The value `$y` of `x` in the top scope of the sample is put in as it is. -/
theorem interpolate_render_priceTag :
    Named priceTag ∧ ∃ h, Catalog.sample.handle? Catalog.top = some h ∧
      String.ofList (render priceTag) = "\\$5\\\\$\x7bx\x7d::x $::x" ∧
      (Query.interpolate (String.ofList (render priceTag)) .unknown).answer Catalog.sample h =
        ⟨.ok "$5\\$y::x $y", []⟩ := by
  have hp : Named priceTag := by
    intro name bare hm
    have hx : name = ['x'] ∧ bare = true ∨ name = [':', ':', 'x'] ∧ bare = true := by
      simpa [priceTag] using hm
    have hseg : ∀ s ∈ [['x']], IsSegment s := by
      intro s hs
      rw [List.mem_singleton.1 hs]
      refine ⟨List.cons_ne_nil _ _, fun c hc => ?_⟩
      rw [List.mem_singleton.1 hc]
      rfl
    refine ⟨[['x']], by decide, hseg, ?_⟩
    rcases hx with ⟨rfl, -⟩ | ⟨rfl, -⟩
    · exact Or.inl rfl
    · exact Or.inr rfl
  refine ⟨hp, _, rfl, by decide, ?_⟩
  exact (interpolate_render Catalog.sample _ .unknown hp).1.trans (by rfl)

end ScopeTree.Interpolation
