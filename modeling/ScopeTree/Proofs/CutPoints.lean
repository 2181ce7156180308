import ScopeTree.Proofs.Failures

/-!
# Where a string can be taken apart

Cutting looks ahead: for the end of a name, for the brace that closes it, for a line break behind
a backslash.  Between two texts a string can be taken apart all the same, if no backslash is left
over in the first and the second begins with nothing that is looked for.

    Cut a p rest → BeginsApart b → Cut (a ++ b) p (rest ++ b)    (Cut.append)
    pieces (a ++ b) give what pieces a give, then what pieces b give
                                                                 (ofPieces_append)

Only a run of text goes on from the first into the second, and in it every character counts for
itself.
-/

namespace ScopeTree

open Interpolation

/-- The error with another string; only a parse error carries one. -/
def ScopeError.carrying (whole : String) : ScopeError → ScopeError
  | stringParse _ location => stringParse whole location
  | e => e

theorem ScopeError.OfLookup.carrying_eq {e : ScopeError} (he : e.OfLookup) (whole : String) :
    e.carrying whole = e := by
  cases e <;> first | rfl | cases he

namespace Interpolation

open Text (isWordChar separator)

/-- The text is empty or begins with nothing that can be a part of what stands before it: not with
a character of a name, a brace, or a line break. -/
def BeginsApart (b : List Char) : Prop :=
  ∀ c ∈ b.head?, isWordChar c = false ∧ c ∉ [':', '{', '}', '\n']

instance : (b : List Char) → Decidable (BeginsApart b)
  | [] => isTrue (by rintro c ⟨⟩)
  | c :: _ =>
    decidable_of_iff (isWordChar c = false ∧ c ∉ [':', '{', '}', '\n']) (by simp [BeginsApart])

section

variable {a b rest : List Char} {p : Piece}

/-! ## What cutting looks ahead for -/

theorem BeginsApart.head?_ne (hb : BeginsApart b) {c : Char} (hc : c ∈ [':', '{', '}', '\n']) :
    b.head? ≠ some c := fun h => (hb c h).2 hc

theorem BeginsApart.takeWhile_append (hb : BeginsApart b) {cs : List Char}
    (h : cs.takeWhile isWordChar = []) : (cs ++ b).takeWhile isWordChar = [] := by
  cases cs with
  | nil =>
    cases b with
    | nil => rfl
    | cons c b =>
      have hc : isWordChar c = false := (hb c rfl).1
      exact List.takeWhile_cons_of_neg (Bool.eq_false_iff.1 hc)
  | cons c cs =>
    rw [List.takeWhile_cons] at h
    split at h
    · cases h
    · next hc => exact List.takeWhile_cons_of_neg hc

theorem BeginsApart.extendsName_append (hb : BeginsApart b) (h : extendsName rest = false) :
    extendsName (rest ++ b) = false := by
  refine not_extendsName (hb.takeWhile_append (takeWhile_of_not_extendsName h)) fun after he => ?_
  rcases List.append_eq_append_iff.1 he with ⟨front, hsep, hback⟩ | ⟨front, hrest, hafter⟩
  · -- the second text would begin inside the separator, unless it is all behind it
    cases front with
    | nil =>
      rw [List.nil_append] at hback
      have hnil : ([] ++ b).takeWhile isWordChar = [] := hb.takeWhile_append rfl
      rwa [List.nil_append, hback] at hnil
    | cons c front =>
      have hc : c ∈ separator := by rw [hsep]; simp
      have hcolon : c = ':' := by simpa [separator] using hc
      exact absurd (by rw [hback, hcolon]; rfl) (hb.head?_ne (by decide))
  · rw [hrest] at h
    rw [hafter]
    exact hb.takeWhile_append (takeWhile_of_not_extendsName_separator h)

theorem BeginsApart.braced_of_append (hb : BeginsApart b) {name tail : List Char}
    (hn : IsName name) (h : rest ++ b = '{' :: (name ++ '}' :: tail)) :
    ∃ tail', rest = '{' :: (name ++ '}' :: tail') := by
  cases rest with
  | nil => exact absurd (congrArg List.head? h) (hb.head?_ne (by decide))
  | cons c rest =>
    obtain ⟨rfl, hsplit⟩ := List.cons.inj h
    rcases List.append_eq_append_iff.1 hsplit with ⟨front, hname, hback⟩ | ⟨front, hrest, hback⟩
    · -- the second text would begin inside the name, or at the brace
      cases front with
      | nil => exact absurd (congrArg List.head? hback) (hb.head?_ne (by decide))
      | cons d front =>
        have hd : d ∈ name := by rw [hname]; simp
        have hapart := hb d (by rw [hback]; rfl)
        exact absurd hd (hn.not_mem hapart.1 (by rintro rfl; exact hapart.2 (by decide)))
    · cases front with
      | nil => exact absurd (congrArg List.head? hback.symm) (hb.head?_ne (by decide))
      | cons d front =>
        obtain ⟨rfl, -⟩ := List.cons.inj hback
        exact ⟨front, by rw [hrest]⟩

/-- A piece that is no run of text is cut off as before when a text follows that begins apart. -/
theorem Cut.append (h : Cut a p rest) (hb : BeginsApart b) (htext : ∀ run, p ≠ .text run)
    (hp : p ≠ .trailingBackslash) : Cut (a ++ b) p (rest ++ b) := by
  cases h with
  | text => exact absurd rfl (htext _)
  | @braced name rest hn =>
    have hcut : Cut ('$' :: '{' :: (name ++ '}' :: (rest ++ b))) (.reference name true)
        (rest ++ b) := .braced hn
    simpa using hcut
  | @bare name rest hn hrest =>
    have hcut := Cut.bare hn (hb.extendsName_append hrest)
    simpa using hcut
  | dollar hbare hbraced =>
    refine .dollar (hb.extendsName_append hbare) fun name tail hn he => ?_
    obtain ⟨tail', hrest⟩ := hb.braced_of_append hn he
    exact hbraced name tail' hn hrest
  | escape hc => exact .escape hc
  | @unknownEscape c rest hc hfeed hreturn =>
    refine .unknownEscape hc hfeed fun ⟨hcr, hhead⟩ => ?_
    cases rest with
    | nil => exact hb.head?_ne (by decide) hhead
    | cons d rest => exact hreturn ⟨hcr, hhead⟩
  | @joinedLines lineBreak rest hbreak =>
    have hcut : Cut ('\\' :: (lineBreak ++ (rest ++ b))) (.joinedLines lineBreak) (rest ++ b) :=
      .joinedLines hbreak
    simpa using hcut
  | trailing => exact absurd rfl hp
/-! ## Contributions -/

theorem andThen_assoc (x : Interpolation) (y z : Unit → Interpolation) :
    (x.andThen y).andThen z = x.andThen fun u => (y u).andThen z := by
  obtain ⟨outcome, warnings⟩ := x
  cases outcome with
  | error e => rfl
  | ok s =>
    simp only [andThen]
    obtain ⟨outcome', warnings'⟩ := y ()
    cases outcome' with
    | error e => rfl
    | ok t =>
      dsimp only [Except.map]
      cases (z ()).outcome <;> simp only [String.append_assoc, List.append_assoc]

variable (look : String → Except ScopeError String) (whole : String) (location : SourceLocation)

/-- A run of text contributes itself, wherever it ends. -/
theorem ofPieces_run {run : List Char} (hrun : ∀ c ∈ run, isPlain c = true) (cs : List Char) :
    ofPieces look whole location (pieces (run ++ cs)) =
      prepend (String.ofList run) (ofPieces look whole location (pieces cs)) := by
  induction run with
  | nil => exact (prepend_empty _).symm
  | cons c run ih =>
    rw [List.cons_append, ofPieces_plain look whole location (hrun c List.mem_cons_self),
      ih fun d hd => hrun d (List.mem_cons_of_mem c hd), prepend_prepend, ← String.ofList_append]
    rfl

/-- The first piece contributes the same when a text follows that begins apart. -/
theorem Cut.ofPieces_append (h : Cut a p rest) (hb : BeginsApart b) (hp : p ≠ .trailingBackslash) :
    ofPieces look whole location (pieces (a ++ b)) =
      (ofPiece look whole location p).andThen fun _ =>
        ofPieces look whole location (pieces (rest ++ b)) := by
  by_cases htext : ∃ run, p = .text run
  · obtain ⟨run, rfl⟩ := htext
    cases h with
    | text hne hrun =>
      rw [List.append_assoc, ofPieces_run look whole location hrun, ofPiece, ok_andThen]
  · have hcut : Cut (a ++ b) p (rest ++ b) := h.append hb (fun run he => htext ⟨run, he⟩) hp
    rw [hcut.pieces_eq, ofPieces]

theorem ofPieces_append (ha : endRun a % 2 = 0) (hb : BeginsApart b) :
    ofPieces look whole location (pieces (a ++ b)) =
      (ofPieces look whole location (pieces a)).andThen fun _ =>
        ofPieces look whole location (pieces b) := by
  induction a using cutInduction with
  | nil => rw [pieces_nil, ofPieces, ok_andThen, prepend_empty, List.nil_append]
  | @cut cs p rest h ih =>
    have hp : p ≠ .trailingBackslash := by
      rintro rfl
      cases h
      cases ha
    rw [h.ofPieces_append look whole location hb hp, ih ((h.even_endRun_iff hp).1 ha), h.pieces_eq,
      ofPieces, andThen_assoc]

/-! ## The text in a parse error -/

def carrying (whole : String) (x : Interpolation) : Interpolation :=
  ⟨x.outcome.mapError (ScopeError.carrying whole), x.warnings⟩

theorem carrying_andThen (x : Interpolation) (y : Unit → Interpolation) :
    (x.andThen y).carrying whole = (x.carrying whole).andThen fun u => (y u).carrying whole := by
  obtain ⟨outcome, warnings⟩ := x
  cases outcome with
  | error e => rfl
  | ok s =>
    rcases hy : y () with ⟨outcome', warnings'⟩
    cases outcome' <;> simp only [andThen, carrying, hy] <;> rfl

/-- The string is in a parse error and nowhere else, for no lookup gives one. -/
theorem carrying_ofPieces (hlook : ∀ name e, look name = .error e → e.OfLookup) (text : String)
    (ps : List Piece) :
    (ofPieces look text location ps).carrying whole = ofPieces look whole location ps := by
  induction ps with
  | nil => rfl
  | cons p ps ih =>
    have hpiece : (ofPiece look text location p).carrying whole =
        ofPiece look whole location p := by
      cases p with
      | reference name braced =>
        rw [carrying, ofPiece, ofPiece]
        cases he : look (String.ofList name) with
        | ok s => rfl
        | error e =>
          show (⟨.error (e.carrying whole), []⟩ : Interpolation) = ⟨.error e, []⟩
          rw [(hlook _ e he).carrying_eq whole]
      | _ => rfl
    rw [ofPieces, carrying_andThen, hpiece, ih, ofPieces]

/-- Without a backslash left over at the end, it is nowhere. -/
theorem ofPieces_eq_of_not_mem (text : String) {ps : List Piece}
    (hend : .trailingBackslash ∉ ps) :
    ofPieces look text location ps = ofPieces look whole location ps := by
  induction ps with
  | nil => rfl
  | cons p ps ih =>
    rw [List.mem_cons, not_or] at hend
    have hpiece : ofPiece look text location p = ofPiece look whole location p := by
      cases p with
      | trailingBackslash => exact absurd rfl hend.1
      | _ => rfl
    rw [ofPieces, ofPieces, hpiece, ih hend.2]

end

end Interpolation

namespace Catalog

/-! ## Top theorem -/

/-- Interpolating `a ++ b`, where `a` ends in no backslash that is left over and `b` begins apart,
is interpolating `a` and then `b`: the outputs and the warnings are joined; when `a` fails, `b`
plays no part; and when `a` succeeds and `b` fails, the whole fails like `b`, except that a parse
error carries the whole string. -/
theorem interpolate_append (c : Catalog) (h : Handle) {a b : String} (location : SourceLocation)
    (ha : endRun a.toList % 2 = 0) (hb : BeginsApart b.toList) :
    (∀ s t, (c.interpolate h a location).outcome = .ok s →
      (c.interpolate h b location).outcome = .ok t →
      c.interpolate h (a ++ b) location =
        ⟨.ok (s ++ t),
          (c.interpolate h a location).warnings ++ (c.interpolate h b location).warnings⟩) ∧
    (∀ e, (c.interpolate h a location).outcome = .error e →
      c.interpolate h (a ++ b) location = c.interpolate h a location) ∧
    ∀ s e, (c.interpolate h a location).outcome = .ok s →
      (c.interpolate h b location).outcome = .error e →
      c.interpolate h (a ++ b) location =
        ⟨.error (e.carrying (a ++ b)),
          (c.interpolate h a location).warnings ++ (c.interpolate h b location).warnings⟩ := by
  have hend : .trailingBackslash ∉ pieces a.toList := by
    rw [trailingBackslash_mem_pieces_iff]
    omega
  have hfirst : ofPieces (c.lookupString h) (a ++ b) location (pieces a.toList) =
      c.interpolate h a location := ofPieces_eq_of_not_mem _ a location (a ++ b) hend
  have hsecond : ofPieces (c.lookupString h) (a ++ b) location (pieces b.toList) =
      (c.interpolate h b location).carrying (a ++ b) :=
    (carrying_ofPieces _ (a ++ b) location (fun _ _ he => ofLookup_of_lookupString he) b _).symm
  have hwhole : c.interpolate h (a ++ b) location =
      (c.interpolate h a location).andThen fun _ =>
        (c.interpolate h b location).carrying (a ++ b) := by
    show ofPieces (c.lookupString h) (a ++ b) location (pieces (a ++ b).toList) = _
    rw [String.toList_append, ofPieces_append _ _ location ha hb, hfirst, hsecond]
  refine ⟨fun s t hs ht => ?_, fun e he => ?_, fun s e hs he => ?_⟩
  · rw [hwhole, andThen, hs, carrying, ht]
    rfl
  · rw [hwhole, andThen, he]
  · rw [hwhole, andThen, hs, carrying, he]
    rfl

/-- A dollar sign at the end of the first text stands for itself, alone and in front of the second;
the backslash at the end is reported with the whole string. -/
theorem interpolate_append_leftOver :
    ∃ h, sample.handle? top = some h ∧
      endRun "\\q$x$".toList % 2 = 0 ∧ BeginsApart "\\".toList ∧
      sample.interpolate h ("\\q$x$" ++ "\\") .unknown =
        ⟨.error (.stringParse "\\q$x$\\" .unknown), [unknownEscapeWarning 'q' .unknown]⟩ := by
  have hfirst : pieces "\\q$x$".toList = [.unknownEscape 'q', .reference ['x'] false, .dollar] := by
    have hname : IsName ['x'] := ⟨[['x']], by decide, by decide, Or.inl rfl⟩
    have hstray : Cut "\\q$x$".toList (.unknownEscape 'q') "$x$".toList :=
      .unknownEscape rfl (by decide) (by decide)
    have hreference : Cut "$x$".toList (.reference ['x'] false) "$".toList := .bare hname rfl
    have hdollar : Cut "$".toList .dollar [] := .dollar rfl (by simp)
    rw [hstray.pieces_eq, hreference.pieces_eq, hdollar.pieces_eq, pieces_nil]
  have hsecond : pieces "\\".toList = [.trailingBackslash] := Cut.trailing.pieces_eq.trans (by simp)
  obtain ⟨h, hh, ha, hb⟩ : ∃ h, sample.handle? top = some h ∧
      sample.interpolate h "\\q$x$" .unknown =
        ⟨.ok "\\q$y$", [unknownEscapeWarning 'q' .unknown]⟩ ∧
      sample.interpolate h "\\" .unknown = ⟨.error (.stringParse "\\" .unknown), []⟩ := by
    refine ⟨_, rfl, ?_, ?_⟩
    · show evaluate _ _ _ = _
      rw [evaluate, hfirst]
      rfl
    · show evaluate _ _ _ = _
      rw [evaluate, hsecond]
      rfl
  have hparity : endRun "\\q$x$".toList % 2 = 0 := by decide
  have hapart : BeginsApart "\\".toList := by decide
  obtain ⟨-, -, hfails⟩ := interpolate_append sample h .unknown hparity hapart
  refine ⟨h, hh, hparity, hapart, ?_⟩
  rw [hfails "\\q$y$" (.stringParse "\\" .unknown) (by rw [ha]) (by rw [hb]), ha, hb]
  rfl

end Catalog

end ScopeTree
