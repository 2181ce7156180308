import ScopeTree.Proofs.BackslashRuns

/-!
# Where a text refers to variables

A reference begins at a dollar sign that no backslash is left over for, if a name follows it.
This can be seen of a place in the text alone, without cutting what stands before it, and it is
what cutting finds: such a dollar sign is never inside a piece.

    RefersAt text before name ↔ a piece of the text is that reference, and what is cut off before
                                it is `before`                   (refersAt_iff)
    FailsAt look text before e ↔ it is the first one that cannot be looked up
                                                                 (failsAt_iff)
-/

namespace ScopeTree.Interpolation

/-- Behind `before` the text has a dollar sign that no backslash is left over for, and behind that
`name`, in braces or bare; a bare name goes up to where nothing extends it. -/
def RefersAt (text before name : List Char) : Prop :=
  endRun before % 2 = 0 ∧ IsName name ∧ ∃ rest,
    text = before ++ '$' :: '{' :: (name ++ '}' :: rest) ∨
      text = before ++ '$' :: (name ++ rest) ∧ extendsName rest = false

/-- The first reference of the text to a variable that cannot be looked up stands behind `before`,
and `e` is the error of that variable. -/
def FailsAt (look : String → Except ScopeError String) (text before : List Char)
    (e : ScopeError) : Prop :=
  (∃ name, RefersAt text before name ∧ look (String.ofList name) = .error e) ∧
    ∀ earlier name, RefersAt text earlier name → earlier.length < before.length →
      ∃ s, look (String.ofList name) = .ok s

def Piece.failure? (look : String → Except ScopeError String) : Piece → Option ScopeError
  | reference name _ =>
    match look (String.ofList name) with
    | .ok _ => none
    | .error e => some e
  | _ => none

/-! ## Places between pieces -/

theorem exists_cut_of_pieces_eq_cons {cs : List Char} {p : Piece} {ps : List Piece}
    (h : pieces cs = p :: ps) : ∃ rest, Cut cs p rest ∧ pieces rest = ps := by
  cases cs with
  | nil => simp at h
  | cons c cs =>
    have hcut := cut_firstPiece c cs
    rw [hcut.pieces_eq] at h
    obtain ⟨rfl, rfl⟩ := List.cons.inj h
    exact ⟨_, hcut, rfl⟩

/-- Between two pieces the text is cut in two, and no backslash is left over in front. -/
theorem exists_tail_of_pieces_eq_append {text : List Char} {ps : List Piece} {q : Piece}
    {qs : List Piece} (h : pieces text = ps ++ q :: qs) :
    ∃ tail, text = ps.flatMap Piece.source ++ tail ∧ pieces tail = q :: qs ∧
      endRun (ps.flatMap Piece.source) % 2 = 0 := by
  induction ps generalizing text with
  | nil => exact ⟨text, rfl, h, rfl⟩
  | cons p ps ih =>
    obtain ⟨rest, hcut, hrest⟩ := exists_cut_of_pieces_eq_cons h
    obtain ⟨tail, htext, htail, heven⟩ := ih hrest
    have hp : p ≠ .trailingBackslash := by
      rintro rfl
      cases hcut
      simp at hrest
    refine ⟨tail, ?_, htail, ?_⟩
    · rw [← hcut.source_append, htext, List.flatMap_cons, List.append_assoc]
    · rw [List.flatMap_cons]
      exact (even_endRun_append_iff (hcut.even_endRun_source hp) _).2 heven

theorem eq_nil_of_pieces_eq_append_trailing {text : List Char} {ps qs : List Piece}
    (h : pieces text = ps ++ .trailingBackslash :: qs) : qs = [] := by
  obtain ⟨tail, -, htail, -⟩ := exists_tail_of_pieces_eq_append h
  obtain ⟨rest, hcut, hrest⟩ := exists_cut_of_pieces_eq_cons htail
  cases hcut
  rw [← hrest, pieces_nil]

theorem trailingBackslash_not_mem_of_pieces_eq_append {text : List Char} {ps : List Piece}
    {q : Piece} {qs : List Piece} (h : pieces text = ps ++ q :: qs) :
    .trailingBackslash ∉ ps := by
  intro hmem
  obtain ⟨front, back, rfl⟩ := List.append_of_mem hmem
  rw [List.append_assoc, List.cons_append] at h
  have := eq_nil_of_pieces_eq_append_trailing h
  simp at this

/-- A dollar sign that no backslash is left over for begins a piece. -/
theorem exists_pieces_of_dollar {text before tail : List Char}
    (htext : text = before ++ '$' :: tail) (hb : endRun before % 2 = 0) :
    ∃ ps, ps.flatMap Piece.source = before ∧ pieces text = ps ++ pieces ('$' :: tail) := by
  induction text using cutInduction generalizing before with
  | nil => simp at htext
  | @cut cs p rest h ih =>
    have hsplit := h.source_append.trans htext
    rcases List.append_eq_append_iff.1 hsplit with ⟨front, hbefore, hrest⟩ | ⟨back, hsource, hback⟩
    · -- the dollar sign is behind the first piece
      have hp : p ≠ .trailingBackslash := by
        rintro rfl
        cases h
        simp at hrest
      rw [hbefore] at hb
      obtain ⟨ps, hps, hpieces⟩ :=
        ih hrest ((even_endRun_append_iff (h.even_endRun_source hp) front).1 hb)
      refine ⟨p :: ps, ?_, ?_⟩
      · rw [List.flatMap_cons, hps, hbefore]
      · rw [h.pieces_eq, hpieces, List.cons_append]
    · cases back with
      | nil =>
        -- it is the first character behind the first piece
        refine ⟨[p], ?_, ?_⟩
        · rw [List.flatMap_singleton, hsource, List.append_nil]
        · rw [h.pieces_eq, hback]
          rfl
      | cons c back =>
        -- it is in the first piece, so it begins that
        obtain ⟨rfl, -⟩ := List.cons.inj hback
        rcases h.dollar_inside hsource with rfl | rfl
        · exact ⟨[], rfl, by rw [htext]; rfl⟩
        · cases hb

/-! ## References are pieces -/

theorem refersAt_iff_cut {text before name : List Char} :
    RefersAt text before name ↔ endRun before % 2 = 0 ∧
      ∃ tail braced rest, text = before ++ tail ∧ Cut tail (.reference name braced) rest := by
  constructor
  · rintro ⟨hb, hn, rest, rfl | ⟨rfl, hrest⟩⟩
    · exact ⟨hb, _, true, rest, rfl, .braced hn⟩
    · exact ⟨hb, _, false, rest, rfl, .bare hn hrest⟩
  · rintro ⟨hb, tail, braced, rest, rfl, hcut⟩
    cases hcut with
    | braced hn => exact ⟨hb, hn, rest, Or.inl rfl⟩
    | bare hn hrest => exact ⟨hb, hn, rest, Or.inr ⟨rfl, hrest⟩⟩

theorem refersAt_iff {text before name : List Char} :
    RefersAt text before name ↔ ∃ ps braced qs,
      pieces text = ps ++ .reference name braced :: qs ∧ ps.flatMap Piece.source = before := by
  rw [refersAt_iff_cut]
  constructor
  · rintro ⟨hb, tail, braced, rest, htext, hcut⟩
    obtain ⟨after, htail⟩ : ∃ after, tail = '$' :: after := by cases hcut <;> exact ⟨_, rfl⟩
    subst htail
    obtain ⟨ps, hps, hpieces⟩ := exists_pieces_of_dollar htext hb
    exact ⟨ps, braced, pieces rest, by rw [hpieces, hcut.pieces_eq], hps⟩
  · rintro ⟨ps, braced, qs, hpieces, rfl⟩
    obtain ⟨tail, htext, htail, hb⟩ := exists_tail_of_pieces_eq_append hpieces
    obtain ⟨rest, hcut, -⟩ := exists_cut_of_pieces_eq_cons htail
    exact ⟨hb, tail, braced, rest, htext, hcut⟩

theorem Piece.failure?_eq_some_iff {look : String → Except ScopeError String} {p : Piece}
    {e : ScopeError} : p.failure? look = some e ↔
      ∃ name braced, p = .reference name braced ∧ look (String.ofList name) = .error e := by
  cases p with
  | reference name braced => cases hl : look (String.ofList name) <;> simp [failure?, hl]
  | _ => simp [failure?]

theorem Piece.failure?_reference_eq_none_iff {look : String → Except ScopeError String}
    {name : List Char} {braced : Bool} : (reference name braced).failure? look = none ↔
      ∃ s, look (String.ofList name) = .ok s := by
  cases hl : look (String.ofList name) <;> simp [failure?, hl]

theorem failsAt_iff {look : String → Except ScopeError String} {text before : List Char}
    {e : ScopeError} : FailsAt look text before e ↔ ∃ ps p qs, pieces text = ps ++ p :: qs ∧
      ps.flatMap Piece.source = before ∧ p.failure? look = some e ∧
      ∀ q ∈ ps, q.failure? look = none := by
  constructor
  · rintro ⟨⟨name, hrefers, hfail⟩, hearlier⟩
    obtain ⟨ps, braced, qs, hpieces, rfl⟩ := refersAt_iff.1 hrefers
    refine ⟨ps, _, qs, hpieces, rfl, Piece.failure?_eq_some_iff.2 ⟨name, braced, rfl, hfail⟩, ?_⟩
    -- a piece in front that fails is a reference that stands earlier in the text
    intro q hq
    rw [Option.eq_none_iff_forall_ne_some]
    intro e' he'
    obtain ⟨name', braced', rfl, hfail'⟩ := Piece.failure?_eq_some_iff.1 he'
    obtain ⟨front, back, rfl⟩ := List.append_of_mem hq
    rw [List.append_assoc, List.cons_append] at hpieces
    have hpos : 0 < (Piece.reference name' braced').source.length := by
      cases braced' <;> simp [Piece.source]
    have hlt : (front.flatMap Piece.source).length <
        ((front ++ .reference name' braced' :: back).flatMap Piece.source).length := by
      simp only [List.flatMap_append, List.flatMap_cons, List.length_append]
      omega
    obtain ⟨s, hs⟩ := hearlier _ name' (refersAt_iff.2 ⟨front, braced', _, hpieces, rfl⟩) hlt
    rw [hfail'] at hs
    cases hs
  · rintro ⟨ps, p, qs, hpieces, rfl, hfail, hps⟩
    obtain ⟨name, braced, rfl, hlook⟩ := Piece.failure?_eq_some_iff.1 hfail
    refine ⟨⟨name, refersAt_iff.2 ⟨ps, braced, qs, hpieces, rfl⟩, hlook⟩, ?_⟩
    intro earlier name' hrefers hlt
    obtain ⟨ps', braced', qs', hpieces', rfl⟩ := refersAt_iff.1 hrefers
    rw [hpieces] at hpieces'
    rcases List.append_eq_append_iff.1 hpieces' with ⟨more, rfl, -⟩ | ⟨more, rfl, hmore⟩
    · rw [List.flatMap_append, List.length_append] at hlt
      omega
    · cases more with
      | nil => simp at hlt
      | cons q more =>
        obtain ⟨rfl, -⟩ := List.cons.inj hmore
        have hq := hps _ (List.mem_append_right ps' List.mem_cons_self)
        exact Piece.failure?_reference_eq_none_iff.1 hq

theorem exists_failsAt_or (look : String → Except ScopeError String) (text : List Char) :
    (∃ before e, FailsAt look text before e) ∨
      ∀ before name, RefersAt text before name → ∃ s, look (String.ofList name) = .ok s := by
  cases hfirst : (pieces text).findSome? (Piece.failure? look) with
  | some e =>
    obtain ⟨ps, p, qs, hpieces, hp, hps⟩ := List.findSome?_eq_some_iff.1 hfirst
    exact Or.inl ⟨_, e, failsAt_iff.2 ⟨ps, p, qs, hpieces, rfl, hp, hps⟩⟩
  | none =>
    refine Or.inr fun before name hrefers => ?_
    obtain ⟨ps, braced, qs, hpieces, -⟩ := refersAt_iff.1 hrefers
    have hnone := List.findSome?_eq_none_iff.1 hfirst (.reference name braced)
      (by rw [hpieces]; simp)
    exact Piece.failure?_reference_eq_none_iff.1 hnone

/-! ## Characters without a meaning before a reference -/

/-- Those before a reference are those of the pieces before it. -/
theorem strays_flatMap_source {text : List Char} {ps qs : List Piece} {name : List Char}
    {braced : Bool} (h : pieces text = ps ++ .reference name braced :: qs) :
    strays [] (ps.flatMap Piece.source) = ps.filterMap Piece.stray? := by
  obtain ⟨tail, htext, htail, hb⟩ := exists_tail_of_pieces_eq_append h
  obtain ⟨rest, hcut, -⟩ := exists_cut_of_pieces_eq_cons htail
  have hhead : tail.head? ≠ some '\n' := by cases hcut <;> simp
  have hempty : endRun [] % 2 = 0 := rfl
  have hall := strays_eq_filterMap_pieces hempty text
  rw [h, htext, strays_append [] _ hhead, List.nil_append, strays_eq_filterMap_pieces hb, htail,
    List.filterMap_append] at hall
  exact List.append_cancel_right hall

end ScopeTree.Interpolation
