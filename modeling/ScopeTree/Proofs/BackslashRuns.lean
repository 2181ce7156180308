import ScopeTree.Proofs.Cutting

/-!
# Runs of backslashes

What a backslash does depends on the run in which it stands.  Two and two the backslashes of a run
stand for one each, and only one that is left over at its end means something to what follows.
Cutting never looks at a run as a whole, but every run begins where a piece begins, so the pieces
have each run in pairs.

    endRun (xs ++ ys) and endRun ys are both even, or both odd, when endRun xs is even
                                                                 (even_endRun_append_iff)
    .trailingBackslash ∈ pieces cs ↔ endRun cs % 2 = 1           (trailingBackslash_mem_pieces_iff)
    strays [] cs = (pieces cs).filterMap Piece.stray?            (strays_eq_filterMap_pieces)
-/

namespace ScopeTree.Interpolation

/-- The number of backslashes at the end of a text. -/
def endRun (cs : List Char) : Nat := (cs.reverse.takeWhile (· = '\\')).length

/-- The run of backslashes between `before` and `c` is odd, and the backslash left over gives `c`
no meaning: `c` is no backslash, no escape, and begins no line break. -/
def IsStray (before : List Char) (c : Char) (after : List Char) : Prop :=
  endRun before % 2 = 1 ∧ c ∉ ['\\', 'n', 't', 's', '$'] ∧ c ≠ '\n' ∧
    ¬ (c = '\r' ∧ after.head? = some '\n')

instance (before : List Char) (c : Char) (after : List Char) : Decidable (IsStray before c after) :=
  inferInstanceAs (Decidable (_ ∧ _ ∧ _ ∧ _))

/-- The characters of a text that a backslash gives no meaning, in order; `before` is what stands
before the text. -/
def strays (before : List Char) : List Char → List Char
  | [] => []
  | c :: after =>
    (if IsStray before c after then [c] else []) ++ strays (before ++ [c]) after

/-- The character that a piece leaves without meaning. -/
def Piece.stray? : Piece → Option Char
  | unknownEscape c => some c
  | _ => none

/-! ## The run at the end of a text -/

theorem endRun_concat_backslash (cs : List Char) : endRun (cs ++ ['\\']) = endRun cs + 1 := by
  simp [endRun]

theorem endRun_concat_of_ne (cs : List Char) {c : Char} (hc : c ≠ '\\') :
    endRun (cs ++ [c]) = 0 := by
  simp [endRun, hc]

/-- A run goes back into the text in front only where there is nothing else behind that. -/
theorem endRun_append (xs ys : List Char) :
    endRun (xs ++ ys) = if endRun ys = ys.length then ys.length + endRun xs else endRun ys := by
  unfold endRun
  rw [List.reverse_append, List.takeWhile_append, List.length_reverse]
  split
  · rw [List.length_append, List.length_reverse]
  · rfl

/-- A text in front that ends in pairs of backslashes, or in none, makes no difference. -/
theorem even_endRun_append_iff {xs : List Char} (hxs : endRun xs % 2 = 0) (ys : List Char) :
    endRun (xs ++ ys) % 2 = 0 ↔ endRun ys % 2 = 0 := by
  rw [endRun_append]
  split
  · next hall =>
    rw [hall]
    omega
  · rfl

theorem endRun_of_not_mem {cs : List Char} (hcs : '\\' ∉ cs) : endRun cs = 0 := by
  rcases List.eq_nil_or_concat cs with rfl | ⟨front, c, rfl⟩
  · rfl
  · rw [List.concat_eq_append] at hcs ⊢
    refine endRun_concat_of_ne front ?_
    rintro rfl
    exact hcs (by simp)

theorem escaped?_eq_none_iff {c : Char} :
    escaped? c = none ↔ c ∉ ['\\', 'n', 't', 's', '$'] := by
  unfold escaped?
  split <;> simp_all

theorem IsName.no_backslash {name : List Char} (hn : IsName name) : '\\' ∉ name :=
  hn.not_mem (by decide) (by decide)

namespace Cut

variable {cs rest : List Char} {p : Piece}

/-- A piece ends in pairs of backslashes, or in none, unless it is one that nothing follows. -/
theorem even_endRun_source (h : Cut cs p rest) (hp : p ≠ .trailingBackslash) :
    endRun p.source % 2 = 0 := by
  have hpair : ∀ c : Char, endRun ['\\', c] % 2 = 0 := by
    intro c
    by_cases hc : c = '\\'
    · rw [hc]
      rfl
    · have hzero : endRun ['\\', c] = 0 := endRun_concat_of_ne ['\\'] hc
      rw [hzero]
  cases h with
  | text hne hrun =>
    rw [Piece.source, endRun_of_not_mem fun hm => absurd (hrun _ hm) (by decide)]
  | braced hn =>
    rw [Piece.source, endRun_of_not_mem]
    simp [hn.no_backslash]
  | bare hn =>
    rw [Piece.source, endRun_of_not_mem]
    simp [hn.no_backslash]
  | dollar => rfl
  | escape => exact hpair _
  | unknownEscape => exact hpair _
  | joinedLines hbreak => rcases hbreak with rfl | rfl <;> rfl
  | trailing => exact absurd rfl hp

theorem even_endRun_iff (h : Cut cs p rest) (hp : p ≠ .trailingBackslash) :
    endRun cs % 2 = 0 ↔ endRun rest % 2 = 0 := by
  rw [← h.source_append]
  exact even_endRun_append_iff (h.even_endRun_source hp) rest

end Cut

/-- A backslash that nothing follows is left exactly at the end of an odd run. -/
theorem trailingBackslash_mem_pieces_iff (cs : List Char) :
    .trailingBackslash ∈ pieces cs ↔ endRun cs % 2 = 1 := by
  induction cs using cutInduction with
  | nil => simp [endRun]
  | @cut cs p rest h ih =>
    rw [h.pieces_eq, List.mem_cons, ih]
    by_cases hp : p = .trailingBackslash
    · cases h with
      | trailing => simp [endRun]
      | _ => cases hp
    · have := h.even_endRun_iff hp
      have hne : Piece.trailingBackslash ≠ p := Ne.symm hp
      simp only [hne, false_or]
      omega

/-! ## Characters without a meaning -/

theorem strays_cons_of_not {before after : List Char} {c : Char} (h : ¬ IsStray before c after) :
    strays before (c :: after) = strays (before ++ [c]) after := by
  rw [strays, if_neg h, List.nil_append]

theorem strays_cons_of {before after : List Char} {c : Char} (h : IsStray before c after) :
    strays before (c :: after) = c :: strays (before ++ [c]) after := by
  rw [strays, if_pos h, List.singleton_append]

/-- A backslash is never without a meaning itself: it makes the run longer. -/
theorem strays_backslash (before after : List Char) :
    strays before ('\\' :: after) = strays (before ++ ['\\']) after :=
  strays_cons_of_not fun h => h.2.1 List.mem_cons_self

/-- Without a backslash left over in front, and with none in it, a text has no such character. -/
theorem strays_of_not_mem {xs : List Char} (hxs : '\\' ∉ xs) {before : List Char}
    (hb : endRun before % 2 = 0) (ys : List Char) :
    strays before (xs ++ ys) = strays (before ++ xs) ys := by
  induction xs generalizing before with
  | nil => rw [List.nil_append, List.append_nil]
  | cons c xs ih =>
    rw [List.mem_cons, not_or] at hxs
    obtain ⟨hc, hxs⟩ := hxs
    have hzero : endRun (before ++ [c]) = 0 := endRun_concat_of_ne before (Ne.symm hc)
    rw [List.cons_append, strays_cons_of_not fun h => by have := h.1; omega,
      ih hxs (by rw [hzero]), List.append_assoc, List.singleton_append]

/-- A text is gone through part by part, if no line break is torn apart. -/
theorem strays_append (before xs : List Char) {ys : List Char} (hys : ys.head? ≠ some '\n') :
    strays before (xs ++ ys) = strays before xs ++ strays (before ++ xs) ys := by
  induction xs generalizing before with
  | nil => simp [strays]
  | cons c xs ih =>
    have hhead : (xs ++ ys).head? = some '\n' ↔ xs.head? = some '\n' := by
      cases xs with
      | nil => simpa using hys
      | cons d xs => rfl
    have hstray : IsStray before c (xs ++ ys) ↔ IsStray before c xs := by
      simp only [IsStray, hhead]
    rw [List.cons_append, strays, strays, ih]
    simp only [hstray, List.append_assoc, List.singleton_append]

/-- A piece that begins where no backslash is left over adds the character that it leaves without
meaning. -/
theorem Cut.strays_eq {cs rest : List Char} {p : Piece} (h : Cut cs p rest) {before : List Char}
    (hb : endRun before % 2 = 0) :
    strays before cs = p.stray?.toList ++ strays (before ++ p.source) rest := by
  -- the backslash that begins the piece is left over
  have hodd : endRun (before ++ ['\\']) % 2 = 1 := by
    rw [endRun_concat_backslash]
    omega
  rw [← h.source_append]
  cases h with
  | text hne hrun => exact strays_of_not_mem (fun hm => absurd (hrun _ hm) (by decide)) hb rest
  | braced hn => exact strays_of_not_mem (by simp [Piece.source, hn.no_backslash]) hb rest
  | bare hn => exact strays_of_not_mem (by simp [Piece.source, hn.no_backslash]) hb rest
  | dollar => exact strays_of_not_mem (by simp [Piece.source]) hb rest
  | @escape c resolved _ hc =>
    have hnot : ¬ IsStray (before ++ ['\\']) c rest := by
      intro hstray
      rw [escaped?_eq_none_iff.2 hstray.2.1] at hc
      cases hc
    show strays before ('\\' :: c :: rest) = strays (before ++ ['\\', c]) rest
    rw [strays_backslash, strays_cons_of_not hnot, List.append_assoc]
    rfl
  | @unknownEscape c _ hc hfeed hreturn =>
    have hstray : IsStray (before ++ ['\\']) c rest :=
      ⟨hodd, escaped?_eq_none_iff.1 hc, hfeed, hreturn⟩
    show strays before ('\\' :: c :: rest) = c :: strays (before ++ ['\\', c]) rest
    rw [strays_backslash, strays_cons_of hstray, List.append_assoc]
    rfl
  | joinedLines hbreak =>
    have hfeed : ∀ (front : List Char), ¬ IsStray front '\n' rest := fun _ h => h.2.2.1 rfl
    rcases hbreak with rfl | rfl
    · show strays before ('\\' :: '\n' :: rest) = strays (before ++ ['\\', '\n']) rest
      rw [strays_backslash, strays_cons_of_not (hfeed _), List.append_assoc]
      rfl
    · have hreturn : ¬ IsStray (before ++ ['\\']) '\r' ('\n' :: rest) := fun h =>
        h.2.2.2 ⟨rfl, rfl⟩
      show strays before ('\\' :: '\r' :: '\n' :: rest) =
        strays (before ++ ['\\', '\r', '\n']) rest
      rw [strays_backslash, strays_cons_of_not hreturn, strays_cons_of_not (hfeed _),
        List.append_assoc, List.append_assoc]
      rfl
  | trailing => exact strays_backslash before []

/-- The characters without a meaning are those of the pieces, whatever stands before the text, if
no backslash of that is left over. -/
theorem strays_eq_filterMap_pieces {before : List Char} (hb : endRun before % 2 = 0)
    (cs : List Char) : strays before cs = (pieces cs).filterMap Piece.stray? := by
  induction cs using cutInduction generalizing before with
  | nil => rw [strays, pieces_nil, List.filterMap_nil]
  | @cut cs p rest h ih =>
    rw [h.strays_eq hb, h.pieces_eq, List.filterMap_cons]
    by_cases hp : p = .trailingBackslash
    · cases h with
      | trailing => simp [Piece.stray?, strays]
      | _ => cases hp
    · rw [ih ((even_endRun_append_iff hb p.source).2 (h.even_endRun_source hp))]
      cases p.stray? <;> rfl

end ScopeTree.Interpolation
