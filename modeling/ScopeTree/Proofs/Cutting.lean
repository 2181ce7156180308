import ScopeTree.Proofs.Template

/-!
# The rules of cutting

How a text is cut, said by what stands in front of it: each rule names a beginning, the piece it
is and what is left.  The rules need no order, for no text has a beginning of two of them, and
every text but the empty one has a beginning of one.

    Cut (c :: cs) (firstPiece c cs).1 (firstPiece c cs).2        (cut_firstPiece)
    Cut cs p rest → pieces cs = p :: pieces rest                 (Cut.pieces_eq)

A dollar sign inside a piece is one that a backslash escapes, so references are found in the
middle of no piece.
-/

namespace ScopeTree.Interpolation

open Text (isWordChar)

/-- The text `cs` begins with the piece `p`, and `rest` is left. -/
inductive Cut : List Char → Piece → List Char → Prop
  /-- Plain characters, as far as they go. -/
  | text {run rest : List Char} (hne : run ≠ []) (hrun : ∀ c ∈ run, isPlain c = true)
      (hrest : ∀ c ∈ rest.head?, isPlain c = false) : Cut (run ++ rest) (.text run) rest
  /-- A name in braces. -/
  | braced {name rest : List Char} (hn : IsName name) :
      Cut ('$' :: '{' :: (name ++ '}' :: rest)) (.reference name true) rest
  /-- A name up to where nothing extends it. -/
  | bare {name rest : List Char} (hn : IsName name) (hrest : extendsName rest = false) :
      Cut ('$' :: (name ++ rest)) (.reference name false) rest
  /-- No name follows, neither in braces nor bare. -/
  | dollar {rest : List Char} (hbare : extendsName rest = false)
      (hbraced : ∀ name tail, IsName name → rest ≠ '{' :: (name ++ '}' :: tail)) :
      Cut ('$' :: rest) .dollar rest
  | escape {c resolved : Char} {rest : List Char} (hc : escaped? c = some resolved) :
      Cut ('\\' :: c :: rest) (.escape c) rest
  /-- The character has no meaning and begins no line break. -/
  | unknownEscape {c : Char} {rest : List Char} (hc : escaped? c = none) (hfeed : c ≠ '\n')
      (hreturn : ¬ (c = '\r' ∧ rest.head? = some '\n')) :
      Cut ('\\' :: c :: rest) (.unknownEscape c) rest
  | joinedLines {lineBreak rest : List Char}
      (hbreak : lineBreak = ['\n'] ∨ lineBreak = ['\r', '\n']) :
      Cut ('\\' :: (lineBreak ++ rest)) (.joinedLines lineBreak) rest
  | trailing : Cut ['\\'] .trailingBackslash []

/-! ## Every text is cut by a rule -/

theorem isName_of_takeBraced? {cs name rest : List Char} (h : takeBraced? cs = some (name, rest)) :
    IsName name := by
  unfold takeBraced? at h
  split at h
  · next inner =>
    split at h
    · next name' rest' he =>
      split at h
      · cases h
      · next hne =>
        cases h
        have hname : (takeName inner).1 = name := by rw [he]
        rw [← hname] at hne ⊢
        exact isName_takeName hne
    · cases h
  · cases h

theorem cut_afterDollar (cs : List Char) :
    Cut ('$' :: cs) (afterDollar cs).1 (afterDollar cs).2 := by
  unfold afterDollar
  split
  · next name rest h =>
    rw [← source_takeBraced? h]
    exact .braced (isName_of_takeBraced? h)
  · next hnone =>
    have hcs := takeName_append cs
    have hrest := extendsName_takeName cs
    split
    · next hempty =>
      rw [hempty, List.nil_append] at hcs
      rw [hcs] at hrest
      refine .dollar hrest fun name tail hn he => ?_
      rw [he, takeBraced?_of_isName hn] at hnone
      cases hnone
    · next hne =>
      have hcut := Cut.bare (isName_takeName hne) hrest
      rwa [hcs] at hcut

theorem cut_afterBackslash (cs : List Char) :
    Cut ('\\' :: cs) (afterBackslash cs).1 (afterBackslash cs).2 := by
  unfold afterBackslash
  split
  · exact .trailing
  · exact .joinedLines (Or.inl rfl)
  · exact .joinedLines (Or.inr rfl)
  · next c rest hfeed hreturn =>
    split
    · next hc => exact .escape hc
    · next hc =>
      refine .unknownEscape hc hfeed ?_
      rintro ⟨rfl, hhead⟩
      obtain ⟨tail, rfl⟩ := List.head?_eq_some_iff.1 hhead
      exact hreturn tail rfl rfl

theorem cut_firstPiece (c : Char) (cs : List Char) :
    Cut (c :: cs) (firstPiece c cs).1 (firstPiece c cs).2 := by
  unfold firstPiece
  split
  · next hc => rw [hc]; exact cut_afterDollar cs
  · next hdollar =>
    split
    · next hc => rw [hc]; exact cut_afterBackslash cs
    · next hbackslash =>
      have hplain : isPlain c = true := by simp [isPlain, hdollar, hbackslash]
      have hcut : Cut ((c :: cs.takeWhile isPlain) ++ cs.dropWhile isPlain)
          (.text (c :: cs.takeWhile isPlain)) (cs.dropWhile isPlain) := by
        refine .text (List.cons_ne_nil _ _) (fun d hd => ?_) (fun d hd => ?_)
        · rcases List.mem_cons.1 hd with rfl | hd
          · exact hplain
          · exact List.all_eq_true.1 List.all_takeWhile d hd
        · have hnot := List.head?_dropWhile_not isPlain cs
          rw [hd] at hnot
          exact hnot
      rwa [List.cons_append, List.takeWhile_append_dropWhile] at hcut

/-- What holds of the empty text, and of a text when it holds of what the first cut leaves, holds
of every text. -/
@[elab_as_elim]
theorem cutInduction {motive : List Char → Prop} (nil : motive [])
    (cut : ∀ {cs p rest}, Cut cs p rest → motive rest → motive cs) (cs : List Char) :
    motive cs := by
  fun_induction pieces cs with
  | case1 => exact nil
  | case2 c cs ih => exact cut (cut_firstPiece c cs) ih

/-! ## No text is cut by two -/

namespace Cut

variable {cs rest : List Char} {p : Piece}

theorem source_append (h : Cut cs p rest) : p.source ++ rest = cs := by
  cases h <;> simp [Piece.source]

theorem afterBackslash_cons {c : Char} (hfeed : c ≠ '\n')
    (hreturn : ¬ (c = '\r' ∧ rest.head? = some '\n')) :
    afterBackslash (c :: rest) =
      match escaped? c with
      | some _ => (.escape c, rest)
      | none => (.unknownEscape c, rest) := by
  rw [afterBackslash.eq_def]
  split
  · next h => cases h
  · next h => exact absurd (List.cons.inj h).1 hfeed
  · next h =>
    obtain ⟨rfl, rfl⟩ := List.cons.inj h
    exact absurd ⟨rfl, rfl⟩ hreturn
  · next h =>
    obtain ⟨rfl, rfl⟩ := List.cons.inj h
    rfl

/-- The rules and the order in which they are tried come to the same. -/
theorem pieces_eq (h : Cut cs p rest) : pieces cs = p :: pieces rest := by
  cases h with
  | @text run _ hne hrun hrest =>
    obtain ⟨c, run, rfl⟩ := List.exists_cons_of_ne_nil hne
    have hall : ∀ d ∈ run, isPlain d = true := fun d hd => hrun d (List.mem_cons_of_mem c hd)
    have hstop : rest.takeWhile isPlain = [] ∧ rest.dropWhile isPlain = rest := by
      cases rest with
      | nil => exact ⟨rfl, rfl⟩
      | cons d ds =>
        have hd : ¬ isPlain d = true := by rw [hrest d rfl]; exact Bool.false_ne_true
        exact ⟨List.takeWhile_cons_of_neg hd, List.dropWhile_cons_of_neg hd⟩
    rw [List.cons_append, pieces_plain (hrun c List.mem_cons_self),
      List.takeWhile_append_of_pos hall, List.dropWhile_append_of_pos hall, hstop.1, hstop.2,
      List.append_nil]
  | braced hn => rw [pieces_dollar, afterDollar_braced hn]
  | bare hn hrest => rw [pieces_dollar, afterDollar_bare hn hrest]
  | dollar hbare hbraced =>
    have hnone : takeBraced? rest = none := by
      rw [Option.eq_none_iff_forall_ne_some]
      rintro ⟨name, tail⟩ h
      exact hbraced name tail (isName_of_takeBraced? h) (source_takeBraced? h).symm
    rw [pieces_dollar, afterDollar, hnone]
    simp only [takeName_of_not_extendsName hbare, if_pos]
  | @escape c resolved _ hc =>
    have hne : c ≠ '\n' ∧ c ≠ '\r' := by
      constructor <;> rintro rfl <;> cases hc
    rw [pieces_backslash, afterBackslash_cons hne.1 fun h => hne.2 h.1, hc]
  | unknownEscape hc hfeed hreturn => rw [pieces_backslash, afterBackslash_cons hfeed hreturn, hc]
  | joinedLines hbreak =>
    rcases hbreak with rfl | rfl
    · exact pieces_backslash _
    · exact pieces_backslash _
  | trailing => exact pieces_backslash []

/-! ## Inside a piece -/

/-- A dollar sign begins a piece, or it is the second character of one that begins with a
backslash. -/
theorem dollar_inside (h : Cut cs p rest) {front back : List Char}
    (hp : p.source = front ++ '$' :: back) : front = [] ∨ front = ['\\'] := by
  have hmem : '$' ∈ p.source := by rw [hp]; simp
  -- a name has no dollar sign, so a reference has its own only
  have hlater : ∀ {c : Char} {tail : List Char}, c :: tail = front ++ '$' :: back → '$' ∉ tail →
      front = [] := by
    intro c tail he htail
    cases front with
    | nil => rfl
    | cons d front =>
      rw [List.cons_append] at he
      obtain ⟨-, rfl⟩ := List.cons.inj he
      exact absurd (by simp) htail
  have hsecond : ∀ {c : Char}, ['\\', c] = front ++ '$' :: back → front = ['\\'] := by
    intro c he
    rcases front with _ | ⟨d, _ | ⟨e, front⟩⟩
    · simp at he
    · rw [(List.cons.inj he).1]
    · simp at he
  cases h with
  | text hne hrun => exact absurd (hrun _ hmem) (by decide)
  | @braced name rest hn =>
    have hname : '$' ∉ name := hn.not_mem (by decide) (by decide)
    exact Or.inl (hlater hp (by simp [hname]))
  | bare hn => exact Or.inl (hlater hp (hn.not_mem (by decide) (by decide)))
  | dollar => exact Or.inl (hlater hp List.not_mem_nil)
  | escape => exact Or.inr (hsecond hp)
  | unknownEscape => exact Or.inr (hsecond hp)
  | joinedLines hbreak =>
    rcases hbreak with rfl | rfl <;> simp [Piece.source] at hmem
  | trailing => simp [Piece.source] at hmem

end Cut

end ScopeTree.Interpolation
