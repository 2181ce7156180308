/-!
# The namespace separator

Segments of a name are joined by `::`.  A name is cut at the last separator in it, and a
name that starts with a separator is absolute.

    splitLast? cs = some (q, s) → cs = q ++ "::" ++ s            (eq_append_of_splitLast?)
    splitLast? cs = none ↔ no separator is in cs                 (splitLast?_eq_none_iff)
-/

namespace ScopeTree.Text

/-- The separator between the segments of a name. -/
def separator : List Char := [':', ':']

/-- What comes after a leading separator. -/
def dropSeparator? : List Char → Option (List Char)
  | ':' :: ':' :: rest => some rest
  | _ => none

/-- The parts before and after the last separator. -/
def splitLast? : List Char → Option (List Char × List Char)
  | [] => none
  | c :: cs =>
    match splitLast? cs with
    | some (q, s) => some (c :: q, s)
    | none => (dropSeparator? (c :: cs)).map fun rest => ([], rest)

/-! ## Lemmas -/

theorem dropSeparator?_eq_some_iff {cs rest : List Char} :
    dropSeparator? cs = some rest ↔ cs = separator ++ rest := by
  unfold dropSeparator?
  split <;> simp_all [separator, eq_comm]

/-- Nothing is lost at the cut. -/
theorem eq_append_of_splitLast? {cs q s : List Char} (h : splitLast? cs = some (q, s)) :
    cs = q ++ separator ++ s := by
  induction cs generalizing q with
  | nil => simp [splitLast?] at h
  | cons c cs ih =>
    rw [splitLast?] at h
    split at h
    · next q' s' hcs =>
      simp only [Option.some.injEq, Prod.mk.injEq] at h
      obtain ⟨rfl, rfl⟩ := h
      simp [ih hcs]
    · obtain ⟨rest, hr, he⟩ := Option.map_eq_some_iff.1 h
      simp only [Prod.mk.injEq] at he
      obtain ⟨rfl, rfl⟩ := he
      simpa using dropSeparator?_eq_some_iff.1 hr

theorem length_of_splitLast? {cs q s : List Char} (h : splitLast? cs = some (q, s)) :
    q.length + 2 + s.length = cs.length := by
  simp [eq_append_of_splitLast? h, separator]; omega

/-- There is no cut exactly when the separator is nowhere in the name. -/
theorem splitLast?_eq_none_iff {cs : List Char} : splitLast? cs = none ↔ ¬ separator <:+: cs := by
  induction cs with
  | nil => simp [splitLast?, separator]
  | cons c cs ih =>
    rw [splitLast?, List.infix_cons_iff]
    cases h : splitLast? cs with
    | some p =>
      have hi : separator <:+: cs := Decidable.not_not.1 (mt ih.2 (by simp [h]))
      simp [hi]
    | none =>
      simp only [ih.1 h, or_false, Option.map_eq_none_iff, List.prefix_iff_eq_append]
      rw [Option.eq_none_iff_forall_ne_some]
      constructor
      · intro hn he
        exact hn _ (dropSeparator?_eq_some_iff.2 he.symm)
      · intro hn rest hr
        exact hn (by rw [dropSeparator?_eq_some_iff.1 hr]; simp [separator])

end ScopeTree.Text
