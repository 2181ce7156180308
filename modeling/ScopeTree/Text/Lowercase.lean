import ScopeTree.Text.CaseTable

/-!
# Lower case

Full lower-casing of a text.  Every character has one lower-case form of its own except the
capital sigma, whose form is decided by the whole text: at the end of a word it is the final
sigma `ς`, elsewhere `σ`.  A sigma ends a word when a letter with case stands before it and
none stands after it, apostrophes, marks and the like being passed over.

    lower (ASCII text)  = each letter by `Char.toLower`           (lowerFrom_ascii)
-/

namespace ScopeTree.Text

/-! ## Algorithm -/

/-- The lower-case form of a character, its surroundings aside.  The dotted capital I is the
only character whose form has two characters. -/
def lowerChar (c : Char) : List Char :=
  if c.toNat < 128 then [c.toLower]
  else if c = '\u0130' then ['i', '\u0307']
  else
    match caseRuns.findSome? (CaseRun.partner? · c.toNat) with
    | some n => [Char.ofNat n]
    | none => [c]

/-- The first character that is not passed over has case. -/
def touchesCased (cs : List Char) : Bool :=
  match cs.dropWhile caseIgnorable.has with
  | [] => false
  | c :: _ => cased.has c

/-- The form of a capital sigma, given what stands before it (nearest first) and after it. -/
def lowerSigma (before after : List Char) : Char :=
  if touchesCased before && !touchesCased after then 'ς' else 'σ'

/-- Lower-case the rest of a text; `before` is the part already passed, nearest first. -/
def lowerFrom (before : List Char) : List Char → List Char
  | [] => []
  | c :: after =>
    (if c = 'Σ' then [lowerSigma before after] else lowerChar c) ++ lowerFrom (c :: before) after

def lower (s : String) : String := String.ofList (lowerFrom [] s.toList)

/-! ## Lemmas -/

theorem lowerChar_ascii {c : Char} (h : c.toNat < 128) : lowerChar c = [c.toLower] := by
  simp [lowerChar, h]

/-- On ASCII text every letter is lowered by itself. -/
theorem lowerFrom_ascii (before cs : List Char) (h : ∀ c ∈ cs, c.toNat < 128) :
    lowerFrom before cs = cs.map Char.toLower := by
  induction cs generalizing before with
  | nil => rfl
  | cons c cs ih =>
    have hc : c.toNat < 128 := h c List.mem_cons_self
    have hs : c ≠ 'Σ' := by rintro rfl; simp at hc
    rw [lowerFrom, if_neg hs, lowerChar_ascii hc, ih _ fun d hd => h d (List.mem_cons_of_mem _ hd)]
    rfl

end ScopeTree.Text
