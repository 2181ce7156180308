import Mathlib.Data.List.Induction
import ScopeTree.Text.Lowercase
import ScopeTree.Text.Separator

/-!
# Lower case of a part

A text is not always lower-cased part by part: whether a capital sigma ends its word is said by
what stands around it, beyond the part as well.  The lower-case form of a part is therefore that of
the part in its surroundings, and the surroundings count only by whether their nearest letter, the
passed-over characters left out, has case.

    lowerFrom b (cs ++ ds) = lowerIn b cs ds ++ lowerFrom (cs.reverse ++ b) ds   (lowerIn_append)
    lowerIn b cs a = lowerIn b cs a' ↔ a sigma at the end of cs, if there is one that it
      depends on, finds the same behind it                       (lowerIn_eq_iff_after)
    lowerIn b (lowerIn b' cs a') a = lowerIn b' cs a'            (lowerIn_of_isLower)
    a separator stays one, and no other comes up                 (splitLast?_lowerIn)
-/

namespace ScopeTree.Text

/-! ## Specification -/

/-- The lower-case form of a character in its surroundings. -/
def lowerOne (before : List Char) (c : Char) (after : List Char) : List Char :=
  if c = 'Σ' then [lowerSigma before after] else lowerChar c

/-- The lower-case form of a part of a text; `before` is what stands in front of it, nearest
first, and `after` what follows. -/
def lowerIn (before : List Char) : List Char → List Char → List Char
  | [], _ => []
  | c :: cs, after => lowerOne before c (cs ++ after) ++ lowerIn (c :: before) cs after

/-- The last letter is a capital sigma with a letter in front of it: it ends its word unless a
letter follows. -/
def endsInSigma (cs : List Char) : Bool :=
  match cs.reverse.dropWhile caseIgnorable.has with
  | [] => false
  | c :: before => decide (c = 'Σ') && touchesCased before

/-- The first letter is a capital sigma that no other letter follows: it ends a word if a letter
stands in front. -/
def opensWithSigma (cs : List Char) : Bool :=
  match cs.dropWhile caseIgnorable.has with
  | [] => false
  | c :: after => decide (c = 'Σ') && !touchesCased after

/-- The character is a lower-case form. -/
def IsLower (c : Char) : Prop := lowerChar c = [c]

/-! ## Case of the surroundings -/

theorem touchesCased_of_ignorable {c : Char} (hc : caseIgnorable.has c = true) (cs : List Char) :
    touchesCased (c :: cs) = touchesCased cs := by
  unfold touchesCased
  rw [List.dropWhile_cons_of_pos hc]

theorem touchesCased_of_not_ignorable {c : Char} (hc : caseIgnorable.has c = false)
    (cs : List Char) : touchesCased (c :: cs) = cased.has c := by
  unfold touchesCased
  rw [List.dropWhile_cons_of_neg (by simp [hc])]

theorem touchesCased_separator (cs : List Char) :
    touchesCased (separator ++ cs) = touchesCased cs := by
  have hcolon : caseIgnorable.has ':' = true := by decide
  show touchesCased (':' :: ':' :: cs) = _
  rw [touchesCased_of_ignorable hcolon, touchesCased_of_ignorable hcolon]

/-- What is further away counts only by its own nearest letter. -/
theorem touchesCased_append_congr (cs : List Char) {a a' : List Char}
    (h : touchesCased a = touchesCased a') : touchesCased (cs ++ a) = touchesCased (cs ++ a') := by
  induction cs with
  | nil => exact h
  | cons c cs ih =>
    rw [List.cons_append, List.cons_append]
    cases hc : caseIgnorable.has c with
    | true => rw [touchesCased_of_ignorable hc, touchesCased_of_ignorable hc, ih]
    | false => rw [touchesCased_of_not_ignorable hc, touchesCased_of_not_ignorable hc]

theorem not_ignorable_sigma : caseIgnorable.has 'Σ' = false := by decide

theorem lowerChar_sigma : lowerChar 'Σ' = ['σ'] := by decide

/-! ## Parts of a text -/

theorem lowerIn_append (before cs ds after : List Char) :
    lowerIn before (cs ++ ds) after =
      lowerIn before cs (ds ++ after) ++ lowerIn (cs.reverse ++ before) ds after := by
  induction cs generalizing before with
  | nil => rfl
  | cons c cs ih =>
    have hbefore : (c :: cs).reverse ++ before = cs.reverse ++ c :: before := by simp
    rw [List.cons_append, lowerIn, lowerIn, ih, hbefore, List.append_assoc, List.append_assoc]

theorem lowerFrom_eq_lowerIn (before cs : List Char) :
    lowerFrom before cs = lowerIn before cs [] := by
  induction cs generalizing before with
  | nil => rfl
  | cons c cs ih =>
    rw [lowerFrom, lowerIn, lowerOne, List.append_nil, ih]

theorem lowerSigma_congr {b b' a a' : List Char} (hb : touchesCased b = touchesCased b')
    (ha : touchesCased a = touchesCased a') : lowerSigma b a = lowerSigma b' a' := by
  rw [lowerSigma, lowerSigma, hb, ha]

theorem lowerIn_congr {b b' a a' : List Char} (hb : touchesCased b = touchesCased b')
    (ha : touchesCased a = touchesCased a') (cs : List Char) :
    lowerIn b cs a = lowerIn b' cs a' := by
  induction cs generalizing b b' with
  | nil => rfl
  | cons c cs ih =>
    have hone : lowerOne b c (cs ++ a) = lowerOne b' c (cs ++ a') := by
      rw [lowerOne, lowerOne, lowerSigma_congr hb (touchesCased_append_congr cs ha)]
    have hnext : touchesCased (c :: b) = touchesCased (c :: b') := touchesCased_append_congr [c] hb
    rw [lowerIn, lowerIn, hone, ih hnext]

/-! ## Length -/

theorem length_lowerOne (before : List Char) (c : Char) (after : List Char) :
    (lowerOne before c after).length = (lowerChar c).length := by
  unfold lowerOne
  split
  · next hc => rw [hc, lowerChar_sigma, List.length_singleton, List.length_singleton]
  · rfl

theorem length_lowerIn (before cs after : List Char) :
    (lowerIn before cs after).length = (cs.flatMap lowerChar).length := by
  induction cs generalizing before with
  | nil => rfl
  | cons c cs ih => rw [lowerIn, List.length_append, length_lowerOne, ih, List.flatMap_cons,
      List.length_append]

theorem lowerChar_ne_nil (c : Char) : lowerChar c ≠ [] := by
  unfold lowerChar
  split
  · simp
  · split
    · simp
    · split <;> simp

theorem lowerIn_eq_nil_iff {before cs after : List Char} :
    lowerIn before cs after = [] ↔ cs = [] := by
  cases cs with
  | nil => simp [lowerIn]
  | cons c cs =>
    have hone := length_lowerOne before c (cs ++ after)
    have hpos := List.length_pos_iff.2 (lowerChar_ne_nil c)
    have hne : lowerOne before c (cs ++ after) ≠ [] := by
      rw [← List.length_pos_iff, hone]
      exact hpos
    simp [lowerIn, hne]

/-! ## What the surroundings decide -/

theorem lowerSigma_eq_iff_after (before a a' : List Char) :
    lowerSigma before a = lowerSigma before a' ↔
      (touchesCased before = true → touchesCased a = touchesCased a') := by
  unfold lowerSigma
  cases touchesCased before <;> cases touchesCased a <;> cases touchesCased a' <;> decide

theorem lowerSigma_eq_iff_before (b b' after : List Char) :
    lowerSigma b after = lowerSigma b' after ↔
      (touchesCased after = false → touchesCased b = touchesCased b') := by
  unfold lowerSigma
  cases touchesCased b <;> cases touchesCased b' <;> cases touchesCased after <;> decide

theorem endsInSigma_concat (cs : List Char) (c : Char) :
    endsInSigma (cs ++ [c]) =
      if caseIgnorable.has c then endsInSigma cs
      else decide (c = 'Σ') && touchesCased cs.reverse := by
  unfold endsInSigma
  rw [List.reverse_append, List.reverse_singleton, List.singleton_append, List.dropWhile_cons]
  cases caseIgnorable.has c <;> rfl

theorem opensWithSigma_cons (c : Char) (cs : List Char) :
    opensWithSigma (c :: cs) =
      if caseIgnorable.has c then opensWithSigma cs
      else decide (c = 'Σ') && !touchesCased cs := by
  unfold opensWithSigma
  rw [List.dropWhile_cons]
  cases caseIgnorable.has c <;> rfl

theorem ne_sigma_of_ignorable {c : Char} (hc : caseIgnorable.has c = true) : c ≠ 'Σ' := by
  rintro rfl
  rw [not_ignorable_sigma] at hc
  cases hc

/-- What follows a part makes a difference to a sigma at its end only. -/
theorem lowerIn_eq_iff_after (cs a a' : List Char) :
    lowerIn [] cs a = lowerIn [] cs a' ↔
      (endsInSigma cs = true → touchesCased a = touchesCased a') := by
  -- from the end of the part, as that is where the letter behind it is looked for
  induction cs using List.reverseRecOn generalizing a a' with
  | nil => simp [lowerIn, endsInSigma]
  | append_singleton cs c ih =>
    rw [lowerIn_append, lowerIn_append, endsInSigma_concat]
    simp only [lowerIn, List.append_nil, List.nil_append, List.singleton_append]
    cases hc : caseIgnorable.has c with
    | true =>
      have hone : ∀ after, lowerOne cs.reverse c after = lowerChar c := fun after =>
        if_neg (ne_sigma_of_ignorable hc)
      rw [hone, hone, List.append_left_inj, ih, touchesCased_of_ignorable hc,
        touchesCased_of_ignorable hc]
      simp
    | false =>
      have hfront : lowerIn [] cs (c :: a) = lowerIn [] cs (c :: a') := by
        refine lowerIn_congr rfl ?_ cs
        rw [touchesCased_of_not_ignorable hc, touchesCased_of_not_ignorable hc]
      rw [hfront, List.append_right_inj]
      by_cases hs : c = 'Σ'
      · simp [lowerOne, hs, lowerSigma_eq_iff_after]
      · simp [lowerOne, hs]

/-- What stands in front of a part makes a difference to a sigma that opens it only. -/
theorem lowerIn_eq_iff_before (cs b b' : List Char) :
    lowerIn b cs [] = lowerIn b' cs [] ↔
      (opensWithSigma cs = true → touchesCased b = touchesCased b') := by
  induction cs generalizing b b' with
  | nil => simp [lowerIn, opensWithSigma]
  | cons c cs ih =>
    rw [lowerIn, lowerIn, List.append_nil, opensWithSigma_cons]
    cases hc : caseIgnorable.has c with
    | true =>
      have hone : ∀ before, lowerOne before c cs = lowerChar c := fun before =>
        if_neg (ne_sigma_of_ignorable hc)
      rw [hone, hone, List.append_right_inj, ih, touchesCased_of_ignorable hc,
        touchesCased_of_ignorable hc]
      simp
    | false =>
      have hrest : lowerIn (c :: b) cs [] = lowerIn (c :: b') cs [] := by
        refine lowerIn_congr ?_ rfl cs
        rw [touchesCased_of_not_ignorable hc, touchesCased_of_not_ignorable hc]
      rw [hrest, List.append_left_inj]
      by_cases hs : c = 'Σ'
      · simp [lowerOne, hs, lowerSigma_eq_iff_before]
      · simp [lowerOne, hs]

/-! ## Lower-case forms are lower case -/

def CaseRun.lowest (r : CaseRun) : Nat := (r.first + r.offset).toNat

def CaseRun.highest (r : CaseRun) : Nat := (r.last + r.offset).toNat

/-- All of its characters are even, or all of them odd, and so are the partners. -/
def CaseRun.oneParity (r : CaseRun) : Bool := r.first == r.last || r.stride % 2 == 0

/-- The numbers from `a` to `b`, as the bits of a number. -/
def bitsBetween (a b : Nat) : Nat := (1 <<< (b + 1 - a) - 1) <<< a

/-- Bits that include the characters of the run that are of this parity. -/
def CaseRun.upperBits (parity : Nat) (r : CaseRun) : Nat :=
  if r.oneParity && r.first % 2 != parity then 0 else bitsBetween r.first r.last

/-- Bits that include the partners of this parity. -/
def CaseRun.lowerBits (parity : Nat) (r : CaseRun) : Nat :=
  if r.oneParity && r.lowest % 2 != parity then 0 else bitsBetween r.lowest r.highest

/-- The bits that any of the runs gives. -/
def bitsOf (bits : CaseRun → Nat) (runs : List CaseRun) : Nat :=
  runs.foldr (fun r more => bits r ||| more) 0

/-- What can be said of a partner by its run. -/
theorem CaseRun.partner?_eq_some {r : CaseRun} {n m : Nat} (h : r.partner? n = some m) :
    r.first ≤ n ∧ n ≤ r.last ∧ r.stride ∣ n - r.first ∧ m = (n + r.offset).toNat := by
  unfold CaseRun.partner? at h
  split at h
  · next hn => exact ⟨hn.1, hn.2.1, Nat.dvd_of_mod_eq_zero hn.2.2, (Option.some.inj h).symm⟩
  · cases h

theorem CaseRun.lowest_le {r : CaseRun} {n m : Nat} (h : r.partner? n = some m) :
    r.lowest ≤ m := by
  obtain ⟨hlow, -, -, rfl⟩ := CaseRun.partner?_eq_some h
  unfold CaseRun.lowest
  omega

theorem testBit_bitsBetween (a b n : Nat) :
    (bitsBetween a b).testBit n = decide (a ≤ n ∧ n ≤ b) := by
  rw [bitsBetween, Nat.one_shiftLeft, Nat.testBit_shiftLeft, Nat.testBit_two_pow_sub_one,
    Bool.eq_iff_iff]
  simp only [Bool.and_eq_true, decide_eq_true_eq]
  omega

theorem testBit_bitsOf {bits : CaseRun → Nat} {runs : List CaseRun} {r : CaseRun}
    (hr : r ∈ runs) {n : Nat} (hn : (bits r).testBit n = true) :
    (bitsOf bits runs).testBit n = true := by
  induction runs with
  | nil => cases hr
  | cons r' runs ih =>
    rw [bitsOf, List.foldr_cons, Nat.testBit_or, Bool.or_eq_true]
    rcases List.mem_cons.1 hr with rfl | hr
    · exact .inl hn
    · exact .inr (ih hr)

/-- A run of one parity goes by even steps or has one character only. -/
theorem CaseRun.even_sub_first {r : CaseRun} (hr : r.oneParity = true) {n m : Nat}
    (h : r.partner? n = some m) : 2 ∣ n - r.first := by
  obtain ⟨hlow, hhigh, hstep, -⟩ := CaseRun.partner?_eq_some h
  rw [CaseRun.oneParity, Bool.or_eq_true, beq_iff_eq, beq_iff_eq] at hr
  rcases hr with hone | heven
  · exact ⟨0, by omega⟩
  · exact Nat.dvd_trans (Nat.dvd_of_mod_eq_zero heven) hstep

theorem CaseRun.testBit_upperBits {r : CaseRun} {n m : Nat} (h : r.partner? n = some m) :
    (r.upperBits (n % 2)).testBit n = true := by
  obtain ⟨hlow, hhigh, -, -⟩ := CaseRun.partner?_eq_some h
  have hparity : ¬ (r.oneParity && r.first % 2 != n % 2) = true := by
    rw [Bool.and_eq_true, bne_iff_ne]
    rintro ⟨hone, hne⟩
    have := CaseRun.even_sub_first hone h
    omega
  rw [CaseRun.upperBits, if_neg hparity, testBit_bitsBetween]
  exact decide_eq_true ⟨hlow, hhigh⟩

theorem CaseRun.testBit_lowerBits {r : CaseRun} (hpos : 0 < r.lowest) {n m : Nat}
    (h : r.partner? n = some m) : (r.lowerBits (m % 2)).testBit m = true := by
  obtain ⟨hlow, hhigh, -, hm⟩ := CaseRun.partner?_eq_some h
  have hshift : m - r.lowest = n - r.first ∧ r.lowest ≤ m ∧ m ≤ r.highest := by
    unfold CaseRun.lowest at hpos ⊢
    unfold CaseRun.highest
    omega
  have hparity : ¬ (r.oneParity && r.lowest % 2 != m % 2) = true := by
    rw [Bool.and_eq_true, bne_iff_ne]
    rintro ⟨hone, hne⟩
    have := CaseRun.even_sub_first hone h
    omega
  rw [CaseRun.lowerBits, if_neg hparity, testBit_bitsBetween]
  exact decide_eq_true hshift.2

/-- The dotted capital I, as if it were a run. -/
def dottedRun : CaseRun := ⟨0x130, 0x130, 1, 0⟩

theorem lowest_ge : (caseRuns.all fun r => Nat.ble 97 r.lowest) = true := by decide

theorem partner_ge {r : CaseRun} (hr : r ∈ caseRuns) {n m : Nat} (h : r.partner? n = some m) :
    97 ≤ m :=
  Nat.le_trans (Nat.le_of_ble_eq_true (List.all_eq_true.1 lowest_ge r hr)) (CaseRun.lowest_le h)

theorem upperBits_and_lowerBits : ∀ parity, parity < 2 →
    bitsOf (·.upperBits parity) (dottedRun :: caseRuns) &&&
      bitsOf (·.lowerBits parity) caseRuns = 0 := by
  decide +kernel

/-- No partner has a partner itself, and the dotted capital I is not among them. -/
theorem partner?_of_partner {r s : CaseRun} (hr : r ∈ caseRuns) (hs : s ∈ dottedRun :: caseRuns)
    {n m : Nat} (h : r.partner? n = some m) : s.partner? m = none := by
  have hpos : 0 < r.lowest :=
    Nat.lt_of_lt_of_le (by decide) (Nat.le_of_ble_eq_true (List.all_eq_true.1 lowest_ge r hr))
  have hlower := testBit_bitsOf hr (CaseRun.testBit_lowerBits hpos h)
  rw [Option.eq_none_iff_forall_ne_some]
  intro l hl
  have hupper := testBit_bitsOf hs (CaseRun.testBit_upperBits hl)
  have hboth := congrArg (Nat.testBit · m)
    (upperBits_and_lowerBits (m % 2) (Nat.mod_lt m (by decide)))
  simp only [Nat.testBit_and, hupper, hlower, Nat.zero_testBit] at hboth
  cases hboth

theorem toNat_toLower (c : Char) : c.toLower.toNat =
    if 65 ≤ c.toNat ∧ c.toNat ≤ 90 then c.toNat + 32 else c.toNat := by
  unfold Char.toLower
  split
  · next h =>
    have hlow : 65 ≤ c.toNat := h.1
    have hhigh : c.toNat ≤ 90 := h.2
    rw [if_pos ⟨hlow, hhigh⟩]
    show (c.val + ('a'.val - 'A'.val)).toNat = c.toNat + 32
    have hmove : ('a'.val - 'A'.val).toNat = 32 := by decide
    have hval : c.val.toNat = c.toNat := rfl
    rw [UInt32.toNat_add, hmove, hval]
    omega
  · next h => exact (if_neg h).symm

theorem toLower_of_not_capital {c : Char} (hc : ¬ (65 ≤ c.toNat ∧ c.toNat ≤ 90)) :
    c.toLower = c := by
  refine Char.toNat_inj.1 ?_
  rw [toNat_toLower, if_neg hc]

theorem isLower_toLower {c : Char} (hc : c.toNat < 128) : IsLower c.toLower := by
  have hmoved := toNat_toLower c
  have hascii : c.toLower.toNat < 128 ∧ ¬ (65 ≤ c.toLower.toNat ∧ c.toLower.toNat ≤ 90) := by
    split at hmoved <;> omega
  rw [IsLower, lowerChar_ascii hascii.1, toLower_of_not_capital hascii.2]

theorem isLower_of_ascii {c : Char} (hc : c.toNat < 128)
    (hcapital : ¬ (65 ≤ c.toNat ∧ c.toNat ≤ 90)) : IsLower c := by
  rw [← toLower_of_not_capital hcapital]
  exact isLower_toLower hc

theorem toNat_ofNat_of_valid {n : Nat} (h : n.isValidChar) : (Char.ofNat n).toNat = n := by
  rw [Char.ofNat, dif_pos h]
  rfl

theorem ofNat_of_not_valid {n : Nat} (h : ¬ n.isValidChar) : Char.ofNat n = '\x00' := by
  rw [Char.ofNat, dif_neg h]
  rfl

/-- Beyond ASCII, what has no partner is a lower-case form, but for the dotted capital I. -/
theorem isLower_of_no_partner {c : Char} (hascii : ¬ c.toNat < 128) (hdotted : c ≠ '\u0130')
    (hnone : caseRuns.findSome? (CaseRun.partner? · c.toNat) = none) : IsLower c := by
  simp only [IsLower, lowerChar, if_neg hascii, if_neg hdotted, hnone]

theorem isLower_partner {n m : Nat} (h : caseRuns.findSome? (CaseRun.partner? · n) = some m) :
    IsLower (Char.ofNat m) := by
  obtain ⟨r, hr, hpartner⟩ := List.exists_of_findSome?_eq_some h
  have hm : 97 ≤ m := partner_ge hr hpartner
  have hnone : ∀ s ∈ dottedRun :: caseRuns, s.partner? m = none := fun s hs =>
    partner?_of_partner hr hs hpartner
  by_cases hvalid : m.isValidChar
  · have hchar := toNat_ofNat_of_valid hvalid
    by_cases hascii : m < 128
    · exact isLower_of_ascii (by omega) (by omega)
    · refine isLower_of_no_partner (by omega) ?_ ?_
      · intro hdotted
        have hself := hnone dottedRun List.mem_cons_self
        have hcode : m = 0x130 := by
          rw [← hchar, hdotted]
          rfl
        rw [hcode] at hself
        cases hself
      · rw [hchar, List.findSome?_eq_none_iff]
        exact fun s hs => hnone s (List.mem_cons_of_mem _ hs)
  · rw [ofNat_of_not_valid hvalid]
    exact isLower_of_ascii (by decide) (by decide)

theorem isLower_sigma : IsLower 'ς' ∧ IsLower 'σ' := by
  simp only [IsLower]
  decide +kernel

theorem isLower_dotted : IsLower 'i' ∧ IsLower '\u0307' := by
  simp only [IsLower]
  decide +kernel

theorem isLower_of_mem_lowerOne {before after : List Char} {c d : Char}
    (hd : d ∈ lowerOne before c after) : IsLower d := by
  unfold lowerOne at hd
  split at hd
  · rw [List.mem_singleton.1 hd, lowerSigma]
    split
    · exact isLower_sigma.1
    · exact isLower_sigma.2
  · unfold lowerChar at hd
    split at hd
    · next hascii =>
      rw [List.mem_singleton.1 hd]
      exact isLower_toLower hascii
    · next hascii =>
      split at hd
      · rcases List.mem_cons.1 hd with rfl | hd
        · exact isLower_dotted.1
        · rw [List.mem_singleton.1 hd]
          exact isLower_dotted.2
      · next hne =>
        split at hd
        · next m hm =>
          rw [List.mem_singleton.1 hd]
          exact isLower_partner hm
        · next hnone =>
          rw [List.mem_singleton.1 hd]
          exact isLower_of_no_partner hascii hne hnone

theorem isLower_of_mem_lowerIn {before cs after : List Char} :
    ∀ d ∈ lowerIn before cs after, IsLower d := by
  induction cs generalizing before with
  | nil => simp [lowerIn]
  | cons c cs ih =>
    intro d hd
    rcases List.mem_append.1 hd with hd | hd
    · exact isLower_of_mem_lowerOne hd
    · exact ih d hd

theorem lowerIn_of_isLower {cs : List Char} (hcs : ∀ c ∈ cs, IsLower c)
    (before after : List Char) : lowerIn before cs after = cs := by
  induction cs generalizing before with
  | nil => rfl
  | cons c cs ih =>
    have hc : IsLower c := hcs c List.mem_cons_self
    have hsigma : c ≠ 'Σ' := by
      rintro rfl
      rw [IsLower, lowerChar_sigma] at hc
      revert hc
      decide
    rw [lowerIn, lowerOne, if_neg hsigma, hc, ih fun d hd => hcs d (List.mem_cons_of_mem _ hd)]
    rfl

/-! ## Separators -/

theorem lowerOne_colon (before after : List Char) : lowerOne before ':' after = [':'] := by
  have hne : ':' ≠ 'Σ' := by decide
  have hlower : lowerChar ':' = [':'] := isLower_of_ascii (by decide) (by decide)
  rw [lowerOne, if_neg hne, hlower]

theorem colon_not_mem_lowerOne {c : Char} (hc : c ≠ ':') (before after : List Char) :
    ':' ∉ lowerOne before c after := by
  unfold lowerOne
  split
  · rw [lowerSigma]
    split <;> decide
  · unfold lowerChar
    split
    · intro h
      have hmoved := toNat_toLower c
      have hcode : ':'.toNat = 58 := by decide
      rw [← List.mem_singleton.1 h, hcode] at hmoved
      refine hc (Char.toNat_inj.1 ?_)
      split at hmoved <;> omega
    · split
      · decide
      · split
        · next m hm =>
          -- a partner that is no character would stand for the null character, no colon either
          obtain ⟨r, hr, hpartner⟩ := List.exists_of_findSome?_eq_some hm
          have hge : 97 ≤ m := partner_ge hr hpartner
          intro h
          have hcolon := List.mem_singleton.1 h
          by_cases hvalid : m.isValidChar
          · have hcode := toNat_ofNat_of_valid hvalid
            rw [← hcolon] at hcode
            have hfew : ':'.toNat < 97 := by decide
            omega
          · rw [ofNat_of_not_valid hvalid] at hcolon
            cases hcolon
        · exact fun h => hc (List.mem_singleton.1 h).symm

/-- A colon at the front of a lower-case form was one before. -/
theorem exists_cons_of_lowerIn_eq_colon_cons {before cs after rest : List Char}
    (h : lowerIn before cs after = ':' :: rest) :
    ∃ cs', cs = ':' :: cs' ∧ rest = lowerIn (':' :: before) cs' after := by
  cases cs with
  | nil => cases h
  | cons c cs =>
    by_cases hc : c = ':'
    · subst hc
      rw [lowerIn, lowerOne_colon] at h
      exact ⟨cs, rfl, (List.cons.inj h).2.symm⟩
    · have hone := colon_not_mem_lowerOne hc before (cs ++ after)
      have hne : lowerOne before c (cs ++ after) ≠ [] := by
        intro hnil
        have hempty : lowerIn before [c] (cs ++ after) = [] := by
          rw [lowerIn, List.nil_append, hnil]
          rfl
        cases lowerIn_eq_nil_iff.1 hempty
      obtain ⟨d, ds, hds⟩ := List.exists_cons_of_ne_nil hne
      rw [lowerIn, hds] at h
      rw [hds, (List.cons.inj h).1] at hone
      exact absurd List.mem_cons_self hone

theorem lowerIn_separator (before rest after : List Char) :
    lowerIn before (separator ++ rest) after =
      separator ++ lowerIn (separator ++ before) rest after := by
  show lowerIn before (':' :: ':' :: rest) after = _
  rw [lowerIn, lowerIn, lowerOne_colon, lowerOne_colon]
  rfl

theorem dropSeparator?_lowerIn (before cs after : List Char) :
    dropSeparator? (lowerIn before cs after) =
      (dropSeparator? cs).map fun rest => lowerIn (separator ++ before) rest after := by
  cases hcs : dropSeparator? cs with
  | some rest =>
    rw [dropSeparator?_eq_some_iff.1 hcs]
    exact dropSeparator?_eq_some_iff.2 (lowerIn_separator before rest after)
  | none =>
    rw [Option.map_none, Option.eq_none_iff_forall_ne_some]
    intro rest hrest
    obtain ⟨cs', rfl, hcolon⟩ :=
      exists_cons_of_lowerIn_eq_colon_cons (dropSeparator?_eq_some_iff.1 hrest)
    obtain ⟨cs'', rfl, -⟩ := exists_cons_of_lowerIn_eq_colon_cons hcolon.symm
    cases hcs

theorem dropSeparator?_of_ne_colon {c : Char} (hc : c ≠ ':') (cs : List Char) :
    dropSeparator? (c :: cs) = none := by
  unfold dropSeparator?
  split
  · next heq => exact absurd (List.cons.inj heq).1 hc
  · rfl

/-- A separator begins where a colon does. -/
theorem splitLast?_append_of_no_colon {w : List Char} (hw : ':' ∉ w) (cs : List Char) :
    splitLast? (w ++ cs) = (splitLast? cs).map fun (q, s) => (w ++ q, s) := by
  induction w with
  | nil =>
    rw [List.nil_append]
    cases splitLast? cs <;> rfl
  | cons c w ih =>
    have hc : c ≠ ':' := fun h => hw (by rw [h]; exact List.mem_cons_self)
    rw [List.cons_append, splitLast?, ih fun h => hw (List.mem_cons_of_mem _ h),
      dropSeparator?_of_ne_colon hc]
    cases splitLast? cs <;> rfl

/-- A text and its lower-case form are cut at the same place. -/
theorem splitLast?_lowerIn (before cs after : List Char) :
    splitLast? (lowerIn before cs after) =
      (splitLast? cs).map fun (q, s) =>
        (lowerIn before q (separator ++ s ++ after),
          lowerIn (separator ++ q.reverse ++ before) s after) := by
  induction cs generalizing before with
  | nil => rfl
  | cons c cs ih =>
    have hbefore : ∀ q : List Char, separator ++ (c :: q).reverse ++ before =
        separator ++ q.reverse ++ c :: before := by simp
    by_cases hc : c = ':'
    · subst hc
      have hfront := dropSeparator?_lowerIn before (':' :: cs) after
      rw [lowerIn, lowerOne_colon, List.singleton_append] at hfront ⊢
      rw [splitLast?, ih, splitLast?, hfront]
      cases splitLast? cs with
      | some p =>
        obtain ⟨q, s⟩ := p
        simp only [Option.map_some, hbefore, lowerIn, lowerOne_colon, List.singleton_append]
      | none =>
        rw [Option.map_none, Option.map_map, Option.map_map]
        rfl
    · have hcolon := colon_not_mem_lowerOne hc before (cs ++ after)
      rw [lowerIn, splitLast?_append_of_no_colon hcolon, ih, splitLast?,
        dropSeparator?_of_ne_colon hc]
      cases hsplit : splitLast? cs with
      | some p =>
        obtain ⟨q, s⟩ := p
        simp only [Option.map_some, hbefore, lowerIn]
        rw [eq_append_of_splitLast? hsplit]
        simp
      | none => rfl

end ScopeTree.Text
