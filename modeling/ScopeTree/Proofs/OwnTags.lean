import Mathlib.Data.List.TakeWhile
import ScopeTree.Proofs.InheritedTags
import ScopeTree.Proofs.SearchPath

/-!
# The tags that a scope is given

Whether a text is a tag shows in its UTF-8 bytes as well as in its characters.  All that a tag is
made of is ASCII and has a byte of its own, and every byte of any other character is above those.

Tags are added one by one.  The first name that is not a tag ends that with an error, and the names
before it stay.  So only tags are ever stored, and what a list of tags adds is a matter of which
names are in it.

    isValidTag text = areTagBytes text.toUTF8.data.toList        (isValidTag_eq_areTagBytes)
    addAll fails with the first name that is no tag, and has added those before it
                                                                 (addAll_of_first_invalid)
    the same names, all of them tags → addAll tags names' = addAll tags names
                                                                 (addAll_congr)
-/

namespace ScopeTree

/-! ## Specification -/

/-- The byte is that of an ASCII letter, a digit or an underscore. -/
def isTagByte (b : UInt8) : Bool :=
  (65 ≤ b && b ≤ 90) || (97 ≤ b && b ≤ 122) || (48 ≤ b && b ≤ 57) || b == 95

/-- The bytes are those of a tag: behind the first one there may be dashes. -/
def areTagBytes : List UInt8 → Bool
  | [] => false
  | b :: bs => isTagByte b && bs.all fun b => isTagByte b || b == 45

/-! ## Bytes of characters -/

theorem isTagByte_iff {b : UInt8} : isTagByte b = true ↔
    (65 ≤ b.toNat ∧ b.toNat ≤ 90) ∨ (97 ≤ b.toNat ∧ b.toNat ≤ 122) ∨
      (48 ≤ b.toNat ∧ b.toNat ≤ 57) ∨ b.toNat = 95 := by
  simp [isTagByte, UInt8.le_iff_toNat_le, ← UInt8.toNat_inj, or_assoc]

theorem isWordChar_iff_toNat {c : Char} : Text.isWordChar c = true ↔
    (65 ≤ c.toNat ∧ c.toNat ≤ 90) ∨ (97 ≤ c.toNat ∧ c.toNat ≤ 122) ∨
      (48 ≤ c.toNat ∧ c.toNat ≤ 57) ∨ c.toNat = 95 := by
  have hunderscore : c = '_' ↔ c.toNat = 95 := by
    rw [← Char.toNat_inj]
    rfl
  rw [isWordChar_iff, IsTagStart, hunderscore]
  rfl

theorem toUTF8_toList (text : String) :
    text.toUTF8.data.toList = text.toList.flatMap String.utf8EncodeChar := by
  rw [String.toUTF8_eq_toByteArray, ← String.utf8Encode_toList, List.utf8Encode,
    List.toList_data_toByteArray]

theorem utf8EncodeChar_of_ascii {c : Char} (hc : c.toNat < 128) :
    String.utf8EncodeChar c = [UInt8.ofNat c.toNat] := by
  have hle : c.val.toNat ≤ 0x7f := Nat.le_of_lt_succ hc
  rw [String.utf8EncodeChar, if_pos hle]
  rfl

theorem toNat_ofNat_of_ascii {c : Char} (hc : c.toNat < 128) :
    (UInt8.ofNat c.toNat).toNat = c.toNat :=
  UInt8.toNat_ofNat_of_lt' (Nat.lt_trans hc (by decide))

/-- No byte of another character is that of an ASCII one. -/
theorem le_toNat_of_mem_utf8EncodeChar {c : Char} (hc : 128 ≤ c.toNat) :
    ∀ b ∈ String.utf8EncodeChar c, 128 ≤ b.toNat := by
  have hbyte : ∀ n, 128 ≤ n → n < 256 → 128 ≤ (UInt8.ofNat n).toNat := by
    intro n hlow hhigh
    rw [UInt8.toNat_ofNat_of_lt' hhigh]
    exact hlow
  have hgt : ¬ c.val.toNat ≤ 0x7f := Nat.not_le.2 hc
  rw [String.utf8EncodeChar, if_neg hgt]
  intro b hb
  -- two, three or four bytes
  split at hb
  · simp only [List.mem_cons, List.not_mem_nil, or_false] at hb
    obtain rfl | rfl := hb
    all_goals apply hbyte <;> omega
  · split at hb
    · simp only [List.mem_cons, List.not_mem_nil, or_false] at hb
      obtain rfl | rfl | rfl := hb
      all_goals apply hbyte <;> omega
    · simp only [List.mem_cons, List.not_mem_nil, or_false] at hb
      obtain rfl | rfl | rfl | rfl := hb
      all_goals apply hbyte <;> omega

theorem toNat_lt_of_isTagByte {b : UInt8} (hb : (isTagByte b || b == 45) = true) :
    b.toNat < 128 := by
  rw [Bool.or_eq_true, isTagByte_iff, beq_iff_eq] at hb
  rcases hb with hb | rfl
  · omega
  · decide

theorem isTagByte_ofNat {c : Char} (hc : c.toNat < 128) :
    isTagByte (UInt8.ofNat c.toNat) = Text.isWordChar c := by
  rw [Bool.eq_iff_iff, isTagByte_iff, isWordChar_iff_toNat, toNat_ofNat_of_ascii hc]

/-- Behind the first character, each may be there if its bytes may. -/
theorem all_utf8EncodeChar (c : Char) :
    ((String.utf8EncodeChar c).all fun b => isTagByte b || b == 45) =
      (Text.isWordChar c || c == '-') := by
  by_cases hc : c.toNat < 128
  · have hdash : (UInt8.ofNat c.toNat == 45) = (c == '-') := by
      rw [Bool.eq_iff_iff, beq_iff_eq, beq_iff_eq, ← UInt8.toNat_inj, toNat_ofNat_of_ascii hc,
        ← Char.toNat_inj]
      rfl
    rw [utf8EncodeChar_of_ascii hc, List.all_cons, List.all_nil, Bool.and_true,
      isTagByte_ofNat hc, hdash]
  · have hbytes := le_toNat_of_mem_utf8EncodeChar (Nat.not_lt.1 hc)
    have hno : (Text.isWordChar c || c == '-') = false := by
      rw [Bool.or_eq_false_iff, Bool.eq_false_iff, beq_eq_false_iff_ne]
      refine ⟨fun h => hc (Text.isWordChar_ascii h), ?_⟩
      rintro rfl
      exact hc (by decide)
    rw [hno, List.all_eq_false]
    obtain ⟨b, hb⟩ := List.exists_mem_of_ne_nil _ (String.utf8EncodeChar_ne_nil (c := c))
    refine ⟨b, hb, fun h => ?_⟩
    have hhigh := hbytes b hb
    have hlow := toNat_lt_of_isTagByte h
    omega

/-- To check the characters of a text comes to the same as to check its bytes. -/
theorem isValidTag_eq_areTagBytes (text : String) :
    isValidTag text = areTagBytes text.toUTF8.data.toList := by
  rw [toUTF8_toList, isValidTag]
  cases text.toList with
  | nil => rfl
  | cons c cs =>
    rw [List.flatMap_cons]
    by_cases hc : c.toNat < 128
    · rw [utf8EncodeChar_of_ascii hc, List.singleton_append, areTagBytes, isTagByte_ofNat hc,
        List.all_flatMap]
      simp only [all_utf8EncodeChar]
    · -- the first byte is none with which a tag begins
      have hno : Text.isWordChar c = false :=
        Bool.eq_false_iff.2 fun h => hc (Text.isWordChar_ascii h)
      obtain ⟨b, bs, hbytes⟩ := List.exists_cons_of_ne_nil (String.utf8EncodeChar_ne_nil (c := c))
      have hfirst : isTagByte b = false := by
        rw [Bool.eq_false_iff]
        intro h
        have hhigh := le_toNat_of_mem_utf8EncodeChar (Nat.not_lt.1 hc) b (by simp [hbytes])
        have hlow := toNat_lt_of_isTagByte (b := b) (by simp [h])
        omega
      simp only [hbytes, List.cons_append, areTagBytes, hno, hfirst, Bool.false_and]

/-! ## Adding -/

namespace TagSet

variable {tags : TagSet} {names : List String}

theorem addAll_of_isTag (tags : TagSet) (hnames : ∀ n ∈ names, IsTag n) :
    (tags.addAll names).2 = .ok () ∧ ∀ t, t ∈ (tags.addAll names).1 ↔ t ∈ tags ∨ t ∈ names := by
  have hvalid : ∀ n ∈ names, isValidTag n = true := fun n hn => isValidTag_iff.2 (hnames n hn)
  constructor
  · rw [addAll_snd, List.find?_eq_none.2]
    intro n hn
    simp [hvalid n hn]
  · intro t
    rw [mem_addAll, List.takeWhile_eq_self_iff.2 hvalid]

/-- The first name that is not a tag is the error, and those before it are added. -/
theorem addAll_of_first_invalid (tags : TagSet) {before after : List String} {n : String}
    (hbefore : ∀ m ∈ before, IsTag m) (hn : ¬ IsTag n) :
    (tags.addAll (before ++ n :: after)).2 = .error (.invalidTag n) ∧
      ∀ t, t ∈ (tags.addAll (before ++ n :: after)).1 ↔ t ∈ tags ∨ t ∈ before := by
  have hvalid : ∀ m ∈ before, isValidTag m = true := fun m hm => isValidTag_iff.2 (hbefore m hm)
  have hinvalid : isValidTag n = false := by
    rw [Bool.eq_false_iff]
    exact fun h => hn (isValidTag_iff.1 h)
  constructor
  · have hnone : before.find? (fun m => !isValidTag m) = none := by
      rw [List.find?_eq_none]
      intro m hm
      simp [hvalid m hm]
    rw [addAll_snd, List.find?_append, hnone, Option.none_or, List.find?_cons, hinvalid]
    rfl
  · intro t
    rw [mem_addAll, List.takeWhile_append_of_pos hvalid, List.takeWhile_cons, hinvalid]
    simp

theorem addAll_eq_ok_iff (tags : TagSet) (names : List String) :
    (tags.addAll names).2 = .ok () ↔ ∀ n ∈ names, IsTag n := by
  refine ⟨fun hok n hn => ?_, fun hnames => (addAll_of_isTag tags hnames).1⟩
  rw [addAll_snd] at hok
  cases hfind : names.find? fun n => !isValidTag n with
  | some m =>
    rw [hfind] at hok
    cases hok
  | none =>
    have hvalid := List.find?_eq_none.1 hfind n hn
    rw [Bool.not_eq_true, Bool.not_eq_false'] at hvalid
    exact isValidTag_iff.1 hvalid

/-- What tags add is a matter of which they are, and neither of their order nor of how often each of
them is there. -/
theorem addAll_congr (tags : TagSet) (hnames : ∀ n ∈ names, IsTag n) {names' : List String}
    (hsame : ∀ n, n ∈ names' ↔ n ∈ names) : tags.addAll names' = tags.addAll names := by
  obtain ⟨hok, hmem⟩ := addAll_of_isTag tags hnames
  obtain ⟨hok', hmem'⟩ := addAll_of_isTag tags fun n hn => hnames n ((hsame n).1 hn)
  refine Prod.ext (Std.ExtTreeSet.ext_mem fun t => ?_) (hok'.trans hok.symm)
  rw [hmem, hmem', hsame]

end TagSet

/-- Wherever a session holds a scope, all that the scope has for tags are tags. -/
theorem Session.isTag_of_runAll {types : TypeTable} (ht : types.Built) {steps : List Step}
    (hsteps : ∀ step ∈ steps, step.Sound) {t : Target} {h : Handle}
    (hh : (runAll (.new types) steps).handle? t = some h) : ∀ tag ∈ h.scope.tags, IsTag tag :=
  (lived_of_runAll ht hsteps hh).of_invariant Catalog.scopeInvariant_isTag

/-! ## Top theorem -/

/-- A text is a valid tag if it begins with a letter, digit or underscore of ASCII, behind which
there may be dashes as well; to check its bytes comes to the same.  A scope that is given names as
tags adds all of them if all are tags.  Otherwise it fails with the first that is not, and has added
just those before it.  Nothing else about the scope changes, so that one that came about as scopes
do has tags only; and of names that are tags neither the order matters nor how often each is
there. -/
theorem Scope.addTags_up_to_invalid (s : Scope) (names : List String) :
    let result := Edit.run s (.addTags names)
    (∀ text, (isValidTag text = true ↔ IsTag text) ∧
      isValidTag text = areTagBytes text.toUTF8.data.toList) ∧
    (result.2 = .ok () ↔ ∀ n ∈ names, IsTag n) ∧
    ((∀ n ∈ names, IsTag n) → ∀ t, t ∈ result.1.tags ↔ t ∈ s.tags ∨ t ∈ names) ∧
    (∀ before n after, names = before ++ n :: after → (∀ m ∈ before, IsTag m) → ¬ IsTag n →
      result.2 = .error (.invalidTag n) ∧ ∀ t, t ∈ result.1.tags ↔ t ∈ s.tags ∨ t ∈ before) ∧
    result.1 = { s with tags := result.1.tags } ∧
    (s.Lived → (∀ t ∈ s.tags, IsTag t) ∧ ∀ t ∈ result.1.tags, IsTag t) ∧
    ∀ names', (∀ n ∈ names, IsTag n) → (∀ n, n ∈ names' ↔ n ∈ names) →
      Edit.run s (.addTags names') = result := by
  intro result
  have htags : result.1.tags = (s.tags.addAll names).1 := rfl
  have houtcome : result.2 = (s.tags.addAll names).2 := rfl
  rw [htags, houtcome]
  refine ⟨fun text => ⟨isValidTag_iff, isValidTag_eq_areTagBytes text⟩,
    s.tags.addAll_eq_ok_iff names, fun hnames => (s.tags.addAll_of_isTag hnames).2, ?_, rfl,
    fun hs => ?_, fun names' hnames hsame => ?_⟩
  · rintro before n after rfl hbefore hn
    exact s.tags.addAll_of_first_invalid hbefore hn
  · have hold : ∀ t ∈ s.tags, IsTag t := hs.of_invariant Catalog.scopeInvariant_isTag
    exact ⟨hold, TagSet.isTag_addAll hold names⟩
  · show ({ s with tags := (s.tags.addAll names').1 }, (s.tags.addAll names').2) = result
    rw [s.tags.addAll_congr hnames hsame]
    rfl

def sampleSite : Scope := (Edit.run (.make ⟨1⟩ {} none) (.addTags ["site"])).1

/-- Of three more names the second is not a tag, for its last letter, which is of two bytes.  The
third would have been one. -/
theorem Scope.addTags_up_to_invalid_accent :
    let result := Edit.run sampleSite (.addTags ["web", "café", "late"])
    sampleSite.Lived ∧ IsTag "web" ∧ ¬ IsTag "café" ∧ IsTag "late" ∧
      result.2 = .error (.invalidTag "café") ∧
      (∀ t, t ∈ result.1.tags ↔ t ∈ sampleSite.tags ∨ t ∈ ["web"]) ∧
      ∀ t ∈ result.1.tags, IsTag t := by
  intro result
  have hlived : sampleSite.Lived := .edit (.make ⟨1⟩ {} none) _
  have hweb : IsTag "web" := isValidTag_iff.1 (by decide)
  have hlate : IsTag "late" := isValidTag_iff.1 (by decide)
  have haccent : ¬ IsTag "café" := by
    rw [← isValidTag_iff]
    decide
  obtain ⟨-, -, -, hstops, -, hvalid, -⟩ :=
    sampleSite.addTags_up_to_invalid ["web", "café", "late"]
  have hbefore : ∀ m ∈ ["web"], IsTag m := by
    intro m hm
    rw [List.mem_singleton.1 hm]
    exact hweb
  obtain ⟨herror, hmem⟩ := hstops ["web"] "café" ["late"] rfl hbefore haccent
  exact ⟨hlived, hweb, haccent, hlate, herror, hmem, (hvalid hlived).2⟩

end ScopeTree
