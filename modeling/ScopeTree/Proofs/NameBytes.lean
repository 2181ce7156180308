import ScopeTree.Proofs.Name
import ScopeTree.Proofs.OwnTags

/-!
# Reading a name off bytes

A name at the front of a text can be read off the bytes of the text, word by word and without
decoding.  A separator is passed over before it is known whether a word follows, and given back if
none does.  All of a name is ASCII, so its end is the end of a character, and it is as many bytes
long as it has characters.

    scanName (textBytes s) = some (nameLength s.toList)          (scanName_textBytes)
    IsName p → p.length ≤ nameLength (p ++ rest)                 (length_le_nameLength)

The scan has a result on every text: no place at which it looks for a word or a separator is behind
the end of the bytes.
-/

namespace ScopeTree.Interpolation

open Text (isWordChar separator dropSeparator? dropSeparator?_eq_some_iff)

/-! ## Algorithm -/

def textBytes (s : String) : List UInt8 := s.toUTF8.data.toList

def separatorBytes : List UInt8 := [58, 58]

/-- The bytes from a place on, if the place is not behind the end. -/
def bytesFrom? (bytes : List UInt8) (i : Nat) : Option (List UInt8) :=
  if i ≤ bytes.length then some (bytes.drop i) else none

/-- Go on with a name that ends at `last` so far, where a word can begin at `i`: the end of the
name. -/
def scanWords (bytes : List UInt8) (i last : Nat) : Option Nat :=
  match bytesFrom? bytes i with
  | none => none
  | some rest =>
    let word := (rest.takeWhile isTagByte).length
    if word = 0 then some last
    else
      match _h : bytesFrom? bytes (i + word) with
      | none => none
      | some behind =>
        if separatorBytes <+: behind then scanWords bytes (i + word + 2) (i + word)
        else some (i + word)
termination_by bytes.length - i
decreasing_by
  unfold bytesFrom? at _h
  split at _h
  · next hle => omega
  · cases _h

/-- The length in bytes of the name at the front of a text, 0 if there is none. -/
def scanName (bytes : List UInt8) : Option Nat :=
  scanWords bytes (if separatorBytes <+: bytes then 2 else 0) 0

/-! ## Bytes of texts -/

def charBytes (cs : List Char) : List UInt8 := cs.flatMap String.utf8EncodeChar

theorem textBytes_eq (s : String) : textBytes s = charBytes s.toList := toUTF8_toList s

@[simp] theorem charBytes_nil : charBytes [] = [] := rfl

@[simp] theorem charBytes_cons (c : Char) (cs : List Char) :
    charBytes (c :: cs) = String.utf8EncodeChar c ++ charBytes cs := List.flatMap_cons

@[simp] theorem charBytes_append (cs ds : List Char) :
    charBytes (cs ++ ds) = charBytes cs ++ charBytes ds := List.flatMap_append

theorem length_textBytes (s : String) : (textBytes s).length = s.utf8ByteSize := by
  show s.toByteArray.data.toList.length = _
  rw [Array.length_toList, ← String.size_toByteArray]
  rfl

theorem length_charBytes_of_ascii {cs : List Char} (h : ∀ c ∈ cs, c.toNat < 128) :
    (charBytes cs).length = cs.length := by
  induction cs with
  | nil => rfl
  | cons c cs ih =>
    rw [charBytes_cons, utf8EncodeChar_of_ascii (h c List.mem_cons_self), List.length_append,
      ih fun d hd => h d (List.mem_cons_of_mem c hd), List.length_singleton, List.length_cons]
    omega

/-- The first byte of a character tells which character of ASCII it is, or that it is none. -/
theorem firstByte_eq_iff {c d : Char} {b : UInt8} {bs : List UInt8}
    (hb : String.utf8EncodeChar c = b :: bs) (hd : d.toNat < 128) :
    b = UInt8.ofNat d.toNat ↔ c = d := by
  by_cases hc : c.toNat < 128
  · rw [utf8EncodeChar_of_ascii hc] at hb
    obtain ⟨rfl, -⟩ := List.cons.inj hb
    rw [← UInt8.toNat_inj, toNat_ofNat_of_ascii hc, toNat_ofNat_of_ascii hd, Char.toNat_inj]
  · have hhigh := le_toNat_of_mem_utf8EncodeChar (Nat.not_lt.1 hc) b (by simp [hb])
    constructor
    · rintro rfl
      rw [toNat_ofNat_of_ascii hd] at hhigh
      omega
    · rintro rfl
      exact absurd hd hc

/-- A text of ASCII is in front of another text if its bytes are in front of the bytes of that. -/
theorem charBytes_prefix_iff {cs ds : List Char} (hcs : ∀ c ∈ cs, c.toNat < 128) :
    charBytes cs <+: charBytes ds ↔ cs <+: ds := by
  induction cs generalizing ds with
  | nil => simp
  | cons c cs ih =>
    have hc : c.toNat < 128 := hcs c List.mem_cons_self
    cases ds with
    | nil => simp [utf8EncodeChar_of_ascii hc]
    | cons d ds =>
      obtain ⟨b, bs, hd⟩ := List.exists_cons_of_ne_nil (String.utf8EncodeChar_ne_nil (c := d))
      rw [charBytes_cons, charBytes_cons, utf8EncodeChar_of_ascii hc, hd, List.singleton_append,
        List.cons_append, List.cons_prefix_cons, List.cons_prefix_cons, eq_comm,
        firstByte_eq_iff hd hc, eq_comm, and_congr_right_iff]
      rintro rfl
      rw [utf8EncodeChar_of_ascii hc] at hd
      obtain ⟨-, rfl⟩ := List.cons.inj hd
      exact ih fun e he => hcs e (List.mem_cons_of_mem c he)

theorem separatorBytes_prefix_iff {cs : List Char} :
    separatorBytes <+: charBytes cs ↔ separator <+: cs := by
  have hbytes : separatorBytes = charBytes separator := by decide
  rw [hbytes, charBytes_prefix_iff (by simp [separator])]

/-- The bytes of a word are those up to the first that is in no word. -/
theorem takeWhile_charBytes (cs : List Char) :
    (charBytes cs).takeWhile isTagByte = charBytes (cs.takeWhile isWordChar) := by
  induction cs with
  | nil => rfl
  | cons c cs ih =>
    by_cases hc : c.toNat < 128
    · rw [charBytes_cons, utf8EncodeChar_of_ascii hc, List.singleton_append, List.takeWhile_cons,
        List.takeWhile_cons, isTagByte_ofNat hc]
      split
      · rw [charBytes_cons, utf8EncodeChar_of_ascii hc, ih]
        rfl
      · rfl
    · obtain ⟨b, bs, hb⟩ := List.exists_cons_of_ne_nil (String.utf8EncodeChar_ne_nil (c := c))
      have hword : ¬ isWordChar c = true := fun h => hc (Text.isWordChar_ascii h)
      have hbyte : ¬ isTagByte b = true := by
        intro h
        have hlow := toNat_lt_of_isTagByte (b := b) (by rw [h]; rfl)
        have hhigh := le_toNat_of_mem_utf8EncodeChar (Nat.not_lt.1 hc) b (by simp [hb])
        omega
      rw [charBytes_cons, hb, List.cons_append, List.takeWhile_cons_of_neg hbyte,
        List.takeWhile_cons_of_neg hword]
      rfl

theorem length_charBytes_takeWhile (cs : List Char) :
    (charBytes (cs.takeWhile isWordChar)).length = (cs.takeWhile isWordChar).length :=
  length_charBytes_of_ascii fun c hc =>
    Text.isWordChar_ascii (List.all_eq_true.1 List.all_takeWhile c hc)

/-! ## Lengths of names -/

theorem nameLength_eq (cs : List Char) :
    nameLength cs =
      (cs.takeWhile isWordChar).length + (takeSegments (cs.dropWhile isWordChar)).1.length := by
  rw [nameLength, takeName, List.length_append]

/-- A separator counts if a word follows it. -/
theorem length_takeSegments_separator (after : List Char) :
    (takeSegments (separator ++ after)).1.length =
      if after.takeWhile isWordChar = [] then 0 else 2 + nameLength after := by
  have hdrop := dropSeparator?_eq_some_iff.2 (rfl : separator ++ after = separator ++ after)
  rw [takeSegments]
  split
  · next hnone =>
    rw [hdrop] at hnone
    cases hnone
  · next after' hsome =>
    rw [hdrop] at hsome
    cases hsome
    split
    · rfl
    · rw [nameLength_eq, List.length_append, List.length_append, Nat.add_assoc]
      rfl

theorem takeSegments_of_not_prefix {cs : List Char} (h : ¬ separator <+: cs) :
    takeSegments cs = ([], cs) := by
  rw [takeSegments]
  split
  · rfl
  · next after hsome =>
    rw [dropSeparator?_eq_some_iff] at hsome
    exact absurd ⟨after, hsome.symm⟩ h

/-! ## The scan -/

theorem bytesFrom?_append (before after : List UInt8) :
    bytesFrom? (before ++ after) before.length = some after := by
  rw [bytesFrom?, if_pos (by simp), List.drop_left]

/-- What the scan adds to a name, when the bytes up to `i` have been passed over, is the name at the
front of the rest. -/
theorem scanWords_eq (before : List UInt8) (cs : List Char) (last : Nat) :
    scanWords (before ++ charBytes cs) before.length last =
      some (if cs.takeWhile isWordChar = [] then last else before.length + nameLength cs) := by
  rw [scanWords, bytesFrom?_append]
  dsimp only
  rw [takeWhile_charBytes, length_charBytes_takeWhile]
  by_cases hword : cs.takeWhile isWordChar = []
  · rw [hword, List.length_nil, if_pos rfl, if_pos rfl]
  · have hpos : (cs.takeWhile isWordChar).length ≠ 0 := by simpa using hword
    have hsplit : before ++ charBytes cs =
        (before ++ charBytes (cs.takeWhile isWordChar)) ++ charBytes (cs.dropWhile isWordChar) := by
      rw [List.append_assoc, ← charBytes_append, List.takeWhile_append_dropWhile]
    have hlength : (before ++ charBytes (cs.takeWhile isWordChar)).length =
        before.length + (cs.takeWhile isWordChar).length := by
      rw [List.length_append, length_charBytes_takeWhile]
    have hbehind : bytesFrom? (before ++ charBytes cs)
        (before.length + (cs.takeWhile isWordChar).length) =
          some (charBytes (cs.dropWhile isWordChar)) := by
      rw [hsplit, ← hlength, bytesFrom?_append]
    rw [if_neg hpos, if_neg hword, nameLength_eq]
    split
    · next hnone =>
      rw [hbehind] at hnone
      cases hnone
    · next behind hsome =>
      rw [hbehind] at hsome
      cases hsome
      by_cases hsep : separator <+: cs.dropWhile isWordChar
      · -- the scan goes on behind the separator: the bytes up to there join those passed over
        rw [if_pos (separatorBytes_prefix_iff.2 hsep)]
        obtain ⟨after, hafter⟩ := hsep
        have hbytes : before ++ charBytes cs =
            (before ++ charBytes (cs.takeWhile isWordChar) ++ separatorBytes) ++
              charBytes after := by
          rw [hsplit, ← hafter, charBytes_append, ← List.append_assoc]
          rfl
        have hplace : (before ++ charBytes (cs.takeWhile isWordChar) ++ separatorBytes).length =
            before.length + (cs.takeWhile isWordChar).length + 2 := by
          rw [List.length_append, hlength]
          rfl
        rw [hbytes, ← hplace, scanWords_eq, ← hafter, length_takeSegments_separator, hplace]
        split
        · rfl
        · congr 1
          omega
      · rw [if_neg (mt separatorBytes_prefix_iff.1 hsep), takeSegments_of_not_prefix hsep]
        rfl
termination_by cs.length
decreasing_by
  have hcs := congrArg List.length (List.takeWhile_append_dropWhile (p := isWordChar) (l := cs))
  rw [← hafter, List.length_append, List.length_append] at hcs
  simp only [separator, List.length_cons, List.length_nil] at hcs
  omega

theorem scanName_textBytes (s : String) : scanName (textBytes s) = some (nameLength s.toList) := by
  rw [textBytes_eq, scanName]
  by_cases hsep : separator <+: s.toList
  · rw [if_pos (separatorBytes_prefix_iff.2 hsep)]
    obtain ⟨after, hafter⟩ := hsep
    have hbytes : charBytes s.toList = separatorBytes ++ charBytes after := by
      rw [← hafter, charBytes_append]
      rfl
    have hlength : nameLength s.toList =
        if after.takeWhile isWordChar = [] then 0 else 2 + nameLength after := by
      rw [← length_takeSegments_separator, nameLength_eq, ← hafter]
      exact Nat.zero_add _
    rw [hbytes, hlength]
    exact scanWords_eq separatorBytes after 0
  · rw [if_neg (mt separatorBytes_prefix_iff.1 hsep)]
    have hscan := scanWords_eq [] s.toList 0
    rw [List.nil_append, List.length_nil, Nat.zero_add] at hscan
    rw [hscan]
    split
    · next hword =>
      rw [nameLength_eq, hword, dropWhile_of_takeWhile_nil hword, takeSegments_of_not_prefix hsep]
      rfl
    · rfl

/-! ## The longest name -/

theorem extendsName_append {cs : List Char} (h : extendsName cs = true) (ds : List Char) :
    extendsName (cs ++ ds) = true := by
  unfold extendsName at h
  split at h
  · exact h
  · next c cs hno =>
    have hcolon : c ≠ ':' := by
      rintro rfl
      exact absurd h (by decide)
    rw [List.cons_append, extendsName.eq_2 _ _ fun _ _ he _ => hcolon he]
    exact h
  · cases h

theorem length_le_nameLength {p : List Char} (hp : IsName p) (rest : List Char) :
    p.length ≤ nameLength (p ++ rest) := by
  by_contra hlonger
  rw [Nat.not_le, nameLength] at hlonger
  have happ := takeName_append (p ++ rest)
  have hextends := extendsName_takeName (p ++ rest)
  generalize hname : (takeName (p ++ rest)).1 = name at happ hlonger
  generalize hleft : (takeName (p ++ rest)).2 = left at happ hextends
  -- the part of `p` behind the name that is read would have extended that name
  obtain ⟨more, rfl⟩ : name <+: p :=
    List.prefix_of_prefix_length_le ⟨left, happ⟩ (List.prefix_append p rest) hlonger.le
  rw [List.append_assoc, List.append_cancel_left_eq] at happ
  have hmore : extendsName more = false := by
    rw [Bool.eq_false_iff]
    intro h
    rw [happ, extendsName_append h rest] at hextends
    cases hextends
  have hwhole := takeName_append_of_isName hp (rfl : extendsName [] = false)
  rw [List.append_nil] at hwhole
  have hcut : takeName (name ++ more) = (name, more) := by
    by_cases hempty : name = []
    · rw [hempty, List.nil_append, takeName_of_not_extendsName hmore]
    · refine takeName_append_of_isName ?_ hmore
      rw [← hname] at hempty ⊢
      exact isName_takeName hempty
  rw [hcut] at hwhole
  rw [← (Prod.mk.inj hwhole).1] at hlonger
  exact Nat.lt_irrefl _ hlonger

theorem IsName.ascii {name : List Char} (hn : IsName name) : ∀ c ∈ name, c.toNat < 128 := by
  intro c hc
  by_cases hword : isWordChar c = true
  · exact Text.isWordChar_ascii hword
  · by_cases hcolon : c = ':'
    · rw [hcolon]
      decide
    · exact absurd hc (hn.not_mem (Bool.eq_false_iff.2 hword) hcolon)

theorem utf8ByteSize_of_isName {p : String} (hp : IsName p.toList) :
    p.utf8ByteSize = p.toList.length := by
  rw [← length_textBytes, textBytes_eq, length_charBytes_of_ascii hp.ascii]

/-! ## Top theorem -/

/-- The scan of the bytes of a text ends with a length, which is that of the name that is cut off
the front of the text.  The length ends at a character, no name at the front of the text is longer
in bytes, and one is just as long, unless the length is 0; that is so exactly when no name is at
the front. -/
theorem scanName_longest (s : String) :
    ∃ n, scanName (textBytes s) = some n ∧ n = nameLength s.toList ∧
      (⟨n⟩ : String.Pos.Raw).IsValid s ∧
      (∀ p rest : String, s = p ++ rest → IsName p.toList → p.utf8ByteSize ≤ n) ∧
      (n ≠ 0 → ∃ p rest : String, s = p ++ rest ∧ IsName p.toList ∧ p.utf8ByteSize = n) ∧
      (n = 0 ↔ ∀ p rest : String, s = p ++ rest → ¬ IsName p.toList) := by
  have hname : nameLength s.toList ≠ 0 →
      ∃ p rest : String, s = p ++ rest ∧ IsName p.toList ∧
        p.utf8ByteSize = nameLength s.toList := by
    intro hne
    have hn : IsName (takeName s.toList).1 := isName_takeName (mt (congrArg List.length) hne)
    refine ⟨String.ofList (takeName s.toList).1, String.ofList (takeName s.toList).2, ?_, ?_, ?_⟩
    · rw [← String.ofList_append, takeName_append, String.ofList_toList]
    · rwa [String.toList_ofList]
    · rw [utf8ByteSize_of_isName (by rwa [String.toList_ofList]), String.toList_ofList, nameLength]
  have hlongest : ∀ p rest : String, s = p ++ rest → IsName p.toList →
      p.utf8ByteSize ≤ nameLength s.toList := by
    rintro p rest rfl hp
    rw [utf8ByteSize_of_isName hp, String.toList_append]
    exact length_le_nameLength hp rest.toList
  refine ⟨nameLength s.toList, scanName_textBytes s, rfl, ?_, hlongest, hname, ?_, ?_⟩
  · rw [String.Pos.Raw.isValid_iff_exists_append]
    by_cases h0 : nameLength s.toList = 0
    · exact ⟨"", s, String.empty_append.symm, congrArg String.Pos.Raw.mk h0⟩
    · obtain ⟨p, rest, hs, -, hp⟩ := hname h0
      exact ⟨p, rest, hs, congrArg String.Pos.Raw.mk hp.symm⟩
  · intro h0 p rest hs hp
    have hle := hlongest p rest hs hp
    rw [h0, utf8ByteSize_of_isName hp] at hle
    obtain ⟨c, cs, hcs, -⟩ := hp.exists_cons
    rw [hcs, List.length_cons] at hle
    omega
  · intro hnone
    by_contra hne
    obtain ⟨p, rest, hs, hp, -⟩ := hname hne
    exact hnone p rest hs hp

/-- The two last separators share a colon; the first of them has no word behind it, so the name ends
before it. -/
theorem scanName_longest_threeColons :
    scanName (textBytes "::a::b_1:::cé") = some 8 ∧
      (⟨8⟩ : String.Pos.Raw).IsValid "::a::b_1:::cé" ∧
      ∀ p rest : String, "::a::b_1:::cé" = p ++ rest → IsName p.toList → p.utf8ByteSize ≤ 8 := by
  obtain ⟨n, hscan, hn, hvalid, hlongest, -⟩ := scanName_longest "::a::b_1:::cé"
  have hname : IsName "::a::b_1".toList :=
    ⟨[['a'], ['b', '_', '1']], by decide, by decide, Or.inr rfl⟩
  have hlength : nameLength "::a::b_1:::cé".toList = 8 :=
    congrArg (fun cut => cut.1.length)
      (takeName_append_of_isName hname (rfl : extendsName ":::cé".toList = false))
  rw [hlength] at hn
  subst hn
  exact ⟨hscan, hvalid, hlongest⟩

end ScopeTree.Interpolation
