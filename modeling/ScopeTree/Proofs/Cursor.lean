import ScopeTree.Interpolation.Delivery
import ScopeTree.Proofs.Failures
import ScopeTree.Proofs.NameBytes

/-!
# Interpolation with a cursor

A string is interpolated in place: a cursor counts the bytes that have been read, the byte at it
says which rule applies, and each rule looks ahead at parts of the text, appends to what has come
out and moves the cursor by a number of bytes.  A part can be asked for at a byte where no
character begins.  The reading would then be `misplaced`, as it would be at a byte behind the end.

Neither happens, and a pass takes exactly the next piece of the text:

    Cut cs p rest → r.pass s = r.take s p                      (Reading.pass_of_cut)
    Cut cs p rest → r.take s p = .ok s' → s.pos < s'.pos       (Reading.lt_of_take)

for a cursor behind the characters before `cs`.  By induction on the passes the cursor always stands
behind characters of the text (Reading.Passes.exists_before), and by induction on the pieces an end
is reached (Reading.Passes.exists_end), with the answer of `interpolate`
(Catalog.interpolate_passes).

The pass over a backslash that ends the text is the only one that leaves the cursor where it is.
-/

namespace ScopeTree

namespace Interpolation

/-! ## Slices -/

/-- The text from a byte on, if a character begins there or the text ends. -/
def sliceFrom? (s : String) (n : Nat) : Option String :=
  if h : (⟨n⟩ : String.Pos.Raw).IsValid s then some (s.sliceFrom ⟨⟨n⟩, h⟩).copy else none

/-- The text up to a byte, if a character begins there or the text ends. -/
def sliceTo? (s : String) (n : Nat) : Option String :=
  if h : (⟨n⟩ : String.Pos.Raw).IsValid s then some (s.sliceTo ⟨⟨n⟩, h⟩).copy else none

/-! ## Algorithm -/

/-- What interpolation works with: how a variable is looked up, what a warning does to the sink, and
the string with its location. -/
structure Reading (σ : Type) where
  find : String → Except ScopeError Lookup
  emit : σ → Diagnostic → σ
  text : String
  location : SourceLocation

/-- How far a string has been read in bytes, what has come out, and the sink. -/
structure Cursor (σ : Type) where
  pos : Nat
  out : String
  sink : σ

/-- What can end the reading. -/
inductive Halt (σ : Type)
  /-- The string cannot be interpolated. -/
  | failed (sink : σ) (e : ScopeError)
  /-- A part of the text was asked for that does not begin and end with characters of it. -/
  | misplaced

/-- A part of the text or of its bytes, where there is one. -/
def part {σ α : Type} : Option α → Except (Halt σ) α
  | some a => .ok a
  | none => .error .misplaced

namespace Reading

variable {σ : Type} (r : Reading σ)

/-- Put the value of a variable behind what has come out. -/
def refer (s : Cursor σ) (name : String) : Except (Halt σ) (Cursor σ) :=
  match r.find name with
  | .error e => .error (.failed s.sink e)
  | .ok (.found v) => .ok { s with out := v.appendText s.out }
  | .ok .undefined => .ok s

/-- A dollar sign before the text `rest`, with no name in braces. -/
def bare (s : Cursor σ) (rest : String) : Except (Halt σ) (Cursor σ) := do
  let len ← part (scanName (textBytes rest))
  if 0 < len then
    let s ← r.refer s (← part (sliceTo? rest len))
    return { s with pos := s.pos + len + 1 }
  else
    return { s with pos := s.pos + 1, out := s.out ++ "$" }

def dollar (s : Cursor σ) : Except (Halt σ) (Cursor σ) := do
  let rest ← part (sliceFrom? r.text (s.pos + 1))
  match rest.toList with
  | '{' :: inner =>
    let braced := String.ofList inner
    let len ← part (scanName (textBytes braced))
    if 0 < len ∧ (textBytes braced)[len]? = some 125 then
      let s ← r.refer s (← part (sliceTo? braced len))
      return { s with pos := s.pos + len + 3 }
    else r.bare s rest
  | _ => r.bare s rest

/-- A backslash at the cursor, and a character behind it that does not end the line. -/
def escape (s : Cursor σ) (c : Char) : Cursor σ :=
  match escaped? c with
  | some resolved =>
    { s with pos := s.pos + (1 + c.utf8Size), out := s.out ++ String.singleton resolved }
  | none =>
    { pos := s.pos + (1 + c.utf8Size)
      out := s.out ++ "\\" ++ String.singleton c
      sink := r.emit s.sink (unknownEscapeWarning c r.location) }

def backslash (s : Cursor σ) : Except (Halt σ) (Cursor σ) := do
  let rest ← part (sliceFrom? r.text (s.pos + 1))
  match rest.toList with
  | [] => return s
  | '\n' :: _ => return { s with pos := s.pos + 2 }
  | '\r' :: _ =>
    let behind ← part (sliceFrom? rest 1)
    if behind.toList.head? = some '\n' then return { s with pos := s.pos + 3 }
    else return r.escape s '\r'
  | c :: _ => return r.escape s c

def run (s : Cursor σ) : Except (Halt σ) (Cursor σ) := do
  let rest ← part (sliceFrom? r.text s.pos)
  let len := (textBytes (String.ofList (rest.toList.takeWhile isPlain))).length
  let text ← part (sliceTo? rest len)
  return { s with pos := s.pos + len, out := s.out ++ text }

/-- The byte at the cursor says what is there. -/
def step (s : Cursor σ) : Except (Halt σ) (Cursor σ) := do
  let byte ← part (textBytes r.text)[s.pos]?
  if byte = 36 then r.dollar s else if byte = 92 then r.backslash s else r.run s

/-- One pass.  If the cursor has not moved, the string cannot be interpolated. -/
def pass (s : Cursor σ) : Except (Halt σ) (Cursor σ) := do
  let s' ← r.step s
  if s'.pos = s.pos then throw (.failed s'.sink (.stringParse r.text r.location)) else return s'

/-- What the passes before the end of the text lead to: the number of passes and the cursor. -/
inductive Passes (sink : σ) : Nat → Cursor σ → Prop
  | start : Passes sink 0 ⟨0, "", sink⟩
  | next {n : Nat} {s s' : Cursor σ} (h : Passes sink n s) (hpos : s.pos < r.text.utf8ByteSize)
      (hpass : r.pass s = .ok s') : Passes sink (n + 1) s'

end Reading

/-! ## Slices at characters -/

section Slices

variable {s : String} {n : Nat} {before after : List Char}

/-- A place behind characters of a text is valid in it, and divides it there. -/
theorem exists_splits (hs : s.toList = before ++ after) (hn : n = (charBytes before).length) :
    ∃ h : (⟨n⟩ : String.Pos.Raw).IsValid s,
      (⟨⟨n⟩, h⟩ : s.Pos).Splits (String.ofList before) (String.ofList after) := by
  have happ : s = String.ofList before ++ String.ofList after := by
    rw [← String.ofList_append, ← hs, String.ofList_toList]
  have hplace : (⟨n⟩ : String.Pos.Raw) = (String.ofList before).rawEndPos := by
    rw [hn, String.rawEndPos, ← length_textBytes, textBytes_eq, String.toList_ofList]
  exact ⟨String.Pos.Raw.isValid_iff_exists_append.2 ⟨_, _, happ, hplace⟩, happ, hplace⟩

theorem sliceFrom?_eq (hs : s.toList = before ++ after) (hn : n = (charBytes before).length) :
    sliceFrom? s n = some (String.ofList after) := by
  obtain ⟨hvalid, hsplits⟩ := exists_splits hs hn
  rw [sliceFrom?, dif_pos hvalid, (String.Pos.splits _).eq_right hsplits]

theorem sliceTo?_eq (hs : s.toList = before ++ after) (hn : n = (charBytes before).length) :
    sliceTo? s n = some (String.ofList before) := by
  obtain ⟨hvalid, hsplits⟩ := exists_splits hs hn
  rw [sliceTo?, dif_pos hvalid, (String.Pos.splits _).eq_left hsplits]

-- The second byte of a letter is no place to cut at.
example : sliceFrom? "aé" 2 = none := by decide

/-- The byte behind characters of a text is the first one of the next character. -/
theorem exists_byte {c : Char} (hs : s.toList = before ++ c :: after)
    (hn : n = (charBytes before).length) :
    ∃ b, (textBytes s)[n]? = some b ∧
      ∀ d : Char, d.toNat < 128 → (b = UInt8.ofNat d.toNat ↔ c = d) := by
  obtain ⟨b, bs, hb⟩ := List.exists_cons_of_ne_nil (String.utf8EncodeChar_ne_nil (c := c))
  refine ⟨b, ?_, fun d hd => firstByte_eq_iff hb hd⟩
  rw [textBytes_eq, hs, hn, charBytes_append, List.getElem?_append_right (Nat.le_refl _),
    Nat.sub_self, charBytes_cons, hb]
  rfl

end Slices

/-! ## Lengths -/

section Lengths

variable {cs name rest : List Char}

theorem scanName_ofList (cs : List Char) :
    scanName (textBytes (String.ofList cs)) = some (nameLength cs) := by
  rw [scanName_textBytes, String.toList_ofList]

theorem nameLength_append (hn : IsName name) (hrest : extendsName rest = false) :
    nameLength (name ++ rest) = name.length := by
  rw [nameLength, takeName_append_of_isName hn hrest]

theorem nameLength_eq_zero (hrest : extendsName rest = false) : nameLength rest = 0 := by
  rw [nameLength, takeName_of_not_extendsName hrest, List.length_nil]

theorem IsName.length_pos (hn : IsName name) : 0 < name.length := by
  obtain ⟨c, cs, rfl, -⟩ := hn.exists_cons
  exact Nat.succ_pos _

theorem length_le_charBytes (cs : List Char) : cs.length ≤ (charBytes cs).length := by
  induction cs with
  | nil => exact Nat.le_refl _
  | cons c cs ih =>
    have hc := c.utf8Size_pos
    rw [charBytes_cons, List.length_append, String.length_utf8EncodeChar, List.length_cons]
    omega

theorem Cut.length_source_pos {p : Piece} (hcut : Cut cs p rest) : 0 < p.source.length := by
  cases hcut with
  | text hne => exact List.length_pos_iff.2 hne
  | _ => simp [Piece.source]

theorem Cut.length_bytes_pos {p : Piece} (hcut : Cut cs p rest) :
    0 < (charBytes p.source).length :=
  Nat.lt_of_lt_of_le hcut.length_source_pos (length_le_charBytes _)

end Lengths

/-! ## One pass -/

namespace Reading

variable {σ : Type} (r : Reading σ) (s : Cursor σ)

def look (name : String) : Except ScopeError String := (r.find name).map Lookup.text

/-- What a piece makes of the cursor. -/
def take (p : Piece) : Except (Halt σ) (Cursor σ) :=
  let given := ofPiece r.look r.text r.location p
  let sink := given.warnings.foldl r.emit s.sink
  match given.outcome with
  | .error e => .error (.failed sink e)
  | .ok out => .ok ⟨s.pos + (charBytes p.source).length, s.out ++ out, sink⟩

theorem refer_eq (name : String) :
    r.refer s name = match r.look name with
      | .error e => .error (.failed s.sink e)
      | .ok text => .ok { s with out := s.out ++ text } := by
  unfold refer look
  cases r.find name with
  | error e => rfl
  | ok found =>
    cases found with
    | found v =>
      show Except.ok { s with out := v.appendText s.out } = _
      rw [Value.appendText_eq]
      rfl
    | undefined =>
      show _ = Except.ok { s with out := s.out ++ "" }
      rw [String.append_empty]

theorem take_reference (name : List Char) (braced : Bool) :
    r.take s (.reference name braced) = match r.look (String.ofList name) with
      | .error e => .error (.failed s.sink e)
      | .ok text =>
        let read := (charBytes (Piece.reference name braced).source).length
        .ok ⟨s.pos + read, s.out ++ text, s.sink⟩ :=
  rfl

variable {name rest : List Char}

theorem bare_of_isName (hn : IsName name) (hrest : extendsName rest = false) :
    r.bare s (String.ofList (name ++ rest)) = r.take s (.reference name false) := by
  have hlength : (charBytes name).length = name.length := length_charBytes_of_ascii hn.ascii
  have hsource : (charBytes (Piece.reference name false).source).length = name.length + 1 := by
    rw [Piece.source, charBytes_cons, List.length_append, hlength, Nat.add_comm]
    rfl
  have hslice : sliceTo? (String.ofList (name ++ rest)) name.length =
      some (String.ofList name) := sliceTo?_eq String.toList_ofList hlength.symm
  unfold bare
  rw [scanName_ofList, nameLength_append hn hrest, take_reference, hsource]
  simp only [part, bind, Except.bind, if_pos hn.length_pos, hslice, refer_eq]
  cases r.look (String.ofList name) <;> rfl

/-- Where no name begins, the dollar sign stays. -/
theorem bare_of_not_extendsName (hrest : extendsName rest = false) :
    r.bare s (String.ofList rest) = r.take s .dollar := by
  unfold bare
  rw [scanName_ofList, nameLength_eq_zero hrest]
  rfl

variable {r s} {before : List Char}

theorem sliceFrom?_succ {c : Char} (htext : r.text.toList = before ++ c :: rest)
    (hpos : s.pos = (charBytes before).length) (hc : c.toNat < 128) :
    sliceFrom? r.text (s.pos + 1) = some (String.ofList rest) := by
  have hbefore : r.text.toList = (before ++ [c]) ++ rest := by
    rw [htext, List.append_assoc]
    rfl
  refine sliceFrom?_eq hbefore ?_
  rw [charBytes_append, List.length_append, ← hpos, charBytes_cons, utf8EncodeChar_of_ascii hc]
  rfl

theorem dollar_of_braced (hn : IsName name)
    (htext : r.text.toList = before ++ '$' :: '{' :: (name ++ '}' :: rest))
    (hpos : s.pos = (charBytes before).length) : r.dollar s = r.take s (.reference name true) := by
  have hlength : (charBytes name).length = name.length := length_charBytes_of_ascii hn.ascii
  have hsource : (charBytes (Piece.reference name true).source).length = name.length + 3 := by
    have hone : (String.utf8EncodeChar '$').length = 1 ∧ (String.utf8EncodeChar '{').length = 1 ∧
        (charBytes ['}']).length = 1 := ⟨rfl, rfl, rfl⟩
    rw [Piece.source, charBytes_append, charBytes_cons, charBytes_cons]
    simp only [List.length_append, hlength]
    omega
  have hslice : sliceTo? (String.ofList (name ++ '}' :: rest)) name.length =
      some (String.ofList name) := sliceTo?_eq String.toList_ofList hlength.symm
  have hbrace : (textBytes (String.ofList (name ++ '}' :: rest)))[name.length]? = some 125 := by
    obtain ⟨b, hb, hascii⟩ := exists_byte (String.toList_ofList (l := name ++ '}' :: rest))
      hlength.symm
    rw [hb, (hascii '}' (by decide)).2 rfl]
    rfl
  have hscan := nameLength_append hn (rfl : extendsName ('}' :: rest) = false)
  unfold dollar
  rw [sliceFrom?_succ htext hpos (by decide), take_reference, hsource]
  simp only [part, bind, Except.bind, String.toList_ofList, scanName_ofList, hscan, hbrace,
    hn.length_pos, and_self, if_true, hslice, refer_eq]
  cases r.look (String.ofList name) <;> rfl

theorem dollar_of_no_braces {cs : List Char}
    (hnone : ∀ name tail, IsName name → cs ≠ '{' :: (name ++ '}' :: tail))
    (htext : r.text.toList = before ++ '$' :: cs) (hpos : s.pos = (charBytes before).length) :
    r.dollar s = r.bare s (String.ofList cs) := by
  unfold dollar
  rw [sliceFrom?_succ htext hpos (by decide)]
  simp only [part, bind, Except.bind, String.toList_ofList]
  split
  · next inner =>
    have hfails : ¬ (0 < nameLength inner ∧
        (textBytes (String.ofList inner))[nameLength inner]? = some 125) := by
      rintro ⟨hlen, hbyte⟩
      have hn : IsName (takeName inner).1 := isName_takeName fun h => by
        rw [nameLength, h] at hlen
        cases hlen
      have hplace : nameLength inner = (charBytes (takeName inner).1).length :=
        (length_charBytes_of_ascii hn.ascii).symm
      have hinner : (String.ofList inner).toList = (takeName inner).1 ++ (takeName inner).2 := by
        rw [takeName_append, String.toList_ofList]
      cases hleft : (takeName inner).2 with
      | nil =>
        rw [hleft, List.append_nil] at hinner
        rw [textBytes_eq, hinner, hplace, List.getElem?_eq_none (Nat.le_refl _)] at hbyte
        cases hbyte
      | cons c tail =>
        rw [hleft] at hinner
        obtain ⟨b, hb, hascii⟩ := exists_byte hinner hplace
        rw [hbyte] at hb
        obtain rfl : c = '}' := (hascii '}' (by decide)).1 (Option.some.inj hb).symm
        rw [String.toList_ofList] at hinner
        exact hnone _ tail hn (congrArg ('{' :: ·) hinner)
    simp only [scanName_ofList, if_neg hfails]
  · rfl

theorem escape_eq {c : Char} (hfeed : c ≠ '\n') (hreturn : ¬ (c = '\r' ∧ rest.head? = some '\n')) :
    .ok (r.escape s c) = r.take s (afterBackslash (c :: rest)).1 := by
  have hsize : (charBytes ['\\', c]).length = 1 + c.utf8Size := by
    rw [charBytes_cons, charBytes_cons, charBytes_nil, List.append_nil, List.length_append,
      String.length_utf8EncodeChar c]
    rfl
  rw [Cut.afterBackslash_cons hfeed hreturn]
  unfold escape
  cases hc : escaped? c with
  | some resolved =>
    simp only [take, ofPiece, hc, Piece.source, hsize]
    rfl
  | none =>
    have hwritten : "\\" ++ String.singleton c = String.ofList ['\\', c] := by
      rw [← String.toList_inj]
      simp
    simp only [take, ofPiece, Piece.source, hsize, String.append_assoc, hwritten]
    rfl

/-- A line break behind a backslash leaves nothing. -/
theorem take_joinedLines (lineBreak : List Char) :
    r.take s (.joinedLines lineBreak) =
      .ok { s with pos := s.pos + (charBytes ('\\' :: lineBreak)).length } := by
  show Except.ok (Cursor.mk _ (s.out ++ "") s.sink) = _
  rw [String.append_empty]
  rfl

theorem backslash_eq {cs : List Char} (htext : r.text.toList = before ++ '\\' :: cs)
    (hne : cs ≠ []) (hpos : s.pos = (charBytes before).length) :
    r.backslash s = r.take s (afterBackslash cs).1 := by
  unfold backslash
  rw [sliceFrom?_succ htext hpos (by decide)]
  simp only [part, bind, Except.bind, String.toList_ofList]
  split
  · exact absurd rfl hne
  · rw [afterBackslash, take_joinedLines]
    rfl
  · next tail =>
    have htail : (String.ofList ('\r' :: tail)).toList = ['\r'] ++ tail := String.toList_ofList
    have hslice : sliceFrom? (String.ofList ('\r' :: tail)) 1 = some (String.ofList tail) :=
      sliceFrom?_eq htail rfl
    rw [hslice]
    dsimp only
    rw [String.toList_ofList]
    split
    · next hfeed =>
      obtain ⟨tail, rfl⟩ := List.head?_eq_some_iff.1 hfeed
      rw [afterBackslash, take_joinedLines]
      rfl
    · next hfeed => exact escape_eq (by decide) fun h => hfeed h.2
  · next c tail hfeed hreturn =>
    exact escape_eq hfeed fun h => hreturn h.1

theorem run_eq {run : List Char} (hrun : ∀ c ∈ run, isPlain c = true)
    (hrest : ∀ c ∈ rest.head?, isPlain c = false) (htext : r.text.toList = before ++ (run ++ rest))
    (hpos : s.pos = (charBytes before).length) : r.run s = r.take s (.text run) := by
  have hstop : rest.takeWhile isPlain = [] := by
    cases rest with
    | nil => rfl
    | cons d ds => exact List.takeWhile_cons_of_neg (by rw [hrest d rfl]; exact Bool.false_ne_true)
  have hlength : (textBytes (String.ofList run)).length = (charBytes run).length := by
    rw [textBytes_eq, String.toList_ofList]
  have hslice : sliceTo? (String.ofList (run ++ rest)) (charBytes run).length =
      some (String.ofList run) := sliceTo?_eq String.toList_ofList rfl
  unfold Reading.run
  rw [sliceFrom?_eq htext hpos]
  simp only [part, bind, Except.bind, String.toList_ofList, List.takeWhile_append_of_pos hrun,
    hstop, List.append_nil, hlength, hslice]
  rfl

/-- The byte at the cursor is as good as the character there. -/
theorem step_eq {c : Char} {cs : List Char} (htext : r.text.toList = before ++ c :: cs)
    (hpos : s.pos = (charBytes before).length) :
    r.step s = if c = '$' then r.dollar s else if c = '\\' then r.backslash s else r.run s := by
  obtain ⟨b, hb, hascii⟩ := exists_byte htext hpos
  have hdollar : b = 36 ↔ c = '$' := hascii '$' (by decide)
  have hbackslash : b = 92 ↔ c = '\\' := hascii '\\' (by decide)
  unfold step
  rw [hb]
  simp only [part, bind, Except.bind, hdollar, hbackslash]

/-- A step takes the piece at the cursor, or stays where a backslash ends the text. -/
theorem step_of_cut {cs : List Char} {p : Piece} (hcut : Cut cs p rest)
    (htext : r.text.toList = before ++ cs) (hpos : s.pos = (charBytes before).length) :
    r.step s = if p = .trailingBackslash then .ok s else r.take s p := by
  cases hcut with
  | @text run _ hne hrun hrest =>
    obtain ⟨c, run, rfl⟩ := List.exists_cons_of_ne_nil hne
    have hplain := hrun c List.mem_cons_self
    have hc : c ≠ '$' ∧ c ≠ '\\' := by
      constructor <;> rintro rfl <;> exact absurd hplain (by decide)
    rw [step_eq htext hpos, if_neg hc.1, if_neg hc.2, run_eq hrun hrest htext hpos]
    rfl
  | braced hn =>
    rw [step_eq htext hpos, if_pos rfl, dollar_of_braced hn htext hpos]
    rfl
  | @bare name _ hn hrest =>
    -- the braces are tried first, but no name begins with one
    have hnone : ∀ name' tail, IsName name' → name ++ rest ≠ '{' :: (name' ++ '}' :: tail) := by
      intro name' tail _ he
      obtain ⟨c, cs, rfl, hc⟩ := hn.exists_cons
      obtain ⟨rfl, -⟩ := List.cons.inj he
      revert hc
      decide
    rw [step_eq htext hpos, if_pos rfl, dollar_of_no_braces hnone htext hpos,
      bare_of_isName r s hn hrest]
    rfl
  | dollar hbare hbraced =>
    rw [step_eq htext hpos, if_pos rfl, dollar_of_no_braces hbraced htext hpos,
      bare_of_not_extendsName r s hbare]
    rfl
  | @escape c resolved _ hc =>
    have hne : c ≠ '\n' ∧ c ≠ '\r' := by
      constructor <;> rintro rfl <;> cases hc
    rw [step_eq htext hpos, if_neg (by decide), if_pos rfl,
      backslash_eq htext (List.cons_ne_nil _ _) hpos,
      Cut.afterBackslash_cons hne.1 fun h => hne.2 h.1, hc]
    rfl
  | unknownEscape hc hfeed hreturn =>
    rw [step_eq htext hpos, if_neg (by decide), if_pos rfl,
      backslash_eq htext (List.cons_ne_nil _ _) hpos, Cut.afterBackslash_cons hfeed hreturn, hc]
    rfl
  | joinedLines hbreak =>
    rcases hbreak with rfl | rfl <;>
      rw [step_eq htext hpos, if_neg (by decide), if_pos rfl,
        backslash_eq htext (List.cons_ne_nil _ _) hpos] <;>
      rfl
  | trailing =>
    rw [step_eq htext hpos, if_neg (by decide), if_pos rfl]
    unfold backslash
    rw [sliceFrom?_succ htext hpos (by decide)]
    rfl

theorem pos_of_take {p : Piece} {s' : Cursor σ} (h : r.take s p = .ok s') :
    s'.pos = s.pos + (charBytes p.source).length := by
  unfold take at h
  dsimp only at h
  split at h
  · cases h
  · cases h
    rfl

theorem lt_of_take {cs : List Char} {p : Piece} {s' : Cursor σ} (hcut : Cut cs p rest)
    (h : r.take s p = .ok s') : s.pos < s'.pos := by
  have hbytes := hcut.length_bytes_pos
  rw [pos_of_take h]
  omega

theorem exists_failed_of_take {p : Piece} {halt : Halt σ} (h : r.take s p = .error halt) :
    ∃ sink e, halt = .failed sink e := by
  unfold take at h
  dsimp only at h
  split at h
  · next e _ => exact ⟨_, e, (Except.error.inj h).symm⟩
  · cases h

theorem pass_of_cut {cs : List Char} {p : Piece} (hcut : Cut cs p rest)
    (htext : r.text.toList = before ++ cs) (hpos : s.pos = (charBytes before).length) :
    r.pass s = r.take s p := by
  unfold pass
  rw [step_of_cut hcut htext hpos]
  split
  · next htrailing =>
    rw [htrailing]
    show (if s.pos = s.pos then _ else _) = _
    rw [if_pos rfl]
    rfl
  · cases htake : r.take s p with
    | error e => rfl
    | ok s' =>
      show (if s'.pos = s.pos then _ else _) = _
      rw [if_neg (lt_of_take hcut htake).ne']
      rfl

/-! ## All passes -/

theorem utf8ByteSize_text {after : List Char} (htext : r.text.toList = before ++ after) :
    r.text.utf8ByteSize = (charBytes before).length + (charBytes after).length := by
  rw [← length_textBytes, textBytes_eq, htext, charBytes_append, List.length_append]

theorem exists_cut {after : List Char} (htext : r.text.toList = before ++ after)
    (hplace : s.pos = (charBytes before).length) (hpos : s.pos < r.text.utf8ByteSize) :
    ∃ p rest, Cut after p rest := by
  cases after with
  | nil =>
    rw [utf8ByteSize_text htext, hplace, charBytes_nil, List.length_nil, Nat.add_zero] at hpos
    exact absurd hpos (Nat.lt_irrefl _)
  | cons c cs => exact ⟨_, _, cut_firstPiece c cs⟩

/-- The cursor stands behind characters of the text, which are at least as many as the passes. -/
theorem Passes.exists_before {sink : σ} {n : Nat} (h : r.Passes sink n s) :
    ∃ before after, r.text.toList = before ++ after ∧ s.pos = (charBytes before).length ∧
      n ≤ before.length := by
  induction h with
  | start => exact ⟨[], r.text.toList, rfl, rfl, Nat.le_refl 0⟩
  | next _ hpos hpass ih =>
    obtain ⟨before, after, htext, hplace, hn⟩ := ih
    obtain ⟨p, rest, hcut⟩ := exists_cut htext hplace hpos
    rw [pass_of_cut hcut htext hplace] at hpass
    refine ⟨before ++ p.source, rest, ?_, ?_, ?_⟩
    · rw [htext, List.append_assoc, hcut.source_append]
    · rw [pos_of_take hpass, hplace, charBytes_append, List.length_append]
    · have hsource := hcut.length_source_pos
      rw [List.length_append]
      omega

/-- A pass goes on behind the piece that it takes, or it fails; it never asks for a part of the text
that is none. -/
theorem Passes.pass_cases {sink : σ} {n : Nat} (h : r.Passes sink n s)
    (hpos : s.pos < r.text.utf8ByteSize) :
    (∃ s', r.pass s = .ok s' ∧ s.pos < s'.pos) ∨
      ∃ sink' e, r.pass s = .error (.failed sink' e) := by
  obtain ⟨before, after, htext, hplace, -⟩ := h.exists_before
  obtain ⟨p, rest, hcut⟩ := exists_cut htext hplace hpos
  rw [pass_of_cut hcut htext hplace]
  cases htake : r.take s p with
  | ok s' => exact Or.inl ⟨s', rfl, lt_of_take hcut htake⟩
  | error halt =>
    obtain ⟨sink', e, rfl⟩ := exists_failed_of_take htake
    exact Or.inr ⟨sink', e, rfl⟩

/-- Where the cursor stands there is a character, or the end of the text. -/
theorem Passes.isValid {sink : σ} {n : Nat} (h : r.Passes sink n s) :
    (⟨s.pos⟩ : String.Pos.Raw).IsValid r.text := by
  obtain ⟨before, after, htext, hplace, -⟩ := h.exists_before
  obtain ⟨hvalid, -⟩ := exists_splits htext hplace
  exact hvalid

/-- There are no more passes than characters, and fewer before the end of the text. -/
theorem Passes.le_length {sink : σ} {n : Nat} (h : r.Passes sink n s) :
    n ≤ r.text.length ∧ (s.pos < r.text.utf8ByteSize → n < r.text.length) := by
  obtain ⟨before, after, htext, hplace, hn⟩ := h.exists_before
  have hlength : r.text.length = before.length + after.length := by
    rw [← String.length_toList, htext, List.length_append]
  refine ⟨by omega, fun hpos => ?_⟩
  obtain ⟨p, rest, hcut⟩ := exists_cut htext hplace hpos
  have hsource := hcut.length_source_pos
  have hafter := congrArg List.length hcut.source_append
  rw [List.length_append] at hafter
  omega

/-- The reading ends at the cursor with this: the text is at its end, or the next pass fails. -/
def Ends (r : Reading σ) (s : Cursor σ) (result : σ × Except ScopeError String) : Prop :=
  (s.pos = r.text.utf8ByteSize ∧ result = (s.sink, .ok s.out)) ∨
    (s.pos < r.text.utf8ByteSize ∧ ∃ sink e, r.pass s = .error (.failed sink e) ∧
      result = (sink, .error e))

/-- From every cursor that is reached the passes come to an end, and with what the pieces from there
on deliver. -/
theorem Passes.exists_end {sink : σ} {n : Nat} (h : r.Passes sink n s) {after : List Char}
    (htext : r.text.toList = before ++ after) (hplace : s.pos = (charBytes before).length) :
    ∃ m s', r.Passes sink m s' ∧
      r.Ends s' (deliver r.emit r.look r.text r.location s.sink s.out (pieces after)) := by
  induction after using cutInduction generalizing before n s with
  | nil =>
    have hend := utf8ByteSize_text htext
    rw [← hplace] at hend
    exact ⟨n, s, h, Or.inl ⟨hend.symm, by rw [pieces_nil]; rfl⟩⟩
  | @cut cs p rest hcut ih =>
    have hpass := pass_of_cut hcut htext hplace
    have hpos : s.pos < r.text.utf8ByteSize := by
      have hbytes := hcut.length_bytes_pos
      rw [utf8ByteSize_text htext, ← hcut.source_append, charBytes_append, List.length_append]
      omega
    rw [hcut.pieces_eq, deliver]
    cases hout : (ofPiece r.look r.text r.location p).outcome with
    | error e =>
      have htake : r.take s p = .error (.failed
          ((ofPiece r.look r.text r.location p).warnings.foldl r.emit s.sink) e) := by
        simp only [take, hout]
      exact ⟨n, s, h, Or.inr ⟨hpos, _, e, hpass.trans htake, rfl⟩⟩
    | ok out =>
      have htake : r.take s p = .ok ⟨s.pos + (charBytes p.source).length, s.out ++ out,
          (ofPiece r.look r.text r.location p).warnings.foldl r.emit s.sink⟩ := by
        simp only [take, hout]
      have htext' : r.text.toList = (before ++ p.source) ++ rest := by
        rw [htext, List.append_assoc, hcut.source_append]
      refine ih (h.next hpos (hpass.trans htake)) htext' ?_
      rw [charBytes_append, List.length_append, ← hplace]

end Reading

end Interpolation

/-! ## Top theorem -/

namespace Catalog

open Interpolation

/-- Interpolation by passes over the text with a cursor in bytes, for any sink.  Wherever the cursor
gets, it stands at a character or at the end of the text, and there have been no more passes than
characters.  Before the end there have been fewer, and the next pass moves the cursor on or ends
the reading with an error: whatever part of the text it asks for begins and ends with characters.
So an end is reached, and there is what interpolation answers, with its warnings handed over. -/
theorem interpolate_passes {σ : Type} (emit : σ → Diagnostic → σ) (sink : σ) (c : Catalog)
    (h : Handle) (text : String) (location : SourceLocation) :
    let r : Reading σ := ⟨c.lookup h .asString, emit, text, location⟩
    (∀ n s, r.Passes sink n s →
      s.pos ≤ text.utf8ByteSize ∧ (⟨s.pos⟩ : String.Pos.Raw).IsValid text ∧ n ≤ text.length ∧
      (s.pos < text.utf8ByteSize → n < text.length ∧
        ((∃ s', r.pass s = .ok s' ∧ s.pos < s'.pos) ∨
          ∃ sink' e, r.pass s = .error (.failed sink' e)))) ∧
    ∃ n s, r.Passes sink n s ∧
      r.Ends s ((c.interpolate h text location).warnings.foldl emit sink,
        (c.interpolate h text location).outcome) := by
  intro r
  constructor
  · intro n s hs
    have hvalid := hs.isValid
    obtain ⟨hle, hlt⟩ := hs.le_length
    exact ⟨hvalid.le_rawEndPos, hvalid, hle, fun hpos => ⟨hlt hpos, hs.pass_cases hpos⟩⟩
  · have hstart : r.Passes sink 0 ⟨0, "", sink⟩ := .start
    have htext : r.text.toList = [] ++ text.toList := rfl
    obtain ⟨n, s, hs, hend⟩ := hstart.exists_end htext rfl
    have hanswer : deliver emit r.look text location sink "" (pieces text.toList) =
        ((c.interpolate h text location).warnings.foldl emit sink,
          (c.interpolate h text location).outcome) :=
      evaluateInto_eq emit sink (c.lookupString h) text location
    exact ⟨n, s, hs, hanswer ▸ hend⟩

/-- Two passes, over a letter of two bytes and over a backslash with another such letter, which is
warned of; the sink counts the warnings.  The backslash that ends the text is still to come. -/
theorem interpolate_passes_accents :
    ∃ h, sample.handle? top = some h ∧
      let r : Reading Nat := ⟨sample.lookup h .asString, fun n _ => n + 1, "é\\ü\\", .unknown⟩
      let s : Cursor Nat := ⟨5, "é\\ü", 1⟩
      r.Passes 0 2 s ∧ s.pos < r.text.utf8ByteSize ∧ (⟨s.pos⟩ : String.Pos.Raw).IsValid r.text ∧
        2 < r.text.length ∧
        ((∃ s', r.pass s = .ok s' ∧ s.pos < s'.pos) ∨
          ∃ sink' e, r.pass s = .error (.failed sink' e)) := by
  refine ⟨_, rfl, ?_⟩
  intro r s
  have hletter : Cut (['é'] ++ ['\\', 'ü', '\\']) (.text ['é']) ['\\', 'ü', '\\'] :=
    .text (List.cons_ne_nil _ _) (by simp [isPlain]) (by simp [isPlain])
  have hescape : Cut ['\\', 'ü', '\\'] (.unknownEscape 'ü') ['\\'] :=
    .unknownEscape rfl (by decide) (by decide)
  have htext : r.text.toList = ['é'] ++ ['\\', 'ü', '\\'] := by decide
  have htext' : r.text.toList = [] ++ (['é'] ++ ['\\', 'ü', '\\']) := htext
  have hfirst : r.pass ⟨0, "", 0⟩ = .ok ⟨2, "é", 0⟩ :=
    (Reading.pass_of_cut hletter htext' rfl).trans rfl
  have hsecond : r.pass ⟨2, "é", 0⟩ = .ok s := (Reading.pass_of_cut hescape htext rfl).trans rfl
  have hpasses : r.Passes 0 2 s := .next (.next .start (by decide) hfirst) (by decide) hsecond
  have hpos : s.pos < r.text.utf8ByteSize := by decide
  obtain ⟨-, hvalid, -, hmore⟩ :=
    (interpolate_passes _ 0 sample _ "é\\ü\\" .unknown).1 2 s hpasses
  exact ⟨hpasses, hpos, hvalid, hmore hpos⟩

end Catalog

end ScopeTree
