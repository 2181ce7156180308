import ScopeTree.Interpolation.Name

/-!
# Pieces of a string

A double-quoted string is cut into pieces from left to right: references to variables,
escapes, and runs of other text.  Cutting loses nothing, and what a piece is does not depend
on any scope.

    (pieces cs).flatMap source = cs                              (flatMap_source_pieces)
-/

namespace ScopeTree.Interpolation

/-! ## Algorithm -/

/-- A piece of a string. -/
inductive Piece
  /-- A run of text without a dollar sign or a backslash. -/
  | text (run : List Char)
  /-- A reference to a variable, `$name` or, in braces, `${name}`. -/
  | reference (name : List Char) (braced : Bool)
  /-- A backslash and a character that it gives a meaning. -/
  | escape (c : Char)
  /-- A backslash and a character that it gives none. -/
  | unknownEscape (c : Char)
  /-- A backslash at the end of a line, and the line break. -/
  | joinedLines (lineBreak : List Char)
  /-- A dollar sign that no name follows. -/
  | dollar
  /-- A backslash that nothing follows. -/
  | trailingBackslash
deriving DecidableEq, Repr

/-- What a backslash makes of a character. -/
def escaped? : Char → Option Char
  | 'n' => some '\n'
  | 't' => some '\t'
  | 's' => some ' '
  | '\\' => some '\\'
  | '$' => some '$'
  | _ => none

/-- The text that a piece was cut from. -/
def Piece.source : Piece → List Char
  | text run => run
  | reference name false => '$' :: name
  | reference name true => '$' :: '{' :: name ++ ['}']
  | escape c | unknownEscape c => ['\\', c]
  | joinedLines lineBreak => '\\' :: lineBreak
  | dollar => ['$']
  | trailingBackslash => ['\\']

/-- A character that belongs to a run of text. -/
def isPlain (c : Char) : Bool := c != '\\' && c != '$'

/-- A name in braces at the front of a text, and the rest. -/
def takeBraced? : List Char → Option (List Char × List Char)
  | '{' :: inner =>
    match takeName inner with
    | (name, '}' :: rest) => if name = [] then none else some (name, rest)
    | _ => none
  | _ => none

/-- The piece that a dollar sign begins, given what follows it. -/
def afterDollar (cs : List Char) : Piece × List Char :=
  match takeBraced? cs with
  | some (name, rest) => (.reference name true, rest)
  | none =>
    if (takeName cs).1 = [] then (.dollar, cs)
    else (.reference (takeName cs).1 false, (takeName cs).2)

/-- The piece that a backslash begins, given what follows it. -/
def afterBackslash : List Char → Piece × List Char
  | [] => (.trailingBackslash, [])
  | '\n' :: rest => (.joinedLines ['\n'], rest)
  | '\r' :: '\n' :: rest => (.joinedLines ['\r', '\n'], rest)
  | c :: rest =>
    match escaped? c with
    | some _ => (.escape c, rest)
    | none => (.unknownEscape c, rest)

/-- The first piece of a text that begins with `c`, and the rest. -/
def firstPiece (c : Char) (cs : List Char) : Piece × List Char :=
  if c = '$' then afterDollar cs
  else if c = '\\' then afterBackslash cs
  else (.text (c :: cs.takeWhile isPlain), cs.dropWhile isPlain)

/-! ## Every piece is cut off the front -/

theorem source_takeBraced? {cs name rest : List Char} (h : takeBraced? cs = some (name, rest)) :
    '{' :: name ++ '}' :: rest = cs := by
  unfold takeBraced? at h
  split at h
  · next inner =>
    split at h
    · next name' rest' he =>
      split at h
      · cases h
      · cases h
        have := takeName_append inner
        rw [he] at this
        simpa using this
    · cases h
  · cases h

theorem source_afterDollar (cs : List Char) :
    (afterDollar cs).1.source ++ (afterDollar cs).2 = '$' :: cs := by
  unfold afterDollar
  split
  · next name rest h => simpa [Piece.source] using source_takeBraced? h
  · split
    · rfl
    · simpa [Piece.source] using takeName_append cs

theorem source_afterBackslash (cs : List Char) :
    (afterBackslash cs).1.source ++ (afterBackslash cs).2 = '\\' :: cs := by
  unfold afterBackslash
  split
  · rfl
  · rfl
  · rfl
  · split <;> rfl

/-- The first piece and the rest make up the text. -/
theorem source_firstPiece (c : Char) (cs : List Char) :
    (firstPiece c cs).1.source ++ (firstPiece c cs).2 = c :: cs := by
  unfold firstPiece
  split
  · next h => rw [h, source_afterDollar]
  · split
    · next h => rw [h, source_afterBackslash]
    · simp [Piece.source]

theorem length_source_firstPiece_pos (c : Char) (cs : List Char) :
    0 < (firstPiece c cs).1.source.length := by
  unfold firstPiece
  split
  · unfold afterDollar
    split
    · simp [Piece.source]
    · split <;> simp [Piece.source]
  · split
    · unfold afterBackslash
      split
      · simp [Piece.source]
      · simp [Piece.source]
      · simp [Piece.source]
      · split <;> simp [Piece.source]
    · simp [Piece.source]

theorem length_firstPiece_snd (c : Char) (cs : List Char) :
    (firstPiece c cs).2.length < (c :: cs).length := by
  have h := congrArg List.length (source_firstPiece c cs)
  have hp := length_source_firstPiece_pos c cs
  rw [List.length_append] at h
  omega

def pieces : List Char → List Piece
  | [] => []
  | c :: cs => (firstPiece c cs).1 :: pieces (firstPiece c cs).2
termination_by cs => cs.length
decreasing_by exact length_firstPiece_snd c cs

/-! ## Lemmas -/

@[simp] theorem pieces_nil : pieces [] = [] := by rw [pieces]

/-- Cutting loses nothing. -/
theorem flatMap_source_pieces (cs : List Char) : (pieces cs).flatMap Piece.source = cs := by
  fun_induction pieces cs with
  | case1 => rfl
  | case2 c cs ih => rw [List.flatMap_cons, ih, source_firstPiece]

theorem length_pieces_le (cs : List Char) : (pieces cs).length ≤ cs.length := by
  fun_induction pieces cs with
  | case1 => simp
  | case2 c cs ih =>
    have := length_firstPiece_snd c cs
    simp only [List.length_cons] at this ⊢
    omega

end ScopeTree.Interpolation
