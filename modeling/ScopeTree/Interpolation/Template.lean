import ScopeTree.Interpolation.Evaluation

/-!
# Templates

A template is a string as its author means it: literal text and references to variables.
It is written down by escaping the literals; a reference is written without braces only
where what follows would not be read as a part of its name.

    text of literals, then text of references, in order          (value)
    the string that interpolation reads back as that             (render)
-/

namespace ScopeTree.Interpolation

/-- A part of a template.  A reference may ask to be written without braces. -/
inductive Part
  | literal (text : List Char)
  | reference (name : List Char) (bare : Bool)
deriving DecidableEq, Repr

/-- A character of a literal as it is written. -/
def escapeChar (c : Char) : List Char := if isPlain c then [c] else ['\\', c]

/-- The written form of a template. -/
def render : List Part → List Char
  | [] => []
  | .literal text :: parts => text.flatMap escapeChar ++ render parts
  | .reference name bare :: parts =>
    let rest := render parts
    if bare && !extendsName rest then '$' :: name ++ rest
    else '$' :: '{' :: name ++ '}' :: rest

/-- What a template stands for: its literals, and the texts of its variables as they are. -/
def value (look : String → Except ScopeError String) : List Part → Except ScopeError String
  | [] => .ok ""
  | .literal text :: parts => (value look parts).map (String.ofList text ++ ·)
  | .reference name _ :: parts =>
    match look (String.ofList name) with
    | .ok s => (value look parts).map (s ++ ·)
    | .error e => .error e

/-! ## Lemmas -/

/-- A character of a literal is read back as itself. -/
theorem escaped?_of_not_plain {c : Char} (h : isPlain c = false) : escaped? c = some c := by
  have : c = '\\' ∨ c = '$' := by
    simpa [isPlain, Decidable.or_iff_not_imp_left] using h
  rcases this with rfl | rfl <;> rfl

end ScopeTree.Interpolation
