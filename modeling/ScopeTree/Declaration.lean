import ScopeTree.Text.Lowercase
import ScopeTree.Text.Separator
import Std.Data.ExtTreeMap

/-!
# Declarations and their registry

The classes, node bodies and defined types of a configuration, found by name from within a
namespace: first inside it, then inside each enclosing namespace, then globally.  Letter case
does not count in names, and a name with a leading separator is looked for globally only.

    enclosing "a::b" = ["a::b", "a", ""]
-/

namespace ScopeTree

open Text (separator dropSeparator? splitLast? length_of_splitLast? lower)

/-! ## Declarations -/

/-- A class declaration is an ordinary class or the body of a node. -/
inductive ClassKind
  | ordinary
  | node
deriving DecidableEq, Repr

/-- A declared class or node body, under its full name. -/
structure ClassDecl where
  name : String
  kind : ClassKind := .ordinary
deriving DecidableEq, Repr

def ClassDecl.isNode (d : ClassDecl) : Bool := d.kind = .node

/-- A declared defined type, under its full name. -/
structure DefineDecl where
  name : String
deriving DecidableEq, Repr

/-- What the name of a type can stand for. -/
inductive TypeDecl
  | define (decl : DefineDecl)
  | ofClass (decl : ClassDecl)
deriving DecidableEq, Repr

def TypeDecl.name : TypeDecl → String
  | define d => d.name
  | ofClass d => d.name

/-! ## Names -/

/-- The full form of a name used in a namespace; an absolute name stands for itself. -/
def qualify (ns name : List Char) : List Char :=
  match dropSeparator? name with
  | some rest => rest
  | none => if ns = [] then name else ns ++ separator ++ name

/-- The key of a name used in a namespace: its full form in lower case. -/
def qualifiedKey (ns name : List Char) : String := lower (String.ofList (qualify ns name))

/-- The key of a name by itself. -/
def nameKey (name : String) : String := qualifiedKey [] name.toList

/-- A namespace and those around it, the global one last. -/
def enclosing (ns : List Char) : List (List Char) :=
  if ns = [] then [[]]
  else
    match _h : splitLast? ns with
    | none => [ns, []]
    | some (outer, _) => ns :: enclosing outer
termination_by ns.length
decreasing_by
  have := length_of_splitLast? _h
  omega

/-- The keys under which a name used in a namespace is looked for, in order. -/
def candidates (ns name : String) : List String :=
  match dropSeparator? name.toList with
  | some _ => [nameKey name]
  | none => (enclosing ns.toList).map (qualifiedKey · name.toList)

/-! ## The registry -/

/-- The declarations by key.  A later declaration of a key replaces an earlier one. -/
structure TypeTable where
  classes : Std.ExtTreeMap String ClassDecl := ∅
  defines : Std.ExtTreeMap String DefineDecl := ∅

namespace TypeTable

def empty : TypeTable := {}

def addClass (t : TypeTable) (d : ClassDecl) : TypeTable :=
  { t with classes := t.classes.insert (nameKey d.name) d }

def addDefine (t : TypeTable) (d : DefineDecl) : TypeTable :=
  { t with defines := t.defines.insert (nameKey d.name) d }

/-- The class that a name used in a namespace stands for. -/
def findClass? (t : TypeTable) (ns name : String) : Option ClassDecl :=
  (candidates ns name).findSome? (t.classes[·]?)

def findDefine? (t : TypeTable) (ns name : String) : Option DefineDecl :=
  (candidates ns name).findSome? (t.defines[·]?)

end TypeTable

/-! ## Lemmas -/

theorem qualify_absolute (ns rest : List Char) : qualify ns (separator ++ rest) = rest := by
  simp [qualify, separator, dropSeparator?]

theorem enclosing_nil : enclosing [] = [[]] := by rw [enclosing]; simp

theorem enclosing_of_splitLast? {ns outer last : List Char}
    (h : splitLast? ns = some (outer, last)) : enclosing ns = ns :: enclosing outer := by
  have hns : ns ≠ [] := by rintro rfl; simp [splitLast?] at h
  rw [enclosing, if_neg hns]
  split
  · next hn => simp [hn] at h
  · next hs => rw [h] at hs; cases hs; rfl

/-- A namespace of one segment is only inside the global one. -/
theorem enclosing_of_splitLast?_none {ns : List Char} (hns : ns ≠ [])
    (h : splitLast? ns = none) : enclosing ns = [ns, []] := by
  rw [enclosing, if_neg hns]
  split
  · rfl
  · next hs => simp [h] at hs

end ScopeTree
