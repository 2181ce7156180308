import ScopeTree.Proofs.ClassScope
import ScopeTree.Proofs.Name

/-!
# Names are found from the inside out

The registry goes by keys: a declaration stands under its name in lower case, and a name used in
a namespace is looked for under its key there, then under those of the namespaces around it, which
are cut off at the last separator each.  Said by segments: the namespace of the first `k` of them is
tried for `k = n`, ..., `1`, `0`.

    enclosing (s₁::...::sₙ) = [s₁::...::sₙ, ..., s₁, ""]         (enclosing_joined_take)
    (ofDecls decls).classes[key]? is the last class declared with that key
                                                                 (classes_ofDecls)
    findClass? is what stands under the innermost of the keys    (find_innermost)
-/

namespace ScopeTree

open Text (separator dropSeparator? splitLast? splitLast?_eq_none_iff lower)
open Interpolation (joinBehind intercalate_eq_joinBehind)

/-! ## Specification -/

/-- A name as names are compared: without one leading separator, and in lower case. -/
def foldedName (name : String) : String :=
  lower (String.ofList ((dropSeparator? name.toList).getD name.toList))

/-- The last of some declarations whose folded name is `key`. -/
def lastNamed {α : Type} (nameOf : α → String) (decls : List α) (key : String) : Option α :=
  (decls.filter fun d => foldedName (nameOf d) = key).getLast?

/-- The full form of a name in the namespace of the first `k` segments. -/
def within (segments : List String) (k : Nat) (name : String) : String :=
  "::".intercalate (segments.take k ++ [name])

/-- What is found is what stands at the greatest place, `n` at most, where anything stands. -/
def Innermost {α : Type} (n : Nat) (place : Nat → Option α) (found : Option α) : Prop :=
  (∀ d, found = some d ↔
    ∃ k, k ≤ n ∧ place k = some d ∧ ∀ j, k < j → j ≤ n → place j = none) ∧
  (found = none ↔ ∀ k, k ≤ n → place k = none)

namespace TypeTable

def declare (t : TypeTable) : TypeDecl → TypeTable
  | .define d => t.addDefine d
  | .ofClass d => t.addClass d

def ofDecls (decls : List TypeDecl) : TypeTable := decls.foldl declare empty

end TypeTable

def classesOf (decls : List TypeDecl) : List ClassDecl :=
  decls.filterMap fun
    | .ofClass d => some d
    | .define _ => none

def definesOf (decls : List TypeDecl) : List DefineDecl :=
  decls.filterMap fun
    | .ofClass _ => none
    | .define d => some d

/-! ## From the inside out -/

section

variable {α : Type} {n : Nat} {place : Nat → Option α}

/-- Where something stands at the greatest place, that is it. -/
theorem innermost_of_eq_some {d : α} (hd : place n = some d) : Innermost n place (some d) := by
  refine ⟨fun e => ⟨?_, ?_⟩, ⟨?_, fun hnone => ?_⟩⟩
  · rintro ⟨⟩
    exact ⟨n, Nat.le_refl n, hd, fun j hlt hle => by omega⟩
  · rintro ⟨k, hk, hplace, habove⟩
    rcases Nat.lt_or_eq_of_le hk with hlt | rfl
    · rw [habove n hlt (Nat.le_refl n)] at hd
      cases hd
    · rw [← hd, hplace]
  · rintro ⟨⟩
  · rw [hnone n (Nat.le_refl n)] at hd
    cases hd

theorem Innermost.succ {found : Option α} (h : Innermost n place found)
    (hnone : place (n + 1) = none) : Innermost (n + 1) place found := by
  refine ⟨fun d => ⟨fun hd => ?_, ?_⟩, ⟨fun hfound k hk => ?_, fun hall => ?_⟩⟩
  · obtain ⟨k, hk, hplace, habove⟩ := (h.1 d).1 hd
    refine ⟨k, Nat.le_succ_of_le hk, hplace, fun j hlt hle => ?_⟩
    rcases Nat.lt_or_eq_of_le hle with hj | rfl
    · exact habove j hlt (Nat.le_of_lt_succ hj)
    · exact hnone
  · rintro ⟨k, hk, hplace, habove⟩
    refine (h.1 d).2 ⟨k, ?_, hplace, fun j hlt hle => habove j hlt (Nat.le_succ_of_le hle)⟩
    rcases Nat.lt_or_eq_of_le hk with hlt | rfl
    · exact Nat.le_of_lt_succ hlt
    · rw [hnone] at hplace
      cases hplace
  · rcases Nat.lt_or_eq_of_le hk with hlt | rfl
    · exact h.2.1 hfound k (Nat.le_of_lt_succ hlt)
    · exact hnone
  · exact h.2.2 fun k hk => hall k (Nat.le_succ_of_le hk)

/-- Going through the places from the greatest down finds the innermost. -/
theorem innermost_findSome? (n : Nat) (place : Nat → Option α) :
    Innermost n place ((List.range (n + 1)).reverse.findSome? place) := by
  induction n with
  | zero =>
    cases hzero : place 0 with
    | some d =>
      have hfound : (List.range 1).reverse.findSome? place = some d := by simp [hzero]
      rw [hfound]
      exact innermost_of_eq_some hzero
    | none =>
      have hfound : (List.range 1).reverse.findSome? place = none := by simp [hzero]
      rw [hfound]
      exact ⟨by simp [hzero], by simp [hzero]⟩
  | succ n ih =>
    rw [List.range_succ, List.reverse_append, List.reverse_singleton, List.singleton_append,
      List.findSome?_cons]
    cases hlast : place (n + 1) with
    | some d => exact innermost_of_eq_some hlast
    | none => exact ih.succ hlast

end

/-! ## Namespaces -/

def joined (segments : List (List Char)) : List Char := separator.intercalate segments

theorem joined_concat {segments : List (List Char)} (hne : segments ≠ []) (s : List Char) :
    joined (segments ++ [s]) = joined segments ++ separator ++ s := by
  cases segments with
  | nil => exact absurd rfl hne
  | cons t ts =>
    show separator.intercalate (t :: (ts ++ [s])) = separator.intercalate (t :: ts) ++ _ ++ _
    rw [intercalate_eq_joinBehind, intercalate_eq_joinBehind]
    simp [joinBehind]

theorem joined_eq_nil_iff {segments : List (List Char)} (hseg : ∀ s ∈ segments, s ≠ []) :
    joined segments = [] ↔ segments = [] := by
  cases segments with
  | nil => simp [joined]
  | cons s ss =>
    have hs : s ≠ [] := hseg s List.mem_cons_self
    rw [joined, intercalate_eq_joinBehind]
    simp [hs]

/-- The last segment of a namespace is cut off first. -/
theorem enclosing_joined_concat {segments : List (List Char)} {s : List Char} (hs : s ≠ [])
    (hcolon : ':' ∉ s) :
    enclosing (joined (segments ++ [s])) =
      joined (segments ++ [s]) :: enclosing (joined segments) := by
  have hsep : ¬ separator <:+: ':' :: s := no_separator_of_no_colon hcolon
  by_cases hne : segments = []
  · have hnone : splitLast? s = none :=
      splitLast?_eq_none_iff.2 fun h => hsep (List.infix_cons h)
    have hone : joined ([] ++ [s]) = s := List.intercalate_singleton
    have hnil : joined [] = [] := List.intercalate_nil
    rw [hne, hone, hnil, enclosing_of_splitLast?_none hs hnone, enclosing_nil]
  · have hsplit : splitLast? (joined (segments ++ [s])) = some (joined segments, s) := by
      rw [joined_concat hne]
      exact splitLast?_append_separator _ hsep
    exact enclosing_of_splitLast? hsplit

theorem enclosing_joined_take {segments : List (List Char)}
    (hseg : ∀ s ∈ segments, s ≠ [] ∧ ':' ∉ s) {n : Nat} (hn : n ≤ segments.length) :
    enclosing (joined (segments.take n)) =
      (List.range (n + 1)).reverse.map fun k => joined (segments.take k) := by
  induction n with
  | zero => rw [List.take_zero]; exact enclosing_nil
  | succ n ih =>
    have hlt : n < segments.length := hn
    have htake : segments.take (n + 1) = segments.take n ++ [segments[n]] := by
      rw [List.take_add_one, List.getElem?_eq_getElem hlt]
      rfl
    obtain ⟨hs, hcolon⟩ := hseg segments[n] (List.getElem_mem hlt)
    have houter := ih (Nat.le_of_lt hlt)
    rw [htake, enclosing_joined_concat hs hcolon, ← htake, houter, @List.range_succ (n + 1),
      List.reverse_append, List.reverse_singleton, List.singleton_append, List.map_cons]

/-! ## Keys -/

theorem nameKey_eq_foldedName (name : String) : nameKey name = foldedName name := by
  unfold nameKey qualifiedKey qualify foldedName
  cases dropSeparator? name.toList <;> rfl

theorem foldedName_absolute (rest : String) : foldedName ("::" ++ rest) = lower rest := by
  rw [foldedName, dropSeparator?_absolute, Option.getD_some, String.ofList_toList]

theorem toList_within (segments : List String) (k : Nat) (name : String) :
    (within segments k name).toList =
      joined ((segments.map String.toList).take k ++ [name.toList]) := by
  rw [within, String.toList_intercalate, List.map_append, List.map_take]
  rfl

/-- The key of a plain name in a namespace is its full form there in lower case. -/
theorem qualifiedKey_joined_take {segments : List String}
    (hseg : ∀ s ∈ segments.map String.toList, s ≠ []) {name : String}
    (hname : ¬ separator <+: name.toList) (k : Nat) :
    qualifiedKey (joined ((segments.map String.toList).take k)) name.toList =
      lower (within segments k name) := by
  have hfront : ∀ s ∈ (segments.map String.toList).take k, s ≠ [] :=
    fun s hs => hseg s (List.mem_of_mem_take hs)
  have hqualify : qualify (joined ((segments.map String.toList).take k)) name.toList =
      (within segments k name).toList := by
    rw [qualify, dropSeparator?_of_plain hname, toList_within]
    by_cases hne : (segments.map String.toList).take k = []
    · have hnil : joined [] = [] := List.intercalate_nil
      have hone : joined ([] ++ [name.toList]) = name.toList := List.intercalate_singleton
      rw [hne, hone]
      exact if_pos hnil
    · rw [joined_concat hne]
      exact if_neg fun h => hne ((joined_eq_nil_iff hfront).1 h)
  rw [qualifiedKey, hqualify, String.ofList_toList]

/-! ## Declarations -/

/-- A declaration counts only where no later one has the same name. -/
theorem lastNamed_cons {α : Type} (nameOf : α → String) (d : α) (ds : List α) (key : String) :
    lastNamed nameOf (d :: ds) key =
      (lastNamed nameOf ds key).or (if foldedName (nameOf d) = key then some d else none) := by
  unfold lastNamed
  rw [List.filter_cons]
  split
  · next hkey =>
    rw [if_pos (of_decide_eq_true hkey), List.getLast?_cons]
    cases (List.filter (fun d => decide (foldedName (nameOf d) = key)) ds).getLast? <;> rfl
  · next hkey =>
    rw [if_neg fun h => hkey (decide_eq_true h), Option.or_none]

theorem getElem?_foldl_insert {α : Type} (nameOf : α → String) (ds : List α)
    (m : Std.ExtTreeMap String α) (key : String) :
    (ds.foldl (fun m d => m.insert (nameKey (nameOf d)) d) m)[key]? =
      (lastNamed nameOf ds key).or m[key]? := by
  induction ds generalizing m with
  | nil => rfl
  | cons d ds ih =>
    rw [List.foldl_cons, ih, lastNamed_cons, Std.ExtTreeMap.getElem?_insert, nameKey_eq_foldedName]
    by_cases hkey : foldedName (nameOf d) = key
    · simp [hkey]
    · simp [hkey]

namespace TypeTable

theorem classes_foldl_declare (decls : List TypeDecl) (t : TypeTable) :
    (decls.foldl declare t).classes =
      (classesOf decls).foldl (fun m d => m.insert (nameKey d.name) d) t.classes := by
  induction decls generalizing t with
  | nil => rfl
  | cons decl decls ih =>
    rw [List.foldl_cons, ih]
    cases decl <;> rfl

theorem defines_foldl_declare (decls : List TypeDecl) (t : TypeTable) :
    (decls.foldl declare t).defines =
      (definesOf decls).foldl (fun m d => m.insert (nameKey d.name) d) t.defines := by
  induction decls generalizing t with
  | nil => rfl
  | cons decl decls ih =>
    rw [List.foldl_cons, ih]
    cases decl <;> rfl

theorem classes_ofDecls (decls : List TypeDecl) (key : String) :
    (ofDecls decls).classes[key]? = lastNamed ClassDecl.name (classesOf decls) key := by
  rw [ofDecls, classes_foldl_declare, getElem?_foldl_insert ClassDecl.name]
  simp [empty]

theorem defines_ofDecls (decls : List TypeDecl) (key : String) :
    (ofDecls decls).defines[key]? = lastNamed DefineDecl.name (definesOf decls) key := by
  rw [ofDecls, defines_foldl_declare, getElem?_foldl_insert DefineDecl.name]
  simp [empty]

end TypeTable

/-! ## Candidates -/

/-- The keys of a plain name are those of its full forms from the inside out. -/
theorem candidates_of_plain {segments : List String}
    (hseg : ∀ s ∈ segments, s ≠ "" ∧ ':' ∉ s.toList) {name : String}
    (hname : ¬ separator <+: name.toList) :
    candidates ("::".intercalate segments) name =
      (List.range (segments.length + 1)).reverse.map fun k => lower (within segments k name) := by
  have hchars : ∀ s ∈ segments.map String.toList, s ≠ [] ∧ ':' ∉ s := by
    intro s hs
    obtain ⟨t, ht, rfl⟩ := List.mem_map.1 hs
    obtain ⟨hne, hcolon⟩ := hseg t ht
    exact ⟨fun h => hne (String.toList_eq_nil_iff.1 h), hcolon⟩
  have hns : ("::".intercalate segments).toList =
      joined ((segments.map String.toList).take segments.length) := by
    rw [String.toList_intercalate, List.take_of_length_le (by simp)]
    rfl
  rw [candidates, dropSeparator?_of_plain hname, hns,
    enclosing_joined_take hchars (by simp), List.map_map]
  exact List.map_congr_left fun k _ =>
    qualifiedKey_joined_take (fun s hs => (hchars s hs).1) hname k

namespace TypeTable

/-! ## Top theorem -/

/-- A plain name used in a namespace is found as the last declaration of its innermost full form
that is declared at all, and an absolute name as the last declaration of what follows the
separator, in any namespace.  Names are compared folded; classes and defined types are found in the
same way, and neither makes a difference to the other. -/
theorem find_innermost (decls : List TypeDecl) {segments : List String}
    (hseg : ∀ s ∈ segments, s ≠ "" ∧ ':' ∉ s.toList) (name : String) :
    (¬ separator <+: name.toList →
      Innermost segments.length
        (fun k => lastNamed ClassDecl.name (classesOf decls) (lower (within segments k name)))
        ((ofDecls decls).findClass? ("::".intercalate segments) name) ∧
      Innermost segments.length
        (fun k => lastNamed DefineDecl.name (definesOf decls) (lower (within segments k name)))
        ((ofDecls decls).findDefine? ("::".intercalate segments) name)) ∧
    (∀ rest, name = "::" ++ rest → ∀ ns,
      (ofDecls decls).findClass? ns name =
          lastNamed ClassDecl.name (classesOf decls) (lower rest) ∧
        (ofDecls decls).findDefine? ns name =
          lastNamed DefineDecl.name (definesOf decls) (lower rest)) ∧
    ∀ decls' ns,
      (classesOf decls' = classesOf decls →
        (ofDecls decls').findClass? ns name = (ofDecls decls).findClass? ns name) ∧
      (definesOf decls' = definesOf decls →
        (ofDecls decls').findDefine? ns name = (ofDecls decls).findDefine? ns name) := by
  refine ⟨fun hname => ?_, fun rest hrest ns => ?_, fun decls' ns => ⟨fun h => ?_, fun h => ?_⟩⟩
  · unfold findClass? findDefine?
    rw [candidates_of_plain hseg hname, List.findSome?_map, List.findSome?_map]
    simp only [Function.comp_def, classes_ofDecls, defines_ofDecls]
    exact ⟨innermost_findSome? _ _, innermost_findSome? _ _⟩
  · rw [hrest, findClass?, findDefine?, candidates_absolute, nameKey_eq_foldedName,
      foldedName_absolute, List.findSome?_singleton, List.findSome?_singleton, classes_ofDecls,
      defines_ofDecls]
    exact ⟨rfl, rfl⟩
  · unfold findClass?
    simp only [classes_ofDecls, h]
  · unfold findDefine?
    simp only [defines_ofDecls, h]

/-- Inside `app::sub` the class `Web` is the last one declared as `app::web`, not the global one. -/
theorem find_innermost_shadowed :
    (∀ s ∈ ["App", "sub"], s ≠ "" ∧ ':' ∉ s.toList) ∧
      (ofDecls [.ofClass ⟨"::app::Web", .ordinary⟩, .ofClass ⟨"web", .ordinary⟩,
        .define ⟨"app::sub::web"⟩, .ofClass ⟨"app::WEB", .node⟩]).findClass? "App::sub" "Web" =
          some ⟨"app::WEB", .node⟩ := by
  have hseg : ∀ s ∈ ["App", "sub"], s ≠ "" ∧ ':' ∉ s.toList := by decide
  obtain ⟨hplain, -⟩ := find_innermost [.ofClass ⟨"::app::Web", .ordinary⟩,
    .ofClass ⟨"web", .ordinary⟩, .define ⟨"app::sub::web"⟩, .ofClass ⟨"app::WEB", .node⟩] hseg "Web"
  refine ⟨hseg, ((hplain (by decide)).1.1 _).2 ⟨1, by decide, by decide, fun j hlt hle => ?_⟩⟩
  have hj : j = 2 := Nat.le_antisymm hle hlt
  rw [hj]
  decide

end TypeTable

end ScopeTree
