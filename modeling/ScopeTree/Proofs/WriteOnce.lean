import ScopeTree.Proofs.History
import ScopeTree.Proofs.Visibility

/-!
# Names are bound once

Of everything that happens to a catalog only two kinds of turns touch a name in a scope: those
that bind it there and those that free it.  The binding that a scope has is the first one since
the beginning, or since the name was last freed.  All attempts to bind it again in between fail,
name the place of that first one, and change nothing.

    bindingAt? (t.run c) i n = what the touch of t makes of it   (Turn.Effect.bindingAt?_eq)
    touches.foldl apply none = some b ↔ Stands touches b         (foldl_apply_eq_some_iff)
-/

namespace ScopeTree

open Text (separator)

/-- What can happen to a name in a scope: an attempt to bind it, or that it is freed. -/
inductive Touch
  | bound (b : Binding)
  | freed

/-- The binding afterwards.  One that is there stays. -/
def Touch.apply (now : Option Binding) : Touch → Option Binding
  | bound b => now.or (some b)
  | freed => none

/-- Of these touches, the binding is the first since the beginning or since the name was last
freed. -/
def Stands (touches : List Touch) (b : Binding) : Prop :=
  (∃ after, touches = .bound b :: after ∧ .freed ∉ after) ∨
    ∃ before after, touches = before ++ .freed :: .bound b :: after ∧ .freed ∉ after

/-- What an edit does to a name. -/
def Edit.touch? (name : String) : Edit → Option Touch
  | bind n value location => if n = name then some (.bound ⟨value, location⟩) else none
  | unbind n => if n = name then some .freed else none
  | _ => none

/-! ## Lemmas -/

/-- The last freeing is the first touch, or it is among the others. -/
theorem exists_freed_cons_iff {t : Touch} {touches : List Touch} {b : Binding} :
    (∃ before after, t :: touches = before ++ .freed :: .bound b :: after ∧ .freed ∉ after) ↔
      (t = .freed ∧ ∃ after, touches = .bound b :: after ∧ .freed ∉ after) ∨
        ∃ before after, touches = before ++ .freed :: .bound b :: after ∧ .freed ∉ after := by
  constructor
  · rintro ⟨before, after, he, hafter⟩
    cases before with
    | nil =>
      obtain ⟨rfl, rfl⟩ := List.cons.inj he
      exact Or.inl ⟨rfl, after, rfl, hafter⟩
    | cons t' before =>
      obtain ⟨-, rfl⟩ := List.cons.inj he
      exact Or.inr ⟨before, after, rfl, hafter⟩
  · rintro (⟨rfl, after, rfl, hafter⟩ | ⟨before, after, rfl, hafter⟩)
    · exact ⟨[], after, rfl, hafter⟩
    · exact ⟨t :: before, after, rfl, hafter⟩

/-- What touches make of a binding that is there, and of none. -/
theorem foldl_apply_eq_some {touches : List Touch} {now : Option Binding} {b : Binding} :
    touches.foldl Touch.apply now = some b ↔
      (now = some b ∧ .freed ∉ touches) ∨
        (now = none ∧ ∃ after, touches = .bound b :: after ∧ .freed ∉ after) ∨
          ∃ before after, touches = before ++ .freed :: .bound b :: after ∧ .freed ∉ after := by
  induction touches generalizing now with
  | nil => simp
  | cons t touches ih =>
    rw [List.foldl_cons, ih, exists_freed_cons_iff]
    cases t with
    | freed => simp [Touch.apply]
    | bound b' =>
      have hfirst : (∃ after, Touch.bound b' :: touches = .bound b :: after ∧ .freed ∉ after) ↔
          b' = b ∧ .freed ∉ touches := by
        constructor
        · rintro ⟨after, he, hafter⟩
          cases he
          exact ⟨rfl, hafter⟩
        · rintro ⟨rfl, htouches⟩
          exact ⟨touches, rfl, htouches⟩
      rw [hfirst]
      cases now <;> simp [Touch.apply]

theorem foldl_apply_eq_some_iff {touches : List Touch} {b : Binding} :
    touches.foldl Touch.apply none = some b ↔ Stands touches b := by
  rw [foldl_apply_eq_some]
  simp [Stands]

theorem Edit.get?_run (s : Scope) (e : Edit) (name : String) :
    (e.run s).1.bindings.get? name =
      (e.touch? name).toList.foldl Touch.apply (s.bindings.get? name) := by
  cases e with
  | bind n value location =>
    cases hb : s.bindings.bind n value location with
    | error e =>
      have hsame : (Edit.run s (.bind n value location)).1 = s := by simp only [run, hb]
      rw [hsame]
      by_cases hn : n = name
      · subst hn
        cases hget : s.bindings.get? n with
        | none => simp [Bindings.bind, hget] at hb
        | some first => simp [touch?, Touch.apply]
      · simp [touch?, hn]
    | ok bindings =>
      have hnew : (Edit.run s (.bind n value location)).1.bindings = bindings := by
        simp only [run, hb]
      rw [hnew, Bindings.get?_bind hb]
      by_cases hn : n = name
      · subst hn
        obtain ⟨hfree, -⟩ := Bindings.bind_eq_ok_iff.1 hb
        simp [touch?, Touch.apply, hfree]
      · simp [touch?, hn, Ne.symm hn]
  | unbind n =>
    show (s.bindings.erase n).get? name = _
    rw [Bindings.get?_erase]
    by_cases hn : n = name
    · simp [touch?, Touch.apply, hn]
    · simp [touch?, hn, Ne.symm hn]
  | _ => rfl

namespace Catalog

/-- The binding that a scope itself has for a name. -/
def bindingAt? (c : Catalog) (i : ScopeId) (name : String) : Option Binding :=
  (c.scope? i).bind (·.bindings.get? name)

/-- What a turn does to a name in a scope, if the scope is there. -/
def Turn.touch? (c : Catalog) (i : ScopeId) (name : String) (t : Turn) : Option Touch :=
  (t.editIn? c).bind fun (j, e) => if j = i then e.touch? name else none

/-- All that happens to a name in a scope in the course of a number of turns. -/
def touches (i : ScopeId) (name : String) : Catalog → List Turn → List Touch
  | _, [] => []
  | c, t :: turns => (t.touch? c i name).toList ++ touches i name (t.run c) turns

theorem bindingAt?_new (types : TypeTable) (i : ScopeId) (name : String) :
    (Catalog.new types).bindingAt? i name = none := by
  obtain ⟨_ | i⟩ := i
  · exact Bindings.get?_empty name
  · rfl

theorem Turn.isSome_of_editIn? {c : Catalog} {t : Turn} {id : ScopeId} {e : Edit}
    (ht : t.editIn? c = some (id, e)) : (c.scope? id).isSome := by
  unfold editIn? at ht
  split at ht
  · split at ht
    · next hsome =>
      cases ht
      exact hsome
    · cases ht
  · cases ht

theorem Turn.touch?_eq_none {c : Catalog} {t : Turn} (ht : t.editIn? c = none) (i : ScopeId)
    (name : String) : t.touch? c i name = none := by
  rw [touch?, ht]
  rfl

/-- A turn does to the binding of a name what its touch says, and nothing without one. -/
theorem Turn.Effect.bindingAt?_eq {c c' : Catalog} {t : Turn} (he : Effect c t c')
    (i : ScopeId) (name : String) :
    c'.bindingAt? i name =
      (t.touch? c i name).toList.foldl Touch.apply (c.bindingAt? i name) := by
  cases he with
  | nothing ht =>
    rw [touch?_eq_none ht]
    rfl
  | @edited id e ht =>
    have htouch : t.touch? c i name = if id = i then e.touch? name else none := by
      rw [touch?, ht]
      rfl
    rw [htouch, bindingAt?, bindingAt?, scope?_modifyScope]
    by_cases hi : i = id
    · subst hi
      obtain ⟨s, hs⟩ := Option.isSome_iff_exists.1 (isSome_of_editIn? ht)
      rw [if_pos rfl, if_pos rfl, hs]
      exact e.get?_run s name
    · rw [if_neg hi, if_neg (Ne.symm hi)]
      rfl
  | asked ids ht =>
    rw [touch?_eq_none ht, bindingAt?, scope?_settleAll]
    rfl
  | grown o level parent ht =>
    rw [touch?_eq_none ht, bindingAt?, scope?_push]
    split
    · next hi =>
      -- there was no scope of this id, and a new one binds nothing
      have hnone : c.scope? i = none := by
        rw [← Option.not_isSome_iff_eq_none, scope?_isSome_iff]
        omega
      rw [bindingAt?, hnone]
      exact Bindings.get?_empty name
    · rfl
  | @registered id d ht =>
    have hedit : t.editIn? c = none := by rw [ht]; rfl
    rw [touch?_eq_none hedit, bindingAt?, bindingAt?, scope?_setClassScope, scope?_modifyScope]
    split
    · cases c.scope? i <;> rfl
    · rfl
  | recorded ht =>
    have hedit : t.editIn? c = none := by rw [ht]; rfl
    rw [touch?_eq_none hedit]
    rfl
  | stored _ ht =>
    rw [touch?_eq_none ht]
    rfl
  | declared _ ht =>
    rw [touch?_eq_none ht]
    rfl

/-- Turn by turn, the binding of a name is what its touches made of it. -/
theorem bindingAt?_runAll (c : Catalog) (turns : List Turn) (i : ScopeId) (name : String) :
    (Turn.runAll c turns).bindingAt? i name =
      (touches i name c turns).foldl Touch.apply (c.bindingAt? i name) := by
  induction turns generalizing c with
  | nil => rfl
  | cons t turns ih =>
    rw [Turn.runAll_cons, ih, (t.effect c).bindingAt?_eq, touches, List.foldl_append]

theorem modifyScope_of_fixed {c : Catalog} {i : ScopeId} {s : Scope} (hs : c.scope? i = some s)
    {f : Scope → Scope} (hf : f s = s) : c.modifyScope i f = c := by
  have hnodes : (c.modifyScope i f).nodes = c.nodes := by
    apply Array.ext_getElem?
    intro n
    simp only [modifyScope, Array.getElem?_modify]
    split
    · next hn =>
      subst hn
      cases hnode : c.nodes[i.index]? with
      | none => rfl
      | some node =>
        have hscope : node.handle.scope = s := by
          simpa [scope?, handle?, hnode] using hs
        rw [Option.map_some, hscope, hf, ← hscope]
    · rfl
  cases c
  simp only [modifyScope] at hnodes
  simp only [modifyScope, hnodes]

theorem run_edit_bind_of_bound {c : Catalog} {i : ScopeId} {h : Handle}
    (hi : c.handle? i = some h) {name : String} {b : Binding}
    (hb : h.scope.bindings.get? name = some b) (value : Value) (location : SourceLocation) :
    Command.run c (.edit i (.bind name value location)) =
      (c, some (.error (.duplicateBinding name location b.location))) := by
  have hs := scope?_of_handle? hi
  have hrun : Edit.run h.scope (.bind name value location) =
      (h.scope, .error (.duplicateBinding name location b.location)) := by
    simp only [Edit.run, Bindings.bind, hb]
  show c.edit i _ = _
  unfold edit
  simp only [hs]
  rw [hrun, modifyScope_of_fixed hs (by rw [hrun])]

theorem run_edit_bind_of_free {c : Catalog} {i : ScopeId} {h : Handle}
    (hi : c.handle? i = some h) {name : String} (hb : h.scope.bindings.get? name = none)
    (value : Value) (location : SourceLocation) :
    (Command.run c (.edit i (.bind name value location))).2 = some (.ok ()) := by
  have hs := scope?_of_handle? hi
  show (c.edit i _).2 = _
  unfold edit
  simp only [hs, Edit.run, Bindings.bind, hb]

/-! ## Top theorem -/

/-- Whatever happens to a catalog from the beginning, the binding that a scope has for a name is
the first one since the beginning or since the name was last freed there.  While it stands every
other attempt to bind the name fails with the place of that binding and changes nothing at all,
and a raw lookup of the name, if it is plain, finds its value.  When none stands the name can be
bound. -/
theorem bound_iff_stands (types : TypeTable) (turns : List Turn) {i : ScopeId} {h : Handle}
    (hi : (Turn.runAll (.new types) turns).handle? i = some h) (name : String) :
    (∀ b, h.scope.bindings.get? name = some b ↔ Stands (touches i name (.new types) turns) b) ∧
    (∀ b, Stands (touches i name (.new types) turns) b →
      (∀ value location,
        Command.run (Turn.runAll (.new types) turns) (.edit i (.bind name value location)) =
          (Turn.runAll (.new types) turns,
            some (.error (.duplicateBinding name location b.location)))) ∧
      (¬ separator <:+: name.toList →
        (Turn.runAll (.new types) turns).lookup h .raw name = .ok (.found b.value))) ∧
    ((∀ b, ¬ Stands (touches i name (.new types) turns) b) → ∀ value location,
      (Command.run (Turn.runAll (.new types) turns) (.edit i (.bind name value location))).2 =
        some (.ok ())) := by
  have hget : h.scope.bindings.get? name =
      (touches i name (.new types) turns).foldl Touch.apply none := by
    have hrun := bindingAt?_runAll (.new types) turns i name
    rw [bindingAt?_new] at hrun
    rw [← hrun, bindingAt?, scope?, hi]
    rfl
  have hstands : ∀ b, h.scope.bindings.get? name = some b ↔
      Stands (touches i name (.new types) turns) b := by
    intro b
    rw [hget, foldl_apply_eq_some_iff]
  refine ⟨hstands, fun b hb => ⟨?_, fun hn => ?_⟩, fun hnone => ?_⟩
  · exact run_edit_bind_of_bound hi ((hstands b).2 hb)
  · have hvalue : h.scope.bindings.value? name = some b.value := by
      rw [Bindings.value?, (hstands b).2 hb]
      rfl
    rw [lookup_of_plain _ h .raw (splitName?_eq_none_iff.2 hn), lookupFrom_of_bound _ h .raw hvalue]
    cases b.value <;> rfl
  · have hfree : h.scope.bindings.get? name = none := by
      rw [Option.eq_none_iff_forall_ne_some]
      intro b hb
      exact hnone b ((hstands b).1 hb)
    exact run_edit_bind_of_free hi hfree

/-- A history in which `x` is bound in the top scope, bound again in vain, freed, bound in
another scope, and bound anew. -/
def sampleHistory : List Turn :=
  let bindX (i : ScopeId) (text : String) (line : Nat) : Turn :=
    .command (.edit i (.bind "x" (.str text) ⟨none, some line⟩))
  [bindX top "a" 1, bindX top "b" 2, .command (.edit top (.unbind "x")),
   .command (.childScope top {}), bindX ⟨1⟩ "c" 5, bindX top "d" 6, bindX top "e" 7]

/-- What counts in the end is the binding on line 6. -/
theorem bound_iff_stands_line6 :
    ∃ h, (Turn.runAll (.new .empty) sampleHistory).handle? top = some h ∧
      (Turn.runAll (.new .empty) sampleHistory).lookup h .raw "x" = .ok (.found (.str "d")) ∧
      Command.run (Turn.runAll (.new .empty) sampleHistory)
          (.edit top (.bind "x" .undef ⟨none, some 8⟩)) =
        (Turn.runAll (.new .empty) sampleHistory,
          some (.error (.duplicateBinding "x" ⟨none, some 8⟩ ⟨none, some 6⟩))) := by
  refine ⟨_, rfl, ?_⟩
  obtain ⟨-, hbound, -⟩ := bound_iff_stands .empty sampleHistory (i := top) rfl "x"
  have hstands : Stands (touches top "x" (.new .empty) sampleHistory)
      ⟨.str "d", ⟨none, some 6⟩⟩ := by
    refine Or.inr ⟨[.bound ⟨.str "a", ⟨none, some 1⟩⟩, .bound ⟨.str "b", ⟨none, some 2⟩⟩],
      [.bound ⟨.str "e", ⟨none, some 7⟩⟩], rfl, by simp⟩
  obtain ⟨hagain, hlookup⟩ := hbound _ hstands
  exact ⟨hlookup (by decide), hagain .undef _⟩

end Catalog

end ScopeTree
