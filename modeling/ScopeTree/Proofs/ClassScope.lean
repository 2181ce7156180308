import ScopeTree.Proofs.History
import ScopeTree.Proofs.Qualified

/-!
# Variables of evaluated classes

Three maps meet when a variable of a class is looked up: the registry, by the declared name of
the class; the scopes of classes, by the name under which the class was registered; and the
qualifier as it is written in the reference.  All of them go by the key of a name, which has no
leading separator and no letter case, so they agree however each name is spelled.

    t.Built → t.classes[k]? = some d → nameKey d.name = k        (TypeTable.Built.nameKey_eq)
    findClass? s types ("::" ++ n) = types.classes[nameKey n]?   (Scope.findClass?_absolute)
    classScopes[k]? is what the last turn that records k left    (Turn.Effect.classScopes_eq)

So an absolute reference to a variable of a registered class is answered, from every scope, by
the scope of that class, as long as some class of that key is declared.
-/

namespace ScopeTree

open Text (separator splitLast? dropSeparator? dropSeparator?_eq_some_iff splitLast?_eq_none_iff)

/-! ## Absolute names -/

/-- The cut is at the separator that no other one follows, not even with its first colon. -/
theorem splitLast?_append_separator (q : List Char) {s : List Char}
    (hs : ¬ separator <:+: ':' :: s) : splitLast? (q ++ separator ++ s) = some (q, s) := by
  induction q with
  | nil =>
    show splitLast? (':' :: ':' :: s) = some ([], s)
    rw [splitLast?, splitLast?_eq_none_iff.2 hs]
    rfl
  | cons c q ih =>
    show splitLast? (c :: (q ++ separator ++ s)) = some (c :: q, s)
    rw [splitLast?, ih]

theorem no_separator_of_no_colon {s : List Char} (hs : ':' ∉ s) : ¬ separator <:+: ':' :: s := by
  intro h
  apply hs
  rcases List.infix_cons_iff.1 h with hfront | hinside
  · have hcolon : [':'] <+: s := (List.cons_prefix_cons.1 hfront).2
    exact hcolon.subset List.mem_cons_self
  · exact hinside.subset List.mem_cons_self

/-- A short name without colons comes off behind the last separator. -/
theorem Catalog.splitName?_append (q : String) {s : String} (hs : ':' ∉ s.toList) :
    splitName? (q ++ "::" ++ s) = some (q, s) := by
  have hl : (q ++ "::" ++ s).toList = q.toList ++ separator ++ s.toList := by
    rw [String.toList_append, String.toList_append]
    rfl
  rw [splitName?, hl, splitLast?_append_separator _ (no_separator_of_no_colon hs)]
  simp

theorem dropSeparator?_absolute (name : String) :
    dropSeparator? ("::" ++ name).toList = some name.toList := by
  rw [dropSeparator?_eq_some_iff, String.toList_append]
  rfl

theorem dropSeparator?_of_plain {cs : List Char} (h : ¬ separator <+: cs) :
    dropSeparator? cs = none := by
  rw [Option.eq_none_iff_forall_ne_some]
  intro rest hrest
  exact h ⟨rest, (dropSeparator?_eq_some_iff.1 hrest).symm⟩

theorem nameKey_absolute {name : String} (hn : ¬ separator <+: name.toList) :
    nameKey ("::" ++ name) = nameKey name := by
  unfold nameKey qualifiedKey qualify
  rw [dropSeparator?_absolute, dropSeparator?_of_plain hn]
  rfl

/-- An absolute name has the same key in every namespace, and no other. -/
theorem candidates_absolute (ns name : String) :
    candidates ns ("::" ++ name) = [nameKey ("::" ++ name)] := by
  unfold candidates
  rw [dropSeparator?_absolute]

namespace TypeTable

/-- The class is declared, under whatever key. -/
def Declares (t : TypeTable) (d : ClassDecl) : Prop := ∃ key : String, t.classes[key]? = some d

/-- Declarations stand under the keys of their names. -/
theorem Built.nameKey_eq {t : TypeTable} (ht : t.Built) {key : String} {d : ClassDecl}
    (hd : t.classes[key]? = some d) : nameKey d.name = key := by
  induction ht with
  | empty => simp [TypeTable.empty] at hd
  | @addClass t _ d' ih =>
    have hins : (t.addClass d').classes = t.classes.insert (nameKey d'.name) d' := rfl
    rw [hins, Std.ExtTreeMap.getElem?_insert] at hd
    split at hd
    · next hkey =>
      cases hd
      exact Std.compare_eq_iff_eq.1 hkey
    · exact ih hd
  | addDefine _ _ ih => exact ih hd

theorem findClass?_absolute (t : TypeTable) (ns name : String) :
    t.findClass? ns ("::" ++ name) = t.classes[nameKey ("::" ++ name)]? := by
  rw [findClass?, candidates_absolute, List.findSome?_singleton]

end TypeTable

/-- Which namespaces a scope looks in makes no difference to an absolute name. -/
theorem Scope.findClass?_absolute (s : Scope) (hs : s.namespaces ≠ []) (types : TypeTable)
    {name : String} (hn : ¬ separator <+: name.toList) :
    s.findClass? types ("::" ++ name) = types.classes[nameKey name]? := by
  obtain ⟨ns, path, hpath⟩ := List.exists_cons_of_ne_nil hs
  unfold findClass?
  simp only [TypeTable.findClass?_absolute, nameKey_absolute hn]
  rw [hpath, List.findSome?_cons]
  cases types.classes[nameKey name]? with
  | some d => rfl
  | none => simp

namespace Catalog

/-! ## Invariants -/

/-- The registry of a catalog is always one filled by declarations. -/
theorem invariant_types_built : Invariant fun c => c.types.Built where
  new _ ht := ht
  exchange _ _ ht _ := ht
  edit c id e hc := by
    unfold Catalog.edit
    split <;> exact hc
  settleAt _ _ hc := hc
  newScope _ _ _ _ _ h hc := by
    obtain ⟨level, -, -, -, rfl, -⟩ := newScope_eq_ok h
    exact hc
  registerClass _ _ _ _ h hc := by
    obtain ⟨-, -, rfl⟩ := registerClass_eq_ok h
    exact hc
  registerResource _ _ _ _ _ h hc := by
    obtain ⟨s, -, -, rfl⟩ := registerResource_eq_ok h
    exact hc
  storeResource _ _ _ hc := hc
  registerOverride _ _ hc := hc
  setClassScope _ _ _ hc := hc
  addClass _ d hc := .addClass hc d
  addDefine _ d hc := .addDefine hc d

theorem Reachable.types_built {c : Catalog} (hc : Reachable c) : c.types.Built :=
  invariant_types_built.of_reachable hc

/-- Every scope looks for types in some namespace. -/
def HasPaths (c : Catalog) : Prop := ∀ i s, c.scope? i = some s → s.namespaces ≠ []

theorem scopeInvariant_namespaces_ne_nil : ScopeInvariant fun s => s.namespaces ≠ [] where
  make _ o _ := by
    show o.initialNamespace.elim [""] (Scope.extendPath [""]) ≠ []
    cases o.initialNamespace with
    | none => simp
    | some ns => exact Scope.extendPath_ne_nil (by simp) ns
  edit s e hs := by
    cases e with
    | addNamespace ns => exact Scope.extendPath_ne_nil hs ns
    | bind name value location =>
      simp only [Edit.run]
      split <;> exact hs
    | _ => exact hs
  registered _ _ hs := hs

theorem Reachable.hasPaths {c : Catalog} (hc : Reachable c) : HasPaths c :=
  scopeInvariant_namespaces_ne_nil.of_reachable hc

/-! ## The scope of a class -/

/-- The turn records a scope for the class of this key. -/
def Turn.Records (key : String) : Turn → Prop
  | command (.registerClass _ d) => nameKey d.name = key
  | command (.setClassScope className _) => nameKey className = key
  | _ => False

theorem classScopes_setClassScope (c : Catalog) (className : String) (id : ScopeId)
    (key : String) :
    (c.setClassScope className id).classScopes[key]? =
      if nameKey className = key then some id else c.classScopes[key]? := by
  have hins : (c.setClassScope className id).classScopes =
      c.classScopes.insert (nameKey className) id := rfl
  rw [hins, Std.ExtTreeMap.getElem?_insert]
  simp only [Std.compare_eq_iff_eq]

theorem Turn.Effect.classScopes_eq {c c' : Catalog} {t : Turn} (he : Effect c t c')
    {key : String} (ht : ¬ t.Records key) : c'.classScopes[key]? = c.classScopes[key]? := by
  cases he with
  | nothing _ => rfl
  | edited _ => rfl
  | asked _ _ => rw [classScopes_settleAll]
  | grown _ _ _ _ => rfl
  | @registered id d heq =>
    subst heq
    have hne : nameKey d.name ≠ key := ht
    rw [classScopes_setClassScope, if_neg hne]
    rfl
  | @recorded className id heq =>
    subst heq
    have hne : nameKey className ≠ key := ht
    rw [classScopes_setClassScope, if_neg hne]
  | stored _ _ => rfl
  | declared _ _ => rfl

/-- The scope of a class stays where it is and what it is until the class is recorded again. -/
theorem Turn.classScope_runAll {key : String} {i : ScopeId} {turns : List Turn}
    (hturns : ∀ t ∈ turns, ¬ t.Records key) {c : Catalog} (hi : i.index < c.count)
    (hc : c.classScopes[key]? = some i) :
    i.index < (runAll c turns).count ∧ (runAll c turns).classScopes[key]? = some i := by
  refine runAll_keeps (P := fun c => i.index < c.count ∧ c.classScopes[key]? = some i)
    (fun t ht c hc => ?_) ⟨hi, hc⟩
  have heffect := t.effect c
  have hcount := heffect.count_le
  refine ⟨by omega, ?_⟩
  rw [heffect.classScopes_eq (hturns t ht)]
  exact hc.2

theorem classScope_of_registerClass {c c' : Catalog} {i : ScopeId} {d : ClassDecl}
    (h : c.registerClass i d = .ok c') :
    i.index < c'.count ∧ c'.classScopes[nameKey d.name]? = some i := by
  obtain ⟨-, hi, rfl⟩ := registerClass_eq_ok h
  constructor
  · rwa [count_setClassScope, count_modifyScope]
  · rw [classScopes_setClassScope, if_pos rfl]

theorem Reachable.of_registerClass {c c' : Catalog} (hc : Reachable c) {i : ScopeId}
    {d : ClassDecl} (h : c.registerClass i d = .ok c') : Reachable c' := by
  have hrun : Turn.run c (.command (.registerClass i d)) = c' := by
    show (Command.orUnchanged c ((c.registerClass i d).map (·, ()))).1 = c'
    rw [h]
    rfl
  rw [← hrun]
  exact hc.run_turn trivial

/-- An absolute name leads to the scope recorded for its key, if a class of that key is
declared: the declaration found has the same key, whatever its name looks like. -/
theorem Reachable.jumpTarget_absolute {c : Catalog} (hc : Reachable c) {i j : ScopeId}
    {g h : Handle} (hg : c.handle? i = some g) (hj : c.handle? j = some h) {className : String}
    (hn : ¬ separator <+: className.toList)
    (hscope : c.classScopes[nameKey className]? = some i) {decl : ClassDecl}
    (hdecl : c.types.Declares decl) (hkey : nameKey decl.name = nameKey className)
    (name : String) : c.jumpTarget h ("::" ++ className) name = .ok g := by
  obtain ⟨key, hdecl⟩ := hdecl
  have hclass : c.types.classes[nameKey className]? = some decl := by
    rw [← hkey, hc.types_built.nameKey_eq hdecl]
    exact hdecl
  have hpath : h.scope.namespaces ≠ [] :=
    hc.hasPaths j h.scope (scope?_of_handle? hj)
  have hfound : h.scope.findClass? c.types ("::" ++ className) = some decl :=
    (h.scope.findClass?_absolute hpath _ hn).trans hclass
  have hrecorded : c.classScope? decl.name = some i := by
    rw [classScope?, hkey]
    exact hscope
  have hq : "::" ++ className ≠ "" := by simp
  rw [jumpTarget, if_neg hq, classOrigin]
  simp only [hfound, hrecorded, hg]

/-! ## Top theorem -/

/-- Once a scope has been registered for a class, an absolute reference to a variable of that
class is answered by that scope for the short name.  It does not matter from where the variable
is looked up, what has happened since, or how the declaration of the class spells its name; only
that the class was not recorded anew, and that it is declared. -/
theorem lookup_absolute_of_registered {c c' : Catalog} (hc : Reachable c) {i : ScopeId}
    {d : ClassDecl} (hd : ¬ separator <+: d.name.toList) (hreg : c.registerClass i d = .ok c')
    {turns : List Turn} (hsound : ∀ t ∈ turns, t.Sound)
    (hturns : ∀ t ∈ turns, ¬ t.Records (nameKey d.name)) {decl : ClassDecl}
    (hdecl : (Turn.runAll c' turns).types.Declares decl) (hkey : nameKey decl.name = nameKey d.name)
    {j : ScopeId} {h : Handle} (hj : (Turn.runAll c' turns).handle? j = some h)
    (mode : LookupMode) {y : String} (hy : ':' ∉ y.toList) :
    ∃ g a, (Turn.runAll c' turns).handle? i = some g ∧
      (Turn.runAll c' turns).lookup g mode y = .ok a ∧
      (Turn.runAll c' turns).lookup h mode ("::" ++ d.name ++ "::" ++ y) = .ok a := by
  have hlater : Reachable (Turn.runAll c' turns) := (hc.of_registerClass hreg).runTurns hsound
  obtain ⟨hi, hrecorded⟩ := classScope_of_registerClass hreg
  obtain ⟨hcount, hscope⟩ := Turn.classScope_runAll hturns hi hrecorded
  obtain ⟨g, hg⟩ := exists_handle?_of_index_lt hcount
  have hsplit := splitName?_append ("::" ++ d.name) hy
  have hjump := hlater.jumpTarget_absolute hg hj hd hscope hdecl hkey
    ("::" ++ d.name ++ "::" ++ y)
  obtain ⟨a, ha⟩ := hlater.isForest.exists_lookup hg mode (splitName?_short hsplit)
  exact ⟨g, a, hg, ha, (lookup_of_jumpTarget hsplit hjump).trans ha⟩

/-- The sample after its lowest scope has been registered for the class `WEB`. -/
def sampleRegistered : Catalog :=
  Turn.run sample (.command (.registerClass ⟨2⟩ ⟨"WEB", .ordinary⟩))

/-- What happens to it later: the class is declared anew in another spelling, the scope gets a
variable, another class is recorded, and a scope with a namespace of its own is made. -/
def sampleLater : List Turn :=
  [.command (.addClass ⟨"::weB", .node⟩),
   .command (.edit ⟨2⟩ (.bind "y" (.str "z") .unknown)),
   .command (.setClassScope "Webs" ⟨9⟩),
   .command (.childScope top { initialNamespace := some "other" })]

/-- From the new scope `::WEB::y` is the variable of the scope registered last. -/
theorem lookup_absolute_respelled :
    sample.registerClass ⟨2⟩ ⟨"WEB", .ordinary⟩ = .ok sampleRegistered ∧
      ∃ h, (Turn.runAll sampleRegistered sampleLater).handle? ⟨3⟩ = some h ∧
        (Turn.runAll sampleRegistered sampleLater).lookup h .raw "::WEB::y" =
          .ok (.found (.str "z")) := by
  have hreg : sample.registerClass ⟨2⟩ ⟨"WEB", .ordinary⟩ = .ok sampleRegistered := rfl
  refine ⟨hreg, _, rfl, ?_⟩
  have hturns : ∀ t ∈ sampleLater, t.Sound ∧ ¬ t.Records (nameKey "WEB") := by
    have hother : nameKey "Webs" ≠ nameKey "WEB" := by decide
    simp [sampleLater, Turn.Sound, Turn.Records, hother]
  have hdecl : (Turn.runAll sampleRegistered sampleLater).types.Declares ⟨"::weB", .node⟩ :=
    ⟨"web", by decide⟩
  obtain ⟨g, a, hg, ha, hlookup⟩ := lookup_absolute_of_registered reachable_sample
    (by decide) hreg (fun t ht => (hturns t ht).1) (fun t ht => (hturns t ht).2) hdecl
    (by decide) (j := ⟨3⟩) rfl .raw (y := "y") (by decide)
  have hz : a = .found (.str "z") := by
    cases hg
    cases ha
    rfl
  rw [← hz]
  exact hlookup

end Catalog

end ScopeTree
