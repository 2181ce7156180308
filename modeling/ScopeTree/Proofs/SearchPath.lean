import ScopeTree.Proofs.ClassScope

/-!
# Search paths

A scope looks for types in its namespaces one after another, and takes the first answer it gets.
Each namespace asks outward, up to the global one, so whatever is declared globally is found from
any namespace: that is why a name stays found when the first namespace of its own takes the place
of the global path.  It can stand for something else from then on, which it cannot once the path
is not the global one any more.

    s.Lived → s.namespaces ≠ []                                  (Lived.namespaces_ne_nil)
    s.Lived → s.namespaces.Nodup                                 (Lived.nodup)
    path ≠ [""] → extendPath path ns = path or path with ns at its end
                                                                 (extendPath_cases)
    types.findClass? "" name ≠ none → types.findClass? ns name ≠ none
                                                                 (findClass?_of_global)
    what is found is still found after any edits                 (Lived.kept_findClass?_runAll)
    what a scope of a session finds it still finds later on      (Session.still_finds)
    what is found is the answer of the first namespace with one  (Lived.finds_along)
-/

namespace ScopeTree

/-! ## Specification -/

/-- The scope came about as scopes do: it was made, and then edited or registered for classes any
number of times. -/
inductive Scope.Lived : Scope → Prop
  | make (id : ScopeId) (o : ScopeOptions) (level : Option UInt32) : Lived (Scope.make id o level)
  | edit {s : Scope} (hs : Lived s) (e : Edit) : Lived (e.run s).1
  | registered {s : Scope} (hs : Lived s) (kind : ScopeKind) : Lived { s with kind }

def Edit.runAll (s : Scope) (edits : List Edit) : Scope := edits.foldl (fun s e => (e.run s).1) s

section

variable {α : Type}

/-- What is found along a path is the answer of the first of its namespaces that has any. -/
def FirstAnswer (path : List String) (answer : String → Option α) (found : Option α) : Prop :=
  (∀ d, found = some d ↔ ∃ near ns far, path = near ++ ns :: far ∧
    (∀ ns' ∈ near, answer ns' = none) ∧ answer ns = some d) ∧
  (found = none ↔ ∀ ns ∈ path, answer ns = none)

/-- What was found along the path is still found, and it is the same unless the path was the global
one. -/
def Kept (path : List String) (before after : Option α) : Prop :=
  ∀ d, before = some d → ∃ d', after = some d' ∧ (path ≠ [""] → d' = d)

theorem Kept.refl (path : List String) (found : Option α) : Kept path found found :=
  fun d hd => ⟨d, hd, fun _ => rfl⟩

theorem Kept.trans {path path' : List String} {a b c : Option α} (h : Kept path a b)
    (h' : Kept path' b c) (hpath : path ≠ [""] → path' ≠ [""]) : Kept path a c := by
  intro d hd
  obtain ⟨d₁, hd₁, hsame⟩ := h d hd
  obtain ⟨d₂, hd₂, hsame'⟩ := h' d₁ hd₁
  refine ⟨d₂, hd₂, fun hne => ?_⟩
  rw [hsame' (hpath hne), hsame hne]

end

/-! ## Which scopes there are -/

namespace Scope.Lived

variable {s : Scope}

theorem of_invariant {Q : Scope → Prop} (hQ : Catalog.ScopeInvariant Q) (hs : s.Lived) : Q s := by
  induction hs with
  | make id o level => exact hQ.make id o level
  | edit _ e ih => exact hQ.edit _ e ih
  | registered _ kind ih => exact hQ.registered _ kind ih

theorem runAll (hs : s.Lived) (edits : List Edit) : (Edit.runAll s edits).Lived := by
  induction edits generalizing s with
  | nil => exact hs
  | cons e edits ih => exact ih (hs.edit e)

end Scope.Lived

theorem Catalog.scopeInvariant_lived : ScopeInvariant Scope.Lived where
  make := .make
  edit _ e hs := hs.edit e
  registered _ kind hs := hs.registered kind

/-- The catalog of the session was come to by operations, and the scopes held outside it came about
as scopes do. -/
structure Session.Lives (s : Session) : Prop where
  reachable : s.catalog.Reachable
  detached : ∀ h ∈ s.detached, h.scope.Lived

namespace Session

variable {s : Session}

theorem lives_new {types : TypeTable} (ht : types.Built) : Lives (.new types) :=
  ⟨.new ht, by simp [new]⟩

theorem Lives.of_handle? (hs : s.Lives) {t : Target} {h : Handle} (ht : s.handle? t = some h) :
    h.scope.Lived := by
  cases t with
  | inCatalog id =>
    exact Catalog.scopeInvariant_lived.of_reachable hs.reachable id h.scope
      (Catalog.scope?_of_handle? ht)
  | detached n => exact hs.detached h (Array.mem_of_getElem? ht)

/-- Every step keeps that: copies are made of scopes that are there. -/
theorem Lives.run (hs : s.Lives) {step : Step} (hstep : step.Sound) : (s.run step).1.Lives := by
  refine ⟨.step hs.reachable hstep, fun g hg => ?_⟩
  cases heldAfter hg with
  | kept hh => exact hs.detached g hh
  | made id o level => exact .make id o level
  | copied ht => exact hs.of_handle? ht
  | @edited h hh e => exact (hs.detached h hh).edit e
  | @asked h hh => exact hs.detached h hh

theorem Lives.runAll (hs : s.Lives) {steps : List Step} (hsteps : ∀ step ∈ steps, step.Sound) :
    (s.runAll steps).Lives := by
  induction steps generalizing s with
  | nil => exact hs
  | cons step steps ih =>
    exact ih (hs.run (hsteps step List.mem_cons_self))
      fun step' h => hsteps step' (List.mem_cons_of_mem _ h)

/-- Wherever a session holds a scope, what holds of all scopes that came about as scopes do holds of
that one. -/
theorem lived_of_runAll {types : TypeTable} (ht : types.Built) {steps : List Step}
    (hsteps : ∀ step ∈ steps, step.Sound) {t : Target} {h : Handle}
    (hh : (runAll (.new types) steps).handle? t = some h) : h.scope.Lived :=
  ((lives_new ht).runAll hsteps).of_handle? hh

/-- A scope of the catalog is still there after a step, unless that begins anew, as one turn can
have left it. -/
theorem scope?_run {step : Step} (hnew : ∀ types, step ≠ .reset types) {id : ScopeId}
    {scope : Scope} (hs : s.catalog.scope? id = some scope) :
    ∃ s', (s.run step).1.catalog.scope? id = some s' ∧ Catalog.ScopeAfter scope s' := by
  cases step with
  | command cmd => exact ((Catalog.Turn.command cmd).effect s.catalog).scopesAfter.kept id scope hs
  | edit n e =>
    refine ⟨scope, ?_, .kept⟩
    simp only [run]
    split <;> exact hs
  | ask n q =>
    refine ⟨scope, ?_, .kept⟩
    simp only [run]
    split
    · exact hs
    · rw [Catalog.scope?_settleAll, hs]
  | make id o level => exact ⟨scope, hs, .kept⟩
  | copy t =>
    refine ⟨scope, ?_, .kept⟩
    simp only [run]
    split <;> exact hs
  | reset types => exact absurd rfl (hnew types)

theorem getElem?_set {held : Array Handle} {n m : Nat} {h g g' : Handle} (hn : held[n]? = some h)
    (hm : held[m]? = some g) (hafter : Catalog.ScopeAfter g.scope g'.scope) :
    ∃ h', (held.set! m g')[n]? = some h' ∧ Catalog.ScopeAfter h.scope h'.scope := by
  obtain ⟨hlt, -⟩ := Array.getElem?_eq_some_iff.1 hn
  rw [Array.set!_eq_setIfInBounds, Array.getElem?_setIfInBounds]
  by_cases hmn : m = n
  · subst hmn
    rw [hn] at hm
    cases hm
    rw [if_pos rfl, if_pos hlt]
    exact ⟨g', rfl, hafter⟩
  · rw [if_neg hmn]
    exact ⟨h, hn, .kept⟩

/-- So is a scope outside the catalog, even where the session begins anew. -/
theorem getElem?_run {step : Step} {n : Nat} {h : Handle} (hn : s.detached[n]? = some h) :
    ∃ h', (s.run step).1.detached[n]? = some h' ∧ Catalog.ScopeAfter h.scope h'.scope := by
  -- a scope that is held from now on comes behind all others
  have hpush : ∀ g, (s.detached.push g)[n]? = some h := by
    intro g
    obtain ⟨hlt, -⟩ := Array.getElem?_eq_some_iff.1 hn
    rw [Array.getElem?_push_lt hlt, ← Array.getElem?_eq_getElem hlt, hn]
  cases step with
  | command cmd => exact ⟨h, hn, .kept⟩
  | edit m e =>
    simp only [run]
    split
    · exact ⟨h, hn, .kept⟩
    · next g hm => exact getElem?_set hn hm (.edited e)
  | ask m q =>
    simp only [run]
    split
    · exact ⟨h, hn, .kept⟩
    · next g hm =>
      refine getElem?_set hn hm ?_
      split <;> exact .kept
  | make id o level => exact ⟨h, hpush _, .kept⟩
  | copy t =>
    simp only [run]
    split
    · exact ⟨h, hn, .kept⟩
    · exact ⟨h, hpush _, .kept⟩
  | reset types => exact ⟨h, hn, .kept⟩

theorem handle?_run {step : Step} (hnew : ∀ types, step ≠ .reset types) {t : Target} {h : Handle}
    (hh : s.handle? t = some h) :
    ∃ h', (s.run step).1.handle? t = some h' ∧ Catalog.ScopeAfter h.scope h'.scope := by
  cases t with
  | inCatalog id =>
    obtain ⟨s', hs', hafter⟩ := scope?_run hnew (Catalog.scope?_of_handle? hh)
    obtain ⟨h', hh', rfl⟩ := Option.map_eq_some_iff.1 hs'
    exact ⟨h', hh', hafter⟩
  | detached n => exact getElem?_run hh

end Session

/-! ## Paths -/

namespace Scope

theorem extendPath_of_mem {path : List String} {ns : String} (h : ns ∈ path) :
    extendPath path ns = path := if_pos h

/-- A path that is not the global one is only ever added to. -/
theorem extendPath_cases {path : List String} (hpath : path ≠ [""]) (ns : String) :
    extendPath path ns = path ∨ extendPath path ns = path ++ [ns] := by
  unfold extendPath
  rw [if_neg hpath]
  split
  · exact .inl rfl
  · exact .inr rfl

theorem extendPath_global (ns : String) : extendPath [""] ns = [ns] := by
  by_cases hns : ns = ""
  · rw [hns, extendPath_of_mem (List.mem_singleton.2 rfl)]
  · rw [extendPath, if_neg (by simpa using hns), if_pos rfl]

theorem extendPath_ne_iff {path : List String} {ns : String} :
    extendPath path ns ≠ path ↔ ns ∉ path := by
  refine ⟨fun hne hmem => hne (extendPath_of_mem hmem), fun hmem heq => hmem ?_⟩
  rw [← heq, extendPath, if_neg hmem]
  split <;> simp

theorem extendPath_ne_global {path : List String} (hnil : path ≠ []) (hpath : path ≠ [""])
    (ns : String) : extendPath path ns ≠ [""] := by
  rcases extendPath_cases hpath ns with h | h
  · rwa [h]
  · rw [h]
    intro heq
    exact hnil (List.append_eq_singleton_iff.1 heq |>.elim And.left fun h => by simp at h)

theorem scopeInvariant_nodup_namespaces :
    Catalog.ScopeInvariant fun s => s.namespaces.Nodup where
  make _ o _ := by
    show (o.initialNamespace.elim [""] (extendPath [""])).Nodup
    cases o.initialNamespace with
    | none => simp
    | some ns => exact nodup_extendPath (by simp) ns
  edit s e hs := by
    cases e with
    | addNamespace ns => exact nodup_extendPath hs ns
    | bind name value location =>
      simp only [Edit.run]
      split <;> exact hs
    | _ => exact hs
  registered _ _ hs := hs

end Scope

/-! ## The global fallback -/

theorem nil_mem_enclosing (ns : List Char) : [] ∈ enclosing ns := by
  induction ns using enclosing.induct with
  | case1 => simp [enclosing_nil]
  | case2 ns hns hnone => simp [enclosing_of_splitLast?_none hns hnone]
  | case3 ns hns outer last hsplit ih =>
    rw [enclosing_of_splitLast? hsplit]
    exact List.mem_cons_of_mem _ ih

theorem nameKey_mem_candidates (ns name : String) : nameKey name ∈ candidates ns name := by
  unfold candidates
  split
  · exact List.mem_singleton.2 rfl
  · exact List.mem_map.2 ⟨[], nil_mem_enclosing _, rfl⟩

theorem candidates_global (name : String) : candidates "" name = [nameKey name] := by
  unfold candidates
  split
  · rfl
  · rw [String.toList_empty, enclosing_nil]
    rfl

/-- What is found globally, or something nearer, is found from every namespace. -/
theorem findSome?_candidates_of_global {α : Type} (f : String → Option α) {name : String}
    (h : (candidates "" name).findSome? f ≠ none) (ns : String) :
    (candidates ns name).findSome? f ≠ none := by
  rw [candidates_global, List.findSome?_singleton] at h
  rw [ne_eq, List.findSome?_eq_none_iff]
  exact fun hall => h (hall _ (nameKey_mem_candidates ns name))

namespace TypeTable

theorem findClass?_of_global (t : TypeTable) (name : String) (h : t.findClass? "" name ≠ none)
    (ns : String) : t.findClass? ns name ≠ none :=
  findSome?_candidates_of_global _ h ns

theorem findDefine?_of_global (t : TypeTable) (name : String) (h : t.findDefine? "" name ≠ none)
    (ns : String) : t.findDefine? ns name ≠ none :=
  findSome?_candidates_of_global _ h ns

end TypeTable

/-! ## Looking along a path -/

section

variable {α : Type} (path : List String) (answer : String → Option α)

theorem firstAnswer_findSome? : FirstAnswer path answer (path.findSome? answer) := by
  refine ⟨fun d => ?_, List.findSome?_eq_none_iff⟩
  rw [List.findSome?_eq_some_iff]
  constructor
  · rintro ⟨near, ns, far, hpath, hns, hnear⟩
    exact ⟨near, ns, far, hpath, hnear, hns⟩
  · rintro ⟨near, ns, far, hpath, hnear, hns⟩
    exact ⟨near, ns, far, hpath, hns, hnear⟩

variable (hglobal : answer "" ≠ none → ∀ ns, answer ns ≠ none)
include hglobal

/-- The first namespace answers for all names that are declared globally. -/
theorem findSome?_of_global {first : String} {rest : List String} (h : answer "" ≠ none) :
    (first :: rest).findSome? answer = answer first := by
  obtain ⟨d, hd⟩ := Option.ne_none_iff_exists'.1 (hglobal h first)
  rw [List.findSome?_cons, hd]

theorem kept_extendPath (ns : String) :
    Kept path (path.findSome? answer) ((Scope.extendPath path ns).findSome? answer) := by
  intro d hd
  by_cases hpath : path = [""]
  · subst hpath
    rw [List.findSome?_singleton] at hd
    obtain ⟨d', hd'⟩ := Option.ne_none_iff_exists'.1 (hglobal (by simp [hd]) ns)
    refine ⟨d', ?_, fun hne => absurd rfl hne⟩
    rw [Scope.extendPath_global, List.findSome?_singleton, hd']
  · refine ⟨d, ?_, fun _ => rfl⟩
    rcases Scope.extendPath_cases hpath ns with h | h
    · rw [h, hd]
    · rw [h, List.findSome?_append, hd]
      rfl

end

namespace Scope

theorem namespaces_run_edit (s : Scope) (e : Edit) :
    (e.run s).1.namespaces = s.namespaces ∨ ∃ ns, e = .addNamespace ns := by
  cases e with
  | addNamespace ns => exact .inr ⟨ns, rfl⟩
  | bind name value location =>
    left
    simp only [Edit.run]
    split <;> rfl
  | _ => exact .inl rfl

/-- The path is not empty and not the global one, and stays so. -/
theorem namespaces_ne_global_run_edit {s : Scope} (hnil : s.namespaces ≠ [])
    (hs : s.namespaces ≠ [""]) (e : Edit) : (e.run s).1.namespaces ≠ [""] := by
  rcases namespaces_run_edit s e with h | ⟨ns, rfl⟩
  · rwa [h]
  · exact extendPath_ne_global hnil hs ns

theorem kept_run_edit {α : Type} {answer : String → Option α}
    (hglobal : answer "" ≠ none → ∀ ns, answer ns ≠ none) (s : Scope) (e : Edit) :
    Kept s.namespaces (s.namespaces.findSome? answer)
      ((e.run s).1.namespaces.findSome? answer) := by
  rcases namespaces_run_edit s e with h | ⟨ns, rfl⟩
  · rw [h]
    exact .refl _ _
  · exact kept_extendPath s.namespaces answer hglobal ns

/-- In one turn no scope loses what it finds, or comes to the global path. -/
theorem kept_scopeAfter {α : Type} (answer : String → Option α)
    (hglobal : answer "" ≠ none → ∀ ns, answer ns ≠ none) {s s' : Scope}
    (h : Catalog.ScopeAfter s s') (hnil : s.namespaces ≠ []) :
    Kept s.namespaces (s.namespaces.findSome? answer) (s'.namespaces.findSome? answer) ∧
      (s.namespaces ≠ [""] → s'.namespaces ≠ [""]) := by
  cases h with
  | kept => exact ⟨.refl _ _, fun hpath => hpath⟩
  | edited e =>
    exact ⟨kept_run_edit hglobal s e, fun hpath => namespaces_ne_global_run_edit hnil hpath e⟩
  | registered kind => exact ⟨.refl _ _, fun hpath => hpath⟩

namespace Lived

variable {s : Scope}

theorem namespaces_ne_nil (hs : s.Lived) : s.namespaces ≠ [] :=
  hs.of_invariant Catalog.scopeInvariant_namespaces_ne_nil

theorem nodup (hs : s.Lived) : s.namespaces.Nodup :=
  hs.of_invariant scopeInvariant_nodup_namespaces

/-- What is found stays found under any number of edits. -/
theorem kept_runAll {α : Type} {answer : String → Option α}
    (hglobal : answer "" ≠ none → ∀ ns, answer ns ≠ none) (hs : s.Lived) (edits : List Edit) :
    Kept s.namespaces (s.namespaces.findSome? answer)
      ((Edit.runAll s edits).namespaces.findSome? answer) := by
  induction edits generalizing s with
  | nil => exact .refl _ _
  | cons e edits ih =>
    obtain ⟨hkept, hpath⟩ := kept_scopeAfter answer hglobal (.edited e) hs.namespaces_ne_nil
    exact hkept.trans (ih (hs.edit e)) hpath

theorem kept_findClass?_runAll (hs : s.Lived) (types : TypeTable) (name : String)
    (edits : List Edit) : Kept s.namespaces (s.findClass? types name)
      ((Edit.runAll s edits).findClass? types name) :=
  hs.kept_runAll (types.findClass?_of_global name) edits

theorem kept_findDefine?_runAll (hs : s.Lived) (types : TypeTable) (name : String)
    (edits : List Edit) : Kept s.namespaces (s.findDefine? types name)
      ((Edit.runAll s edits).findDefine? types name) :=
  hs.kept_runAll (types.findDefine?_of_global name) edits

end Lived

end Scope

/-! ## Sessions -/

namespace Session

variable {s : Session}

/-- What a scope finds it still finds after any steps of a session that does not begin anew. -/
theorem kept_runAll {steps : List Step} (hnew : ∀ step ∈ steps, ∀ types, step ≠ .reset types)
    {t : Target} {h : Handle} (hh : s.handle? t = some h) (hlived : h.scope.Lived)
    (types : TypeTable) (name : String) : ∃ h', (s.runAll steps).handle? t = some h' ∧
      Kept h.scope.namespaces (h.scope.findClass? types name) (h'.scope.findClass? types name) ∧
      Kept h.scope.namespaces (h.scope.findDefine? types name)
        (h'.scope.findDefine? types name) := by
  induction steps generalizing s h with
  | nil => exact ⟨h, hh, .refl _ _, .refl _ _⟩
  | cons step steps ih =>
    obtain ⟨h₁, hh₁, hafter⟩ := handle?_run (hnew step List.mem_cons_self) hh
    have hlived₁ : h₁.scope.Lived := Catalog.scopeInvariant_lived.scopeAfter hafter hlived
    obtain ⟨h₂, hh₂, hclass, hdefine⟩ :=
      ih (fun step' h => hnew step' (List.mem_cons_of_mem _ h)) hh₁ hlived₁
    have hnil := hlived.namespaces_ne_nil
    obtain ⟨hclass₁, hpath⟩ := Scope.kept_scopeAfter (types.findClass? · name)
      (types.findClass?_of_global name) hafter hnil
    obtain ⟨hdefine₁, -⟩ := Scope.kept_scopeAfter (types.findDefine? · name)
      (types.findDefine?_of_global name) hafter hnil
    exact ⟨h₂, hh₂, hclass₁.trans hclass hpath, hdefine₁.trans hdefine hpath⟩

/-- Whatever scope a session holds by some time, in its catalog or outside it, finds later on what
it found then. -/
theorem still_finds {types : TypeTable} (ht : types.Built) {past later : List Step}
    (hpast : ∀ step ∈ past, step.Sound) (hnew : ∀ step ∈ later, ∀ types, step ≠ .reset types)
    {t : Target} {h : Handle} (hh : (runAll (.new types) past).handle? t = some h)
    (registry : TypeTable) (name : String) :
    ∃ h', (runAll (.new types) (past ++ later)).handle? t = some h' ∧
      Kept h.scope.namespaces (h.scope.findClass? registry name)
        (h'.scope.findClass? registry name) ∧
      Kept h.scope.namespaces (h.scope.findDefine? registry name)
        (h'.scope.findDefine? registry name) := by
  have happend : runAll (.new types) (past ++ later) = (runAll (.new types) past).runAll later :=
    List.foldl_append
  rw [happend]
  exact kept_runAll hnew hh (lived_of_runAll ht hpast hh) registry name

end Session

/-! ## Top theorem -/

namespace Scope.Lived

variable {s : Scope}

/-- The namespaces of a scope are at least one, and different ones.  An added namespace is answered
with whether the path has changed; a class or defined type that was found is still found after it,
and is the same one unless the path was the global one.  What is found is the answer of the first
namespace that has any, which is the very first for names that are declared globally, even where a
later one has a declaration further inside; and a defined type that is found comes before a
class. -/
theorem finds_along (hs : s.Lived) (ns : String) (types : TypeTable) (name : String) :
    let added := Edit.run s (.addNamespace ns)
    (s.namespaces ≠ [] ∧ s.namespaces.Nodup) ∧
      (added.2 = true ↔ added.1.namespaces ≠ s.namespaces) ∧
      (Kept s.namespaces (s.findClass? types name) (added.1.findClass? types name) ∧
        Kept s.namespaces (s.findDefine? types name) (added.1.findDefine? types name)) ∧
      (FirstAnswer s.namespaces (types.findClass? · name) (s.findClass? types name) ∧
        FirstAnswer s.namespaces (types.findDefine? · name) (s.findDefine? types name)) ∧
      (∀ first rest, s.namespaces = first :: rest →
        (types.findClass? "" name ≠ none →
          s.findClass? types name = types.findClass? first name) ∧
        (types.findDefine? "" name ≠ none →
          s.findDefine? types name = types.findDefine? first name)) ∧
      (∀ d, s.findDefine? types name = some d → s.lookupType? types name = some (.define d)) ∧
      (s.findDefine? types name = none →
        s.lookupType? types name = (s.findClass? types name).map .ofClass) := by
  have hclass := types.findClass?_of_global name
  have hdefine := types.findDefine?_of_global name
  refine ⟨⟨hs.namespaces_ne_nil, hs.nodup⟩, ?_,
    ⟨kept_run_edit hclass s _, kept_run_edit hdefine s _⟩,
    ⟨firstAnswer_findSome? _ _, firstAnswer_findSome? _ _⟩, fun first rest hpath => ?_,
    fun d hd => ?_, fun hnone => ?_⟩
  · show (!s.namespaces.contains ns) = true ↔ extendPath s.namespaces ns ≠ s.namespaces
    rw [extendPath_ne_iff]
    simp
  · unfold findClass? findDefine?
    rw [hpath]
    exact ⟨findSome?_of_global (types.findClass? · name) hclass,
      findSome?_of_global (types.findDefine? · name) hdefine⟩
  · rw [lookupType?, hd]
    rfl
  · rw [lookupType?, hnone]
    rfl

/-- A registry with one name globally and inside `app`. -/
def sampleWebs : TypeTable :=
  (TypeTable.empty.addClass ⟨"web", .ordinary⟩).addClass ⟨"app::web", .ordinary⟩

def sampleWithin (ns : Option String) : Scope := Scope.make ⟨0⟩ { initialNamespace := ns } none

/-- When `app` is added behind `lib`, the name still stands for the global class, which `lib` falls
back on; when it takes the place of the global path, the name stands for the class inside `app`. -/
theorem finds_along_app :
    (sampleWithin (some "lib")).Lived ∧
      (sampleWithin (some "lib")).findClass? sampleWebs "web" = some ⟨"web", .ordinary⟩ ∧
      (Edit.run (sampleWithin (some "lib")) (.addNamespace "app")).1.namespaces ≠ ["lib"] ∧
      (Edit.run (sampleWithin (some "lib")) (.addNamespace "app")).1.findClass? sampleWebs "web" =
        some ⟨"web", .ordinary⟩ ∧
      (sampleWithin none).findClass? sampleWebs "web" = some ⟨"web", .ordinary⟩ ∧
      (Edit.run (sampleWithin none) (.addNamespace "app")).1.findClass? sampleWebs "web" =
        some ⟨"app::web", .ordinary⟩ := by
  have hs : (sampleWithin (some "lib")).Lived := .make _ _ _
  obtain ⟨-, hadded, ⟨hkept, -⟩, -⟩ := hs.finds_along "app" sampleWebs "web"
  have hbefore : (sampleWithin (some "lib")).findClass? sampleWebs "web" =
      some ⟨"web", .ordinary⟩ := by decide +kernel
  obtain ⟨d, hafter, hsame⟩ := hkept _ hbefore
  rw [hsame (by decide)] at hafter
  exact ⟨hs, hbefore, hadded.1 (by decide), hafter, by decide +kernel, by decide +kernel⟩

end Scope.Lived

end ScopeTree
