import ScopeTree.Proofs.Qualified

/-!
# The parent that a scope keeps

A scope that is held outside the catalog asks for its parent when it first has to know it, and
stands by what it was told: not only while the catalog grows, but also when another catalog takes
its place, where the parent may be somebody else or nobody.  Only questions that lead up from the
scope make it ask.  A lookup does when the scope does not bind the plain name, or when the name is
looked for in the root; one for a variable of a class does not, since it goes on from the scope of
that class.

    (q.asking c h).self = q.needsParent c h                      (Query.asking_self)
    q.needsParent c h → q.answer c h goes by c.parentId h only   (Query.answer_eq_of_parentId_eq)
    ¬ q.needsParent c h → what h has kept makes no difference
                                                             (Query.answer_eq_of_not_needsParent)
    the link after a run is what was told first, if anything
                                                                 (Session.exists_detached_runAll)
-/

namespace ScopeTree

/-! ## Specification -/

/-- A lookup of the name leads up from the scope: it is a plain name that the scope does not bind,
or one that is looked for in the root. -/
def Scope.leavesFor (s : Scope) (name : String) : Bool :=
  match Catalog.splitName? name with
  | none => (s.bindings.value? name).isNone
  | some (qualifier, _) => qualifier = ""

/-- The scope has to know its parent for the answer. -/
def Query.needsParent (c : Catalog) (h : Handle) : Query → Bool
  | parentId | parentScope | topScope | visibleVariables _ | collectDefaults _ | effectiveTags =>
    true
  | lookup name _ | lookupString name => h.scope.leavesFor name
  | interpolate text _ =>
    (Interpolation.namesAsked (c.lookupString h) (Interpolation.pieces text.toList)).any
      h.scope.leavesFor

/-- Whatever leads up from the scope is answered with this error. -/
structure FailsAbove (c : Catalog) (h : Handle) (e : ScopeError) : Prop where
  parentScope : Query.parentScope.answer c h = .error e
  topScope : Query.topScope.answer c h = .error e
  visibleVariables (recursive : Bool) : (Query.visibleVariables recursive).answer c h = .error e
  collectDefaults (typeName : String) : (Query.collectDefaults typeName).answer c h = .error e
  effectiveTags : Query.effectiveTags.answer c h = .error e
  lookup (name : String) (mode : LookupMode) : h.scope.leavesFor name = true →
    (Query.lookup name mode).answer c h = .error e
  lookupString (name : String) : h.scope.leavesFor name = true →
    (Query.lookupString name).answer c h = .error e

namespace Session

/-- What can happen to a session: a step, or that another catalog takes the place of its own. -/
inductive Visit
  | step (st : Step)
  | exchange (c : Catalog)

def Visit.run (s : Session) : Visit → Session
  | step st => (s.run st).1
  | exchange c => { s with catalog := c }

def Visit.runAll (s : Session) (visits : List Visit) : Session := visits.foldl run s

/-- What a visit tells the detached scope of this number about its parent: what the catalog says,
if it is asked something for which it has to know it. -/
def Visit.tells? (s : Session) (n : Nat) : Visit → Option (Option ScopeId)
  | step (.ask m q) =>
    if m = n then
      s.detached[n]?.bind fun h =>
        if q.needsParent s.catalog h then some (s.catalog.parentOf h.scope.id) else none
    else none
  | _ => none

/-- What a detached scope is told first about its parent, if it is told anything. -/
def told (n : Nat) : Session → List Visit → Option (Option ScopeId)
  | _, [] => none
  | s, v :: visits => (v.tells? s n).or (told n (v.run s) visits)

/-- How a detached scope deals with what it has kept of its parent. -/
structure StandsBy (s : Session) (n : Nat) (h : Handle) : Prop where
  /-- A question that needs the parent is answered by the one that was kept, and otherwise by the
  one of the catalog, which is kept then. -/
  asked (q : Query) : q.needsParent s.catalog h = true →
    let kept : Handle := ⟨h.scope, .settled (h.link.resolve (s.catalog.parentOf h.scope.id))⟩
    (s.run (.ask n q)).2 = some (q.answer s.catalog kept) ∧
      (s.run (.ask n q)).1.detached[n]? = some kept
  /-- Any other question is answered as it would be whatever had been kept, and nothing is kept. -/
  passed (q : Query) : q.needsParent s.catalog h = false →
    (∀ link, (s.run (.ask n q)).2 = some (q.answer s.catalog ⟨h.scope, link⟩)) ∧
      (s.run (.ask n q)).1.detached[n]? = some h
  /-- An edit is one of the scope alone. -/
  edited (e : Edit) : (s.run (.edit n e)).2 = some (e.run h.scope).2 ∧
    (s.run (.edit n e)).1.detached[n]? = some ⟨(e.run h.scope).1, h.link⟩
  /-- A copy has kept the same. -/
  copied : (s.run (.copy (.detached n))).1.detached[n]? = some h ∧
    (s.run (.copy (.detached n))).1.detached[s.detached.size]? = some h
  /-- A kept parent that the catalog does not have is an internal error for whatever leads up from
  the scope. -/
  lost (p : ScopeId) : h.link = .settled (some p) → s.catalog.handle? p = none →
    FailsAbove s.catalog h (.internal (.missingParent p h.scope.text))

end Session

/-! ## Climbs from one scope -/

namespace Catalog

theorem passed_eq_nil_of_found {α : Type} (c : Catalog) (find : Scope → Option α) (fuel : Nat)
    {h : Handle} {a : α} (hf : find h.scope = some a) :
    (c.climbWithin find fuel h).passed = [] := by
  cases fuel <;> rw [climbWithin, hf]

/-- A scope asks for its parent unless something is found in it at once. -/
theorem fromSelf_climb_self {α : Type} (c : Catalog) (find : Scope → Option α) (h : Handle) :
    (Asking.fromSelf (c.climb find h).passed).self = (find h.scope).isNone := by
  cases hf : find h.scope with
  | some a =>
    rw [climb, passed_eq_nil_of_found c find _ hf]
    rfl
  | none =>
    have hhead := climbWithin_passed_head c find c.count h hf
    rw [climb]
    generalize (c.climbWithin find c.count h).passed = passed at hhead
    cases passed with
    | nil => cases hhead
    | cons g above => rfl

theorem askingFor_self (c : Catalog) (h : Handle) (name : String) :
    (Query.askingFor c h name).self = h.scope.leavesFor name := by
  unfold Query.askingFor Scope.leavesFor
  cases splitName? name with
  | none => exact fromSelf_climb_self c (·.bindings.value? name) h
  | some parts =>
    obtain ⟨qualifier, short⟩ := parts
    by_cases hq : qualifier = ""
    · simp only [hq, if_pos, decide_true]
      exact fromSelf_climb_self c (fun _ => (none : Option Empty)) h
    · simp only [hq, if_neg, not_false_eq_true, decide_false]
      cases c.classOrigin h.scope qualifier name <;> rfl

end Catalog

theorem Query.asking_self (c : Catalog) (h : Handle) (q : Query) :
    (q.asking c h).self = q.needsParent c h := by
  have hchain : (Asking.fromSelf (c.climbAll h).passed).self = true :=
    Catalog.fromSelf_climb_self c (fun _ => (none : Option Empty)) h
  cases q with
  | parentId => rfl
  | parentScope => rfl
  | topScope => exact hchain
  | collectDefaults typeName => exact hchain
  | effectiveTags => exact hchain
  | visibleVariables recursive =>
    cases recursive with
    | true => exact hchain
    | false => rfl
  | lookup name mode => exact Catalog.askingFor_self c h name
  | lookupString name => exact Catalog.askingFor_self c h name
  | interpolate text location =>
    show (List.map (askingFor c h) _).any (·.self) = List.any _ _
    rw [List.any_map]
    exact congrArg (List.any _) (funext fun name => Catalog.askingFor_self c h name)

/-! ## The first step of a climb -/

namespace Catalog

section

variable {α : Type} {c : Catalog} {find : Scope → Option α} {h : Handle} {p : ScopeId}
variable (hf : find h.scope = none)
include hf

theorem climb_of_root (hp : c.parentId h = none) : c.climb find h = ⟨[h], .root⟩ := by
  unfold climb
  cases c.count <;> rw [climbWithin] <;> simp only [hf, hp]

theorem climb_of_lost (hp : c.parentId h = some p) (hlost : c.handle? p = none) :
    c.climb find h = ⟨[h], .lost h p⟩ := by
  unfold climb
  cases c.count <;> rw [climbWithin] <;> simp only [hf, hp, hlost]

theorem climb_of_up (hp : c.parentId h = some p) {up : Handle} (hup : c.handle? p = some up) :
    c.climb find h = ⟨h :: (c.climbWithin find (c.count - 1) up).passed,
      (c.climbWithin find (c.count - 1) up).stop⟩ := by
  have hcount := index_lt_of_handle? hup
  unfold climb
  cases hfuel : c.count with
  | zero => omega
  | succ fuel =>
    rw [climbWithin]
    simp only [hf, hp, hup]
    rfl

end

theorem chain_of_lost {c : Catalog} {h : Handle} {p : ScopeId} (hp : c.parentId h = some p)
    (hlost : c.handle? p = none) : c.chain h = .error (lostParent h p) := by
  have hclimb : c.climbAll h = ⟨[h], .lost h p⟩ := climb_of_lost rfl hp hlost
  simp only [chain, hclimb]

/-- The chain of a scope is the scope and a chain that only its parent decides. -/
theorem exists_chain_eq (c : Catalog) (s : Scope) (p : Option ScopeId) :
    ∃ above : Except ScopeError (List Handle),
      ∀ l, c.parentId ⟨s, l⟩ = p → c.chain ⟨s, l⟩ = above.map (⟨s, l⟩ :: ·) := by
  cases p with
  | none =>
    refine ⟨.ok [], fun l hl => ?_⟩
    have hclimb : c.climbAll ⟨s, l⟩ = _ := climb_of_root rfl hl
    simp only [chain, hclimb]
    rfl
  | some p =>
    cases hup : c.handle? p with
    | none => exact ⟨.error (.internal (.missingParent p s.text)), fun l hl => chain_of_lost hl hup⟩
    | some up =>
      have hclimb : ∀ l, c.parentId ⟨s, l⟩ = some p → c.climbAll ⟨s, l⟩ = _ := fun l hl =>
        climb_of_up rfl hl hup
      -- how the climb goes on from the parent no longer depends on the link
      generalize c.climbWithin (fun _ => (none : Option Empty)) (c.count - 1) up = rest at hclimb
      obtain ⟨passed, stop⟩ := rest
      cases stop with
      | found g a => exact a.elim
      | root =>
        refine ⟨.ok passed, fun l hl => ?_⟩
        simp only [chain, hclimb l hl]
        rfl
      | lost child parent =>
        refine ⟨.error (lostParent child parent), fun l hl => ?_⟩
        simp only [chain, hclimb l hl]
        rfl
      | endless child =>
        refine ⟨.error (.internal (.endlessChain child.scope.text)), fun l hl => ?_⟩
        simp only [chain, hclimb l hl]
        rfl

/-! ## What an answer goes by -/

section

variable {c : Catalog} {s : Scope} {l l' : ParentLink}
variable (hl : c.parentId ⟨s, l⟩ = c.parentId ⟨s, l'⟩)
include hl

theorem lookupFrom_eq_of_parentId_eq (mode : LookupMode) (name : String) :
    c.lookupFrom ⟨s, l⟩ mode name = c.lookupFrom ⟨s, l'⟩ mode name := by
  cases hv : s.bindings.value? name with
  | some value => rw [lookupFrom_of_bound c ⟨s, l⟩ mode hv, lookupFrom_of_bound c ⟨s, l'⟩ mode hv]
  | none =>
    unfold lookupFrom climbToBinding
    cases hp : c.parentId ⟨s, l'⟩ with
    | none => rw [climb_of_root hv (hl.trans hp), climb_of_root hv hp]
    | some p =>
      cases hup : c.handle? p with
      | none =>
        rw [climb_of_lost hv (hl.trans hp) hup, climb_of_lost hv hp hup]
        rfl
      | some up => rw [climb_of_up hv (hl.trans hp) hup, climb_of_up hv hp hup]

theorem lookup_eq_of_parentId_eq (mode : LookupMode) (name : String) :
    c.lookup ⟨s, l⟩ mode name = c.lookup ⟨s, l'⟩ mode name := by
  cases hn : splitName? name with
  | none =>
    rw [lookup_of_plain _ _ mode hn, lookup_of_plain _ _ mode hn]
    exact lookupFrom_eq_of_parentId_eq hl mode name
  | some parts =>
    obtain ⟨qualifier, short⟩ := parts
    rw [lookup_of_splitName? _ _ mode hn, lookup_of_splitName? _ _ mode hn]
    unfold jumpTarget
    by_cases hq : qualifier = ""
    · obtain ⟨above, habove⟩ := c.exists_chain_eq s (c.parentId ⟨s, l'⟩)
      rw [if_pos hq, if_pos hq, topScope, topScope, habove l hl, habove l' rfl]
      cases above with
      | error e => rfl
      | ok above =>
        cases above with
        | cons g above => rfl
        | nil =>
          -- the scope is the root itself
          have hshort := splitName?_short hn
          show c.lookup ⟨s, l⟩ mode short = c.lookup ⟨s, l'⟩ mode short
          rw [lookup_of_plain _ _ mode hshort, lookup_of_plain _ _ mode hshort]
          exact lookupFrom_eq_of_parentId_eq hl mode short
    · rw [if_neg hq, if_neg hq]

end

end Catalog

/-- An answer goes by the parent that the scope knows, and not by where it knows it from. -/
theorem Query.answer_eq_of_parentId_eq {c : Catalog} {s : Scope} {l l' : ParentLink}
    (hl : c.parentId ⟨s, l⟩ = c.parentId ⟨s, l'⟩) (q : Query) :
    q.answer c ⟨s, l⟩ = q.answer c ⟨s, l'⟩ := by
  have hstring : c.lookupString ⟨s, l⟩ = c.lookupString ⟨s, l'⟩ := by
    funext name
    rw [Catalog.lookupString, Catalog.lookupString,
      Catalog.lookup_eq_of_parentId_eq hl .asString name]
  -- one chain above the scope serves both links
  obtain ⟨above, habove⟩ := c.exists_chain_eq s (c.parentId ⟨s, l'⟩)
  have hchain := habove l hl
  have hchain' := habove l' rfl
  cases q with
  | parentId => exact hl
  | lookup name mode => exact Catalog.lookup_eq_of_parentId_eq hl mode name
  | lookupString name => exact congrFun hstring name
  | interpolate text location =>
    show Interpolation.evaluate _ _ _ = Interpolation.evaluate _ _ _
    rw [hstring]
  | parentScope =>
    simp only [answer, Catalog.parentScope, hl]
    cases c.parentId ⟨s, l'⟩ with
    | none => rfl
    | some p =>
      dsimp only
      cases c.handle? p <;> rfl
  | topScope =>
    simp only [answer, Catalog.topScope, hchain, hchain']
    cases above with
    | error e => rfl
    | ok above => cases above <;> rfl
  | visibleVariables recursive =>
    simp only [answer, Catalog.visibleVariables, hchain, hchain', Catalog.parentScope, hl]
    cases recursive with
    | true => cases above <;> rfl
    | false =>
      cases c.parentId ⟨s, l'⟩ with
      | none => rfl
      | some p =>
        dsimp only
        cases c.handle? p <;> rfl
  | collectDefaults typeName =>
    simp only [answer, Catalog.collectDefaults, hchain, hchain']
    cases above <;> rfl
  | effectiveTags =>
    simp only [answer, Catalog.effectiveTags, hchain, hchain']
    cases above <;> rfl

/-! ## What an answer does not go by -/

/-- Only the names that are asked for on the way have a say. -/
theorem Interpolation.ofPieces_congr {look look' : String → Except ScopeError String}
    (whole : String) (location : SourceLocation) {ps : List Piece}
    (h : ∀ name ∈ namesAsked look ps, look name = look' name) :
    ofPieces look whole location ps = ofPieces look' whole location ps := by
  induction ps with
  | nil => rfl
  | cons p ps ih =>
    cases p with
    | reference name braced =>
      have hfirst := h (String.ofList name) List.mem_cons_self
      simp only [ofPieces, ofPiece, andThen]
      rw [← hfirst]
      cases hlook : look (String.ofList name) with
      | error e => rfl
      | ok value =>
        have hrest : ∀ name' ∈ namesAsked look ps, look name' = look' name' := by
          intro name' hname'
          refine h name' (List.mem_cons_of_mem _ ?_)
          rw [hlook]
          exact hname'
        simp only [ih hrest]
    | _ => simp only [ofPieces, ofPiece, ih h]

/-- What leads nowhere from the scope is answered without its parent. -/
theorem Catalog.lookup_eq_of_not_leavesFor {c : Catalog} {s : Scope} {name : String}
    (hs : s.leavesFor name = false) (l l' : ParentLink) (mode : LookupMode) :
    c.lookup ⟨s, l⟩ mode name = c.lookup ⟨s, l'⟩ mode name := by
  unfold Scope.leavesFor at hs
  cases hn : splitName? name with
  | none =>
    simp only [hn, Option.isNone_eq_false_iff, Option.isSome_iff_exists] at hs
    obtain ⟨value, hv⟩ := hs
    rw [lookup_of_plain _ _ mode hn, lookup_of_plain _ _ mode hn,
      lookupFrom_of_bound c ⟨s, l⟩ mode hv, lookupFrom_of_bound c ⟨s, l'⟩ mode hv]
  | some parts =>
    obtain ⟨qualifier, short⟩ := parts
    simp only [hn, decide_eq_false_iff_not] at hs
    rw [lookup_of_splitName? _ _ mode hn, lookup_of_splitName? _ _ mode hn, jumpTarget, jumpTarget,
      if_neg hs, if_neg hs]

theorem Query.answer_eq_of_not_needsParent {c : Catalog} {s : Scope} {l : ParentLink} {q : Query}
    (hq : q.needsParent c ⟨s, l⟩ = false) (l' : ParentLink) :
    q.answer c ⟨s, l⟩ = q.answer c ⟨s, l'⟩ := by
  have hstring : ∀ name, s.leavesFor name = false →
      c.lookupString ⟨s, l⟩ name = c.lookupString ⟨s, l'⟩ name := by
    intro name hname
    rw [Catalog.lookupString, Catalog.lookupString,
      Catalog.lookup_eq_of_not_leavesFor hname l l' .asString]
  cases q with
  | lookup name mode => exact Catalog.lookup_eq_of_not_leavesFor hq l l' mode
  | lookupString name => exact hstring name hq
  | interpolate text location =>
    refine Interpolation.ofPieces_congr text location fun name hname => hstring name ?_
    have hnone := List.any_eq_false.1 hq name hname
    exact Bool.eq_false_iff.2 hnone
  | parentId => cases hq
  | parentScope => cases hq
  | topScope => cases hq
  | visibleVariables recursive => cases hq
  | collectDefaults typeName => cases hq
  | effectiveTags => cases hq

/-! ## A parent that is not there -/

namespace Catalog

variable {c : Catalog} {h : Handle} {p : ScopeId}
variable (hp : c.parentId h = some p) (hlost : c.handle? p = none)
include hp hlost

theorem parentScope_of_lost : c.parentScope h = .error (lostParent h p) := by
  simp only [parentScope, hp, hlost]

theorem topScope_of_lost : c.topScope h = .error (lostParent h p) := by
  rw [topScope, chain_of_lost hp hlost]
  rfl

theorem lookup_of_lost {name : String} (hname : h.scope.leavesFor name = true)
    (mode : LookupMode) : c.lookup h mode name = .error (lostParent h p) := by
  unfold Scope.leavesFor at hname
  cases hn : splitName? name with
  | none =>
    simp only [hn, Option.isNone_iff_eq_none] at hname
    rw [lookup_of_plain _ _ mode hn, lookupFrom, climbToBinding, climb_of_lost hname hp hlost]
  | some parts =>
    obtain ⟨qualifier, short⟩ := parts
    simp only [hn, decide_eq_true_eq] at hname
    have hjump : c.jumpTarget h qualifier name = .error (lostParent h p) := by
      rw [jumpTarget, if_pos hname, topScope_of_lost hp hlost]
    exact lookup_of_jumpTarget_error hn hjump

theorem failsAbove_of_lost : FailsAbove c h (lostParent h p) where
  parentScope := by
    rw [Query.answer, parentScope_of_lost hp hlost]
    rfl
  topScope := by
    rw [Query.answer, topScope_of_lost hp hlost]
    rfl
  visibleVariables recursive := by
    rw [Query.answer, visibleVariables, chain_of_lost hp hlost, parentScope_of_lost hp hlost]
    cases recursive <;> rfl
  collectDefaults typeName := by
    rw [Query.answer, collectDefaults, chain_of_lost hp hlost]
    rfl
  effectiveTags := by
    rw [Query.answer, effectiveTags, chain_of_lost hp hlost]
    rfl
  lookup _ mode hname := lookup_of_lost hp hlost hname mode
  lookupString _ hname := by
    rw [Query.answer, lookupString, lookup_of_lost hp hlost hname]
    rfl

end Catalog

/-! ## Visits -/

theorem ParentLink.elim_settled (p : Option ScopeId) (a : Option (Option ScopeId)) :
    a.elim (settled p) (settled p).settle = settled p := by
  cases a <;> rfl

theorem ParentLink.elim_or_settle (link : ParentLink) (a b : Option (Option ScopeId)) :
    b.elim (a.elim link link.settle) (a.elim link link.settle).settle =
      (a.or b).elim link link.settle := by
  cases a with
  | none => rfl
  | some answer => cases b <;> rfl

namespace Session

variable {s : Session} {n : Nat} {h : Handle}

theorem run_ask_detached (hn : s.detached[n]? = some h) (q : Query) :
    (s.run (.ask n q)).2 = some (q.answer s.catalog h) ∧
      (s.run (.ask n q)).1.detached[n]? =
        some (if q.needsParent s.catalog h then s.catalog.settle h else h) := by
  have hlt : n < s.detached.size := (Array.getElem?_eq_some_iff.1 hn).1
  refine ⟨by simp only [run, hn], ?_⟩
  simp only [run, hn, Query.asking_self, Array.set!_eq_setIfInBounds]
  exact Array.getElem?_setIfInBounds_self_of_lt hlt

theorem run_edit_detached (hn : s.detached[n]? = some h) (e : Edit) :
    (s.run (.edit n e)).2 = some (e.run h.scope).2 ∧
      (s.run (.edit n e)).1.detached[n]? = some ⟨(e.run h.scope).1, h.link⟩ := by
  have hlt : n < s.detached.size := (Array.getElem?_eq_some_iff.1 hn).1
  refine ⟨by simp only [run, hn], ?_⟩
  simp only [run, hn, Array.set!_eq_setIfInBounds]
  exact Array.getElem?_setIfInBounds_self_of_lt hlt

/-- What is held stays where it is when one more scope is. -/
theorem detached_hold (hn : s.detached[n]? = some h) (g : Handle) :
    (s.hold g).detached[n]? = some h ∧ (s.hold g).detached[s.detached.size]? = some g := by
  have hlt : n < s.detached.size := (Array.getElem?_eq_some_iff.1 hn).1
  have hne : n ≠ s.detached.size := by omega
  constructor
  · rw [hold, Array.getElem?_push, if_neg hne, hn]
  · rw [hold, Array.getElem?_push, if_pos rfl]

theorem detached_run_of_ne (hn : s.detached[n]? = some h) {m : Nat} (hm : m ≠ n) :
    (∀ q, (s.run (.ask m q)).1.detached[n]? = some h) ∧
      ∀ e, (s.run (.edit m e)).1.detached[n]? = some h := by
  refine ⟨fun q => ?_, fun e => ?_⟩
  · simp only [run]
    cases s.detached[m]? with
    | none => exact hn
    | some g => simp only [Array.set!_eq_setIfInBounds, Array.getElem?_setIfInBounds_ne hm, hn]
  · simp only [run]
    cases s.detached[m]? with
    | none => exact hn
    | some g => simp only [Array.set!_eq_setIfInBounds, Array.getElem?_setIfInBounds_ne hm, hn]

/-- One visit: the scope keeps what it is told, unless it has kept something. -/
theorem exists_detached_run_visit (hn : s.detached[n]? = some h) (v : Visit) :
    ∃ h', (v.run s).detached[n]? = some h' ∧ h'.scope.id = h.scope.id ∧
      h'.link = (v.tells? s n).elim h.link h.link.settle := by
  cases v with
  | exchange c => exact ⟨h, hn, rfl, rfl⟩
  | step st =>
    cases st with
    | command cmd => exact ⟨h, hn, rfl, rfl⟩
    | reset types => exact ⟨h, hn, rfl, rfl⟩
    | make id o level => exact ⟨h, (detached_hold hn _).1, rfl, rfl⟩
    | copy t =>
      refine ⟨h, ?_, rfl, rfl⟩
      simp only [Visit.run, run]
      cases s.handle? t with
      | none => exact hn
      | some g => exact (detached_hold hn g).1
    | edit m e =>
      by_cases hm : m = n
      · subst hm
        exact ⟨_, (run_edit_detached hn e).2, Edit.run_id h.scope e, rfl⟩
      · exact ⟨h, (detached_run_of_ne hn hm).2 e, rfl, rfl⟩
    | ask m q =>
      by_cases hm : m = n
      · subst hm
        refine ⟨_, (run_ask_detached hn q).2, ?_, ?_⟩
        · split <;> rfl
        · simp only [Visit.tells?, if_true, hn, Option.bind_some]
          split <;> rfl
      · refine ⟨h, (detached_run_of_ne hn hm).1 q, rfl, ?_⟩
        simp only [Visit.tells?, if_neg hm]
        rfl

/-- A run: the scope keeps what it is told first, unless it has kept something. -/
theorem exists_detached_runAll (hn : s.detached[n]? = some h) (visits : List Visit) :
    ∃ h', (Visit.runAll s visits).detached[n]? = some h' ∧ h'.scope.id = h.scope.id ∧
      h'.link = (told n s visits).elim h.link h.link.settle := by
  induction visits generalizing s h with
  | nil => exact ⟨h, hn, rfl, rfl⟩
  | cons v visits ih =>
    obtain ⟨h₁, hn₁, hid₁, hlink₁⟩ := exists_detached_run_visit hn v
    obtain ⟨h₂, hn₂, hid₂, hlink₂⟩ := ih hn₁
    refine ⟨h₂, hn₂, hid₂.trans hid₁, ?_⟩
    rw [hlink₂, hlink₁, ParentLink.elim_or_settle, told]

/-! ## Top theorem -/

theorem standsBy_of_detached (hn : s.detached[n]? = some h) : StandsBy s n h where
  asked q hq := by
    obtain ⟨hanswer, hkept⟩ := run_ask_detached hn q
    rw [if_pos hq] at hkept
    have hsame : s.catalog.parentId ⟨h.scope, h.link⟩ = s.catalog.parentId
        ⟨h.scope, .settled (h.link.resolve (s.catalog.parentOf h.scope.id))⟩ := rfl
    exact ⟨hanswer.trans (congrArg some (Query.answer_eq_of_parentId_eq hsame q)), hkept⟩
  passed q hq := by
    obtain ⟨hanswer, hkept⟩ := run_ask_detached hn q
    rw [if_neg (Bool.eq_false_iff.1 hq)] at hkept
    exact ⟨fun link => hanswer.trans (congrArg some (Query.answer_eq_of_not_needsParent hq link)),
      hkept⟩
  edited e := run_edit_detached hn e
  copied := by
    have hcopy : (s.run (.copy (.detached n))).1 = s.hold h := by
      simp only [run, handle?, hn]
    rw [hcopy]
    exact detached_hold hn h
  lost p hlink hlost := by
    have hp : s.catalog.parentId h = some p := by
      rw [Catalog.parentId, hlink]
      rfl
    exact Catalog.failsAbove_of_lost hp hlost

/-- A scope that is held outside the catalog stands by the first that it was told about its parent,
whatever happens meanwhile, to it, to its catalog, or by another catalog taking that one's place.
So does each of its copies from where it was copied on: with the original if that had been told by
then, and by what it is told itself otherwise. -/
theorem standsBy_first_told (hn : s.detached[n]? = some h) (visits : List Visit) :
    let s' := Visit.runAll s visits
    ∃ h', s'.detached[n]? = some h' ∧ h'.scope.id = h.scope.id ∧
      (told n s visits = none → h'.link = h.link) ∧
      (∀ p, told n s visits = some p → h'.link = .settled (h.link.resolve p)) ∧
      StandsBy s' n h' ∧
      ∀ later, ∃ a b,
        let s'' := (s'.run (.copy (.detached n))).1
        (Visit.runAll s'' later).detached[n]? = some a ∧
          (Visit.runAll s'' later).detached[s'.detached.size]? = some b ∧
          (∀ p, h'.link = .settled p → a.link = .settled p ∧ b.link = .settled p) ∧
          (h'.link = .unasked → a.link = (told n s'' later).elim .unasked .settled ∧
            b.link = (told s'.detached.size s'' later).elim .unasked .settled) := by
  intro s'
  obtain ⟨h', hn', hid, hlink⟩ := exists_detached_runAll hn visits
  have hstands : StandsBy s' n h' := standsBy_of_detached hn'
  refine ⟨h', hn', hid, fun htold => ?_, fun p htold => ?_, hstands, fun later => ?_⟩
  · rw [hlink, htold]
    rfl
  · rw [hlink, htold]
    rfl
  · obtain ⟨horiginal, hcopy⟩ := hstands.copied
    obtain ⟨a, ha, -, hlinka⟩ := exists_detached_runAll horiginal later
    obtain ⟨b, hb, -, hlinkb⟩ := exists_detached_runAll hcopy later
    refine ⟨a, b, ha, hb, fun p hp => ?_, fun hnone => ?_⟩
    · rw [hlinka, hlinkb, hp, ParentLink.elim_settled, ParentLink.elim_settled]
      exact ⟨rfl, rfl⟩
    · rw [hlinka, hlinkb, hnone]
      exact ⟨rfl, rfl⟩

/-- A session over the sample, with a scope outside it that has not asked for its parent yet. -/
def sampleOutside : Session := { catalog := .sample, detached := #[⟨.make ⟨2⟩ {} none, .unasked⟩] }

/-- The scope is asked for a variable of its own and for one that it does not have, and then the
catalog is replaced by a new one. -/
def sampleVisits : List Visit :=
  [.step (.edit 0 (.bind "x" (.str "1") .unknown)), .step (.ask 0 (.lookup "x" .raw)),
    .step (.ask 0 (.lookup "y" .raw)), .exchange (.new .empty)]

/-- The scope was told its parent by the second question, and does not take itself for a root when
the new catalog knows nothing of that parent. -/
theorem standsBy_first_told_orphaned :
    sampleOutside.detached[0]? = some ⟨.make ⟨2⟩ {} none, .unasked⟩ ∧
      told 0 sampleOutside (sampleVisits.take 2) = none ∧
      ∃ h', (Visit.runAll sampleOutside sampleVisits).detached[0]? = some h' ∧
        h'.link = .settled (some ⟨1⟩) ∧
        Query.topScope.answer (Catalog.new .empty) h' =
          .error (.internal (.missingParent ⟨1⟩ h'.scope.text)) := by
  have hn : sampleOutside.detached[0]? = some ⟨.make ⟨2⟩ {} none, .unasked⟩ := rfl
  have htold : told 0 sampleOutside sampleVisits = some (some ⟨1⟩) := by decide
  obtain ⟨h', hn', -, -, hlink, hstands, -⟩ := standsBy_first_told hn sampleVisits
  have hkept : h'.link = .settled (some ⟨1⟩) := hlink _ htold
  have hfails := hstands.lost ⟨1⟩ hkept rfl
  exact ⟨hn, by decide, h', hn', hkept, hfails.topScope⟩

end Session

end ScopeTree
