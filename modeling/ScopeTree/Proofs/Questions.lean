import ScopeTree.Proofs.Forgetting
import ScopeTree.Proofs.History

/-!
# Questions leave no trace

A question makes scopes ask for their parents and keep what they are told, and a copy of a scope
keeps it too.  As long as there is one catalog this cannot be noticed.  A parent is given to a
scope when it is made, before anybody can ask, and stays the same; so what was kept is what the
catalog would say, whenever it was asked for.

    forget (e.run s) = forget (e.run (forget s))                 (forget_run)
    e.isQuestion → forget (e.run s) = forget s                   (forget_run_of_isQuestion)
    honest s → answers of s = answers of (forget s)              (Honest.answer?_forget)

The main result compares two runs from one catalog in which the same is done to it, whatever is
asked and copied in between, and a run in which no scope ever keeps anything.

    deeds xs = deeds ys → answers after xs = answers after ys = answers without memory
                                                                 (answers_eq_of_deeds_eq)
-/

namespace ScopeTree

namespace Catalog

/-- The scope is a copy of a scope of the catalog: the catalog has given its id a parent, and
the scope agrees with that, whether it has asked or not. -/
structure IsCopy (c : Catalog) (h : Handle) : Prop where
  id_lt : h.scope.id.index < c.count
  truthful : c.Truthful h

namespace IsCopy

variable {c : Catalog} {h : Handle}

theorem settle (hh : c.IsCopy h) : c.IsCopy (c.settle h) := ⟨hh.id_lt, hh.truthful⟩

theorem edit (hh : c.IsCopy h) (e : Edit) : c.IsCopy { h with scope := (e.run h.scope).1 } := by
  have hid : (e.run h.scope).1.id = h.scope.id := Edit.run_id h.scope e
  refine ⟨?_, ?_⟩
  · show (e.run h.scope).1.id.index < c.count
    rw [hid]
    exact hh.id_lt
  · show h.link.resolve (c.parentOf (e.run h.scope).1.id) = c.parentOf (e.run h.scope).1.id
    rw [hid]
    exact hh.truthful

theorem run_turn (hh : c.IsCopy h) (t : Turn) : (t.run c).IsCopy h := by
  have he := t.effect c
  have hparent : (t.run c).parentOf h.scope.id = c.parentOf h.scope.id :=
    he.parentOf_eq hh.id_lt
  refine ⟨Nat.lt_of_lt_of_le hh.id_lt he.count_le, ?_⟩
  show h.link.resolve ((t.run c).parentOf h.scope.id) = (t.run c).parentOf h.scope.id
  rw [hparent]
  exact hh.truthful

end IsCopy

theorem IsForest.isCopy {c : Catalog} (hc : IsForest c) {i : ScopeId} {h : Handle}
    (hi : c.handle? i = some h) : c.IsCopy h := by
  have hid : h.scope.id = i := hc.id_eq i h hi
  refine ⟨?_, ?_⟩
  · rw [hid]
    exact index_lt_of_handle? hi
  · show c.parentId h = c.parentOf h.scope.id
    rw [hid]
    exact hc.parentId_eq hi

theorem forget_run_turn (c : Catalog) (t : Turn) : (t.run c.forget).forget = (t.run c).forget := by
  cases t with
  | command cmd => exact forget_run_command c cmd
  | askedBy outsider q =>
    simp only [Turn.run, forget_settleAll, forget_forget]
  | exchange types =>
    exact congrArg (fun c' : Catalog => { c' with types }) (forget_forget c)

end Catalog

namespace Session

/-- What can happen while a session keeps its catalog.  The scopes it holds outside are copies
of scopes of that catalog. -/
inductive Event
  | command (cmd : Command)
  | exchange (types : TypeTable)
  | copy (t : Target)
  | edit (n : Nat) (e : Edit)
  | ask (n : Nat) (q : Query)

namespace Event

def run (s : Session) : Event → Session
  | command cmd => (s.run (.command cmd)).1
  | exchange types => { s with catalog := { s.catalog with types } }
  | copy t => (s.run (.copy t)).1
  | edit n e => (s.run (.edit n e)).1
  | ask n q => (s.run (.ask n q)).1

/-- The event is a question, to a scope of the catalog or to a copy. -/
def isQuestion : Event → Bool
  | command (.ask ..) | ask .. => true
  | _ => false

def runAll (s : Session) (es : List Event) : Session := es.foldl run s

/-- The turn of the catalog that an event is.  Questions are none, and neither is what is done
to copies. -/
def deed? : Event → Option Catalog.Turn
  | command (.ask ..) => none
  | command cmd => some (.command cmd)
  | exchange types => some (.exchange types)
  | _ => none

def deeds (es : List Event) : List Catalog.Turn := es.filterMap deed?

def unasked (es : List Event) : List Event := es.filter fun e => !e.isQuestion

end Event

/-- The session, as if none of its scopes had ever asked. -/
def forget (s : Session) : Session where
  catalog := s.catalog.forget
  detached := s.detached.map Handle.forget

/-- The session after a number of events in which no scope keeps anything: whenever it has to
know its parent, it asks the catalog. -/
def runAfresh (s : Session) (es : List Event) : Session :=
  es.foldl (fun s e => (e.run s).forget) s.forget

/-- The scope that is meant, without what it knows of its parent. -/
def scope? (s : Session) (t : Target) : Option Scope := (s.handle? t).map (·.scope)

def answer? (s : Session) (t : Target) (q : Query) : Option q.Answer := (s.ask t q).map (·.2)

/-- The scopes of the session agree with its catalog. -/
structure Honest (s : Session) : Prop where
  isForest : s.catalog.IsForest
  copies : ∀ h ∈ s.detached, s.catalog.IsCopy h

/-! ## What a session without memory is -/

@[simp] theorem forget_forget (s : Session) : s.forget.forget = s.forget := by
  simp [forget, Handle.forget, Function.comp_def]

@[simp] theorem handle?_forget (s : Session) (t : Target) :
    s.forget.handle? t = (s.handle? t).map Handle.forget := by
  cases t with
  | inCatalog id => exact Catalog.handle?_forget s.catalog id
  | detached n => exact Array.getElem?_map

theorem handle?_forget_eq (s : Session) (t : Target) :
    s.forget.handle? t = (s.scope? t).map fun scope => { scope } := by
  rw [handle?_forget, scope?, Option.map_map]
  rfl

/-- A question is answered by the scope it is put to, with the catalog as it is. -/
theorem answer?_eq (s : Session) (t : Target) (q : Query) :
    s.answer? t q = (s.handle? t).map (q.answer s.catalog) := by
  cases t with
  | inCatalog id =>
    show ((Command.run s.catalog (.ask id q)).2.map _).map _ = (s.catalog.handle? id).map _
    simp only [Command.run]
    cases s.catalog.handle? id <;> rfl
  | detached n =>
    show ((s.run (.ask n q)).2.map _).map _ = (s.detached[n]?).map _
    simp only [run]
    cases s.detached[n]? <;> rfl

/-- Every scope of an honest session can be taken for a copy. -/
theorem Honest.isCopy_of_handle? {s : Session} (hs : Honest s) {t : Target} {h : Handle}
    (ht : s.handle? t = some h) : s.catalog.IsCopy h := by
  cases t with
  | inCatalog id => exact hs.isForest.isCopy ht
  | detached n => exact hs.copies h (Array.mem_of_getElem? ht)

theorem Honest.answer?_forget {s : Session} (hs : Honest s) (t : Target) (q : Query) :
    s.forget.answer? t q = s.answer? t q := by
  rw [answer?_eq, answer?_eq, handle?_forget]
  cases ht : s.handle? t with
  | none => rfl
  | some h =>
    have htruthful : ∀ i g, s.catalog.handle? i = some g → s.catalog.Truthful g :=
      fun i g hi => (hs.isForest.isCopy hi).truthful
    exact congrArg some (Catalog.answer_forget htruthful q (hs.isCopy_of_handle? ht).truthful)

/-! ## One event -/

namespace Event

theorem forget_run_of_isQuestion (s : Session) {e : Event} (he : e.isQuestion) :
    (e.run s).forget = s.forget := by
  cases e with
  | command cmd =>
    cases cmd with
    | ask id q =>
      show Session.mk _ _ = Session.mk _ _
      congr 1
      exact Catalog.forget_run_ask s.catalog id q
    | _ => cases he
  | ask n q =>
    simp only [run, Session.run]
    cases hn : s.detached[n]? with
    | none => rfl
    | some h =>
      have hdetached : ∀ g, g.forget = h.forget →
          (s.detached.set! n g).map Handle.forget = s.detached.map Handle.forget := by
        intro g hg
        have hlt : n < s.detached.size := (Array.getElem?_eq_some_iff.1 hn).1
        apply Array.ext_getElem?
        intro k
        simp only [Array.set!_eq_setIfInBounds, Array.getElem?_map, Array.getElem?_setIfInBounds]
        by_cases hk : n = k
        · subst hk
          simp only [if_true, if_pos hlt, hn, Option.map_some, hg]
        · rw [if_neg hk]
      have hsettle : (if (q.asking s.catalog h).self then s.catalog.settle h else h).forget =
          h.forget := by
        split <;> rfl
      simp only [forget, Catalog.forget_settleAll, hdetached _ hsettle]
  | _ => cases he

/-- What is done has the same effect on scopes that have forgotten. -/
theorem forget_run (s : Session) (e : Event) : (e.run s.forget).forget = (e.run s).forget := by
  cases he : e.isQuestion with
  | true => rw [forget_run_of_isQuestion _ he, forget_run_of_isQuestion _ he, forget_forget]
  | false =>
    have hdetached : s.forget.detached.map Handle.forget = s.detached.map Handle.forget :=
      congrArg detached (forget_forget s)
    cases e with
    | command cmd =>
      show Session.mk _ _ = Session.mk _ _
      congr 1
      exact Catalog.forget_run_command s.catalog cmd
    | exchange types =>
      exact congrArg (fun r : Session => { r with catalog := { r.catalog with types } })
        (forget_forget s)
    | copy t =>
      simp only [run, Session.run, handle?_forget]
      cases s.handle? t with
      | none => exact forget_forget s
      | some h =>
        show Session.mk _ _ = Session.mk _ _
        congr 1
        · exact Catalog.forget_forget s.catalog
        · simp only [hold, Option.map_some, Array.map_push, hdetached]
          rfl
    | edit n e =>
      have hn : s.forget.detached[n]? = (s.detached[n]?).map Handle.forget := Array.getElem?_map
      simp only [run, Session.run, hn]
      cases s.detached[n]? with
      | none => exact forget_forget s
      | some h =>
        show Session.mk _ _ = Session.mk _ _
        congr 1
        · exact Catalog.forget_forget s.catalog
        · simp only [Array.set!_eq_setIfInBounds, Option.map_some, Array.map_setIfInBounds,
            hdetached]
          rfl
    | ask n q => cases he

/-- An event that is a turn of the catalog is no more than that. -/
theorem catalog_of_deed (s : Session) {e : Event} {t : Catalog.Turn} (he : e.deed? = some t) :
    (e.run s).catalog = t.run s.catalog := by
  cases e with
  | command cmd => cases cmd <;> cases he <;> rfl
  | exchange types =>
    cases he
    rfl
  | _ => cases he

/-- Any other event leaves the catalog, but for what scopes keep. -/
theorem forget_catalog_of_no_deed (s : Session) {e : Event} (he : e.deed? = none) :
    (e.run s).catalog.forget = s.catalog.forget := by
  cases e with
  | command cmd =>
    cases cmd with
    | ask id q => exact Catalog.forget_run_ask s.catalog id q
    | _ => cases he
  | exchange types => cases he
  | copy t =>
    simp only [run, Session.run]
    split <;> rfl
  | edit n e =>
    simp only [run, Session.run]
    split <;> rfl
  | ask n q => exact congrArg catalog (forget_run_of_isQuestion s (e := .ask n q) rfl)

theorem honest_run {s : Session} (hs : Honest s) (e : Event) : Honest (e.run s) := by
  -- what the catalog does by itself leaves the copies right
  have hturn : ∀ t : Catalog.Turn, (t.run s.catalog).IsForest →
      Honest { s with catalog := t.run s.catalog } :=
    fun t hf => ⟨hf, fun h hh => (hs.copies h hh).run_turn t⟩
  cases e with
  | command cmd =>
    exact hturn (.command cmd) (Catalog.IsForest.invariant.run_command hs.isForest cmd)
  | exchange types => exact hturn (.exchange types) (hs.isForest.of_nodes_eq rfl)
  | copy t =>
    simp only [run, Session.run]
    cases ht : s.handle? t with
    | none => exact hs
    | some h =>
      refine ⟨hs.isForest, fun g hg => ?_⟩
      rcases Array.mem_push.1 hg with hg | rfl
      · exact hs.copies g hg
      · exact hs.isCopy_of_handle? ht
  | edit n e =>
    simp only [run, Session.run]
    cases hn : s.detached[n]? with
    | none => exact hs
    | some h =>
      refine ⟨hs.isForest, fun g hg => ?_⟩
      rcases Array.mem_or_eq_of_mem_setIfInBounds hg with hg | rfl
      · exact hs.copies g hg
      · exact (hs.copies h (Array.mem_of_getElem? hn)).edit e
  | ask n q =>
    simp only [run, Session.run]
    cases hn : s.detached[n]? with
    | none => exact hs
    | some h =>
      have hforest := Catalog.IsForest.invariant.settleAll hs.isForest
        (q.asking s.catalog h).others
      have hasked := hturn (.askedBy h q) hforest
      refine ⟨hforest, fun g hg => ?_⟩
      rcases Array.mem_or_eq_of_mem_setIfInBounds hg with hg | rfl
      · exact hasked.copies g hg
      · have hcopy : s.catalog.IsCopy
            (if (q.asking s.catalog h).self then s.catalog.settle h else h) := by
          split
          · exact (hs.copies h (Array.mem_of_getElem? hn)).settle
          · exact hs.copies h (Array.mem_of_getElem? hn)
        exact hcopy.run_turn (.askedBy h q)

/-! ## Runs -/

theorem honest_runAll {s : Session} (hs : Honest s) (es : List Event) : Honest (runAll s es) := by
  induction es generalizing s with
  | nil => exact hs
  | cons e es ih => exact ih (honest_run hs e)

/-- What a run makes of the catalog is what the deeds make of it, but for what scopes keep. -/
theorem forget_catalog_runAll (s : Session) (es : List Event) :
    (runAll s es).catalog.forget = (Catalog.Turn.runAll s.catalog.forget (deeds es)).forget := by
  suffices h : ∀ c : Catalog, c.forget = s.catalog.forget →
      (runAll s es).catalog.forget = (Catalog.Turn.runAll c (deeds es)).forget from
    h _ (Catalog.forget_forget s.catalog)
  induction es generalizing s with
  | nil => exact fun c hc => hc.symm
  | cons e es ih =>
    intro c hc
    cases he : e.deed? with
    | none =>
      have hdeeds : deeds (e :: es) = deeds es := List.filterMap_cons_none he
      rw [hdeeds]
      exact ih (e.run s) c (by rw [hc, forget_catalog_of_no_deed s he])
    | some t =>
      have hdeeds : deeds (e :: es) = t :: deeds es := List.filterMap_cons_some he
      have hcatalog : (e.run s).catalog = t.run s.catalog := catalog_of_deed s he
      rw [hdeeds]
      refine ih (e.run s) (t.run c) ?_
      rw [hcatalog, ← Catalog.forget_run_turn, hc, Catalog.forget_run_turn]

/-- What a run comes to, but for what scopes keep, does not depend on the questions. -/
theorem forget_runAll (s : Session) (es : List Event) :
    (runAll s es).forget = (runAll s.forget (unasked es)).forget := by
  suffices h : ∀ r : Session, r.forget = s.forget →
      (runAll s es).forget = (runAll r (unasked es)).forget from h _ (forget_forget s)
  induction es generalizing s with
  | nil => exact fun r hr => hr.symm
  | cons e es ih =>
    intro r hr
    cases he : e.isQuestion with
    | true =>
      have hrest : unasked (e :: es) = unasked es := by simp [unasked, he]
      rw [hrest]
      exact ih (e.run s) r (by rw [hr, forget_run_of_isQuestion s he])
    | false =>
      have hrest : unasked (e :: es) = e :: unasked es := by simp [unasked, he]
      rw [hrest]
      exact ih (e.run s) (e.run r) (by rw [← forget_run, hr, forget_run])

end Event

/-- A run without memory comes to what is left of a run when its scopes forget. -/
theorem runAfresh_eq (s : Session) (es : List Event) :
    s.runAfresh es = (Event.runAll s es).forget := by
  unfold runAfresh
  induction es generalizing s with
  | nil => rfl
  | cons e es ih =>
    have hfirst : (e.run s.forget).forget = (e.run s).forget := Event.forget_run s e
    rw [List.foldl_cons, hfirst]
    exact ih (e.run s)

/-! ## Top theorem -/

/-- The session that has nothing but a catalog, which was come to by operations, is honest. -/
theorem honest_of_reachable {c : Catalog} (hc : c.Reachable) : Honest { catalog := c } :=
  ⟨hc.isForest, by simp⟩

/-- Two honest sessions whose catalogs differ in nothing but what scopes keep give the same answer
to a question that is put to the same scope. -/
theorem Honest.answer?_congr {s r : Session} (hs : Honest s) (hr : Honest r)
    (hcatalog : s.catalog.forget = r.catalog.forget) {t u : Target}
    (hscope : s.scope? t = r.scope? u) (q : Query) : s.answer? t q = r.answer? u q := by
  rw [← hs.answer?_forget, ← hr.answer?_forget, answer?_eq, answer?_eq, handle?_forget_eq,
    handle?_forget_eq, hscope]
  show Option.map (q.answer s.catalog.forget) _ = Option.map (q.answer r.catalog.forget) _
  rw [hcatalog]

/-- **What scopes keep of their parents cannot be noticed.**  Take two runs from one catalog in
which the same is done to it, with any questions in between.  After both, every question has the
same answer when it is put to a scope of the catalog, or to copies that hold the same scope,
whenever these were made.  If the runs differ in nothing but the questions, then all that they
have copied is the same.  The answer is the one that is given when every scope asks the catalog
each time it needs to know its parent. -/
theorem answers_eq_of_deeds_eq {c : Catalog} (hc : c.Reachable) {xs ys : List Event}
    (hsame : Event.deeds xs = Event.deeds ys) :
    let s := Event.runAll { catalog := c } xs
    let r := Event.runAll { catalog := c } ys
    (∀ id q, s.answer? (.inCatalog id) q = r.answer? (.inCatalog id) q) ∧
      (∀ t u, s.scope? t = r.scope? u → ∀ q, s.answer? t q = r.answer? u q) ∧
      (Event.unasked xs = Event.unasked ys → ∀ t q, s.answer? t q = r.answer? t q) ∧
      ∀ t q, s.answer? t q = (runAfresh { catalog := c } xs).answer? t q := by
  intro s r
  have hs : Honest s := Event.honest_runAll (honest_of_reachable hc) xs
  have hr : Honest r := Event.honest_runAll (honest_of_reachable hc) ys
  have hcatalog : s.catalog.forget = r.catalog.forget := by
    rw [Event.forget_catalog_runAll, Event.forget_catalog_runAll, hsame]
  refine ⟨fun id q => hs.answer?_congr hr hcatalog ?_ q,
    fun t u hscope q => hs.answer?_congr hr hcatalog hscope q, fun hrest t q => ?_, fun t q => ?_⟩
  · show s.catalog.scope? id = r.catalog.scope? id
    rw [← Catalog.scope?_forget s.catalog, hcatalog, Catalog.scope?_forget]
  · have hforget : s.forget = r.forget := by
      rw [Event.forget_runAll _ xs, Event.forget_runAll _ ys, hrest]
    rw [← hs.answer?_forget, hforget, hr.answer?_forget]
  · rw [runAfresh_eq]
    exact (hs.answer?_forget t q).symm

/-- A new scope under the middle one of the sample, which is copied once it has asked. -/
def sampleAskedFirst : List Event :=
  [.command (.childScope ⟨1⟩ {}), .command (.ask ⟨3⟩ .parentId), .copy (.inCatalog ⟨3⟩)]

/-- The same scope, copied before it has asked and after another one was copied. -/
def sampleCopiedFirst : List Event :=
  [.copy (.inCatalog Catalog.top), .command (.childScope ⟨1⟩ {}), .copy (.inCatalog ⟨3⟩),
    .command (.ask ⟨3⟩ .effectiveTags)]

/-- One copy has kept its parent and the other has not, but they answer alike. -/
theorem answers_eq_of_asked_first :
    let s := Event.runAll { catalog := Catalog.sample } sampleAskedFirst
    let r := Event.runAll { catalog := Catalog.sample } sampleCopiedFirst
    (s.handle? (.detached 0)).map (·.link) = some (.settled (some ⟨1⟩)) ∧
      (r.handle? (.detached 1)).map (·.link) = some .unasked ∧
      Event.deeds sampleAskedFirst = Event.deeds sampleCopiedFirst ∧
      (∀ q, s.answer? (.detached 0) q = r.answer? (.detached 1) q) ∧
      ∀ id q, s.answer? (.inCatalog id) q = r.answer? (.inCatalog id) q := by
  intro s r
  have hsame : Event.deeds sampleAskedFirst = Event.deeds sampleCopiedFirst := rfl
  have hscope : s.scope? (.detached 0) = r.scope? (.detached 1) := rfl
  obtain ⟨hcatalog, hcopies, -, -⟩ := answers_eq_of_deeds_eq Catalog.reachable_sample hsame
  exact ⟨rfl, rfl, hsame, hcopies _ _ hscope, hcatalog⟩

end Session

end ScopeTree
