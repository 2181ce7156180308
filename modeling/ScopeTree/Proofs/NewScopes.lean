import ScopeTree.Proofs.Isolation
import ScopeTree.Proofs.KeptParent

/-!
# Making scopes

A catalog grows by a scope at its end, or not at all.  The scope gets the next id, is empty, and
stands under the parent that was asked for.  All that was there before stays what it was and says
what it said, with one exception: a class can be recorded for an id before there is a scope of that
id.  A variable of such a class could not be looked up until then, and now the new scope answers.

    newScope succeeds ↔ the parent exists, and it is not a top scope's
                                                                 (newScope_eq_ok_iff)
    Extends c (push c s parent)                                  (extends_push)
    Extends c c' → no name leads to a new scope → same answer    (IsForest.answer_of_extends)
-/

namespace ScopeTree

/-! ## Specification -/

/-- The names that a scope looks up for the answer. -/
def Query.names (c : Catalog) (h : Handle) : Query → List String
  | lookup name _ | lookupString name => [name]
  | interpolate text _ =>
    Interpolation.namesAsked (c.lookupString h) (Interpolation.pieces text.toList)
  | _ => []

namespace Catalog

/-- The name is one of a variable `short` of a class, and this id is recorded for the class. -/
def LeadsTo (c : Catalog) (s : Scope) (name : String) (id : ScopeId) (short : String) : Prop :=
  ∃ q d, splitName? name = some (q, short) ∧ q ≠ "" ∧ s.findClass? c.types q = some d ∧
    c.classScope? d.name = some id

/-- The second catalog has all that the first one has, and perhaps more scopes. -/
structure Extends (c c' : Catalog) : Prop where
  handle?_eq (i : ScopeId) : i.index < c.count → c'.handle? i = c.handle? i
  parentOf_eq (i : ScopeId) : i.index < c.count → c'.parentOf i = c.parentOf i
  classScopes_eq : c'.classScopes = c.classScopes
  resources_eq : c'.resources = c.resources
  types_eq : c'.types = c.types

/-- The second catalog is the first one with a new scope under this parent, if there is one. -/
structure Grown (c : Catalog) (parent : Option ScopeId) (c' : Catalog) : Prop
    extends Extends c c' where
  count_eq : c'.count = c.count + 1
  /-- The new scope is empty and has asked nothing. -/
  made : ∃ s, c'.handle? ⟨c.count⟩ = some ⟨s, .unasked⟩ ∧ s.id = ⟨c.count⟩ ∧
    s.bindings = .empty ∧ s.defaults = .empty ∧ s.tags = ∅
  parentOf_made : c'.parentOf ⟨c.count⟩ = parent
  /-- The older scopes answer as before what does not lead to the new one. -/
  answer_eq (i : ScopeId) (h : Handle) (q : Query) : c.handle? i = some h →
    (∀ name ∈ q.names c h, ∀ short, ¬ c.LeadsTo h.scope name ⟨c.count⟩ short) →
      q.answer c' h = q.answer c h
  /-- A name that does could not be looked up before, and is now answered by the new scope. -/
  lookup_led (i : ScopeId) (h : Handle) (name short : String) : c.handle? i = some h →
    c.LeadsTo h.scope name ⟨c.count⟩ short → ∀ mode,
      (∃ className, c.lookup h mode name =
        .error (.internal (.missingClassScope ⟨c.count⟩ className))) ∧
      ∃ g a, c'.handle? ⟨c.count⟩ = some g ∧ c'.lookup h mode name = c'.lookup g mode short ∧
        c'.lookup h mode name = .ok a

/-- Every scope of the first catalog answers every question as it would in the second. -/
def KeepsAnswers (c c' : Catalog) : Prop :=
  ∀ i h, c.handle? i = some h → ∀ q : Query, q.answer c' h = q.answer c h

/-! ## When there is a new scope -/

theorem parentLevel_eq_error {c : Catalog} {parent : Option ScopeId} {e : ScopeError}
    (h : c.parentLevel parent = .error e) : ∃ fault, e = .construction fault := by
  unfold parentLevel at h
  split at h
  · cases h
  · split at h
    · cases h
    · cases h
      exact ⟨_, rfl⟩

/-- While there are ids, a scope that cannot be made is one that was described wrongly. -/
theorem newScope_eq_error {c : Catalog} (hroom : c.count < ScopeId.limit)
    {parent : Option ScopeId} {o : ScopeOptions} {e : ScopeError}
    (h : c.newScope parent o = .error e) : ∃ fault, e = .construction fault := by
  simp only [newScope, if_pos hroom] at h
  split at h
  · cases h
    exact ⟨_, rfl⟩
  · split at h
    · next hlevel =>
      cases h
      exact parentLevel_eq_error hlevel
    · cases h

/-! ## What a new scope leaves as it was -/

theorem extends_push (c : Catalog) (s : Scope) (parent : Option ScopeId) :
    Extends c (c.push s parent) where
  handle?_eq i hi := by
    rw [handle?_push, if_neg (by omega)]
  parentOf_eq i hi := by
    rw [parentOf_push, if_neg (by omega)]
  classScopes_eq := rfl
  resources_eq := rfl
  types_eq := rfl

/-- A name that leads to a scope is answered by that scope, if it is in the catalog. -/
theorem IsForest.lookup_of_leadsTo {c : Catalog} (hc : IsForest c) (h : Handle)
    {name short : String} {id : ScopeId} (hled : c.LeadsTo h.scope name id short)
    (mode : LookupMode) :
    (c.handle? id = none ∧ ∃ className,
        c.lookup h mode name = .error (.internal (.missingClassScope id className))) ∨
      ∃ g a, c.handle? id = some g ∧ c.lookup h mode name = c.lookup g mode short ∧
        c.lookup h mode name = .ok a := by
  obtain ⟨q, d, hsplit, hq, hd, hid⟩ := hled
  rcases hc.lookup_of_class h mode hsplit hq with
    ⟨hnone, -⟩ | ⟨d', hd', ⟨hnone, -⟩ | ⟨id', hid', hr⟩⟩
  · rw [hd] at hnone
    cases hnone
  · rw [hd] at hd'
    cases hd'
    rw [hid] at hnone
    cases hnone
  · rw [hd] at hd'
    cases hd'
    rw [hid] at hid'
    cases hid'
    rcases hr with ⟨hg, hl⟩ | hanswered
    · exact Or.inl ⟨hg, _, hl⟩
    · exact Or.inr hanswered

namespace Extends

variable {c c' : Catalog} (he : Extends c c')
include he

theorem classScope?_eq (className : String) :
    c'.classScope? className = c.classScope? className := by
  rw [classScope?, classScope?, he.classScopes_eq]

/-- To an older scope the same names lead to the same scopes. -/
theorem leadsTo_iff (s : Scope) (name : String) (id : ScopeId) (short : String) :
    c'.LeadsTo s name id short ↔ c.LeadsTo s name id short := by
  simp only [LeadsTo, he.types_eq, he.classScope?_eq]

/-- Where a lookup goes on is the same if the scopes that names can lead to are. -/
theorem classOrigin_eq (s : Scope) {q short name : String}
    (hsplit : splitName? name = some (q, short)) (hq : q ≠ "")
    (hled : ∀ id, c.LeadsTo s name id short → c'.handle? id = c.handle? id) :
    c'.classOrigin s q name = c.classOrigin s q name := by
  unfold classOrigin
  rw [he.types_eq]
  cases hd : s.findClass? c.types q with
  | none => rfl
  | some d =>
    dsimp only
    rw [he.classScope?_eq]
    cases hid : c.classScope? d.name with
    | none => rfl
    | some id =>
      dsimp only
      rw [hled id ⟨q, d, hsplit, hq, hd, hid⟩]

end Extends

namespace IsForest

variable {c c' : Catalog} (hc : IsForest c) (hc' : IsForest c') (he : Extends c c')
variable {i : ScopeId} {h : Handle} (hi : c.handle? i = some h)
include hc hc' he hi

theorem same_of_extends :
    c'.handle? i = some h ∧ c'.chain h = c.chain h ∧ c'.parentScope h = c.parentScope h ∧
      SameView c c' h := by
  obtain ⟨ids, ha⟩ := hc.exists_ancestry i
  have hlt : ∀ k ∈ ids, k.index < c.count := by
    intro k hk
    have h₁ := ha.index_le hc k hk
    have h₂ := index_lt_of_handle? hi
    omega
  have hparents : ∀ k ∈ ids, c'.parentOf k = c.parentOf k := fun k hk => he.parentOf_eq k (hlt k hk)
  have hscopes : ∀ k ∈ ids, c'.handle? k = c.handle? k := fun k hk => he.handle?_eq k (hlt k hk)
  have hi' : c'.handle? i = some h := (he.handle?_eq i (index_lt_of_handle? hi)).trans hi
  refine ⟨hi', hc.chain_congr hc' ha hparents hscopes hi hi', ?_,
    hc.sameView hc' ha hparents hscopes hi hi'⟩
  rw [hc'.parentScope_eq hi', hc.parentScope_eq hi, he.parentOf_eq i (index_lt_of_handle? hi)]
  cases hp : c.parentOf i with
  | none => rfl
  | some p =>
    have hplt := hc.parent_lt i p hp
    show Except.ok (c'.handle? p) = Except.ok (c.handle? p)
    rw [he.handle?_eq p (by omega)]

theorem lookup_of_extends_plain {name : String} (hn : splitName? name = none) (mode : LookupMode) :
    c'.lookup h mode name = c.lookup h mode name := by
  obtain ⟨-, -, -, hview⟩ := hc.same_of_extends hc' he hi
  exact hview.lookup mode name (splitName?_eq_none_iff.1 hn)

theorem lookup_of_extends {name : String} (mode : LookupMode)
    (hled : ∀ id short, c.LeadsTo h.scope name id short → c'.handle? id = c.handle? id) :
    c'.lookup h mode name = c.lookup h mode name := by
  cases hn : splitName? name with
  | none => exact hc.lookup_of_extends_plain hc' he hi hn mode
  | some parts =>
    obtain ⟨q, short⟩ := parts
    have hjump : c'.jumpTarget h q name = c.jumpTarget h q name := by
      unfold jumpTarget
      split
      · obtain ⟨-, hchain, -, -⟩ := hc.same_of_extends hc' he hi
        rw [topScope, topScope, hchain]
      · next hq => exact he.classOrigin_eq h.scope hn hq fun id => hled id short
    rw [lookup_of_splitName? c' h mode hn, lookup_of_splitName? c h mode hn, hjump]
    cases ht : c.jumpTarget h q name with
    | error e => rfl
    | ok g =>
      -- the jump leads to an older scope, and the short name is plain
      obtain ⟨j, hj⟩ := hc.exists_handle_of_jumpTarget hi ht
      exact hc.lookup_of_extends_plain hc' he hj (splitName?_short hn) mode

/-- A question to an older scope is answered as before unless it is about a name that leads to a
scope that is new. -/
theorem answer_of_extends (q : Query) (hled : ∀ name ∈ q.names c h, ∀ id short,
    c.LeadsTo h.scope name id short → c'.handle? id = c.handle? id) :
    q.answer c' h = q.answer c h := by
  obtain ⟨hi', hchain, hparent, hview⟩ := hc.same_of_extends hc' he hi
  cases q with
  | parentId =>
    show c'.parentId h = c.parentId h
    rw [hc'.parentId_eq hi', hc.parentId_eq hi, he.parentOf_eq i (index_lt_of_handle? hi)]
  | parentScope => rw [Query.answer, Query.answer, hparent]
  | topScope => rw [Query.answer, Query.answer, topScope, topScope, hchain]
  | lookup name mode =>
    exact hc.lookup_of_extends hc' he hi mode (hled name (List.mem_singleton_self name))
  | lookupString name =>
    have hlookup := hc.lookup_of_extends hc' he hi .asString
      (hled name (List.mem_singleton_self name))
    show c'.lookupString h name = c.lookupString h name
    rw [lookupString, lookupString, hlookup]
  | interpolate text location =>
    refine (Interpolation.ofPieces_congr text location fun name hname => ?_).symm
    have hlookup := hc.lookup_of_extends hc' he hi .asString (hled name hname)
    rw [lookupString, lookupString, hlookup]
  | visibleVariables recursive => exact hview.visible recursive
  | collectDefaults typeName => exact hview.defaults typeName
  | effectiveTags => exact hview.tags

end IsForest

/-- A catalog to which an empty scope was added at the end. -/
theorem Reachable.grown_push {c : Catalog} (hc : Reachable c) {parent : Option ScopeId}
    (hparent : ∀ p ∈ parent, p.index < c.count) (o : ScopeOptions) (level : Option UInt32) :
    Grown c parent (c.push (Scope.make ⟨c.count⟩ o level) parent) := by
  have hf := hc.isForest
  have hf' : IsForest (c.push (Scope.make ⟨c.count⟩ o level) parent) := hf.push rfl hparent
  have he := extends_push c (Scope.make ⟨c.count⟩ o level) parent
  have hnew : (c.push (Scope.make ⟨c.count⟩ o level) parent).handle? ⟨c.count⟩ =
      some ⟨Scope.make ⟨c.count⟩ o level, .unasked⟩ := by
    rw [handle?_push, if_pos rfl]
  have hfree : c.handle? ⟨c.count⟩ = none := by
    rw [← Option.not_isSome_iff_eq_none, handle?_isSome_iff]
    exact Nat.lt_irrefl c.count
  constructor
  case toExtends => exact he
  case count_eq => exact count_push c _ parent
  case made => exact ⟨_, hnew, rfl, rfl, rfl, rfl⟩
  case parentOf_made => rw [parentOf_push, if_pos rfl]
  case answer_eq =>
    -- the one new scope could only be seen through a name that leads to its id
    intro i h q hi hnames
    refine hf.answer_of_extends hf' he hi q fun name hname id short hled => ?_
    rw [handle?_push, if_neg]
    intro hid
    obtain rfl : id = ⟨c.count⟩ := congrArg ScopeId.mk hid
    exact hnames name hname short hled
  case lookup_led =>
    intro i h name short hi hled mode
    constructor
    · rcases hf.lookup_of_leadsTo h hled mode with ⟨-, hlost⟩ | ⟨g, a, hg, -, -⟩
      · exact hlost
      · rw [hfree] at hg
        cases hg
    · have hled' := (he.leadsTo_iff h.scope name ⟨c.count⟩ short).2 hled
      rcases hf'.lookup_of_leadsTo h hled' mode with ⟨hlost, -⟩ | hanswered
      · rw [hnew] at hlost
        cases hlost
      · exact hanswered

/-! ## Top theorem -/

/-- While there are ids, a scope can be made exactly if its parent, given directly or among the
options, is absent or in the catalog, and it is not a top scope with a parent; otherwise the
description is at fault and nothing happens.  The new scope gets the next id, is empty, and stands
under its parent, and whatever was there before is as it was.  A child is a new scope under a parent
that has to be there. -/
theorem newScope_grows {c : Catalog} (hc : Reachable c) (hroom : c.count < ScopeId.limit)
    (parent : Option ScopeId) (o : ScopeOptions) :
    let effective := parent.or o.parent
    let made := Command.run c (.newScope parent o)
    ((∃ id, made.2 = .ok id) ↔
      (∀ p ∈ effective, (c.scope? p).isSome) ∧ ¬ (o.top = true ∧ effective.isSome)) ∧
    (∀ e, made.2 = .error e → made.1 = c ∧ ∃ fault, e = .construction fault) ∧
    (∀ id, made.2 = .ok id → id = ⟨c.count⟩ ∧ Grown c effective made.1) ∧
    ∀ p, ((c.scope? p).isSome →
        Command.run c (.childScope p o) = Command.run c (.newScope (some p) o)) ∧
      (c.scope? p = none →
        Command.run c (.childScope p o) = (c, .error (.internal (.missingScope p)))) := by
  intro effective made
  have hmade : made = Command.orUnchanged c (c.newScope parent o) := rfl
  refine ⟨?_, ?_, ?_, fun p => ⟨fun hp => ?_, fun hp => ?_⟩⟩
  · rw [← newScope_eq_ok_iff c parent o hroom, hmade]
    cases c.newScope parent o with
    | error e => simp [Command.orUnchanged]
    | ok r => simp [Command.orUnchanged]
  · intro e he
    cases hr : c.newScope parent o with
    | error e' =>
      rw [hmade, hr] at he ⊢
      cases he
      exact ⟨rfl, newScope_eq_error hroom hr⟩
    | ok r =>
      rw [hmade, hr] at he
      cases he
  · intro id hid
    cases hr : c.newScope parent o with
    | error e =>
      rw [hmade, hr] at hid
      cases hid
    | ok r =>
      obtain ⟨c', id'⟩ := r
      rw [hmade, hr] at hid ⊢
      cases hid
      obtain ⟨level, hlevel, -, -, rfl, rfl⟩ := newScope_eq_ok hr
      exact ⟨rfl, hc.grown_push (parentLevel_eq_ok hlevel) o level⟩
  · show Command.orUnchanged c (c.childScope p o) = Command.orUnchanged c (c.newScope (some p) o)
    rw [childScope_eq, if_pos hp]
  · show Command.orUnchanged c (c.childScope p o) = _
    rw [childScope_eq, hp]
    rfl

/-- In the sample a scope can be put under the second one by its options alone.  A child of a scope
that is not there cannot be made. -/
theorem newScope_grows_option :
    sample.count < ScopeId.limit ∧
      ∃ c', Command.run sample (.newScope none { parent := some ⟨1⟩ }) = (c', .ok ⟨3⟩) ∧
        Grown sample (some ⟨1⟩) c' ∧
        Command.run sample (.childScope ⟨9⟩ {}) =
          (sample, .error (.internal (.missingScope ⟨9⟩))) := by
  have hroom : sample.count < ScopeId.limit := by decide
  obtain ⟨hiff, -, hok, hchild⟩ :=
    newScope_grows reachable_sample hroom none { parent := some ⟨1⟩ }
  obtain ⟨id, hid⟩ := hiff.2 ⟨by decide, by decide⟩
  obtain ⟨rfl, hgrown⟩ := hok id hid
  exact ⟨hroom, _, rfl, hgrown, (hchild ⟨9⟩).2 rfl⟩

/-- A new catalog in which a scope that does not exist yet is recorded for the class `Ghost`. -/
def sampleForetold : Catalog :=
  let types := TypeTable.empty.addClass ⟨"Ghost", .ordinary⟩
  Command.runAll (.new types) [.setClassScope "ghost" ⟨1⟩]

/-- The new scope makes a difference to the top scope: before, it could not look up
`::ghost::x`. -/
theorem not_keepsAnswers_foretold :
    Reachable sampleForetold ∧ sampleForetold.count < ScopeId.limit ∧
      ∃ c' root, Command.run sampleForetold (.newScope (some top) {}) = (c', .ok ⟨1⟩) ∧
        sampleForetold.handle? top = some root ∧
        (∃ fault, sampleForetold.lookup root .raw "::ghost::x" = .error (.internal fault)) ∧
        (∃ a, c'.lookup root .raw "::ghost::x" = .ok a) ∧ ¬ KeepsAnswers sampleForetold c' := by
  have hreach : Reachable sampleForetold := Reachable.runAll (.new (.addClass .empty _)) _
  have hled : sampleForetold.LeadsTo (.make top topOptions none) "::ghost::x" ⟨1⟩ "x" :=
    ⟨"::ghost", ⟨"Ghost", .ordinary⟩, by decide, by decide, by decide, by decide⟩
  have hgrown : Grown sampleForetold (some top) _ := hreach.grown_push (by decide) {} (some 1)
  obtain ⟨⟨className, hbefore⟩, g, a, -, -, hafter⟩ :=
    hgrown.lookup_led top _ _ _ rfl hled .raw
  refine ⟨hreach, by decide, _, _, rfl, rfl, ⟨_, hbefore⟩, ⟨a, hafter⟩, fun hkeeps => ?_⟩
  have hsame := hkeeps top _ rfl (.lookup "::ghost::x" .raw)
  have hlookups := hafter.symm.trans (hsame.trans hbefore)
  cases hlookups

end Catalog

end ScopeTree
