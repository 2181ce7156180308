/-!
# Values

What a variable can be bound to.  The text of a value is what interpolation puts in its
place: lists run their items together, maps each key and its value in key order, and the
explicit `undef` leaves nothing.

    appendText out a = out ++ a.text                             (Value.appendText_eq)
    a.same b = true ↔ a = b                                      (Value.same_iff)
    insertEntry keeps a list of entries in increasing key order  (ordered_insertEntry)
-/

namespace ScopeTree

/-! ## Ordered entries -/

/-- Put an entry at its place in a list ordered by key; an entry of the same key gives way. -/
def insertEntry {α : Type} (key : String) (value : α) :
    List (String × α) → List (String × α)
  | [] => [(key, value)]
  | (k, v) :: rest =>
    if key < k then (key, value) :: (k, v) :: rest
    else if key = k then (key, value) :: rest
    else (k, v) :: insertEntry key value rest

/-- Order entries by key.  Of two entries with one key the later one stays. -/
def orderEntries {α : Type} (entries : List (String × α)) : List (String × α) :=
  entries.foldl (fun sorted (key, value) => insertEntry key value sorted) []

/-! ## Values -/

/-- A value of the configuration language.  The entries of a map are in key order. -/
inductive Value where
  | str (text : String)
  | bool (b : Bool)
  | list (items : List Value)
  | map (entries : List (String × Value))
  | undef
deriving Inhabited, Repr

namespace Value

/-- The map with these entries; of two entries with one key the later one counts. -/
def ofEntries (entries : List (String × Value)) : Value := map (orderEntries entries)

/-- The empty text, as which a variable without a value reads. -/
def empty : Value := str ""

def isUndef : Value → Bool
  | undef => true
  | _ => false

def asString? : Value → Option String
  | str s => some s
  | _ => none

mutual

/-- What interpolation puts in the place of a value. -/
def text : Value → String
  | str s => s
  | bool true => "true"
  | bool false => "false"
  | list items => itemsText items
  | map entries => entriesText entries
  | undef => ""

def itemsText : List Value → String
  | [] => ""
  | v :: vs => text v ++ itemsText vs

def entriesText : List (String × Value) → String
  | [] => ""
  | (k, v) :: rest => k ++ text v ++ entriesText rest

end

mutual

/-- Put the text of a value behind a text, piece by piece. -/
def appendText (out : String) : Value → String
  | str s => out ++ s
  | bool true => out ++ "true"
  | bool false => out ++ "false"
  | list items => appendItems out items
  | map entries => appendEntries out entries
  | undef => out

def appendItems (out : String) : List Value → String
  | [] => out
  | v :: vs => appendItems (appendText out v) vs

def appendEntries (out : String) : List (String × Value) → String
  | [] => out
  | (k, v) :: rest => appendEntries (appendText (out ++ k) v) rest

end

/-! ## Equality -/

mutual

/-- Structural comparison. -/
def same : Value → Value → Bool
  | str s, str t => s == t
  | bool a, bool b => a == b
  | list xs, list ys => sameItems xs ys
  | map xs, map ys => sameEntries xs ys
  | undef, undef => true
  | _, _ => false

def sameItems : List Value → List Value → Bool
  | [], [] => true
  | x :: xs, y :: ys => same x y && sameItems xs ys
  | _, _ => false

def sameEntries : List (String × Value) → List (String × Value) → Bool
  | [], [] => true
  | (k, x) :: xs, (l, y) :: ys => k == l && (same x y && sameEntries xs ys)
  | _, _ => false

end

mutual

theorem same_iff : ∀ a b : Value, same a b = true ↔ a = b
  | str s, b => by cases b <;> simp [same]
  | bool a, b => by cases b <;> simp [same]
  | list xs, b => by cases b <;> simp [same, sameItems_iff xs]
  | map xs, b => by cases b <;> simp [same, sameEntries_iff xs]
  | undef, b => by cases b <;> simp [same]

theorem sameItems_iff : ∀ xs ys : List Value, sameItems xs ys = true ↔ xs = ys
  | [], ys => by cases ys <;> simp [sameItems]
  | x :: xs, ys => by cases ys <;> simp [sameItems, same_iff x, sameItems_iff xs]

theorem sameEntries_iff :
    ∀ xs ys : List (String × Value), sameEntries xs ys = true ↔ xs = ys
  | [], ys => by cases ys <;> simp [sameEntries]
  | (k, x) :: xs, ys => by
    rcases ys with _ | ⟨⟨l, y⟩, ys⟩ <;>
      simp [sameEntries, same_iff x, sameEntries_iff xs, and_assoc]

end

mutual

/-- Piece by piece or at once, the text is the same. -/
theorem appendText_eq : ∀ (out : String) (v : Value), appendText out v = out ++ text v
  | out, str s => rfl
  | out, bool true => rfl
  | out, bool false => rfl
  | out, list items => by simp [appendText, text, appendItems_eq out items]
  | out, map entries => by simp [appendText, text, appendEntries_eq out entries]
  | out, undef => by simp [appendText, text]

theorem appendItems_eq :
    ∀ (out : String) (items : List Value), appendItems out items = out ++ itemsText items
  | out, [] => by simp [appendItems, itemsText]
  | out, v :: vs => by
    simp [appendItems, itemsText, appendText_eq out v, appendItems_eq _ vs, String.append_assoc]

theorem appendEntries_eq :
    ∀ (out : String) (entries : List (String × Value)),
      appendEntries out entries = out ++ entriesText entries
  | out, [] => by simp [appendEntries, entriesText]
  | out, (k, v) :: rest => by
    simp [appendEntries, entriesText, appendText_eq _ v, appendEntries_eq _ rest,
      String.append_assoc]

end

instance : DecidableEq Value := fun a b => decidable_of_iff _ (same_iff a b)

end Value

/-! ## Lemmas -/

theorem mem_insertEntry {α : Type} {key : String} {value : α} {entries : List (String × α)}
    {e : String × α} (h : e ∈ insertEntry key value entries) :
    e = (key, value) ∨ e ∈ entries := by
  induction entries with
  | nil => simpa [insertEntry] using h
  | cons head rest ih =>
    rw [insertEntry] at h
    split at h
    · simpa using h
    · split at h
      · rcases List.mem_cons.1 h with h | h
        · exact Or.inl h
        · exact Or.inr (List.mem_cons_of_mem _ h)
      · rcases List.mem_cons.1 h with rfl | h
        · exact Or.inr List.mem_cons_self
        · exact (ih h).imp_right (List.mem_cons_of_mem _)

theorem ordered_insertEntry {α : Type} {key : String} {value : α} {entries : List (String × α)}
    (h : entries.Pairwise (·.1 < ·.1)) : (insertEntry key value entries).Pairwise (·.1 < ·.1) := by
  induction entries with
  | nil => simp [insertEntry]
  | cons head rest ih =>
    obtain ⟨hhead, hrest⟩ := List.pairwise_cons.1 h
    rw [insertEntry]
    split
    · next hlt =>
      exact List.pairwise_cons.2 ⟨fun e he => by
        rcases List.mem_cons.1 he with rfl | he
        · exact hlt
        · exact String.lt_trans hlt (hhead e he), h⟩
    · next hge =>
      split
      · next heq => subst heq; exact List.pairwise_cons.2 ⟨hhead, hrest⟩
      · next hne =>
        refine List.pairwise_cons.2 ⟨fun e he => ?_, ih hrest⟩
        rcases mem_insertEntry he with rfl | he
        · exact Decidable.byContradiction fun hle =>
            hne (String.le_antisymm hle hge)
        · exact hhead e he

theorem ordered_orderEntries {α : Type} (entries : List (String × α)) :
    (orderEntries entries).Pairwise (·.1 < ·.1) := by
  suffices ∀ sorted : List (String × α), sorted.Pairwise (·.1 < ·.1) →
      (entries.foldl (fun sorted (key, value) => insertEntry key value sorted) sorted).Pairwise
        (·.1 < ·.1) from this [] List.Pairwise.nil
  induction entries with
  | nil => exact fun _ h => h
  | cons e es ih => exact fun sorted h => ih _ (ordered_insertEntry h)

end ScopeTree
