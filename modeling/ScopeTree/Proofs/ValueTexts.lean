import ScopeTree.Value

/-!
# The text of a value

The text of a value runs its parts together: its strings, the keys of its maps, and `true` and
`false`, depth first and the entries of a map in key order.  What the parts stand in leaves no
trace: a list inside a list reads as its items do, `undef` as nothing, and a map in whatever order
its entries came.

    orderEntries es is a permutation of es in increasing key order    (orderEntries_perm)
    v.Ordered → v.text = String.join v.parts                          (text_eq_join_parts)
    Reshaped v w → v.text = w.text                                    (Reshaped.text_eq)

The keys of `es` are distinct in the first.
-/

namespace ScopeTree

/-! ## Distinct keys -/

section Entries

variable {α : Type} {entries entries' : List (String × α)}

theorem nodup_keys_of_ordered (h : entries.Pairwise (·.1 < ·.1)) :
    (entries.map Prod.fst).Nodup := by
  refine List.pairwise_map.2 (h.imp ?_)
  intro e e' hlt heq
  rw [heq] at hlt
  exact String.lt_irrefl _ hlt

/-- A new key comes between the others, and none of them is lost. -/
theorem insertEntry_perm {key : String} {value : α} (h : key ∉ entries.map Prod.fst) :
    (insertEntry key value entries).Perm ((key, value) :: entries) := by
  induction entries with
  | nil => exact List.Perm.refl _
  | cons e rest ih =>
    rw [List.map_cons, List.mem_cons, not_or] at h
    rw [insertEntry]
    split
    · exact List.Perm.refl _
    · rw [if_neg h.1]
      exact ((ih h.2).cons e).trans (List.Perm.swap ..)

/-- Entries of distinct keys, put one by one into a list that has none of the keys. -/
theorem foldl_insertEntry_perm (sorted : List (String × α))
    (h : ((entries ++ sorted).map Prod.fst).Nodup) :
    (entries.foldl (fun sorted (key, value) => insertEntry key value sorted) sorted).Perm
      (entries ++ sorted) := by
  induction entries generalizing sorted with
  | nil => exact List.Perm.refl _
  | cons e rest ih =>
    have hmiddle : (rest ++ e :: sorted).Perm (e :: rest ++ sorted) := List.perm_middle
    have hnodup := (hmiddle.map Prod.fst).nodup_iff.2 h
    have hnew : e.1 ∉ sorted.map Prod.fst := by
      rw [List.map_append, List.nodup_append] at hnodup
      exact (List.nodup_cons.1 hnodup.2.1).1
    have hinsert : (rest ++ insertEntry e.1 e.2 sorted).Perm (rest ++ e :: sorted) :=
      (insertEntry_perm hnew).append_left rest
    have hrest := ih (insertEntry e.1 e.2 sorted) ((hinsert.map Prod.fst).nodup_iff.2 hnodup)
    exact (hrest.trans hinsert).trans hmiddle

theorem orderEntries_perm (h : (entries.map Prod.fst).Nodup) :
    (orderEntries entries).Perm entries := by
  have hall : (orderEntries entries).Perm (entries ++ []) :=
    foldl_insertEntry_perm [] (by rwa [List.append_nil])
  rwa [List.append_nil] at hall

/-- There is one increasing order of entries. -/
theorem eq_of_perm_of_ordered (h : entries.Perm entries') (ho : entries.Pairwise (·.1 < ·.1))
    (ho' : entries'.Pairwise (·.1 < ·.1)) : entries = entries' :=
  List.Perm.eq_of_pairwise (fun _ _ _ _ hlt hgt => absurd hgt (String.lt_asymm hlt)) ho ho' h

/-- Entries of distinct keys come out in one order, in whatever order they were put in. -/
theorem orderEntries_eq_of_perm (h : entries.Perm entries')
    (hkeys : (entries.map Prod.fst).Nodup) : orderEntries entries = orderEntries entries' := by
  have hkeys' := (h.map Prod.fst).nodup_iff.1 hkeys
  refine eq_of_perm_of_ordered ?_ (ordered_orderEntries _) (ordered_orderEntries _)
  exact ((orderEntries_perm hkeys).trans h).trans (orderEntries_perm hkeys').symm

theorem orderEntries_of_ordered (h : entries.Pairwise (·.1 < ·.1)) :
    orderEntries entries = entries :=
  eq_of_perm_of_ordered (orderEntries_perm (nodup_keys_of_ordered h)) (ordered_orderEntries _) h

theorem mem_of_mem_orderEntries {e : String × α} (h : e ∈ orderEntries entries) : e ∈ entries := by
  suffices ∀ sorted : List (String × α),
      e ∈ entries.foldl (fun sorted (key, value) => insertEntry key value sorted) sorted →
        e ∈ sorted ∨ e ∈ entries from (this [] h).resolve_left List.not_mem_nil
  clear h
  induction entries with
  | nil => exact fun _ h => Or.inl h
  | cons head rest ih =>
    intro sorted h
    rcases ih _ h with h | h
    · rcases mem_insertEntry h with rfl | h
      · exact Or.inr List.mem_cons_self
      · exact Or.inl h
    · exact Or.inr (List.mem_cons_of_mem _ h)

end Entries

namespace Value

/-! ## Parts -/

/-- The value is as values are made: every map in it has its entries in increasing key order. -/
inductive Ordered : Value → Prop
  | str (s : String) : Ordered (.str s)
  | bool (b : Bool) : Ordered (.bool b)
  | undef : Ordered .undef
  | list {items : List Value} (h : ∀ v ∈ items, Ordered v) : Ordered (.list items)
  | map {entries : List (String × Value)} (horder : entries.Pairwise (·.1 < ·.1))
      (h : ∀ e ∈ entries, Ordered e.2) : Ordered (.map entries)

theorem Ordered.ofEntries {entries : List (String × Value)} (h : ∀ e ∈ entries, e.2.Ordered) :
    (Value.ofEntries entries).Ordered :=
  .map (ordered_orderEntries entries) fun e he => h e (mem_of_mem_orderEntries he)

mutual

/-- The strings of a value, the keys of its maps and its truth values, depth first; maps are read in
key order. -/
def parts : Value → List String
  | str s => [s]
  | bool true => ["true"]
  | bool false => ["false"]
  | list items => itemsParts items
  | map entries => (orderEntries (entriesParts entries)).flatMap fun (key, parts) => key :: parts
  | undef => []

def itemsParts : List Value → List String
  | [] => []
  | v :: vs => parts v ++ itemsParts vs

/-- Each key with the parts of its value. -/
def entriesParts : List (String × Value) → List (String × List String)
  | [] => []
  | (k, v) :: rest => (k, parts v) :: entriesParts rest

end

theorem entriesParts_eq (entries : List (String × Value)) :
    entriesParts entries = entries.map fun e => (e.1, e.2.parts) := by
  induction entries with
  | nil => rfl
  | cons e rest ih => rw [entriesParts, ih, List.map_cons]

theorem itemsText_eq_join {items : List Value} (h : ∀ v ∈ items, v.text = String.join v.parts) :
    itemsText items = String.join (itemsParts items) := by
  induction items with
  | nil => rfl
  | cons v vs ih =>
    obtain ⟨hv, hvs⟩ := List.forall_mem_cons.1 h
    rw [itemsText, itemsParts, hv, ih hvs, String.join_append]

theorem entriesText_eq_join {entries : List (String × Value)}
    (h : ∀ e ∈ entries, e.2.text = String.join e.2.parts) :
    entriesText entries =
      String.join ((entriesParts entries).flatMap fun (key, parts) => key :: parts) := by
  induction entries with
  | nil => rfl
  | cons e rest ih =>
    obtain ⟨he, hrest⟩ := List.forall_mem_cons.1 h
    rw [entriesText, entriesParts, he, ih hrest, List.flatMap_cons, String.join_append,
      String.join_cons]

theorem text_eq_join_parts {v : Value} (h : v.Ordered) : v.text = String.join v.parts := by
  induction h with
  | str s => rw [text, parts, String.join_cons, String.join_nil, String.append_empty]
  | bool b => cases b <;> rfl
  | undef => rfl
  | list _ ih => rw [text, parts, itemsText_eq_join ih]
  | @map entries horder _ ih =>
    have hparts : (entriesParts entries).Pairwise (·.1 < ·.1) := by
      rw [entriesParts_eq]
      exact List.pairwise_map.2 horder
    rw [text, parts, orderEntries_of_ordered hparts, entriesText_eq_join ih]

/-! ## Shape -/

/-- A value in another shape: anywhere inside of it, nested lists are spliced, `undef` is dropped
from lists, and the entries of maps are put in in another order. -/
inductive Reshaped : Value → Value → Prop
  | refl (v : Value) : Reshaped v v
  | trans {u v w : Value} (h : Reshaped u v) (h' : Reshaped v w) : Reshaped u w
  | splice (before inner after : List Value) :
      Reshaped (.list (before ++ .list inner :: after)) (.list (before ++ (inner ++ after)))
  | dropUndef (before after : List Value) :
      Reshaped (.list (before ++ .undef :: after)) (.list (before ++ after))
  | reorder {entries entries' : List (String × Value)} (h : entries.Perm entries')
      (hkeys : (entries.map Prod.fst).Nodup) : Reshaped (ofEntries entries) (ofEntries entries')
  | item (before after : List Value) {v w : Value} (h : Reshaped v w) :
      Reshaped (.list (before ++ v :: after)) (.list (before ++ w :: after))
  | entry (before after : List (String × Value)) (key : String) {v w : Value}
      (h : Reshaped v w) :
      Reshaped (.map (before ++ (key, v) :: after)) (.map (before ++ (key, w) :: after))

theorem itemsText_append (vs ws : List Value) :
    itemsText (vs ++ ws) = itemsText vs ++ itemsText ws := by
  induction vs with
  | nil => rw [List.nil_append, itemsText, String.empty_append]
  | cons v vs ih => rw [List.cons_append, itemsText, itemsText, ih, String.append_assoc]

theorem entriesText_append (es es' : List (String × Value)) :
    entriesText (es ++ es') = entriesText es ++ entriesText es' := by
  induction es with
  | nil => rw [List.nil_append, entriesText, String.empty_append]
  | cons e es ih =>
    rw [List.cons_append, entriesText, entriesText, ih, ← String.append_assoc]

theorem text_list_append (vs ws : List Value) :
    (list (vs ++ ws)).text = (list vs).text ++ (list ws).text := by
  rw [text, text, text, itemsText_append]

theorem text_list_cons (v : Value) (vs : List Value) :
    (list (v :: vs)).text = v.text ++ (list vs).text := by
  rw [text, text, itemsText]

/-- The text does not show the shape. -/
theorem Reshaped.text_eq {v w : Value} (h : Reshaped v w) : v.text = w.text := by
  induction h with
  | refl => rfl
  | trans _ _ ih ih' => exact ih.trans ih'
  | splice before inner after => simp only [text_list_append, text_list_cons]
  | dropUndef before after =>
    have hundef : undef.text = "" := rfl
    rw [text_list_append, text_list_append, text_list_cons, hundef, String.empty_append]
  | reorder h hkeys => rw [ofEntries, orderEntries_eq_of_perm h hkeys, ← ofEntries]
  | item before after _ ih =>
    rw [text_list_append, text_list_append, text_list_cons, text_list_cons, ih]
  | entry before after key _ ih =>
    rw [text, text, entriesText_append, entriesText_append, entriesText, entriesText, ih]

/-! ## Top theorem -/

/-- What a value puts behind a text, piece by piece, is its own text, whatever the text in front.
It is made of the strings, keys and truth values in depth-first order, maps in key order; so lists
run their texts together, and it is the same for every shape of the value. -/
theorem text_forgets_shape :
    (∀ v : Value, v.text = v.appendText "" ∧ ∀ out, v.appendText out = out ++ v.text) ∧
    (∀ v : Value, v.Ordered → v.text = String.join v.parts) ∧
    (∀ vs ws : List Value, (list (vs ++ ws)).text = (list vs).text ++ (list ws).text) ∧
    ∀ v w : Value, Reshaped v w → v.text = w.text := by
  refine ⟨fun v => ⟨?_, fun out => appendText_eq out v⟩, fun v hv => text_eq_join_parts hv,
    text_list_append, fun v w h => h.text_eq⟩
  rw [appendText_eq, String.empty_append]

/-- The `undef` in a list in a map in a list goes, and the entries of the map come in the other
order. -/
theorem text_forgets_shape_nested :
    let v := list [str "x", ofEntries [("z", list [str "b", undef]), ("a", bool true)]]
    let w := list [str "x", ofEntries [("a", bool true), ("z", list [str "b"])]]
    v.Ordered ∧ Reshaped v w ∧ v.parts = ["x", "a", "true", "z", "b"] ∧
      v.text = String.join v.parts ∧ v.text = w.text ∧ v.appendText "> " = "> xatruezb" := by
  intro v w
  have hlist : (list [str "b", undef]).Ordered := .list (by simp [Ordered.str, Ordered.undef])
  have hmap : (ofEntries [("z", list [str "b", undef]), ("a", bool true)]).Ordered :=
    .ofEntries (by simp [hlist, Ordered.bool])
  have hv : v.Ordered := .list (by simp [hmap, Ordered.str])
  have hshape : Reshaped v w := .item [str "x"] [] (.trans
    (.reorder (List.Perm.swap ..) (by decide))
    (.entry [("a", bool true)] [] "z" (.dropUndef [str "b"] [])))
  obtain ⟨happend, hparts, -, hsame⟩ := text_forgets_shape
  refine ⟨hv, hshape, by decide, hparts v hv, hsame v w hshape, ?_⟩
  exact ((happend v).2 "> ").trans (by decide)

end Value

end ScopeTree
