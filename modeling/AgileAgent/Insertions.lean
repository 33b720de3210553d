import Mathlib.Data.List.AList

/-! # Maps filled entry by entry

A hash map is often filled in a loop that inserts one entry after another, where a later
entry replaces an earlier one of the same key. What the map holds in the end is the last
entry of each key.
-/

namespace Insertions

universe u v

variable {α : Type u} {β : Type v}

/-! ## Entries as a list -/

section

variable [BEq α] [LawfulBEq α]

theorem lookup_cons_ne {key here : α} (other : key ≠ here) (value : β) (rest : List (α × β)) :
    ((here, value) :: rest).lookup key = rest.lookup key := by
  rw [List.lookup_cons, beq_eq_false_iff_ne.mpr other]

theorem mem_of_lookup {key : α} {value : β} {entries : List (α × β)}
    (found : entries.lookup key = some value) : (key, value) ∈ entries := by
  obtain ⟨before, after, rfl, -⟩ := List.lookup_eq_some_iff.mp found
  simp

/-- With one entry for each key the order does not matter. -/
theorem lookup_perm {left right : List (α × β)} (perm : left.Perm right)
    (once : (left.map Prod.fst).Nodup) (key : α) : left.lookup key = right.lookup key := by
  induction perm with
  | nil => rfl
  | cons e _ ih =>
      obtain ⟨here, value⟩ := e
      rw [List.lookup_cons, List.lookup_cons, ih (List.nodup_cons.mp once).2]
  | swap e e' rest =>
      obtain ⟨here, value⟩ := e
      obtain ⟨there, value'⟩ := e'
      have apart : there ≠ here := by
        rintro rfl
        simp at once
      by_cases first : key = here
      · have other : key ≠ there := fun second => apart (second.symm.trans first)
        rw [lookup_cons_ne other, first, List.lookup_cons_self, List.lookup_cons_self]
      · by_cases second : key = there
        · rw [lookup_cons_ne first, second, List.lookup_cons_self, List.lookup_cons_self]
        · rw [lookup_cons_ne first, lookup_cons_ne second, lookup_cons_ne second,
            lookup_cons_ne first]
  | trans first _ ih ih' =>
      rw [ih once, ih' ((first.map Prod.fst).nodup_iff.mp once)]

theorem lookup_reverse {entries : List (α × β)} (once : (entries.map Prod.fst).Nodup) (key : α) :
    entries.reverse.lookup key = entries.lookup key := by
  apply lookup_perm entries.reverse_perm
  rw [List.map_reverse]
  exact List.nodup_reverse.mpr once

omit [LawfulBEq α] in
theorem lookup_map {γ : Type v} (f : β → γ) (entries : List (α × β)) (key : α) :
    (entries.map fun e => (e.1, f e.2)).lookup key = (entries.lookup key).map f := by
  induction entries with
  | nil => rfl
  | cons e rest ih =>
      obtain ⟨here, value⟩ := e
      rw [List.map_cons, List.lookup_cons, List.lookup_cons, ih]
      cases key == here <;> rfl

omit [LawfulBEq α] in
theorem lookup_flatMap {γ : Type v} (parts : List γ) (entries : γ → List (α × β)) (key : α) :
    (parts.flatMap entries).lookup key = parts.findSome? fun part => (entries part).lookup key := by
  induction parts with
  | nil => rfl
  | cons part rest ih =>
      rw [List.flatMap_cons, List.lookup_append, ih, List.findSome?_cons]
      cases (entries part).lookup key <;> rfl

end

/-! ## Maps -/

variable [DecidableEq α]

abbrev Map (α : Type u) (β : Type v) := AList fun _ : α => β

/-- Insert the entries in their order. -/
def insertAll (m : Map α β) (entries : List (α × β)) : Map α β :=
  entries.foldl (fun m e => m.insert e.1 e.2) m

theorem insertAll_cons (m : Map α β) (e : α × β) (entries : List (α × β)) :
    insertAll m (e :: entries) = insertAll (m.insert e.1 e.2) entries := rfl

theorem insertAll_append (m : Map α β) (first second : List (α × β)) :
    insertAll m (first ++ second) = insertAll (insertAll m first) second := List.foldl_append

theorem lookup_insertAll (m : Map α β) (entries : List (α × β)) (key : α) :
    (insertAll m entries).lookup key = (entries.reverse.lookup key).or (m.lookup key) := by
  induction entries generalizing m with
  | nil => rfl
  | cons e rest ih =>
      rw [insertAll_cons, ih, List.reverse_cons, List.lookup_append, Option.or_assoc]
      congr 1
      obtain ⟨here, value⟩ := e
      by_cases same : key = here
      · subst same
        simp
      · rw [lookup_cons_ne same, AList.lookup_insert_ne same]
        rfl

/-- Inserting all entries of a table, in any order and over a map without other keys, gives that
    table. -/
theorem lookup_insertAll_eq {table : α → Option β} {base : Map α β} {entries : List (α × β)}
    (each : ∀ e ∈ entries, table e.1 = some e.2)
    (all : ∀ key value, table key = some value → (key, value) ∈ entries)
    (others : ∀ key, table key = none → base.lookup key = none) (key : α) :
    (insertAll base entries).lookup key = table key := by
  rw [lookup_insertAll]
  cases found : entries.reverse.lookup key with
  | some value =>
      have member := List.mem_reverse.mp (mem_of_lookup found)
      rw [each _ member]
      rfl
  | none =>
      cases present : table key with
      | none => exact others key present
      | some value =>
          have member := List.mem_reverse.mpr (all key value present)
          rw [List.lookup_eq_none_iff] at found
          have apart := found _ member
          simp at apart

/-- The entries of a map, as pairs. -/
def pairs (m : Map α β) : List (α × β) := m.entries.map fun e => (e.1, e.2)

omit [DecidableEq α] in
theorem pairs_keys (m : Map α β) : (pairs m).map Prod.fst = m.keys := by
  simp [pairs, AList.keys, List.keys, Function.comp_def]

theorem mem_pairs {m : Map α β} {key : α} {value : β} :
    (key, value) ∈ pairs m ↔ m.lookup key = some value := by
  rw [← Option.mem_def, AList.mem_lookup_iff]
  simp [pairs]

theorem lookup_pairs (m : Map α β) (key : α) : (pairs m).lookup key = m.lookup key := by
  obtain ⟨entries, nodup⟩ := m
  change (entries.map fun e => (e.1, e.2)).lookup key = entries.dlookup key
  clear nodup
  induction entries with
  | nil => rfl
  | cons e rest ih =>
      rw [List.map_cons, List.lookup_cons, ih]
      by_cases same : key = e.1
      · subst same
        rw [BEq.rfl, List.dlookup_cons_eq]
      · have other : (key == e.1) = false := beq_eq_false_iff_ne.mpr same
        rw [List.dlookup_cons_ne _ _ same, other]

end Insertions
