import Mathlib.Data.List.Pairwise
import Mathlib.Data.List.Sort
import Mathlib.Data.String.Basic

/-! # Maps in the order of their keys

A finite map is the list of its entries, the keys strictly increasing, so that it is determined by the
entries it has. Every value may be replaced by a function of its entry that can fail. Two maps with the
same keys come to the same map exactly when any two entries of one key come to the same value.
-/

/-- Entries sorted by their keys. -/
@[ext] structure SortedMap (α β : Type) [LT α] where
  entries : List (α × β)
  sorted : entries.Pairwise fun a b => a.1 < b.1

namespace SortedMap

variable {α β γ : Type}

instance [LT α] : Membership (α × β) (SortedMap α β) := ⟨fun m e => e ∈ m.entries⟩

theorem mem_def [LT α] {m : SortedMap α β} {e : α × β} : e ∈ m ↔ e ∈ m.entries := Iff.rfl

def keys [LT α] (m : SortedMap α β) : List α := m.entries.map Prod.fst

theorem mem_keys [LT α] {m : SortedMap α β} {k : α} : k ∈ m.keys ↔ ∃ b, (k, b) ∈ m := by
  simp [keys, mem_def]

/-! ## Entries one by one -/

/-- An entry with the value that `f` gives for it. -/
def entry (f : α → β → Option γ) (e : α × β) : Option (α × γ) := (f e.1 e.2).map (e.1, ·)

theorem entry_eq_some {f : α → β → Option γ} {e : α × β} {e' : α × γ} :
    entry f e = some e' ↔ e'.1 = e.1 ∧ f e.1 e.2 = some e'.2 := by
  obtain ⟨k, c⟩ := e'
  rw [entry, Option.map_eq_some_iff]
  constructor
  · intro found
    obtain ⟨c, here, same⟩ := found
    obtain ⟨rfl, rfl⟩ := Prod.mk.inj same
    exact ⟨rfl, here⟩
  · intro given
    exact ⟨c, given.2, Prod.ext given.1.symm rfl⟩

theorem mapM_eq_some_iff {f : β → Option γ} {l : List β} {out : List γ} :
    l.mapM f = some out ↔ List.Forall₂ (fun b c => f b = some c) l out := by
  induction l generalizing out with
  | nil => simp [eq_comm]
  | cons b rest ih =>
      rw [List.mapM_cons, List.forall₂_cons_left_iff]
      simp only [bind_pure_comp, Option.bind_eq_bind, Option.bind_eq_some_iff, Option.map_eq_map,
        Option.map_eq_some_iff, ih]
      constructor
      · intro found
        obtain ⟨c, here, later, tail, rfl⟩ := found
        exact ⟨c, later, here, tail, rfl⟩
      · intro given
        obtain ⟨c, later, here, tail, rfl⟩ := given
        exact ⟨c, here, later, tail, rfl⟩

theorem mapM_isSome_iff {f : β → Option γ} {l : List β} :
    (l.mapM f).isSome ↔ ∀ b ∈ l, (f b).isSome := by
  induction l with
  | nil => simp
  | cons b rest ih =>
      rw [List.mapM_cons, List.forall_mem_cons, ← ih]
      cases f b <;> cases rest.mapM f <;> simp

theorem mem_mapM {f : β → Option γ} {l : List β} {out : List γ} (found : l.mapM f = some out) {c : γ} :
    c ∈ out ↔ ∃ b ∈ l, f b = some c := by
  have pairs := mapM_eq_some_iff.mp found
  clear found
  induction pairs with
  | nil => simp
  | @cons b c' rest later here tail ih =>
      have tailMem : c ∈ later ↔ ∃ b ∈ rest, f b = some c := ih
      rw [List.mem_cons, List.exists_mem_cons_iff, here, Option.some.injEq, eq_comm, ← tailMem]

theorem keys_kept {f : α → β → Option γ} {l : List (α × β)} {out : List (α × γ)}
    (found : l.mapM (entry f) = some out) : out.map Prod.fst = l.map Prod.fst := by
  have pairs := mapM_eq_some_iff.mp found
  induction pairs with
  | nil => rfl
  | cons here tail ih =>
      rw [List.map_cons, List.map_cons, (entry_eq_some.mp here).1, ih (mapM_eq_some_iff.mpr tail)]

theorem order_kept [LT α] {f : α → β → Option γ} {l : List (α × β)} {out : List (α × γ)}
    (found : l.mapM (entry f) = some out) (sorted : l.Pairwise fun a b => a.1 < b.1) :
    out.Pairwise fun a b => a.1 < b.1 := by
  rw [← List.pairwise_map (f := Prod.fst) (R := (· < ·))] at sorted ⊢
  exact (keys_kept found).symm ▸ sorted

/-! ## Maps -/

/-- The map with every value replaced, if `f` gives one for every entry. -/
def traverse [LT α] (f : α → β → Option γ) (m : SortedMap α β) : Option (SortedMap α γ) :=
  match found : m.entries.mapM (entry f) with
  | none => none
  | some out => some ⟨out, order_kept found m.sorted⟩

section

variable [LT α] {f : α → β → Option γ} {m : SortedMap α β} {out : SortedMap α γ}

theorem traverse_eq_some : m.traverse f = some out ↔ m.entries.mapM (entry f) = some out.entries := by
  rw [traverse]
  split
  · next absent => simp [absent]
  · next l found =>
      obtain ⟨entries, sorted⟩ := out
      rw [Option.some.injEq, mk.injEq]
      exact ⟨fun same => same ▸ found, fun given => Option.some.inj (found.symm.trans given)⟩

theorem traverse_isSome_iff : (m.traverse f).isSome ↔ ∀ k b, (k, b) ∈ m → (f k b).isSome := by
  have entries : (m.traverse f).isSome ↔ (m.entries.mapM (entry f)).isSome := by
    rw [Option.isSome_iff_exists, Option.isSome_iff_exists]
    constructor
    · intro found
      obtain ⟨out, found⟩ := found
      exact ⟨out.entries, traverse_eq_some.mp found⟩
    · intro found
      obtain ⟨out, found⟩ := found
      exact ⟨⟨out, order_kept found m.sorted⟩, traverse_eq_some.mpr found⟩
  rw [entries, mapM_isSome_iff]
  simp only [entry, Option.isSome_map, mem_def, Prod.forall]

theorem keys_traverse (found : m.traverse f = some out) : out.keys = m.keys :=
  keys_kept (traverse_eq_some.mp found)

theorem mem_traverse (found : m.traverse f = some out) {k : α} {c : γ} :
    (k, c) ∈ out ↔ ∃ b, (k, b) ∈ m ∧ f k b = some c := by
  rw [mem_def, mem_mapM (traverse_eq_some.mp found)]
  constructor
  · intro given
    obtain ⟨⟨k', b⟩, member, here⟩ := given
    obtain ⟨rfl, value⟩ := entry_eq_some.mp here
    exact ⟨b, member, value⟩
  · intro given
    obtain ⟨b, member, value⟩ := given
    exact ⟨(k, b), member, entry_eq_some.mpr ⟨rfl, value⟩⟩

end

section

variable [Preorder α] {m m' : SortedMap α β}

theorem value_unique {k : α} {b b' : β} (here : (k, b) ∈ m) (there : (k, b') ∈ m) : b = b' := by
  have symm : Std.Symm fun a b : α × β => a.1 = b.1 → a = b :=
    ⟨fun a b alike same => (alike same.symm).symm⟩
  have apart : m.entries.Pairwise fun a b => a.1 = b.1 → a = b :=
    m.sorted.imp fun before same => absurd same before.ne
  have alike := apart.forall_of_forall (fun e member same => rfl) here there rfl
  exact (Prod.mk.inj alike).2

theorem ext_mem (same : ∀ e, e ∈ m ↔ e ∈ m') : m = m' := by
  have irrefl : Std.Irrefl fun a b : α × β => a.1 < b.1 := ⟨fun a => lt_irrefl a.1⟩
  have antisymm : Std.Antisymm fun a b : α × β => a.1 < b.1 :=
    ⟨fun a b before after => absurd before (lt_asymm after)⟩
  exact SortedMap.ext (m.sorted.eq_of_mem_iff m'.sorted same)

theorem traverse_agree_iff {f : α → β → Option γ} (keys : m.keys = m'.keys) :
    (∃ out, m.traverse f = some out ∧ m'.traverse f = some out) ↔
      ∀ k b b', (k, b) ∈ m → (k, b') ∈ m' → ∃ c, f k b = some c ∧ f k b' = some c := by
  constructor
  · intro agree k b b' here there
    obtain ⟨out, found, found'⟩ := agree
    obtain ⟨c, value⟩ := Option.isSome_iff_exists.mp
      (traverse_isSome_iff.mp (Option.isSome_of_eq_some found) k b here)
    obtain ⟨c', value'⟩ := Option.isSome_iff_exists.mp
      (traverse_isSome_iff.mp (Option.isSome_of_eq_some found') k b' there)
    have same := value_unique ((mem_traverse found).mpr ⟨b, here, value⟩)
      ((mem_traverse found').mpr ⟨b', there, value'⟩)
    exact ⟨c, value, same ▸ value'⟩
  · intro agree
    have counterpart : ∀ {k b}, (k, b) ∈ m → ∃ b', (k, b') ∈ m' := by
      intro k b here
      exact mem_keys.mp (keys ▸ mem_keys.mpr ⟨b, here⟩)
    have counterpart' : ∀ {k b'}, (k, b') ∈ m' → ∃ b, (k, b) ∈ m := by
      intro k b' there
      exact mem_keys.mp (keys.symm ▸ mem_keys.mpr ⟨b', there⟩)
    have total : ∀ k b, (k, b) ∈ m → (f k b).isSome := by
      intro k b here
      obtain ⟨b', there⟩ := counterpart here
      obtain ⟨c, value, -⟩ := agree k b b' here there
      exact Option.isSome_of_eq_some value
    have total' : ∀ k b', (k, b') ∈ m' → (f k b').isSome := by
      intro k b' there
      obtain ⟨b, here⟩ := counterpart' there
      obtain ⟨c, -, value⟩ := agree k b b' here there
      exact Option.isSome_of_eq_some value
    obtain ⟨out, found⟩ := Option.isSome_iff_exists.mp (traverse_isSome_iff.mpr total)
    obtain ⟨out', found'⟩ := Option.isSome_iff_exists.mp (traverse_isSome_iff.mpr total')
    refine ⟨out, found, ?_⟩
    rw [found', Option.some.injEq]
    apply ext_mem
    rintro ⟨k, c⟩
    rw [mem_traverse found, mem_traverse found']
    constructor
    · intro given
      obtain ⟨b', there, value'⟩ := given
      obtain ⟨b, here⟩ := counterpart' there
      obtain ⟨c', value, also⟩ := agree k b b' here there
      exact ⟨b, here, value.trans (also.symm.trans value')⟩
    · intro given
      obtain ⟨b, here, value⟩ := given
      obtain ⟨b', there⟩ := counterpart here
      obtain ⟨c', also, value'⟩ := agree k b b' here there
      exact ⟨b', there, value'.trans (also.symm.trans value)⟩

end

end SortedMap
