import Mathlib.Data.List.DropRight

/-! # Ring buffers

A double-ended queue in the slots of one allocation. Its elements start at the slot `head` and go
on at slot 0 when they reach the last one, so they lie in at most two slices. An allocation that is
full is doubled.
-/

universe u

structure RingBuffer (α : Type u) where
  items : List α
  head : Nat
  capacity : Nat
  fits : items.length ≤ capacity
  inside : head ≤ capacity
  deriving DecidableEq

namespace RingBuffer

variable {α : Type u}

/-- Without an allocation. -/
def empty : RingBuffer α := ⟨[], 0, 0, Nat.le_refl 0, Nat.le_refl 0⟩

/-- The slot that lies `slot` steps after slot 0, one lap at most. -/
def wrap (capacity slot : Nat) : Nat := if capacity ≤ slot then slot - capacity else slot

/-- The slots that an allocation without a free one is replaced with. -/
def grown (capacity : Nat) : Nat := max 4 (2 * capacity)

theorem wrap_mod {capacity : Nat} (some : 0 < capacity) (slot : Nat) :
    wrap capacity (slot % capacity + 1) = (slot + 1) % capacity := by
  have bound := Nat.mod_lt slot some
  rw [wrap, ← Nat.mod_add_mod]
  split
  · have lap : slot % capacity + 1 = capacity := by omega
    rw [lap, Nat.sub_self, Nat.mod_self]
  · exact (Nat.mod_eq_of_lt (by omega)).symm

theorem lt_grown (capacity : Nat) : capacity < grown capacity := by
  unfold grown
  omega

/-- The head after growth: the shorter one of two slices is moved, the one at the head only if it
    is the shorter. -/
def grownHead (head length capacity : Nat) : Nat :=
  let atHead := capacity - head
  let wrapped := length - atHead
  if length ≤ atHead then head
  else if wrapped < atHead ∧ wrapped ≤ grown capacity - capacity then head
  else grown capacity - atHead

theorem grownHead_le {head length capacity : Nat} (inside : head ≤ capacity) :
    grownHead head length capacity ≤ grown capacity := by
  have more := lt_grown capacity
  unfold grownHead
  dsimp only
  split_ifs <;> omega

def grow (b : RingBuffer α) : RingBuffer α where
  items := b.items
  head := grownHead b.head b.items.length b.capacity
  capacity := grown b.capacity
  fits := b.fits.trans (lt_grown b.capacity).le
  inside := grownHead_le b.inside

def pushFree (b : RingBuffer α) (x : α) (free : b.items.length < b.capacity) : RingBuffer α where
  items := b.items ++ [x]
  head := b.head
  capacity := b.capacity
  fits := by
    rw [List.length_append]
    exact free
  inside := b.inside

theorem grow_free (b : RingBuffer α) : b.grow.items.length < b.grow.capacity :=
  b.fits.trans_lt (lt_grown b.capacity)

def pushBack (b : RingBuffer α) (x : α) : RingBuffer α :=
  if free : b.items.length < b.capacity then b.pushFree x free else b.grow.pushFree x b.grow_free

/-- Drops the oldest element, if there is one. -/
def popFront (b : RingBuffer α) : RingBuffer α where
  items := b.items.tail
  head := if b.items.isEmpty then b.head else wrap b.capacity (b.head + 1)
  capacity := b.capacity
  fits := by
    rw [List.length_tail]
    exact (Nat.sub_le _ _).trans b.fits
  inside := by
    have inside := b.inside
    have fits := b.fits
    split
    · exact inside
    · rename_i filled
      have one : b.items.length ≠ 0 := by simpa using filled
      unfold wrap
      split <;> omega

@[simp] theorem popFront_items (b : RingBuffer α) : b.popFront.items = b.items.tail := rfl

@[simp] theorem popFront_capacity (b : RingBuffer α) : b.popFront.capacity = b.capacity := rfl

theorem popFront_head {b : RingBuffer α} (filled : b.items.length ≠ 0) :
    b.popFront.head = wrap b.capacity (b.head + 1) := if_neg (by simpa using filled)

theorem popFront_empty {b : RingBuffer α} (none : b.items = []) : b.popFront = b := by
  obtain ⟨items, head, capacity, fits, inside⟩ := b
  subst none
  rfl

/-- The elements up to the last slot. -/
def firstSlice (b : RingBuffer α) : List α := b.items.take (b.capacity - b.head)

/-- The first slice is everything unless the elements wrap around. -/
theorem firstSlice_length (b : RingBuffer α) :
    b.firstSlice.length = b.items.length ↔ b.head + b.items.length ≤ b.capacity := by
  have inside := b.inside
  rw [firstSlice, List.length_take]
  omega

/-! ## A bounded history

The oldest element leaves when the limit is reached, before the new one is added. A limit of 0 works
like a limit of 1.
-/

def pushBounded (limit : Nat) (b : RingBuffer α) (x : α) : RingBuffer α :=
  (if limit ≤ b.items.length then b.popFront else b).pushBack x

def bounded (limit : Nat) (xs : List α) : RingBuffer α := xs.foldl (pushBounded limit) empty

@[simp] theorem bounded_nil (limit : Nat) : bounded limit ([] : List α) = empty := rfl

theorem bounded_snoc (limit : Nat) (xs : List α) (x : α) :
    bounded limit (xs ++ [x]) = pushBounded limit (bounded limit xs) x := List.foldl_concat _ _ _ _

/-- The slots after so many elements were added to an empty buffer and none was dropped. -/
def slotsFor : Nat → Nat
  | 0 => 0
  | n + 1 => if slotsFor n = n then grown (slotsFor n) else slotsFor n

theorem le_slotsFor (n : Nat) : n ≤ slotsFor n := by
  induction n with
  | zero => exact Nat.le_refl 0
  | succ n ih =>
      have more := lt_grown (slotsFor n)
      rw [slotsFor]
      split <;> omega

theorem pushBack_items (b : RingBuffer α) (x : α) : (b.pushBack x).items = b.items ++ [x] := by
  unfold pushBack
  split <;> rfl

theorem pushBack_free {b : RingBuffer α} (free : b.items.length < b.capacity) (x : α) :
    (b.pushBack x).head = b.head ∧ (b.pushBack x).capacity = b.capacity := by
  rw [pushBack, dif_pos free]
  exact ⟨rfl, rfl⟩

theorem pushBack_full {b : RingBuffer α} (full : b.items.length = b.capacity) (start : b.head = 0) (x : α) :
    (b.pushBack x).head = 0 ∧ (b.pushBack x).capacity = grown b.capacity := by
  have unwrapped : grownHead b.head b.items.length b.capacity = 0 := by
    rw [grownHead, start]
    exact if_pos full.le
  rw [pushBack, dif_neg full.not_lt]
  exact ⟨unwrapped, rfl⟩

private theorem rtake_tail {n : Nat} {xs : List α} (enough : n < xs.length) :
    (xs.rtake (n + 1)).tail = xs.rtake n := by
  rw [List.rtake, List.tail_drop, List.rtake]
  congr 1
  omega

private theorem rtake_all {n : Nat} {xs : List α} (few : xs.length ≤ n) : xs.rtake n = xs := by
  rw [List.rtake, Nat.sub_eq_zero_of_le few, List.drop_zero]

theorem rtake_length (n : Nat) (xs : List α) : (xs.rtake n).length = min n xs.length := by
  rw [List.rtake, List.length_drop]
  omega

/-- A history holds the last elements, as many as the limit and at least one. -/
theorem bounded_items (limit : Nat) (xs : List α) :
    (bounded limit xs).items = xs.rtake (max limit 1) := by
  obtain ⟨m, most⟩ : ∃ m, max limit 1 = m + 1 := ⟨max limit 1 - 1, by omega⟩
  induction xs using List.reverseRecOn with
  | nil => simp [empty]
  | append_singleton xs x ih =>
      have length : (bounded limit xs).items.length = min (m + 1) xs.length := by
        rw [ih, most, rtake_length]
      rw [bounded_snoc, pushBounded, pushBack_items, most, List.rtake_concat_succ]
      congr 1
      split
      · by_cases filled : m < xs.length
        · rw [popFront_items, ih, most, rtake_tail filled]
        · -- nothing can be dropped: the limit is 0 and the buffer empty
          have none : xs = [] := List.eq_nil_of_length_eq_zero (by omega)
          rw [popFront_items, ih, none]
          simp
      · rw [ih, most, rtake_all (by omega), rtake_all (by omega)]

/-- Where a history lies: from slot 0 until the limit is reached, then one slot later each time. -/
theorem bounded_place (limit : Nat) (xs : List α) :
    (bounded limit xs).capacity = slotsFor (min xs.length (max limit 1)) ∧
      (bounded limit xs).head = (xs.length - max limit 1) % slotsFor (max limit 1) := by
  obtain ⟨m, most⟩ : ∃ m, max limit 1 = m + 1 := ⟨max limit 1 - 1, by omega⟩
  rw [most]
  have room := le_slotsFor (m + 1)
  induction xs using List.reverseRecOn with
  | nil =>
      rw [List.length_nil, Nat.zero_min, Nat.zero_sub, Nat.zero_mod]
      exact ⟨rfl, rfl⟩
  | append_singleton xs x ih =>
      obtain ⟨capacity, head⟩ := ih
      have length : (bounded limit xs).items.length = min (m + 1) xs.length := by
        rw [bounded_items, most, rtake_length]
      rw [bounded_snoc, pushBounded, List.length_append, List.length_singleton]
      rcases Nat.lt_or_ge xs.length (m + 1) with below | reached
      · have kept : (if limit ≤ (bounded limit xs).items.length then (bounded limit xs).popFront
            else bounded limit xs) = bounded limit xs := by
          split
          · exact popFront_empty (List.eq_nil_of_length_eq_zero (by omega))
          · rfl
        have start : (bounded limit xs).head = 0 := by rw [head, Nat.sub_eq_zero_of_le below.le, Nat.zero_mod]
        have slots : (bounded limit xs).capacity = slotsFor xs.length := by
          rw [capacity, Nat.min_eq_left below.le]
        rw [kept, Nat.min_eq_left below, Nat.sub_eq_zero_of_le below, Nat.zero_mod, slotsFor]
        split
        · have full : (bounded limit xs).items.length = (bounded limit xs).capacity := by omega
          rw [(pushBack_full full start x).1, (pushBack_full full start x).2, slots]
          exact ⟨rfl, rfl⟩
        · have free : (bounded limit xs).items.length < (bounded limit xs).capacity := by
            have := le_slotsFor xs.length
            omega
          rw [(pushBack_free free x).1, (pushBack_free free x).2]
          exact ⟨slots, start⟩
      · have whole : (bounded limit xs).items.length = m + 1 := by omega
        have slots : (bounded limit xs).capacity = slotsFor (m + 1) := by
          rw [capacity, Nat.min_eq_right reached]
        have free : (bounded limit xs).popFront.items.length < (bounded limit xs).popFront.capacity := by
          rw [popFront_items, popFront_capacity, List.length_tail]
          omega
        rw [if_pos (by omega), (pushBack_free free x).1, (pushBack_free free x).2, popFront_capacity, slots]
        refine ⟨by rw [Nat.min_eq_right (by omega)], ?_⟩
        rw [popFront_head (by omega), slots, head, wrap_mod (by omega)]
        congr 1
        omega

theorem firstSlice_eq_items (b : RingBuffer α) :
    b.firstSlice = b.items ↔ b.head + b.items.length ≤ b.capacity := by
  rw [← firstSlice_length]
  constructor
  · exact congrArg List.length
  · intro same
    exact (List.take_sublist _ _).eq_of_length same

/-- The first slice holds the last elements as long as the limit is not reached, and after that when
    they do not wrap around. -/
theorem bounded_firstSlice (limit : Nat) (xs : List α) :
    (bounded limit xs).firstSlice = xs.rtake limit ↔
      xs.length ≤ limit ∨ 1 ≤ limit ∧ (xs.length - limit) % slotsFor limit + limit ≤ slotsFor limit := by
  have items := bounded_items limit xs
  obtain ⟨capacity, head⟩ := bounded_place limit xs
  rcases Nat.eq_zero_or_pos limit with rfl | some
  · -- one element stays where none should
    have four : slotsFor (max 0 1) = 4 := rfl
    have below := Nat.mod_lt (xs.length - 1) (Nat.succ_pos 3)
    rw [four] at head
    rw [List.rtake_zero, ← List.length_eq_zero_iff, firstSlice, List.length_take, items, rtake_length,
      capacity, head]
    rcases Nat.eq_zero_or_pos xs.length with none | more
    · omega
    · rw [Nat.min_eq_right (show max 0 1 ≤ xs.length by omega), four]
      omega
  · have most : max limit 1 = limit := Nat.max_eq_left some
    rw [most] at items capacity head
    have room := le_slotsFor limit
    have room' := le_slotsFor xs.length
    rw [← items, firstSlice_eq_items, items, rtake_length, capacity, head]
    rcases Nat.lt_or_ge limit xs.length with above | below
    · rw [Nat.min_eq_right above.le, Nat.min_eq_left above.le]
      omega
    · rw [Nat.min_eq_left below, Nat.min_eq_right below, Nat.sub_eq_zero_of_le below, Nat.zero_mod]
      omega

/-- The first slice has always held the last elements exactly if the limit is 1 or there were not
    more elements yet than slots: the next one wraps around. -/
theorem bounded_slices (limit : Nat) (xs : List α) :
    (∀ ys, ys <+: xs → (bounded limit ys).firstSlice = ys.rtake limit) ↔
      limit = 1 ∨ xs.length ≤ slotsFor limit := by
  simp only [bounded_firstSlice]
  induction xs using List.reverseRecOn with
  | nil => simp
  | append_singleton xs x ih =>
      have room := le_slotsFor limit
      have one : slotsFor 1 = 4 := rfl
      simp only [List.prefix_concat_iff, or_imp, forall_and, forall_eq, ih, List.length_append,
        List.length_singleton]
      constructor
      · rintro ⟨last, before⟩
        by_contra more
        have wraps : xs.length = slotsFor limit := by omega
        have place : (xs.length + 1 - limit) % slotsFor limit = xs.length + 1 - limit := by
          refine Nat.mod_eq_of_lt ?_
          omega
        omega
      · rintro (rfl | few)
        · have := Nat.mod_lt xs.length (Nat.succ_pos 3)
          rw [one]
          omega
        · refine ⟨?_, .inr (by omega)⟩
          rcases Nat.eq_zero_or_pos limit with rfl | some
          · exact absurd few (Nat.not_succ_le_zero _)
          · rcases Nat.lt_or_ge limit (xs.length + 1) with above | below
            · rw [Nat.mod_eq_of_lt (by omega)]
              omega
            · exact .inl below

end RingBuffer
