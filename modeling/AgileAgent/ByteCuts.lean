import Mathlib.Data.String.Basic

/-! # Cutting texts at byte offsets

The first bytes of a text are a text again only if they end between two characters. A cut at
a byte offset succeeds at such an offset and nowhere else, and what it leaves has no more
characters than bytes.

Nothing below depends on what the texts are.
-/

namespace ByteCuts

open String (utf8Len)

/-- Between two characters, or at an end, after this many bytes of UTF-8. -/
def CharBoundary (s : String) (n : Nat) : Prop := (⟨n⟩ : String.Pos.Raw).IsValid s

instance (s : String) (n : Nat) : Decidable (CharBoundary s n) :=
  inferInstanceAs (Decidable (String.Pos.Raw.IsValid s ⟨n⟩))

/-- The first `n` bytes, if they end at a boundary. -/
def cut : Nat → List Char → Option (List Char)
  | 0, _ => some []
  | _ + 1, [] => none
  | n + 1, c :: rest =>
      if c.utf8Size ≤ n + 1 then (cut (n + 1 - c.utf8Size) rest).map (c :: ·) else none

@[simp] theorem cut_zero {cs : List Char} : cut 0 cs = some [] := by
  cases cs <;> rfl

theorem cut_nil {n : Nat} : cut (n + 1) [] = none := rfl

theorem cut_cons {n : Nat} {c : Char} {rest : List Char} : cut (n + 1) (c :: rest) =
    if c.utf8Size ≤ n + 1 then (cut (n + 1 - c.utf8Size) rest).map (c :: ·) else none := rfl

theorem length_le_utf8Len (cs : List Char) : cs.length ≤ utf8Len cs := by
  induction cs with
  | nil => exact Nat.le_refl 0
  | cons c rest ih =>
      have positive := c.utf8Size_pos
      rw [List.length_cons, String.utf8Len_cons]
      omega

theorem utf8ByteSize_eq (s : String) : s.utf8ByteSize = utf8Len s.toList := by
  rw [← String.utf8ByteSize_ofList, String.ofList_toList]

theorem toList_length_le (s : String) : s.toList.length ≤ s.utf8ByteSize := by
  rw [utf8ByteSize_eq]
  exact length_le_utf8Len _

theorem cut_eq_some {n : Nat} {cs front : List Char} :
    cut n cs = some front ↔ front <+: cs ∧ utf8Len front = n := by
  induction cs generalizing n front with
  | nil =>
      cases n with
      | zero => cases front <;> simp
      | succ n => cases front <;> simp [cut_nil]
  | cons c rest ih =>
      have positive := c.utf8Size_pos
      cases n with
      | zero => cases front with
        | nil => simp
        | cons d front =>
            have := d.utf8Size_pos
            simp only [cut_zero, String.utf8Len_cons, Option.some.injEq, reduceCtorEq, false_iff, not_and]
            omega
      | succ n =>
          rw [cut_cons]
          cases front with
          | nil => split <;> simp
          | cons d front =>
              rw [List.cons_prefix_cons, String.utf8Len_cons]
              split
              · next fits =>
                  rw [Option.map_eq_some_iff]
                  constructor
                  · intro found
                    obtain ⟨front', here, same⟩ := found
                    obtain ⟨rfl, rfl⟩ := List.cons.inj same
                    obtain ⟨isPrefix, size⟩ := ih.mp here
                    exact ⟨⟨rfl, isPrefix⟩, by omega⟩
                  · intro given
                    obtain ⟨⟨rfl, isPrefix⟩, size⟩ := given
                    exact ⟨front, ih.mpr ⟨isPrefix, by omega⟩, rfl⟩
              · next large =>
                  simp only [reduceCtorEq, false_iff, not_and]
                  intro given
                  obtain ⟨rfl, -⟩ := given
                  omega

/-- What is cut off has at most as many characters as bytes were asked for. -/
theorem cut_length_le {n : Nat} {cs front : List Char} (found : cut n cs = some front) :
    front.length ≤ n := by
  obtain ⟨-, size⟩ := cut_eq_some.mp found
  have := length_le_utf8Len front
  omega

/-- A text can be cut exactly at the boundaries of its characters. -/
theorem cut_isSome_iff {s : String} {n : Nat} : (cut n s.toList).isSome ↔ CharBoundary s n := by
  rw [CharBoundary, String.Pos.Raw.isValid_iff_exists_append, Option.isSome_iff_exists]
  constructor
  · intro found
    obtain ⟨front, here⟩ := found
    obtain ⟨⟨back, whole⟩, size⟩ := cut_eq_some.mp here
    refine ⟨String.ofList front, String.ofList back, ?_, ?_⟩
    · rw [← String.ofList_append, whole, String.ofList_toList]
    · rw [String.Pos.Raw.ext_iff, String.byteIdx_rawEndPos, String.utf8ByteSize_ofList, size]
  · intro split
    obtain ⟨front, back, rfl, offset⟩ := split
    refine ⟨front.toList, cut_eq_some.mpr ⟨?_, ?_⟩⟩
    · rw [String.toList_append]
      exact List.prefix_append _ _
    · rw [← utf8ByteSize_eq]
      exact (congrArg String.Pos.Raw.byteIdx offset).symm

/-! ## Shortening -/

/-- A text of more than `limit` bytes is cut off there and gets another ending. -/
def shorten (limit : Nat) (ending s : String) : Option String :=
  if limit < s.utf8ByteSize then
    (cut limit s.toList).map fun front => String.ofList front ++ ending
  else some s

/-- The text is short enough, or there is a boundary at the limit. -/
def Fits (limit : Nat) (s : String) : Prop := limit < s.utf8ByteSize → CharBoundary s limit

instance (limit : Nat) (s : String) : Decidable (Fits limit s) :=
  inferInstanceAs (Decidable (limit < s.utf8ByteSize → CharBoundary s limit))

theorem shorten_isSome_iff {limit : Nat} {ending s : String} :
    (shorten limit ending s).isSome ↔ Fits limit s := by
  rw [shorten, Fits]
  split
  · next long => rw [Option.isSome_map, cut_isSome_iff, forall_prop_of_true long]
  · next short => simp [short]

/-- What is kept of a text is its beginning, with at most as many characters as the limit. -/
theorem shorten_keeps {limit : Nat} {ending s out : String} (shortened : shorten limit ending s = some out) :
    ∃ kept, kept <+: s.toList ∧ kept.length ≤ limit ∧
      (out = String.ofList kept ∨ out = String.ofList kept ++ ending) := by
  rw [shorten] at shortened
  split at shortened
  · obtain ⟨kept, found, rfl⟩ := Option.map_eq_some_iff.mp shortened
    exact ⟨kept, (cut_eq_some.mp found).1, cut_length_le found, .inr rfl⟩
  · next short =>
      obtain rfl := Option.some.inj shortened
      have := toList_length_le s
      exact ⟨s.toList, List.prefix_refl _, by omega, .inl (String.ofList_toList).symm⟩

end ByteCuts
