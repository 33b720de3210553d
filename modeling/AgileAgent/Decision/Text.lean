import Mathlib.Data.List.Infix
import AgileAgent.DecisionDsl.Host

/-! # Texts

`str::lines`, `str::starts_with` and `str::contains`.
-/

namespace AgileAgent.Decision

open DecisionDsl (isWhitespace strContains trim)

def linesFrom : List Char → List Char → List (List Char)
  | [], [] => []
  | line, [] => [line.reverse]
  | line, '\r' :: '\n' :: rest => line.reverse :: linesFrom [] rest
  | line, '\n' :: rest => line.reverse :: linesFrom [] rest
  | line, c :: rest => linesFrom (c :: line) rest

/-- `str::lines`. -/
def textLines (s : String) : List String := (linesFrom [] s.toList).map String.ofList

def startsWith (s pattern : String) : Bool := pattern.toList.isPrefixOf s.toList

/-! ## Lines -/

theorem linesFrom_break (acc rest : List Char) :
    linesFrom acc ('\n' :: rest) = acc.reverse :: linesFrom [] rest := by
  cases acc <;> rfl

theorem linesFrom_return (acc rest : List Char) :
    linesFrom acc ('\r' :: '\n' :: rest) = acc.reverse :: linesFrom [] rest := by
  cases acc <;> rfl

theorem linesFrom_cons {c : Char} (acc : List Char) {rest : List Char} (inner : c ≠ '\n')
    (kept : c = '\r' → rest.head? ≠ some '\n') : linesFrom acc (c :: rest) = linesFrom (c :: acc) rest := by
  rw [linesFrom]
  · intro rest' return_ more
    exact kept return_ (by rw [more]; rfl)
  · exact inner

/-- A line that ends there. -/
theorem linesFrom_line {line : List Char} (acc rest : List Char) (oneLine : '\n' ∉ line)
    (last : line.getLast? ≠ some '\r') :
    linesFrom acc (line ++ '\n' :: rest) = (acc.reverse ++ line) :: linesFrom [] rest := by
  induction line generalizing acc with
  | nil => simp [linesFrom_break]
  | cons c line ih =>
      have inner : c ≠ '\n' := by grind
      rw [List.cons_append, linesFrom_cons acc inner, ih (c :: acc) (by grind)]
      · simp
      · cases line with
        | nil => simp
        | cons => simpa using last
      · intro return_
        cases line with
        | nil => simp [return_] at last
        | cons d line => grind

/-- What follows a line break is read by itself. -/
theorem linesFrom_append (acc text rest : List Char) :
    linesFrom acc (text ++ '\n' :: rest) = linesFrom acc (text ++ ['\n']) ++ linesFrom [] rest := by
  fun_induction linesFrom acc text with
  | case1 => simp [linesFrom_break, linesFrom]
  | case2 => simp [linesFrom_break, linesFrom]
  | case3 acc text ih => simp [linesFrom_return, ih]
  | case4 acc text ih => simp [linesFrom_break, ih]
  | case5 acc c text notReturn notBreak ih =>
      have inner : c ≠ '\n' := notBreak
      cases text with
      | nil =>
          by_cases h : c = '\r'
          · simp [h, linesFrom_return, linesFrom]
          · rw [List.cons_append, List.cons_append, linesFrom_cons acc inner, linesFrom_cons acc inner]
            · exact ih
            · exact fun h' => absurd h' h
            · exact fun h' => absurd h' h
      | cons d text =>
          have kept : c = '\r' → d ≠ '\n' := by
            intro h h'
            exact notReturn text h (by rw [h'])
          have step (more : List Char) : linesFrom acc (c :: d :: text ++ more) =
              linesFrom (c :: acc) (d :: text ++ more) :=
            linesFrom_cons acc inner (by simpa using kept)
          rw [step, step]
          exact ih

theorem linesFrom_inner {front : List Char} (acc more : List Char)
    (notBreak : '\n' ∉ front) (notReturn : '\r' ∉ front) :
    linesFrom acc (front ++ more) = linesFrom (front.reverse ++ acc) more := by
  induction front generalizing acc with
  | nil => rfl
  | cons c front ih =>
      rw [List.mem_cons, not_or] at notBreak notReturn
      rw [List.cons_append, linesFrom_cons acc (Ne.symm notBreak.1) (fun h => absurd h.symm notReturn.1),
        ih _ notBreak.2 notReturn.2]
      simp

theorem linesFrom_head {text : List Char} (acc : List Char) (something : acc ≠ []) :
    ∃ more rest, linesFrom acc text = (acc.reverse ++ more) :: rest := by
  fun_induction linesFrom acc text with
  | case1 => exact absurd rfl something
  | case2 acc => exact ⟨[], [], by simp⟩
  | case3 acc text => exact ⟨[], linesFrom [] text, by simp⟩
  | case4 acc text => exact ⟨[], linesFrom [] text, by simp⟩
  | case5 acc c text _ _ ih =>
      obtain ⟨more, rest, head⟩ := ih (List.cons_ne_nil _ _)
      exact ⟨c :: more, rest, by simp [head]⟩

/-- Lines that are written one after the other are read back. -/
theorem textLines_written {lines : List (List Char)}
    (oneLine : ∀ line ∈ lines, '\n' ∉ line ∧ line.getLast? ≠ some '\r') :
    textLines (String.ofList (lines.flatMap (· ++ ['\n']))) = lines.map String.ofList := by
  rw [textLines, String.toList_ofList]
  congr 1
  induction lines with
  | nil => rfl
  | cons line rest ih =>
      obtain ⟨inner, last⟩ := oneLine line List.mem_cons_self
      have others := ih fun other member => oneLine other (List.mem_cons_of_mem _ member)
      rw [List.flatMap_cons, List.append_assoc, List.singleton_append,
        linesFrom_line [] _ inner last, others]
      rfl

/-! ## Blanks -/

theorem dropWhile_id {α : Type} {p : α → Bool} {l : List α} (kept : ∀ a ∈ l.head?, p a = false) :
    l.dropWhile p = l := by
  cases l with
  | nil => rfl
  | cons a rest =>
      have first : p a = false := kept a rfl
      rw [List.dropWhile_cons, first]
      rfl

/-- A text without a blank at its ends stays as it is. -/
theorem trim_of_ends {s : List Char} (first : ∀ c ∈ s.head?, isWhitespace c = false)
    (last : ∀ c ∈ s.getLast?, isWhitespace c = false) : trim (String.ofList s) = String.ofList s := by
  have back : s.reverse.dropWhile isWhitespace = s.reverse :=
    dropWhile_id (by rwa [List.head?_reverse])
  rw [trim, String.toList_ofList, dropWhile_id first, back, List.reverse_reverse]

/-- The line break at the end of an output goes. -/
theorem trim_line {s : List Char} (first : ∀ c ∈ s.head?, isWhitespace c = false)
    (last : ∀ c ∈ s.getLast?, isWhitespace c = false) :
    trim (String.ofList (s ++ ['\n'])) = String.ofList s := by
  have back : s.reverse.dropWhile isWhitespace = s.reverse :=
    dropWhile_id (by rwa [List.head?_reverse])
  have front : (s ++ ['\n']).dropWhile isWhitespace = s ++ ['\n'] ∨
      (s ++ ['\n']).dropWhile isWhitespace = [] ∧ s = [] := by
    cases s with
    | nil => exact .inr ⟨by decide, rfl⟩
    | cons c rest => exact .inl (dropWhile_id first)
  rw [trim, String.toList_ofList]
  rcases front with kept | ⟨gone, rfl⟩
  · have blank : isWhitespace '\n' = true := by decide
    rw [kept, List.reverse_append, List.reverse_singleton, List.singleton_append,
      List.dropWhile_cons, blank, if_pos rfl, back, List.reverse_reverse]
  · rw [gone]
    rfl

/-! ## Parts -/

theorem strContains_iff (s pattern : String) :
    strContains s pattern = true ↔ pattern.toList <:+: s.toList := by
  simp only [strContains, List.any_eq_true, List.mem_tails, List.isPrefixOf_iff_prefix]
  constructor
  · intro found
    obtain ⟨rest, isSuffix, isPrefix⟩ := found
    exact isPrefix.isInfix.trans isSuffix.isInfix
  · intro found
    obtain ⟨before, after, whole⟩ := found
    exact ⟨pattern.toList ++ after, ⟨before, by rw [← List.append_assoc, whole]⟩,
      List.prefix_append _ _⟩

/-- A beginning without a character that stands in the text ends before it. -/
theorem prefix_before {α : Type} {part : List α} {between : α} (without : between ∉ part)
    {before after : List α} (isPrefix : part <+: before ++ between :: after) : part <+: before := by
  rcases List.prefix_or_prefix_of_prefix isPrefix (List.prefix_append before _) with here | longer
  · exact here
  · obtain ⟨more, rfl⟩ := longer
    have inner := (List.prefix_append_right_inj before).mp isPrefix
    cases more with
    | nil => rw [List.append_nil]
    | cons first rest =>
        obtain ⟨rfl, -⟩ := List.cons_prefix_cons.mp inner
        exact absurd (List.mem_append_right before List.mem_cons_self) without

/-- A part without a character that stands between two texts is in one of them. -/
theorem infix_around {α : Type} {part : List α} {between : α} (without : between ∉ part)
    (before after : List α) :
    part <:+: before ++ between :: after ↔ part <:+: before ∨ part <:+: after := by
  constructor
  · intro found
    induction before with
    | nil =>
        rcases List.infix_cons_iff.mp found with isPrefix | inner
        · exact .inl (prefix_before without isPrefix).isInfix
        · exact .inr inner
    | cons c before ih =>
        rcases List.infix_cons_iff.mp found with isPrefix | inner
        · exact .inl (@prefix_before _ _ _ without (c :: before) _ isPrefix).isInfix
        · rcases ih inner with here | there
          · exact .inl (here.trans (List.suffix_cons c before).isInfix)
          · exact .inr there
  · intro found
    rcases found with here | there
    · exact here.trans (List.prefix_append _ _).isInfix
    · exact there.trans ((List.suffix_cons between after).isInfix.trans
        (List.suffix_append before _).isInfix)

theorem strContains_self (s : String) : strContains s s := by
  simp only [strContains, List.any_eq_true, List.isPrefixOf_iff_prefix]
  exact ⟨s.toList, (List.mem_tails _ _).mpr (List.suffix_refl _), List.prefix_refl _⟩

end AgileAgent.Decision
