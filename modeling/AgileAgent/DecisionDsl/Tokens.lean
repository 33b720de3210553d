import AgileAgent.DecisionDsl.Runs
import Mathlib.Data.List.TakeWhile

/-! # The words of script expressions

What the scanner of the expressions does with white space, symbols, words and string literals, as
one lemma for each of its functions. Of the Unicode tables it needs what they say of ASCII, that
letters are alphanumeric and that white space is not.
-/

namespace AgileAgent.DecisionDsl

/-- The documented properties of `char::is_alphabetic` and `char::is_alphanumeric`. -/
class CharTables [Crates] : Prop where
  ascii_alphabetic : ∀ c : Char, c.toNat < 128 → Crates.isAlphabetic c = c.isAlpha
  ascii_alphanumeric : ∀ c : Char, c.toNat < 128 → Crates.isAlphanumeric c = c.isAlphanum
  alphabetic_alphanumeric : ∀ c, Crates.isAlphabetic c → Crates.isAlphanumeric c
  whitespace : ∀ c, isWhitespace c → Crates.isAlphanumeric c = false

namespace Script

@[simp] theorem ok_bind {ε α β : Type} (a : α) (next : α → Except ε β) : (Except.ok a >>= next) = next a := rfl

@[simp] theorem error_bind {ε α β : Type} (error : ε) (next : α → Except ε β) :
    (Except.error error >>= next) = Except.error error := rfl

theorem andThen_eq_ok {ε α β : Type} {first : Except ε α} {next : α → Except ε β} {b : β} :
    (first >>= next) = .ok b ↔ ∃ a, first = .ok a ∧ next a = .ok b := by
  cases first <;> simp

/-! ## White space -/

def Blank (ws : List Char) : Prop := ∀ c ∈ ws, isWhitespace c

/-- The text does not start with a character of the class. -/
def Stops (p : Char → Bool) (text : List Char) : Prop := text.head?.elim false p = false

@[simp] theorem stops_nil (p : Char → Bool) : Stops p [] := rfl

@[simp] theorem stops_cons (p : Char → Bool) (c : Char) (rest : List Char) :
    Stops p (c :: rest) ↔ p c = false := Iff.rfl

theorem stops_dropWhile (p : Char → Bool) (text : List Char) : Stops p (text.dropWhile p) := by
  induction text with
  | nil => exact stops_nil p
  | cons c rest ih =>
      rw [List.dropWhile_cons]
      split
      · exact ih
      · next other => exact (stops_cons p c rest).mpr (by simpa using other)

theorem dropWhile_append_stops {p : Char → Bool} {front rest : List Char} (all : ∀ c ∈ front, p c)
    (stops : Stops p rest) : (front ++ rest).dropWhile p = rest := by
  rw [List.dropWhile_append_of_pos all]
  cases rest with
  | nil => rfl
  | cons c rest => exact List.dropWhile_cons_of_neg (by simpa using stops)

theorem takeWhile_append_stops {p : Char → Bool} {front rest : List Char} (all : ∀ c ∈ front, p c)
    (stops : Stops p rest) : (front ++ rest).takeWhile p = front := by
  rw [List.takeWhile_append_of_pos all]
  cases rest with
  | nil => exact List.append_nil front
  | cons c rest => rw [List.takeWhile_cons_of_neg (by simpa using stops), List.append_nil]

theorem skipWs_stops (text : List Char) : Stops isWhitespace (skipWs text) := stops_dropWhile _ _

theorem skipWs_of_stops {text : List Char} (stops : Stops isWhitespace text) : skipWs text = text :=
  dropWhile_append_stops (List.forall_mem_nil _) stops

@[simp] theorem skipWs_skipWs (text : List Char) : skipWs (skipWs text) = skipWs text :=
  skipWs_of_stops (skipWs_stops text)

theorem skipWs_blank {ws : List Char} (blank : Blank ws) (text : List Char) : skipWs (ws ++ text) = skipWs text :=
  List.dropWhile_append_of_pos blank

theorem skipWs_eq_nil {text : List Char} : skipWs text = [] ↔ Blank text := List.dropWhile_eq_nil_iff

theorem skipWs_split (text : List Char) : ∃ ws, Blank ws ∧ text = ws ++ skipWs text :=
  ⟨text.takeWhile isWhitespace, fun _ => List.mem_takeWhile_imp, List.takeWhile_append_dropWhile.symm⟩

/-! ## Symbols and words -/

section

variable [Crates]

@[simp] theorem consume_skipWs (s : String) (input : List Char) : consume s (skipWs input) = consume s input := by
  simp only [consume, skipWs_skipWs]

theorem consume_blank {ws : List Char} (blank : Blank ws) (s : String) (input : List Char) :
    consume s (ws ++ input) = consume s input := by
  simp only [consume, skipWs_blank blank]

/-- What is consumed, and that a word ends where it is consumed. -/
theorem consume_eq_true {s : String} {input rest : List Char} : consume s input = (true, rest) ↔
    skipWs input = s.toList ++ rest ∧ (s.toList.all isWordChar → Stops isWordChar rest) := by
  unfold consume
  dsimp only
  constructor
  · split
    · next here =>
        obtain ⟨after, whole⟩ := List.isPrefixOf_iff_prefix.mp here
        split
        · simp
        · next ends =>
            rw [← whole, List.drop_left, Prod.mk.injEq] at *
            rintro ⟨-, rfl⟩
            refine ⟨rfl, fun word => ?_⟩
            simpa [word, Stops] using ends
    · simp
  · rintro ⟨whole, ends⟩
    have here : s.toList.isPrefixOf (skipWs input) := by
      rw [whole, List.isPrefixOf_iff_prefix]
      exact List.prefix_append _ _
    rw [if_pos here, whole, List.drop_left, if_neg]
    rintro both
    rw [Bool.and_eq_true] at both
    rw [ends both.1] at both
    exact absurd both.2 (by simp)

theorem consume_eq_false {s : String} {input rest : List Char} (missed : consume s input = (false, rest)) :
    rest = skipWs input := by
  unfold consume at missed
  dsimp only at missed
  split at missed
  · split at missed
    · exact (Prod.mk.inj missed).2.symm
    · simp at missed
  · exact (Prod.mk.inj missed).2.symm

theorem consume_eq_false_of_ne {s : String} {input : List Char} (not : ∀ rest, consume s input ≠ (true, rest)) :
    consume s input = (false, skipWs input) := by
  cases result : consume s input with
  | mk found rest =>
      cases found with
      | true => exact absurd result (not rest)
      | false => rw [consume_eq_false result]

theorem consume_symbol {s : String} (symbol : s.toList.all isWordChar = false) {input rest : List Char}
    (starts : skipWs input = s.toList ++ rest) : consume s input = (true, rest) :=
  consume_eq_true.mpr ⟨starts, fun word => absurd (symbol.symm.trans word) (by simp)⟩

/-- The input starts with another character, or with none. -/
theorem consume_other {s : String} {d : Char} {ds : List Char} (first : s.toList = d :: ds) {input : List Char}
    (other : (skipWs input).head? ≠ some d) : consume s input = (false, skipWs input) := by
  refine consume_eq_false_of_ne fun rest found => other ?_
  rw [(consume_eq_true.mp found).1, first]
  rfl

theorem isWordChar_ascii [CharTables] {c : Char} (ascii : c.toNat < 128) :
    isWordChar c = (c.isAlphanum || c == '_') := by
  rw [isWordChar, CharTables.ascii_alphanumeric c ascii]

theorem isWordChar_blank [CharTables] {c : Char} (blank : isWhitespace c) : isWordChar c = false := by
  rw [isWordChar, CharTables.whitespace c blank, Bool.false_or, beq_eq_false_iff_ne]
  rintro rfl
  exact absurd blank (by decide)

end

/-! ## String literals -/

/-- The character that an escape sequence of one letter stands for. -/
def unescape : Char → Char
  | 'n' => '\n'
  | 't' => '\t'
  | 'r' => '\r'
  | c => c

def hexDigit (c : Char) : Option Nat :=
  if c.isDigit then some (c.toNat - '0'.toNat)
  else if 'a' ≤ c ∧ c ≤ 'f' then some (c.toNat - 'a'.toNat + 10)
  else if 'A' ≤ c ∧ c ≤ 'F' then some (c.toNat - 'A'.toNat + 10)
  else none

def hexValue (digits : List Char) : Option Nat :=
  digits.foldl (fun value digit => do return 16 * (← value) + (← hexDigit digit)) (some 0)

/-- How a character of a string is written. -/
inductive Spelling where
  | raw
  | escaped (letter : Char)
  | unicode (digits : List Char)
  deriving Repr, DecidableEq

namespace Spelling

/-- The ways to write a character: as it is unless it is a quote or a backslash, as an escape
    sequence, and with four hexadecimal digits. -/
def Spells (c : Char) : Spelling → Prop
  | raw => c ≠ '"' ∧ c ≠ '\\'
  | escaped letter => letter ≠ 'u' ∧ unescape letter = c
  | unicode digits => digits.length = 4 ∧ hexValue digits = some c.toNat

instance (c : Char) : (spelling : Spelling) → Decidable (spelling.Spells c)
  | raw => inferInstanceAs (Decidable (c ≠ '"' ∧ c ≠ '\\'))
  | escaped letter => inferInstanceAs (Decidable (letter ≠ 'u' ∧ unescape letter = c))
  | unicode digits => inferInstanceAs (Decidable (digits.length = 4 ∧ hexValue digits = some c.toNat))

def text (c : Char) : Spelling → List Char
  | raw => [c]
  | escaped letter => ['\\', letter]
  | unicode digits => '\\' :: 'u' :: digits

def isUnicode : Spelling → Bool
  | unicode _ => true
  | _ => false

end Spelling

structure SpelledChar where
  char : Char
  spelling : Spelling
  spells : spelling.Spells char

namespace SpelledChar

def text (c : SpelledChar) : List Char := c.spelling.text c.char

def isUnicode (c : SpelledChar) : Bool := c.spelling.isUnicode

end SpelledChar

def literalText (literal : List SpelledChar) : List Char :=
  '"' :: (literal.flatMap SpelledChar.text ++ ['"'])

def literalValue (literal : List SpelledChar) : String := String.ofList (literal.map (·.char))

theorem parseStringChars_raw {c : Char} (quote : c ≠ '"') (backslash : c ≠ '\\') (rest : List Char) :
    parseStringChars (c :: rest) = (parseStringChars rest).map fun (chars, rest) => (c :: chars, rest) := by
  rw [parseStringChars]
  · cases parseStringChars rest <;> rfl
  · exact quote
  · intro same _
    exact backslash same
  · intro _ _ same _
    exact backslash same

theorem parseStringChars_escaped {letter : Char} (code : letter ≠ 'u') (rest : List Char) :
    parseStringChars ('\\' :: letter :: rest) =
      (parseStringChars rest).map fun (chars, rest) => (unescape letter :: chars, rest) := by
  unfold unescape
  split
  · rw [parseStringChars]
    cases parseStringChars rest <;> rfl
  · rw [parseStringChars]
    cases parseStringChars rest <;> rfl
  · rw [parseStringChars]
    cases parseStringChars rest <;> rfl
  · next n t r =>
      rw [parseStringChars.eq_8 letter rest n t r code]
      cases parseStringChars rest <;> rfl

/-- The loop reads every spelling but that with hexadecimal digits. -/
theorem parseStringChars_text (literal : List SpelledChar) (rest : List Char) :
    parseStringChars (literal.flatMap SpelledChar.text ++ '"' :: rest) =
      if literal.any SpelledChar.isUnicode then
        .error (.filterError "invalid unicode escape: expected 4 hex digits")
      else .ok (literal.map (·.char), '"' :: rest) := by
  induction literal with
  | nil => rfl
  | cons c literal ih =>
      obtain ⟨char, spelling, spells⟩ := c
      rw [List.flatMap_cons, List.append_assoc, List.any_cons, List.map_cons]
      cases spelling with
      | raw =>
          rw [SpelledChar.text, Spelling.text, List.singleton_append, parseStringChars_raw spells.1 spells.2, ih]
          simp only [SpelledChar.isUnicode, Spelling.isUnicode, Bool.false_or]
          split <;> rfl
      | escaped letter =>
          rw [SpelledChar.text, Spelling.text, List.cons_append, List.singleton_append,
            parseStringChars_escaped spells.1, ih]
          simp only [SpelledChar.isUnicode, Spelling.isUnicode, Bool.false_or, spells.2]
          split <;> rfl
      | unicode digits => rfl

section

variable [Crates] [CharTables]

theorem consume_quote (rest : List Char) : consume "\"" ('"' :: rest) = (true, rest) :=
  consume_symbol (by simp [isWordChar_ascii]) rfl

theorem parseString_text (literal : List SpelledChar) (rest : List Char) :
    parseString (literalText literal ++ rest) =
      if literal.any SpelledChar.isUnicode then
        .error (.filterError "invalid unicode escape: expected 4 hex digits")
      else .ok (literalValue literal, rest) := by
  have text : literalText literal ++ rest = '"' :: (literal.flatMap SpelledChar.text ++ '"' :: rest) := by
    simp [literalText]
  rw [parseString, consume_skipWs, text, consume_quote]
  dsimp only
  rw [parseStringChars_text]
  split
  · rfl
  · rw [ok_bind]
    dsimp only
    rw [consume_quote]
    rfl

/-- A literal is read back, up to its closing quote, exactly if no character is written with
    hexadecimal digits. -/
theorem parseString_literal (literal : List SpelledChar) (rest : List Char) :
    parseString (literalText literal ++ rest) = .ok (literalValue literal, rest) ↔
      ∀ c ∈ literal, c.isUnicode = false := by
  rw [parseString_text]
  split
  · next unicode =>
      simp only [reduceCtorEq, false_iff]
      intro readable
      obtain ⟨c, member, written⟩ := List.any_eq_true.mp unicode
      rw [readable c member] at written
      cases written
  · next readable => simpa using readable

end

open Plain

scoped instance tables : CharTables where
  ascii_alphabetic _ _ := rfl
  ascii_alphanumeric _ _ := rfl
  alphabetic_alphanumeric c letter := by
    change c.isAlphanum
    rw [Char.isAlphanum, show c.isAlpha from letter, Bool.true_or]
  whitespace c blank := by
    change c.isAlphanum = false
    simp only [isWhitespace, Bool.or_eq_true, Bool.and_eq_true, decide_eq_true_eq, beq_iff_eq,
      Char.toNat] at blank
    change (decide ('A'.val ≤ c.val ∧ c.val ≤ 'Z'.val) || ('a'.val ≤ c.val && c.val ≤ 'z'.val) ||
      ('0'.val ≤ c.val && c.val ≤ '9'.val)) = false
    simp only [Bool.or_eq_false_iff, Bool.and_eq_false_iff, decide_eq_false_iff_not,
      UInt32.le_iff_toNat_le]
    have upper : 'A'.val.toNat = 65 ∧ 'Z'.val.toNat = 90 := ⟨rfl, rfl⟩
    have lower : 'a'.val.toNat = 97 ∧ 'z'.val.toNat = 122 := ⟨rfl, rfl⟩
    have digits : '0'.val.toNat = 48 ∧ '9'.val.toNat = 57 := ⟨rfl, rfl⟩
    omega

def sampleLiteral : List SpelledChar :=
  [⟨'a', .raw, by decide⟩, ⟨'\n', .escaped 'n', by decide⟩, ⟨'"', .escaped '"', by decide⟩, ⟨'λ', .raw, by decide⟩]

theorem parseString_sample : parseString (literalText sampleLiteral ++ [')']) =
    .ok (literalValue sampleLiteral, [')']) :=
  (parseString_literal sampleLiteral [')']).mpr (by decide)

/-- `"\u0041"` should read as `A`, and is refused. -/
theorem parseString_refuses_unicode :
    parseString "\"\\u0041\"".toList ≠ .ok ("A", []) ∧
      ∃ literal : List SpelledChar, literalText literal = "\"\\u0041\"".toList ∧ literalValue literal = "A" := by
  refine ⟨by decide +kernel, [⟨'A', .unicode ['0', '0', '4', '1'], by decide⟩], by decide, by decide⟩

end Script

end AgileAgent.DecisionDsl
