import AgileAgent.Provider.LaunchConfig
import AgileAgent.SortedMap
import AgileAgent.Substitution

/-! # References to environment variables

`${NAME}` gives way to the value of a variable. The loop edits the text it reads and goes on behind what
it put there. What it takes for a name goes up to the next brace, whatever is in between, so that it can
pass over a reference or take one for a name that is none.
-/

namespace AgileAgent.Provider

open Substitution (splitFirst splitFirst_absent splitFirst_cons splitFirst_element splitFirst_found
  splitFirst_text split_unique)

/-- The first character of a name that is looked up. -/
def isNameStart (c : Char) : Bool := c.isAlpha || c == '_'

/-! ## The loop -/

/-- The text that is edited, on both sides of the position `start`. -/
structure Scan where
  done : List Char
  rest : List Char

/-- What `${name}` gives way to, or itself where the variable is not set. -/
def lookedUp (env : EnvMap) (name : List Char) : List Char :=
  match env.lookup (String.ofList name) with
  | some value => value.toList
  | none => '$' :: '{' :: name ++ ['}']

/-- What one round puts in front of the new position and leaves behind it; none where the loop is left. -/
def scanRound (env : EnvMap) (rest : List Char) : Option (List Char × List Char) := do
  let (before, opened) ← splitFirst ['$', '{'] rest
  let (name, after) ← splitFirst ['}'] opened
  if name.head?.any isNameStart then some (before ++ lookedUp env name, after)
  else some (before ++ ['$', '{'], opened)

/-- The loop, for at most so many rounds; none where they are used up. -/
def scan (env : EnvMap) : Nat → Scan → Option Scan
  | 0, _ => none
  | fuel + 1, s =>
      match scanRound env s.rest with
      | none => some s
      | some (piece, rest) => scan env fuel ⟨s.done ++ piece, rest⟩

/-- A text has more than enough rounds. -/
def interpolateEnvValue (env : EnvMap) (value : String) : Option String :=
  (scan env (value.length + 1) ⟨[], value.toList⟩).map fun s => String.ofList (s.done ++ s.rest)

/-! ## One pass -/

/-- The name and the value of the reference that a text begins with. -/
def reference (env : EnvMap) (text : List Char) : Option (List Char × String) :=
  if ['$', '{'] <+: text then do
    let (name, _) ← splitFirst ['}'] (text.drop 2)
    if isValidKey (String.ofList name) then (env.lookup (String.ofList name)).map (name, ·) else none
  else none

/-- The characters of a reference that are still to be passed over are counted. -/
def onePassFrom (env : EnvMap) : Nat → List Char → List Char
  | _, [] => []
  | skip + 1, _ :: rest => onePassFrom env skip rest
  | 0, c :: rest =>
      match reference env (c :: rest) with
      | some (name, value) => value.toList ++ onePassFrom env (name.length + 2) rest
      | none => c :: onePassFrom env 0 rest

/-- The text with the references to variables that are set replaced by their values, from left to right
    and each behind the last. -/
def onePass (env : EnvMap) (text : List Char) : List Char := onePassFrom env 0 text

theorem onePassFrom_skip (env : EnvMap) (w rest : List Char) :
    onePassFrom env w.length (w ++ rest) = onePass env rest := by
  induction w with
  | nil => rfl
  | cons c w ih =>
      rw [List.length_cons, List.cons_append, onePassFrom]
      exact ih

section

variable {env : EnvMap} {c : Char} {rest : List Char}

theorem onePass_nil : onePass env [] = [] := rfl

theorem onePass_cons (plain : reference env (c :: rest) = none) :
    onePass env (c :: rest) = c :: onePass env rest := by
  rw [onePass, onePassFrom, plain]
  rfl

/-- No identifier has a brace or a dollar sign in it. -/
theorem isValidKey_chars {name : List Char} (valid : isValidKey (String.ofList name)) :
    name.head?.any isNameStart ∧ '}' ∉ name ∧ '$' ∉ name := by
  rw [isValidKey, String.toList_ofList] at valid
  cases name with
  | nil => cases valid
  | cons c rest =>
      obtain ⟨start, others⟩ := Bool.and_eq_true_iff.mp valid
      have first : c.isAlphanum || c == '_' := by
        cases Bool.or_eq_true_iff.mp start with
        | inl letter => simp [Char.isAlphanum, letter]
        | inr low => simp [low]
      have all (d : Char) (member : d ∈ c :: rest) : d.isAlphanum || d == '_' := by
        cases List.mem_cons.mp member with
        | inl same => exact same ▸ first
        | inr later => exact List.all_eq_true.mp others d later
      refine ⟨start, ?_, ?_⟩ <;>
      · intro member
        exact absurd (all _ member) (by decide)

theorem reference_opens {text : List Char} {found : List Char × String} (isRef : reference env text = some found) :
    ∃ rest, text = '$' :: '{' :: found.1 ++ '}' :: rest ∧ isValidKey (String.ofList found.1) ∧
      env.lookup (String.ofList found.1) = some found.2 := by
  rw [reference] at isRef
  split at isRef
  · next opened =>
      obtain ⟨sides, split, tested⟩ := Option.bind_eq_some_iff.mp isRef
      have whole := List.prefix_iff_eq_append.mp opened
      rw [List.length_cons, List.length_singleton, splitFirst_text split] at whole
      simp only at tested
      split at tested
      · next valid =>
          obtain ⟨value, set, rfl⟩ := Option.map_eq_some_iff.mp tested
          exact ⟨sides.2, whole.symm, valid, set⟩
      · cases tested
  · cases isRef

theorem reference_of {name : List Char} {value : String} (valid : isValidKey (String.ofList name))
    (set : env.lookup (String.ofList name) = some value) :
    reference env ('$' :: '{' :: name ++ '}' :: rest) = some (name, value) := by
  have absent := (isValidKey_chars valid).2.1
  have opened : ['$', '{'] <+: '$' :: '{' :: name ++ '}' :: rest := List.prefix_append ['$', '{'] _
  have split : splitFirst ['}'] (('$' :: '{' :: name ++ '}' :: rest).drop 2) = some (name, rest) :=
    splitFirst_element absent rest
  rw [reference, if_pos opened, split]
  simp [valid, set]

theorem onePass_reference {name : List Char} {value : String} (valid : isValidKey (String.ofList name))
    (set : env.lookup (String.ofList name) = some value) :
    onePass env ('$' :: '{' :: name ++ '}' :: rest) = value.toList ++ onePass env rest := by
  have isRef : reference env ('$' :: ('{' :: name ++ '}' :: rest)) = some (name, value) := reference_of valid set
  have skipped := onePassFrom_skip env ('{' :: name ++ ['}']) rest
  rw [List.append_assoc, List.length_append, List.length_cons] at skipped
  rw [List.cons_append, List.cons_append, onePass, onePassFrom]
  simp only [List.cons_append] at isRef
  rw [isRef]
  exact congrArg (value.toList ++ ·) skipped

end

/-! ## Where names begin -/

/-- What the loop looks up begins here, if there is a brace behind. -/
def OpensName (text : List Char) : Prop := ∃ c rest, text = '$' :: '{' :: c :: rest ∧ isNameStart c

/-- No name begins in a text. -/
def Quiet (w : List Char) : Prop := ∀ back, back <:+ w → ¬ OpensName back

/-- The text ends, or goes on with a brace or with what may be the next reference. -/
def Breaks (text : List Char) : Prop := ∀ c ∈ text.head?, c = '$' ∨ c = '}'

theorem quiet_nil : Quiet [] := by
  intro back isSuffix opens
  obtain ⟨c, rest, rfl, -⟩ := opens
  exact absurd (List.suffix_nil.mp isSuffix) (List.cons_ne_nil _ _)

theorem Quiet.tail {c : Char} {w : List Char} (quiet : Quiet (c :: w)) : Quiet w := by
  intro back isSuffix
  exact quiet back (isSuffix.trans (List.suffix_cons c w))

theorem Quiet.not_opens {c : Char} {w text : List Char} (quiet : Quiet (c :: w)) (breaks : Breaks text) :
    ¬ OpensName (c :: w ++ text) := by
  intro opens
  obtain ⟨d, rest, whole, start⟩ := opens
  cases w with
  | nil =>
      obtain ⟨-, rfl⟩ := List.cons.inj whole
      cases breaks '{' rfl with
      | inl same => exact absurd same (by decide)
      | inr same => exact absurd same (by decide)
  | cons e w =>
      obtain ⟨rfl, behind⟩ := List.cons.inj whole
      obtain ⟨rfl, later⟩ := List.cons.inj behind
      cases w with
      | nil =>
          have goesOn : text = d :: rest := later
          cases breaks d (goesOn ▸ rfl) with
          | inl same => exact absurd (same ▸ start) (by decide)
          | inr same => exact absurd (same ▸ start) (by decide)
      | cons f w =>
          obtain ⟨rfl, -⟩ := List.cons.inj later
          exact quiet _ (List.suffix_refl _) ⟨f, w, rfl, start⟩

theorem Quiet.cons {c : Char} {w : List Char} (quiet : Quiet w) (none : ¬ OpensName (c :: w)) :
    Quiet (c :: w) := by
  intro back isSuffix
  cases List.suffix_cons_iff.mp isSuffix with
  | inl whole => exact whole ▸ none
  | inr inner => exact quiet back inner

/-- Up to the first name nothing begins. -/
theorem exists_quiet (s : List Char) : Quiet s ∨ ∃ front name, s = front ++ '$' :: '{' :: name ∧
    Quiet front ∧ name.head?.any isNameStart := by
  induction s with
  | nil => exact .inl quiet_nil
  | cons c s ih =>
      by_cases opens : OpensName (c :: s)
      · obtain ⟨d, rest, whole, start⟩ := opens
        exact .inr ⟨[], d :: rest, whole, quiet_nil, start⟩
      · cases ih with
        | inl quiet => exact .inl (quiet.cons opens)
        | inr found =>
            obtain ⟨front, name, rfl, quiet, start⟩ := found
            refine .inr ⟨c :: front, name, rfl, quiet.cons ?_, start⟩
            intro inside
            obtain ⟨d, rest, whole, first⟩ := inside
            exact opens ⟨d, rest ++ '$' :: '{' :: name, congrArg (· ++ '$' :: '{' :: name) whole, first⟩

theorem onePass_quiet {env : EnvMap} {w text : List Char} (quiet : Quiet w) (breaks : Breaks text) :
    onePass env (w ++ text) = w ++ onePass env text := by
  induction w with
  | nil => rfl
  | cons c w ih =>
      rw [List.cons_append, onePass_cons, ih quiet.tail, List.cons_append]
      rw [Option.eq_none_iff_forall_ne_some]
      intro found isRef
      obtain ⟨rest, whole, valid, -⟩ := reference_opens isRef
      have start := (isValidKey_chars valid).1
      cases name : found.1 with
      | nil => rw [name] at start; cases start
      | cons d others =>
          rw [name] at whole start
          exact quiet.not_opens breaks ⟨d, others ++ '}' :: rest, whole, start⟩

/-- A reference that begins here ends at the next brace. -/
theorem reference_closed {env : EnvMap} {s rest : List Char} {found : List Char × String} (closed : '}' ∉ s)
    (isRef : reference env (s ++ '}' :: rest) = some found) :
    s = '$' :: '{' :: found.1 ∧ isValidKey (String.ofList found.1) ∧
      env.lookup (String.ofList found.1) = some found.2 := by
  obtain ⟨behind, whole, valid, set⟩ := reference_opens isRef
  have closed' : '}' ∉ '$' :: '{' :: found.1 := by
    simpa using (isValidKey_chars valid).2.1
  exact ⟨(split_unique closed closed' whole).1, valid, set⟩

/-- Where no reference ends at the brace all is kept up to it. -/
theorem onePass_kept {env : EnvMap} {s rest : List Char} (closed : '}' ∉ s)
    (free : ∀ inner, '$' :: '{' :: inner <:+ s → isValidKey (String.ofList inner) →
      env.lookup (String.ofList inner) = none) :
    onePass env (s ++ '}' :: rest) = s ++ '}' :: onePass env rest := by
  induction s with
  | nil =>
      rw [List.nil_append, onePass_cons, List.nil_append]
      rw [Option.eq_none_iff_forall_ne_some]
      intro found isRef
      exact absurd (reference_closed (s := []) closed isRef).1 (List.cons_ne_nil _ _).symm
  | cons c s ih =>
      have later := ih (fun member => closed (List.mem_cons_of_mem c member)) fun inner isSuffix =>
        free inner (isSuffix.trans (List.suffix_cons c s))
      rw [List.cons_append, onePass_cons, later, List.cons_append]
      rw [Option.eq_none_iff_forall_ne_some]
      intro found isRef
      obtain ⟨whole, valid, set⟩ := reference_closed closed isRef
      rw [free found.1 (whole ▸ List.suffix_refl _) valid] at set
      cases set

/-- A reference in front of the brace, whatever comes before it. -/
theorem onePass_ends {env : EnvMap} {m inner rest : List Char} {value : String} (closed : '}' ∉ m)
    (valid : isValidKey (String.ofList inner)) (set : env.lookup (String.ofList inner) = some value) :
    onePass env (m ++ '$' :: '{' :: inner ++ '}' :: rest) = m ++ (value.toList ++ onePass env rest) := by
  induction m with
  | nil => exact onePass_reference valid set
  | cons c m ih =>
      have later := ih fun member => closed (List.mem_cons_of_mem c member)
      rw [List.cons_append, List.cons_append, onePass_cons, later, List.cons_append]
      rw [Option.eq_none_iff_forall_ne_some]
      intro found isRef
      have closed' : '}' ∉ c :: m ++ '$' :: '{' :: inner := by
        have absent := (isValidKey_chars valid).2.1
        simp only [List.mem_append, List.mem_cons] at closed ⊢
        simp [absent]
        tauto
      obtain ⟨whole, valid', -⟩ := reference_closed (s := c :: m ++ '$' :: '{' :: inner) closed' isRef
      -- the second dollar sign would be in the name
      have absent := (isValidKey_chars valid').2.2
      obtain ⟨-, behind⟩ := List.cons.inj whole
      have inside : '$' ∈ '{' :: found.1 := by
        rw [← behind]
        exact List.mem_append_right m List.mem_cons_self
      exact absurd inside (by simp [absent])

/-! ## What the loop comes to -/

/-- Whatever has been done, and with rounds for every character, the loop leaves this of a text. -/
def Comes (env : EnvMap) (text out : List Char) : Prop :=
  ∀ done fuel, text.length < fuel →
    (scan env fuel ⟨done, text⟩).map (fun s => s.done ++ s.rest) = some (done ++ out)

section

variable {env : EnvMap} {text out out' : List Char}

theorem Comes.unique (comes : Comes env text out) (comes' : Comes env text out') : out = out' := by
  have whole := comes [] (text.length + 1) (Nat.lt_succ_self _)
  rw [comes' [] (text.length + 1) (Nat.lt_succ_self _)] at whole
  exact (Option.some.inj whole).symm

theorem comes_stop (stops : scanRound env text = none) : Comes env text text := by
  intro done fuel enough
  obtain ⟨fuel, rfl⟩ := Nat.exists_eq_add_one_of_ne_zero (Nat.ne_of_gt (Nat.zero_lt_of_lt enough))
  rw [scan, stops]
  rfl

/-- A round passes over characters. -/
theorem scanRound_shorter {piece rest : List Char} (goes : scanRound env text = some (piece, rest)) :
    rest.length < text.length := by
  obtain ⟨opened, found, goes⟩ := Option.bind_eq_some_iff.mp goes
  obtain ⟨closed, found', goes⟩ := Option.bind_eq_some_iff.mp goes
  have long := congrArg List.length (splitFirst_text found)
  have long' := congrArg List.length (splitFirst_text found')
  simp only [List.length_append, List.length_cons, List.length_nil] at goes long long'
  split at goes
  all_goals
    obtain ⟨-, rfl⟩ := Prod.mk.inj (Option.some.inj goes)
    omega

theorem comes_round {piece rest : List Char} (goes : scanRound env text = some (piece, rest))
    (comes : Comes env rest out) : Comes env text (piece ++ out) := by
  intro done fuel enough
  have shorter := scanRound_shorter goes
  obtain ⟨fuel, rfl⟩ := Nat.exists_eq_add_one_of_ne_zero (Nat.ne_of_gt (Nat.zero_lt_of_lt enough))
  rw [scan, goes]
  exact (comes (done ++ piece) fuel (by omega)).trans (congrArg some (List.append_assoc _ _ _))

/-- The loop ends. -/
theorem exists_comes (env : EnvMap) (text : List Char) : ∃ out, Comes env text out := by
  induction length : text.length using Nat.strongRecOn generalizing text with
  | ind n ih =>
      cases goes : scanRound env text with
      | none => exact ⟨text, comes_stop goes⟩
      | some found =>
          obtain ⟨piece, rest⟩ := found
          obtain ⟨out, comes⟩ := ih rest.length (length ▸ scanRound_shorter goes) rest rfl
          exact ⟨piece ++ out, comes_round goes comes⟩

theorem interpolateEnvValue_eq {value : String} (comes : Comes env value.toList out) :
    interpolateEnvValue env value = some (String.ofList out) := by
  have whole := comes [] (value.length + 1) (by rw [String.length_toList]; exact Nat.lt_succ_self _)
  obtain ⟨final, ends, rest⟩ := Option.map_eq_some_iff.mp whole
  rw [interpolateEnvValue, ends, Option.map_some, rest]
  rfl

/-! ### Character by character -/

/-- The search for the next reference passes over a character. -/
theorem scanRound_cons {c : Char} (other : ¬ ['$', '{'] <+: c :: text) :
    scanRound env (c :: text) = (scanRound env text).map fun found => (c :: found.1, found.2) := by
  rw [scanRound, scanRound, splitFirst_cons other]
  cases splitFirst ['$', '{'] text with
  | none => rfl
  | some sides =>
      simp only [Option.map_some, Option.bind_eq_bind, Option.bind_some]
      cases splitFirst ['}'] sides.2 with
      | none => rfl
      | some closed =>
          simp only [Option.bind_some]
          split <;> rfl

theorem comes_cons_plain {c : Char} (other : ¬ ['$', '{'] <+: c :: text) (comes : Comes env text out) :
    Comes env (c :: text) (c :: out) := by
  have step := @scanRound_cons env text c other
  cases goes : scanRound env text with
  | none =>
      rw [goes] at step
      rw [comes.unique (comes_stop goes)]
      exact comes_stop step
  | some found =>
      obtain ⟨piece, rest⟩ := found
      obtain ⟨behind, later⟩ := exists_comes env rest
      rw [goes] at step
      rw [comes.unique (comes_round goes later)]
      exact comes_round step later

/-- Without a brace there is nothing to look up. -/
theorem comes_unclosed (closed : '}' ∉ text) : Comes env text text := by
  apply comes_stop
  rw [scanRound]
  cases found : splitFirst ['$', '{'] text with
  | none => rfl
  | some sides =>
      have absent : '}' ∉ sides.2 := by
        intro member
        rw [splitFirst_text found] at closed
        exact closed (List.mem_append_right _ (List.mem_append_right _ member))
      simp only [Option.bind_eq_bind, Option.bind_some, splitFirst_absent absent, Option.bind_none]

/-- A round at a reference. -/
theorem scanRound_opened : scanRound env ('$' :: '{' :: text) = (splitFirst ['}'] text).map fun closed =>
    if closed.1.head?.any isNameStart then (lookedUp env closed.1, closed.2) else (['$', '{'], text) := by
  have opened : splitFirst ['$', '{'] ('$' :: '{' :: text) = some ([], text) :=
    splitFirst_found (List.cons_ne_nil _ _) text
  rw [scanRound, opened]
  simp only [Option.bind_eq_bind, Option.bind_some]
  cases splitFirst ['}'] text with
  | none => rfl
  | some closed =>
      simp only [Option.bind_some, Option.map_some, List.nil_append]
      split <;> rfl

theorem not_start {name after : List Char} (plain : ¬ OpensName ('$' :: '{' :: (name ++ '}' :: after))) :
    ¬ name.head?.any isNameStart := by
  cases name with
  | nil => simp
  | cons d name =>
      intro start
      exact plain ⟨d, name ++ '}' :: after, rfl, start⟩

/-- A reference that is left open, or whose name begins with another character, is passed over. -/
theorem comes_cons {c : Char} (plain : ¬ OpensName (c :: text)) (comes : Comes env text out) :
    Comes env (c :: text) (c :: out) := by
  by_cases opened : ['$', '{'] <+: c :: text
  · obtain ⟨rest, whole⟩ := opened
    obtain ⟨rfl, rfl⟩ := List.cons.inj whole
    have round := @scanRound_opened env rest
    cases found : splitFirst ['}'] rest with
    | none =>
        rw [found] at round
        have closed : '}' ∉ '{' :: rest := by
          intro member
          cases List.mem_cons.mp member with
          | inl same => exact absurd same (by decide)
          | inr inner =>
              obtain ⟨w, after, rfl, absent⟩ := List.eq_append_cons_of_mem inner
              rw [splitFirst_element absent] at found
              cases found
        rw [comes.unique (comes_unclosed closed)]
        exact comes_stop round
    | some closed =>
        have split := splitFirst_text found
        rw [found, Option.map_some, if_neg (not_start (split ▸ plain))] at round
        obtain ⟨later, comesLater⟩ := exists_comes env rest
        have other : ¬ ['$', '{'] <+: '{' :: rest := by simp
        rw [comes.unique (comes_cons_plain other comesLater)]
        exact comes_round round comesLater
  · exact comes_cons_plain opened comes

theorem comes_quiet {w : List Char} (quiet : Quiet w) (breaks : Breaks text) (comes : Comes env text out) :
    Comes env (w ++ text) (w ++ out) := by
  induction w with
  | nil => exact comes
  | cons c w ih => exact comes_cons (quiet.not_opens breaks) (ih quiet.tail)

theorem comes_name {name : List Char} (closed : '}' ∉ name) (start : name.head?.any isNameStart)
    (comes : Comes env text out) :
    Comes env ('$' :: '{' :: name ++ '}' :: text) (lookedUp env name ++ out) := by
  apply comes_round _ comes
  rw [List.cons_append, List.cons_append, scanRound_opened, splitFirst_element closed, Option.map_some, if_pos start]

end

/-! ## The names that are read -/

/-- The loop takes the second text for a name somewhere in the first: it goes from the first place behind
    the last brace where a name can begin up to the next brace. -/
inductive ReadAsName : List Char → List Char → Prop
  | here {front name after : List Char} (quiet : Quiet front) (free : '}' ∉ front) (closed : '}' ∉ name)
      (start : name.head?.any isNameStart) : ReadAsName (front ++ '$' :: '{' :: name ++ '}' :: after) name
  | behind {front text name : List Char} (free : '}' ∉ front) (later : ReadAsName text name) :
      ReadAsName (front ++ '}' :: text) name

/-- What is set is an identifier, and what is not set has no reference to a variable that is set at its
    end. -/
structure OnlyReference (names : Finset String) (name : List Char) : Prop where
  identifier : String.ofList name ∈ names → isValidKey (String.ofList name)
  outermost : String.ofList name ∉ names → ∀ inner, '$' :: '{' :: inner <:+ name →
    isValidKey (String.ofList inner) → String.ofList inner ∉ names

def ReadsReferences (names : Finset String) (text : List Char) : Prop :=
  ∀ name, ReadAsName text name → OnlyReference names name

/-- A text up to its braces, and up to the names in front of them. -/
theorem braces_induction {motive : List Char → Prop} (last : ∀ text, '}' ∉ text → motive text)
    (plain : ∀ s rest, '}' ∉ s → Quiet s → motive rest → motive (s ++ '}' :: rest))
    (named : ∀ front name rest, Quiet front → '}' ∉ front → '}' ∉ name → name.head?.any isNameStart →
      motive rest → motive (front ++ '$' :: '{' :: name ++ '}' :: rest)) (text : List Char) :
    motive text := by
  induction length : text.length using Nat.strongRecOn generalizing text with
  | ind n ih =>
      by_cases brace : '}' ∈ text
      · obtain ⟨s, rest, rfl, closed⟩ := List.eq_append_cons_of_mem brace
        rw [List.length_append, List.length_cons] at length
        have later := ih rest.length (by omega) rest rfl
        cases exists_quiet s with
        | inl quiet => exact plain s rest closed quiet later
        | inr found =>
            obtain ⟨front, name, rfl, quiet, start⟩ := found
            simp only [List.mem_append, List.mem_cons, not_or] at closed
            exact named front name rest quiet closed.1 closed.2.2.2 start later
      · exact last text brace

theorem not_read_last {text name : List Char} (closed : '}' ∉ text) : ¬ ReadAsName text name := by
  intro read
  cases read with
  | here => exact closed (List.mem_append_right _ List.mem_cons_self)
  | behind => exact closed (List.mem_append_right _ List.mem_cons_self)

theorem opens_of_start {name : List Char} (start : name.head?.any isNameStart) :
    OpensName ('$' :: '{' :: name) := by
  cases name with
  | nil => cases start
  | cons c name => exact ⟨c, name, rfl, start⟩

theorem breaks_dollar (text : List Char) : Breaks ('$' :: text) := by
  intro c head
  exact .inl (Option.some.inj head).symm

theorem breaks_brace (text : List Char) : Breaks ('}' :: text) := by
  intro c head
  exact .inr (Option.some.inj head).symm

theorem Quiet.no_name {s front name : List Char} (quiet : Quiet s) (start : name.head?.any isNameStart) :
    s ≠ front ++ '$' :: '{' :: name := by
  rintro rfl
  exact quiet _ (List.suffix_append _ _) (opens_of_start start)

theorem read_plain {s rest name : List Char} (closed : '}' ∉ s) (quiet : Quiet s) :
    ReadAsName (s ++ '}' :: rest) name ↔ ReadAsName rest name := by
  constructor
  · intro read
    generalize whole : s ++ '}' :: rest = text at read
    cases read with
    | @here front _ after quiet' free closed' start =>
        have open' : '}' ∉ front ++ '$' :: '{' :: name := by
          simp [free, closed']
        exact absurd (split_unique closed open' whole).1 (quiet.no_name start)
    | behind free later =>
        obtain ⟨-, rfl⟩ := split_unique closed free whole
        exact later
  · exact .behind closed

/-- The first name in a text is where it is. -/
theorem first_name {front front' name name' : List Char} (quiet : Quiet front) (quiet' : Quiet front')
    (start : name.head?.any isNameStart) (start' : name'.head?.any isNameStart)
    (same : front ++ '$' :: '{' :: name = front' ++ '$' :: '{' :: name') : front = front' ∧ name = name' := by
  induction front generalizing front' with
  | nil =>
      cases front' with
      | nil => exact ⟨rfl, (List.cons.inj (List.cons.inj same).2).2⟩
      | cons c w =>
          have opens : OpensName (c :: w ++ '$' :: '{' :: name') := same ▸ opens_of_start start
          exact absurd opens (quiet'.not_opens (breaks_dollar _))
  | cons c w ih =>
      cases front' with
      | nil =>
          have opens : OpensName (c :: w ++ '$' :: '{' :: name) := same.symm ▸ opens_of_start start'
          exact absurd opens (quiet.not_opens (breaks_dollar _))
      | cons d w' =>
          obtain ⟨rfl, tail⟩ := List.cons.inj same
          obtain ⟨rfl, names⟩ := ih quiet.tail quiet'.tail tail
          exact ⟨rfl, names⟩

theorem read_named {front rest read name : List Char} (quiet : Quiet front) (free : '}' ∉ front)
    (closed : '}' ∉ read) (start : read.head?.any isNameStart) :
    ReadAsName (front ++ '$' :: '{' :: read ++ '}' :: rest) name ↔ name = read ∨ ReadAsName rest name := by
  have whole : '}' ∉ front ++ '$' :: '{' :: read := by
    simp [free, closed]
  constructor
  · intro given
    generalize same : front ++ '$' :: '{' :: read ++ '}' :: rest = text at given
    cases given with
    | @here front' _ after quiet' free' closed' start' =>
        have whole' : '}' ∉ front' ++ '$' :: '{' :: name := by
          simp [free', closed']
        exact .inl (first_name quiet quiet' start start' (split_unique whole whole' same).1).2.symm
    | behind free' later =>
        obtain ⟨-, rfl⟩ := split_unique whole free' same
        exact .inr later
  · intro given
    cases given with
    | inl same => exact same.symm ▸ .here quiet free closed start
    | inr later => exact .behind whole later

/-! ## The loop and the single pass -/

section

variable {env : EnvMap}

theorem comes_brace {rest out : List Char} (comes : Comes env rest out) : Comes env ('}' :: rest) ('}' :: out) := by
  apply comes_cons _ comes
  intro opens
  obtain ⟨c, rest, whole, -⟩ := opens
  exact absurd (List.cons.inj whole).1 (by decide)

theorem onePass_unclosed {text : List Char} (closed : '}' ∉ text) : onePass env text = text := by
  induction text with
  | nil => rfl
  | cons c text ih =>
      rw [onePass_cons, ih fun member => closed (List.mem_cons_of_mem c member)]
      rw [Option.eq_none_iff_forall_ne_some]
      intro found isRef
      obtain ⟨rest, whole, -⟩ := reference_opens isRef
      exact closed (whole ▸ List.mem_append_right _ List.mem_cons_self)

theorem onePass_brace {rest : List Char} : onePass env ('}' :: rest) = '}' :: onePass env rest := by
  have kept := @onePass_kept env [] rest (List.not_mem_nil) fun inner isSuffix =>
    absurd (List.suffix_nil.mp isSuffix) (List.cons_ne_nil _ _)
  exact kept

theorem lookup_none {name : String} : env.lookup name = none ↔ name ∉ env.keys := by
  rw [Finmap.lookup_eq_none, Finmap.mem_keys]

/-- What the loop puts for a name is what one pass puts there. -/
theorem lookedUp_eq {name rest : List Char} (closed : '}' ∉ name) (only : OnlyReference env.keys name) :
    onePass env ('$' :: '{' :: name ++ '}' :: rest) = lookedUp env name ++ onePass env rest := by
  cases set : env.lookup (String.ofList name) with
  | some value =>
      have member : String.ofList name ∈ env.keys := by
        by_contra absent
        rw [lookup_none.mpr absent] at set
        cases set
      rw [onePass_reference (only.identifier member) set, lookedUp, set]
  | none =>
      have absent := lookup_none.mp set
      rw [onePass_kept, lookedUp, set]
      · simp
      · simpa using closed
      · intro inner isSuffix valid
        cases List.suffix_cons_iff.mp isSuffix with
        | inl whole => exact (List.cons.inj (List.cons.inj whole).2).2 ▸ set
        | inr behind =>
            cases List.suffix_cons_iff.mp behind with
            | inl same => exact absurd (List.cons.inj same).1 (by decide)
            | inr inside => exact lookup_none.mpr (only.outermost absent inner inside valid)

theorem comes_onePass {text : List Char} (reads : ReadsReferences env.keys text) :
    Comes env text (onePass env text) := by
  induction text using braces_induction with
  | last text closed =>
      rw [onePass_unclosed closed]
      exact comes_unclosed closed
  | plain s rest closed quiet ih =>
      have later := ih fun name read => reads name ((read_plain closed quiet).mpr read)
      rw [onePass_quiet quiet (breaks_brace rest), onePass_brace]
      exact comes_quiet quiet (breaks_brace rest) (comes_brace later)
  | named front name rest quiet free closed start ih =>
      have here := reads name (.here quiet free closed start)
      have later := ih fun name read => reads name ((read_named quiet free closed start).mpr (.inr read))
      have whole := @onePass_quiet env front ('$' :: '{' :: name ++ '}' :: rest) quiet (breaks_dollar _)
      rw [List.append_assoc, whole, lookedUp_eq closed here]
      exact comes_quiet quiet (breaks_dollar _) (comes_name closed start later)

/-! ### Where they differ -/

/-- A name that is set and no identifier, or that hides a reference, comes to a dollar sign once and to a
    dot once. -/
theorem only_of_same {name rest out : List Char} (dots : ∀ name ∈ env.keys, env.lookup name = some ".")
    (closed : '}' ∉ name)
    (same : onePass env ('$' :: '{' :: name ++ '}' :: rest) = lookedUp env name ++ out) :
    OnlyReference env.keys name where
  identifier := by
    intro member
    by_contra invalid
    rw [lookedUp, dots _ member, List.cons_append, List.cons_append, onePass_cons] at same
    · exact absurd (List.cons.inj same).1 (by decide)
    · rw [Option.eq_none_iff_forall_ne_some]
      intro found isRef
      have closed' : '}' ∉ '$' :: '{' :: name := by
        simpa using closed
      obtain ⟨whole, valid, -⟩ := reference_closed (s := '$' :: '{' :: name) closed' isRef
      obtain rfl := (List.cons.inj (List.cons.inj whole).2).2
      exact invalid valid
  outermost := by
    intro absent inner isSuffix valid member
    obtain ⟨m, rfl⟩ := isSuffix
    have closed' : '}' ∉ '$' :: '{' :: m := by
      simp only [List.mem_append, List.mem_cons, not_or] at closed ⊢
      exact ⟨by decide, by decide, closed.1⟩
    have ends := @onePass_ends env _ inner rest _ closed' valid (dots _ member)
    rw [lookedUp, lookup_none.mpr absent] at same
    have behind : '.' :: onePass env rest = '$' :: '{' :: (inner ++ '}' :: out) := by
      simpa using ends.symm.trans same
    exact absurd (List.cons.inj behind).1 (by decide)

theorem reads_of_comes {text : List Char} (dots : ∀ name ∈ env.keys, env.lookup name = some ".")
    (comes : Comes env text (onePass env text)) : ReadsReferences env.keys text := by
  induction text using braces_induction with
  | last text closed => exact fun name read => absurd read (not_read_last closed)
  | plain s rest closed quiet ih =>
      obtain ⟨out, later⟩ := exists_comes env rest
      have whole := comes.unique (comes_quiet quiet (breaks_brace rest) (comes_brace later))
      rw [onePass_quiet quiet (breaks_brace rest), onePass_brace] at whole
      have same := (List.cons.inj (List.append_cancel_left whole)).2
      intro name read
      exact ih (same ▸ later) name ((read_plain closed quiet).mp read)
  | named front name rest quiet free closed start ih =>
      obtain ⟨out, later⟩ := exists_comes env rest
      rw [List.append_assoc] at comes
      have passed := comes.unique (comes_quiet quiet (breaks_dollar _) (comes_name closed start later))
      have whole := @onePass_quiet env front ('$' :: '{' :: name ++ '}' :: rest) quiet (breaks_dollar _)
      have same := List.append_cancel_left (whole.symm.trans passed)
      have only := only_of_same dots closed same
      rw [lookedUp_eq closed only] at same
      have tail := List.append_cancel_left same
      intro name' read
      cases (read_named quiet free closed start).mp read with
      | inl this => exact this ▸ only
      | inr behind => exact ih (tail ▸ later) name' behind

/-- Any names can be set, each to a dot. -/
theorem exists_dots (names : Finset String) :
    ∃ env : EnvMap, env.keys = names ∧ ∀ name ∈ names, env.lookup name = some "." := by
  induction names using Finset.induction_on with
  | empty => exact ⟨∅, Finmap.keys_empty, by simp⟩
  | insert name names absent ih =>
      obtain ⟨env, rfl, dots⟩ := ih
      refine ⟨env.insert name ".", ?_, ?_⟩
      · ext other
        rw [Finmap.mem_keys, Finmap.mem_insert, Finset.mem_insert, Finmap.mem_keys]
      · intro other member
        by_cases same : other = name
        · rw [same, Finmap.lookup_insert]
        · rw [Finmap.lookup_insert_of_ne env same]
          exact dots other (Finset.mem_of_mem_insert_of_ne member same)

end

/-- For texts whose names are read as the references they are, and for no others, the loop ends with
    what one pass gives, whatever the values of the variables that are set. -/
theorem interpolated_iff {names : Finset String} {text : String} :
    (∀ env : EnvMap, env.keys = names →
        interpolateEnvValue env text = some (String.ofList (onePass env text.toList))) ↔
      ReadsReferences names text.toList := by
  constructor
  · intro always
    obtain ⟨env, rfl, dots⟩ := exists_dots names
    obtain ⟨out, comes⟩ := exists_comes env text.toList
    have whole := always env rfl
    rw [interpolateEnvValue_eq comes] at whole
    have same := String.ofList_injective (Option.some.inj whole)
    exact reads_of_comes dots (same ▸ comes)
  · intro reads env keys
    exact interpolateEnvValue_eq (comes_onePass (keys ▸ reads))

/-- `A${B` is not set, and the reference at its end is passed over with it. -/
theorem reference_hidden : ¬ ∀ (env : EnvMap) (text : String),
    interpolateEnvValue env text = some (String.ofList (onePass env text.toList)) := by
  intro always
  exact absurd (always (Finmap.singleton "B" "b") "$\x7bA$\x7bB\x7d") (by decide)

/-! ## Profiles -/

def interpolateProfileEnv (env : EnvMap) (envOverrides : SortedMap String String) :
    Option (SortedMap String String) :=
  envOverrides.traverse fun _ value => interpolateEnvValue env value

end AgileAgent.Provider
