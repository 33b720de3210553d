import AgileAgent.ByteCuts
import AgileAgent.SortedMap

/-! # Redacted environments

What is shown of an environment: the values of sensitive keys give way to their beginning or to three
stars. Lengths and the cut are counted in bytes.
-/

namespace AgileAgent.Provider

open ByteCuts
open String (utf8Len)

def sensitiveKeyPatterns : List String :=
  ["*_TOKEN", "*_API_KEY", "*_AUTH_TOKEN", "*_SECRET", "*_PASSWORD", "ANTHROPIC_API_KEY",
    "CODEX_API_KEY", "OPENAI_API_KEY", "Authorization", "API_KEY"]

/-- Only a leading `*` stands for anything. -/
def matchesPattern (key pattern : String) : Bool :=
  match pattern.toList with
  | '*' :: suffix => suffix.isSuffixOf key.toList
  | _ => key == pattern

def isSensitiveKey (key : String) : Bool := sensitiveKeyPatterns.any (matchesPattern key)

/-- The value as it is shown; none where the cut is inside a character and the code panics. -/
def redactEnvValue (key value : String) : Option String :=
  if isSensitiveKey key then
    if 8 < value.utf8ByteSize then
      (cut 8 value.toList).map fun front => String.ofList front ++ "..."
    else some "***"
  else some value

def redactEnvMap (env : SortedMap String String) : Option (SortedMap String String) :=
  env.traverse redactEnvValue

/-! ## One value -/

theorem redactEnvValue_plain {key value : String} (plain : isSensitiveKey key = false) :
    redactEnvValue key value = some value := by
  rw [redactEnvValue, plain]
  rfl

/-- What is left of a long value is never the three stars. -/
theorem front_not_stars {value : String} {front : List Char}
    (found : cut 8 value.toList = some front) :
    String.ofList front ++ "..." ≠ "***" := by
  intro same
  have size := (cut_eq_some.mp found).2
  have bytes := congrArg String.utf8ByteSize same
  rw [String.utf8ByteSize_append, String.utf8ByteSize_ofList, size] at bytes
  exact absurd bytes (by decide)

section

variable {key value value' shown : String} (sensitive : isSensitiveKey key = true)

include sensitive

theorem redactEnvValue_long (long : 8 < value.utf8ByteSize) :
    redactEnvValue key value = some shown ↔
      ∃ front, cut 8 value.toList = some front ∧ String.ofList front ++ "..." = shown := by
  rw [redactEnvValue, if_pos sensitive, if_pos long, Option.map_eq_some_iff]

theorem redactEnvValue_short (short : value.utf8ByteSize ≤ 8) :
    redactEnvValue key value = some "***" := by
  rw [redactEnvValue, if_pos sensitive, if_neg (Nat.not_lt.mpr short)]

theorem redactEnvValue_isSome_iff : (redactEnvValue key value).isSome ↔ Fits 8 value := by
  rw [Fits, ← cut_isSome_iff]
  by_cases long : 8 < value.utf8ByteSize
  · rw [redactEnvValue, if_pos sensitive, if_pos long, Option.isSome_map, forall_prop_of_true long]
  · rw [redactEnvValue_short sensitive (Nat.not_lt.mp long)]
    simp [long]

end

/-! ## Two values -/

/-- The first eight bytes of both end at a character and are the same. -/
def ShareBytes (value value' : String) : Prop :=
  ∃ front, front <+: value.toList ∧ front <+: value'.toList ∧ utf8Len front = 8

/-- Both longer than eight characters and the same up to there, or neither. -/
def Similar (value value' : String) : Prop :=
  8 < value.length ∧ 8 < value'.length ∧ value.toList.take 8 = value'.toList.take 8 ∨
    value.length ≤ 8 ∧ value'.length ≤ 8

/-- Not told apart by their lengths in bytes. -/
def SameBytes (value value' : String) : Prop :=
  value.utf8ByteSize ≤ 8 ∧ value'.utf8ByteSize ≤ 8 ∨
    8 < value.utf8ByteSize ∧ 8 < value'.utf8ByteSize ∧ ShareBytes value value'

theorem shareBytes_iff {value value' : String} : ShareBytes value value' ↔
    ∃ front, cut 8 value.toList = some front ∧ cut 8 value'.toList = some front := by
  simp only [ShareBytes, cut_eq_some]
  constructor
  · intro given
    obtain ⟨front, here, there, size⟩ := given
    exact ⟨front, ⟨here, size⟩, there, size⟩
  · intro given
    obtain ⟨front, ⟨here, size⟩, there, -⟩ := given
    exact ⟨front, here, there, size⟩

/-- The cut of a value stays within its first eight characters. -/
theorem cut_alike {value value' : String} (same : value.toList.take 8 = value'.toList.take 8)
    {front : List Char} (found : cut 8 value.toList = some front) : cut 8 value'.toList = some front := by
  obtain ⟨here, size⟩ := cut_eq_some.mp found
  have kept : front <+: value'.toList.take 8 := same ▸ List.prefix_take_iff.mpr ⟨here, cut_length_le found⟩
  exact cut_eq_some.mpr ⟨kept.trans (List.take_prefix _ _), size⟩

section

variable {key value value' : String} (sensitive : isSensitiveKey key = true)

include sensitive

theorem long_alike (long : 8 < value.utf8ByteSize) (long' : 8 < value'.utf8ByteSize) :
    (∃ shown, redactEnvValue key value = some shown ∧ redactEnvValue key value' = some shown) ↔
      ShareBytes value value' := by
  simp only [redactEnvValue_long sensitive long, redactEnvValue_long sensitive long', shareBytes_iff]
  constructor
  · intro given
    obtain ⟨shown, ⟨front, found, rfl⟩, front', found', same⟩ := given
    have fronts := String.ofList_injective ((String.append_left_inj _).mp same)
    exact ⟨front, found, fronts ▸ found'⟩
  · intro given
    obtain ⟨front, found, found'⟩ := given
    exact ⟨_, ⟨front, found, rfl⟩, front, found', rfl⟩

theorem unequal_apart (long : 8 < value.utf8ByteSize) (short : value'.utf8ByteSize ≤ 8) :
    ¬ ∃ shown, redactEnvValue key value = some shown ∧ redactEnvValue key value' = some shown := by
  intro given
  obtain ⟨shown, here, there⟩ := given
  obtain ⟨front, found, rfl⟩ := (redactEnvValue_long sensitive long).mp here
  rw [redactEnvValue_short sensitive short] at there
  exact front_not_stars found (Option.some.inj there).symm

theorem values_alike_iff (similar : Similar value value') :
    (∃ shown, redactEnvValue key value = some shown ∧ redactEnvValue key value' = some shown) ↔
      Fits 8 value ∧ Fits 8 value' ∧
        (value.length ≤ 8 → value'.length ≤ 8 → SameBytes value value') := by
  have chars := toList_length_le value
  have chars' := toList_length_le value'
  rw [String.length_toList] at chars chars'
  constructor
  · intro given
    obtain ⟨shown, here, there⟩ := given
    refine ⟨(redactEnvValue_isSome_iff sensitive).mp (Option.isSome_of_eq_some here),
      (redactEnvValue_isSome_iff sensitive).mp (Option.isSome_of_eq_some there), ?_⟩
    intro short short'
    by_cases long : 8 < value.utf8ByteSize <;> by_cases long' : 8 < value'.utf8ByteSize
    · exact .inr ⟨long, long', (long_alike sensitive long long').mp ⟨shown, here, there⟩⟩
    · exact absurd ⟨shown, here, there⟩ (unequal_apart sensitive long (Nat.not_lt.mp long'))
    · exact absurd ⟨shown, there, here⟩ (unequal_apart sensitive long' (Nat.not_lt.mp long))
    · exact .inl ⟨Nat.not_lt.mp long, Nat.not_lt.mp long'⟩
  · intro given
    obtain ⟨fits, fits', bytes⟩ := given
    cases similar with
    | inl beginning =>
        obtain ⟨many, many', same⟩ := beginning
        have long : 8 < value.utf8ByteSize := by omega
        have long' : 8 < value'.utf8ByteSize := by omega
        obtain ⟨front, found⟩ := Option.isSome_iff_exists.mp (cut_isSome_iff.mpr (fits long))
        exact (long_alike sensitive long long').mpr (shareBytes_iff.mpr ⟨front, found, cut_alike same found⟩)
    | inr few =>
        cases bytes few.1 few.2 with
        | inl short =>
            exact ⟨_, redactEnvValue_short sensitive short.1, redactEnvValue_short sensitive short.2⟩
        | inr long => exact (long_alike sensitive long.1 long.2.1).mpr long.2.2

end

/-! ## Maps -/

/-- All keys, and the values of the keys that are not sensitive. -/
structure Keeps (env shown : SortedMap String String) : Prop where
  keys : shown.keys = env.keys
  values : ∀ key value, (key, value) ∈ env → isSensitiveKey key = false → (key, value) ∈ shown

/-- The maps differ only in similar values of sensitive keys. -/
structure Alike (env env' : SortedMap String String) : Prop where
  keys : env.keys = env'.keys
  values : ∀ key value value', (key, value) ∈ env → (key, value') ∈ env' → value ≠ value' →
    isSensitiveKey key ∧ Similar value value'

/-- The values of sensitive keys that are longer than eight bytes have a boundary there. -/
def Cuttable (env : SortedMap String String) : Prop :=
  ∀ key value, (key, value) ∈ env → isSensitiveKey key → Fits 8 value

/-- Different values of at most eight characters are not told apart by their bytes. -/
def ShortAlike (env env' : SortedMap String String) : Prop :=
  ∀ key value value', (key, value) ∈ env → (key, value') ∈ env' → value ≠ value' →
    value.length ≤ 8 → value'.length ≤ 8 → SameBytes value value'

theorem redactEnvMap_keeps {env shown : SortedMap String String} (found : redactEnvMap env = some shown) :
    Keeps env shown where
  keys := SortedMap.keys_traverse found
  values := by
    intro key value member plain
    exact (SortedMap.mem_traverse found).mpr ⟨value, member, redactEnvValue_plain plain⟩

/-- Any two entries of one key, shown alike under the conditions on the two maps. -/
theorem entries_alike_iff {key value value' : String}
    (alike : value ≠ value' → isSensitiveKey key ∧ Similar value value') :
    (∃ shown, redactEnvValue key value = some shown ∧ redactEnvValue key value' = some shown) ↔
      (isSensitiveKey key → Fits 8 value ∧ Fits 8 value') ∧
        (value ≠ value' → value.length ≤ 8 → value'.length ≤ 8 → SameBytes value value') := by
  by_cases same : value = value'
  · subst same
    cases sensitive : isSensitiveKey key with
    | false => simp [redactEnvValue_plain sensitive]
    | true =>
        rw [← redactEnvValue_isSome_iff sensitive, Option.isSome_iff_exists]
        simp
  · obtain ⟨sensitive, similar⟩ := alike same
    rw [values_alike_iff sensitive similar, forall_prop_of_true sensitive, forall_prop_of_true same, and_assoc]

/-- Redacting succeeds, keeps what is not sensitive and hides which of the two maps it was given. -/
theorem redacted_alike_iff {env env' : SortedMap String String} (alike : Alike env env') :
    (∃ shown, redactEnvMap env = some shown ∧ redactEnvMap env' = some shown ∧
        Keeps env shown ∧ Keeps env' shown) ↔
      Cuttable env ∧ Cuttable env' ∧ ShortAlike env env' := by
  have entries := @SortedMap.traverse_agree_iff _ _ _ _ env env' redactEnvValue alike.keys
  constructor
  · intro given
    obtain ⟨shown, here, there, -, -⟩ := given
    have each := entries.mp ⟨shown, here, there⟩
    have pairs := fun key value value' member member' =>
      (entries_alike_iff (alike.values key value value' member member')).mp
        (each key value value' member member')
    refine ⟨?_, ?_, fun key value value' member member' => (pairs key value value' member member').2⟩
    · intro key value member sensitive
      obtain ⟨value', member'⟩ := SortedMap.mem_keys.mp (alike.keys ▸ SortedMap.mem_keys.mpr ⟨value, member⟩)
      exact ((pairs key value value' member member').1 sensitive).1
    · intro key value' member' sensitive
      obtain ⟨value, member⟩ :=
        SortedMap.mem_keys.mp (alike.keys.symm ▸ SortedMap.mem_keys.mpr ⟨value', member'⟩)
      exact ((pairs key value value' member member').1 sensitive).2
  · intro given
    obtain ⟨cuttable, cuttable', short⟩ := given
    obtain ⟨shown, here, there⟩ := entries.mpr fun key value value' member member' =>
      (entries_alike_iff (alike.values key value value' member member')).mpr
        ⟨fun sensitive => ⟨cuttable key value member sensitive, cuttable' key value' member' sensitive⟩,
          short key value value' member member'⟩
    exact ⟨shown, here, there, redactEnvMap_keeps here, redactEnvMap_keeps there⟩

/-- An environment with one variable. -/
def single (key value : String) : SortedMap String String := ⟨[(key, value)], List.pairwise_singleton _ _⟩

theorem mem_single {key value : String} {e : String × String} : e ∈ single key value ↔ e = (key, value) :=
  List.mem_singleton

theorem single_alike {key value value' : String} (sensitive : isSensitiveKey key)
    (similar : Similar value value') : Alike (single key value) (single key value') where
  keys := rfl
  values := by
    intro k v v' here there differ
    obtain ⟨rfl, rfl⟩ := Prod.mk.inj (mem_single.mp here)
    obtain ⟨-, rfl⟩ := Prod.mk.inj (mem_single.mp there)
    exact ⟨sensitive, similar⟩

theorem password_hidden : ∃ shown, redactEnvMap (single "MY_PASSWORD" "short") = some shown ∧
    redactEnvMap (single "MY_PASSWORD" "secret") = some shown ∧
    Keeps (single "MY_PASSWORD" "short") shown ∧ Keeps (single "MY_PASSWORD" "secret") shown := by
  refine (redacted_alike_iff (single_alike (by decide) (.inr (by decide)))).mpr ⟨?_, ?_, ?_⟩
  · intro key value member sensitive
    obtain ⟨rfl, rfl⟩ := Prod.mk.inj (mem_single.mp member)
    decide
  · intro key value member sensitive
    obtain ⟨rfl, rfl⟩ := Prod.mk.inj (mem_single.mp member)
    decide
  · intro key value value' here there differ few few'
    obtain ⟨rfl, rfl⟩ := Prod.mk.inj (mem_single.mp here)
    obtain ⟨-, rfl⟩ := Prod.mk.inj (mem_single.mp there)
    exact .inl (by decide)

/-- The eighth byte of the value is inside its last character. -/
theorem password_panics : ¬ ∀ env env', Alike env env' →
    ∃ shown, redactEnvMap env = some shown ∧ redactEnvMap env' = some shown ∧
      Keeps env shown ∧ Keeps env' shown := by
  intro always
  obtain ⟨shown, here, -⟩ := always (single "MY_PASSWORD" "secret1é") (single "MY_PASSWORD" "secret1é")
    (single_alike (by decide) (.inr (by decide)))
  exact absurd (Option.isSome_of_eq_some here) (by decide)

end AgileAgent.Provider
