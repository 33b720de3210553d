import AgileAgent.DecisionDsl.Parser
import AgileAgent.DecisionDsl.Runs

/-! # The order in which a directory is listed

Under each name the last document wins, and `rules.d` is one document that takes its
name from the last file. So the bundle depends on the order of a listing only through the
documents that stand last.
-/

namespace AgileAgent.DecisionDsl

/-- Two listings of the same entries, or the same failure. -/
def SameEntries : Except FsError (List Path) → Except FsError (List Path) → Prop
  | .ok left, .ok right => left.Perm right
  | .error e, .error e' => e = e'
  | _, _ => False

/-- The same files, perhaps listed in another order. -/
structure Rearranged (fs fs' : Fs) : Prop where
  contents : fs.readToString = fs'.readToString
  listings : ∀ dir, SameEntries (fs.readDir dir) (fs'.readDir dir)

/-- The same trees under the same names, or an error in both cases. -/
def SameResult : Except ParseError Bundle → Except ParseError Bundle → Prop
  | .ok b, .ok b' => (∀ name, b.trees.lookup name = b'.trees.lookup name) ∧
      ∀ name, b.subtrees.lookup name = b'.subtrees.lookup name
  | .error _, .error _ => True
  | _, _ => False

/-- A document of rules. -/
def DslDocument.hasRules : DslDocument → Bool
  | .decisionRules .. => true
  | _ => false

namespace Contents

section

variable [Crates]

/-- The tree that stands last under a name; the rules of `rules.d` come after `trees`. -/
def tree (c : Contents) (name : String) : Option Tree := c.treeEntries.reverse.lookup name

def subtree (c : Contents) (name : String) : Option Tree := c.subtreeEntries.reverse.lookup name

/-- The trees that stand last pass validation. -/
def Sound (c : Contents) : Prop := DecisionDsl.Sound c.tree c.subtree

theorem sound_of {c : Contents}
    (valid : ∀ e ∈ c.treeEntries ++ c.subtreeEntries, e.2.Valid c.subtree) : c.Sound := by
  rintro name tree (found | found)
  · exact valid (name, tree) (by simp [List.mem_reverse.mp (Insertions.mem_of_lookup found)])
  · exact valid (name, tree) (by simp [List.mem_reverse.mp (Insertions.mem_of_lookup found)])

theorem lookup_trees (c : Contents) (name : String) : c.bundle.trees.lookup name = c.tree name := by
  simp [bundle, tree, Insertions.lookup_insertAll]

theorem lookup_subtrees (c : Contents) (name : String) :
    c.bundle.subtrees.lookup name = c.subtree name := by
  simp [bundle, subtree, Insertions.lookup_insertAll]

theorem validate_bundle (c : Contents) : validateBundle c.bundle = .ok () ↔ c.Sound := by
  simp only [validateBundle_iff, lookup_trees, lookup_subtrees, Sound]

end

/-- The same documents, perhaps in another order. -/
structure Rearranged (c c' : Contents) : Prop where
  trees : c.trees.Perm c'.trees
  subtrees : c.subtrees.Perm c'.subtrees
  rules : c.rules.Perm c'.rules

theorem merged_allRules (docs : List DslDocument) (merged : MergedRules) :
    (docs.foldl MergedRules.add merged).allRules =
      merged.allRules ++ docs.flatMap DslDocument.rules := by
  induction docs generalizing merged with
  | nil => simp
  | cons doc rest ih =>
      rw [List.foldl_cons, ih, List.flatMap_cons]
      cases doc <;> simp [MergedRules.add, DslDocument.rules]

theorem Ranked.rearranged {c c' : Contents} (ranked : c.Ranked) (same : c.Rearranged c') :
    c'.Ranked := by
  constructor
  · intro doc member
    exact ranked.trees doc (same.trees.mem_iff.mpr member)
  · have perm : c.merged.allRules.Perm c'.merged.allRules := by
      simp only [merged, merged_allRules]
      exact (same.rules.flatMap_right _).append_left _
    exact (perm.map _).nodup_iff.mp ranked.rules

/-- Only documents of rules are collected, so one such document may stand anywhere. -/
theorem merged_rearranged {c c' : Contents} (same : c.Rearranged c')
    (one : (c.rules.filter DslDocument.hasRules).length ≤ 1) : c.merged = c'.merged := by
  have filtered (docs : List DslDocument) (merged : MergedRules) : docs.foldl MergedRules.add merged =
      (docs.filter DslDocument.hasRules).foldl MergedRules.add merged := by
    induction docs generalizing merged with
    | nil => rfl
    | cons doc rest ih =>
        rw [List.foldl_cons, ih]
        cases doc with
        | decisionRules => rw [List.filter_cons_of_pos rfl, List.foldl_cons]
        | behaviorTree | subTree => rfl
  have perm := same.rules.filter DslDocument.hasRules
  rw [merged, merged, filtered, filtered c'.rules]
  generalize c.rules.filter DslDocument.hasRules = rules at one perm ⊢
  cases rules with
  | nil => rw [List.nil_perm.mp perm]
  | cons doc rest =>
      obtain rfl : rest = [] := List.eq_nil_of_length_eq_zero (Nat.le_zero.mp (Nat.le_of_succ_le_succ one))
      rw [List.singleton_perm.mp perm]

/-- Documents with names of their own, and at most one of rules, may be listed in any order. -/
theorem Rearranged.lookups [Crates] {c c' : Contents} (same : c.Rearranged c')
    (one : (c.rules.filter DslDocument.hasRules).length ≤ 1)
    (trees : (c.treeEntries.map Prod.fst).Nodup) (subtrees : (c.subtreeEntries.map Prod.fst).Nodup) :
    (∀ name, c.tree name = c'.tree name) ∧ ∀ name, c.subtree name = c'.subtree name := by
  have trees_perm : c.treeEntries.Perm c'.treeEntries := by
    rw [treeEntries, treeEntries, merged_rearranged same one]
    exact (same.trees.flatMap_right _).append_right _
  have subtrees_perm : c.subtreeEntries.Perm c'.subtreeEntries := same.subtrees.flatMap_right _
  constructor
  · intro name
    rw [tree, tree, Insertions.lookup_reverse trees,
      Insertions.lookup_reverse ((trees_perm.map _).nodup_iff.mp trees)]
    exact Insertions.lookup_perm trees_perm trees name
  · intro name
    rw [subtree, subtree, Insertions.lookup_reverse subtrees,
      Insertions.lookup_reverse ((subtrees_perm.map _).nodup_iff.mp subtrees)]
    exact Insertions.lookup_perm subtrees_perm subtrees name

variable [Yaml]

theorem Of.unique {dir : Path} {fs : Fs} {c c' : Contents} (of : c.Of dir fs) (of' : c'.Of dir fs) :
    c = c' := by
  obtain ⟨trees, subtrees, rules⟩ := c
  obtain ⟨trees', subtrees', rules'⟩ := c'
  obtain rfl := Except.ok.inj (of.trees.symm.trans of'.trees)
  obtain rfl := Except.ok.inj (of.subtrees.symm.trans of'.subtrees)
  obtain rfl := Except.ok.inj (of.rules.symm.trans of'.rules)
  rfl

theorem Of.rearranged {dir : Path} {fs fs' : Fs} {c : Contents} (of : c.Of dir fs)
    (same : DecisionDsl.Rearranged fs fs') : ∃ c' : Contents, c'.Of dir fs' ∧ c.Rearranged c' := by
  have load : loadDocument fs = loadDocument fs' := by
    funext path
    simp only [loadDocument, same.contents]
  have files (dir : Path) : (yamlFiles (fs.readDir dir)).Perm (yamlFiles (fs'.readDir dir)) := by
    have entries := same.listings dir
    cases here : fs.readDir dir <;> cases there : fs'.readDir dir <;>
      simp only [here, there, SameEntries] at entries
    · exact .refl _
    · exact entries.filter _
  obtain ⟨trees, trees_of, trees_perm⟩ := Loading.mapM_perm (files (dir ++ ["trees"])) of.trees
  obtain ⟨subtrees, subtrees_of, subtrees_perm⟩ :=
    Loading.mapM_perm (files (dir ++ ["subtrees"])) of.subtrees
  obtain ⟨rules, rules_of, rules_perm⟩ := Loading.mapM_perm (files (dir ++ ["rules.d"])) of.rules
  rw [load] at trees_of subtrees_of rules_of
  exact ⟨⟨trees, subtrees, rules⟩, ⟨trees_of, subtrees_of, rules_of⟩,
    ⟨trees_perm, subtrees_perm, rules_perm⟩⟩

end Contents

theorem SameEntries.symm {left right : Except FsError (List Path)} (same : SameEntries left right) :
    SameEntries right left := by
  cases left <;> cases right
  · exact Eq.symm same
  · exact same
  · exact same
  · exact List.Perm.symm same

theorem Rearranged.symm {fs fs' : Fs} (same : Rearranged fs fs') : Rearranged fs' fs :=
  ⟨same.contents.symm, fun dir => (same.listings dir).symm⟩

theorem memoryFs_rearranged {files files' : List (Path × String)} (perm : files.Perm files')
    (once : (files.map Prod.fst).Nodup) : Rearranged (memoryFs files) (memoryFs files') where
  contents := by
    funext path
    simp only [memoryFs, Insertions.lookup_perm perm once]
  listings _ := (perm.map Prod.fst).filter _

section

variable [Yaml] [Crates]

/-- What is returned once all files are loaded and the rules ranked. -/
theorem parseBundle_of {dir : Path} {fs : Fs} {c : Contents} (of : c.Of dir fs) (ranked : c.Ranked) :
    (c.Sound ∧ parseBundle dir fs = .ok c.bundle) ∨
      (¬ c.Sound ∧ ∃ e, parseBundle dir fs = .error e) := by
  by_cases sound : c.Sound
  · exact .inl ⟨sound, parseBundle_eq_ok.mpr ⟨c, of, ranked, rfl, c.validate_bundle.mpr sound⟩⟩
  · refine .inr ⟨sound, ?_⟩
    cases result : parseBundle dir fs with
    | error e => exact ⟨e, rfl⟩
    | ok bundle =>
        obtain ⟨c', of', -, rfl, valid⟩ := parseBundle_eq_ok.mp result
        obtain rfl := of.unique of'
        exact absurd (c.validate_bundle.mp valid) sound

theorem parseBundle_unloaded {dir : Path} {fs : Fs} (none : ∀ c : Contents, c.Of dir fs → ¬ c.Ranked) :
    ∃ e, parseBundle dir fs = .error e := by
  cases result : parseBundle dir fs with
  | error e => exact ⟨e, rfl⟩
  | ok bundle =>
      obtain ⟨c, of, ranked, -⟩ := parseBundle_eq_ok.mp result
      exact absurd ranked (none c of)

theorem sameResult_iff_of {dir : Path} {fs fs' : Fs} {c c' : Contents} (of : c.Of dir fs)
    (ranked : c.Ranked) (of' : c'.Of dir fs') (ranked' : c'.Ranked) :
    SameResult (parseBundle dir fs) (parseBundle dir fs') ↔ (¬ c.Sound ∧ ¬ c'.Sound) ∨
      ((∀ name, c.tree name = c'.tree name) ∧ ∀ name, c.subtree name = c'.subtree name) := by
  have sound_iff (trees : ∀ name, c.tree name = c'.tree name)
      (subtrees : ∀ name, c.subtree name = c'.subtree name) : c.Sound ↔ c'.Sound := by
    rw [Contents.Sound, Contents.Sound, funext trees, funext subtrees]
  rcases parseBundle_of of ranked with ⟨sound, result⟩ | ⟨unsound, e, result⟩ <;>
    rcases parseBundle_of of' ranked' with ⟨sound', result'⟩ | ⟨unsound', e', result'⟩ <;>
    rw [result, result']
  · simp [SameResult, Contents.lookup_trees, Contents.lookup_subtrees, sound]
  · simp only [SameResult, false_iff]
    rintro (⟨unsound, -⟩ | ⟨trees, subtrees⟩)
    · exact unsound sound
    · exact unsound' ((sound_iff trees subtrees).mp sound)
  · simp only [SameResult, false_iff]
    rintro (⟨-, unsound'⟩ | ⟨trees, subtrees⟩)
    · exact unsound' sound'
    · exact unsound ((sound_iff trees subtrees).mpr sound')
  · simp [SameResult, unsound, unsound']

theorem sameResult_of {dir : Path} {fs fs' : Fs} (same : Rearranged fs fs')
    (agree : ∀ c c' : Contents, c.Of dir fs → c'.Of dir fs' → c.Rearranged c' → c.Ranked →
      (¬ c.Sound ∧ ¬ c'.Sound) ∨
        ((∀ name, c.tree name = c'.tree name) ∧ ∀ name, c.subtree name = c'.subtree name)) :
    SameResult (parseBundle dir fs) (parseBundle dir fs') := by
  by_cases loads : ∃ c : Contents, c.Of dir fs ∧ c.Ranked
  · obtain ⟨c, of, ranked⟩ := loads
    obtain ⟨c', of', moved⟩ := of.rearranged same
    exact (sameResult_iff_of of ranked of' (ranked.rearranged moved)).mpr
      (agree c c' of of' moved ranked)
  · have none : ∀ c : Contents, c.Of dir fs → ¬ c.Ranked := fun c of ranked =>
      loads ⟨c, of, ranked⟩
    have none' : ∀ c : Contents, c.Of dir fs' → ¬ c.Ranked := by
      intro c' of' ranked'
      obtain ⟨c, of, moved⟩ := of'.rearranged same.symm
      exact none c of (ranked'.rearranged moved)
    obtain ⟨e, result⟩ := parseBundle_unloaded none
    obtain ⟨e', result'⟩ := parseBundle_unloaded none'
    rw [result, result']
    trivial

/-- With names that are used once the order of a listing does not matter. -/
theorem sameResult_of_names {dir : Path} {fs fs' : Fs} (same : Rearranged fs fs')
    (names : ∀ c : Contents, c.Of dir fs → (c.rules.filter DslDocument.hasRules).length ≤ 1 ∧
      (c.treeEntries.map Prod.fst).Nodup ∧ (c.subtreeEntries.map Prod.fst).Nodup) :
    SameResult (parseBundle dir fs) (parseBundle dir fs') := by
  apply sameResult_of same
  intro c c' of _ moved _
  obtain ⟨one, trees, subtrees⟩ := names c of
  exact .inr (moved.lookups one trees subtrees)

/-- Where a bundle can be made at all, two listings of a directory give the same result
    when the same documents stand last in both, or those of neither pass validation. -/
theorem parseBundle_rearranged_iff {dir : Path} {fs fs' : Fs} (same : Rearranged fs fs') :
    SameResult (parseBundle dir fs) (parseBundle dir fs') ↔
      ∀ c c' : Contents, c.Of dir fs → c'.Of dir fs' → c.Ranked →
        (¬ c.Sound ∧ ¬ c'.Sound) ∨
          ((∀ name, c.tree name = c'.tree name) ∧ ∀ name, c.subtree name = c'.subtree name) := by
  constructor
  · intro agree c c' of of' ranked
    obtain ⟨c'', of'', moved⟩ := of.rearranged same
    obtain rfl := of'.unique of''
    exact (sameResult_iff_of of ranked of' (ranked.rearranged moved)).mp agree
  · intro agree
    exact sameResult_of same fun c c' of of' _ ranked => agree c c' of of' ranked

end

/-! ## Two files of rules -/

namespace Listing

def wakeUpText : String :=
  "priority: 1\nname: wake_up\nthen:\n  kind: InlineCommand\n  payload:\n    command:\n" ++
    "      kind: Agent\n      payload:\n        kind: WakeUp\n"

def reviewText : String :=
  "priority: 2\nname: review\nthen:\n  kind: Pipeline\n  payload:\n    name: approve\n    steps: []\n"

def wakeUp : RuleSpec where
  priority := 1
  name := "wake_up"
  condition := none
  action := .inlineCommand (.agent .wakeUp)
  cooldownMs := none
  reflectionMaxRounds := none
  onError := none

def review : RuleSpec where
  priority := 2
  name := "review"
  condition := none
  action := .pipeline { name := "approve", steps := [] }
  cooldownMs := none
  reflectionMaxRounds := none
  onError := none

def header : String :=
  "\napiVersion: decision.agile-agent.io/v1\nkind: DecisionRules\nmetadata:\n  name: default\nrules:\n"

def wakeUpFile : String := "# wake up" ++ header ++
  "- priority: 1\n  name: wake_up\n  then:\n    kind: InlineCommand\n    payload:\n      command:\n" ++
    "        kind: Agent\n        payload:\n          kind: WakeUp\n"

def reviewFile : String := "# review" ++ header ++
  "- priority: 2\n  name: review\n  then:\n    kind: Pipeline\n    payload:\n      name: approve\n      steps: []\n"

def samples : Samples where
  documents := [(wakeUpFile, wakeUpText), (reviewFile, reviewText)].map fun (file, rule) =>
    (file, ⟨"decision.agile-agent.io/v1", "DecisionRules", ⟨"default", none⟩, [rule], none⟩)
  rules := [(wakeUpText, wakeUp), (reviewText, review)]

scoped instance yaml : Yaml := samples.yaml

def files : List (Path × String) :=
  [(["bundle", "rules.d", "review.yaml"], reviewFile),
    (["bundle", "rules.d", "wake_up.yaml"], wakeUpFile)]

def contents (rules : List RuleSpec) : Contents where
  trees := []
  subtrees := []
  rules := rules.map fun rule =>
    .decisionRules "decision.agile-agent.io/v1" ⟨"default", none⟩ [rule]

open Plain

set_option maxRecDepth 20000 in
theorem files_of : (contents [review, wakeUp]).Of ["bundle"] (memoryFs files) := ⟨rfl, rfl, rfl⟩

set_option maxRecDepth 20000 in
theorem reversed_of : (contents [wakeUp, review]).Of ["bundle"] (memoryFs files.reverse) :=
  ⟨rfl, rfl, rfl⟩

/-- A directory with one file of rules and a file that is no document. -/
def withNotes : List (Path × String) :=
  [(["bundle", "rules.d", "notes.md"], "Wake up first."),
    (["bundle", "rules.d", "wake_up.yaml"], wakeUpFile)]

set_option maxRecDepth 20000 in
theorem withNotes_of : (contents [wakeUp]).Of ["bundle"] (memoryFs withNotes) := ⟨rfl, rfl, rfl⟩

set_option maxRecDepth 20000 in
theorem withNotes_reversed_of : (contents [wakeUp]).Of ["bundle"] (memoryFs withNotes.reverse) :=
  ⟨rfl, rfl, rfl⟩

theorem sound : (contents [review, wakeUp]).Sound ∧ (contents [wakeUp, review]).Sound := by
  constructor <;>
  · apply Contents.sound_of
    intro e member
    obtain rfl := List.mem_singleton.mp member
    exact .of_no_references (by decide) (by decide) (by decide)

theorem names_differ :
    ((contents [review, wakeUp]).tree "default").map (fun tree => tree.spec.root.names) ≠
      ((contents [wakeUp, review]).tree "default").map (fun tree => tree.spec.root.names) := by
  decide

end Listing

section

open Listing Plain

/-- The file that is listed first gives the first rule. -/
theorem listing_order_decides :
    Rearranged (memoryFs Listing.files) (memoryFs Listing.files.reverse) ∧
      ¬ SameResult (parseBundle ["bundle"] (memoryFs Listing.files))
        (parseBundle ["bundle"] (memoryFs Listing.files.reverse)) := by
  refine ⟨memoryFs_rearranged (List.reverse_perm _).symm (by decide), ?_⟩
  rw [sameResult_iff_of files_of ⟨by decide, by decide⟩ reversed_of ⟨by decide, by decide⟩]
  rintro (⟨unsound, -⟩ | ⟨trees, -⟩)
  · exact unsound sound.1
  · exact names_differ (congrArg (Option.map fun tree => tree.spec.root.names) (trees "default"))

/-- A file that is no document may be listed anywhere. -/
theorem notes_listed_anywhere :
    SameResult (parseBundle ["bundle"] (memoryFs withNotes))
      (parseBundle ["bundle"] (memoryFs withNotes.reverse)) := by
  have same : Rearranged (memoryFs withNotes) (memoryFs withNotes.reverse) :=
    memoryFs_rearranged (List.reverse_perm withNotes).symm (by decide)
  rw [parseBundle_rearranged_iff same]
  intro c c' of of' _
  obtain rfl := of.unique withNotes_of
  obtain rfl := of'.unique withNotes_reversed_of
  exact .inr ⟨fun _ => rfl, fun _ => rfl⟩

end

end AgileAgent.DecisionDsl
