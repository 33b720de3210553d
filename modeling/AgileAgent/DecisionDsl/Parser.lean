import AgileAgent.Loading
import AgileAgent.DecisionDsl.Desugar
import AgileAgent.DecisionDsl.Validate
import Mathlib.Data.List.Induction

/-! # Loading a bundle

`YamlParser`. What `serde_yaml` makes of a text is a parameter; the documents, the three
loops over the files of a directory and the merge of `rules.d` are those of the source.
-/

namespace AgileAgent.DecisionDsl

structure RawSpec (ν : Type) where
  root : ν

structure RawDocument (ν : Type) where
  apiVersion : String
  kind : String
  metadata : Metadata
  rules : List ν
  spec : Option (RawSpec ν)

/-- `serde_yaml` with the derived instances of `Deserialize`; errors are given by their texts. -/
class Yaml where
  Value : Type
  documentFromStr : String → Except String (RawDocument Value)
  ruleFromValue : Value → Except String RuleSpec
  nodeFromValue : Value → Except String Node

/-- `From<serde_yaml::Error>`. -/
def ofYaml {α : Type} (x : Except String α) : Except ParseError α := x.mapError .yamlSyntax

/-- `From<FsError>`. -/
def ofFs {α : Type} (x : Except FsError α) : Except ParseError α :=
  x.mapError fun e => .yamlSyntax e.display

section

variable [Yaml]

/-- The root node under `spec`. -/
def specRoot (spec : Option (RawSpec Yaml.Value)) : Except ParseError Node :=
  match spec with
  | none => .error (.missingProperty "spec")
  | some spec => ofYaml (Yaml.nodeFromValue spec.root)

def parseDocument (yaml : String) : Except ParseError DslDocument := do
  let raw ← ofYaml (Yaml.documentFromStr yaml)
  if raw.kind = "DecisionRules" then do
    let rules ← raw.rules.mapM fun value => ofYaml (Yaml.ruleFromValue value)
    .ok (.decisionRules raw.apiVersion raw.metadata rules)
  else if raw.kind = "BehaviorTree" then do
    .ok (.behaviorTree raw.apiVersion raw.metadata (← specRoot raw.spec))
  else if raw.kind = "SubTree" then do
    .ok (.subTree raw.apiVersion raw.metadata (← specRoot raw.spec))
  else .error (.unknownNodeKind raw.kind)

/-- The `.yaml` entries of a directory; one that cannot be listed is passed over. -/
def yamlFiles (listing : Except FsError (List Path)) : List Path :=
  match listing with
  | .ok entries => entries.filter (extension · = some "yaml")
  | .error _ => []

def loadDocument (fs : Fs) (path : Path) : Except ParseError DslDocument := do
  parseDocument (← ofFs (fs.readToString path))

variable [Crates]

/-- One turn of the loop over `trees/`. -/
def loadTree (fs : Fs) (bundle : Bundle) (path : Path) : Except ParseError Bundle := do
  match ← loadDocument fs path with
  | .behaviorTree apiVersion metadata root =>
      let tree : Tree := { apiVersion, kind := .behaviorTree, metadata, spec := ⟨root⟩ }
      .ok { bundle with trees := bundle.trees.insert metadata.name tree }
  | .decisionRules apiVersion metadata rules =>
      validateUniquePriorities rules
      let tree := (DslDocument.decisionRules apiVersion metadata rules).desugar
      .ok { bundle with trees := bundle.trees.insert metadata.name tree }
  | .subTree .. => .ok bundle

omit [Crates] in
/-- One turn of the loop over `subtrees/`. -/
def loadSubtree (fs : Fs) (bundle : Bundle) (path : Path) : Except ParseError Bundle := do
  match ← loadDocument fs path with
  | .subTree apiVersion metadata root =>
      let tree : Tree := { apiVersion, kind := .subTree, metadata, spec := ⟨root⟩ }
      .ok { bundle with subtrees := bundle.subtrees.insert metadata.name tree }
  | _ => .ok bundle

/-- What the loop over `rules.d/` has collected. -/
structure MergedRules where
  allRules : List RuleSpec := []
  metadata : Option Metadata := none
  apiVersion : Option String := none

omit [Crates] in
/-- One turn of that loop. -/
def loadRules (fs : Fs) (merged : MergedRules) (path : Path) : Except ParseError MergedRules := do
  match ← loadDocument fs path with
  | .decisionRules apiVersion metadata rules =>
      .ok ⟨merged.allRules ++ rules, some metadata, some apiVersion⟩
  | _ => .ok merged

omit [Yaml] in
/-- The tree of all rules, under the name of the last file. -/
def insertRules (bundle : Bundle) (merged : MergedRules) : Except ParseError Bundle :=
  match merged.apiVersion, merged.metadata with
  | some apiVersion, some metadata => do
      validateUniquePriorities merged.allRules
      let tree := (DslDocument.decisionRules apiVersion metadata merged.allRules).desugar
      .ok { bundle with trees := bundle.trees.insert metadata.name tree }
  | _, _ => .ok bundle

def parseBundle (dir : Path) (fs : Fs) : Except ParseError Bundle := do
  let bundle ← (yamlFiles (fs.readDir (dir ++ ["trees"]))).foldlM (loadTree fs) {}
  let bundle ← (yamlFiles (fs.readDir (dir ++ ["subtrees"]))).foldlM (loadSubtree fs) bundle
  let merged ← (yamlFiles (fs.readDir (dir ++ ["rules.d"]))).foldlM (loadRules fs) {}
  let bundle ← insertRules bundle merged
  validateBundle bundle
  .ok bundle

/-! ## From documents to trees -/

namespace DslDocument

omit [Yaml] [Crates] in
def rules : DslDocument → List RuleSpec
  | .decisionRules _ _ rules => rules
  | _ => []

omit [Yaml] in
/-- What a document of `trees/` adds. -/
def treeEntries : DslDocument → List (String × Tree)
  | .behaviorTree apiVersion metadata root =>
      [(metadata.name, (DslDocument.behaviorTree apiVersion metadata root).desugar)]
  | .decisionRules apiVersion metadata rules =>
      [(metadata.name, (DslDocument.decisionRules apiVersion metadata rules).desugar)]
  | .subTree .. => []

omit [Yaml] in
/-- What a document of `subtrees/` adds. -/
def subtreeEntries : DslDocument → List (String × Tree)
  | .subTree apiVersion metadata root =>
      [(metadata.name, (DslDocument.subTree apiVersion metadata root).desugar)]
  | _ => []

end DslDocument

namespace MergedRules

/-- The rules of one more document, under its name. -/
def add (merged : MergedRules) : DslDocument → MergedRules
  | .decisionRules apiVersion metadata rules =>
      ⟨merged.allRules ++ rules, some metadata, some apiVersion⟩
  | _ => merged

def entries (merged : MergedRules) : List (String × Tree) :=
  match merged.apiVersion, merged.metadata with
  | some apiVersion, some metadata =>
      [(metadata.name, (DslDocument.decisionRules apiVersion metadata merged.allRules).desugar)]
  | _, _ => []

end MergedRules

/-- The documents of the three directories, in the order in which they are listed. -/
structure Contents where
  trees : List DslDocument
  subtrees : List DslDocument
  rules : List DslDocument

namespace Contents

def merged (c : Contents) : MergedRules := c.rules.foldl .add {}

/-- The trees that are put into the bundle, in this order. -/
def treeEntries (c : Contents) : List (String × Tree) :=
  c.trees.flatMap DslDocument.treeEntries ++ c.merged.entries

def subtreeEntries (c : Contents) : List (String × Tree) :=
  c.subtrees.flatMap DslDocument.subtreeEntries

/-- The files of the directory are these documents. -/
structure Of (dir : Path) (fs : Fs) (c : Contents) : Prop where
  trees : (yamlFiles (fs.readDir (dir ++ ["trees"]))).mapM (loadDocument fs) = .ok c.trees
  subtrees : (yamlFiles (fs.readDir (dir ++ ["subtrees"]))).mapM (loadDocument fs) = .ok c.subtrees
  rules : (yamlFiles (fs.readDir (dir ++ ["rules.d"]))).mapM (loadDocument fs) = .ok c.rules

/-- No rules that are put into one tree share a priority. -/
structure Ranked (c : Contents) : Prop where
  trees : ∀ doc ∈ c.trees, (doc.rules.map RuleSpec.priority).Nodup
  rules : (c.merged.allRules.map RuleSpec.priority).Nodup

end Contents

theorem loadTree_eq (fs : Fs) (bundle : Bundle) (path : Path) : loadTree fs bundle path =
    (Loading.checked (loadDocument fs) (fun doc => validateUniquePriorities doc.rules) path).map
      fun doc => { bundle with trees := Insertions.insertAll bundle.trees doc.treeEntries } := by
  unfold loadTree Loading.checked
  cases loadDocument fs path with
  | error e => rfl
  | ok doc =>
      cases doc with
      | behaviorTree | subTree => rfl
      | decisionRules apiVersion metadata rules =>
          change (do validateUniquePriorities rules; _) = Except.map _ (do validateUniquePriorities rules; _)
          cases validateUniquePriorities rules <;> rfl

theorem loadSubtree_eq (fs : Fs) (bundle : Bundle) (path : Path) : loadSubtree fs bundle path =
    (loadDocument fs path).map fun doc =>
      { bundle with subtrees := Insertions.insertAll bundle.subtrees doc.subtreeEntries } := by
  unfold loadSubtree
  cases loadDocument fs path with
  | error e => rfl
  | ok doc => cases doc <;> rfl

omit [Crates] in
theorem loadRules_eq (fs : Fs) (merged : MergedRules) (path : Path) :
    loadRules fs merged path = (loadDocument fs path).map merged.add := by
  unfold loadRules
  cases loadDocument fs path with
  | error e => rfl
  | ok doc => cases doc <;> rfl

omit [Yaml] [Crates] in
/-- Nothing has been collected, or rules under a name. -/
theorem merged_cases (docs : List DslDocument) : docs.foldl MergedRules.add {} = {} ∨
    ∃ rules metadata apiVersion,
      docs.foldl MergedRules.add {} = ⟨rules, some metadata, some apiVersion⟩ := by
  induction docs using List.reverseRecOn with
  | nil => exact .inl rfl
  | append_singleton docs doc ih =>
      rw [List.foldl_append, List.foldl_cons, List.foldl_nil]
      cases doc with
      | behaviorTree | subTree => exact ih
      | decisionRules apiVersion metadata rules => exact .inr ⟨_, metadata, apiVersion, rfl⟩

omit [Yaml] in
theorem insertRules_eq_ok {bundle bundle' : Bundle} {docs : List DslDocument} :
    insertRules bundle (docs.foldl MergedRules.add {}) = .ok bundle' ↔
      ((docs.foldl MergedRules.add {}).allRules.map RuleSpec.priority).Nodup ∧
        bundle' = { bundle with
          trees := Insertions.insertAll bundle.trees (docs.foldl MergedRules.add {}).entries } := by
  rcases merged_cases docs with none | ⟨rules, metadata, apiVersion, some⟩
  · simp only [none, insertRules, MergedRules.entries, Insertions.insertAll, List.foldl_nil,
      List.map_nil, List.nodup_nil, true_and, Except.ok.injEq]
    exact eq_comm
  · simp only [some, insertRules, MergedRules.entries, ← validateUniquePriorities_iff]
    cases validateUniquePriorities rules with
    | error e => simp [bind, Except.bind]
    | ok => simp [bind, Except.bind, Insertions.insertAll, eq_comm]

/-- The bundle of some documents, before validation. -/
def Contents.bundle (c : Contents) : Bundle where
  trees := Insertions.insertAll ∅ c.treeEntries
  subtrees := Insertions.insertAll ∅ c.subtreeEntries

omit [Yaml] in
theorem foldl_treeEntries (docs : List DslDocument) (bundle : Bundle) :
    docs.foldl (fun bundle doc =>
      { bundle with trees := Insertions.insertAll bundle.trees doc.treeEntries }) bundle =
    { bundle with
      trees := Insertions.insertAll bundle.trees (docs.flatMap DslDocument.treeEntries) } := by
  induction docs generalizing bundle with
  | nil => rfl
  | cons doc rest ih => rw [List.foldl_cons, ih, List.flatMap_cons, Insertions.insertAll_append]

omit [Yaml] in
theorem foldl_subtreeEntries (docs : List DslDocument) (bundle : Bundle) :
    docs.foldl (fun bundle doc =>
      { bundle with subtrees := Insertions.insertAll bundle.subtrees doc.subtreeEntries }) bundle =
    { bundle with
      subtrees := Insertions.insertAll bundle.subtrees (docs.flatMap DslDocument.subtreeEntries) } := by
  induction docs generalizing bundle with
  | nil => rfl
  | cons doc rest ih => rw [List.foldl_cons, ih, List.flatMap_cons, Insertions.insertAll_append]

/-- A bundle is returned when every file loads, the rules are ranked and validation passes. -/
theorem parseBundle_eq_ok {dir : Path} {fs : Fs} {bundle : Bundle} :
    parseBundle dir fs = .ok bundle ↔ ∃ c : Contents, c.Of dir fs ∧ c.Ranked ∧
      bundle = c.bundle ∧ validateBundle bundle = .ok () := by
  simp only [parseBundle, Loading.bind_eq_ok, Loading.foldlM_eq_ok (loadTree_eq fs),
    Loading.foldlM_eq_ok (loadSubtree_eq fs), Loading.foldlM_eq_ok (loadRules_eq fs),
    Loading.mapM_checked_eq_ok, validateUniquePriorities_iff, foldl_treeEntries,
    foldl_subtreeEntries]
  constructor
  · rintro ⟨_, ⟨trees, ⟨trees_of, ranked⟩, rfl⟩, _, ⟨subtrees, subtrees_of, rfl⟩, _,
      ⟨rules, rules_of, rfl⟩, _, inserted, ⟨⟩, valid, same⟩
    obtain ⟨ranked', rfl⟩ := insertRules_eq_ok.mp inserted
    obtain rfl := Except.ok.inj same
    refine ⟨⟨trees, subtrees, rules⟩, ⟨trees_of, subtrees_of, rules_of⟩, ⟨ranked, ranked'⟩, ?_, valid⟩
    simp [Contents.bundle, Contents.treeEntries, Contents.subtreeEntries, Contents.merged,
      Insertions.insertAll_append]
  · rintro ⟨⟨trees, subtrees, rules⟩, ⟨trees_of, subtrees_of, rules_of⟩, ⟨ranked, ranked'⟩, rfl, valid⟩
    refine ⟨_, ⟨trees, ⟨trees_of, ranked⟩, rfl⟩, _, ⟨subtrees, subtrees_of, rfl⟩, _,
      ⟨rules, rules_of, rfl⟩, _, insertRules_eq_ok.mpr ⟨ranked', rfl⟩, (), ?_, ?_⟩
    · simpa [Contents.bundle, Contents.treeEntries, Contents.subtreeEntries, Contents.merged,
        Insertions.insertAll_append] using valid
    · simp [Contents.bundle, Contents.treeEntries, Contents.subtreeEntries, Contents.merged,
        Insertions.insertAll_append]

end

/-! ## A plain reader -/

/-- A few texts and what `serde_yaml` makes of them; a value is given by its text. -/
structure Samples where
  documents : List (String × RawDocument String) := []
  rules : List (String × RuleSpec) := []
  nodes : List (String × Node) := []

/-- A reader of these texts that takes every other text for a mistake. -/
@[reducible] def Samples.yaml (samples : Samples) : Yaml where
  Value := String
  documentFromStr text := (samples.documents.lookup text).elim (.error "invalid document") .ok
  ruleFromValue text := (samples.rules.lookup text).elim (.error "invalid rule") .ok
  nodeFromValue text := (samples.nodes.lookup text).elim (.error "invalid node") .ok

/-- Files held in memory; a directory lists its files in the order given. -/
def memoryFs (files : List (Path × String)) : Fs where
  readToString path := (files.lookup path).elim (.error (.notFound path)) .ok
  readDir dir := .ok ((files.map Prod.fst).filter (·.dropLast = dir))

end AgileAgent.DecisionDsl
