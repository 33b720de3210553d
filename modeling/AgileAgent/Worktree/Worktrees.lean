import Mathlib.Data.Finset.Insert
import AgileAgent.Worktree.Porcelain

/-! # Worktrees over a run

The worktrees and branches of a repository over every run of the manager's operations, any git
command of which may fail.
-/

namespace AgileAgent.Worktree

open DecisionDsl (trim strContains)
open Fallible

/-- What is documented of the commands that list, add and remove worktrees. A command that fails
    changes nothing; paths are listed as git resolves them. -/
structure WorktreeView (γ : Type) [Git γ] where
  /-- The main worktree comes first. -/
  worktrees : γ → List Listing
  branches : γ → Finset String
  resolve : String → γ → String
  failed : ∀ c g, ¬ Succeeds c g →
    worktrees (after c g) = worktrees g ∧ branches (after c g) = branches g
  reads : ∀ (c : GitCommand) g, c.Reads →
    worktrees (after c g) = worktrees g ∧ branches (after c g) = branches g
  housed : ∀ path g, worktrees (Git.createDirAll path g).2 = worktrees g ∧
    branches (Git.createDirAll path g).2 = branches g
  printed : ∀ g stdout, (Git.run .worktreeList g).1 = .succeeded stdout →
    stdout = porcelain (worktrees g)
  distinct : ∀ g, ((worktrees g).map fun l => components l.path).Nodup
  canonical : ∀ g, ∀ l ∈ worktrees g, resolve l.path g = l.path
  syntactic : ∀ g path path', components path = components path' → resolve path g = resolve path' g
  added : ∀ path target g, Succeeds (.worktreeAdd path target) g →
    ((worktrees (after (.worktreeAdd path target) g)).map (·.path)).Perm
        (resolve path g :: (worktrees g).map (·.path)) ∧
      branches (after (.worktreeAdd path target) g) = match target with
        | .newBranch branch _ => insert branch (branches g)
        | _ => branches g
  removed : ∀ path force g, Succeeds (.worktreeRemove path force) g →
    (resolve path g :: (worktrees (after (.worktreeRemove path force) g)).map (·.path)).Perm
        ((worktrees g).map (·.path)) ∧
      branches (after (.worktreeRemove path force) g) = branches g
  locked : ∀ path reason g, Succeeds (.worktreeLock path reason) g →
    ((worktrees (after (.worktreeLock path reason) g)).map (·.path)).Perm
        ((worktrees g).map (·.path)) ∧
      branches (after (.worktreeLock path reason) g) = branches g
  unlocked : ∀ path g, Succeeds (.worktreeUnlock path) g →
    ((worktrees (after (.worktreeUnlock path) g)).map (·.path)).Perm
        ((worktrees g).map (·.path)) ∧
      branches (after (.worktreeUnlock path) g) = branches g

section

variable {γ : Type} [Git γ] (view : WorktreeView γ) (m : WorktreeManager)

def WorktreeView.paths (g : γ) : List String := (view.worktrees g).map (·.path)

/-- The same worktrees and branches. -/
def Same (g g' : γ) : Prop := (view.paths g').Perm (view.paths g) ∧ view.branches g' = view.branches g

/-- There are no more linked worktrees than allowed. -/
def Within (g : γ) : Prop := (view.paths g).length ≤ m.config.maxWorktrees + 1

/-! ## Statements -/

/-- What `git worktree add` is asked for. -/
def targetOf (options : WorktreeCreateOptions) : AddTarget :=
  match options.branch with
  | none => .detached options.base
  | some branch => if options.createBranch then .newBranch branch options.base else .existing branch

/-- After the count, in a directory for worktrees. -/
def housed (g : γ) : γ :=
  if Git.pathExists m.worktreesDir (after .worktreeList g) then after .worktreeList g
  else (Git.createDirAll m.worktreesDir (after .worktreeList g)).2

/-- Right before the worktree is added. -/
def adding (options : WorktreeCreateOptions) (g : γ) : γ :=
  match options.branch with
  | none => housed m g
  | some branch => if options.createBranch then housed m g else after (.branchList branch) (housed m g)

/-- Right after. -/
def addedTo (name : String) (options : WorktreeCreateOptions) (g : γ) : γ :=
  after (.worktreeAdd (m.createPath name options) (targetOf options)) (adding m options g)

/-- After the lock, if there is one. -/
def lockedIn (name : String) (options : WorktreeCreateOptions) (g : γ) : γ :=
  match options.lockReason with
  | none => addedTo m name options g
  | some reason => after (.worktreeLock (m.createPath name options) reason) (addedTo m name options g)

/-- The worktree is added: nothing stands in its way, and git adds it. -/
structure Adds (name : String) (options : WorktreeCreateOptions) (g : γ) : Prop where
  listed : Succeeds .worktreeList g
  room : ∃ infos, parsePorcelainOutput (porcelain (view.worktrees g)) = .ok infos ∧
    infos.length ≤ m.config.maxWorktrees
  housing : Git.pathExists m.worktreesDir (after .worktreeList g) = true ∨
    (Git.createDirAll m.worktreesDir (after .worktreeList g)).1 = .ok ()
  fresh : Git.pathExists (m.createPath name options) (housed m g) = false
  target : ∀ branch, options.branch = some branch → options.createBranch = false →
    ∃ stdout, (Git.run (.branchList branch) (housed m g)).1 = .succeeded stdout ∧
      strContains (trim stdout) branch = true
  add : Succeeds (.worktreeAdd (m.createPath name options) (targetOf options)) (adding m options g)

/-- The new worktree is at the path of its name, resolved and readable, and the commands after
    the one that adds it do not fail. -/
structure FollowsUp (name : String) (options : WorktreeCreateOptions) (g : γ) : Prop where
  named : components (m.createPath name options) = components (join m.worktreesDir name)
  resolved : components (view.resolve (m.createPath name options) (adding m options g)) =
    components (m.createPath name options)
  printable : Printable (view.resolve (m.createPath name options) (adding m options g))
  lock : ∀ reason, options.lockReason = some reason →
    Succeeds (.worktreeLock (m.createPath name options) reason) (addedTo m name options g)
  list : Succeeds .worktreeList (lockedIn m name options g)

/-- Both operations that take a name act on the worktree at this path. -/
structure Addresses (name path : String) (g : γ) : Prop where
  get : Ends (m.getWorktreeByName name) g (fun info _ => info.path = path)
    fun _ _ => ¬ Succeeds .worktreeList g
  remove : ∀ force, Ends (m.remove name force) g
    (fun _ g' => (path :: view.paths g').Perm (view.paths g) ∧ view.branches g' = view.branches g)
    fun _ g' => Same view g g' ∧ (Git.pathExists (join m.worktreesDir name) g = false ∨
      ¬ Succeeds (.worktreeRemove (join m.worktreesDir name) force) g)

/-- A creation that fails changes nothing, and what it returns is addressed by its name. -/
def Creates (name : String) (options : WorktreeCreateOptions) (g : γ) : Prop :=
  Ends (m.create name options) g
    (fun info g' => info.path ∈ view.paths g' ∧ Addresses view m name info.path g')
    fun _ g' => Same view g g'

end

/-! ## The same worktrees -/

section

variable {γ : Type} [Git γ] (view : WorktreeView γ) {m : WorktreeManager} {g g' g'' : γ}

theorem Same.refl (g : γ) : Same view g g := ⟨.refl _, rfl⟩

theorem Same.of_eq (same : view.worktrees g' = view.worktrees g ∧ view.branches g' = view.branches g) :
    Same view g g' := by
  constructor
  · rw [WorktreeView.paths, same.1, WorktreeView.paths]
  · exact same.2

variable {view}

theorem Same.trans (first : Same view g g') (second : Same view g' g'') : Same view g g'' :=
  ⟨second.1.trans first.1, second.2.trans first.2⟩

theorem Same.within (same : Same view g g') (within : Within view m g) : Within view m g' := by
  rw [Within, same.1.length_eq]
  exact within

theorem same_of_failed {c : GitCommand} (fault : ¬ Succeeds c g) : Same view g (after c g) :=
  .of_eq view (view.failed c g fault)

theorem same_of_reads {c : GitCommand} (reads : c.Reads) : Same view g (after c g) :=
  .of_eq view (view.reads c g reads)

theorem same_locked (path reason : String) : Same view g (after (.worktreeLock path reason) g) := by
  by_cases success : Succeeds (.worktreeLock path reason) g
  · exact view.locked path reason g success
  · exact same_of_failed success

theorem same_unlocked (path : String) : Same view g (after (.worktreeUnlock path) g) := by
  by_cases success : Succeeds (.worktreeUnlock path) g
  · exact view.unlocked path g success
  · exact same_of_failed success

theorem same_housed (g : γ) : Same view g (housed m g) := by
  have listed : Same view g (after .worktreeList g) := same_of_reads trivial
  unfold housed
  split
  · exact listed
  · exact listed.trans (.of_eq view (view.housed _ _))

theorem same_adding (options : WorktreeCreateOptions) (g : γ) : Same view g (adding m options g) := by
  have here : Same view g (housed m g) := same_housed g
  unfold adding
  split
  · exact here
  · split
    · exact here
    · exact here.trans (same_of_reads trivial)

theorem same_lockedIn (name : String) (options : WorktreeCreateOptions) (g : γ) :
    Same view (addedTo m name options g) (lockedIn m name options g) := by
  unfold lockedIn
  split
  · exact .refl view _
  · exact same_locked _ _

/-! ## What is found -/

/-- The listing has this worktree first at the path. -/
def Locates (view : WorktreeView γ) (path : String) (g : γ) (info : WorktreeInfo) : Prop :=
  ∃ infos, parsePorcelainOutput (porcelain (view.worktrees g)) = .ok infos ∧
    infos.find? (fun w => components w.path == components path) = some info

theorem Locates.functional {path : String} {info info' : WorktreeInfo} (locates : Locates view path g info)
    (locates' : Locates view path g info') : info = info' := by
  obtain ⟨infos, parsed, found⟩ := locates
  obtain ⟨infos', parsed', found'⟩ := locates'
  grind

variable (view) in
theorem ends_list (g : γ) : Ends WorktreeManager.list g
    (fun infos g' => g' = after .worktreeList g ∧ Succeeds .worktreeList g ∧
      parsePorcelainOutput (porcelain (view.worktrees g)) = .ok infos)
    fun _ g' => g' = after .worktreeList g ∧ (Succeeds .worktreeList g →
      ∀ infos, parsePorcelainOutput (porcelain (view.worktrees g)) ≠ .ok infos) := by
  unfold WorktreeManager.list
  rw [ends_bind]
  apply ends_runGitCommand
  · intro stdout ran
    have success : Succeeds .worktreeList g := ⟨stdout, ran⟩
    rw [view.printed g stdout ran]
    cases parsed : parsePorcelainOutput (porcelain (view.worktrees g)) with
    | ok infos => exact ⟨rfl, success, rfl⟩
    | error e => exact ⟨rfl, fun _ infos same => by cases same⟩
  · exact fun e fault => ⟨rfl, fun success => absurd success fault⟩

variable (view) in
theorem ends_getWorktreeInfo (path : String) (g : γ) : Ends (WorktreeManager.getWorktreeInfo path) g
    (fun info g' => g' = after .worktreeList g ∧ Succeeds .worktreeList g ∧ Locates view path g info)
    fun _ g' => g' = after .worktreeList g ∧
      (Succeeds .worktreeList g → ∀ info, ¬ Locates view path g info) := by
  unfold WorktreeManager.getWorktreeInfo
  apply (ends_list view g).andThen
  · intro infos g' given
    obtain ⟨left, success, parsed⟩ := given
    cases found : infos.find? fun w => components w.path == components path with
    | some info => exact ⟨left, success, infos, parsed, found⟩
    | none =>
        refine ⟨left, fun _ info located => ?_⟩
        obtain ⟨infos', parsed', found'⟩ := located
        rw [parsed] at parsed'
        cases parsed'
        rw [found] at found'
        cases found'
  · intro e g' given
    obtain ⟨left, unread⟩ := given
    refine ⟨left, fun success info located => ?_⟩
    obtain ⟨infos, parsed, _⟩ := located
    exact unread success infos parsed

/-- A worktree with a path that is read back is found by it, and no other one is. -/
theorem locates_of_mem {path path' : String} (printable : ∀ p ∈ view.paths g, Printable p)
    (mem : path ∈ view.paths g) (same : components path = components path') :
    ∃ info, Locates view path' g info ∧ info.path = path := by
  obtain ⟨infos, parsed, paths⟩ :=
    parse_porcelain fun l mem => printable l.path (List.mem_map_of_mem mem)
  change infos.map (·.path) = view.paths g at paths
  have some : (infos.find? fun w => components w.path == components path').isSome := by
    rw [← paths] at mem
    obtain ⟨info, mem', is⟩ := List.mem_map.mp mem
    rw [List.find?_isSome]
    exact ⟨info, mem', by simp [is, same]⟩
  obtain ⟨info, found⟩ := Option.isSome_iff_exists.mp some
  refine ⟨info, ⟨infos, parsed, found⟩, ?_⟩
  have nodup : ((view.paths g).map components).Nodup := by
    rw [WorktreeView.paths, List.map_map]
    exact view.distinct g
  have mem' : info.path ∈ view.paths g := by
    rw [← paths]
    exact List.mem_map_of_mem (List.mem_of_find?_eq_some found)
  have at_ : components info.path = components path' := by simpa using List.find?_some found
  exact List.inj_on_of_nodup_map nodup mem' mem (at_.trans same.symm)

/-! ## Creation -/

variable (view) in
theorem ends_lockCreated {path : String} {options : WorktreeCreateOptions} :
    Ends (WorktreeManager.lockCreated path options) g
      (fun _ g' => (∀ reason, options.lockReason = some reason → Succeeds (.worktreeLock path reason) g) ∧
        g' = match options.lockReason with
          | none => g
          | some reason => after (.worktreeLock path reason) g)
      fun _ g' => Same view g g' ∧
        ¬ ∀ reason, options.lockReason = some reason → Succeeds (.worktreeLock path reason) g := by
  unfold WorktreeManager.lockCreated WorktreeManager.lockWorktree
  cases lock : options.lockReason with
  | none => exact ⟨fun reason h => absurd h (by simp), rfl⟩
  | some reason =>
      simp only [ends_bind, ends_pure]
      apply ends_runGitCommand
      · intro stdout ran
        refine ⟨fun reason' same => ?_, rfl⟩
        cases same
        exact ⟨stdout, ran⟩
      · exact fun e fault => ⟨same_locked _ _, fun all => fault (all reason rfl)⟩

variable (view) in
theorem ends_checkLimit (g : γ) : Ends m.checkLimit g
    (fun _ g' => g' = after .worktreeList g ∧ Succeeds .worktreeList g ∧
      ∃ infos, parsePorcelainOutput (porcelain (view.worktrees g)) = .ok infos ∧
        infos.length ≤ m.config.maxWorktrees)
    fun _ g' => g' = after .worktreeList g ∧ (Succeeds .worktreeList g →
      ∀ infos, parsePorcelainOutput (porcelain (view.worktrees g)) = .ok infos →
        m.config.maxWorktrees < infos.length) := by
  unfold WorktreeManager.checkLimit
  apply (ends_list view g).andThen
  · intro infos g' given
    obtain ⟨left, listed, parsed⟩ := given
    split
    · next full =>
        refine ⟨left, fun _ infos' parsed' => ?_⟩
        rw [parsed] at parsed'
        cases parsed'
        exact full
    · next room => exact ⟨left, listed, infos, parsed, by omega⟩
  · intro e g' given
    obtain ⟨left, unread⟩ := given
    exact ⟨left, fun listed infos parsed => absurd parsed (unread listed infos)⟩

theorem ends_ensureWorktreesDir (g : γ) : Ends m.ensureWorktreesDir (after .worktreeList g)
    (fun _ g' => g' = housed m g ∧ (Git.pathExists m.worktreesDir (after .worktreeList g) = true ∨
      (Git.createDirAll m.worktreesDir (after .worktreeList g)).1 = .ok ()))
    fun _ g' => g' = housed m g ∧ ¬ (Git.pathExists m.worktreesDir (after .worktreeList g) = true ∨
      (Git.createDirAll m.worktreesDir (after .worktreeList g)).1 = .ok ()) := by
  unfold Ends WorktreeManager.ensureWorktreesDir housed
  cases present : Git.pathExists m.worktreesDir (after .worktreeList g) with
  | true => simp
  | false =>
      cases made : Git.createDirAll m.worktreesDir (after .worktreeList g) with
      | mk result g' => cases result <;> simp

variable (view) in
theorem ends_addTarget (options : WorktreeCreateOptions) :
    Ends (WorktreeManager.addTarget options) (housed m g)
      (fun target g' => target = targetOf options ∧ g' = adding m options g ∧
        ∀ branch, options.branch = some branch → options.createBranch = false →
          ∃ stdout, (Git.run (.branchList branch) (housed m g)).1 = .succeeded stdout ∧
            strContains (trim stdout) branch = true)
      fun _ g' => Same view (housed m g) g' ∧
        ¬ ∀ branch, options.branch = some branch → options.createBranch = false →
          ∃ stdout, (Git.run (.branchList branch) (housed m g)).1 = .succeeded stdout ∧
            strContains (trim stdout) branch = true := by
  unfold WorktreeManager.addTarget targetOf adding
  cases options.branch with
  | none => exact ⟨rfl, rfl, fun _ h => by cases h⟩
  | some branch =>
      cases new : options.createBranch with
      | true => exact ⟨rfl, rfl, fun _ _ h => by cases h⟩
      | false =>
          simp only [Bool.false_eq_true, if_false, branchExists, ends_bind, ends_pure]
          apply ends_runGitCommand
          · intro stdout ran
            cases found : strContains (trim stdout) branch with
            | true =>
                refine ⟨rfl, rfl, fun branch' same _ => ?_⟩
                cases same
                exact ⟨stdout, ran, found⟩
            | false =>
                refine ⟨same_of_reads trivial, fun all => ?_⟩
                obtain ⟨stdout', ran', found'⟩ := all branch rfl trivial
                rw [ran] at ran'
                cases ran'
                rw [found] at found'
                cases found'
          · intro e fault
            refine ⟨same_of_reads trivial, fun all => ?_⟩
            obtain ⟨stdout, ran, _⟩ := all branch rfl trivial
            exact fault ⟨stdout, ran⟩

theorem ends_checkFresh (path : String) (g : γ) : Ends (WorktreeManager.checkFresh path) g
    (fun _ g' => g' = g ∧ Git.pathExists path g = false)
    fun _ g' => g' = g ∧ Git.pathExists path g = true := by
  unfold WorktreeManager.checkFresh
  rw [ends_bind, ends_get]
  cases taken : Git.pathExists path g with
  | true => exact ⟨rfl, rfl⟩
  | false => exact ⟨rfl, rfl⟩

variable (view) in
/-- Where the creation ends once the worktree is added. -/
theorem ends_followUp (name : String) (options : WorktreeCreateOptions) (g : γ) :
    Ends (do
        WorktreeManager.lockCreated (m.createPath name options) options
        WorktreeManager.getWorktreeInfo (m.createPath name options)) (addedTo m name options g)
      (fun info g' => Same view (addedTo m name options g) g' ∧
        Locates view (m.createPath name options) (lockedIn m name options g) info)
      fun _ g' => Same view (addedTo m name options g) g' ∧
        ¬ ((∀ reason, options.lockReason = some reason →
            Succeeds (.worktreeLock (m.createPath name options) reason) (addedTo m name options g)) ∧
          Succeeds .worktreeList (lockedIn m name options g) ∧
          ∃ info, Locates view (m.createPath name options) (lockedIn m name options g) info) := by
  have same : Same view (addedTo m name options g) (after .worktreeList (lockedIn m name options g)) :=
    (same_lockedIn name options g).trans (same_of_reads trivial)
  apply (ends_lockCreated view).andThen
  · intro _ g₁ given
    obtain ⟨locks, left⟩ := given
    have here : g₁ = lockedIn m name options g := left
    rw [here]
    apply (ends_getWorktreeInfo view _ _).mono
    · intro info g₂ given
      obtain ⟨left, _, located⟩ := given
      rw [left]
      exact ⟨same, located⟩
    · intro e g₂ given
      obtain ⟨left, lost⟩ := given
      rw [left]
      refine ⟨same, fun all => ?_⟩
      obtain ⟨_, lists, info, located⟩ := all
      exact lost lists info located
  · intro e g₁ given
    obtain ⟨same, unlocked⟩ := given
    exact ⟨same, fun all => unlocked all.1⟩

variable (view) in
/-- Where the creation ends. -/
theorem ends_create (name : String) (options : WorktreeCreateOptions) (g : γ) :
    Ends (m.create name options) g
      (fun info g' => Adds view m name options g ∧ Same view (addedTo m name options g) g' ∧
        Locates view (m.createPath name options) (lockedIn m name options g) info)
      fun _ g' => (¬ Adds view m name options g ∧ Same view g g') ∨
        (Adds view m name options g ∧ Same view (addedTo m name options g) g' ∧
          ¬ ((∀ reason, options.lockReason = some reason →
              Succeeds (.worktreeLock (m.createPath name options) reason) (addedTo m name options g)) ∧
            Succeeds .worktreeList (lockedIn m name options g) ∧
            ∃ info, Locates view (m.createPath name options) (lockedIn m name options g) info)) := by
  unfold WorktreeManager.create
  apply (ends_checkLimit view g).andThen
  · intro _ g₁ given
    obtain ⟨left, listed, room⟩ := given
    rw [left]
    apply (ends_ensureWorktreesDir g).andThen
    · intro _ g₂ given
      obtain ⟨left, housing⟩ := given
      rw [left, ends_bind]
      apply (ends_checkFresh (m.createPath name options) _).mono
      · intro _ g₃ given
        obtain ⟨left, fresh⟩ := given
        rw [left]
        apply (ends_addTarget view options).andThen
        · intro target g₄ given
          obtain ⟨asked, left, branch⟩ := given
          rw [asked, left, ends_bind]
          apply ends_runGitCommand
          · intro stdout ran
            have adds : Adds view m name options g :=
              ⟨listed, room, housing, fresh, branch, ⟨stdout, ran⟩⟩
            apply (ends_followUp view name options g).mono
            · exact fun info g₅ ends' => ⟨adds, ends'⟩
            · exact fun e g₅ ends' => .inr ⟨adds, ends'⟩
          · intro e fault
            exact .inl ⟨fun adds => fault adds.add, (same_adding options g).trans (same_of_failed fault)⟩
        · intro e g₄ given
          obtain ⟨same, missing⟩ := given
          exact .inl ⟨fun adds => missing adds.target, (same_housed g).trans same⟩
      · intro e g₃ given
        obtain ⟨left, taken⟩ := given
        rw [left]
        refine .inl ⟨fun adds => ?_, same_housed g⟩
        simp [adds.fresh] at taken
    · intro e g₂ given
      obtain ⟨left, homeless⟩ := given
      rw [left]
      exact .inl ⟨fun adds => homeless adds.housing, same_housed g⟩
  · intro e g₁ given
    obtain ⟨left, full⟩ := given
    rw [left]
    refine .inl ⟨fun adds => ?_, same_of_reads trivial⟩
    obtain ⟨infos, parsed, room⟩ := adds.room
    have := full adds.listed infos parsed
    omega

/-- The new worktree is the only change. -/
theorem Adds.paths {name : String} {options : WorktreeCreateOptions} (adds : Adds view m name options g) :
    (view.paths (addedTo m name options g)).Perm
      (view.resolve (m.createPath name options) (adding m options g) :: view.paths g) := by
  have same : Same view g (adding m options g) := same_adding options g
  exact (view.added _ _ _ adds.add).1.trans (same.1.cons _)

theorem Adds.room_left {name : String} {options : WorktreeCreateOptions}
    (adds : Adds view m name options g) : (view.paths g).length ≤ m.config.maxWorktrees := by
  obtain ⟨infos, parsed, room⟩ := adds.room
  have counted := length_le_of_parse parsed
  rw [WorktreeView.paths, List.length_map]
  omega

theorem create_within {name : String} {options : WorktreeCreateOptions} (within : Within view m g) :
    Ends (m.create name options) g (fun _ g' => Within view m g') fun _ g' => Within view m g' := by
  have grown (adds : Adds view m name options g) : Within view m (addedTo m name options g) := by
    have left := adds.room_left
    rw [Within, adds.paths.length_eq, List.length_cons]
    omega
  apply (ends_create view name options g).mono
  · exact fun _ g' ends' => Same.within ends'.2.1 (grown ends'.1)
  · intro _ g' ends'
    rcases ends' with ⟨_, same⟩ | ⟨adds, same, _⟩
    · exact same.within within
    · exact same.within (grown adds)

/-! ## Names -/

variable (view) in
theorem ends_remove (name : String) (force : Bool) (g : γ) :
    Ends (m.remove name force) g
      (fun _ g' => (view.resolve (join m.worktreesDir name) g :: view.paths g').Perm (view.paths g) ∧
        view.branches g' = view.branches g)
      fun _ g' => Same view g g' ∧ (Git.pathExists (join m.worktreesDir name) g = false ∨
        ¬ Succeeds (.worktreeRemove (join m.worktreesDir name) force) g) := by
  unfold WorktreeManager.remove
  simp only [ends_bind, ends_get]
  cases present : Git.pathExists (join m.worktreesDir name) g with
  | false => exact ⟨.refl view g, .inl rfl⟩
  | true =>
      simp only [Bool.not_true, Bool.false_eq_true, if_false, ends_bind, ends_pure]
      apply ends_runGitCommand
      · exact fun stdout ran => view.removed _ _ _ ⟨stdout, ran⟩
      · exact fun e fault => ⟨same_of_failed fault, .inr fault⟩

/-- A worktree at the path of a name is the one that the name addresses. -/
theorem addresses_of_mem {name path : String} (printable : ∀ p ∈ view.paths g, Printable p)
    (mem : path ∈ view.paths g) (named : components path = components (join m.worktreesDir name)) :
    Addresses view m name path g := by
  obtain ⟨info, located, is⟩ := locates_of_mem printable mem named
  have canonical : view.resolve path g = path := by
    obtain ⟨l, mem', same⟩ := List.mem_map.mp mem
    rw [← same]
    exact view.canonical g l mem'
  constructor
  · apply (ends_getWorktreeInfo view (join m.worktreesDir name) g).mono
    · intro info' g' given
      obtain ⟨_, _, located'⟩ := given
      rw [located'.functional located, is]
    · exact fun _ g' ⟨_, lost⟩ listed => lost listed info located
  · intro force
    have resolved : view.resolve (join m.worktreesDir name) g = path := by
      rw [← view.syntactic g _ _ named, canonical]
    have removal : Ends (m.remove name force) g _ _ := ends_remove view name force g
    rwa [resolved] at removal

/-- Every path of the listing is read back. -/
def Readable (view : WorktreeView γ) (g : γ) : Prop := ∀ p ∈ view.paths g, Printable p

theorem Same.readable (same : Same view g g') (readable : Readable view g) : Readable view g' :=
  fun p mem => readable p (same.1.mem_iff.mp mem)

theorem Adds.readable {name : String} {options : WorktreeCreateOptions}
    (adds : Adds view m name options g) (followsUp : FollowsUp view m name options g)
    (readable : Readable view g) : Readable view (addedTo m name options g) := by
  intro p mem
  rcases List.mem_cons.mp (adds.paths.mem_iff.mp mem) with new | old
  · rw [new]
    exact followsUp.printable
  · exact readable p old

/-- A creation that follows up: what it returns is where its name says. -/
theorem ends_create_sound {name : String} {options : WorktreeCreateOptions} (readable : Readable view g)
    (sound : Adds view m name options g → FollowsUp view m name options g) :
    Ends (m.create name options) g
      (fun info g' => info.path ∈ view.paths g' ∧ Readable view g' ∧
        components info.path = components (join m.worktreesDir name))
      fun _ g' => Same view g g' := by
  have located (adds : Adds view m name options g) : ∃ info,
      Locates view (m.createPath name options) (lockedIn m name options g) info ∧
        info.path = view.resolve (m.createPath name options) (adding m options g) := by
    have same : Same view (addedTo m name options g) (lockedIn m name options g) := same_lockedIn _ _ _
    apply locates_of_mem (same.readable (adds.readable (sound adds) readable))
    · exact same.1.mem_iff.mpr (adds.paths.mem_iff.mpr List.mem_cons_self)
    · exact (sound adds).resolved
  apply (ends_create view name options g).mono
  · intro info g' given
    obtain ⟨adds, same, locates⟩ := given
    obtain ⟨info', locates', is⟩ := located adds
    rw [locates.functional locates', is]
    refine ⟨?_, same.readable (adds.readable (sound adds) readable), ?_⟩
    · exact same.1.mem_iff.mpr (adds.paths.mem_iff.mpr List.mem_cons_self)
    · exact (sound adds).resolved.trans (sound adds).named
  · intro e g' ends'
    rcases ends' with ⟨_, same⟩ | ⟨adds, _, broken⟩
    · exact same
    · obtain ⟨info, locates, _⟩ := located adds
      exact absurd ⟨(sound adds).lock, (sound adds).list, info, locates⟩ broken

theorem create_creates {name : String} {options : WorktreeCreateOptions} (readable : Readable view g)
    (sound : Adds view m name options g → FollowsUp view m name options g) :
    Creates view m name options g := by
  apply (ends_create_sound readable sound).mono
  · intro info g' created
    obtain ⟨mem, readable', named⟩ := created
    exact ⟨mem, addresses_of_mem readable' mem named⟩
  · exact fun _ g' same => same

end

/-! ## Runs -/

/-- The operations on worktrees. -/
inductive Call where
  | create (name : String) (options : WorktreeCreateOptions)
  | createForAgent (agentId : String) (taskId : Option String)
  | remove (name : String) (force : Bool)
  | lockWorktree (path reason : String)
  | unlockWorktree (path : String)

section

variable {γ : Type} [Git γ] (view : WorktreeView γ) (m : WorktreeManager)

/-- A call, with the name and the path of a worktree that it created. -/
def Call.perform : Call → EStateM WorktreeError γ (Option (String × String))
  | .create name options => do return some (name, (← m.create name options).path)
  | .createForAgent agentId taskId => do return some (agentId, (← m.createForAgent agentId taskId).path)
  | .remove name force => do m.remove name force; return none
  | .lockWorktree path reason => do WorktreeManager.lockWorktree path reason; return none
  | .unlockWorktree path => do WorktreeManager.unlockWorktree path; return none

/-- A worktree that the call adds is where its name says, and is followed up. -/
def Sound (g : γ) : Call → Prop
  | .create name options => Adds view m name options g → FollowsUp view m name options g
  | .createForAgent agentId taskId => Adds view m agentId (m.agentOptions agentId taskId) g →
      FollowsUp view m agentId (m.agentOptions agentId taskId) g
  | _ => True

/-- A run of allowed calls with what they created. In between anything may happen that adds and
    removes no worktree. -/
inductive Run (allowed : γ → Call → Prop) (g : γ) : List (String × String) → γ → Prop where
  | start : Run allowed g [] g
  | returns {created : List (String × String)} {g₁ g₂ : γ} {call : Call}
      {made : Option (String × String)} (run : Run allowed g created g₁) (allows : allowed g₁ call)
      (returned : call.perform m g₁ = .ok made g₂) : Run allowed g (made.toList ++ created) g₂
  | fails {created : List (String × String)} {g₁ g₂ : γ} {call : Call} {e : WorktreeError}
      (run : Run allowed g created g₁) (allows : allowed g₁ call)
      (failed : call.perform m g₁ = .error e g₂) : Run allowed g created g₂
  | between {created : List (String × String)} {g₁ g₂ : γ} (run : Run allowed g created g₁)
      (same : (view.paths g₂).Perm (view.paths g₁)) : Run allowed g created g₂

/-- The limit is kept, a sound creation that fails changes nothing, and whatever was created and
    is still there is addressed by its name. -/
structure Orderly (created : List (String × String)) (g : γ) : Prop where
  within : Within view m g
  creates : ∀ name options, Sound view m g (.create name options) → Creates view m name options g
  creates_agent : ∀ agentId taskId, Sound view m g (.createForAgent agentId taskId) →
    Creates view m agentId (m.agentOptions agentId taskId) g
  addresses : ∀ name path, (name, path) ∈ created → path ∈ view.paths g → Addresses view m name path g

variable {view m} {g : γ}

/-- A command that adds and removes no worktree. -/
theorem ends_keeping {c : GitCommand} {P : γ → Prop} (keeps : P (after c g)) :
    Ends (runGitCommand c) g (fun _ g' => P g') fun _ g' => P g' := by
  apply ends_runGitCommand
  · exact fun _ _ => keeps
  · exact fun _ _ => keeps

theorem perform_within (within : Within view m g) (call : Call) :
    Ends (call.perform m) g (fun _ g' => Within view m g') fun _ g' => Within view m g' := by
  cases call with
  | create name options =>
      simp only [Call.perform, ends_bind, ends_pure]
      exact create_within within
  | createForAgent agentId taskId =>
      simp only [Call.perform, ends_bind, ends_pure]
      exact create_within within
  | remove name force =>
      simp only [Call.perform, ends_bind, ends_pure]
      apply (ends_remove view name force g).mono
      · intro _ g' removed
        have shorter := removed.1.length_eq
        rw [List.length_cons] at shorter
        rw [Within] at *
        omega
      · exact fun _ g' ends' => ends'.1.within within
  | lockWorktree path reason =>
      simp only [Call.perform, WorktreeManager.lockWorktree, ends_bind, ends_pure]
      exact ends_keeping (Same.within (same_locked path reason) within)
  | unlockWorktree path =>
      simp only [Call.perform, WorktreeManager.unlockWorktree, ends_bind, ends_pure]
      exact ends_keeping (Same.within (same_unlocked path) within)

/-- What a call creates is at the path of its name. -/
def Named (m : WorktreeManager) (made : Option (String × String)) : Prop :=
  ∀ c ∈ made, components c.2 = components (join m.worktreesDir c.1)

theorem perform_create {name : String} {options : WorktreeCreateOptions} (readable : Readable view g)
    (sound : Adds view m name options g → FollowsUp view m name options g) :
    Ends ((Call.create name options).perform m) g (fun made g' => Readable view g' ∧ Named m made)
      fun _ g' => Readable view g' := by
  simp only [Call.perform, ends_bind, ends_pure]
  apply (ends_create_sound readable sound).mono
  · intro info g' created
    refine ⟨created.2.1, fun c mem => ?_⟩
    cases mem
    exact created.2.2
  · exact fun _ g' same => Same.readable same readable

/-- A sound call leaves the listing readable. -/
theorem perform_sound (readable : Readable view g) {call : Call} (sound : Sound view m g call) :
    Ends (call.perform m) g (fun made g' => Readable view g' ∧ Named m made)
      fun _ g' => Readable view g' := by
  have nothing : Named m none := fun c mem => by cases mem
  cases call with
  | create name options => exact perform_create readable sound
  | createForAgent agentId taskId => exact perform_create readable sound
  | remove name force =>
      simp only [Call.perform, ends_bind, ends_pure]
      apply (ends_remove view name force g).mono
      · intro _ g' removed
        exact ⟨fun p mem => readable p (removed.1.mem_iff.mp (List.mem_cons_of_mem _ mem)), nothing⟩
      · exact fun _ g' ends' => ends'.1.readable readable
  | lockWorktree path reason =>
      simp only [Call.perform, WorktreeManager.lockWorktree, ends_bind, ends_pure]
      apply (ends_keeping (Same.readable (same_locked path reason) readable)).mono
      · exact fun _ _ kept => ⟨kept, nothing⟩
      · exact fun _ _ kept => kept
  | unlockWorktree path =>
      simp only [Call.perform, WorktreeManager.unlockWorktree, ends_bind, ends_pure]
      apply (ends_keeping (Same.readable (same_unlocked path) readable)).mono
      · exact fun _ _ kept => ⟨kept, nothing⟩
      · exact fun _ _ kept => kept

theorem Run.within {allowed : γ → Call → Prop} {created : List (String × String)} {g' : γ}
    (within : Within view m g) (run : Run view m allowed g created g') : Within view m g' := by
  induction run with
  | start => exact within
  | returns _ _ returned ih => exact (perform_within ih _).returned returned
  | fails _ _ failed ih => exact (perform_within ih _).failed failed
  | between _ same ih =>
      rw [Within, same.length_eq]
      exact ih

theorem Run.sound {created : List (String × String)} {g' : γ} (readable : Readable view g)
    (run : Run view m (Sound view m) g created g') :
    Readable view g' ∧ ∀ c ∈ created, components c.2 = components (join m.worktreesDir c.1) := by
  induction run with
  | start => exact ⟨readable, by simp⟩
  | returns _ sound returned ih =>
      obtain ⟨readable', named⟩ := (perform_sound ih.1 sound).returned returned
      refine ⟨readable', fun c mem => ?_⟩
      rcases List.mem_append.mp mem with new | old
      · exact named c (Option.mem_toList.mp new)
      · exact ih.2 c old
  | fails _ sound failed ih => exact ⟨(perform_sound ih.1 sound).failed failed, ih.2⟩
  | between _ same ih => exact ⟨fun p mem => ih.1 p (same.mem_iff.mp mem), ih.2⟩

end

/-- No run goes over the limit. A run of sound calls is orderly in every state. -/
theorem worktrees_orderly {γ : Type} [Git γ] (view : WorktreeView γ) (m : WorktreeManager) {g : γ}
    (within : Within view m g) :
    (∀ created g', Run view m (fun _ _ => True) g created g' → Within view m g') ∧
    (Readable view g → ∀ created g', Run view m (Sound view m) g created g' →
      Orderly view m created g') := by
  constructor
  · exact fun _ _ run => run.within within
  · intro readable created g' run
    obtain ⟨readable', named⟩ := run.sound readable
    constructor
    · exact run.within within
    · exact fun _ _ sound => create_creates readable' sound
    · exact fun _ _ sound => create_creates readable' sound
    · exact fun name path mem listed => addresses_of_mem readable' listed (named (name, path) mem)

/-! ## A site with a repository -/

section

/-- The path of these components, from the root of the repository if they are relative. -/
def render : List String → String
  | "/" :: rest => "/" ++ "/".intercalate rest
  | relative => "/repo/" ++ "/".intercalate relative

/-- A path as git resolves it. -/
def Resolved (path : String) : Prop := render (components path) = path ∧ path.toList.head? = some '/'

instance : DecidablePred Resolved := fun _ => inferInstanceAs (Decidable (_ ∧ _))

/-- A repository in `/repo`, its linked worktrees and branches, and the commands that fail. -/
structure Site where
  linked : List String
  branches : Finset String
  faults : List GitCommand := []
  resolved : ∀ path ∈ "/repo" :: linked, Resolved path
  distinct : ("/repo" :: linked).Nodup

def headLine : DetailLine where
  text := "HEAD 8f3c2ab"
  oneLine := by decide
  filled := by decide +kernel
  other := by decide +kernel

namespace Site

def paths (s : Site) : List String := "/repo" :: s.linked

def worktrees (s : Site) : List Listing :=
  s.paths.attach.map fun path =>
    { path := path.1, details := [headLine], absolute := (s.resolved path.1 path.2).2 }

theorem worktrees_paths (s : Site) : s.worktrees.map (·.path) = s.paths := by
  simp [worktrees]

/-- A worktree that is added. -/
def add (s : Site) (path : String) (branches : Finset String)
    (fits : Resolved path ∧ path ∉ s.paths) : Site :=
  { s with
    linked := path :: s.linked
    branches
    resolved := by
      have := s.resolved
      simp_all
    distinct := by
      have nodup := s.distinct
      have fresh := fits.2
      simp only [paths, List.mem_cons, not_or] at fresh
      simp only [List.nodup_cons, List.mem_cons, not_or] at nodup ⊢
      exact ⟨⟨Ne.symm fresh.1, nodup.1⟩, fresh.2, nodup.2⟩ }

def remove (s : Site) (path : String) : Site :=
  { s with
    linked := s.linked.erase path
    resolved := by
      intro p mem
      apply s.resolved
      simp only [List.mem_cons] at mem ⊢
      exact mem.imp_right List.mem_of_mem_erase
    distinct := by
      have nodup := s.distinct
      simp only [List.nodup_cons] at nodup ⊢
      exact ⟨fun mem => nodup.1 (List.mem_of_mem_erase mem), nodup.2.erase _⟩ }

def withTarget (s : Site) : AddTarget → Finset String
  | .newBranch branch _ => insert branch s.branches
  | _ => s.branches

def run (s : Site) : GitCommand → Exit × Site
  | .worktreeList => (.succeeded (porcelain s.worktrees), s)
  | .branchList branch => (.succeeded (if branch ∈ s.branches then branch else ""), s)
  | .worktreeAdd path target =>
      if fits : Resolved (render (components path)) ∧ render (components path) ∉ s.paths then
        (.succeeded "", s.add (render (components path)) (s.withTarget target) fits)
      else (.failed "" "fatal: already exists", s)
  | .worktreeRemove path _ =>
      if render (components path) ∈ s.linked then (.succeeded "", s.remove (render (components path)))
      else (.failed "" "fatal: not a working tree", s)
  | .worktreeLock path _ | .worktreeUnlock path =>
      if render (components path) ∈ s.linked then (.succeeded "", s)
      else (.failed "" "fatal: not a working tree", s)
  | .status _ | .showCurrent _ | .stashList _ | .fetchOrigin | .revParse _ => (.succeeded "", s)
  | _ => (.failed "" "fatal: not on this site", s)

instance : Git Site where
  run c s := if c ∈ s.faults then (.failed "" "fatal: unable to write", s) else s.run c
  pathExists path s := render (components path) ∈ "/repo/.worktrees" :: s.paths
  createDirAll _ s := (.ok (), s)

theorem run_eq (c : GitCommand) (s : Site) : Git.run c s =
    if c ∈ s.faults then (.failed "" "fatal: unable to write", s) else s.run c := rfl

theorem run_of_succeeded {c : GitCommand} {s : Site} (success : Succeeds c s) :
    Git.run c s = s.run c ∧ ∃ stdout, (s.run c).1 = .succeeded stdout := by
  obtain ⟨stdout, ran⟩ := success
  rw [run_eq] at ran ⊢
  split at ran
  · cases ran
  · next sound => exact ⟨if_neg sound, stdout, ran⟩

/-- A command that does not succeed leaves the site as it is. -/
theorem run_cases (c : GitCommand) (s : Site) :
    (∃ stdout, (s.run c).1 = .succeeded stdout) ∨ (s.run c).2 = s := by
  cases c with
  | worktreeAdd path target =>
      simp only [run]
      split
      · exact .inl ⟨_, rfl⟩
      · exact .inr rfl
  | worktreeRemove path force =>
      simp only [run]
      split
      · exact .inl ⟨_, rfl⟩
      · exact .inr rfl
  | worktreeLock | worktreeUnlock =>
      simp only [run]
      split
      · exact .inr rfl
      · exact .inr rfl
  | _ => exact .inr rfl

theorem after_of_failed {c : GitCommand} {s : Site} (fault : ¬ Succeeds c s) : after c s = s := by
  rw [after, run_eq]
  split
  · rfl
  · next sound =>
      rcases s.run_cases c with ⟨stdout, ran⟩ | same
      · have succeeds : Succeeds c s := ⟨stdout, by rw [run_eq, if_neg sound, ran]⟩
        exact absurd succeeds fault
      · exact same

end Site

theorem Site.after_of_succeeded {c : GitCommand} {s : Site} (success : Succeeds c s) :
    after c s = (s.run c).2 := by
  rw [after, (Site.run_of_succeeded success).1]

theorem Site.after_marked {c : GitCommand} {s : Site} (marks : (s.run c).2 = s) : after c s = s := by
  by_cases success : Succeeds c s
  · rw [Site.after_of_succeeded success, marks]
  · exact Site.after_of_failed success

theorem Site.canonical (s : Site) {l : Listing} (mem : l ∈ s.worktrees) : Resolved l.path := by
  apply s.resolved
  have listed : l.path ∈ s.worktrees.map (·.path) := List.mem_map_of_mem mem
  rwa [s.worktrees_paths] at listed

def siteView : WorktreeView Site where
  worktrees s := s.worktrees
  branches s := s.branches
  resolve path _ := render (components path)
  failed c s fault := by rw [Site.after_of_failed fault]; exact ⟨rfl, rfl⟩
  reads c s reads := by
    rw [Site.after_marked (by cases c <;> first | exact reads.elim | rfl)]
    exact ⟨rfl, rfl⟩
  housed _ _ := ⟨rfl, rfl⟩
  printed s stdout ran := by
    rw [(Site.run_of_succeeded ⟨stdout, ran⟩).1] at ran
    cases ran
    rfl
  distinct s := by
    have nodup : (s.paths.map components).Nodup := by
      apply List.Nodup.map_on _ s.distinct
      intro p mem q mem' same
      rw [← (s.resolved p mem).1, ← (s.resolved q mem').1, same]
    rwa [← s.worktrees_paths, List.map_map] at nodup
  canonical s l mem := (s.canonical mem).1
  syntactic _ _ _ same := by rw [same]
  added path target s success := by
    obtain ⟨_, stdout, ran⟩ := Site.run_of_succeeded success
    rw [Site.after_of_succeeded success, Site.worktrees_paths, Site.worktrees_paths]
    simp only [Site.run] at ran ⊢
    split at ran
    · next fits =>
        rw [dif_pos fits]
        exact ⟨.swap _ _ _, by cases target <;> rfl⟩
    · cases ran
  removed path force s success := by
    obtain ⟨_, stdout, ran⟩ := Site.run_of_succeeded success
    rw [Site.after_of_succeeded success, Site.worktrees_paths, Site.worktrees_paths]
    simp only [Site.run] at ran ⊢
    split at ran
    · next linked =>
        rw [if_pos linked]
        exact ⟨(List.Perm.swap _ _ _).trans ((List.perm_cons_erase linked).symm.cons _), rfl⟩
    · cases ran
  locked path reason s success := by
    rw [Site.after_marked (by simp only [Site.run]; split <;> rfl)]
    exact ⟨.refl _, rfl⟩
  unlocked path s success := by
    rw [Site.after_marked (by simp only [Site.run]; split <;> rfl)]
    exact ⟨.refl _, rfl⟩

def siteManager : WorktreeManager where
  worktreesDir := "/repo/.worktrees"
  config := {}

/-- Nothing but the main worktree. -/
def emptySite (faults : List GitCommand) : Site where
  linked := []
  branches := {"main"}
  faults
  resolved := by decide +kernel
  distinct := by decide

def busyOptions : WorktreeCreateOptions :=
  { branch := some "agent/t1", createBranch := true, lockReason := some "busy" }

/-- The lock fails and the worktree stays, or the path is absolute and the name finds nothing. -/
theorem creation_stranded :
    ¬ Creates siteView siteManager "a" busyOptions
      (emptySite [.worktreeLock "/repo/.worktrees/a" "busy"]) ∧
    ¬ Creates siteView siteManager "b" { path := "/srv/b" } (emptySite []) := by
  constructor
  · have left : (match siteManager.create "a" busyOptions
          (emptySite [.worktreeLock "/repo/.worktrees/a" "busy"]) with
        | .ok _ _ => none
        | .error _ s => some s.linked) = some ["/repo/.worktrees/a"] := by decide +kernel
    unfold Creates Ends
    split at left
    · cases left
    · next e s ran =>
        rw [ran]
        intro same
        have length := same.1.length_eq
        simp only [WorktreeView.paths, siteView, Site.worktrees_paths, Site.paths] at length
        rw [Option.some.inj left] at length
        cases length
  · have lost : (match siteManager.create "b" { path := "/srv/b" } (emptySite []) with
        | .ok info s => (match siteManager.getWorktreeByName "b" s with
            | .ok _ _ => none
            | .error _ _ => some (info.path, s.faults))
        | .error _ _ => none) = some ("/srv/b", []) := by decide +kernel
    unfold Creates Ends
    split at lost
    · next info s ran =>
        rw [ran]
        intro given
        obtain ⟨_, addresses⟩ := given
        split at lost
        · cases lost
        · next e s' unfound =>
            have faultless : s.faults = [] := (Prod.mk.inj (Option.some.inj lost)).2
            apply addresses.get.failed unfound
            exact ⟨porcelain s.worktrees, by rw [Site.run_eq, faultless, if_neg List.not_mem_nil]; rfl⟩
    · cases lost

def agentCall : Call := .createForAgent "a" (some "t1")

theorem agentCall_adds : FollowsUp siteView siteManager "a" (siteManager.agentOptions "a" (some "t1"))
    (emptySite []) where
  named := by decide +kernel
  resolved := by decide +kernel
  printable := by
    unfold Printable
    decide +kernel
  lock reason h := by cases h
  list := by
    have run : (Git.run .worktreeList (lockedIn siteManager "a"
      (siteManager.agentOptions "a" (some "t1")) (emptySite []))).1 =
        .succeeded (porcelain (lockedIn siteManager "a"
          (siteManager.agentOptions "a" (some "t1")) (emptySite [])).worktrees) := by
      decide +kernel
    exact ⟨_, run⟩

/-- The worktree of an agent on an empty site. -/
theorem agentCall_orderly : ∃ s, agentCall.perform siteManager (emptySite []) =
      .ok (some ("a", "/repo/.worktrees/a")) s ∧ s.linked = ["/repo/.worktrees/a"] ∧
    Orderly siteView siteManager [("a", "/repo/.worktrees/a")] s := by
  have made : (match agentCall.perform siteManager (emptySite []) with
      | .ok made s => some (made, s.linked)
      | .error _ _ => none) = some (some ("a", "/repo/.worktrees/a"), ["/repo/.worktrees/a"]) := by
    decide +kernel
  split at made
  · next c s ran =>
      obtain ⟨pair, linked⟩ := Prod.mk.inj (Option.some.inj made)
      rw [pair] at ran
      refine ⟨s, ran, linked, ?_⟩
      have within : Within siteView siteManager (emptySite []) := by unfold Within; decide +kernel
      have readable : Readable siteView (emptySite []) := by
        intro p mem
        have listed : p ∈ (emptySite []).paths := by rwa [← Site.worktrees_paths]
        rw [List.mem_singleton.mp listed]
        unfold Printable
        decide +kernel
      exact (worktrees_orderly siteView siteManager within).2 readable _ s
        (.returns .start (fun _ => agentCall_adds) ran)
  · cases made

end

end AgileAgent.Worktree
