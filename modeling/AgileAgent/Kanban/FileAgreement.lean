import AgileAgent.Kanban.FileRepository

/-! # Files, index and counters

The index is updated after the element file, and the counters are read off the files that are
left. They agree as long as the index follows every new file, no file that is listed is torn, and
the repository is not opened again after the last element of a type was deleted.
-/

namespace AgileAgent.Kanban

namespace FileKanbanRepository

/-- `list` contains an element with an id. -/
def Listed (r : FileKanbanRepository) (id : ElementId) : Prop :=
  ∃ all s, list calm r = .ok all s ∧ ∃ e ∈ all, e.id = some id

/-- `get` returns an element with an id. -/
def Got (r : FileKanbanRepository) (id : ElementId) : Prop :=
  ∃ e s, get calm id r = .ok (some e) s ∧ e.id = some id

/-- The index can be read and lists `ids`. -/
structure Readable (r : FileKanbanRepository) (ids : List ElementId) : Prop where
  index : r.index = some (.intact (ids.map ElementId.text)) ∨ r.index = none ∧ ids = []
  formed : ∀ id ∈ ids, id.WellFormed

/-- Of the files there are, the index lists those that can be read. -/
structure Indexed (r : FileKanbanRepository) (ids : List ElementId) : Prop extends Readable r ids where
  named : ∀ id e, r.elements.lookup id = some (.intact e) → e.id = some id
  agree : ∀ id stored, r.elements.lookup id = some stored → (id ∈ ids ↔ ∃ e, stored = .intact e)

section

variable {r : FileKanbanRepository} {ids : List ElementId} {faults : Faults}

theorem attempt_done {R : Type} {step : FileStep} (context : String) (done : faults step = .done) (r : R) :
    attempt faults step context r = .ok () r := by
  simp only [attempt, done]
  rfl

theorem attempt_failed {R : Type} {step : FileStep} (context : String) (failed : faults step ≠ .done) (r : R) :
    ∃ error, attempt faults step context r = .error error r := by
  unfold attempt
  cases outcome : faults step with
  | done => exact absurd outcome failed
  | fails message => exact ⟨_, rfl⟩
  | torn message reading => exact ⟨_, rfl⟩

theorem parseIndex_texts (formed : ∀ id ∈ ids, id.WellFormed) :
    parseIndex (ids.map ElementId.text) = .ok ids := by
  induction ids with
  | nil => rfl
  | cons id rest ih =>
      have first : ElementId.parse id.text = .ok id := formed id List.mem_cons_self
      have others := ih fun other member => formed other (List.mem_cons_of_mem _ member)
      simp [parseIndex, first, others, Except.map]

/-- The step of reading the index is not taken, or done. -/
def IndexRead (r : FileKanbanRepository) (faults : Faults) : Prop :=
  r.index = none ∨ faults .readIndex = .done

/-- Reading the state. -/
theorem got (r : FileKanbanRepository) :
    (MonadState.get : Call FileKanbanRepository FileKanbanRepository) r = .ok r r := rfl

/-- Changing the state. -/
theorem changed (change : FileKanbanRepository → FileKanbanRepository) (r : FileKanbanRepository) :
    (modify change : Call FileKanbanRepository PUnit) r = .ok ⟨⟩ (change r) := rfl

theorem readIndex_none (noFile : r.index = none) : readIndex faults r = .ok [] r := by
  rw [readIndex, bind_ok (got r), noFile]
  rfl

theorem readIndex_some {stored : Stored (List String)} (file : r.index = some stored) :
    readIndex faults r = (do
      attempt faults .readIndex "failed to read index: "
      ofExcept (stored.read >>= parseIndex) : Call FileKanbanRepository (List ElementId)) r := by
  rw [readIndex, bind_ok (got r), file]

theorem Readable.read (readable : r.Readable ids) (read : r.IndexRead faults) :
    readIndex faults r = .ok ids r := by
  rcases readable.index with file | ⟨noFile, rfl⟩
  · have done : faults .readIndex = .done := read.resolve_left (by simp [file])
    rw [readIndex_some file, bind_ok (attempt_done _ done r)]
    simp only [Stored.read, bind, Except.bind, parseIndex_texts readable.formed]
    rfl
  · exact readIndex_none noFile

/-- Reading the index leaves everything as it is, also when it fails. -/
theorem not_read (failed : ¬ r.IndexRead faults) :
    ∃ error, readIndex faults r = .error error r := by
  obtain ⟨file, undone⟩ := not_or.mp failed
  obtain ⟨stored, file⟩ := Option.ne_none_iff_exists'.mp file
  obtain ⟨error, stopped⟩ := attempt_failed "failed to read index: " undone r
  exact ⟨error, by rw [readIndex_some file, bind_error stopped]⟩

theorem get_calm (id : ElementId) : get calm id r =
    match r.elements.lookup id with
    | none => .ok none r
    | some (.intact element) => .ok (some element) r
    | some (.broken reading) => .error reading r := by
  rw [get, bind_ok (got r)]
  rcases r.elements.lookup id with none | element | reading <;> rfl

/-- The element in a file, if it can be read. -/
def content (r : FileKanbanRepository) (id : ElementId) : Option KanbanElement :=
  match r.elements.lookup id with
  | some (.intact e) => some e
  | _ => none

theorem content_eq_some {id : ElementId} {e : KanbanElement} :
    r.content id = some e ↔ r.elements.lookup id = some (.intact e) := by
  unfold content
  rcases r.elements.lookup id with none | element | reading <;> simp

theorem got_iff {id : ElementId} : r.Got id ↔ ∃ e, r.content id = some e ∧ e.id = some id := by
  unfold Got
  rw [get_calm]
  unfold content
  rcases r.elements.lookup id with none | element | reading <;> simp

theorem gather_calm (listed : ∀ id ∈ ids, ∀ stored, r.elements.lookup id = some stored → ∃ e, stored = .intact e) :
    gather calm ids r = .ok (ids.filterMap r.content) r := by
  induction ids with
  | nil => rfl
  | cons id rest ih =>
      have others := ih fun other member => listed other (List.mem_cons_of_mem _ member)
      have first : get calm id r = .ok (r.content id) r := by
        rw [get_calm]
        unfold content
        rcases found : r.elements.lookup id with none | element | reading
        · rfl
        · rfl
        · obtain ⟨e, broken⟩ := listed id List.mem_cons_self _ found
          cases broken
      rw [gather, bind_ok first, bind_ok others]
      cases found : r.content id <;> simp [found, pure, EStateM.pure]

theorem Indexed.list (indexed : r.Indexed ids) : list calm r =
    .ok ((ids.filterMap r.content).insertionSort fun a b => sortKey a ≤ sortKey b) r := by
  have read : r.IndexRead calm := .inr rfl
  have gathered := gather_calm fun id member stored found => (indexed.agree id stored found).mp member
  rw [FileKanbanRepository.list, bind_ok (indexed.read read), bind_ok gathered]
  rfl

theorem Indexed.listed_iff_got (indexed : r.Indexed ids) (id : ElementId) : r.Listed id ↔ r.Got id := by
  have inside (all : List KanbanElement) (e : KanbanElement) :
      e ∈ all.insertionSort (fun a b => sortKey a ≤ sortKey b) ↔ e ∈ all := List.mem_insertionSort _
  rw [got_iff]
  constructor
  · rintro ⟨all, s, isList, e, member, isId⟩
    rw [indexed.list] at isList
    cases isList
    obtain ⟨other, -, found⟩ := List.mem_filterMap.mp ((inside _ e).mp member)
    have same := indexed.named other e (content_eq_some.mp found)
    cases same.symm.trans isId
    exact ⟨e, found, isId⟩
  · rintro ⟨e, found, isId⟩
    have member := (indexed.agree id _ (content_eq_some.mp found)).mpr ⟨e, rfl⟩
    exact ⟨_, _, indexed.list, e, (inside _ e).mpr (List.mem_filterMap.mpr ⟨id, member, found⟩), isId⟩

/-! ## What the operations keep -/

/-- The ids in the index file. -/
def listedIds (r : FileKanbanRepository) : List ElementId :=
  match r.index with
  | some (.intact texts) => (parseIndex texts).toOption.getD []
  | _ => []

theorem Readable.listedIds (readable : r.Readable ids) : r.listedIds = ids := by
  unfold FileKanbanRepository.listedIds
  rcases readable.index with file | ⟨noFile, rfl⟩
  · simp [file, parseIndex_texts readable.formed, Except.toOption]
  · simp [noFile]

/-- The condition on a save: a file that the index lists is not torn, and the index follows an
    element that was not listed. -/
def SavesWell (r : FileKanbanRepository) (faults : Faults) (id : ElementId) : Prop :=
  match faults .writeElement with
  | .done => id ∈ r.listedIds ∨ r.IndexRead faults ∧ faults .writeIndex = .done
  | .fails _ => True
  | .torn _ _ => id ∉ r.listedIds

/-- The condition on a deletion: it does not tear the index. -/
def DeletesWell (r : FileKanbanRepository) (faults : Faults) (id : ElementId) : Prop :=
  r.elements.lookup id = none ∨ faults .removeElement = .done → r.IndexRead faults →
    ∀ message reading, faults .writeIndex ≠ .torn message reading

/-- A file that is not listed is new and intact, or torn. -/
theorem Indexed.insert {id : ElementId} {stored : Stored KanbanElement} (indexed : r.Indexed ids)
    (named : ∀ e, stored = .intact e → e.id = some id) (listed : id ∈ ids ↔ ∃ e, stored = .intact e) :
    { r with elements := r.elements.insert id stored }.Indexed ids := by
  refine ⟨⟨indexed.index, indexed.formed⟩, fun other x found => ?_, fun other entry found => ?_⟩
  · by_cases same : other = id
    · subst same
      rw [AList.lookup_insert] at found
      exact named x (Option.some.inj found)
    · rw [AList.lookup_insert_ne same] at found
      exact indexed.named other x found
  · by_cases same : other = id
    · subst same
      rw [AList.lookup_insert] at found
      cases found
      exact listed
    · rw [AList.lookup_insert_ne same] at found
      exact indexed.agree other entry found

/-- A new file with its entry in the index. -/
theorem Indexed.add {id : ElementId} {e : KanbanElement} {ids' : List ElementId} (indexed : r.Indexed ids)
    (named : e.id = some id) (formed : id.WellFormed) (same : ∀ other, other ∈ ids' ↔ other ∈ ids ∨ other = id) :
    ({ r with
        elements := r.elements.insert id (.intact e)
        index := some (.intact (ids'.map ElementId.text)) } : FileKanbanRepository).Indexed ids' := by
  refine ⟨⟨.inl rfl, fun other member => ?_⟩, fun other x found => ?_, fun other entry found => ?_⟩
  · rcases (same other).mp member with old | rfl
    · exact indexed.formed other old
    · exact formed
  · by_cases here : other = id
    · subst here
      rw [AList.lookup_insert] at found
      cases found
      exact named
    · rw [AList.lookup_insert_ne here] at found
      exact indexed.named other x found
  · by_cases here : other = id
    · subst here
      rw [AList.lookup_insert] at found
      cases found
      simp [same]
    · rw [AList.lookup_insert_ne here] at found
      simp [same, here, indexed.agree other entry found]

theorem Indexed.erase (indexed : r.Indexed ids) (id : ElementId) :
    { r with elements := r.elements.erase id }.Indexed ids := by
  have before {other : ElementId} {stored : Stored KanbanElement}
      (found : (r.elements.erase id).lookup other = some stored) : r.elements.lookup other = some stored := by
    by_cases same : other = id
    · subst same
      simp at found
    · rwa [AList.lookup_erase_ne same] at found
  exact ⟨⟨indexed.index, indexed.formed⟩, fun other x found => indexed.named other x (before found),
    fun other stored found => indexed.agree other stored (before found)⟩

/-- Taking an id without a file out of the index. -/
theorem Indexed.unlist {id : ElementId} (indexed : r.Indexed ids) (gone : r.elements.lookup id = none) :
    ({ r with index := some (.intact ((ids.filter (· ≠ id)).map ElementId.text)) } :
      FileKanbanRepository).Indexed (ids.filter (· ≠ id)) := by
  refine ⟨⟨.inl rfl, fun other member => ?_⟩, indexed.named, fun other stored found => ?_⟩
  · exact indexed.formed other (List.mem_filter.mp member).1
  · have here : other ≠ id := by
      rintro rfl
      cases gone.symm.trans found
    simpa [here] using indexed.agree other stored found

theorem updateIndex_done (done : faults .writeIndex = .done) : updateIndex faults ids r =
    .ok () { r with index := some (.intact (ids.map ElementId.text)) } := by
  have written : updateIndex faults ids r = attempt faults .writeIndex "failed to write index: "
      { r with index := ((faults .writeIndex).stores (ids.map ElementId.text)).or r.index } := rfl
  rw [written, attempt_done _ done, done]
  rfl

theorem updateIndex_fails {message : String} (fails : faults .writeIndex = .fails message) :
    ∃ error, updateIndex faults ids r = .error error r := by
  have written : updateIndex faults ids r = attempt faults .writeIndex "failed to write index: "
      { r with index := ((faults .writeIndex).stores (ids.map ElementId.text)).or r.index } := rfl
  have failed : faults .writeIndex ≠ .done := by simp [fails]
  obtain ⟨error, stopped⟩ := attempt_failed "failed to write index: " failed r
  refine ⟨error, ?_⟩
  rw [written, fails]
  exact stopped

theorem writeElement_stores {id : ElementId} {e : KanbanElement} {stored : Stored KanbanElement}
    (isStored : (faults .writeElement).stores e = some stored) : writeElement faults id e r =
    attempt faults .writeElement "failed to write element: "
      { r with elements := r.elements.insert id stored } := by
  rw [writeElement, bind_ok (changed _ r)]
  simp only [isStored]

theorem writeElement_fails {id : ElementId} {e : KanbanElement} {message : String}
    (fails : faults .writeElement = .fails message) : ∃ error, writeElement faults id e r = .error error r := by
  have failed : faults .writeElement ≠ .done := by simp [fails]
  obtain ⟨error, stopped⟩ := attempt_failed "failed to write element: " failed r
  refine ⟨error, ?_⟩
  rw [writeElement, bind_ok (changed _ r), fails]
  exact stopped

/-- The rest of `save`, once the element is written. -/
def enlist (faults : Faults) (id : ElementId) : Call FileKanbanRepository Unit := do
  let ids ← readIndex faults
  if id ∉ ids then
    updateIndex faults ((ids ++ [id]).insertionSort fun a b => a.text ≤ b.text)

theorem enlist_listed {id : ElementId} (readable : r.Readable ids) (listed : id ∈ ids) :
    left (enlist faults id) r = r := by
  by_cases read : r.IndexRead faults
  · rw [enlist, left_bind (readable.read read)]
    simp [listed, left, pure, EStateM.pure]
  · obtain ⟨error, stopped⟩ := not_read read
    rw [enlist, left_stopped stopped]

theorem enlist_new {id : ElementId} (readable : r.Readable ids) (read : r.IndexRead faults) (new : id ∉ ids)
    (done : faults .writeIndex = .done) : left (enlist faults id) r =
      let ids' := (ids ++ [id]).insertionSort fun a b => a.text ≤ b.text
      { r with index := some (.intact (ids'.map ElementId.text)) } := by
  rw [enlist, left_bind (readable.read read), if_pos new, left, updateIndex_done done]

theorem Indexed.save {id : ElementId} {e : KanbanElement} (indexed : r.Indexed ids) (named : e.id = some id)
    (formed : id.WellFormed) (well : r.SavesWell faults id) :
    (∃ ids', (left (save faults e) r).Indexed ids') ∧ (left (save faults e) r).counters = r.counters := by
  have entered : FileKanbanRepository.save faults e = (do
      writeElement faults id e
      enlist faults id) := by
    simp only [FileKanbanRepository.save, named]
    rfl
  rw [entered]
  unfold SavesWell at well
  rw [indexed.toReadable.listedIds] at well
  cases outcome : faults .writeElement with
  | fails message =>
      obtain ⟨error, stopped⟩ := writeElement_fails outcome
      rw [left_stopped stopped]
      exact ⟨⟨ids, indexed⟩, rfl⟩
  | torn message reading =>
      rw [outcome] at well
      have unlisted : id ∉ ids := well
      have stores : (faults .writeElement).stores e = some (.broken reading) := by rw [outcome]; rfl
      have failed : faults .writeElement ≠ .done := by simp [outcome]
      obtain ⟨error, stopped⟩ := attempt_failed "failed to write element: " failed
        { r with elements := r.elements.insert id (.broken reading) }
      rw [left_stopped ((writeElement_stores stores).trans stopped)]
      exact ⟨⟨ids, indexed.insert (fun e none => (by cases none)) (by simpa using unlisted)⟩, rfl⟩
  | done =>
      rw [outcome] at well
      have stores : (faults .writeElement).stores e = some (.intact e) := by rw [outcome]; rfl
      rw [left_bind ((writeElement_stores stores).trans (attempt_done _ outcome _))]
      by_cases listed : id ∈ ids
      · have kept : Indexed { r with elements := r.elements.insert id (.intact e) } ids :=
          indexed.insert (fun x same => by cases same; exact named) (by simpa using listed)
        rw [enlist_listed kept.toReadable listed]
        exact ⟨⟨ids, kept⟩, rfl⟩
      · obtain ⟨read, done⟩ := well.resolve_left listed
        have readable : Readable { r with elements := r.elements.insert id (.intact e) } ids := ⟨indexed.index, indexed.formed⟩
        rw [enlist_new readable read listed done]
        exact ⟨⟨_, indexed.add named formed fun other => by simp⟩, rfl⟩

/-- The deletion stops, or the file is gone. -/
theorem removeElement_cases (faults : Faults) (id : ElementId) :
    (∃ error, removeElement faults id r = .error error r) ∨
      (r.elements.lookup id = none ∨ faults .removeElement = .done) ∧ ∃ s,
        removeElement faults id r = .ok () s ∧ s.elements.lookup id = none ∧
          s.index = r.index ∧ s.counters = r.counters ∧ ∀ ids, r.Indexed ids → s.Indexed ids := by
  have entered : removeElement faults id r = (if (r.elements.lookup id).isSome then do
        attempt faults .removeElement "failed to delete element: "
        modify fun r => { r with elements := r.elements.erase id }
      else pure () : Call FileKanbanRepository Unit) r := rfl
  rw [entered]
  cases found : r.elements.lookup id with
  | none => exact .inr ⟨.inl rfl, r, rfl, found, rfl, rfl, fun _ indexed => indexed⟩
  | some stored =>
      by_cases done : faults .removeElement = .done
      · refine .inr ⟨.inr done, { r with elements := r.elements.erase id }, ?_, by simp, rfl, rfl, ?_⟩
        · exact bind_ok (attempt_done _ done r)
        · exact fun _ indexed => indexed.erase id
      · obtain ⟨error, stopped⟩ := attempt_failed "failed to delete element: " done r
        exact .inl ⟨error, bind_error stopped⟩

theorem Indexed.delete {id : ElementId} (indexed : r.Indexed ids) (well : r.DeletesWell faults id) :
    (∃ ids', (left (delete faults id) r).Indexed ids') ∧
      (left (FileKanbanRepository.delete faults id) r).counters = r.counters := by
  unfold FileKanbanRepository.delete
  rcases removeElement_cases faults id with
    ⟨error, stopped⟩ | ⟨removed, s, gone, noFile, index, counters, keeps⟩
  · rw [left_stopped stopped]
    exact ⟨⟨ids, indexed⟩, rfl⟩
  rw [left_bind gone]
  have kept := keeps ids indexed
  by_cases read : s.IndexRead faults
  · rw [left_bind (kept.read read)]
    have whole := well removed (by rwa [IndexRead, ← index])
    cases outcome : faults .writeIndex with
    | done =>
        rw [left, updateIndex_done outcome]
        exact ⟨⟨_, kept.unlist noFile⟩, counters⟩
    | fails message =>
        obtain ⟨error, stopped⟩ : ∃ error, updateIndex faults (ids.filter (· ≠ id)) s = .error error s :=
          updateIndex_fails outcome
        rw [left, stopped]
        exact ⟨⟨ids, kept⟩, counters⟩
    | torn message reading => exact absurd outcome (whole message reading)
  · obtain ⟨error, stopped⟩ := not_read read
    rw [left_stopped stopped]
    exact ⟨⟨ids, kept⟩, counters⟩

/-- The counters that opening the repository reads off the files. -/
def highest (r : FileKanbanRepository) : ElementType → Nat := r.elements.keys.foldl count fun _ => 0

/-- All steps of opening the repository are done. -/
def Opens (r : FileKanbanRepository) (faults : Faults) : Prop :=
  faults .createDir = .done ∧ faults .readDir = .done ∧ ∀ id ∈ r.elements.keys, faults (.readEntry id) = .done

theorem countEntries_cases (faults : Faults) (stems : List ElementId) (counters : ElementType → Nat) :
    (∃ error, countEntries faults stems counters r = .error error r) ∨
      (∀ id ∈ stems, faults (.readEntry id) = .done) ∧
        countEntries faults stems counters r = .ok (stems.foldl count counters) r := by
  induction stems generalizing counters with
  | nil => exact .inr ⟨fun id none => (List.not_mem_nil none).elim, rfl⟩
  | cons stem rest ih =>
      by_cases done : faults (.readEntry stem) = .done
      · have first := attempt_done "failed to read entry: " done r
        rcases ih (count counters stem) with ⟨error, stopped⟩ | ⟨others, counted⟩
        · exact .inl ⟨error, by rw [countEntries, bind_ok first, stopped]⟩
        · exact .inr ⟨List.forall_mem_cons.mpr ⟨done, others⟩, by rw [countEntries, bind_ok first, counted]; rfl⟩
      · obtain ⟨error, stopped⟩ := attempt_failed "failed to read entry: " done r
        exact .inl ⟨error, by rw [countEntries, bind_error stopped]⟩

theorem reopen_cases (faults : Faults) :
    (∃ error, reopen faults r = .error error r) ∨
      r.Opens faults ∧ reopen faults r = .ok () { r with counters := r.highest } := by
  unfold reopen
  by_cases created : faults .createDir = .done
  · rw [bind_ok (attempt_done _ created r)]
    by_cases opened : faults .readDir = .done
    · rw [bind_ok (attempt_done _ opened r)]
      have entered : (do
          let counters ← countEntries faults (← MonadState.get).elements.keys fun _ => 0
          modify fun r => { r with counters } : Call FileKanbanRepository Unit) r = (do
          let counters ← countEntries faults r.elements.keys fun _ => 0
          modify fun r => { r with counters } : Call FileKanbanRepository Unit) r := rfl
      rw [entered]
      rcases countEntries_cases (r := r) faults r.elements.keys fun _ => 0 with ⟨error, stopped⟩ | ⟨entries, counted⟩
      · exact .inl ⟨error, bind_error stopped⟩
      · exact .inr ⟨⟨created, opened, entries⟩, bind_ok counted⟩
    · obtain ⟨error, stopped⟩ := attempt_failed "failed to read elements dir: " opened r
      exact .inl ⟨error, bind_error stopped⟩
  · obtain ⟨error, stopped⟩ := attempt_failed "failed to create elements dir: " created r
    exact .inl ⟨error, bind_error stopped⟩

end

end FileKanbanRepository

namespace FileRun

open FileKanbanRepository

/-- The steps of a run after which files, index and counters agree if they did before. -/
def Reliable (run : FileRun) (event : FileEvent) : Prop :=
  match event.op with
  | .newId elementType => run.repository.counters elementType + 1 < 2 ^ 32
  | .save element _ => ∀ id, element.id = some id → run.repository.SavesWell event.faults id
  | .delete id => run.repository.DeletesWell event.faults id
  | .reopen => run.repository.Opens event.faults →
      ∀ id ∈ run.issued, id.number ≤ run.repository.highest id.typeOf

/-- The counters are past every id that was issued, and none was issued twice. -/
structure Numbered (run : FileRun) : Prop where
  once : run.issued.Nodup
  passed : ∀ id ∈ run.issued, ∃ elementType number, id = .create elementType number ∧
    number ≤ run.repository.counters elementType ∧ number < 2 ^ 32

/-- Files, index and counters agree. -/
def Sound (run : FileRun) : Prop := (∃ ids, run.repository.Indexed ids) ∧ run.Numbered

/-- An operation that issues nothing. -/
theorem step_quiet {run : FileRun} {op : FileOp} {faults : Faults} {call : Call FileKanbanRepository Unit}
    (performs : perform faults op = do
      call
      return none) :
    (step run { op, faults }).2 = ⟨left call run.repository, run.issued⟩ := by
  unfold step
  rw [performs]
  cases called : call run.repository with
  | ok result s =>
      rw [bind_ok called]
      simp [left, called, pure, EStateM.pure]
  | error error s =>
      rw [bind_error called]
      simp [left, called]

theorem Sound.quiet {run : FileRun} {r : FileKanbanRepository} (sound : run.Sound)
    (kept : (∃ ids, r.Indexed ids) ∧ r.counters = run.repository.counters) : Sound ⟨r, run.issued⟩ :=
  ⟨kept.1, sound.2.once, kept.2 ▸ sound.2.passed⟩

theorem newId_sound {run : FileRun} {elementType : ElementType} (sound : run.Sound)
    (small : run.repository.counters elementType + 1 < 2 ^ 32) (faults : Faults) :
    Sound (step run { op := .newId elementType, faults }).2 := by
  obtain ⟨⟨ids, indexed⟩, once, passed⟩ := sound
  have next : step run { op := .newId elementType, faults } =
      let number := run.repository.counters elementType + 1
      (.ok (some (.create elementType number)),
        ⟨{ run.repository with counters := Function.update run.repository.counters elementType number },
          run.issued ++ [.create elementType number]⟩) := by
    have called : perform faults (.newId elementType) run.repository =
        let number := (run.repository.counters elementType + 1) % 2 ^ 32
        .ok (some (.create elementType number))
          { run.repository with counters := Function.update run.repository.counters elementType number } := rfl
    simp only [step, called, Nat.mod_eq_of_lt small, Option.toList]
  rw [next]
  refine ⟨⟨ids, ⟨indexed.index, indexed.formed⟩, indexed.named, indexed.agree⟩, ?_, fun id member => ?_⟩
  · refine List.nodup_append.mpr ⟨once, List.nodup_singleton _, ?_⟩
    rintro id member other isNew rfl
    -- an id of this type that was issued has a lower number
    obtain ⟨otherType, number, rfl, below, -⟩ := passed id member
    obtain ⟨rfl, rfl⟩ := ElementId.create_inj (List.mem_singleton.mp isNew)
    omega
  · rcases List.mem_append.mp member with old | new
    · obtain ⟨otherType, number, rfl, below, bounded⟩ := passed id old
      refine ⟨otherType, number, rfl, ?_, bounded⟩
      by_cases same : otherType = elementType
      · subst same
        simpa using Nat.le_succ_of_le below
      · simpa [Function.update_of_ne same] using below
    · exact ⟨elementType, _, List.mem_singleton.mp new, by simp, small⟩

theorem reopen_sound {run : FileRun} {faults : Faults} (sound : run.Sound)
    (kept : run.repository.Opens faults → ∀ id ∈ run.issued, id.number ≤ run.repository.highest id.typeOf) :
    Sound (step run { op := .reopen, faults }).2 := by
  rw [step_quiet rfl]
  rcases reopen_cases (r := run.repository) faults with ⟨error, stopped⟩ | ⟨opens, reopened⟩
  · rw [left, stopped]
    exact sound
  · rw [left, reopened]
    obtain ⟨⟨ids, indexed⟩, once, passed⟩ := sound
    refine ⟨⟨ids, ⟨indexed.index, indexed.formed⟩, indexed.named, indexed.agree⟩, once, fun id member => ?_⟩
    obtain ⟨elementType, number, rfl, -, bounded⟩ := passed id member
    have counted := kept opens _ member
    rw [ElementId.number_create elementType bounded, ElementId.typeOf_create] at counted
    exact ⟨elementType, number, rfl, counted, bounded⟩

theorem step_sound {run : FileRun} {event : FileEvent} (reliable : run.Reliable event) (sound : run.Sound) :
    Sound (step run event).2 := by
  obtain ⟨op, faults⟩ := event
  obtain ⟨ids, indexed⟩ := sound.1
  cases op with
  | newId elementType => exact newId_sound sound reliable faults
  | save element formed =>
      rw [step_quiet rfl]
      cases named : element.id with
      | none =>
          have unnamed : save faults element = throw (.repositoryError "element has no ID") := by
            simp only [save, named]
          rw [unnamed]
          exact sound
      | some id => exact sound.quiet (indexed.save named (formed id named) (reliable id named))
  | delete id =>
      rw [step_quiet rfl]
      exact sound.quiet (indexed.delete reliable)
  | reopen => exact reopen_sound sound reliable

theorem start_sound : start.Sound := by
  refine ⟨⟨[], ⟨.inr ⟨rfl, rfl⟩, fun id none => (List.not_mem_nil none).elim⟩, fun id e found => ?_,
    fun id stored found => ?_⟩, List.nodup_nil, fun id none => (List.not_mem_nil none).elim⟩
  · cases found
  · cases found

/-- As long as the index follows every new file, nothing that is listed is torn, and no repository
    is opened again whose files no longer show the highest id, what is listed is what can be got,
    and no id is issued twice. -/
theorem reliable_run (events : List FileEvent)
    (reliable : ∀ x ∈ Machine.history step start events, x.before.Reliable x.event) :
    let reached := Machine.final step start events
    (∀ id, reached.repository.Listed id ↔ reached.repository.Got id) ∧ reached.issued.Nodup := by
  have sound : Sound (Machine.final step start events) :=
    Machine.final_invariant (fun run event reliable sound => step_sound reliable sound) start_sound reliable
  obtain ⟨⟨ids, indexed⟩, numbered⟩ := sound
  exact ⟨indexed.listed_iff_got, numbered.once⟩

/-- A task under the first id. -/
def firstTask : KanbanElement := .task { id := some (.create .task 1), title := "build" }

theorem firstTask_formed (id : ElementId) (named : firstTask.id = some id) : id.WellFormed :=
  Option.some.inj named ▸ ElementId.create_wellFormed .task (by decide)

def saveFirst (faults : Faults) : FileEvent := { op := .save firstTask firstTask_formed, faults }

/-- The disk is full when an element is written. -/
def diskFull : Faults
  | .writeElement => .fails "no space left on device"
  | _ => .done

/-- A save that fails, one that does not, and a restart. -/
theorem restart_reliable :
    let reached := Machine.final step start [{ op := .newId .task }, saveFirst diskFull, saveFirst calm,
      { op := .reopen }, { op := .newId .task }]
    (∀ id, reached.repository.Listed id ↔ reached.repository.Got id) ∧ reached.issued.Nodup := by
  refine reliable_run _ fun x member => ?_
  simp only [Machine.history_cons, Machine.history_nil, List.mem_cons, List.not_mem_nil, or_false] at member
  rcases member with rfl | rfl | rfl | rfl | rfl
  · exact (by decide : 0 + 1 < 2 ^ 32)
  · exact fun _ _ => trivial
  · exact fun _ _ => .inr ⟨.inl rfl, rfl⟩
  · rintro - id issued
    cases List.mem_singleton.mp issued
    exact (by decide : 1 ≤ 1)
  · exact (by decide : 1 + 1 < 2 ^ 32)

/-- The id of a deleted element names another one after a restart. -/
theorem restart_reissues : ¬ ∀ events : List FileEvent,
    let reached := Machine.final step start events
    (∀ id, reached.repository.Listed id ↔ reached.repository.Got id) ∧ reached.issued.Nodup := by
  intro all
  have once := (all [{ op := .newId .task }, saveFirst calm, { op := .delete (.create .task 1) },
    { op := .reopen }, { op := .newId .task }]).2
  have twice : [ElementId.create .task 1, .create .task 1].Nodup := once
  exact absurd twice (by simp)

end FileRun

end AgileAgent.Kanban
