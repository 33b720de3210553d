import AgileAgent.Worktree.WorktreeManager

/-! # The porcelain listing

What `git worktree list --porcelain` prints and what the manager reads of it. A path is printed
as it is, so that one with a line break or a blank at its end is not read back.
-/

namespace AgileAgent.Worktree

open AgileAgent.Decision (linesFrom linesFrom_append linesFrom_break linesFrom_cons linesFrom_head
  linesFrom_inner linesFrom_line linesFrom_return textLines)
open DecisionDsl (isWhitespace trim)

/-- A line about a worktree below the one with its path. -/
structure DetailLine where
  text : String
  oneLine : '\n' ∉ text.toList ∧ '\r' ∉ text.toList
  filled : trim text ≠ ""
  other : (keyValue (trim text)).1 ≠ "worktree"

/-- A worktree in the listing. -/
structure Listing where
  path : String
  details : List DetailLine
  absolute : path.toList.head? = some '/'

/-- What stands in front of a path. -/
def pathLabel : List Char := "worktree ".toList

def Listing.text (l : Listing) : List Char :=
  pathLabel ++ l.path.toList ++ '\n' :: (l.details.flatMap (·.text.toList ++ ['\n']) ++ ['\n'])

/-- The output of `git worktree list --porcelain`. -/
def porcelain (listings : List Listing) : String := String.ofList (listings.flatMap Listing.text)

/-- The path is read back as it is printed. -/
def Printable (path : String) : Prop := '\n' ∉ path.toList ∧ trim path = path

/-! ## Lines -/

def Listing.lines (l : Listing) : List String := textLines (String.ofList l.text)

theorem Listing.text_ended (l : Listing) : ∃ body, l.text = body ++ ['\n'] := by
  exact ⟨pathLabel ++ l.path.toList ++ '\n' :: l.details.flatMap (·.text.toList ++ ['\n']), by
    simp [Listing.text]⟩

theorem textLines_porcelain (listings : List Listing) :
    textLines (porcelain listings) = listings.flatMap Listing.lines := by
  induction listings with
  | nil => rfl
  | cons l rest ih =>
      obtain ⟨body, ended⟩ := l.text_ended
      have apart : linesFrom [] (l.text ++ rest.flatMap Listing.text) =
          linesFrom [] l.text ++ linesFrom [] (rest.flatMap Listing.text) := by
        rw [ended, List.append_assoc]
        exact linesFrom_append [] body _
      rw [List.flatMap_cons, ← ih, Listing.lines]
      simp only [textLines, porcelain, String.toList_ofList, List.flatMap_cons, apart, List.map_append]

/-! ## Blanks at the end -/

theorem trim_append {front : List Char} (more : List Char)
    (first : front.head?.all fun c => !isWhitespace c) (last : front.getLast?.all fun c => !isWhitespace c)
    (something : front ≠ []) : trim (String.ofList (front ++ more)) =
      String.ofList (front ++ (more.reverse.dropWhile isWhitespace).reverse) := by
  have left : (front ++ more).dropWhile isWhitespace = front ++ more := by
    cases front with
    | nil => exact absurd rfl something
    | cons c front => exact List.dropWhile_cons_of_neg (by simpa using first)
  have right : front.reverse.dropWhile isWhitespace = front.reverse := by
    cases h : front.reverse with
    | nil => rfl
    | cons c rest =>
        have : front.getLast? = some c := by rw [← List.head?_reverse, h]; rfl
        exact List.dropWhile_cons_of_neg (by simpa [this] using last)
  rw [trim, String.toList_ofList, left, List.reverse_append, List.dropWhile_append]
  split
  · next blank => simp [List.isEmpty_iff.mp blank, right]
  · simp

theorem keyValue_append {key : List Char} (value : List Char) (oneWord : ' ' ∉ key) :
    keyValue (String.ofList (key ++ ' ' :: value)) = (String.ofList key, some (trim (String.ofList value))) := by
  have spanned : (key ++ ' ' :: value).span (· ≠ ' ') = (key, ' ' :: value) := by
    have all : ∀ c ∈ key, (decide (c ≠ ' ')) = true := by
      intro c mem
      simpa using fun h : c = ' ' => oneWord (h ▸ mem)
    rw [List.span_eq_takeWhile_dropWhile, List.takeWhile_append_of_pos all, List.dropWhile_append_of_pos all]
    simp
  rw [keyValue, String.toList_ofList, spanned]

theorem keyValue_worktree (value : List Char) :
    keyValue (String.ofList (pathLabel ++ value)) = ("worktree", some (trim (String.ofList value))) := by
  have label : pathLabel = "worktree".toList ++ [' '] := by decide
  rw [label, List.append_assoc, List.singleton_append, keyValue_append value (by decide), String.ofList_toList]

/-- A line that says where a worktree is. -/
def PathLine (line : String) : Prop := (keyValue (trim line)).1 = "worktree"

instance : DecidablePred PathLine := fun _ => inferInstanceAs (Decidable (_ = _))

theorem pathLine_of_slash (more : List Char) : PathLine (String.ofList (pathLabel ++ ['/'] ++ more)) := by
  rw [PathLine, trim_append more (by decide) (by decide) (by decide), List.append_assoc, keyValue_worktree]

/-! ## Every worktree is counted -/

/-- How many worktrees were begun. -/
def begun (state : List WorktreeInfo × Option WorktreeInfo) : Nat :=
  state.1.length + state.2.toList.length

theorem parseLine_begun {line : String} {state state' : List WorktreeInfo × Option WorktreeInfo}
    (ok : parseLine line state = .ok state') :
    begun state' = begun state + if PathLine line then 1 else 0 := by
  obtain ⟨worktrees, current⟩ := state
  unfold parseLine at ok
  rcases eq_or_ne (trim line) "" with blank | filled
  · have key : ¬ PathLine line := by
      rw [PathLine, blank]
      decide
    simp only [blank, if_true] at ok
    cases ok
    simp [begun, key]
  · simp only [if_neg filled] at ok
    cases kv : keyValue (trim line) with
    | mk key value =>
        have path : PathLine line ↔ key = "worktree" := by rw [PathLine, kv]
        simp only [kv] at ok
        simp only [path]
        split at ok
        · cases value with
          | none => cases ok
          | some path =>
              cases ok
              simp [begun]
        all_goals
          cases ok
          cases current <;> simp_all [begun]

theorem parseLines_begun {lines : List String} {state state' : List WorktreeInfo × Option WorktreeInfo}
    (ok : parseLines lines state = .ok state') : begun state' = begun state + lines.countP PathLine := by
  induction lines generalizing state with
  | nil => cases ok; simp
  | cons line rest ih =>
      rw [parseLines] at ok
      cases first : parseLine line state with
      | error e => simp [first, bind, Except.bind] at ok
      | ok middle =>
          rw [first] at ok
          rw [ih ok, parseLine_begun first, List.countP_cons]
          simp only [decide_eq_true_eq]
          omega

theorem Listing.lines_path (l : Listing) : 0 < l.lines.countP PathLine := by
  obtain ⟨path, absolute⟩ : ∃ path, l.path.toList = '/' :: path := by
    cases h : l.path.toList with
    | nil => simpa [h] using l.absolute
    | cons c path => exact ⟨path, by simpa [h] using l.absolute⟩
  have text : l.text = pathLabel ++ ['/'] ++
      (path ++ '\n' :: (l.details.flatMap (·.text.toList ++ ['\n']) ++ ['\n'])) := by
    simp [Listing.text, absolute]
  have opened := linesFrom_inner [] (path ++ '\n' :: (l.details.flatMap (·.text.toList ++ ['\n']) ++ ['\n']))
    (by decide : '\n' ∉ pathLabel ++ ['/']) (by decide)
  obtain ⟨rest, others, head⟩ := @linesFrom_head
    (path ++ '\n' :: (l.details.flatMap (·.text.toList ++ ['\n']) ++ ['\n']))
    ((pathLabel ++ ['/']).reverse ++ []) (by simp)
  rw [List.countP_pos_iff]
  refine ⟨String.ofList (pathLabel ++ ['/'] ++ rest), ?_, by simpa using pathLine_of_slash rest⟩
  rw [Listing.lines, textLines, String.toList_ofList, text, opened, head]
  simp

/-- What is listed is counted, whatever the paths are. -/
theorem length_le_of_parse {listings : List Listing} {infos : List WorktreeInfo}
    (ok : parsePorcelainOutput (porcelain listings) = .ok infos) : listings.length ≤ infos.length := by
  unfold parsePorcelainOutput at ok
  rw [textLines_porcelain] at ok
  cases parsed : parseLines (listings.flatMap Listing.lines) ([], none) with
  | error e => simp [parsed, bind, Except.bind] at ok
  | ok state =>
      rw [parsed] at ok
      cases ok
      have count := parseLines_begun parsed
      have each : listings.length ≤ (listings.flatMap Listing.lines).countP PathLine := by
        clear parsed count
        induction listings with
        | nil => simp
        | cons l rest ih =>
            have := l.lines_path
            rw [List.flatMap_cons, List.countP_append, List.length_cons]
            omega
      simp only [begun, List.length_append] at *
      simp at count
      omega

/-! ## A printable path is read back -/

theorem Printable.last {path : String} (printable : Printable path) {c : Char}
    (last : path.toList.getLast? = some c) : isWhitespace c = false := by
  have kept := congrArg String.toList printable.2
  rw [trim, String.toList_ofList] at kept
  have last' : (path.toList.dropWhile isWhitespace).reverse.dropWhile isWhitespace = path.toList.reverse := by
    rw [← List.reverse_eq_iff, kept]
  have head : ((path.toList.dropWhile isWhitespace).reverse.dropWhile isWhitespace).head? = some c := by
    rw [last', List.head?_reverse, last]
  have := List.head?_dropWhile_not isWhitespace (path.toList.dropWhile isWhitespace).reverse
  simpa [head] using this

theorem linesFrom_details (details : List DetailLine) :
    linesFrom [] (details.flatMap (·.text.toList ++ ['\n']) ++ ['\n']) =
      details.map (·.text.toList) ++ [[]] := by
  induction details with
  | nil => simp [linesFrom_break, linesFrom]
  | cons d rest ih =>
      have last : d.text.toList.getLast? ≠ some '\r' :=
        fun h => d.oneLine.2 (List.mem_of_getLast? h)
      rw [List.flatMap_cons, List.append_assoc, List.append_assoc, List.singleton_append,
        linesFrom_line [] _ d.oneLine.1 last, ih]
      rfl

theorem Listing.lines_printable (l : Listing) (printable : Printable l.path) :
    l.lines = String.ofList (pathLabel ++ l.path.toList) :: (l.details.map (·.text) ++ [""]) := by
  have oneLine : '\n' ∉ pathLabel ++ l.path.toList := by
    rw [List.mem_append, not_or]
    exact ⟨by decide, printable.1⟩
  have last : (pathLabel ++ l.path.toList).getLast? ≠ some '\r' := by
    intro h
    cases path : l.path.toList.getLast? with
    | none =>
        rw [List.getLast?_eq_none_iff.mp path] at h
        revert h
        decide
    | some c =>
        rw [List.getLast?_append, path] at h
        cases h
        exact absurd (printable.last path) (by decide)
  rw [Listing.lines, textLines, String.toList_ofList, Listing.text,
    linesFrom_line [] _ oneLine last, linesFrom_details]
  simp

theorem parseLines_append (first second : List String) (state : List WorktreeInfo × Option WorktreeInfo) :
    parseLines (first ++ second) state = parseLines first state >>= parseLines second := by
  induction first generalizing state with
  | nil => rfl
  | cons line rest ih =>
      rw [List.cons_append, parseLines, parseLines]
      cases parseLine line state with
      | error e => rfl
      | ok state' => exact ih state'

theorem parseLine_detail (d : DetailLine) (worktrees : List WorktreeInfo) (info : WorktreeInfo) :
    ∃ info', parseLine d.text (worktrees, some info) = .ok (worktrees, some info') ∧
      info'.path = info.path := by
  have other := d.other
  unfold parseLine
  simp only [if_neg d.filled]
  cases kv : keyValue (trim d.text) with
  | mk key value =>
      rw [kv] at other
      simp only
      split
      · exact absurd rfl other
      all_goals exact ⟨_, rfl, rfl⟩

theorem parseLines_details (details : List DetailLine) (worktrees : List WorktreeInfo)
    (info : WorktreeInfo) : ∃ info', parseLines (details.map (·.text)) (worktrees, some info) =
      .ok (worktrees, some info') ∧ info'.path = info.path := by
  induction details generalizing info with
  | nil => exact ⟨info, rfl, rfl⟩
  | cons d rest ih =>
      obtain ⟨middle, first, same⟩ := parseLine_detail d worktrees info
      obtain ⟨info', others, same'⟩ := ih middle
      refine ⟨info', ?_, same'.trans same⟩
      rw [List.map_cons, parseLines, first]
      exact others

theorem parseLine_path {path : String} (printable : Printable path)
    (absolute : path.toList.head? = some '/') (worktrees : List WorktreeInfo) :
    parseLine (String.ofList (pathLabel ++ path.toList)) (worktrees, none) =
      .ok (worktrees, some { path }) := by
  have last : (pathLabel ++ path.toList).getLast?.all fun c => !isWhitespace c := by
    cases last : path.toList.getLast? with
    | none => simp [List.getLast?_eq_none_iff.mp last] at absolute
    | some c => simp [List.getLast?_append, last, printable.last last]
  have label : pathLabel ++ path.toList = 'w' :: (pathLabel.tail ++ path.toList) := rfl
  have whole := trim_append [] (by rw [label]; rfl) last (by rw [label]; exact List.cons_ne_nil _ _)
  rw [List.append_nil] at whole
  have kv := keyValue_worktree path.toList
  rw [String.ofList_toList, printable.2] at kv
  have filled : String.ofList (pathLabel ++ path.toList) ≠ "" := by
    intro h
    have letters := congrArg String.toList h
    rw [String.toList_ofList, label] at letters
    cases letters
  simp only [parseLine, whole, List.reverse_nil, List.dropWhile_nil, List.append_nil, if_neg filled, kv]
  simp

theorem Listing.parseLines_lines (l : Listing) (printable : Printable l.path)
    (worktrees : List WorktreeInfo) : ∃ info : WorktreeInfo, info.path = l.path ∧
      parseLines l.lines (worktrees, none) = .ok (worktrees ++ [info], none) := by
  obtain ⟨info, details, same⟩ := parseLines_details l.details worktrees { path := l.path }
  refine ⟨info, same, ?_⟩
  have path := parseLine_path printable l.absolute worktrees
  have blank : parseLine "" (worktrees, some info) = .ok (worktrees ++ [info], none) := by
    have empty : trim "" = "" := by decide
    simp only [parseLine, empty, if_true]
    rfl
  rw [l.lines_printable printable, parseLines, path]
  simp only [bind, Except.bind, parseLines_append, details]
  rw [parseLines, blank]
  rfl

/-- The paths are read back, in their order. -/
theorem parse_porcelain {listings : List Listing} (printable : ∀ l ∈ listings, Printable l.path) :
    ∃ infos, parsePorcelainOutput (porcelain listings) = .ok infos ∧
      infos.map (·.path) = listings.map (·.path) := by
  have read (worktrees : List WorktreeInfo) : ∃ infos : List WorktreeInfo,
      parseLines (listings.flatMap Listing.lines) (worktrees, none) = .ok (worktrees ++ infos, none) ∧
        infos.map (·.path) = listings.map (·.path) := by
    induction listings generalizing worktrees with
    | nil => exact ⟨[], by simp [parseLines], rfl⟩
    | cons l rest ih =>
        obtain ⟨info, same, first⟩ := l.parseLines_lines (printable l List.mem_cons_self) worktrees
        obtain ⟨infos, others, sames⟩ :=
          ih (fun l' mem => printable l' (List.mem_cons_of_mem _ mem)) (worktrees ++ [info])
        refine ⟨info :: infos, ?_, by simp [same, sames]⟩
        rw [List.flatMap_cons, parseLines_append, first]
        simpa [bind, Except.bind] using others
  obtain ⟨infos, parsed, same⟩ := read []
  refine ⟨infos, ?_, same⟩
  rw [parsePorcelainOutput, textLines_porcelain, parsed]
  simp [bind, Except.bind, pure, Except.pure]

end AgileAgent.Worktree
