import AgileAgent.Machine

/-! # Logs with several owners

Updates of several owners come to one log in any order. An entry of the log belongs to one owner
or to none. If every update leaves the entries of the other owners alone and does to its owner's what
it would do to these alone, then what an owner has in the end is what its own updates make of what
it had.
-/

namespace Owners

universe u v w

structure Log (Entry : Type u) (Update : Type v) (Key : Type w) where
  owner : Entry → Option Key
  sender : Update → Option Key
  take : List Entry → Update → List Entry

namespace Log

variable {Entry : Type u} {Update : Type v} {Key : Type w} [DecidableEq Key]

section

variable (log : Log Entry Update Key)

def step (entries : List Entry) (update : Update) : Unit × List Entry := ((), log.take entries update)

/-- The entries of one owner. -/
def own (key : Key) (entries : List Entry) : List Entry :=
  entries.filter fun x => log.owner x == some key

/-- The entries of the others, and those of none. -/
def others (key : Key) (entries : List Entry) : List Entry :=
  entries.filter fun x => log.owner x != some key

/-- The updates of one owner. -/
def sent (key : Key) (updates : List Update) : List Update :=
  updates.filter fun u => log.sender u == some key

structure Separates (entries : List Entry) (update : Update) : Prop where
  spares : ∀ key, log.sender update ≠ some key →
    log.own key (log.take entries update) = log.own key entries
  alone : ∀ key, log.sender update = some key →
    log.own key (log.take entries update) = log.take (log.own key entries) update

end

variable {log : Log Entry Update Key} {key other : Key} {entries : List Entry}

theorem own_append (front back : List Entry) :
    log.own key (front ++ back) = log.own key front ++ log.own key back :=
  List.filter_append ..

theorem own_others (apart : other ≠ key) :
    log.own other (log.others key entries) = log.own other entries := by
  rw [own, others, List.filter_filter, own]
  apply List.filter_congr
  intro x _
  by_cases mine : log.owner x = some other <;> simp [mine, apart]

/-- Who leaves the entries of the others alone leaves those of each other alone. -/
theorem own_of_others {entries' : List Entry}
    (same : log.others key entries' = log.others key entries) (apart : other ≠ key) :
    log.own other entries' = log.own other entries := by
  rw [← own_others apart, same, own_others apart]

/-- What an owner has at the end of a run. -/
theorem own_final {updates : List Update}
    (all : ∀ x ∈ Machine.history log.step entries updates, log.Separates x.before x.event) :
    log.own key (Machine.final log.step entries updates) =
      Machine.final log.step (log.own key entries) (log.sent key updates) := by
  induction updates generalizing entries with
  | nil => rfl
  | cons update rest ih =>
      rw [Machine.history_cons, List.forall_mem_cons] at all
      rw [Machine.final_cons, ih all.2, sent, sent, List.filter_cons]
      by_cases mine : log.sender update = some key
      · rw [if_pos (beq_iff_eq.mpr mine), Machine.final_cons]
        exact congrArg (Machine.final log.step · _) (all.1.alone key mine)
      · rw [if_neg fun same => mine (beq_iff_eq.mp same)]
        exact congrArg (Machine.final log.step · _) (all.1.spares key mine)

end Log

end Owners
