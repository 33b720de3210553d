import Mathlib.Logic.Function.Basic
import Mathlib.Logic.Relation

/-! # Custody

Holders take tasks, hand them over and drop them, and tasks end by themselves. As long as nobody
gives up a running task, running tasks have exactly one holder.
-/

namespace Custody

universe u v

/-- A task can be taken, runs, or is neither. -/
inductive Phase where
  | ready
  | running
  | away
  deriving Repr, DecidableEq

@[ext] structure State (A : Type u) (T : Type v) where
  held : A → Option T
  phase : T → Phase

variable {A : Type u} {T : Type v} {s s' : State A T}

namespace State

/-- The holder has a running task. -/
def Works (s : State A T) (a : A) : Prop := ∃ t, s.held a = some t ∧ s.phase t = .running

/-- Running tasks have a holder, no task has two, and what is held cannot be taken. -/
structure Sound (s : State A T) : Prop where
  owned : ∀ t, s.phase t = .running → ∃ a, s.held a = some t
  single : ∀ a b t, s.held a = some t → s.held b = some t → a = b
  taken : ∀ a t, s.held a = some t → s.phase t ≠ .ready

section

variable [DecidableEq A] {a b : A} {t : T}

def drop (s : State A T) (a : A) : State A T := { s with held := Function.update s.held a none }

def handOver (s : State A T) (a b : A) (t : T) : State A T :=
  { s with held := Function.update (Function.update s.held b (some t)) a none }

@[simp, grind =] theorem drop_held (b : A) : (s.drop a).held b = if b = a then none else s.held b :=
  Function.update_apply ..

@[simp, grind =] theorem drop_phase (u : T) : (s.drop a).phase u = s.phase u := rfl

@[simp, grind =] theorem handOver_held (c : A) : (s.handOver a b t).held c =
    if c = a then none else if c = b then some t else s.held c := by
  simp [handOver, Function.update_apply]

@[simp, grind =] theorem handOver_phase (u : T) : (s.handOver a b t).phase u = s.phase u := rfl

end

section

variable [DecidableEq T] {t : T}

def settle (s : State A T) (t : T) : State A T := { s with phase := Function.update s.phase t .away }

@[simp, grind =] theorem settle_held (a : A) : (s.settle t).held a = s.held a := rfl

@[simp, grind =] theorem settle_phase (u : T) :
    (s.settle t).phase u = if u = t then .away else s.phase u :=
  Function.update_apply ..

variable [DecidableEq A] {a : A}

def take (s : State A T) (a : A) (t : T) : State A T where
  held := Function.update s.held a (some t)
  phase := Function.update s.phase t .running

@[simp, grind =] theorem take_held (b : A) : (s.take a t).held b = if b = a then some t else s.held b :=
  Function.update_apply ..

@[simp, grind =] theorem take_phase (u : T) :
    (s.take a t).phase u = if u = t then .running else s.phase u :=
  Function.update_apply ..

end

end State

variable [DecidableEq A] [DecidableEq T]

/-- Nobody gives up a running task, except to somebody else. -/
inductive Move (s : State A T) : State A T → Prop where
  | take {a : A} {t : T} (ready : s.phase t = .ready) (free : ¬ s.Works a) : Move s (s.take a t)
  | drop {a : A} (free : ¬ s.Works a) : Move s (s.drop a)
  | handOver {a b : A} {t : T} (holds : s.held a = some t) (apart : b ≠ a) (free : ¬ s.Works b) :
      Move s (s.handOver a b t)
  | settle (t : T) : Move s (s.settle t)

theorem Move.sound (sound : s.Sound) (move : Move s s') : s'.Sound := by
  cases move with
  | @take a t ready free =>
      have unheld (b : A) : s.held b ≠ some t := fun holds => sound.taken b t holds ready
      refine ⟨fun u running => ?_, fun b c u first second => ?_, fun b u holds => ?_⟩
      · by_cases isTask : u = t
        · exact ⟨a, by simp [isTask]⟩
        · have was : s.phase u = .running := by simpa [isTask] using running
          obtain ⟨b, holds⟩ := sound.owned u was
          have other : b ≠ a := fun same => free ⟨u, same ▸ holds, was⟩
          exact ⟨b, by simp [other, holds]⟩
      · grind [sound.single]
      · grind [sound.taken]
  | @drop a free =>
      refine ⟨fun u running => ?_, fun b c u first second => ?_, fun b u holds => ?_⟩
      · obtain ⟨b, holds⟩ := sound.owned u running
        have other : b ≠ a := fun same => free ⟨u, same ▸ holds, running⟩
        exact ⟨b, by simp [other, holds]⟩
      · grind [sound.single]
      · grind [sound.taken]
  | @handOver a b t holds apart free =>
      refine ⟨fun u running => ?_, fun c d u first second => ?_, fun c u holdsU => ?_⟩
      · obtain ⟨c, holdsU⟩ := sound.owned u running
        by_cases isFrom : c = a
        · have isTask : u = t := by
            rw [isFrom, holds] at holdsU
            exact (Option.some.inj holdsU).symm
          exact ⟨b, by simp [apart, isTask]⟩
        · have other : c ≠ b := fun same => free ⟨u, same ▸ holdsU, running⟩
          exact ⟨c, by simp [isFrom, other, holdsU]⟩
      · grind [sound.single]
      · grind [sound.taken]
  | settle t =>
      refine ⟨fun u running => ?_, sound.single, fun b u holds => ?_⟩
      · exact sound.owned u (by grind)
      · grind [sound.taken]

abbrev Moves : State A T → State A T → Prop := Relation.ReflTransGen Move

theorem Moves.sound (sound : s.Sound) (moves : Moves s s') : s'.Sound := by
  induction moves with
  | refl => exact sound
  | tail _ move ih => exact move.sound ih

end Custody
