import Mathlib.Data.List.Basic

/-! # Recursive procedures with visible calls

A mutually recursive interpreter is written here as one *procedure*: a request
names the routine and its arguments, and its body either returns or makes one
recursive call and continues with the answer. The body is data, so the same
source text yields the result (`Body.run`), the calls it made (`Body.calls`,
`Procedure.trail`) and the rule for invariants of the whole recursion
(`Procedure.induct`).

Nothing below depends on what the requests are.
-/

namespace CallTree

universe u

/-- One activation of a recursive routine, suspended at its next recursive call. -/
inductive Body (Q A : Type u) (α : Type u) where
  | ret (value : α)
  | call (request : Q) (next : A → Body Q A α)

namespace Body

variable {Q A α β : Type u}

/-- Run a body, answering every call with `answer`. -/
def run (answer : Q → A) : Body Q A α → α
  | .ret value => value
  | .call q next => (next (answer q)).run answer

/-- The calls a body makes, in order, when they are answered with `answer`. -/
def calls (answer : Q → A) : Body Q A α → List Q
  | .ret _ => []
  | .call q next => q :: (next (answer q)).calls answer

/-- Post-process the returned value without touching the calls. -/
def map (f : α → β) : Body Q A α → Body Q A β
  | .ret value => .ret (f value)
  | .call q next => .call q fun a => (next a).map f

@[simp] theorem run_ret (answer : Q → A) (value : α) :
    (ret value : Body Q A α).run answer = value := rfl

@[simp] theorem run_call (answer : Q → A) (q : Q) (next : A → Body Q A α) :
    (call q next).run answer = (next (answer q)).run answer := rfl

@[simp] theorem calls_ret (answer : Q → A) (value : α) :
    (ret value : Body Q A α).calls answer = [] := rfl

@[simp] theorem calls_call (answer : Q → A) (q : Q) (next : A → Body Q A α) :
    (call q next).calls answer = q :: (next (answer q)).calls answer := rfl

@[simp] theorem run_map (answer : Q → A) (f : α → β) (body : Body Q A α) :
    (body.map f).run answer = f (body.run answer) := by
  induction body with
  | ret => rfl
  | call q next ih => exact ih (answer q)

@[simp] theorem calls_map (answer : Q → A) (f : α → β) (body : Body Q A α) :
    (body.map f).calls answer = body.calls answer := by
  induction body with
  | ret => rfl
  | call q next ih => exact congrArg (q :: ·) (ih (answer q))

/-- Run a body whose calls may fail: the first failure ends the run. -/
def attempt {E : Type u} (answer : Q → Except E A) : Body Q A α → Except E α
  | .ret value => .ok value
  | .call q next =>
      match answer q with
      | .ok a => (next a).attempt answer
      | .error e => .error e

/-- Every call that is made is a good one; after a failure no more are made. -/
def EachCall {E : Type u} (answer : Q → Except E A) (good : Q → Prop) : Body Q A α → Prop
  | .ret _ => True
  | .call q next => good q ∧ ∀ a, answer q = .ok a → (next a).EachCall answer good

/-- Where the good calls are those that are answered, a run returns exactly if it makes good
    calls only. -/
theorem attempt_ok_iff {E : Type u} {answer : Q → Except E A} {good : Q → Prop}
    (decides : ∀ q, (∃ a, answer q = .ok a) ↔ good q) (body : Body Q A α) :
    (∃ value, body.attempt answer = .ok value) ↔ body.EachCall answer good := by
  induction body with
  | ret value => simp [attempt, EachCall]
  | call q next ih =>
      rw [attempt, EachCall, ← decides q]
      cases answered : answer q with
      | error e => simp
      | ok a => simp [ih a]

/-- Whatever sane answers it gets, a guarded body only makes `allowed` calls and
    returns a value satisfying `post`. -/
def Guarded (sane : Q → A → Prop) (allowed : Q → Prop) (post : α → Prop) : Body Q A α → Prop
  | .ret value => post value
  | .call q next => allowed q ∧ ∀ a, sane q a → (next a).Guarded sane allowed post

theorem Guarded.map {sane : Q → A → Prop} {allowed : Q → Prop} {post : β → Prop} {f : α → β}
    {body : Body Q A α} (guarded : body.Guarded sane allowed (fun a => post (f a))) :
    (body.map f).Guarded sane allowed post := by
  induction body with
  | ret => exact guarded
  | call q next ih => exact ⟨guarded.1, fun a sane => ih a (guarded.2 a sane)⟩

theorem Guarded.mono {sane : Q → A → Prop} {allowed allowed' : Q → Prop} {post post' : α → Prop}
    {body : Body Q A α} (guarded : body.Guarded sane allowed post)
    (calls : ∀ q, allowed q → allowed' q) (result : ∀ a, post a → post' a) :
    body.Guarded sane allowed' post' := by
  induction body with
  | ret value => exact result value guarded
  | call q next ih => exact ⟨calls q guarded.1, fun a sane => ih a (guarded.2 a sane)⟩

/-- Under sane answers, a guarded body meets its post-condition. -/
theorem Guarded.run_post {sane : Q → A → Prop} {allowed : Q → Prop} {post : α → Prop}
    {body : Body Q A α} (guarded : body.Guarded sane allowed post) {answer : Q → A}
    (answers : ∀ q, allowed q → sane q (answer q)) : post (body.run answer) := by
  induction body with
  | ret => exact guarded
  | call q next ih => exact ih (answer q) (guarded.2 _ (answers q guarded.1))

/-- Only the answers to the calls it makes have to be sane. -/
theorem Guarded.run_post_of_calls {sane : Q → A → Prop} {allowed : Q → Prop} {post : α → Prop}
    {body : Body Q A α} (guarded : body.Guarded sane allowed post) {answer : Q → A}
    (answers : ∀ q ∈ body.calls answer, sane q (answer q)) : post (body.run answer) := by
  induction body with
  | ret => exact guarded
  | call q next ih =>
      have now := answers q List.mem_cons_self
      exact ih (answer q) (guarded.2 _ now) fun q' later => answers q' (List.mem_cons_of_mem _ later)

theorem Guarded.mem_calls {sane : Q → A → Prop} {allowed : Q → Prop} {post : α → Prop}
    {body : Body Q A α} (guarded : body.Guarded sane allowed post) {answer : Q → A}
    (answers : ∀ q, allowed q → sane q (answer q)) {q : Q} (called : q ∈ body.calls answer) :
    allowed q := by
  induction body with
  | ret => simp at called
  | call q' next ih =>
      rcases List.mem_cons.mp called with rfl | later
      · exact guarded.1
      · exact ih _ (guarded.2 _ (answers q' guarded.1)) later

/-- Only the answers to allowed calls matter. -/
theorem Guarded.run_congr {sane : Q → A → Prop} {allowed : Q → Prop} {post : α → Prop}
    {body : Body Q A α} (guarded : body.Guarded sane allowed post) {left right : Q → A}
    (answers : ∀ q, allowed q → sane q (left q)) (agree : ∀ q, allowed q → left q = right q) :
    body.run left = body.run right := by
  induction body with
  | ret => rfl
  | call q next ih =>
      simp only [run_call, ← agree q guarded.1]
      exact ih _ (guarded.2 _ (answers q guarded.1))

/-- The second body, of another procedure, is asked and answered as the first one is, and
    returns as it does, unless the first one leaves off with an `early` value. -/
inductive Follows {Q' A' α' : Type u} (asked : Q → Q' → Prop) (answered : Q → A → A' → Prop)
    (post : α → α' → Prop) (early : α → Prop) : Body Q A α → Body Q' A' α' → Prop where
  | ret {a : α} {a' : α'} (done : post a a') : Follows asked answered post early (.ret a) (.ret a')
  | early {a : α} {body : Body Q' A' α'} (leaves : early a) :
      Follows asked answered post early (.ret a) body
  | call {q : Q} {q' : Q'} {next : A → Body Q A α} {next' : A' → Body Q' A' α'} (ask : asked q q')
      (rest : ∀ a a', answered q a a' → Follows asked answered post early (next a) (next' a')) :
      Follows asked answered post early (.call q next) (.call q' next')

namespace Follows

variable {Q' A' α' β' : Type u} {asked : Q → Q' → Prop} {answered : Q → A → A' → Prop}
  {post : α → α' → Prop} {early : α → Prop} {body : Body Q A α} {body' : Body Q' A' α'}

theorem mono {post' : α → α' → Prop} {early' : α → Prop}
    (follows : Follows asked answered post early body body')
    (done : ∀ a a', post a a' → post' a a') (leaves : ∀ a, early a → early' a) :
    Follows asked answered post' early' body body' := by
  induction follows with
  | ret here => exact .ret (done _ _ here)
  | early here => exact .early (leaves _ here)
  | call ask _ ih => exact .call ask ih

theorem map {post : β → β' → Prop} {early : β → Prop} {f : α → β} {f' : α' → β'}
    (follows : Follows asked answered (fun a a' => post (f a) (f' a')) (fun a => early (f a)) body body') :
    Follows asked answered post early (body.map f) (body'.map f') := by
  induction follows with
  | ret done => exact .ret done
  | early leaves => exact .early leaves
  | call ask _ ih => exact .call ask ih

/-- What holds of the answers to the calls holds of the bodies. -/
theorem run (follows : Follows asked answered post early body body') {answer : Q → A}
    {answer' : Q' → A'}
    (answers : ∀ q ∈ body.calls answer, ∀ q', asked q q' → answered q (answer q) (answer' q')) :
    post (body.run answer) (body'.run answer') ∨ early (body.run answer) := by
  induction follows with
  | ret done => exact .inl done
  | early leaves => exact .inr leaves
  | @call q q' next next' ask _ ih =>
      have now := answers q List.mem_cons_self q' ask
      exact ih _ _ now fun q later => answers q (List.mem_cons_of_mem _ later)

end Follows

end Body

/-- A recursive procedure together with the reason it terminates: calls go down
    in `rank` as long as earlier answers are sane, and the answers it gives are. -/
structure Procedure (Q A : Type u) where
  body : Q → Body Q A A
  rank : Q → Nat
  sane : Q → A → Prop
  /-- Never returned: the answer of an evaluation cut off below the rank. -/
  stuck : Q → A
  guarded : ∀ q, (body q).Guarded sane (fun q' => rank q' < rank q) (sane q)

namespace Procedure

variable {Q A : Type u} (p : Procedure Q A)

/-- Evaluation to a bounded recursion depth. -/
def eval : Nat → Q → A
  | 0, q => p.stuck q
  | depth + 1, q => (p.body q).run (eval depth)

/-- The answer to a request. -/
def solve (q : Q) : A := p.eval (p.rank q + 1) q

/-- Every depth above the rank gives the same sane answer. -/
theorem eval_stable (q : Q) : ∀ left right, p.rank q < left → p.rank q < right →
    p.sane q (p.eval left q) ∧ p.eval left q = p.eval right q := by
  induction h : p.rank q using Nat.strongRecOn generalizing q with
  | ind rank ih =>
      subst h
      intro left right below below'
      obtain ⟨left, rfl⟩ := Nat.exists_eq_add_one_of_ne_zero (Nat.ne_zero_of_lt below)
      obtain ⟨right, rfl⟩ := Nat.exists_eq_add_one_of_ne_zero (Nat.ne_zero_of_lt below')
      have stable : ∀ q', p.rank q' < p.rank q →
          p.sane q' (p.eval left q') ∧ p.eval left q' = p.eval right q' := fun q' less =>
        ih _ less q' rfl left right (by omega) (by omega)
      exact ⟨(p.guarded q).run_post (fun q' less => (stable q' less).1),
        (p.guarded q).run_congr (fun q' less => (stable q' less).1)
          (fun q' less => (stable q' less).2)⟩

theorem solve_sane (q : Q) : p.sane q (p.solve q) :=
  (p.eval_stable q _ _ (Nat.lt_succ_self _) (Nat.lt_succ_self _)).1

/-- The answers satisfy the procedure's own recursion equation. -/
theorem solve_eq (q : Q) : p.solve q = (p.body q).run p.solve := by
  refine (p.guarded q).run_congr (fun q' less => ?_) (fun q' less => ?_)
  · exact (p.eval_stable q' (p.rank q) (p.rank q) less less).1
  · exact (p.eval_stable q' (p.rank q) _ less (Nat.lt_succ_self _)).2

/-- The calls a request makes directly. -/
def calls (q : Q) : List Q := (p.body q).calls p.solve

theorem rank_lt_of_mem_calls {q q' : Q} (called : q' ∈ p.calls q) : p.rank q' < p.rank q :=
  (p.guarded q).mem_calls (fun q' _ => p.solve_sane q') called

/-- The invariant rule: what the direct calls establish, the request may use. -/
theorem induct {motive : Q → Prop}
    (step : ∀ q, (∀ q' ∈ p.calls q, motive q') → motive q) (q : Q) : motive q := by
  induction h : p.rank q using Nat.strongRecOn generalizing q with
  | ind rank ih =>
      subst h
      exact step q fun q' called => ih _ (p.rank_lt_of_mem_calls called) q' rfl

/-- A list put together from those of the calls, to a bounded depth. -/
def logTo (put : Q → List Q → List Q) : Nat → Q → List Q
  | 0, q => put q []
  | depth + 1, q => put q ((p.calls q).flatMap (logTo put depth))

/-- Every request made while answering `q`, itself first, in the order they start. -/
def trail (q : Q) : List Q := p.logTo (· :: ·) (p.rank q) q

/-- The same requests in the order they return, `q` last. -/
def returns (q : Q) : List Q := p.logTo (fun q below => below ++ [q]) (p.rank q) q

private theorem logTo_stable (put : Q → List Q → List Q) (q : Q) :
    ∀ left right, p.rank q ≤ left → p.rank q ≤ right → p.logTo put left q = p.logTo put right q := by
  induction q using p.induct with
  | step q ih =>
      intro left right enough enough'
      have leaf : p.rank q = 0 → p.calls q = [] := fun zero =>
        List.eq_nil_iff_forall_not_mem.mpr fun q' called =>
          absurd (p.rank_lt_of_mem_calls called) (by omega)
      cases left with
      | zero =>
          cases right with
          | zero => rfl
          | succ right => simp only [logTo, leaf (by omega), List.flatMap_nil]
      | succ left =>
          cases right with
          | zero => simp only [logTo, leaf (by omega), List.flatMap_nil]
          | succ right =>
              simp only [logTo]
              congr 1
              refine List.flatMap_congr fun q' called => ?_
              have := p.rank_lt_of_mem_calls called
              exact ih q' called left right (by omega) (by omega)

private theorem logTo_eq (put : Q → List Q → List Q) (q : Q) : p.logTo put (p.rank q) q =
    put q ((p.calls q).flatMap fun q' => p.logTo put (p.rank q') q') := by
  have unfolded : p.logTo put (p.rank q) q = p.logTo put (p.rank q + 1) q :=
    p.logTo_stable put q _ _ (Nat.le_refl _) (Nat.le_succ _)
  rw [unfolded, logTo]
  congr 1
  exact List.flatMap_congr fun q' called =>
    p.logTo_stable put q' _ _ (Nat.le_of_lt (p.rank_lt_of_mem_calls called)) (Nat.le_refl _)

theorem trail_eq (q : Q) : p.trail q = q :: (p.calls q).flatMap p.trail := p.logTo_eq _ q

theorem returns_eq (q : Q) : p.returns q = (p.calls q).flatMap p.returns ++ [q] := p.logTo_eq _ q

theorem mem_trail_self (q : Q) : q ∈ p.trail q := by
  rw [trail_eq]
  exact List.mem_cons_self

variable {p}

theorem mem_trail_of_call {q q' r : Q} (called : q' ∈ p.calls q) (later : r ∈ p.trail q') :
    r ∈ p.trail q := by
  rw [trail_eq]
  exact List.mem_cons_of_mem _ (List.mem_flatMap.mpr ⟨q', called, later⟩)

theorem mem_trail_cases {q r : Q} (reached : r ∈ p.trail q) :
    r = q ∨ ∃ q' ∈ p.calls q, r ∈ p.trail q' := by
  rw [trail_eq] at reached
  rcases List.mem_cons.mp reached with same | below
  · exact .inl same
  · exact .inr (List.mem_flatMap.mp below)

end Procedure

end CallTree
