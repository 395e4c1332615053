import ChatArchive.Proofs.Lockstep
import ChatArchive.Proofs.Requests
import ChatArchive.Proofs.Underway
import Mathlib.Algebra.Ring.Nat

/-!
# How often a store attempts what it is asked

Attempts are counted by surroundings that count along and change nothing else. In a store that
is not shut down every attempt of a transaction meets the same rows, but the refusal in force may
be another one after a pause. `Ends` lists how attempts can end: one of them succeeds, or it fails
for good, or they are used up, or a pause lasts too long, and all attempts before the last have
failed for reasons that pass by themselves. What an operation attempts is what it asks of the
table, and a failure to get it is its answer.
-/

namespace ChatArchive

open Cipher Time

namespace Retry

/-! ## Counting along -/

variable {σ ε α : Type}

/-- The same surroundings with a count of the attempts that came to a result. -/
def Surroundings.counting (world : Surroundings σ ε α) : Surroundings (Nat × σ) ε α where
  attempt s :=
    match world.attempt s.2 with
    | (.ok result, after) => (.ok result, s.1 + 1, after)
    | (.error reason, after) => (.error reason, s.1, after)
  pause delay s := ((world.pause delay s.2).1, s.1, (world.pause delay s.2).2)
  report e s := (s.1, world.report e s.2)

theorem counting_attempt_ok {world : Surroundings σ ε α} {n : Nat} {s after : σ}
    {result : Except ε α} (h : world.attempt s = (.ok result, after)) :
    world.counting.attempt (n, s) = (.ok result, n + 1, after) := by
  simp only [Surroundings.counting, h]

theorem counting_attempt_error {world : Surroundings σ ε α} {n : Nat} {s after : σ}
    {reason : CancelReason} (h : world.attempt s = (.error reason, after)) :
    world.counting.attempt (n, s) = (.error reason, n, after) := by
  simp only [Surroundings.counting, h]

theorem counting_pause (world : Surroundings σ ε α) (delay : Span) (n : Nat) (s : σ) :
    world.counting.pause delay (n, s)
      = ((world.pause delay s).1, n, (world.pause delay s).2) := rfl

theorem counting_report (world : Surroundings σ ε α) (e : Event) (n : Nat) (s : σ) :
    world.counting.report e (n, s) = (n, world.report e s) := rfl

theorem Outcome.Agree.eq {x y : Outcome ε α} (h : Outcome.Agree Eq x y) : x = y := by
  cases h with
  | done h => rw [h]
  | failed failure => rfl
  | overflow => rfl

/-- Counting changes nothing, neither how an attempt ends nor what it leaves behind. -/
theorem counting_agree (world : Surroundings σ ε α) :
    Surroundings.Agree (fun s p => p.2 = s) Eq world world.counting where
  attempt s p h := by
    obtain ⟨n, s⟩ := p
    cases h
    rcases h : world.attempt s with ⟨reason | result, after⟩
    · rw [counting_attempt_error h]
      exact ⟨.error reason, rfl⟩
    · rw [counting_attempt_ok h]
      exact ⟨.ok (.of_eq (fun _ => rfl) rfl), rfl⟩
  pause delay s p h := by
    cases h
    exact ⟨rfl, rfl⟩
  report e s p h := by
    cases h
    rfl

/-- Worlds that go together count alike. -/
theorem Surroundings.Agree.counting {τ : Type} {S : σ → τ → Prop} {world : Surroundings σ ε α}
    {world' : Surroundings τ ε α} (h : Surroundings.Agree S Eq world world') :
    Surroundings.Agree (fun p q => p.1 = q.1 ∧ S p.2 q.2) Eq world.counting world'.counting where
  attempt p q hpq := by
    obtain ⟨n, s⟩ := p
    obtain ⟨m, t⟩ := q
    obtain ⟨rfl, hst⟩ : n = m ∧ S s t := hpq
    obtain ⟨hattempt, hafter⟩ := h.attempt s t hst
    rcases hs : world.attempt s with ⟨answer, s'⟩
    rcases ht : world'.attempt t with ⟨answer', t'⟩
    rw [hs, ht] at hattempt hafter
    cases hattempt with
    | error reason =>
        rw [counting_attempt_error hs, counting_attempt_error ht]
        exact ⟨.error reason, rfl, hafter⟩
    | ok hresult =>
        rw [counting_attempt_ok hs, counting_attempt_ok ht]
        exact ⟨.ok hresult, rfl, hafter⟩
  pause delay p q hpq := ⟨(h.pause delay p.2 q.2 hpq.2).1, hpq.1, (h.pause delay p.2 q.2 hpq.2).2⟩
  report e p q hpq := ⟨hpq.1, h.report e p.2 q.2 hpq.2⟩

end Retry

namespace Store

variable {α : Type} {s : Store} {p : Progress} {name : String} {transaction : Transaction α}
  {e : StoreError} {t : Table}

/-- How often a transaction is attempted that is retried under a name, for an operation that has
come so far. -/
def attempts (s : Store) (p : Progress) (name : String) (transaction : Transaction α) : Nat :=
  (Retry.run (plan s.settings name) (surroundings transaction).counting (0, s, p)).2.1

/-- A pause takes of the time that is left, unless it takes all of it. -/
theorem Progress.pause?_eq_some {p p' : Progress} {delay : Span} :
    p.pause? delay = some p' ↔ Retry.timerMillis delay < p.left ∧
      p' = ⟨p.left - Retry.timerMillis delay, p.pauses + 1⟩ := by
  rw [Progress.pause?, ← Nat.not_le]
  split
  · next h => exact iff_of_false nofun fun hsome => hsome.1 h
  · next h => rw [and_iff_right h, Option.some.injEq, eq_comm]

/-- So many attempts fail for reasons that pass by themselves, the first of them after so many
pauses. -/
def FailsInPassing (t : Table) (transaction : Transaction α) (first n : Nat) : Prop :=
  ∀ k < n, ∃ e, transaction.after (first + k) t = .error e ∧ isTransient e = true

theorem failsInPassing_zero (t : Table) (transaction : Transaction α) (first : Nat) :
    FailsInPassing t transaction first 0 := fun _ hk => absurd hk (Nat.not_lt_zero _)

theorem FailsInPassing.cons {first n : Nat} (h : transaction.after first t = .error e)
    (htransient : isTransient e = true) (hrest : FailsInPassing t transaction (first + 1) n) :
    FailsInPassing t transaction first (n + 1) := by
  intro k hk
  cases k with
  | zero => exact ⟨e, h, htransient⟩
  | succ k =>
      have hlater := hrest k (Nat.lt_of_succ_lt_succ hk)
      rwa [Nat.add_right_comm] at hlater

/-- How attempts end, and after how many: the first comes after so many pauses, `left` more may
follow it, and `made` have been made before. All attempts but the last fail for reasons that pass
by themselves, and so does the last if the attempts are used up or a pause takes too long. -/
inductive Ends (t : Table) (transaction : Transaction α) (name : String) (first left made : Nat) :
    Nat → Retry.Outcome StoreError α → Prop
  | done {n : Nat} {a : α} {table : Table} (hn : n ≤ left)
      (hearlier : FailsInPassing t transaction first n)
      (h : transaction.after (first + n) t = .ok (a, table)) :
    Ends t transaction name first left made (n + 1) (.done a)
  | permanent {n : Nat} {e : StoreError} (hn : n ≤ left)
      (hearlier : FailsInPassing t transaction first n)
      (h : transaction.after (first + n) t = .error e) (hpermanent : isTransient e = false) :
    Ends t transaction name first left made (n + 1) (.failed (.permanent e))
  | exhausted {e : StoreError} (hearlier : FailsInPassing t transaction first (left + 1))
      (h : transaction.after (first + left) t = .error e) :
    Ends t transaction name first left made (left + 1) (.failed (.exhausted (made + left + 1) e))
  | late {n : Nat} (hn : n < left) (hearlier : FailsInPassing t transaction first (n + 1)) :
    Ends t transaction name first left made (n + 1)
      (.failed (.cancelled name (made + n + 1) .deadlineExceeded))
  | overflow {n : Nat} (hn : n < left) (hearlier : FailsInPassing t transaction first (n + 1)) :
    Ends t transaction name first left made (n + 1) .overflow

namespace Ends

variable {first left made n : Nat} {outcome : Retry.Outcome StoreError α}

/-- An attempt that fails in passing goes before others. -/
theorem cons (h : transaction.after first t = .error e) (htransient : isTransient e = true)
    (hrest : Ends t transaction name (first + 1) left (made + 1) n outcome) :
    Ends t transaction name first (left + 1) made (n + 1) outcome := by
  cases hrest with
  | done hn hearlier hdone =>
      rw [Nat.add_right_comm] at hdone
      exact .done (Nat.succ_le_succ hn) (.cons h htransient hearlier) hdone
  | permanent hn hearlier herror hpermanent =>
      rw [Nat.add_right_comm] at herror
      exact .permanent (Nat.succ_le_succ hn) (.cons h htransient hearlier) herror hpermanent
  | exhausted hearlier herror =>
      rw [Nat.add_right_comm] at herror
      rw [Nat.add_right_comm made]
      exact .exhausted (.cons h htransient hearlier) herror
  | late hn hearlier =>
      rw [Nat.add_right_comm made]
      exact .late (Nat.succ_lt_succ hn) (.cons h htransient hearlier)
  | overflow hn hearlier => exact .overflow (Nat.succ_lt_succ hn) (.cons h htransient hearlier)

/-- All attempts but the last fail in passing. -/
theorem earlier (h : Ends t transaction name first left made n outcome) :
    FailsInPassing t transaction first (n - 1) := by
  cases h with
  | done _ hearlier => exact hearlier
  | permanent _ hearlier => exact hearlier
  | exhausted hearlier => exact fun k hk => hearlier k (Nat.lt_succ_of_lt hk)
  | late _ hearlier => exact fun k hk => hearlier k (Nat.lt_succ_of_lt hk)
  | overflow _ hearlier => exact fun k hk => hearlier k (Nat.lt_succ_of_lt hk)

end Ends

/-- A store that has reported that an attempt has failed and that another one is to follow. -/
def retryReported (s : Store) (name : String) (made : Nat) (delay : Span) (e : StoreError) :
    Store :=
  { s with events := s.events
      ++ [Retry.retryEvent name (made + 1) s.settings.retry.attemptLimit delay e.message] }

/-- An attempt that fails in passing is reported. A pause follows, and then the other attempts, if
the pause ends before the deadline and the next one has a length. -/
theorem attemptFrom_failing (hopen : s.closed = false)
    (h : transaction.after p.pauses s.table = .error e) (htransient : isTransient e = true)
    (name : String) (left made n : Nat) (delay : Span) :
    Retry.attemptFrom (plan s.settings name) (surroundings transaction).counting (left + 1) made
        delay (n, s, p)
      = match p.pause? delay with
        | none => (.failed (.cancelled name (made + 1) .deadlineExceeded), n + 1,
            s.retryReported name made delay e, p)
        | some p' =>
          match s.settings.retry.nextDelay? delay with
          | none => (.overflow, n + 1, s.retryReported name made delay e, p')
          | some following =>
            Retry.attemptFrom (plan s.settings name) (surroundings transaction).counting left
              (made + 1) following (n + 1, s.retryReported name made delay e, p') := by
  rw [Retry.attemptFrom, Retry.counting_attempt_ok (attempt_error hopen h)]
  simp only [plan, htransient, Bool.not_true, Bool.false_eq_true, if_false,
    Retry.counting_report, report_apply, Retry.counting_pause]
  cases hpause : p.pause? delay with
  | none =>
      rw [pause_none hpause]
      rfl
  | some p' =>
      rw [pause_some hpause]
      rfl

/-- The last attempt fails in passing, and there are no more. -/
theorem attemptFrom_failing_last (hopen : s.closed = false)
    (h : transaction.after p.pauses s.table = .error e) (htransient : isTransient e = true)
    (name : String) (made n : Nat) (delay : Span) :
    Retry.attemptFrom (plan s.settings name) (surroundings transaction).counting 0 made delay
        (n, s, p) = (.failed (.exhausted (made + 1) e), n + 1, s, p) := by
  rw [Retry.attemptFrom, Retry.counting_attempt_ok (attempt_error hopen h)]
  simp only [plan, htransient, Bool.not_true, Bool.false_eq_true, if_false]

/-- An operation gets through these pauses before its deadline. -/
def Progress.Outlasts (p : Progress) (delays : List Span) : Prop :=
  delays = [] ∨ (delays.map Retry.timerMillis).sum < p.left

instance (p : Progress) (delays : List Span) : Decidable (p.Outlasts delays) :=
  inferInstanceAs (Decidable (_ ∨ _))

theorem Progress.Outlasts.pause {delay : Span} {delays : List Span}
    (h : p.Outlasts (delay :: delays)) :
    ∃ p', p.pause? delay = some p' ∧ p'.pauses = p.pauses + 1 ∧ p'.Outlasts delays := by
  have hsum := h.resolve_left (List.cons_ne_nil _ _)
  rw [List.map_cons, List.sum_cons] at hsum
  exact ⟨_, Progress.pause?_eq_some.2 ⟨by omega, rfl⟩, rfl, Or.inr (by dsimp only; omega)⟩

theorem Progress.Outlasts.of_pause {p' : Progress} {delay : Span} {delays : List Span}
    (hpause : p.pause? delay = some p') (h : p'.Outlasts delays) :
    p.Outlasts (delay :: delays) := by
  obtain ⟨hdelay, rfl⟩ := Progress.pause?_eq_some.1 hpause
  refine Or.inr ?_
  rw [List.map_cons, List.sum_cons]
  rcases h with rfl | hsum
  · rwa [List.map_nil, List.sum_nil, Nat.add_zero]
  · dsimp only at hsum
    omega

/-- Attempts that keep failing in passing go on until they are used up, if there is time for all
pauses between them: the induction is on the attempts that are left. -/
theorem attemptFrom_exhausted (hopen : s.closed = false) (name : String) {left : Nat}
    {f : Nat → StoreError}
    (hfails : ∀ k ≤ left, transaction.after (p.pauses + k) s.table = .error (f k) ∧
      isTransient (f k) = true) {delay : Span} {delays : List Span}
    (hdelays : s.settings.retry.delaysFrom? left delay = some delays)
    (hpauses : p.Outlasts (delays.take left)) (made n : Nat) :
    ∃ after, Retry.attemptFrom (plan s.settings name) (surroundings transaction).counting left made
        delay (n, s, p)
      = (.failed (.exhausted (made + left + 1) (f left)), n + left + 1, after) := by
  obtain ⟨herror, htransient⟩ := hfails 0 (Nat.zero_le _)
  induction left generalizing made n delay delays f s p with
  | zero => exact ⟨_, attemptFrom_failing_last hopen herror htransient name made n delay⟩
  | succ left ih =>
      obtain ⟨following, hnext, hrest⟩ := Option.bind_eq_some_iff.1 hdelays
      obtain ⟨rest, hrest', hcons⟩ := Option.bind_eq_some_iff.1 hrest
      cases hcons
      rw [List.take_succ_cons] at hpauses
      obtain ⟨p', hpause, hp', houtlasts⟩ := hpauses.pause
      rw [attemptFrom_failing hopen herror htransient, hpause]
      simp only [hnext]
      have hlater : ∀ k ≤ left, transaction.after (p'.pauses + k) s.table
          = .error (f (k + 1)) ∧ isTransient (f (k + 1)) = true := by
        intro k hk
        rw [hp', Nat.add_right_comm]
        exact hfails (k + 1) (Nat.succ_le_succ hk)
      obtain ⟨after, hrun⟩ := ih (s := s.retryReported name made delay (f 0))
        (f := fun k => f (k + 1)) hopen hlater hrest' houtlasts (made + 1) (n + 1)
        (hlater 0 (Nat.zero_le _)).1 (hlater 0 (Nat.zero_le _)).2
      refine ⟨after, hrun.trans ?_⟩
      rw [Nat.add_right_comm made, Nat.add_right_comm n]
      rfl

/-- If there is not, the deadline comes while one of the pauses lasts. -/
theorem attemptFrom_late (hopen : s.closed = false) (name : String) {left : Nat}
    (hfails : ∀ k ≤ left, ∃ e, transaction.after (p.pauses + k) s.table = .error e ∧
      isTransient e = true) {delay : Span} {delays : List Span}
    (hdelays : s.settings.retry.delaysFrom? left delay = some delays)
    (hpauses : ¬ p.Outlasts (delays.take left)) (made n : Nat) :
    ∃ m k after, Retry.attemptFrom (plan s.settings name) (surroundings transaction).counting left
        made delay (n, s, p) = (.failed (.cancelled name m .deadlineExceeded), k, after) := by
  obtain ⟨e, herror, htransient⟩ := hfails 0 (Nat.zero_le _)
  induction left generalizing made n delay delays e s p with
  | zero => exact absurd (Or.inl rfl) hpauses
  | succ left ih =>
      obtain ⟨following, hnext, hrest⟩ := Option.bind_eq_some_iff.1 hdelays
      obtain ⟨rest, hrest', hcons⟩ := Option.bind_eq_some_iff.1 hrest
      cases hcons
      rw [List.take_succ_cons] at hpauses
      rw [attemptFrom_failing hopen herror htransient]
      cases hpause : p.pause? delay with
      | none => exact ⟨_, _, _, rfl⟩
      | some p' =>
          simp only [hnext]
          have hlater : ∀ k ≤ left, ∃ e, transaction.after (p'.pauses + k) s.table = .error e ∧
              isTransient e = true := by
            intro k hk
            rw [(Progress.pause?_eq_some.1 hpause).2, Nat.add_right_comm]
            exact hfails (k + 1) (Nat.succ_le_succ hk)
          obtain ⟨e', herror', htransient'⟩ := hlater 0 (Nat.zero_le _)
          exact ih (s := s.retryReported name made delay e) hopen hlater hrest'
            (fun h => hpauses (h.of_pause hpause)) (made + 1) (n + 1) e' herror' htransient'

/-! ## Transactions -/

/-- The answer of a transaction that is retried. -/
def answerOf : Retry.Outcome StoreError α → Except Abort α
  | .done a => .ok a
  | .failed failure => .error (.failed (ofFailure failure))
  | .overflow => .error .overflow

/-- The answer and the number of attempts are those of one run. -/
theorem retrying_of_counting {outcome : Retry.Outcome StoreError α} {k : Nat} {after : Store}
    {p' : Progress}
    (h : Retry.run (plan s.settings name) (surroundings transaction).counting (0, s, p)
      = (outcome, k, after, p')) :
    s.attempts p name transaction = k ∧ s.perform (retryingFrom name p transaction)
      = ((answerOf outcome).map (·, p'), after) := by
  refine ⟨congrArg (·.2.1) h, ?_⟩
  obtain ⟨houtcome, hafter⟩ := Retry.run_agree (Retry.counting_agree (surroundings transaction))
    (plan s.settings name) (s := (s, p)) (t := (0, s, p)) rfl
  rw [h] at houtcome hafter
  have hrun : Retry.run (plan s.settings name) (surroundings transaction) (s, p)
      = (outcome, after, p') := Prod.ext houtcome.eq hafter.symm
  rw [retryingFrom, perform_bind_ok (perform_getThe s), hrun]
  cases outcome with
  | done a => rfl
  | failed failure => rfl
  | overflow => rfl

/-- A store that is shut down attempts nothing. -/
theorem attempts_closed (hclosed : s.closed = true) (p : Progress) (name : String)
    (transaction : Transaction α) : s.attempts p name transaction = 0 := by
  have hrun : Retry.run (plan s.settings name) (surroundings transaction).counting (0, s, p)
      = (.failed (.cancelled name 0 .cancelled), 0, s, p) := by
    rw [Retry.run, Retry.attemptFrom.eq_def,
      Retry.counting_attempt_error (attempt_closed hclosed)]
    rfl
  exact (retrying_of_counting hrun).1

/-- How a transaction that is retried ends, and after how many attempts: there are none in a store
that is shut down. -/
inductive Tried (s : Store) (p : Progress) (name : String) (transaction : Transaction α) :
    Nat → Except Abort α → Prop
  | closed (hclosed : s.closed = true) :
    Tried s p name transaction 0 (.error (.failed (.cancelled name .cancelled)))
  | ended {n : Nat} {outcome : Retry.Outcome StoreError α} (hopen : s.closed = false)
      (h : Ends s.table transaction name p.pauses (s.settings.retry.attemptLimit - 1) 0 n outcome) :
    Tried s p name transaction n (answerOf outcome)

namespace Tried

variable {n : Nat} {answer : Except Abort α}

/-- All attempts but the last fail for reasons that pass by themselves. -/
theorem earlier (h : Tried s p name transaction n answer) :
    FailsInPassing s.table transaction p.pauses (n - 1) := by
  cases h with
  | closed => exact failsInPassing_zero _ _ _
  | ended _ h => exact h.earlier

end Tried

/-- What keeps failing in passing is attempted as often as the settings allow, if the pauses can be
computed and end in time. -/
theorem attempts_exhausted (hopen : s.closed = false) {failure : Nat → StoreError}
    (hfails : ∀ k < s.settings.retry.attemptLimit,
      transaction.after (p.pauses + k) s.table = .error (failure k) ∧
        isTransient (failure k) = true) {delays : List Span}
    (hdelays : s.settings.retry.delaysFrom? (s.settings.retry.attemptLimit - 1)
      s.settings.retry.firstDelay = some delays)
    (hpauses : p.Outlasts (delays.take (s.settings.retry.attemptLimit - 1))) (name : String) :
    s.attempts p name transaction = s.settings.retry.attemptLimit ∧
      (s.perform (retryingFrom name p transaction)).1 = .error (.failed (.retryExhausted
        s.settings.retry.attemptLimit (failure (s.settings.retry.attemptLimit - 1)).message)) := by
  have hlimit : s.settings.retry.attemptLimit - 1 + 1 = s.settings.retry.attemptLimit :=
    Nat.sub_add_cancel (Nat.le_max_right _ _)
  obtain ⟨⟨after, p'⟩, hrun⟩ := attemptFrom_exhausted hopen name
    (fun k hk => hfails k (by omega)) hdelays hpauses 0 0
  obtain ⟨hattempts, hperform⟩ := retrying_of_counting (p := p) hrun
  rw [hattempts, hperform, Nat.zero_add, hlimit]
  exact ⟨rfl, rfl⟩

/-- If there is no time for the pauses, the operation is called off. -/
theorem retrying_late (hopen : s.closed = false)
    (hfails : ∀ k < s.settings.retry.attemptLimit, ∃ e,
      transaction.after (p.pauses + k) s.table = .error e ∧ isTransient e = true)
    {delays : List Span}
    (hdelays : s.settings.retry.delaysFrom? (s.settings.retry.attemptLimit - 1)
      s.settings.retry.firstDelay = some delays)
    (hpauses : ¬ p.Outlasts (delays.take (s.settings.retry.attemptLimit - 1))) (name : String) :
    (s.perform (retryingFrom name p transaction)).1
      = .error (.failed (.cancelled name .deadlineExceeded)) := by
  have hlimit : s.settings.retry.attemptLimit - 1 + 1 = s.settings.retry.attemptLimit :=
    Nat.sub_add_cancel (Nat.le_max_right _ _)
  obtain ⟨m, k, ⟨after, p'⟩, hrun⟩ := attemptFrom_late hopen name
    (fun k hk => hfails k (by omega)) hdelays hpauses 0 0
  rw [(retrying_of_counting (p := p) hrun).2]
  rfl

/-! ## Operations -/

/-- A store as an operation finds it: no events have been reported. -/
def cleared (s : Store) : Store := { s with events := [] }

/-- How often an operation attempts what it asks of the table. -/
def attemptsOf (s : Store) (now : Timestamp) (operation : Operation) : Nat :=
  match operation.name?, s.cleared.task? now operation with
  | some name, some task => s.attempts (s.progressOf operation) name task.transaction
  | _, _ => 0

variable {t : Store} {now : Timestamp} {operation : Operation}

theorem step_of_perform {answer : Except Abort Answer}
    (h : s.cleared.perform (run now operation) = (answer, t)) :
    s.step now operation = (answer, { t with events := [] }, t.events) := by
  have hstep : s.step now operation = ((s.cleared.perform (run now operation)).1,
      { (s.cleared.perform (run now operation)).2 with events := [] },
      (s.cleared.perform (run now operation)).2.events) := rfl
  rw [hstep, h]

/-- A bad argument is the answer, whatever the table is. -/
theorem step_of_fault {e : Abort} (hname : operation.name? = some name)
    (hfault : operation.fault? s.cipher = some e) : (s.step now operation).1 = .error e := by
  cases requested s.cleared now hname with
  | refused e' nonces hfault' htask hrun =>
      have he : e' = e := Option.some.inj (hfault'.symm.trans hfault)
      rw [step_of_perform hrun, he]
  | asks task nonces rest hfault' htask hrun => cases hfault'.symm.trans hfault

end Store

end ChatArchive
