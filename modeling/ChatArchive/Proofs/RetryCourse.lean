import ChatArchive.Proofs.Sequencing
import ChatArchive.Retry.Rehearsal

/-!
# The course of a retried operation

A rehearsal ends with the times of its calls, and what the calls were is read off the
script: the `k`-th plays the `k`-th attempt, and the last attempt repeats. When the
operation's time is over is a question to its deadline, to the cancellation from outside
and to the attempts begun so far, some of which cancel it themselves. So `IsOver` and
`Completes` speak of nothing but the start of a rehearsal and the attempts that were
begun, and whatever is said about a run is said in these terms.

The loop is followed once. `Underway` is what holds whenever an attempt is due: the
attempts so far have completed with failures that are worth another attempt, each began
when the pause before it was over, and the state of the rehearsal is known from them.
`Concluded` lists the six ways in which a run ends there. One round of the loop either
concludes the run or leads to the next attempt that is due, and by induction on the
attempts that are left every run is concluded.
-/

namespace ChatArchive

open Time

namespace RetryPolicy

variable {p : RetryPolicy}

/-- The pauses of a policy: the first is given, and each of the others follows from the
one before it. -/
theorem delaysFrom?_spec {count : Nat} {delay : Span} {delays : List Span}
    (h : p.delaysFrom? count delay = some delays) :
    delays.length = count + 1 ∧ delays[0]? = some delay ∧
      ∀ k < count, ∃ a b, delays[k]? = some a ∧ delays[k + 1]? = some b ∧
        p.nextDelay? a = some b := by
  induction count generalizing delay delays with
  | zero =>
      cases h
      exact ⟨rfl, rfl, fun k hk => absurd hk (Nat.not_lt_zero k)⟩
  | succ count ih =>
      obtain ⟨following, hnext, h⟩ := Option.bind_eq_some_iff.1 h
      obtain ⟨rest, hrest, h⟩ := Option.bind_eq_some_iff.1 h
      cases h
      obtain ⟨hlength, hhead, hstep⟩ := ih hrest
      refine ⟨by rw [List.length_cons, hlength], rfl, fun k hk => ?_⟩
      cases k with
      | zero => exact ⟨delay, following, rfl, hhead, hnext⟩
      | succ k => exact hstep k (Nat.lt_of_succ_lt_succ hk)

end RetryPolicy

namespace Retry

variable {α : Type}

/-- How long an attempt takes if nothing interrupts it. -/
def ScriptedAttempt.millis (a : ScriptedAttempt α) : Nat := a.duration.getD 0

/-- An attempt that was begun, and when. -/
structure Begun (α : Type) where
  time : Nat
  attempt : ScriptedAttempt α

/-- When it completes if nothing interrupts it. -/
def Begun.due (b : Begun α) : Nat := b.time + b.attempt.millis

/-- What holds of each attempt in view of those before it. -/
def Each (P : List (Begun α) → Begun α → Prop) (begun : List (Begun α)) : Prop :=
  ∀ earlier b later, begun = earlier ++ b :: later → P earlier b

theorem each_nil (P : List (Begun α) → Begun α → Prop) : Each P [] :=
  fun earlier _ _ h => absurd h.symm
    (List.append_ne_nil_of_right_ne_nil earlier (List.cons_ne_nil _ _))

theorem each_concat {P : List (Begun α) → Begun α → Prop} {begun : List (Begun α)}
    {b : Begun α} (h : Each P begun) (hb : P begun b) : Each P (begun ++ [b]) := by
  intro earlier c later heq
  rcases List.eq_nil_or_concat later with rfl | ⟨later, last, rfl⟩
  · obtain ⟨rfl, hlast⟩ := List.append_inj' heq rfl
    cases hlast
    exact hb
  · have hsplit : begun ++ [b] = (earlier ++ c :: later) ++ [last] := by
      rw [heq, List.concat_eq_append, List.append_assoc, List.cons_append]
    exact h earlier c later (List.append_inj' hsplit rfl).1

/-- The attempts that a script has due at these times, the last one repeating. -/
def begunAt : List (ScriptedAttempt α) → List Nat → List (Begun α)
  | _, [] => []
  | script, t :: times =>
    match Rehearsal.nextAttempt script with
    | some (a, rest) => ⟨t, a⟩ :: begunAt rest times
    | none => []

theorem nextAttempt_ok {script : List (ScriptedAttempt α)} (h : script ≠ []) :
    ∃ a rest, Rehearsal.nextAttempt script = some (a, rest) ∧ rest ≠ [] := by
  cases script with
  | nil => exact absurd rfl h
  | cons a script =>
      cases script with
      | nil => exact ⟨a, [a], rfl, List.cons_ne_nil _ _⟩
      | cons b rest => exact ⟨a, b :: rest, rfl, List.cons_ne_nil _ _⟩

theorem map_time_begunAt {script : List (ScriptedAttempt α)} (h : script ≠ [])
    (times : List Nat) : (begunAt script times).map (·.time) = times := by
  induction times generalizing script with
  | nil => rfl
  | cons t times ih =>
      obtain ⟨a, rest, hnext, hrest⟩ := nextAttempt_ok h
      rw [begunAt, hnext]
      exact congrArg (t :: ·) (ih hrest)

namespace Rehearsal

/-- A rehearsal at time zero: its script, when it is cancelled from outside, whether it
is cancelled already, and its deadline. -/
def start (script : List (ScriptedAttempt α)) (cancelAt : Option Nat) (cancelled : Bool)
    (deadline : Nat) : Rehearsal α :=
  ⟨0, script, cancelAt, cancelled, deadline, [], []⟩

/-- The operation's time is over at an instant, given the attempts begun before: it was
cancelled beforehand, its deadline has passed, or it was cancelled from outside or by one
of the attempts. -/
def IsOver (r : Rehearsal α) (begun : List (Begun α)) (t : Nat) : Prop :=
  r.cancelled = true ∨ r.deadline ≤ t ∨ (∃ c ∈ r.cancelAt, c ≤ t) ∨
    ∃ b ∈ begun, b.attempt.cancels = true ∧ b.time ≤ t

instance (r : Rehearsal α) (begun : List (Begun α)) (t : Nat) :
    Decidable (r.IsOver begun t) :=
  inferInstanceAs (Decidable (_ ∨ _ ∨ (∃ c ∈ r.cancelAt, c ≤ t) ∨ _))

/-- The attempts that a rehearsal with these call times has begun. A call that is made
while the operation's time is over already begins none. -/
def begunBy (r : Rehearsal α) (times : List Nat) : List (Begun α) :=
  if r.IsOver [] r.now then [] else begunAt r.script times

/-- Why the operation's time is over when it is: a deadline that nothing has come before
is exceeded. -/
def reason (r : Rehearsal α) (begun : List (Begun α)) : CancelReason :=
  if r.cancelled || r.cancelAt.any (· ≤ r.deadline) || begun.any (·.attempt.cancels) then
    .cancelled
  else .deadlineExceeded

/-- An attempt completes at once, or the operation's time is not over when it is due. -/
def Completes (r : Rehearsal α) (earlier : List (Begun α)) (b : Begun α) : Prop :=
  b.attempt.millis = 0 ∨ ¬ r.IsOver (earlier ++ [b]) b.due

instance (r : Rehearsal α) (earlier : List (Begun α)) (b : Begun α) :
    Decidable (r.Completes earlier b) := inferInstanceAs (Decidable (_ ∨ _))

/-- An attempt completes with a failure that is worth another attempt. -/
def Retries (plan : Plan String) (r : Rehearsal α) (earlier : List (Begun α))
    (b : Begun α) : Prop :=
  r.Completes earlier b ∧ ∃ e, b.attempt.result = .error e ∧ plan.isTransient e = true

/-- An attempt may begin at an instant: the first at once, any other when the pause after
the last one is over. -/
def IsDue (r : Rehearsal α) (delays : List Span) (earlier : List (Begun α)) (t : Nat) :
    Prop :=
  match earlier.getLast? with
  | none => t = r.now
  | some b => ∃ delay, delays[earlier.length - 1]? = some delay ∧ t = b.due + timerMillis delay

theorem isDue_concat {r : Rehearsal α} {delays : List Span} {earlier : List (Begun α)}
    {b : Begun α} {t : Nat} :
    r.IsDue delays (earlier ++ [b]) t ↔
      ∃ delay, delays[earlier.length]? = some delay ∧ t = b.due + timerMillis delay := by
  rw [IsDue, List.getLast?_concat, List.length_append, List.length_singleton,
    Nat.add_sub_cancel]

/-! ## The clock -/

variable {r r₀ : Rehearsal α} {begun : List (Begun α)} {t ms : Nat}

theorem finish_le_iff (ht : r.now ≤ t) :
    r.finish.1 ≤ t ↔ r.cancelled = true ∨ r.deadline ≤ t ∨ ∃ c ∈ r.cancelAt, c ≤ t := by
  rw [finish]
  cases hcancelled : r.cancelled with
  | true =>
      refine iff_of_true ?_ (Or.inl rfl)
      rw [if_pos rfl]
      show (if r.now ≤ max r.now r.deadline then _ else _ : Nat × CancelReason).1 ≤ t
      rw [if_pos (Nat.le_max_left _ _)]
      exact ht
  | false =>
      cases hcancel : r.cancelAt with
      | none => simp; omega
      | some c =>
          simp only [Bool.false_eq_true, if_false, Option.map_some, Option.mem_def,
            Option.some.injEq, exists_eq_left', false_or]
          split <;> omega

theorem finish_reason (hdeadline : r.now ≤ r.deadline) :
    r.finish.2 = r.reason [] := by
  rw [finish, reason]
  cases hcancelled : r.cancelled with
  | true =>
      show (if r.now ≤ max r.now r.deadline then _ else _ : Nat × CancelReason).2 = .cancelled
      rw [if_pos (Nat.le_max_left _ _)]
  | false =>
      cases hcancel : r.cancelAt with
      | none => simp
      | some c =>
          have hmax : max r.now c ≤ max r.now r.deadline ↔ c ≤ r.deadline := by omega
          by_cases hc : c ≤ r.deadline <;> simp [hmax, hc]

theorem waitFor_over (h : r.finish.1 ≤ r.now + ms) :
    r.waitFor ms = (some r.finish.2, { r with now := r.finish.1 }) := if_pos h

theorem waitFor_open (h : ¬ r.finish.1 ≤ r.now + ms) :
    r.waitFor ms = (none, { r with now := r.now + ms }) := if_neg h

/-- A state of a rehearsal in which these attempts have been begun: all that its clock
depends on is known from them. -/
structure Follows (r₀ : Rehearsal α) (begun : List (Begun α)) (r : Rehearsal α) : Prop where
  cancelAt : r.cancelAt = r₀.cancelAt
  deadline : r.deadline = r₀.deadline
  cancelled : r.cancelled = (r₀.cancelled || begun.any (·.attempt.cancels))
  past : ∀ b ∈ begun, b.time ≤ r.now
  inTime : r.now ≤ r.deadline

theorem Follows.finish_le_iff (h : Follows r₀ begun r) (ht : r.now ≤ t) :
    r.finish.1 ≤ t ↔ r₀.IsOver begun t := by
  rw [Rehearsal.finish_le_iff ht, h.cancelled, h.deadline, h.cancelAt, IsOver,
    Bool.or_eq_true, List.any_eq_true]
  constructor
  · rintro ((hr | ⟨b, hb, hcancels⟩) | hd | hc)
    · exact Or.inl hr
    · exact Or.inr (Or.inr (Or.inr ⟨b, hb, hcancels, Nat.le_trans (h.past b hb) ht⟩))
    · exact Or.inr (Or.inl hd)
    · exact Or.inr (Or.inr (Or.inl hc))
  · rintro (hr | hd | hc | ⟨b, hb, hcancels, -⟩)
    · exact Or.inl (Or.inl hr)
    · exact Or.inr (Or.inl hd)
    · exact Or.inr (Or.inr hc)
    · exact Or.inl (Or.inr ⟨b, hb, hcancels⟩)

theorem Follows.reason (h : Follows r₀ begun r) : r.finish.2 = r₀.reason begun := by
  rw [finish_reason h.inTime, Rehearsal.reason, Rehearsal.reason, h.cancelled, h.deadline,
    h.cancelAt, List.any_nil, Bool.or_false]
  congr 1
  rw [Bool.or_assoc, Bool.or_comm (begun.any _), ← Bool.or_assoc]

/-- The clock may go on until the operation's time is over. -/
theorem Follows.wait (h : Follows r₀ begun r) (hopen : ¬ r₀.IsOver begun t)
    (ht : r.now ≤ t) : Follows r₀ begun { r with now := t } := by
  refine ⟨h.cancelAt, h.deadline, h.cancelled, fun b hb => Nat.le_trans (h.past b hb) ht, ?_⟩
  have hdeadline : ¬ r₀.deadline ≤ t := fun hd => hopen (Or.inr (Or.inl hd))
  show t ≤ r.deadline
  rw [h.deadline]
  omega

/-- The state in which an attempt is begun. -/
def beginning (r : Rehearsal α) (a : ScriptedAttempt α) (rest : List (ScriptedAttempt α)) :
    Rehearsal α :=
  { r with
    callTimes := r.callTimes ++ [r.now]
    script := rest
    cancelled := r.cancelled || a.cancels }

theorem Follows.beginning (h : Follows r₀ begun r) (a : ScriptedAttempt α)
    (rest : List (ScriptedAttempt α)) :
    Follows r₀ (begun ++ [⟨r.now, a⟩]) (r.beginning a rest) := by
  refine ⟨h.cancelAt, h.deadline, ?_, ?_, h.inTime⟩
  · show (r.cancelled || a.cancels) = _
    rw [h.cancelled, List.any_append, List.any_cons, List.any_nil, Bool.or_false, Bool.or_assoc]
  · intro b hb
    rcases List.mem_append.1 hb with hb | hb
    · exact h.past b hb
    · rw [List.mem_singleton.1 hb]
      exact Nat.le_refl _

theorem Follows.withEvents (h : Follows r₀ begun r) (events : List Event) :
    Follows r₀ begun { r with events := events } :=
  ⟨h.cancelAt, h.deadline, h.cancelled, h.past, h.inTime⟩

/-! ## One attempt -/

theorem attempt_refused (h : r.finish.1 ≤ r.now) :
    r.attempt = (.error r.finish.2, { r with callTimes := r.callTimes ++ [r.now] }) := if_pos h

theorem attempt_begun {a : ScriptedAttempt α} {rest : List (ScriptedAttempt α)}
    (hopen : ¬ r.finish.1 ≤ r.now) (hnext : nextAttempt r.script = some (a, rest)) :
    r.attempt = if a.millis = 0 then (.ok a.result, r.beginning a rest)
      else match (r.beginning a rest).waitFor a.millis with
        | (some reason, r) => (.error reason, r)
        | (none, r) => (.ok a.result, r) := by
  rw [attempt]
  dsimp only
  rw [if_neg hopen, hnext]
  dsimp only
  rw [ScriptedAttempt.millis]
  cases a.duration with
  | none => rfl
  | some ms =>
      cases ms with
      | zero => rfl
      | succ ms => rfl

/-- An attempt that is begun while the operation's time is not over either completes when
it is due or is cut off when the operation's time is over. -/
theorem Follows.attempt (h : Follows r₀ begun r) {a : ScriptedAttempt α}
    {rest : List (ScriptedAttempt α)} (hopen : ¬ r₀.IsOver begun r.now)
    (hnext : nextAttempt r.script = some (a, rest)) :
    (r₀.Completes begun ⟨r.now, a⟩ ∧
      r.attempt = (.ok a.result, { r.beginning a rest with now := r.now + a.millis })) ∨
    (¬ r₀.Completes begun ⟨r.now, a⟩ ∧
      r.attempt = (.error (r₀.reason (begun ++ [⟨r.now, a⟩])),
        { r.beginning a rest with now := (r.beginning a rest).finish.1 })) := by
  have hbegun := h.beginning a rest
  rw [attempt_begun (by rwa [h.finish_le_iff (Nat.le_refl _)]) hnext]
  have hiff : (r.beginning a rest).finish.1 ≤ r.now + a.millis ↔
      r₀.IsOver (begun ++ [⟨r.now, a⟩]) (r.now + a.millis) :=
    hbegun.finish_le_iff (Nat.le_add_right _ _)
  by_cases hzero : a.millis = 0
  · rw [if_pos hzero, hzero]
    exact Or.inl ⟨Or.inl hzero, rfl⟩
  · rw [if_neg hzero]
    by_cases hover : r₀.IsOver (begun ++ [⟨r.now, a⟩]) (r.now + a.millis)
    · rw [waitFor_over (hiff.2 hover), hbegun.reason]
      refine Or.inr ⟨?_, rfl⟩
      rintro (hz | hopen)
      · exact hzero hz
      · exact hopen hover
    · rw [waitFor_open (fun hle => hover (hiff.1 hle))]
      exact Or.inl ⟨Or.inr hover, rfl⟩

/-! ## The loop -/

theorem IsOver.mono {r : Rehearsal α} {t t' : Nat} (h : r.IsOver begun t) (ht : t ≤ t') :
    r.IsOver begun t' := by
  rcases h with hr | hd | ⟨c, hc, hct⟩ | ⟨b, hb, hcancels, hbt⟩
  · exact Or.inl hr
  · exact Or.inr (Or.inl (Nat.le_trans hd ht))
  · exact Or.inr (Or.inr (Or.inl ⟨c, hc, Nat.le_trans hct ht⟩))
  · exact Or.inr (Or.inr (Or.inr ⟨b, hb, hcancels, Nat.le_trans hbt ht⟩))

/-- An attempt that was begun in time ends the operation's time no earlier than it
began. -/
theorem IsOver.time_le {r : Rehearsal α} {earlier : List (Begun α)} {b : Begun α}
    (hopen : ¬ r.IsOver earlier b.time) (h : r.IsOver (earlier ++ [b]) t) : b.time ≤ t := by
  apply Decidable.byContradiction
  intro hlt
  refine hopen (IsOver.mono (t := t) ?_ (by omega))
  rcases h with hr | hd | hc | ⟨c, hc, hcancels, hct⟩
  · exact Or.inl hr
  · exact Or.inr (Or.inl hd)
  · exact Or.inr (Or.inr (Or.inl hc))
  · rcases List.mem_append.1 hc with hc | hc
    · exact Or.inr (Or.inr (Or.inr ⟨c, hc, hcancels, hct⟩))
    · rw [List.mem_singleton.1 hc] at hct
      exact absurd hct hlt

theorem Completes.due_le {r : Rehearsal α} {earlier : List (Begun α)} {b : Begun α}
    (hcompletes : r.Completes earlier b) (hopen : ¬ r.IsOver earlier b.time)
    (h : r.IsOver (earlier ++ [b]) t) : b.due ≤ t := by
  rcases hcompletes with hzero | hdue
  · rw [Begun.due, hzero]
    exact h.time_le hopen
  · apply Decidable.byContradiction
    intro hlt
    exact hdue (h.mono (by omega))

/-- The state in which an attempt that was begun has completed. -/
theorem Follows.complete (h : Follows r₀ begun r) {a : ScriptedAttempt α}
    (rest : List (ScriptedAttempt α)) (hcompletes : r₀.Completes begun ⟨r.now, a⟩) :
    Follows r₀ (begun ++ [⟨r.now, a⟩])
      { r.beginning a rest with now := r.now + a.millis } := by
  rcases hcompletes with hzero | hopen
  · rw [show a.millis = 0 from hzero, Nat.add_zero]
    exact h.beginning a rest
  · exact (h.beginning a rest).wait hopen (Nat.le_add_right _ _)

/-- What holds when an attempt is due. -/
structure Underway (plan : Plan String) (delays : List Span) (r₀ : Rehearsal α)
    (begun : List (Begun α)) (r : Rehearsal α) : Prop where
  follows : Follows r₀ begun r
  script : r.script ≠ []
  scripted : ∀ times, begunAt r₀.script (r.callTimes ++ times) = begun ++ begunAt r.script times
  retried : Each (r₀.Retries plan) begun
  opened : Each (fun earlier b => ¬ r₀.IsOver earlier b.time) begun
  paced : Each (fun earlier b => r₀.IsDue delays earlier b.time) begun
  due : r₀.IsDue delays begun r.now
  first : r = r₀ ∧ begun = [] ∨ ¬ r₀.IsOver begun r.now

/-- How a run ends with an attempt that was begun: after it has completed, or with the
operation's time over while it is pending or in the pause after it. -/
inductive Closing (plan : Plan String) (delays : List Span) (r₀ : Rehearsal α)
    (earlier : List (Begun α)) (b : Begun α) : Outcome String α → (finish : Nat) → Prop
  | done {a : α} (hcompletes : r₀.Completes earlier b) (hresult : b.attempt.result = .ok a) :
      Closing plan delays r₀ earlier b (.done a) b.due
  | permanent {e : String} (hcompletes : r₀.Completes earlier b)
      (hresult : b.attempt.result = .error e) (hpermanent : plan.isTransient e = false) :
      Closing plan delays r₀ earlier b (.failed (.permanent e)) b.due
  | exhausted {e : String} (hretries : r₀.Retries plan earlier b)
      (hresult : b.attempt.result = .error e)
      (hlimit : earlier.length + 1 = plan.policy.attemptLimit) :
      Closing plan delays r₀ earlier b (.failed (.exhausted (earlier.length + 1) e)) b.due
  | pending {finish : Nat} (hpending : ¬ r₀.Completes earlier b)
      (hfinish : ∀ t, r₀.IsOver (earlier ++ [b]) t → finish ≤ t) :
      Closing plan delays r₀ earlier b (.failed (.cancelled plan.operation earlier.length
        (r₀.reason (earlier ++ [b])))) finish
  | pausing {finish : Nat} {delay : Span} (hretries : r₀.Retries plan earlier b)
      (hlimit : earlier.length + 1 < plan.policy.attemptLimit)
      (hdelay : delays[earlier.length]? = some delay)
      (hover : r₀.IsOver (earlier ++ [b]) (b.due + timerMillis delay))
      (hfinish : ∀ t, r₀.IsOver (earlier ++ [b]) t → finish ≤ t) :
      Closing plan delays r₀ earlier b (.failed (.cancelled plan.operation
        (earlier.length + 1) (r₀.reason (earlier ++ [b])))) finish

/-- How a run ends: no attempt is begun because the operation's time is over at the
outset, or the attempt begun last is the one that it ends with. -/
inductive Concluded (plan : Plan String) (delays : List Span) (r₀ : Rehearsal α) :
    Outcome String α → Rehearsal α → Prop
  | refused (hover : r₀.IsOver [] r₀.now) :
      Concluded plan delays r₀ (.failed (.cancelled plan.operation 0 (r₀.reason [])))
        { r₀ with callTimes := r₀.callTimes ++ [r₀.now] }
  | closed {outcome : Outcome String α} {r : Rehearsal α} (earlier : List (Begun α))
      (b : Begun α) (hbegun : begunAt r₀.script r.callTimes = earlier ++ [b])
      (hlimit : earlier.length + 1 ≤ plan.policy.attemptLimit)
      (hopened : Each (fun earlier b => ¬ r₀.IsOver earlier b.time) (earlier ++ [b]))
      (hpaced : Each (fun earlier b => r₀.IsDue delays earlier b.time) (earlier ++ [b]))
      (hretried : Each (r₀.Retries plan) earlier)
      (hclosing : Closing plan delays r₀ earlier b outcome r.now) :
      Concluded plan delays r₀ outcome r

variable {plan : Plan String} {delays : List Span}

theorem Underway.begunAt_next (h : Underway plan delays r₀ begun r) {a : ScriptedAttempt α}
    {rest : List (ScriptedAttempt α)} (hnext : nextAttempt r.script = some (a, rest))
    (times : List Nat) :
    begunAt r₀.script (r.callTimes ++ [r.now] ++ times)
      = (begun ++ [⟨r.now, a⟩]) ++ begunAt rest times := by
  rw [List.append_assoc, h.scripted, List.singleton_append, begunAt, hnext, List.append_assoc]
  rfl

/-- A run that ends with the attempt that is due. -/
theorem Underway.close (h : Underway plan delays r₀ begun r) {a : ScriptedAttempt α}
    {rest : List (ScriptedAttempt α)} (hnext : nextAttempt r.script = some (a, rest))
    (hopen : ¬ r₀.IsOver begun r.now) (hlimit : begun.length + 1 ≤ plan.policy.attemptLimit)
    {last : Rehearsal α} (hcalls : last.callTimes = r.callTimes ++ [r.now])
    {outcome : Outcome String α}
    (hclosing : Closing plan delays r₀ begun ⟨r.now, a⟩ outcome last.now) :
    Concluded plan delays r₀ outcome last := by
  refine .closed begun ⟨r.now, a⟩ ?_ hlimit (each_concat h.opened hopen)
    (each_concat h.paced h.due) h.retried hclosing
  have hbegun := h.begunAt_next hnext []
  rw [List.append_nil, begunAt, List.append_nil] at hbegun
  rw [hcalls]
  exact hbegun

/-- An attempt is due again when a pause was kept to its end. -/
theorem Underway.again (h : Underway plan delays r₀ begun r) {a : ScriptedAttempt α}
    {rest : List (ScriptedAttempt α)} (hnext : nextAttempt r.script = some (a, rest))
    (hrest : rest ≠ []) (hopen : ¬ r₀.IsOver begun r.now)
    (hretries : r₀.Retries plan begun ⟨r.now, a⟩) {delay : Span}
    (hdelay : delays[begun.length]? = some delay)
    (hpause : ¬ r₀.IsOver (begun ++ [⟨r.now, a⟩]) (r.now + a.millis + timerMillis delay))
    (events : List Event) :
    Underway plan delays r₀ (begun ++ [⟨r.now, a⟩])
      { r.beginning a rest with
        now := r.now + a.millis + timerMillis delay, events := events } := by
  have hfollows := (h.follows.beginning a rest).wait hpause
    (Nat.le_trans (Nat.le_add_right _ _) (Nat.le_add_right _ _))
  refine ⟨⟨hfollows.cancelAt, hfollows.deadline, hfollows.cancelled, hfollows.past,
    hfollows.inTime⟩, hrest, h.begunAt_next hnext, each_concat h.retried hretries,
    each_concat h.opened hopen, each_concat h.paced h.due, ?_, Or.inr hpause⟩
  exact isDue_concat.2 ⟨delay, hdelay, rfl⟩

/-- One round of the loop: it ends the run, or the attempt that was due has failed and is
worth another one. -/
theorem Underway.round (h : Underway plan delays r₀ begun r)
    (hlimit : begun.length + 1 ≤ plan.policy.attemptLimit) (left : Nat) (delay : Span) :
    Concluded plan delays r₀ (attemptFrom plan surroundings left begun.length delay r).1
      (attemptFrom plan surroundings left begun.length delay r).2 ∨
    ∃ a rest e, nextAttempt r.script = some (a, rest) ∧ rest ≠ [] ∧
      ¬ r₀.IsOver begun r.now ∧ r₀.Completes begun ⟨r.now, a⟩ ∧ a.result = .error e ∧
      plan.isTransient e = true ∧
      r.attempt = (.ok (.error e), { r.beginning a rest with now := r.now + a.millis }) := by
  by_cases hover : r₀.IsOver begun r.now
  · obtain ⟨rfl, rfl⟩ := h.first.resolve_right (not_not_intro hover)
    left
    have hrefused := (h.follows.finish_le_iff (Nat.le_refl _)).2 hover
    unfold attemptFrom
    simp only [surroundings, attempt_refused hrefused, h.follows.reason]
    exact .refused hover
  · obtain ⟨a, rest, hnext, hrest⟩ := nextAttempt_ok h.script
    rcases h.follows.attempt hover hnext with ⟨hcompletes, hattempt⟩ | ⟨hpending, hattempt⟩
    · cases hresult : a.result with
      | ok v =>
          left
          unfold attemptFrom
          simp only [surroundings, hattempt, hresult]
          exact h.close hnext hover hlimit rfl (.done hcompletes hresult)
      | error e =>
          cases htransient : plan.isTransient e with
          | false =>
              left
              unfold attemptFrom
              simp only [surroundings, hattempt, hresult, htransient]
              exact h.close hnext hover hlimit rfl (.permanent hcompletes hresult htransient)
          | true =>
              right
              rw [hresult] at hattempt
              exact ⟨a, rest, e, hnext, hrest, hover, hcompletes, hresult, htransient, hattempt⟩
    · left
      unfold attemptFrom
      simp only [surroundings, hattempt]
      refine h.close hnext hover hlimit rfl (.pending hpending fun t ht => ?_)
      exact ((h.follows.beginning a rest).finish_le_iff (ht.time_le hover)).2 ht

/-- Wherever it is, a run comes to its end. The induction is on the attempts that are
left, of which a round uses up one. -/
theorem Underway.concluded
    (hdelays : plan.policy.delaysFrom? (plan.policy.attemptLimit - 1) plan.policy.firstDelay
      = some delays)
    {left : Nat} {delay : Span} (h : Underway plan delays r₀ begun r)
    (hleft : begun.length + 1 + left = plan.policy.attemptLimit)
    (hdelay : delays[begun.length]? = some delay) :
    Concluded plan delays r₀ (attemptFrom plan surroundings left begun.length delay r).1
      (attemptFrom plan surroundings left begun.length delay r).2 := by
  induction left generalizing begun r delay with
  | zero =>
      rcases h.round (by omega) 0 delay with hconcluded | ⟨a, rest, e, hnext, hrest, hopen,
        hcompletes, hresult, htransient, hattempt⟩
      · exact hconcluded
      · unfold attemptFrom
        simp only [surroundings, hattempt, htransient]
        exact h.close hnext hopen (by omega) rfl
          (.exhausted ⟨hcompletes, e, hresult, htransient⟩ hresult hleft)
  | succ left ih =>
      rcases h.round (by omega) (left + 1) delay with hconcluded | ⟨a, rest, e, hnext, hrest,
        hopen, hcompletes, hresult, htransient, hattempt⟩
      · exact hconcluded
      · have hretries : r₀.Retries plan begun ⟨r.now, a⟩ :=
          ⟨hcompletes, e, hresult, htransient⟩
        let event := retryEvent plan.operation (begun.length + 1) plan.policy.attemptLimit
          delay (plan.text e)
        have hfollows := (h.follows.complete rest hcompletes).withEvents
          ((r.beginning a rest).events ++ [event])
        have hiff := hfollows.finish_le_iff (Nat.le_add_right _ (timerMillis delay))
        obtain ⟨-, -, hstep⟩ := RetryPolicy.delaysFrom?_spec hdelays
        obtain ⟨d, following, hd, hfollowing, hnextDelay⟩ := hstep begun.length (by omega)
        rw [hdelay] at hd
        cases hd
        rw [attemptFrom]
        simp only [surroundings, hattempt, htransient, Bool.not_true, Bool.false_eq_true,
          if_false]
        by_cases hover : r₀.IsOver (begun ++ [⟨r.now, a⟩])
          (r.now + a.millis + timerMillis delay)
        · rw [waitFor_over (hiff.2 hover), hfollows.reason]
          refine h.close hnext hopen (by omega) rfl
            (.pausing hretries (by omega) hdelay hover fun t ht => ?_)
          exact (hfollows.finish_le_iff (hcompletes.due_le hopen ht)).2 ht
        · rw [waitFor_open (fun hle => hover (hiff.1 hle))]
          simp only [hnextDelay]
          have hagain := h.again hnext hrest hopen hretries hdelay hover
            ((r.beginning a rest).events ++ [event])
          have hlength : (begun ++ [(⟨r.now, a⟩ : Begun α)]).length = begun.length + 1 :=
            List.length_append
          rw [← hlength] at hfollowing
          have hrun := ih hagain (by omega) hfollowing
          rw [hlength] at hrun
          exact hrun

/-- Where an attempt was begun in time, the operation's time was not over at the
outset. -/
theorem not_isOver_outset (hne : begun ≠ [])
    (hopened : Each (fun earlier b => ¬ r₀.IsOver earlier b.time) begun)
    (hpaced : Each (fun earlier b => r₀.IsDue delays earlier b.time) begun) :
    ¬ r₀.IsOver [] r₀.now := by
  obtain ⟨b, later, rfl⟩ := List.exists_cons_of_ne_nil hne
  have hfirst : b.time = r₀.now := hpaced [] b later rfl
  rw [← hfirst]
  exact hopened [] b later rfl

/-- A run of a script is concluded, if none of the pauses that it may keep is too long for
a span. -/
theorem concluded_run {script : List (ScriptedAttempt α)} (hscript : script ≠ [])
    (hdelays : plan.policy.delaysFrom? (plan.policy.attemptLimit - 1) plan.policy.firstDelay
      = some delays)
    (cancelAt : Option Nat) (cancelled : Bool) (deadline : Nat) :
    Concluded plan delays (start script cancelAt cancelled deadline)
      (run plan surroundings (start script cancelAt cancelled deadline)).1
      (run plan surroundings (start script cancelAt cancelled deadline)).2 := by
  have hlimit : 1 ≤ plan.policy.attemptLimit := Nat.le_max_right _ _
  have hunderway : Underway plan delays (start script cancelAt cancelled deadline) []
      (start script cancelAt cancelled deadline) :=
    ⟨⟨rfl, rfl, (Bool.or_false _).symm, fun _ hb => absurd hb List.not_mem_nil,
      Nat.zero_le _⟩, hscript, fun _ => rfl, each_nil _, each_nil _, each_nil _, rfl,
      Or.inl ⟨rfl, rfl⟩⟩
  exact hunderway.concluded hdelays (by rw [List.length_nil]; omega)
    (RetryPolicy.delaysFrom?_spec hdelays).2.1

end Rehearsal

end Retry

end ChatArchive
