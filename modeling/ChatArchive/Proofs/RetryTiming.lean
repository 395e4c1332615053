import ChatArchive.Proofs.RetryVerdict

/-!
# A retried operation keeps its time

The pauses of a policy are fixed before it is used: the first is the initial delay, each
of the others follows from the one before it, and the maximum bounds them all. A run keeps
the pauses that lie between its attempts and no other, and it ends no later than the
operation's time is over, however long an attempt or a pause would have lasted. All of
this is read off `Concluded`, which knows the time at which a run ends.
-/

namespace ChatArchive

open Time

namespace RetryPolicy

variable {p : RetryPolicy} {a b : Span}

theorem nanos_min_le (a b : Span) : (a.min b).nanos ≤ b.nanos := by
  rw [Span.min]
  split
  · next h => exact h
  · exact Nat.le_refl _

theorem nanos_nextDelay_le (h : p.nextDelay? a = some b) : b.nanos ≤ p.maxDelay.nanos := by
  obtain ⟨product, -, rfl⟩ := Option.map_eq_some_iff.1 h
  exact nanos_min_le product _

/-- No pause is longer than the maximum, if the first is not. -/
theorem nanos_delaysFrom_le {count : Nat} {delay : Span} {delays : List Span}
    (h : p.delaysFrom? count delay = some delays) (hdelay : delay.nanos ≤ p.maxDelay.nanos) :
    ∀ d ∈ delays, d.nanos ≤ p.maxDelay.nanos := by
  induction count generalizing delay delays with
  | zero =>
      cases h
      exact List.forall_mem_singleton.2 hdelay
  | succ count ih =>
      obtain ⟨following, hnext, h⟩ := Option.bind_eq_some_iff.1 h
      obtain ⟨rest, hrest, h⟩ := Option.bind_eq_some_iff.1 h
      cases h
      exact List.forall_mem_cons.2 ⟨hdelay, ih hrest (nanos_nextDelay_le hnext)⟩

/-- The pauses that a policy allows for. -/
structure HasDelays (p : RetryPolicy) (delays : List Span) : Prop where
  length : delays.length = max p.maxAttempts.toNat 1
  first : delays[0]? = some ((Span.ofMillis p.initialDelayMs).min (Span.ofMillis p.maxDelayMs))
  next : ∀ k a b, delays[k]? = some a → delays[k + 1]? = some b → p.nextDelay? a = some b
  bounded : ∀ d ∈ delays, d.nanos ≤ (Span.ofMillis p.maxDelayMs).nanos

theorem hasDelays {delays : List Span}
    (h : p.delaysFrom? (p.attemptLimit - 1) p.firstDelay = some delays) :
    p.HasDelays delays := by
  obtain ⟨hlength, hfirst, hstep⟩ := delaysFrom?_spec h
  have hlimit : 1 ≤ p.attemptLimit := Nat.le_max_right _ _
  refine ⟨?_, hfirst, ?_, nanos_delaysFrom_le h (nanos_min_le _ _)⟩
  · show delays.length = p.attemptLimit
    omega
  · intro k a b ha hb
    obtain ⟨hk, -⟩ := List.getElem?_eq_some_iff.1 hb
    obtain ⟨c, d, hc, hd, hnext⟩ := hstep k (by omega)
    rw [ha] at hc
    rw [hb] at hd
    cases hc
    cases hd
    exact hnext

end RetryPolicy

namespace Retry.Rehearsal

variable {α : Type} {plan : Plan String} {delays : List Span} {r : Rehearsal α}
  {begun : List (Begun α)}

/-- What holds of each attempt holds of those before the last. -/
theorem each_take {P : List (Begun α) → Begun α → Prop} {k : Nat} {b : Begun α}
    (h : Each P begun) (hb : begun[k]? = some b) : P (begun.take k) b := by
  obtain ⟨hk, rfl⟩ := List.getElem?_eq_some_iff.1 hb
  refine h _ _ (begun.drop (k + 1)) ?_
  rw [← List.drop_eq_getElem_cons hk, List.take_append_drop]

/-- An attempt that follows another begins when the pause after that is over. -/
theorem pause_between {earlier : List (Begun α)} {last a b : Begun α} {k : Nat}
    (hretried : Each (r.Retries plan) earlier)
    (hpaced : Each (fun earlier b => r.IsDue delays earlier b.time) (earlier ++ [last]))
    (ha : (earlier ++ [last])[k]? = some a) (hb : (earlier ++ [last])[k + 1]? = some b) :
    ∃ delay, delays[k]? = some delay ∧ r.Retries plan ((earlier ++ [last]).take k) a ∧
      b.time = a.due + timerMillis delay := by
  have hk : k < earlier.length := by
    obtain ⟨hk, -⟩ := List.getElem?_eq_some_iff.1 hb
    rw [List.length_append, List.length_singleton] at hk
    omega
  have hdue := each_take hpaced hb
  have htake : (earlier ++ [last]).take (k + 1) = earlier.take k ++ [a] := by
    rw [List.take_add_one, ha, List.take_append_of_le_length (Nat.le_of_lt hk)]
    rfl
  rw [htake, isDue_concat, List.length_take_of_le (Nat.le_of_lt hk)] at hdue
  obtain ⟨delay, hdelay, htime⟩ := hdue
  rw [List.getElem?_append_left hk] at ha
  rw [List.take_append_of_le_length (Nat.le_of_lt hk)]
  exact ⟨delay, hdelay, each_take hretried ha, htime⟩

/-- A run that was not called off ends when its last attempt has completed, and only a run
that has attempts left can be called off. -/
theorem Closing.finish_eq {earlier : List (Begun α)} {b : Begun α}
    {outcome : Outcome String α} {finish : Nat}
    (h : Closing plan delays r earlier b outcome finish)
    (hlimit : earlier.length + 1 ≤ plan.policy.attemptLimit) :
    finish = b.due ∨ ∃ n < plan.policy.attemptLimit,
      outcome = .failed (.cancelled plan.operation n (r.reason (earlier ++ [b]))) := by
  cases h with
  | done hcompletes hresult => exact Or.inl rfl
  | permanent hcompletes hresult hpermanent => exact Or.inl rfl
  | exhausted hretries hresult hlast => exact Or.inl rfl
  | pending hpending hfinish => exact Or.inr ⟨_, hlimit, rfl⟩
  | pausing hretries hleft hdelay hover hfinish => exact Or.inr ⟨_, hleft, rfl⟩

/-- A run ends no later than the operation's time. -/
theorem Closing.finish_le {earlier : List (Begun α)} {b : Begun α}
    {outcome : Outcome String α} {finish t : Nat}
    (h : Closing plan delays r earlier b outcome finish)
    (hopen : ¬ r.IsOver earlier b.time) (ht : r.IsOver (earlier ++ [b]) t) : finish ≤ t := by
  cases h with
  | done hcompletes hresult => exact hcompletes.due_le hopen ht
  | permanent hcompletes hresult hpermanent => exact hcompletes.due_le hopen ht
  | exhausted hretries hresult hlimit => exact hretries.1.due_le hopen ht
  | pending hpending hfinish => exact hfinish t ht
  | pausing hretries hlimit hdelay hover hfinish => exact hfinish t ht

/-- A run keeps its time: an attempt that follows another begins exactly when the pause
after that is over, nothing is waited for after the last attempt, and the run ends no
later than the operation's time. The deadline is the millisecond at which its timer
fires. -/
theorem run_keeps_time (plan : Plan String) (delays : List Span)
    (hdelays : plan.policy.delaysFrom? (plan.policy.attemptLimit - 1) plan.policy.firstDelay
      = some delays)
    (script : List (ScriptedAttempt α)) (hscript : script ≠ []) (cancelAt : Option Nat)
    (cancelled : Bool) (deadline : Nat) :
    let r := start script cancelAt cancelled deadline
    let w := (run plan surroundings r).2
    let begun := r.begunBy w.callTimes
    plan.policy.HasDelays delays ∧
    (∀ k a b, begun[k]? = some a → begun[k + 1]? = some b →
      ∃ delay, delays[k]? = some delay ∧ r.Retries plan (begun.take k) a ∧
        b.time = a.due + timerMillis delay) ∧
    (∀ last, begun.getLast? = some last → w.now = last.due ∨
      ∃ n < max plan.policy.maxAttempts.toNat 1, (run plan surroundings r).1
        = .failed (.cancelled plan.operation n (r.reason begun))) ∧
    ∀ t, r.IsOver begun t → w.now ≤ t := by
  intro r w begun
  refine ⟨RetryPolicy.hasDelays hdelays, ?_⟩
  have hconcluded : Concluded plan delays r (run plan surroundings r).1 w :=
    concluded_run hscript hdelays cancelAt cancelled deadline
  have hbegun : begun = r.begunBy w.callTimes := rfl
  clear_value begun w
  revert hconcluded
  generalize (run plan surroundings r).1 = outcome
  intro hconcluded
  cases hconcluded with
  | refused hover =>
      rw [begunBy, if_pos hover] at hbegun
      subst hbegun
      refine ⟨fun k a b ha => ?_, fun last hlast => ?_, fun t _ => Nat.zero_le t⟩
      · cases ha
      · cases hlast
  | closed earlier last hplayed hlimit hopened hpaced hretried hclosing =>
      have hopen : ¬ r.IsOver [] r.now := not_isOver_outset
        (List.append_ne_nil_of_right_ne_nil _ (List.cons_ne_nil _ _)) hopened hpaced
      rw [begunBy, if_neg hopen, hplayed] at hbegun
      subst hbegun
      refine ⟨fun k a b => pause_between hretried hpaced, fun last' hlast => ?_, fun t ht => ?_⟩
      · rw [List.getLast?_concat] at hlast
        cases hlast
        exact hclosing.finish_eq hlimit
      · exact hclosing.finish_le (hopened earlier last [] rfl) ht

/-- An attempt that is busy for a while, and one that hangs. -/
def hungScript : List (ScriptedAttempt Nat) :=
  [⟨false, some 30, .error "busy"⟩, ⟨false, some 100000, .ok 7⟩]

theorem hungScript_keeps_time :
    busyPlan.policy.HasDelays [.ofMillis 100, .ofMillis 200, .ofMillis 400] ∧
    (run busyPlan surroundings (start hungScript none false 500)).2.now ≤ 500 := by
  obtain ⟨hdelays, -, -, hfinish⟩ := run_keeps_time busyPlan
    [.ofMillis 100, .ofMillis 200, .ofMillis 400] (by decide +kernel) hungScript
    (List.cons_ne_nil _ _) none false 500
  exact ⟨hdelays, hfinish 500 (Or.inr (Or.inl (Nat.le_refl 500)))⟩

end Retry.Rehearsal

end ChatArchive
