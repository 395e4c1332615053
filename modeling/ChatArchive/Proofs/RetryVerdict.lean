import ChatArchive.Proofs.RetryCourse

/-!
# Every outcome of a retried operation is justified

A retried operation ends in one of four ways, and each of them says something about the
attempts that were begun: which of them have completed, with what, and whether the
operation's time was over before the next one. `Justified` puts down what each outcome
says. The main theorem is an equivalence: a run ends with an outcome exactly if the
outcome is justified by the attempts that the run has begun.

That a run's outcome is justified is read off `Concluded`. That it is the only one is a
matter of `Justified` alone, since the last attempt begun decides between the outcomes:
`verdict` is the outcome that it decides for.
-/

namespace ChatArchive.Retry.Rehearsal

open Time

variable {α : Type} {plan : Plan String} {delays : List Span} {r : Rehearsal α}
  {begun : List (Begun α)}

deriving instance DecidableEq for Outcome

/-- What an outcome says about the attempts that were begun. -/
def Justified (plan : Plan String) (delays : List Span) (r : Rehearsal α)
    (begun : List (Begun α)) : Outcome String α → Prop
  | .done a => ∃ earlier last, begun = earlier ++ [last] ∧ Each (r.Retries plan) earlier ∧
      r.Completes earlier last ∧ last.attempt.result = .ok a
  | .failed (.permanent e) => ∃ earlier last, begun = earlier ++ [last] ∧
      Each (r.Retries plan) earlier ∧ r.Completes earlier last ∧
      last.attempt.result = .error e ∧ plan.isTransient e = false
  | .failed (.exhausted n e) => n = begun.length ∧ n = max plan.policy.maxAttempts.toNat 1 ∧
      Each (r.Retries plan) begun ∧ ∃ last ∈ begun.getLast?, last.attempt.result = .error e
  | .failed (.cancelled operation n reason) =>
      operation = plan.operation ∧ reason = r.reason begun ∧
      -- before the first attempt
      (begun = [] ∧ n = 0 ∧ r.IsOver [] r.now ∨
        ∃ earlier last, begun = earlier ++ [last] ∧ Each (r.Retries plan) earlier ∧
          -- while an attempt was pending
          (n = earlier.length ∧ ¬ r.Completes earlier last ∨
          -- before the pause after an attempt was over
          n = begun.length ∧ n < max plan.policy.maxAttempts.toNat 1 ∧
            r.Retries plan earlier last ∧ ∃ delay, delays[earlier.length]? = some delay ∧
              r.IsOver begun (last.due + timerMillis delay)))
  | .overflow => False

/-- The outcome that the last attempt begun decides for. -/
def verdict (plan : Plan String) (r : Rehearsal α) (begun : List (Begun α)) :
    Outcome String α :=
  match begun.getLast? with
  | none => .failed (.cancelled plan.operation 0 (r.reason begun))
  | some last =>
    if r.Completes begun.dropLast last then
      match last.attempt.result with
      | .ok a => .done a
      | .error e =>
        if !plan.isTransient e then .failed (.permanent e)
        else if begun.length < plan.policy.attemptLimit then
          .failed (.cancelled plan.operation begun.length (r.reason begun))
        else .failed (.exhausted begun.length e)
    else .failed (.cancelled plan.operation begun.dropLast.length (r.reason begun))

theorem verdict_concat (earlier : List (Begun α)) (last : Begun α) :
    verdict plan r (earlier ++ [last])
      = if r.Completes earlier last then
          match last.attempt.result with
          | .ok a => .done a
          | .error e =>
            if !plan.isTransient e then .failed (.permanent e)
            else if earlier.length + 1 < plan.policy.attemptLimit then
              .failed (.cancelled plan.operation (earlier.length + 1)
                (r.reason (earlier ++ [last])))
            else .failed (.exhausted (earlier.length + 1) e)
        else .failed (.cancelled plan.operation earlier.length (r.reason (earlier ++ [last]))) := by
  rw [verdict, List.getLast?_concat, List.dropLast_concat, List.length_append,
    List.length_singleton]

/-- Attempts that were all worth another one end with such an attempt. -/
theorem retries_of_each_concat {earlier : List (Begun α)} {last : Begun α}
    (h : Each (r.Retries plan) (earlier ++ [last])) : r.Retries plan earlier last :=
  h earlier last [] rfl

theorem Justified.eq_verdict {outcome : Outcome String α}
    (h : Justified plan delays r begun outcome) : outcome = verdict plan r begun := by
  match outcome with
  | .done a =>
      obtain ⟨earlier, last, rfl, -, hcompletes, hresult⟩ := h
      rw [verdict_concat, if_pos hcompletes, hresult]
  | .failed (.permanent e) =>
      obtain ⟨earlier, last, rfl, -, hcompletes, hresult, hpermanent⟩ := h
      rw [verdict_concat, if_pos hcompletes, hresult]
      simp only [hpermanent, Bool.not_false, if_true]
  | .failed (.exhausted n e) =>
      obtain ⟨rfl, hlimit, hretries, last, hlast, hresult⟩ := h
      obtain ⟨earlier, rfl⟩ := List.getLast?_eq_some_iff.1 hlast
      obtain ⟨hcompletes, e', hresult', htransient⟩ := retries_of_each_concat hretries
      rw [hresult] at hresult'
      cases hresult'
      have hlimit : (earlier ++ [last]).length = plan.policy.attemptLimit := hlimit
      rw [List.length_append, List.length_singleton] at hlimit
      rw [verdict_concat, if_pos hcompletes, hresult, List.length_append]
      simp only [htransient, Bool.not_true, Bool.false_eq_true, if_false, hlimit,
        Nat.lt_irrefl, List.length_singleton]
  | .failed (.cancelled operation n reason) =>
      obtain ⟨rfl, rfl, h⟩ := h
      rcases h with ⟨rfl, rfl, -⟩ | ⟨earlier, last, rfl, -, ⟨rfl, hpending⟩ |
        ⟨hn, hlimit, ⟨hcompletes, e, hresult, htransient⟩, -⟩⟩
      · rfl
      · rw [verdict_concat, if_neg hpending]
      · rw [List.length_append, List.length_singleton] at hn
        have hlimit : earlier.length + 1 < plan.policy.attemptLimit := hn ▸ hlimit
        rw [verdict_concat, if_pos hcompletes, hresult, hn]
        simp only [htransient, Bool.not_true, Bool.false_eq_true, if_false, hlimit, if_true]

/-- The attempts begun by a run that is concluded: how many there are, that each began in
time, and that they justify the outcome. -/
theorem Concluded.justified {outcome : Outcome String α} {w : Rehearsal α}
    (h : Concluded plan delays r outcome w) (hstart : r.callTimes = []) :
    (r.begunBy w.callTimes).length ≤ plan.policy.attemptLimit ∧
      Each (fun earlier b => ¬ r.IsOver earlier b.time) (r.begunBy w.callTimes) ∧
      (r.IsOver [] r.now → w = { r with callTimes := [r.now] }) ∧
      Justified plan delays r (r.begunBy w.callTimes) outcome := by
  cases h with
  | refused hover =>
      rw [begunBy, if_pos hover]
      refine ⟨Nat.zero_le _, each_nil _, fun _ => ?_, rfl, rfl, Or.inl ⟨rfl, rfl, hover⟩⟩
      rw [hstart, List.nil_append]
  | closed earlier b hbegun hlimit hopened hpaced hretried hclosing =>
      have hne : earlier ++ [b] ≠ [] := List.append_ne_nil_of_right_ne_nil _ (List.cons_ne_nil _ _)
      have hlength : (earlier ++ [b]).length = earlier.length + 1 := List.length_append
      have hopen : ¬ r.IsOver [] r.now := not_isOver_outset hne hopened hpaced
      rw [begunBy, if_neg hopen, hbegun, hlength]
      refine ⟨hlimit, hopened, fun hover => absurd hover hopen, ?_⟩
      generalize w.now = finish at hclosing
      cases hclosing with
      | done hcompletes hresult => exact ⟨earlier, b, rfl, hretried, hcompletes, hresult⟩
      | permanent hcompletes hresult hpermanent =>
          exact ⟨earlier, b, rfl, hretried, hcompletes, hresult, hpermanent⟩
      | exhausted hretries hresult hlimit =>
          exact ⟨hlength.symm, hlimit, each_concat hretried hretries, b,
            List.getLast?_concat, hresult⟩
      | pending hpending hfinish =>
          exact ⟨rfl, rfl, Or.inr ⟨earlier, b, rfl, hretried, Or.inl ⟨rfl, hpending⟩⟩⟩
      | pausing hretries hlimit hdelay hover hfinish =>
          exact ⟨rfl, rfl, Or.inr ⟨earlier, b, rfl, hretried, Or.inr ⟨hlength.symm, hlimit,
            hretries, _, hdelay, hover⟩⟩⟩

/-- The attempts that a run begins are no more than its policy allows, none of them begins
while the operation's time is over, and they justify the outcome of the run and no other.
Where the operation's time is over at the outset, nothing happens. -/
theorem outcome_iff_justified (plan : Plan String) (delays : List Span)
    (hdelays : plan.policy.delaysFrom? (plan.policy.attemptLimit - 1) plan.policy.firstDelay
      = some delays)
    (script : List (ScriptedAttempt α)) (hscript : script ≠ []) (cancelAt : Option Nat)
    (cancelled : Bool) (deadline : Nat) :
    let r := start script cancelAt cancelled deadline
    let w := (run plan surroundings r).2
    let begun := r.begunBy w.callTimes
    (if r.IsOver [] 0 then w = { r with callTimes := [0] }
      else begun.map (·.time) = w.callTimes) ∧
    begun.length ≤ max plan.policy.maxAttempts.toNat 1 ∧
    Each (fun earlier b => ¬ r.IsOver earlier b.time) begun ∧
    ∀ outcome, (run plan surroundings r).1 = outcome ↔ Justified plan delays r begun outcome := by
  intro r w begun
  obtain ⟨hlimit, hopened, hrefused, hjustified⟩ :=
    (concluded_run hscript hdelays cancelAt cancelled deadline).justified rfl
  refine ⟨?_, hlimit, hopened, fun outcome => ⟨fun h => h ▸ hjustified, fun h => ?_⟩⟩
  · by_cases hover : r.IsOver [] 0
    · rw [if_pos hover]
      exact hrefused hover
    · rw [if_neg hover]
      show (r.begunBy w.callTimes).map (·.time) = w.callTimes
      rw [begunBy, if_neg (show ¬ r.IsOver [] r.now from hover)]
      exact map_time_begunAt hscript _
  · rw [h.eq_verdict]
    exact hjustified.eq_verdict

/-- Attempts under the standard policy, failures that say `busy` being worth another. -/
def busyPlan : Plan String := ⟨.standard, "save", (· == "busy"), id⟩

/-- An attempt that is busy for a while, and one that cancels the operation and succeeds
at once. -/
def busyScript : List (ScriptedAttempt Nat) :=
  [⟨false, some 30, .error "busy"⟩, ⟨true, none, .ok 7⟩]

theorem justified_busyScript :
    Justified busyPlan [.ofMillis 100, .ofMillis 200, .ofMillis 400]
      (start busyScript none false 1000)
      [⟨0, ⟨false, some 30, .error "busy"⟩⟩, ⟨130, ⟨true, none, .ok 7⟩⟩] (.done 7) := by
  obtain ⟨-, -, -, hiff⟩ := outcome_iff_justified busyPlan
    [.ofMillis 100, .ofMillis 200, .ofMillis 400] (by decide +kernel) busyScript
    (List.cons_ne_nil _ _) none false 1000
  have hcalls : (run busyPlan surroundings (start busyScript none false 1000)).2.callTimes
      = [0, 130] := by decide +kernel
  rw [hcalls] at hiff
  exact (hiff (.done 7)).1 (by decide +kernel)

end ChatArchive.Retry.Rehearsal
