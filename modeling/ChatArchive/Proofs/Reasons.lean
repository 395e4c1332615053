import ChatArchive.Proofs.Cancellation

/-!
# Whether a scope keeps its reason

A scope does not record why it is over: each question looks at the tokens and the clock
again, at the tokens first. A scope that is over stays over, and a cancellation is never
taken back, so it stays the reason once it is. A deadline is the reason only until the
scope is cancelled.
-/

namespace ChatArchive.Retry

/-- A step that asks why the scope of a name is over, at once or as soon as it is. -/
inductive ScopeStep.Asks (name : String) : ScopeStep → Prop
  | finished : Asks name (.finished name)
  | wait : Asks name (.wait name)

namespace Scopes

variable {past past' : List ScopeStep} {name : String} {step : ScopeStep} {d : Derivation}

/-! ## Time and cancellations go on -/

theorem now_mono (h : past <:+ past') : (after past).now ≤ (after past').now := by
  induction past' with
  | nil => rw [List.suffix_nil.1 h]
  | cons step past' ih =>
      rcases List.suffix_cons_iff.1 h with rfl | h
      · exact Nat.le_refl _
      · rw [after_cons]
        exact (ih h).trans (now_le_step _ step)

/-- A scope that is over. -/
def Over (past : List ScopeStep) (d : Derivation) : Prop :=
  Reached past d ∨ d.due ≤ (after past).now

theorem Over.mono (h : Over past d) (hpast : past <:+ past') : Over past' d :=
  h.imp (fun hreached => hreached.mono hpast) fun hdue => hdue.trans (now_mono hpast)

/-! ## Asking changes no reason -/

theorem derivationOf_asks (hasks : step.Asks name) (other : String) :
    derivationOf (step :: past) other = derivationOf past other := by
  cases hasks <;> rfl

theorem reached_asks (hasks : step.Asks name) : Reached (step :: past) d ↔ Reached past d := by
  refine happened_cons.trans (or_iff_right fun hcancels => ?_)
  cases hasks <;> cases hcancels

/-- An answer is the reason that is there once it has been given. -/
theorem answerTo_asks (h : derivationOf past name = some d) (hasks : step.Asks name) :
    answerTo past step = answer ((after (step :: past)).finished d.scope) := by
  have hscope : (after past).scope? name = some d.scope := by
    rw [scope?_after, h]
    rfl
  rw [after_cons, answerTo]
  cases hasks <;> rw [Scopes.step, hscope]

/-- A scope answers with a reason exactly if it is over by then, and the reason is that it
was cancelled if it was. -/
theorem answerTo_asks_iff (h : derivationOf past name = some d) (hasks : step.Asks name)
    (r : CancelReason) :
    answerTo past step = .reason r ↔
      Over (step :: past) d ∧ (r = .cancelled ↔ Reached past d) := by
  have h' : derivationOf (step :: past) name = some d := (derivationOf_asks hasks name).trans h
  have hreached : (after (step :: past)).isCancelled d.scope = true ↔ Reached past d :=
    (isCancelled_iff_reached h').trans (reached_asks hasks)
  rw [answerTo_asks h hasks, answer_eq_reason, Over, reached_asks hasks]
  cases r with
  | cancelled =>
      rw [finished_eq_cancelled, hreached]
      simp only [true_iff]
      exact ⟨fun hr => ⟨Or.inl hr, hr⟩, And.right⟩
  | deadlineExceeded =>
      rw [finished_eq_deadlineExceeded, hreached]
      simp only [reduceCtorEq, false_iff]
      exact ⟨fun hr => ⟨Or.inr hr.2, hr.1⟩, fun hr => ⟨hr.2, hr.1.resolve_left hr.2⟩⟩

/-- Once a scope has answered with a reason, every later question about it or a copy of it,
at once or waiting, is answered with a reason: that it was cancelled if this was the reason
before, or if some step since has cancelled it, and otherwise its deadline as before. -/
theorem reason_changes_by_cancelling_only (past past' : List ScopeStep) (step step' : ScopeStep)
    (name name' : String) (d : Derivation) (r : CancelReason) (hasks : step.Asks name)
    (hasks' : step'.Asks name') (h : derivationOf past name = some d)
    (h' : derivationOf past' name' = some d) (hlater : step :: past <:+ past')
    (hr : answerTo past step = .reason r) :
    ∃ r', answerTo past' step' = .reason r' ∧
      (r' = .cancelled ↔ r = .cancelled ∨
        Happened past' fun last before => step :: past <:+ before ∧ Cancels d before last) := by
  obtain ⟨hover, hreason⟩ := (answerTo_asks_iff h hasks r).1 hr
  have hover' : Over (step' :: past') d :=
    hover.mono (hlater.trans (List.suffix_cons step' past'))
  have hsince : Reached past' d ↔ r = .cancelled ∨
      Happened past' fun last before => step :: past <:+ before ∧ Cancels d before last := by
    rw [Reached, happened_iff_since hlater, hreason]
    exact or_congr_left (reached_asks hasks)
  rw [← hsince]
  by_cases hreached : Reached past' d
  · exact ⟨.cancelled, (answerTo_asks_iff h' hasks' _).2 ⟨hover', iff_of_true rfl hreached⟩,
      iff_of_true rfl hreached⟩
  · have hne : CancelReason.deadlineExceeded ≠ .cancelled := by decide
    exact ⟨.deadlineExceeded,
      (answerTo_asks_iff h' hasks' _).2 ⟨hover', iff_of_false hne hreached⟩,
      iff_of_false hne hreached⟩

/-- The deadline of a scope has passed. -/
def pastDeadline : List ScopeStep := [.advance 11, .derive "a" 10 none]

/-- The scope is found to be over, and a copy of it is cancelled. -/
def cancelledLate : List ScopeStep :=
  .cancel "b" :: .copy "b" "a" :: .finished "a" :: pastDeadline

theorem reason_changes_in_cancelledLate :
    answerTo pastDeadline (.finished "a") = .reason .deadlineExceeded ∧
      ∃ r, answerTo cancelledLate (.wait "b") = .reason r ∧ r = .cancelled := by
  have hr : answerTo pastDeadline (.finished "a") = .reason .deadlineExceeded := by decide
  have hlater : .finished "a" :: pastDeadline <:+ cancelledLate :=
    ⟨[.cancel "b", .copy "b" "a"], rfl⟩
  obtain ⟨r, hr', hchanges⟩ := reason_changes_by_cancelling_only pastDeadline cancelledLate
    (.finished "a") (.wait "b") "a" "b" ⟨[], 10, none⟩ .deadlineExceeded .finished .wait rfl rfl
    hlater hr
  refine ⟨hr, r, hr', hchanges.2 (Or.inr ?_)⟩
  exact ⟨.cancel "b", _, List.suffix_rfl, ⟨[.copy "b" "a"], rfl⟩, rfl⟩

/-- So the reason that a scope has answered with is not the reason for good. -/
theorem reason_not_for_good :
    ¬ ∀ (past past' : List ScopeStep) (step step' : ScopeStep) (name name' : String)
        (d : Derivation) (r : CancelReason), step.Asks name → step'.Asks name' →
      derivationOf past name = some d → derivationOf past' name' = some d →
      step :: past <:+ past' → answerTo past step = .reason r →
      answerTo past' step' = .reason r := by
  intro h
  have hchanged : answerTo cancelledLate (.finished "a") = .reason .cancelled := by decide
  have hkept := h pastDeadline cancelledLate (.finished "a") (.finished "a") "a" "a"
    ⟨[], 10, none⟩ .deadlineExceeded .finished .finished rfl rfl
    ⟨[.cancel "b", .copy "b" "a"], rfl⟩ (by decide)
  cases hchanged.symm.trans hkept

end Scopes

end ChatArchive.Retry
