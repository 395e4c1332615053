import ChatArchive.Proofs.Provenance

/-!
# When scopes are over

After any steps, asking whether a scope is over tells why: it was cancelled if some step so
far has cancelled it under one of its names, or the token it hangs on; otherwise its
deadline is what counts. Cancelling a scope reaches nothing but that scope.

Waiting ends at the first instant at which asking has an answer, and with this answer. A
wait that blocks has only the clock to wait for. One that goes on beside other steps is a
race of two signals, the cancellation and the deadline, of which the first counts, and the
cancellation if both come at one moment. That is the order in which asking looks at them.
-/

namespace ChatArchive.Retry

/-- All states that a run passes through: one before each step and one for each millisecond
that passes in it, and the last. -/
def Scopes.moments : Scopes → List ScopeStep → List Scopes
  | s, [] => [s]
  | s, step :: rest =>
    s :: (List.range ((s.step step).2.now - s.now - 1)).map
        (fun k => { s with now := s.now + k + 1 })
      ++ (s.step step).2.moments rest

/-- How a wait for a scope ends that goes on while these states pass: at which of them, and
why. -/
def Scope.race (scope : Scope) (states : List Scopes) : Option (Nat × CancelReason) :=
  match states.findIdx? (·.isCancelled scope), states.findIdx? (scope.deadline ≤ ·.now) with
  | some c, some d => if c ≤ d then some (c, .cancelled) else some (d, .deadlineExceeded)
  | some c, none => some (c, .cancelled)
  | none, some d => some (d, .deadlineExceeded)
  | none, none => none

/-- When and why a scope is over that a name stands for after some steps. -/
structure Settled (past : List ScopeStep) (name : String) (d : Derivation) : Prop where
  cancelled : answerTo past (.finished name) = .reason .cancelled ↔ Reached past d
  expired : answerTo past (.finished name) = .reason .deadlineExceeded ↔
    ¬ Reached past d ∧ d.due ≤ (Scopes.after past).now
  running : answerTo past (.finished name) = .nothing ↔
    ¬ Reached past d ∧ (Scopes.after past).now < d.due
  wait : ∃ ms r,
    (Scopes.after past).step (.wait name) = (.reason r, Scopes.after (.advance ms :: past)) ∧
    answerTo (.advance ms :: past) (.finished name) = .reason r ∧
    ∀ less < ms, answerTo (.advance less :: past) (.finished name) = .nothing
  race : ∀ later k r, d.scope.race ((Scopes.after past).moments later) = some (k, r) ↔
    (∃ s, ((Scopes.after past).moments later)[k]? = some s ∧ s.finished d.scope = some r) ∧
    ∀ j < k, ∀ s, ((Scopes.after past).moments later)[j]? = some s → s.finished d.scope = none

/-- Cancelling a scope reaches no token that has a name, and no other scope. -/
structure CancelledAlone (past : List ScopeStep) (name : String) (d : Derivation) : Prop where
  tokens : ∀ token, answerTo (.cancel name :: past) (.isCancelled token)
    = answerTo past (.isCancelled token)
  others : ∀ other d', derivationOf past other = some d' → d' ≠ d →
    answerTo (.cancel name :: past) (.finished other) = answerTo past (.finished other)

namespace Scopes

variable {s : Scopes} {scope : Scope} {past : List ScopeStep} {name : String} {d : Derivation}
  {r : CancelReason}

/-! ## Asking -/

theorem finished_eq_cancelled : s.finished scope = some .cancelled ↔ s.isCancelled scope := by
  rw [finished]
  split
  · next h => exact iff_of_true rfl h
  · next h => split <;> simp [h]

theorem finished_eq_deadlineExceeded :
    s.finished scope = some .deadlineExceeded ↔
      ¬ s.isCancelled scope ∧ scope.deadline ≤ s.now := by
  rw [finished]
  split
  · next h => simp [h]
  · next h => split <;> simp_all

theorem finished_eq_none :
    s.finished scope = none ↔ ¬ s.isCancelled scope ∧ s.now < scope.deadline := by
  rw [finished]
  split
  · next h => simp [h]
  · next h => split <;> simp_all

theorem answer_eq_reason {r? : Option CancelReason} : answer r? = .reason r ↔ r? = some r := by
  cases r? <;> simp [answer]

theorem answer_eq_nothing {r? : Option CancelReason} : answer r? = .nothing ↔ r? = none := by
  cases r? <;> simp [answer]

theorem answerTo_finished (h : derivationOf past name = some d) :
    answerTo past (.finished name) = answer ((after past).finished d.scope) := by
  rw [answerTo, Scopes.step, scope?_after, h]
  rfl

/-! ## Waiting -/

/-- A wait ends at the first instant at which the scope is over. -/
theorem step_wait (h : s.scope? name = some scope) :
    ∃ ms r, s.step (.wait name) = (.reason r, { s with now := s.now + ms }) ∧
      finished { s with now := s.now + ms } scope = some r ∧
      ∀ less < ms, finished { s with now := s.now + less } scope = none := by
  rw [Scopes.step, h]
  dsimp only
  by_cases hcancelled : s.isCancelled scope
  · have hreason : s.finished scope = some .cancelled := finished_eq_cancelled.2 hcancelled
    rw [if_pos hcancelled, hreason]
    exact ⟨0, .cancelled, rfl, hreason, fun less hless => absurd hless (Nat.not_lt_zero _)⟩
  · have hend : s.now + (scope.deadline - s.now) = max s.now scope.deadline := by omega
    have hreason : finished { s with now := max s.now scope.deadline } scope
        = some .deadlineExceeded :=
      finished_eq_deadlineExceeded.2 ⟨hcancelled, Nat.le_max_right _ _⟩
    rw [if_neg hcancelled, hreason]
    refine ⟨scope.deadline - s.now, .deadlineExceeded, by rw [hend]; rfl, by rw [hend, hreason],
      fun less hless => finished_eq_none.2 ⟨hcancelled, ?_⟩⟩
    show s.now + less < scope.deadline
    omega

/-- The race is decided by the first state in which the scope is over. -/
theorem race_cons (s : Scopes) (states : List Scopes) :
    scope.race (s :: states) = (s.finished scope).elim
      ((scope.race states).map fun found => (found.1 + 1, found.2)) fun r => some (0, r) := by
  rw [Scope.race, List.findIdx?_cons, List.findIdx?_cons, finished, Scope.race]
  by_cases hcancelled : s.isCancelled scope
  · rw [if_pos hcancelled, if_pos hcancelled, Option.elim_some]
    generalize (if decide (scope.deadline ≤ s.now) = true then some 0 else _) = due
    cases due with
    | none => rfl
    | some d => exact if_pos (Nat.zero_le d)
  · rw [if_neg hcancelled, if_neg hcancelled]
    by_cases hdue : scope.deadline ≤ s.now
    · rw [if_pos (decide_eq_true hdue), if_pos hdue]
      cases states.findIdx? (·.isCancelled scope) <;> simp
    · rw [if_neg (by simpa using hdue), if_neg hdue]
      cases states.findIdx? (·.isCancelled scope) <;>
        cases states.findIdx? (scope.deadline ≤ ·.now) <;> simp
      split <;> rfl

theorem race_eq_some_iff {states : List Scopes} {k : Nat} :
    scope.race states = some (k, r) ↔
      (∃ s, states[k]? = some s ∧ s.finished scope = some r) ∧
        ∀ j < k, ∀ s, states[j]? = some s → s.finished scope = none := by
  induction states generalizing k with
  | nil =>
      refine iff_of_false (fun h => by cases h) ?_
      rintro ⟨⟨s, hs, -⟩, -⟩
      cases hs
  | cons s states ih =>
      rw [race_cons]
      cases hfirst : s.finished scope with
      | some first =>
          rw [Option.elim_some]
          constructor
          · intro h
            cases h
            exact ⟨⟨s, rfl, hfirst⟩, fun j hj => absurd hj (Nat.not_lt_zero j)⟩
          · rintro ⟨⟨s', hs', hr⟩, hbefore⟩
            cases k with
            | zero =>
                cases hs'
                rw [Option.some.inj (hfirst.symm.trans hr)]
            | succ k =>
                have hnone := hbefore 0 (Nat.succ_pos k) s rfl
                rw [hfirst] at hnone
                cases hnone
      | none =>
          rw [Option.elim_none, Option.map_eq_some_iff]
          constructor
          · rintro ⟨⟨i, r'⟩, hrace, heq⟩
            cases heq
            obtain ⟨hat, hbefore⟩ := ih.1 hrace
            refine ⟨hat, fun j hj s' hs' => ?_⟩
            cases j with
            | zero =>
                cases hs'
                exact hfirst
            | succ j => exact hbefore j (Nat.lt_of_succ_lt_succ hj) s' hs'
          · rintro ⟨⟨s', hs', hr⟩, hbefore⟩
            cases k with
            | zero =>
                cases hs'
                rw [hfirst] at hr
                cases hr
            | succ k =>
                exact ⟨(k, r), ih.2 ⟨⟨s', hs', hr⟩, fun j hj s'' hs'' =>
                  hbefore (j + 1) (Nat.succ_lt_succ hj) s'' hs''⟩, rfl⟩

/-! ## Everything so far -/

theorem settled (h : derivationOf past name = some d) : Settled past name d where
  cancelled := by
    rw [answerTo_finished h, answer_eq_reason, finished_eq_cancelled, isCancelled_iff_reached h]
  expired := by
    rw [answerTo_finished h, answer_eq_reason, finished_eq_deadlineExceeded,
      isCancelled_iff_reached h]
    rfl
  running := by
    rw [answerTo_finished h, answer_eq_nothing, finished_eq_none, isCancelled_iff_reached h]
    rfl
  wait := by
    have hscope : (after past).scope? name = some d.scope := by
      rw [scope?_after, h]
      rfl
    obtain ⟨ms, r, hstep, hend, hbefore⟩ := step_wait hscope
    have hadvance : ∀ ms, answerTo (.advance ms :: past) (.finished name)
        = answer (finished { after past with now := (after past).now + ms } d.scope) := by
      intro ms
      have hlater : derivationOf (.advance ms :: past) name = some d := h
      rw [answerTo_finished hlater, after_cons]
      rfl
    refine ⟨ms, r, ?_, ?_, fun less hless => ?_⟩
    · rw [hstep, after_cons]
      rfl
    · rw [hadvance, hend]
      rfl
    · rw [hadvance, hbefore less hless]
      rfl
  race _ _ _ := race_eq_some_iff

theorem cancelledAlone (h : derivationOf past name = some d) : CancelledAlone past name d where
  tokens token := by
    rw [answerTo, answerTo, Scopes.step, Scopes.step, token?_after, token?_after]
    have hsame : tokenOf (.cancel name :: past) token = tokenOf past token := rfl
    rw [hsame]
    cases ht : tokenOf past token with
    | none => rfl
    | some t =>
        have hpast := exists_token ht
        have hflag : (after (.cancel name :: past)).tokenCancelled (made t)
            = (after past).tokenCancelled (made t) := by
          rw [Bool.eq_iff_iff, tokenCancelled_made_iff hpast, tokenCancelled_made_iff
            (hpast.imp fun n hn => hn.trans (List.suffix_cons _ _)), happened_cons]
          refine or_iff_right ?_
          rintro ⟨n, hn, -⟩
          cases hn
        rw [Option.map_some]
        exact congrArg ScopeAnswer.flag hflag
  others other d' hother hne := by
    have hlater : derivationOf (.cancel name :: past) other = some d' := hother
    have hcancelled : (after (.cancel name :: past)).isCancelled d'.scope
        = (after past).isCancelled d'.scope := by
      rw [Bool.eq_iff_iff, isCancelled_iff_reached hother, isCancelled_iff_reached hlater,
        Reached, happened_cons]
      refine or_iff_right fun hcancels => hne ?_
      exact Option.some.inj (hcancels.symm.trans h)
    have hnow : (after (.cancel name :: past)).now = (after past).now := by
      rw [after_cons, Scopes.step]
      cases (after past).scope? name <;> rfl
    rw [answerTo_finished hlater, answerTo_finished hother, finished, finished, hcancelled, hnow]

/-- After any steps, a scope is over because it was cancelled exactly if some step so far
has cancelled it, a copy of it or its parent, before or after it was derived; because of its
deadline exactly if it was not cancelled and its time is up; and otherwise it is not over.
Waiting for it, alone or beside any later steps, ends at the first instant at which it is
over, with the same reason. Cancelling it reaches no token and no other scope. -/
theorem cancellation_reaches_derived (past : List ScopeStep) (name : String) (d : Derivation)
    (h : derivationOf past name = some d) : Settled past name d ∧ CancelledAlone past name d :=
  ⟨settled h, cancelledAlone h⟩

/-- Two scopes hang on one token, and the first is cancelled through a copy. -/
def copyCancelled : List ScopeStep :=
  [.cancel "c", .derive "b" 10 (some "t"), .copy "c" "a", .derive "a" 10 (some "t"), .token "t"]

theorem cancellation_reaches_copyCancelled :
    answerTo copyCancelled (.finished "a") = .reason .cancelled ∧
      answerTo copyCancelled (.finished "b") = .nothing ∧
      answerTo copyCancelled (.isCancelled "t") = .flag false := by
  have hreached : Reached copyCancelled ⟨[.token "t"], 10, some "t"⟩ :=
    ⟨.cancel "c", _, List.suffix_rfl, rfl⟩
  obtain ⟨hfirst, -⟩ := cancellation_reaches_derived copyCancelled "a"
    ⟨[.token "t"], 10, some "t"⟩ rfl
  obtain ⟨-, halone⟩ := cancellation_reaches_derived copyCancelled.tail "c"
    ⟨[.token "t"], 10, some "t"⟩ rfl
  refine ⟨hfirst.cancelled.2 hreached, (halone.others "b" _ rfl ?_).trans (by decide),
    (halone.tokens "t").trans (by decide)⟩
  intro h
  cases congrArg Derivation.before h

end Scopes

end ChatArchive.Retry
