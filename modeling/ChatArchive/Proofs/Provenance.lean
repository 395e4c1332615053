import ChatArchive.Retry.Scope
import Mathlib.Data.List.Infix

/-!
# Where scopes and tokens come from

Names of scopes and tokens may be given again, and a copy gives another name to the same
scope. What a name stands for after some steps is therefore told by the step that made it:
a scope by the step that derived it and a token by the step that made it, each together
with all steps before, which no two steps have in common. The past is a list of steps with
the last one first, so what came before a step is the rest of the list.

The scopes of a run number their tokens. A number is the count of those made before, and
everything that scopes hold is told by the past: which scope a name has, which token, and
which tokens have been cancelled.
-/

namespace ChatArchive.Retry

/-- How a scope was derived: after which steps, and with which timeout and parent. -/
@[ext]
structure Derivation where
  before : List ScopeStep
  timeout : Nat
  parent : Option String

/-- What a step makes of the scope that a name stands for, given what names stood for
before it. -/
def derivationAfter (past : List ScopeStep) (known : String → Option Derivation)
    (step : ScopeStep) (name : String) : Option Derivation :=
  match step with
  | .derive n timeout parent => if n = name then some ⟨past, timeout, parent⟩ else known name
  | .copy n source => if n = name then (known source).or (known name) else known name
  | _ => known name

/-- The scope that a name stands for after some steps, the last step first. -/
def derivationOf : List ScopeStep → String → Option Derivation
  | [], _ => none
  | step :: past, name => derivationAfter past (derivationOf past) step name

/-- The steps before the token was made that a name stands for. -/
def tokenOf : List ScopeStep → String → Option (List ScopeStep)
  | [], _ => none
  | step :: past, name => if step = .token name then some past else tokenOf past name

/-- The token that a scope hangs on. -/
def Derivation.parentToken (d : Derivation) : Option (List ScopeStep) :=
  d.parent.bind (tokenOf d.before)

/-- A step that makes a token, its own or that of a scope. -/
def ScopeStep.makesToken : ScopeStep → Bool
  | .token _ | .derive _ _ _ => true
  | _ => false

/-- The number of tokens made. -/
def made (past : List ScopeStep) : Nat := past.countP ScopeStep.makesToken

/-- Some step was like this, with the steps before it. -/
def Happened (past : List ScopeStep) (p : ScopeStep → List ScopeStep → Prop) : Prop :=
  ∃ step before, step :: before <:+ past ∧ p step before

/-- A step cancels a scope: through one of its names, or through its parent. -/
def Cancels (d : Derivation) (before : List ScopeStep) : ScopeStep → Prop
  | .cancel name => derivationOf before name = some d
  | .cancelToken name => ∃ t, d.parentToken = some t ∧ tokenOf before name = some t
  | _ => False

/-- Some step so far has cancelled a scope. -/
def Reached (past : List ScopeStep) (d : Derivation) : Prop :=
  Happened past fun step before => Cancels d before step

/-- The scopes after some steps, the last step first. -/
def Scopes.after (past : List ScopeStep) : Scopes := (Scopes.empty.run past.reverse).2

/-- The answer to a step after some others. -/
def answerTo (past : List ScopeStep) (step : ScopeStep) : ScopeAnswer :=
  ((Scopes.after past).step step).1

/-- The time at which a scope is over. -/
def Derivation.due (d : Derivation) : Nat := (Scopes.after d.before).now + d.timeout

/-- A scope as it is held. -/
def Derivation.scope (d : Derivation) : Scope :=
  ⟨made d.before, d.parentToken.map made, d.due⟩

/-! ## Steps so far -/

section

variable {past past' before before' : List ScopeStep} {step step' : ScopeStep}
  {p q : ScopeStep → List ScopeStep → Prop}

theorem not_happened_nil : ¬ Happened [] p := by
  rintro ⟨step, before, h, -⟩
  exact List.cons_ne_nil _ _ (List.suffix_nil.1 h)

theorem happened_cons : Happened (step :: past) p ↔ p step past ∨ Happened past p := by
  constructor
  · rintro ⟨last, before, h, hp⟩
    rcases List.suffix_cons_iff.1 h with h | h
    · cases h
      exact Or.inl hp
    · exact Or.inr ⟨last, before, h, hp⟩
  · rintro (hp | ⟨last, before, h, hp⟩)
    · exact ⟨step, past, List.suffix_rfl, hp⟩
    · exact ⟨last, before, h.trans (List.suffix_cons step past), hp⟩

theorem Happened.mono (h : Happened past p) (hpast : past <:+ past') : Happened past' p := by
  obtain ⟨step, before, hstep, hp⟩ := h
  exact ⟨step, before, hstep.trans hpast, hp⟩

/-- What has happened by now had happened by an earlier time or happened since. -/
theorem happened_iff_since (hpast : past <:+ past') :
    Happened past' p ↔
      Happened past p ∨ Happened past' fun step before => past <:+ before ∧ p step before := by
  constructor
  · rintro ⟨step, before, h, hp⟩
    rcases List.suffix_or_suffix_of_suffix h hpast with hold | hnew
    · exact Or.inl ⟨step, before, hold, hp⟩
    · rcases List.suffix_cons_iff.1 hnew with heq | hnew
      · exact Or.inl ⟨step, before, by rw [heq], hp⟩
      · exact Or.inr ⟨step, before, h, hnew, hp⟩
  · rintro (h | ⟨step, before, h, -, hp⟩)
    · exact h.mono hpast
    · exact ⟨step, before, h, hp⟩

theorem made_cons (step : ScopeStep) (past : List ScopeStep) :
    made (step :: past) = made past + if step.makesToken then 1 else 0 := List.countP_cons

theorem made_lt (hmakes : step.makesToken) (h : step :: before <:+ past) :
    made before < made past := by
  have hle : made (step :: before) ≤ made past := h.sublist.countP_le
  rw [made_cons, if_pos hmakes] at hle
  exact hle

/-- A number stands for one step that makes a token. -/
theorem eq_of_made_eq (hmakes : step.makesToken) (hmakes' : step'.makesToken)
    (h : step :: before <:+ past) (h' : step' :: before' <:+ past)
    (heq : made before = made before') : step = step' ∧ before = before' := by
  rcases List.suffix_or_suffix_of_suffix h h' with hsuffix | hsuffix
  · rcases List.suffix_cons_iff.1 hsuffix with hsame | hearlier
    · exact List.cons.inj hsame
    · exact absurd heq (made_lt hmakes hearlier).ne
  · rcases List.suffix_cons_iff.1 hsuffix with hsame | hearlier
    · exact (List.cons.inj hsame).imp Eq.symm Eq.symm
    · exact absurd heq (made_lt hmakes' hearlier).ne'

/-! ## What names stand for was made -/

theorem exists_derive {name : String} {d : Derivation} (h : derivationOf past name = some d) :
    ∃ n, .derive n d.timeout d.parent :: d.before <:+ past := by
  induction past generalizing name with
  | nil => cases h
  | cons step past ih =>
      have hearlier : ∀ {name}, derivationOf past name = some d →
          ∃ n, .derive n d.timeout d.parent :: d.before <:+ step :: past := fun hname => by
        obtain ⟨n, hn⟩ := ih hname
        exact ⟨n, hn.trans (List.suffix_cons step past)⟩
      rw [derivationOf] at h
      cases step with
      | derive n timeout parent =>
          rw [derivationAfter] at h
          split at h
          · cases h
            exact ⟨n, List.suffix_rfl⟩
          · exact hearlier h
      | copy n source =>
          rw [derivationAfter] at h
          split at h
          · rcases Option.or_eq_some_iff.1 h with hsource | ⟨-, hname⟩
            · exact hearlier hsource
            · exact hearlier hname
          · exact hearlier h
      | _ => exact hearlier h

theorem exists_token {name : String} {t : List ScopeStep} (h : tokenOf past name = some t) :
    ∃ n, .token n :: t <:+ past := by
  induction past with
  | nil => cases h
  | cons step past ih =>
      rw [tokenOf] at h
      split at h
      · next hstep =>
          cases h
          exact ⟨name, by rw [hstep]⟩
      · obtain ⟨n, hn⟩ := ih h
        exact ⟨n, hn.trans (List.suffix_cons step past)⟩

/-- A token that a scope hangs on was made before the scope. -/
theorem exists_parentToken {name : String} {d : Derivation} {t : List ScopeStep}
    (h : derivationOf past name = some d) (ht : d.parentToken = some t) :
    ∃ n, .token n :: t <:+ past := by
  obtain ⟨n, hderive⟩ := exists_derive h
  obtain ⟨parent, -, hparent⟩ := Option.bind_eq_some_iff.1 ht
  obtain ⟨m, hm⟩ := exists_token hparent
  exact ⟨m, hm.trans ((List.suffix_cons _ _).trans hderive)⟩

end

namespace Scopes

variable {s : Scopes} {past : List ScopeStep} {name : String} {step : ScopeStep} {k : Nat}

/-! ## One step -/

/-- The scope that a name stands for after a step. -/
def scopeAfter (s : Scopes) (step : ScopeStep) (name : String) : Option Scope :=
  match step with
  | .derive n timeout parent =>
    if n = name then some ⟨s.cancelled.length, parent.bind s.token?, s.now + timeout⟩
    else s.scope? name
  | .copy n source => if n = name then (s.scope? source).or (s.scope? name) else s.scope? name
  | _ => s.scope? name

/-- The number of the token that a step cancels. -/
def strikes (s : Scopes) : ScopeStep → Option Nat
  | .cancel name => (s.scope? name).map Scope.own
  | .cancelToken name => s.token? name
  | _ => none

theorem lookup_cons_eq {α : Type} (n name : String) (a : α) (l : List (String × α)) :
    List.lookup name ((n, a) :: l) = if n = name then some a else List.lookup name l := by
  rw [List.lookup_cons]
  by_cases h : n = name
  · rw [if_pos h, h, beq_self_eq_true]
  · rw [if_neg h, beq_false_of_ne (Ne.symm h)]

/-- All tokens after a step: one of those known may be cancelled, and one may be new. -/
def cancelledAfter (s : Scopes) (step : ScopeStep) : List Bool :=
  let known := (s.strikes step).elim s.cancelled (s.cancelled.set · true)
  if step.makesToken then known ++ [false] else known

/-- The names of tokens after a step. -/
def tokensAfter (s : Scopes) : ScopeStep → List (String × Nat)
  | .token name => (name, s.cancelled.length) :: s.tokens
  | _ => s.tokens

/-- The names of scopes after a step. -/
def scopesAfter (s : Scopes) : ScopeStep → List (String × Scope)
  | .derive name timeout parent =>
    (name, ⟨s.cancelled.length, parent.bind s.token?, s.now + timeout⟩) :: s.scopes
  | .copy name source => (s.scope? source).elim s.scopes fun scope => (name, scope) :: s.scopes
  | _ => s.scopes

/-- All that a step can do; the clock never goes back. -/
theorem step_eq (s : Scopes) (step : ScopeStep) : ∃ ms, (s.step step).2 =
    ⟨s.now + ms, s.cancelledAfter step, s.tokensAfter step, s.scopesAfter step⟩ := by
  cases step with
  | token n => exact ⟨0, rfl⟩
  | derive n timeout parent => exact ⟨0, rfl⟩
  | copy n source =>
      rw [Scopes.step, scopesAfter]
      cases s.scope? source <;> exact ⟨0, rfl⟩
  | cancelToken n =>
      rw [Scopes.step, cancelledAfter, strikes]
      cases s.token? n <;> exact ⟨0, rfl⟩
  | isCancelled n => rw [Scopes.step]; cases s.token? n <;> exact ⟨0, rfl⟩
  | cancel n =>
      rw [Scopes.step, cancelledAfter, strikes]
      cases s.scope? n <;> exact ⟨0, rfl⟩
  | advance ms => exact ⟨ms, rfl⟩
  | finished n => rw [Scopes.step]; cases s.scope? n <;> exact ⟨0, rfl⟩
  | wait n =>
      rw [Scopes.step]
      cases s.scope? n with
      | none => exact ⟨0, rfl⟩
      | some scope =>
          dsimp only
          split
          · exact ⟨0, rfl⟩
          · have hmax : max s.now scope.deadline = s.now + (scope.deadline - s.now) := by omega
            exact ⟨scope.deadline - s.now, by rw [hmax]; rfl⟩

theorem now_le_step (s : Scopes) (step : ScopeStep) : s.now ≤ (s.step step).2.now := by
  obtain ⟨ms, h⟩ := s.step_eq step
  rw [h]
  exact Nat.le_add_right s.now ms

theorem length_step (s : Scopes) (step : ScopeStep) :
    (s.step step).2.cancelled.length
      = s.cancelled.length + if step.makesToken then 1 else 0 := by
  have hknown : ((s.strikes step).elim s.cancelled (s.cancelled.set · true)).length
      = s.cancelled.length := by
    cases s.strikes step with
    | none => rfl
    | some k => exact List.length_set
  obtain ⟨ms, h⟩ := s.step_eq step
  rw [h, ← hknown]
  dsimp only [cancelledAfter]
  split
  · exact List.length_append
  · rfl

theorem tokenCancelled_iff : s.tokenCancelled k = true ↔ s.cancelled[k]? = some true := by
  rw [tokenCancelled, List.getD_eq_getElem?_getD]
  cases s.cancelled[k]? with
  | none => simp
  | some b => simp

/-- A token that is new has not been cancelled. -/
theorem getElem?_new_eq_true (l : List Bool) :
    (l ++ [false])[k]? = some true ↔ l[k]? = some true := by
  rw [List.getElem?_append]
  split
  · rfl
  · next hlength =>
      rw [List.getElem?_eq_none (Nat.le_of_not_lt hlength), List.getElem?_singleton]
      split <;> simp

/-- A token is cancelled by a step that strikes it, and stays cancelled. -/
theorem tokenCancelled_step (hknown : ∀ n ∈ s.strikes step, n < s.cancelled.length) :
    (s.step step).2.tokenCancelled k = true ↔
      s.strikes step = some k ∨ s.tokenCancelled k = true := by
  have hstruck : ((s.strikes step).elim s.cancelled (s.cancelled.set · true))[k]? = some true ↔
      s.strikes step = some k ∨ s.cancelled[k]? = some true := by
    cases hstrikes : s.strikes step with
    | none => simp
    | some n =>
        have hn : n < s.cancelled.length := hknown n hstrikes
        rw [Option.elim_some, List.getElem?_set, Option.some.injEq]
        by_cases hk : n = k
        · subst hk
          simp [hn]
        · simp [hk]
  obtain ⟨ms, h⟩ := s.step_eq step
  rw [tokenCancelled_iff, tokenCancelled_iff, h, ← hstruck]
  dsimp only [cancelledAfter]
  split
  · exact getElem?_new_eq_true _
  · rfl

theorem token?_step (s : Scopes) (step : ScopeStep) (name : String) :
    (s.step step).2.token? name
      = if step = .token name then some s.cancelled.length else s.token? name := by
  obtain ⟨ms, h⟩ := s.step_eq step
  rw [h, token?]
  cases step with
  | token n =>
      simp only [ScopeStep.token.injEq]
      exact lookup_cons_eq n name _ s.tokens
  | _ => rfl

theorem scope?_step (s : Scopes) (step : ScopeStep) (name : String) :
    (s.step step).2.scope? name = s.scopeAfter step name := by
  obtain ⟨ms, h⟩ := s.step_eq step
  rw [h, scope?]
  cases step with
  | derive n timeout parent => exact lookup_cons_eq n name _ s.scopes
  | copy n source =>
      dsimp only [scopesAfter, scopeAfter]
      cases s.scope? source with
      | none => rw [Option.none_or, ite_self]; rfl
      | some scope => exact lookup_cons_eq n name scope s.scopes
  | _ => rfl

/-! ## All steps so far -/

theorem run_concat (s : Scopes) (steps : List ScopeStep) (step : ScopeStep) :
    s.run (steps ++ [step]) = ((s.run steps).1 ++
      [(((s.run steps).2.step step).1, ((s.run steps).2.step step).2.now)],
      ((s.run steps).2.step step).2) := by
  induction steps generalizing s with
  | nil => rfl
  | cons first steps ih =>
      have hrest := ih (s.step first).2
      show (_ :: ((s.step first).2.run (steps ++ [step])).1,
        ((s.step first).2.run (steps ++ [step])).2) = _
      rw [hrest]
      rfl

theorem after_cons (step : ScopeStep) (past : List ScopeStep) :
    after (step :: past) = ((after past).step step).2 := by
  rw [after, List.reverse_cons, run_concat]
  rfl

theorem length_after (past : List ScopeStep) : (after past).cancelled.length = made past := by
  induction past with
  | nil => rfl
  | cons step past ih => rw [after_cons, length_step, ih, made_cons]

theorem token?_after (past : List ScopeStep) (name : String) :
    (after past).token? name = (tokenOf past name).map made := by
  induction past with
  | nil => rfl
  | cons step past ih =>
      rw [after_cons, token?_step, tokenOf, length_after, ih]
      split <;> rfl

theorem scope?_after (past : List ScopeStep) (name : String) :
    (after past).scope? name = (derivationOf past name).map Derivation.scope := by
  induction past generalizing name with
  | nil => rfl
  | cons step past ih =>
      rw [after_cons, scope?_step, derivationOf]
      cases step with
      | derive n timeout parent =>
          have hparent : parent.bind (after past).token?
              = (parent.bind (tokenOf past)).map made := by
            cases parent with
            | none => rfl
            | some p => exact token?_after past p
          rw [scopeAfter, derivationAfter, ih, length_after, hparent]
          split <;> rfl
      | copy n source =>
          rw [scopeAfter, derivationAfter, ih, ih]
          split
          · cases derivationOf past source <;> rfl
          · rfl
      | _ => exact ih name

theorem strikes_eq_some (past : List ScopeStep) (step : ScopeStep) (k : Nat) :
    (after past).strikes step = some k ↔
      (∃ n d, step = .cancel n ∧ derivationOf past n = some d ∧ d.scope.own = k) ∨
      ∃ n t, step = .cancelToken n ∧ tokenOf past n = some t ∧ made t = k := by
  cases step with
  | cancel n => simp [strikes, scope?_after, Function.comp_def]
  | cancelToken n => simp [strikes, token?_after]
  | _ => simp [strikes]

/-- What a step strikes has been made. -/
theorem lt_of_strikes (h : (after past).strikes step = some k) : k < made past := by
  rcases (strikes_eq_some past step k).1 h with ⟨n, d, -, hd, rfl⟩ | ⟨n, t, -, ht, rfl⟩
  · obtain ⟨m, hm⟩ := exists_derive hd
    exact made_lt rfl hm
  · obtain ⟨m, hm⟩ := exists_token ht
    exact made_lt rfl hm

/-- A token is cancelled if some step has struck it. -/
theorem tokenCancelled_after (past : List ScopeStep) (k : Nat) :
    (after past).tokenCancelled k = true ↔
      Happened past fun step before => (after before).strikes step = some k := by
  induction past with
  | nil =>
      refine iff_of_false (fun h => ?_) not_happened_nil
      cases h
  | cons step past ih =>
      have hknown : ∀ n ∈ (after past).strikes step, n < (after past).cancelled.length := by
        intro n hn
        rw [length_after]
        exact lt_of_strikes hn
      rw [after_cons, tokenCancelled_step hknown, ih, happened_cons]

/-! ## Which steps cancel a scope -/

theorem own_eq_iff {d d' : Derivation} (hd : ∃ n, .derive n d.timeout d.parent :: d.before <:+ past)
    (hd' : ∃ n, .derive n d'.timeout d'.parent :: d'.before <:+ past) :
    d.scope.own = d'.scope.own ↔ d = d' := by
  refine ⟨fun heq => ?_, fun heq => by rw [heq]⟩
  obtain ⟨n, hn⟩ := hd
  obtain ⟨n', hn'⟩ := hd'
  obtain ⟨hstep, hsame⟩ := eq_of_made_eq rfl rfl hn hn' heq
  injection hstep with hname htimeout hparent
  exact Derivation.ext hsame htimeout hparent

theorem made_eq_iff {t t' : List ScopeStep} (ht : ∃ n, .token n :: t <:+ past)
    (ht' : ∃ n, .token n :: t' <:+ past) : made t = made t' ↔ t = t' := by
  refine ⟨fun heq => ?_, fun heq => by rw [heq]⟩
  obtain ⟨n, hn⟩ := ht
  obtain ⟨n', hn'⟩ := ht'
  exact (eq_of_made_eq rfl rfl hn hn' heq).2

/-- No scope has a token of its own that has a name. -/
theorem own_ne_made {d : Derivation} {t : List ScopeStep}
    (hd : ∃ n, .derive n d.timeout d.parent :: d.before <:+ past)
    (ht : ∃ n, .token n :: t <:+ past) : d.scope.own ≠ made t := by
  intro heq
  obtain ⟨n, hn⟩ := hd
  obtain ⟨n', hn'⟩ := ht
  cases (eq_of_made_eq rfl rfl hn hn' heq).1

theorem strikes_own_iff {d : Derivation} {before : List ScopeStep}
    (hd : ∃ n, .derive n d.timeout d.parent :: d.before <:+ past) (h : step :: before <:+ past) :
    (after before).strikes step = some d.scope.own ↔
      ∃ n, step = .cancel n ∧ derivationOf before n = some d := by
  have hbefore : before <:+ past := (List.suffix_cons step before).trans h
  rw [strikes_eq_some]
  constructor
  · rintro (⟨n, d', rfl, hd', heq⟩ | ⟨n, t, rfl, ht, heq⟩)
    · have hmade := (exists_derive hd').imp fun m hm => hm.trans hbefore
      obtain rfl := (own_eq_iff hmade hd).1 heq
      exact ⟨n, rfl, hd'⟩
    · have hmade := (exists_token ht).imp fun m hm => hm.trans hbefore
      exact absurd heq.symm (own_ne_made hd hmade)
  · rintro ⟨n, rfl, hn⟩
    exact Or.inl ⟨n, d, rfl, hn, rfl⟩

theorem strikes_token_iff {t before : List ScopeStep} (ht : ∃ n, .token n :: t <:+ past)
    (h : step :: before <:+ past) :
    (after before).strikes step = some (made t) ↔
      ∃ n, step = .cancelToken n ∧ tokenOf before n = some t := by
  have hbefore : before <:+ past := (List.suffix_cons step before).trans h
  rw [strikes_eq_some]
  constructor
  · rintro (⟨n, d, rfl, hd, heq⟩ | ⟨n, t', rfl, ht', heq⟩)
    · have hmade := (exists_derive hd).imp fun m hm => hm.trans hbefore
      exact absurd heq (own_ne_made hmade ht)
    · have hmade := (exists_token ht').imp fun m hm => hm.trans hbefore
      obtain rfl := (made_eq_iff hmade ht).1 heq
      exact ⟨n, rfl, ht'⟩
  · rintro ⟨n, rfl, hn⟩
    exact Or.inr ⟨n, t, rfl, hn, rfl⟩

/-- A token is cancelled exactly by the steps that cancel it under a name of it. -/
theorem tokenCancelled_made_iff {t : List ScopeStep} (ht : ∃ n, .token n :: t <:+ past) :
    (after past).tokenCancelled (made t) = true ↔
      Happened past fun step before => ∃ n, step = .cancelToken n ∧ tokenOf before n = some t := by
  rw [tokenCancelled_after]
  exact exists₂_congr fun step before => and_congr_right fun h => strikes_token_iff ht h

/-- A scope is cancelled exactly by the steps that cancel it or its parent. -/
theorem isCancelled_iff_reached {d : Derivation} (hd : derivationOf past name = some d) :
    (after past).isCancelled d.scope = true ↔ Reached past d := by
  have hown : (after past).tokenCancelled d.scope.own = true ↔ Happened past fun step before =>
      ∃ n, step = .cancel n ∧ derivationOf before n = some d := by
    rw [tokenCancelled_after]
    exact exists₂_congr fun step before => and_congr_right fun h =>
      strikes_own_iff (exists_derive hd) h
  have hparent : d.scope.parent.any (after past).tokenCancelled = true ↔
      Happened past fun step before => ∃ t, d.parentToken = some t ∧
        ∃ n, step = .cancelToken n ∧ tokenOf before n = some t := by
    rw [Derivation.scope]
    cases ht : d.parentToken with
    | none =>
        refine iff_of_false (fun h => by cases h) ?_
        rintro ⟨step, before, -, t, ht', -⟩
        cases ht'
    | some t =>
        refine (tokenCancelled_made_iff (exists_parentToken hd ht)).trans ?_
        simp only [Option.some.injEq, exists_eq_left']
  rw [isCancelled, Bool.or_eq_true, hown, hparent]
  constructor
  · rintro (⟨step, before, h, n, rfl, hn⟩ | ⟨step, before, h, t, ht, n, rfl, hn⟩)
    · exact ⟨_, before, h, hn⟩
    · exact ⟨_, before, h, t, ht, hn⟩
  · rintro ⟨step, before, h, hcancels⟩
    cases step with
    | cancel n => exact Or.inl ⟨_, before, h, n, rfl, hcancels⟩
    | cancelToken n =>
        obtain ⟨t, ht, hn⟩ := hcancels
        exact Or.inr ⟨_, before, h, t, ht, n, rfl, hn⟩
    | _ => cases hcancels

end Scopes

end ChatArchive.Retry
