import ChatArchive.Proofs.BinaryOrder
import ChatArchive.Proofs.RetryTiming

/-!
# Pauses that cannot be multiplied

A pause is multiplied in seconds before it is cut to the maximum, so the next pause is missing if
the product is rounded to 2^64 seconds or more, however short the maximum is. A longer pause is
not shorter in seconds, so a policy whose maximum can be multiplied never gets there; and as a
maximum is below 2^64 milliseconds, no factor up to 999 does.
-/

namespace ChatArchive

open Number Time

namespace Time.Span

open Binary64

variable {s t : Span} {factor : Binary64} {x : ℚ}

/-! ## Spans in seconds -/

theorem nanos_eq (s : Span) : s.nanos = s.secs * 1000000000 + s.subsecNanos := by
  rw [secs, subsecNanos]
  omega

theorem subsecNanos_lt (s : Span) : s.subsecNanos < 1000000000 := Nat.mod_lt _ (by decide)

theorem secs_lt (s : Span) : s.secs < 2 ^ 64 := by
  have := s.lt_limit
  rw [spanLimit] at this
  rw [secs]
  omega

theorem rounded_secs_le (s : Span) : rounded s.secs ≤ 2 ^ 64 := by
  have hlimit : rounded (2 ^ 64) = 2 ^ 64 := by
    have h := rounded_format (m := 2 ^ 53) (e := 11) (Nat.le_refl _) (by decide)
    norm_num at h
    norm_num
    exact h
  rw [← hlimit]
  exact rounded_mono (Nat.cast_nonneg _) (by exact_mod_cast s.secs_lt.le)

theorem rounded_subsec_lt (s : Span) : rounded ((s.subsecNanos : ℚ) / 1000000000) < 1 := by
  have hformat : rounded (9007199254740991 * 2 ^ (-53 : ℤ)) = 9007199254740991 * 2 ^ (-53 : ℤ) := by
    have h := rounded_format (m := 9007199254740991) (e := -53) (by decide) (by decide)
    exact_mod_cast h
  have hnanos : (s.subsecNanos : ℚ) ≤ 999999999 := by
    exact_mod_cast Nat.le_of_lt_succ s.subsecNanos_lt
  have hle : (s.subsecNanos : ℚ) / 1000000000 ≤ 9007199254740991 * 2 ^ (-53 : ℤ) := by
    norm_num
    linarith
  refine lt_of_le_of_lt (rounded_mono (by positivity) hle) ?_
  rw [hformat]
  norm_num

/-- How a span is taken to seconds: with three roundings. -/
theorem seconds_is (s : Span) :
    s.seconds.Is (rounded (rounded s.secs + rounded ((s.subsecNanos : ℚ) / 1000000000))) := by
  have hsecs : (s.secs : ℚ) < 2 ^ 64 := by exact_mod_cast s.secs_lt
  have hnanos := s.subsecNanos_lt
  have hsum := add_lt_add_of_le_of_lt s.rounded_secs_le s.rounded_subsec_lt
  refine Is.addUnsigned (is_ofNat (hsecs.trans (by norm_num))) ?_ (hsum.trans (by norm_num))
  have hparts : ((ofNat s.subsecNanos).div (ofNat 1000000000)).Is
      (rounded ((s.subsecNanos : ℚ) / (1000000000 : Nat))) :=
    is_div (by decide) (by omega) (by decide)
  exact_mod_cast hparts

theorem magnitude_seconds_nonneg (s : Span) : 0 ≤ s.seconds.magnitude := by
  rw [s.seconds_is.magnitude]
  exact rounded_nonneg _

/-- A part of a second never makes up for a second: a sum that is too large for it loses it. -/
theorem rounded_add_le {a b : Nat} {r : ℚ} (h : a < b) (hr : 0 ≤ r) (hless : r < 1) :
    rounded (rounded a + r) ≤ rounded b := by
  have hnext : (a : ℚ) + 1 ≤ b := by exact_mod_cast h
  rcases le_or_gt (2 ^ 53) a with hlarge | hsmall
  · have hkept : ((2 ^ 53 : Nat) : ℚ) ≤ rounded a := by
      rw [← rounded_natCast (Nat.le_refl _)]
      exact rounded_mono (Nat.cast_nonneg _) (by exact_mod_cast hlarge)
    rw [Nat.cast_pow, Nat.cast_ofNat] at hkept
    rw [rounded_add hkept (rounded_rounded (Nat.cast_nonneg _)) hr hless]
    exact rounded_mono (Nat.cast_nonneg _) (by linarith)
  · rw [rounded_natCast hsmall.le]
    exact rounded_mono (add_nonneg (Nat.cast_nonneg _) hr) (by linarith)

/-- A longer span is not shorter in seconds. -/
theorem seconds_mono (h : s.nanos ≤ t.nanos) : s.seconds.magnitude ≤ t.seconds.magnitude := by
  have hs := s.nanos_eq
  have ht := t.nanos_eq
  have hs' := s.subsecNanos_lt
  have ht' := t.subsecNanos_lt
  rw [s.seconds_is.magnitude, t.seconds_is.magnitude]
  rcases (show s.secs ≤ t.secs by omega).eq_or_lt with heq | hlt
  · have hsub : (s.subsecNanos : ℚ) ≤ t.subsecNanos := by
      exact_mod_cast (show s.subsecNanos ≤ t.subsecNanos by omega)
    have hfraction := rounded_mono (by positivity)
      (div_le_div_of_nonneg_right hsub (by norm_num : (0 : ℚ) ≤ 1000000000))
    rw [heq]
    exact rounded_mono (add_nonneg (rounded_nonneg _) (rounded_nonneg _))
      (add_le_add_right hfraction _)
  · refine (rounded_add_le hlt (rounded_nonneg _) s.rounded_subsec_lt).trans ?_
    refine (rounded_rounded (Nat.cast_nonneg t.secs)).ge.trans ?_
    exact rounded_mono (rounded_nonneg _) (le_add_of_nonneg_right (rounded_nonneg _))

/-! ## Products -/

theorem ofSeconds?_of_le {m : Nat} {e : ℤ} (h : (m : ℚ) * 2 ^ e ≤ 2 ^ 64 - 1) :
    (ofSeconds? (.finite false m e)).isSome := by
  obtain ⟨hpos, hvalue⟩ := fraction_div m e
  have hpos' : (0 : ℚ) < (fraction m e).2 := by exact_mod_cast hpos
  rw [← hvalue, div_le_iff₀ hpos'] at h
  have hle : (fraction m e).1 ≤ 18446744073709551615 * (fraction m e).2 := by
    norm_num at h
    exact_mod_cast h
  have hshort : roundDiv ((fraction m e).1 * 1000000000) (fraction m e).2 < spanLimit := by
    refine Nat.lt_of_le_of_lt (roundDiv_le (k := 18446744073709551615 * 1000000000) hpos ?_)
      (by decide)
    rw [Nat.mul_right_comm]
    exact Nat.mul_le_mul_right _ hle
  rw [ofSeconds?, if_neg (by simp)]
  simp only []
  rw [if_neg (by omega), ofNanos?, dif_pos hshort]
  rfl

theorem ofSeconds?_of_limit_le {m : Nat} {e : ℤ} (h : 2 ^ 64 ≤ (m : ℚ) * 2 ^ e) :
    ofSeconds? (.finite false m e) = none := by
  obtain ⟨hpos, hvalue⟩ := fraction_div m e
  have hpos' : (0 : ℚ) < (fraction m e).2 := by exact_mod_cast hpos
  rw [← hvalue, le_div_iff₀ hpos'] at h
  have hle : 18446744073709551616 * (fraction m e).2 ≤ (fraction m e).1 := by
    norm_num at h
    exact_mod_cast h
  rw [ofSeconds?, if_neg (by simp)]
  exact if_pos hle

/-- A product is too long for a span exactly if it is rounded to 2^64 seconds or more. -/
theorem scale?_eq_none_iff (hfactor : factor.Is x) :
    s.scale? factor = none ↔ 2 ^ 64 - 2 ^ 10 ≤ x * s.seconds.magnitude := by
  obtain ⟨num, den, hden, hvalue, hproduct⟩ := hfactor.mul s.seconds_is
  have hnonneg : 0 ≤ (num : ℚ) / den := by positivity
  rw [scale?, hproduct, s.seconds_is.magnitude, ← hvalue]
  constructor
  · intro hnone
    by_contra hless
    rw [not_le] at hless
    obtain ⟨m, e, hround, hm⟩ := is_round hden (hless.trans (by norm_num))
    have hsome := ofSeconds?_of_le (hm.trans_le ((rounded_lt_limit hnonneg hless).trans
      (by norm_num)))
    rw [← hround, hnone] at hsome
    cases hsome
  · intro hlong
    rcases round_cases num hden false with ⟨m, e, hround, hm⟩ | ⟨hround, -⟩
    · rw [hround, ofSeconds?_of_limit_le]
      rw [hm]
      exact limit_le_rounded hlong
    · rw [hround]
      rfl

end Time.Span

namespace RetryPolicy

variable {p : RetryPolicy} {delay : Span} {count : Nat}

/-! ## Policies -/

/-- A multiplier that is not used is replaced by one. -/
theorem magnitude_factor_of_unused
    (h : (p.multiplier.isFinite && p.multiplier.atLeastOne) = false) : p.factor.magnitude = 1 := by
  have hone := Binary64.is_ofNat (n := 1) (by norm_num)
  rw [Nat.cast_one] at hone
  rw [factor, h, if_neg Bool.false_ne_true, hone.magnitude]
  exact_mod_cast Binary64.rounded_natCast (n := 1) (by norm_num)

theorem factor_is (p : RetryPolicy) : p.factor.Is p.factor.magnitude := by
  rw [factor]
  split
  · next husable =>
      cases hmultiplier : p.multiplier with
      | nan =>
          rw [hmultiplier] at husable
          cases husable
      | infinite negative =>
          rw [hmultiplier] at husable
          cases husable
      | finite negative m e =>
          cases negative with
          | false => exact ⟨m, e, rfl, rfl⟩
          | true =>
              rw [hmultiplier] at husable
              cases husable
  · have hone := Binary64.is_ofNat (n := 1) (by norm_num)
    rwa [hone.magnitude]

/-- When there is no pause after a pause. -/
theorem nextDelay?_eq_none_iff :
    p.nextDelay? delay = none ↔
      2 ^ 64 - 2 ^ 10 ≤ p.factor.magnitude * delay.seconds.magnitude := by
  rw [nextDelay?, Option.map_eq_none_iff, Span.scale?_eq_none_iff p.factor_is]

/-- If a pause can be multiplied, so can every shorter one. -/
theorem nextDelay?_isSome_of_le {longer : Span} (h : delay.nanos ≤ longer.nanos)
    (hlonger : (p.nextDelay? longer).isSome) : (p.nextDelay? delay).isSome := by
  rw [Option.isSome_iff_ne_none, ne_eq, nextDelay?_eq_none_iff, not_le] at hlonger ⊢
  refine lt_of_le_of_lt ?_ hlonger
  exact mul_le_mul_of_nonneg_left (Span.seconds_mono h) p.factor_is.nonneg

/-- The longest maximum that a policy can have, in seconds. -/
theorem seconds_maxDelay_le (p : RetryPolicy) :
    p.maxDelay.seconds.magnitude ≤ 18446744073709552 := by
  have hmost : p.maxDelay.nanos ≤ (Span.ofMillis 18446744073709551615).nanos := by
    have hms := p.maxDelayMs.toNat_lt
    show p.maxDelayMs.toNat * 1000000 ≤ 18446744073709551615 * 1000000
    omega
  have hseconds : (Span.ofMillis 18446744073709551615).seconds
      = .finite false 4611686018427388 2 := by decide +kernel
  refine (Span.seconds_mono hmost).trans ?_
  rw [hseconds, Binary64.magnitude]
  norm_num

theorem nextDelay?_isSome_of_moderate (h : p.factor.magnitude ≤ 999) :
    (p.nextDelay? p.maxDelay).isSome := by
  rw [Option.isSome_iff_ne_none, ne_eq, nextDelay?_eq_none_iff, not_le]
  calc p.factor.magnitude * p.maxDelay.seconds.magnitude
      ≤ 999 * p.maxDelay.seconds.magnitude :=
        mul_le_mul_of_nonneg_right h p.maxDelay.magnitude_seconds_nonneg
    _ ≤ 999 * 18446744073709552 :=
        mul_le_mul_of_nonneg_left p.seconds_maxDelay_le (by norm_num)
    _ < 2 ^ 64 - 2 ^ 10 := by norm_num

/-- If the maximum can be multiplied, so can every pause that it bounds, and every one after it. -/
theorem delaysFrom?_isSome (hmax : (p.nextDelay? p.maxDelay).isSome)
    (h : delay.nanos ≤ p.maxDelay.nanos) : (p.delaysFrom? count delay).isSome := by
  induction count generalizing delay with
  | zero => rfl
  | succ count ih =>
      obtain ⟨following, hnext⟩ := Option.isSome_iff_exists.1 (nextDelay?_isSome_of_le h hmax)
      obtain ⟨rest, hrest⟩ := Option.isSome_iff_exists.1 (ih (nanos_nextDelay_le hnext))
      have hdelays : p.delaysFrom? (count + 1) delay = some (delay :: rest) :=
        Option.bind_eq_some_iff.2 ⟨following, hnext, Option.bind_eq_some_iff.2 ⟨rest, hrest, rfl⟩⟩
      rw [hdelays]
      rfl

end RetryPolicy

namespace Retry

variable {σ ε α : Type} {plan : Plan ε} {world : Surroundings σ ε α} {left made : Nat}
  {delay : Span} {s : σ}

/-! ## Runs -/

/-- Surroundings in which an operation comes to nothing: every attempt fails in a way that another
could help, and no pause is interrupted. -/
structure Futile (plan : Plan ε) (world : Surroundings σ ε α) : Prop where
  attempt : ∀ s, ∃ e s', world.attempt s = (.ok (.error e), s') ∧ plan.isTransient e = true
  pause : ∀ delay s, (world.pause delay s).1 = none

/-- Only a pause that cannot be multiplied ends the program. -/
theorem delaysFrom?_of_overflow (h : (attemptFrom plan world left made delay s).1 = .overflow) :
    plan.policy.delaysFrom? left delay = none := by
  induction left generalizing made delay s with
  | zero =>
      rw [attemptFrom] at h
      split at h
      · cases h
      · cases h
      · split at h <;> cases h
  | succ left ih =>
      rw [attemptFrom] at h
      split at h
      · cases h
      · cases h
      · split at h
        · cases h
        · simp only [] at h
          split at h
          · cases h
          · rw [RetryPolicy.delaysFrom?]
            split at h
            · next hnext => rw [hnext]; rfl
            · next following hnext =>
                rw [hnext, Option.bind_eq_bind, Option.bind_some, ih h]
                rfl

theorem overflow_of_delaysFrom? (hfutile : Futile plan world)
    (h : plan.policy.delaysFrom? left delay = none) :
    (attemptFrom plan world left made delay s).1 = .overflow := by
  induction left generalizing made delay s with
  | zero => cases h
  | succ left ih =>
      obtain ⟨e, s', hattempt, htransient⟩ := hfutile.attempt s
      rw [attemptFrom, hattempt]
      simp only [htransient, Bool.not_true, Bool.false_eq_true, if_false]
      have hpause := hfutile.pause delay (world.report (retryEvent plan.operation (made + 1)
        plan.policy.attemptLimit delay (plan.text e)) s')
      rcases hworld : world.pause delay (world.report (retryEvent plan.operation (made + 1)
        plan.policy.attemptLimit delay (plan.text e)) s') with ⟨interrupted, s''⟩
      rw [hworld] at hpause
      cases hpause
      cases hnext : plan.policy.nextDelay? delay with
      | none => rfl
      | some following =>
          rw [RetryPolicy.delaysFrom?, hnext, Option.bind_eq_bind, Option.bind_some] at h
          refine ih ?_
          cases hrest : plan.policy.delaysFrom? left following with
          | none => rfl
          | some rest =>
              rw [hrest] at h
              cases h

end Retry

namespace RetryPolicy

/-- For every policy: no pause is longer than the maximum. A pause has none after it exactly if
factor and pause, multiplied in seconds, reach the middle between the last number of the format
below 2^64 and 2^64. This never happens, after however many pauses, if the factor is at most 999,
as it is where the multiplier is not used, or if the maximum can be multiplied. A run ends the
program only if one of the pauses between its attempts has none after it, and then it does so as
soon as nothing else ends it before. -/
theorem backoff_course (p : RetryPolicy) :
    (∀ count delays, p.delaysFrom? count p.firstDelay = some delays →
      ∀ d ∈ delays, d.nanos ≤ p.maxDelay.nanos) ∧
    (∀ delay, p.nextDelay? delay = none ↔
      2 ^ 64 - 2 ^ 10 ≤ p.factor.magnitude * delay.seconds.magnitude) ∧
    (p.factor.magnitude ≤ 999 ∨ (p.nextDelay? p.maxDelay).isSome →
      ∀ count, (p.delaysFrom? count p.firstDelay).isSome) ∧
    ((p.multiplier.isFinite && p.multiplier.atLeastOne) = false → p.factor.magnitude = 1) ∧
    ∀ {σ ε α : Type} (plan : Retry.Plan ε) (world : Retry.Surroundings σ ε α) (s : σ),
      plan.policy = p →
      ((Retry.run plan world s).1 = .overflow →
        p.delaysFrom? (p.attemptLimit - 1) p.firstDelay = none) ∧
      (Retry.Futile plan world → p.delaysFrom? (p.attemptLimit - 1) p.firstDelay = none →
        (Retry.run plan world s).1 = .overflow) := by
  have hfirst : p.firstDelay.nanos ≤ p.maxDelay.nanos := nanos_min_le _ _
  refine ⟨fun count delays h => nanos_delaysFrom_le h hfirst, fun delay => nextDelay?_eq_none_iff,
    fun h count => ?_, magnitude_factor_of_unused, ?_⟩
  · exact delaysFrom?_isSome (h.elim nextDelay?_isSome_of_moderate id) hfirst
  · rintro σ ε α plan world s rfl
    exact ⟨Retry.delaysFrom?_of_overflow, Retry.overflow_of_delaysFrom?⟩

/-- The usual policy, with a multiplier of 10^300. -/
def immense : RetryPolicy :=
  { RetryPolicy.standard with multiplier := .finite false 6724873095247260 944 }

/-- Surroundings in which every attempt fails. -/
def failing : Retry.Surroundings Unit Unit Unit where
  attempt s := (.ok (.error ()), s)
  pause _ s := (none, s)
  report _ s := s

/-- Although no pause may be longer than two seconds, there is none after the first, and a run
that comes to it ends the program. -/
theorem backoff_not_safe :
    (¬ ∀ (p : RetryPolicy) (count : Nat), ∃ delays,
      p.delaysFrom? count p.firstDelay = some delays ∧
        ∀ d ∈ delays, d.nanos ≤ p.maxDelay.nanos) ∧
    ¬ ∀ (plan : Retry.Plan Unit) (world : Retry.Surroundings Unit Unit Unit),
      (Retry.run plan world ()).1 ≠ .overflow := by
  have hnone : immense.delaysFrom? 1 immense.firstDelay = none := by decide +kernel
  refine ⟨fun h => ?_, fun h => ?_⟩
  · obtain ⟨delays, hdelays, -⟩ := h immense 1
    rw [hnone] at hdelays
    cases hdelays
  · have hfutile : Retry.Futile ⟨immense, "", fun _ => true, fun _ => ""⟩ failing :=
      ⟨fun s => ⟨(), s, rfl, rfl⟩, fun _ _ => rfl⟩
    refine h _ failing (Retry.overflow_of_delaysFrom? hfutile ?_)
    decide +kernel

end RetryPolicy

end ChatArchive
