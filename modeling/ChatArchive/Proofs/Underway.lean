import ChatArchive.Proofs.Lockstep
import ChatArchive.Store.Basic

/-!
# Retried transactions in lockstep

Two stores that are related retry two transactions side by side. What is carried along beside the
stores is how far their operations have come, and that is the same on both sides: pauses depend on
the settings and the deadline only. So all that has to be known is that attempts agree and leave
related stores.
-/

namespace ChatArchive.Store

open Time

variable {α β : Type} {S : Store → Store → Prop} {R : α → β → Prop} {f : Transaction α}
  {g : Transaction β}

/-- Related stores with operations that have come equally far. -/
def Underway (S : Store → Store → Prop) (s s' : Store × Progress) : Prop :=
  S s.1 s'.1 ∧ s.2 = s'.2

/-- Pauses are cut short on both sides or on neither. -/
theorem underway_pause (f : Transaction α) (g : Transaction β) (delay : Span)
    (s s' : Store × Progress) (h : Underway S s s') :
    ((surroundings f).pause delay s).1 = ((surroundings g).pause delay s').1 ∧
      Underway S ((surroundings f).pause delay s).2 ((surroundings g).pause delay s').2 := by
  obtain ⟨s, p⟩ := s
  obtain ⟨s', p'⟩ := s'
  obtain ⟨h, rfl⟩ := h
  simp only [surroundings]
  cases p.pause? delay with
  | none => exact ⟨rfl, h, rfl⟩
  | some p' => exact ⟨rfl, h, rfl⟩

theorem lockstep_retryingFrom (hsettings : ∀ {s s'}, S s s' → s.settings = s'.settings)
    (hagree : Retry.Surroundings.Agree (Underway S) R (surroundings f) (surroundings g))
    (operation : String) (p : Progress) :
    Lockstep S (fun x y => R x.1 y.1 ∧ x.2 = y.2) (retryingFrom operation p f)
      (retryingFrom operation p g) := by
  intro s s' h
  obtain ⟨houtcome, hstate⟩ := Retry.run_agree hagree (plan s.settings operation)
    (s := (s, p)) (t := (s', p)) ⟨h, rfl⟩
  rw [retryingFrom, retryingFrom, run_bind_ok (run_getThe s), run_bind_ok (run_getThe s'),
    ← hsettings h]
  generalize Retry.run _ (surroundings f) (s, p) = x at houtcome hstate ⊢
  generalize Retry.run _ (surroundings g) (s', p) = y at houtcome hstate ⊢
  obtain ⟨outcome, s, q⟩ := x
  obtain ⟨outcome', s', q'⟩ := y
  obtain ⟨hstate, hq⟩ := hstate
  cases houtcome with
  | done h => exact ⟨.ok ⟨h, hq⟩, hstate⟩
  | failed failure => exact ⟨.error _, hstate⟩
  | overflow => exact ⟨.error _, hstate⟩

theorem lockstep_retrying (hsettings : ∀ {s s'}, S s s' → s.settings = s'.settings)
    (hagree : Retry.Surroundings.Agree (Underway S) R (surroundings f) (surroundings g))
    (operation : String) (timeout : TimeoutSettings → UInt64) :
    Lockstep S R (retrying operation timeout f) (retrying operation timeout g) := by
  refine Lockstep.getThe.bind fun s s' h => ?_
  rw [hsettings h]
  exact (lockstep_retryingFrom hsettings hagree operation _).bind fun x y hxy => .pure hxy.1

end ChatArchive.Store
