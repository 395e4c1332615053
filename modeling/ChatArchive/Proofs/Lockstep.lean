import ChatArchive.Proofs.Sequencing
import ChatArchive.Retry.Basic

/-!
# Two runs in lockstep

Two steps run in lockstep if they start in related states and then fail with the same
error or succeed with related answers, and leave related states in either case. Steps in
lockstep can be put together as steps can, so two programs of the same shape run in
lockstep as soon as their parts do. The retry loop is such a program: it is written over
surroundings, and two worlds that answer attempts and pauses in lockstep are taken through
the same rounds.
-/

namespace ChatArchive

variable {σ ε α β γ δ : Type}

/-! ## Paired lists -/

section Paired

variable {R : α → β → Prop} {as : List α} {bs : List β}

theorem map_eq_of_forall₂ (h : List.Forall₂ R as bs) {f : α → γ} {g : β → γ}
    (hfg : ∀ a b, R a b → f a = g b) : as.map f = bs.map g := by
  induction h with
  | nil => rfl
  | cons hab hrest ih => rw [List.map_cons, List.map_cons, hfg _ _ hab, ih]

theorem forall₂_and_mem (h : List.Forall₂ R as bs) {P : α → Prop} {Q : β → Prop}
    (hP : ∀ a ∈ as, P a) (hQ : ∀ b ∈ bs, Q b) :
    List.Forall₂ (fun a b => R a b ∧ P a ∧ Q b) as bs := by
  induction h with
  | nil => exact .nil
  | cons hab hrest ih =>
      rw [List.forall_mem_cons] at hP hQ
      exact .cons ⟨hab, hP.1, hQ.1⟩ (ih hP.2 hQ.2)

theorem forall₂_filter (h : List.Forall₂ R as bs) {p : α → Bool} {q : β → Bool}
    (hpq : ∀ a b, R a b → p a = q b) : List.Forall₂ R (as.filter p) (bs.filter q) :=
  List.rel_filter (fun {a b} hab => iff_of_eq (congrArg (· = true) (hpq a b hab))) h

theorem any_eq_of_forall₂ (h : List.Forall₂ R as bs) {p : α → Bool} {q : β → Bool}
    (hpq : ∀ a b, R a b → p a = q b) : as.any p = bs.any q := by
  induction h with
  | nil => rfl
  | cons hab hrest ih => rw [List.any_cons, List.any_cons, hpq _ _ hab, ih]

theorem countP_eq_of_forall₂ (h : List.Forall₂ R as bs) {p : α → Bool} {q : β → Bool}
    (hpq : ∀ a b, R a b → p a = q b) : as.countP p = bs.countP q := by
  rw [List.countP_eq_length_filter, List.countP_eq_length_filter]
  exact (forall₂_filter h hpq).length_eq

theorem rel_find? (h : List.Forall₂ R as bs) {p : α → Bool} {q : β → Bool}
    (hpq : ∀ a b, R a b → p a = q b) : Option.Rel R (as.find? p) (bs.find? q) := by
  induction h with
  | nil => exact .none
  | @cons a b as bs hab hrest ih =>
      cases hp : p a with
      | true =>
          rw [List.find?_cons_of_pos hp, List.find?_cons_of_pos ((hpq a b hab).symm.trans hp)]
          exact .some hab
      | false =>
          have hq : q b = false := (hpq a b hab).symm.trans hp
          rw [List.find?_cons_of_neg (by rw [hp]; decide),
            List.find?_cons_of_neg (by rw [hq]; decide)]
          exact ih

/-- Sorting by orders that agree keeps the pairs together. -/
theorem forall₂_mergeSort (h : List.Forall₂ R as bs) {le : α → α → Bool} {le' : β → β → Bool}
    (hle : ∀ a b c d, R a b → R c d → le a c = le' b d) :
    List.Forall₂ R (as.mergeSort le) (bs.mergeSort le') := by
  obtain ⟨hlength, hzip⟩ := List.forall₂_iff_zip.1 h
  have hsorted : ((as.zip bs).mergeSort fun p q => le p.1 q.1).map Prod.fst
      = as.mergeSort le := by
    rw [List.map_mergeSort (s := le) fun _ _ _ _ => rfl,
      List.map_fst_zip (Nat.le_of_eq hlength)]
  have hsorted' : ((as.zip bs).mergeSort fun p q => le p.1 q.1).map Prod.snd
      = bs.mergeSort le' := by
    rw [List.map_mergeSort (s := le') fun p hp q hq => hle _ _ _ _ (hzip hp) (hzip hq),
      List.map_snd_zip (Nat.le_of_eq hlength.symm)]
  rw [← hsorted, ← hsorted', List.forall₂_map_left_iff, List.forall₂_map_right_iff,
    List.forall₂_same]
  intro p hp
  exact hzip ((List.mergeSort_perm _ _).mem_iff.1 hp)

end Paired

/-! ## Steps -/

/-- The same error, or related answers. -/
inductive Agree (R : α → β → Prop) : Except ε α → Except ε β → Prop
  | error (e : ε) : Agree R (.error e) (.error e)
  | ok {a : α} {b : β} (h : R a b) : Agree R (.ok a) (.ok b)

namespace Agree

variable {R : α → β → Prop} {T : γ → δ → Prop}

theorem of_eq {R : α → α → Prop} (hR : ∀ a, R a a) {x y : Except ε α} (h : x = y) :
    Agree R x y := by
  cases h
  cases x with
  | error e => exact .error e
  | ok a => exact .ok (hR a)

theorem bind {x : Except ε α} {y : Except ε β} {f : α → Except ε γ} {g : β → Except ε δ}
    (h : Agree R x y) (hfg : ∀ a b, R a b → Agree T (f a) (g b)) :
    Agree T (x >>= f) (y >>= g) := by
  cases h with
  | error e => exact .error e
  | ok h => exact hfg _ _ h

/-- A step for each item of two paired lists. -/
theorem mapM {f : α → Except ε γ} {g : β → Except ε δ} {as : List α} {bs : List β}
    (h : List.Forall₂ R as bs) (hfg : ∀ a b, R a b → Agree T (f a) (g b)) :
    Agree (List.Forall₂ T) (as.mapM f) (bs.mapM g) := by
  induction h with
  | nil => exact .ok .nil
  | cons hab hrest ih =>
      rw [List.mapM_cons, List.mapM_cons]
      exact (hfg _ _ hab).bind fun c d hcd => ih.bind fun cs ds hcds => .ok (.cons hcd hcds)

end Agree

/-- Two steps that keep their state when they fail, in lockstep. -/
def Lockstep (S : σ → σ → Prop) (R : α → β → Prop) (x : ExceptT ε (StateM σ) α)
    (y : ExceptT ε (StateM σ) β) : Prop :=
  ∀ s t, S s t → Agree R (x.run.run s).1 (y.run.run t).1 ∧ S (x.run.run s).2 (y.run.run t).2

namespace Lockstep

variable {S : σ → σ → Prop} {R : α → β → Prop} {T : γ → δ → Prop}

theorem pure {a : α} {b : β} (h : R a b) :
    Lockstep S R (Pure.pure a : ExceptT ε (StateM σ) α) (Pure.pure b) :=
  fun _ _ hst => ⟨.ok h, hst⟩

theorem throw (e : ε) :
    Lockstep S R (MonadExcept.throw e : ExceptT ε (StateM σ) α) (MonadExcept.throw e) :=
  fun _ _ hst => ⟨.error e, hst⟩

theorem getThe : Lockstep S S (MonadStateOf.get : ExceptT ε (StateM σ) σ) MonadStateOf.get :=
  fun _ _ hst => ⟨.ok hst, hst⟩

theorem modify {f g : σ → σ} (h : ∀ s t, S s t → S (f s) (g t)) :
    Lockstep S Eq (MonadStateOf.modifyGet fun s => (⟨⟩, f s) : ExceptT ε (StateM σ) PUnit)
      (MonadStateOf.modifyGet fun s => (⟨⟩, g s)) :=
  fun s t hst => ⟨.ok rfl, h s t hst⟩

theorem bind {x : ExceptT ε (StateM σ) α} {y : ExceptT ε (StateM σ) β}
    {f : α → ExceptT ε (StateM σ) γ} {g : β → ExceptT ε (StateM σ) δ}
    (h : Lockstep S R x y) (hfg : ∀ a b, R a b → Lockstep S T (f a) (g b)) :
    Lockstep S T (x >>= f) (y >>= g) := by
  intro s t hst
  obtain ⟨hanswer, hstate⟩ := h s t hst
  rw [run_bind, run_bind]
  generalize x.run.run s = p at hanswer hstate ⊢
  generalize y.run.run t = p' at hanswer hstate ⊢
  obtain ⟨answer, s'⟩ := p
  obtain ⟨answer', t'⟩ := p'
  cases hanswer with
  | error e => exact ⟨.error e, hstate⟩
  | ok hab => exact hfg _ _ hab s' t' hstate

theorem map {x : ExceptT ε (StateM σ) α} {y : ExceptT ε (StateM σ) β} {f : α → γ} {g : β → δ}
    (h : Lockstep S R x y) (hfg : ∀ a b, R a b → T (f a) (g b)) :
    Lockstep S T (f <$> x) (g <$> y) := by
  rw [map_eq_pure_bind, map_eq_pure_bind]
  exact h.bind fun a b hab => .pure (hfg a b hab)

theorem mapM {f : α → ExceptT ε (StateM σ) γ} {g : β → ExceptT ε (StateM σ) δ}
    {as : List α} {bs : List β} (h : List.Forall₂ R as bs)
    (hfg : ∀ a b, R a b → Lockstep S T (f a) (g b)) :
    Lockstep S (List.Forall₂ T) (as.mapM f) (bs.mapM g) := by
  induction h with
  | nil => exact .pure .nil
  | cons hab hrest ih =>
      rw [List.mapM_cons, List.mapM_cons]
      exact (hfg _ _ hab).bind fun c d hcd => ih.bind fun cs ds hcds => .pure (.cons hcd hcds)

theorem tryCatch {x : ExceptT ε (StateM σ) α} {y : ExceptT ε (StateM σ) β}
    {f : ε → ExceptT ε (StateM σ) α} {g : ε → ExceptT ε (StateM σ) β}
    (h : Lockstep S R x y) (hfg : ∀ e, Lockstep S R (f e) (g e)) :
    Lockstep S R (MonadExcept.tryCatch x f) (MonadExcept.tryCatch y g) := by
  intro s t hst
  obtain ⟨hanswer, hstate⟩ := h s t hst
  rw [run_tryCatch, run_tryCatch]
  generalize x.run.run s = p at hanswer hstate ⊢
  generalize y.run.run t = p' at hanswer hstate ⊢
  obtain ⟨answer, s'⟩ := p
  obtain ⟨answer', t'⟩ := p'
  cases hanswer with
  | error e => exact hfg e s' t' hstate
  | ok hab => exact ⟨.ok hab, hstate⟩

end Lockstep

/-! ## The retry loop -/

namespace Retry

/-- The same ending, with related answers if it is a success. -/
inductive Outcome.Agree (R : α → β → Prop) : Outcome ε α → Outcome ε β → Prop
  | done {a : α} {b : β} (h : R a b) : Outcome.Agree R (.done a) (.done b)
  | failed (failure : Failure ε) : Outcome.Agree R (.failed failure) (.failed failure)
  | overflow : Outcome.Agree R .overflow .overflow

/-- Two worlds that go together: attempts are refused for the same reason or agree, pauses
are interrupted for the same reason, and all of it keeps the states related. -/
structure Surroundings.Agree {τ : Type} (S : σ → τ → Prop) (R : α → β → Prop)
    (world : Surroundings σ ε α) (world' : Surroundings τ ε β) : Prop where
  attempt : ∀ s t, S s t →
    ChatArchive.Agree (ChatArchive.Agree R) (world.attempt s).1 (world'.attempt t).1 ∧
      S (world.attempt s).2 (world'.attempt t).2
  pause : ∀ delay s t, S s t →
    (world.pause delay s).1 = (world'.pause delay t).1 ∧
      S (world.pause delay s).2 (world'.pause delay t).2
  report : ∀ event s t, S s t → S (world.report event s) (world'.report event t)

variable {τ : Type} {S : σ → τ → Prop} {R : α → β → Prop} {world : Surroundings σ ε α}
  {world' : Surroundings τ ε β}

/-- Worlds that go together take the loop through the same rounds. The induction is on the
attempts that are left. -/
theorem attemptFrom_agree (h : Surroundings.Agree S R world world') (plan : Plan ε)
    (left made : Nat) (delay : Time.Span) {s : σ} {t : τ} (hst : S s t) :
    Outcome.Agree R (attemptFrom plan world left made delay s).1
        (attemptFrom plan world' left made delay t).1 ∧
      S (attemptFrom plan world left made delay s).2
        (attemptFrom plan world' left made delay t).2 := by
  induction left using Nat.strongRecOn generalizing made delay s t with
  | ind left ih =>
      obtain ⟨hattempt, hstate⟩ := h.attempt s t hst
      unfold attemptFrom
      generalize world.attempt s = p at hattempt hstate ⊢
      generalize world'.attempt t = p' at hattempt hstate ⊢
      obtain ⟨answer, s'⟩ := p
      obtain ⟨answer', t'⟩ := p'
      cases hattempt with
      | error reason => exact ⟨.failed _, hstate⟩
      | ok hanswer =>
          cases hanswer with
          | ok hab => exact ⟨.done hab, hstate⟩
          | error e =>
              dsimp only
              split
              · exact ⟨.failed _, hstate⟩
              cases left with
              | zero => exact ⟨.failed _, hstate⟩
              | succ left =>
                  obtain ⟨hreason, hpaused⟩ := h.pause delay _ _ (h.report
                    (retryEvent plan.operation (made + 1) plan.policy.attemptLimit delay
                      (plan.text e)) s' t' hstate)
                  dsimp only
                  generalize world.pause delay _ = paused at hreason hpaused ⊢
                  generalize world'.pause delay _ = paused' at hreason hpaused ⊢
                  obtain ⟨reason, s''⟩ := paused
                  obtain ⟨reason', t''⟩ := paused'
                  cases hreason
                  cases reason with
                  | some reason => exact ⟨.failed _, hpaused⟩
                  | none =>
                      dsimp only
                      cases plan.policy.nextDelay? delay with
                      | none => exact ⟨.overflow, hpaused⟩
                      | some next => exact ih left (Nat.lt_succ_self left) (made + 1) next hpaused

theorem run_agree (h : Surroundings.Agree S R world world') (plan : Plan ε) {s : σ} {t : τ}
    (hst : S s t) :
    Outcome.Agree R (run plan world s).1 (run plan world' t).1 ∧
      S (run plan world s).2 (run plan world' t).2 :=
  attemptFrom_agree h plan _ _ _ hst

end Retry

end ChatArchive
