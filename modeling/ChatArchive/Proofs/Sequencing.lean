import Mathlib.Data.List.Forall2

/-!
# Steps in sequence

Readers of times and of JSON are steps that consume a state and may fail;
statements over many rows are steps that may fail without a state. Their proofs
never look at how steps are chained: a step that succeeds hands its answer and
its state to the next one, a step that fails ends the chain, and a step for each
item of a list succeeds when all of them do. Steps on a store or on nonces differ
in that the state is kept when they fail.
-/

namespace ChatArchive

variable {σ ε α β : Type}

/-- A step that succeeds hands over to the next. -/
theorem bind_ok {x : StateT σ (Except ε) α} {f : α → StateT σ (Except ε) β}
    {s s' : σ} {a : α} (h : x s = .ok (a, s')) : (x >>= f) s = f a s' := by
  show (x s).bind (fun p => f p.1 p.2) = f a s'
  rw [h]
  rfl

/-- A step that fails ends the chain. -/
theorem bind_error {x : StateT σ (Except ε) α} {f : α → StateT σ (Except ε) β}
    {s : σ} {e : ε} (h : x s = .error e) : (x >>= f) s = .error e := by
  show (x s).bind (fun p => f p.1 p.2) = .error e
  rw [h]
  rfl

theorem pure_apply (a : α) (s : σ) :
    (pure a : StateT σ (Except ε) α) s = .ok (a, s) := rfl

theorem get_apply (s : σ) :
    (get : StateT σ (Except ε) σ) s = .ok (s, s) := rfl

theorem modify_apply (f : σ → σ) (s : σ) :
    (modify f : StateT σ (Except ε) PUnit) s = .ok (⟨⟩, f s) := rfl

theorem set_apply (s s' : σ) :
    (set s' : StateT σ (Except ε) PUnit) s = .ok (⟨⟩, s') := rfl

/-- A chain succeeds exactly when its first step does and the rest does after
it. -/
theorem Except.bind_eq_ok {x : Except ε α} {f : α → Except ε β} {b : β} :
    (x >>= f) = .ok b ↔ ∃ a, x = .ok a ∧ f a = .ok b := by
  cases x with
  | error e =>
      constructor
      · intro h; cases h
      · intro h'
        obtain ⟨a, h, -⟩ := h'
        cases h
  | ok a =>
      constructor
      · intro h; exact ⟨a, rfl, h⟩
      · intro h'
        obtain ⟨b, hb, h⟩ := h'
        cases hb
        exact h

/-- A step for each item succeeds exactly when every one of them does. -/
theorem mapM_eq_ok {f : α → Except ε β} {as : List α} {bs : List β} :
    as.mapM f = .ok bs ↔ List.Forall₂ (fun a b => f a = .ok b) as bs := by
  induction as generalizing bs with
  | nil =>
      rw [List.mapM_nil, List.forall₂_nil_left_iff]
      constructor
      · intro h; cases h; rfl
      · intro h; rw [h]; rfl
  | cons a as ih =>
      rw [List.mapM_cons, List.forall₂_cons_left_iff, Except.bind_eq_ok]
      constructor
      · intro h'
        obtain ⟨b, hb, h⟩ := h'
        obtain ⟨bs', hbs', h⟩ := Except.bind_eq_ok.1 h
        cases h
        exact ⟨b, bs', hb, ih.1 hbs', rfl⟩
      · intro h'
        obtain ⟨b, bs', hb, hbs', rfl⟩ := h'
        exact ⟨b, hb, Except.bind_eq_ok.2 ⟨bs', ih.2 hbs', rfl⟩⟩

/-- What stands on the right of a pairing has a partner on the left. -/
theorem exists_of_forall₂_right {R : α → β → Prop} {as : List α} {bs : List β}
    (h : List.Forall₂ R as bs) {b : β} (hb : b ∈ bs) : ∃ a ∈ as, R a b := by
  induction h with
  | nil => cases hb
  | cons hab hrest ih =>
      rcases List.mem_cons.1 hb with rfl | hb
      · exact ⟨_, List.mem_cons_self, hab⟩
      · obtain ⟨a, ha, hR⟩ := ih hb
        exact ⟨a, List.mem_cons_of_mem _ ha, hR⟩

/-- A list can be paired exactly if each of its items can. -/
theorem exists_forall₂_iff {R : α → β → Prop} {as : List α} :
    (∃ bs, List.Forall₂ R as bs) ↔ ∀ a ∈ as, ∃ b, R a b := by
  induction as with
  | nil => exact iff_of_true ⟨[], .nil⟩ (fun _ h => absurd h List.not_mem_nil)
  | cons a as ih =>
      rw [List.forall_mem_cons, ← ih]
      constructor
      · intro h'
        obtain ⟨bs, h⟩ := h'
        obtain ⟨b, bs', hb, hbs, -⟩ := List.forall₂_cons_left_iff.1 h
        exact ⟨⟨b, hb⟩, bs', hbs⟩
      · intro h'
        obtain ⟨⟨b, hb⟩, bs, hbs⟩ := h'
        exact ⟨b :: bs, .cons hb hbs⟩

/-! ## Steps that keep their state when they fail -/

theorem run_pure (a : α) (s : σ) :
    (pure a : ExceptT ε (StateM σ) α).run.run s = (.ok a, s) := rfl

theorem run_throw (e : ε) (s : σ) :
    (throw e : ExceptT ε (StateM σ) α).run.run s = (.error e, s) := rfl

theorem run_getThe (s : σ) :
    (getThe σ : ExceptT ε (StateM σ) σ).run.run s = (.ok s, s) := rfl

theorem run_bind (x : ExceptT ε (StateM σ) α) (f : α → ExceptT ε (StateM σ) β) (s : σ) :
    (x >>= f).run.run s = match x.run.run s with
      | (.ok a, s') => (f a).run.run s'
      | (.error e, s') => (.error e, s') := by
  show (ExceptT.bindCont f (x.run.run s).1) (x.run.run s).2 = _
  cases x.run.run s with
  | mk answer s' => cases answer <;> rfl

theorem run_bind_ok {x : ExceptT ε (StateM σ) α} {f : α → ExceptT ε (StateM σ) β}
    {s s' : σ} {a : α} (h : x.run.run s = (.ok a, s')) :
    (x >>= f).run.run s = (f a).run.run s' := by
  rw [run_bind, h]

theorem run_bind_error {x : ExceptT ε (StateM σ) α} {f : α → ExceptT ε (StateM σ) β}
    {s s' : σ} {e : ε} (h : x.run.run s = (.error e, s')) :
    (x >>= f).run.run s = (.error e, s') := by
  rw [run_bind, h]

/-- A chain succeeds exactly when its first step does and the rest does after
it. -/
theorem run_bind_eq_ok {x : ExceptT ε (StateM σ) α} {f : α → ExceptT ε (StateM σ) β}
    {s s'' : σ} {b : β} :
    (x >>= f).run.run s = (.ok b, s'')
      ↔ ∃ a s', x.run.run s = (.ok a, s') ∧ (f a).run.run s' = (.ok b, s'') := by
  rw [run_bind]
  rcases x.run.run s with ⟨_ | a, s'⟩
  · constructor
    · intro h; cases h
    · intro h'
      obtain ⟨a, t, h, -⟩ := h'
      cases h
  · constructor
    · intro h; exact ⟨a, s', rfl, h⟩
    · intro h'
      obtain ⟨b, t, hb, h⟩ := h'
      cases hb
      exact h

/-- A handler goes on where the step that failed has stopped. -/
theorem run_tryCatch (x : ExceptT ε (StateM σ) α) (f : ε → ExceptT ε (StateM σ) α) (s : σ) :
    (tryCatch x f).run.run s = match x.run.run s with
      | (.ok a, s') => (.ok a, s')
      | (.error e, s') => (f e).run.run s' := by
  have h : (tryCatch x f).run.run s = (x.run >>= fun r => match r with
    | .ok a => pure (.ok a)
    | .error e => (f e).run).run s := rfl
  rw [h, StateT.run_bind]
  show (match (x.run.run s).1 with
    | .ok a => (pure (Except.ok a) : StateM σ (Except ε α))
    | .error e => (f e).run).run (x.run.run s).2 = _
  rcases x.run.run s with ⟨_ | a, s'⟩
  · rfl
  · rfl

end ChatArchive
