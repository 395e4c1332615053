import ChatArchive.Proofs.Cuts
import ChatArchive.Proofs.Lockstep
import ChatArchive.Proofs.Pages
import ChatArchive.Proofs.Samples
import ChatArchive.Proofs.Underway

/-!
# What reading shows of a table

No answer to a reading shows how a message was encrypted or which duration was recorded. So
two tables that hold the same sessions once all messages are opened and the durations are
left out are read alike, with the same errors. They may hold them in different orders: only
the lists that a reading picks have to be the same.

Two open stores with equal settings and these tables go through a reading in lockstep,
whatever nonces, counters and events they have.
-/

namespace ChatArchive

open ContentCipher Time

theorem Agree.eq {ε α : Type} {a b : Except ε α} (h : Agree Eq a b) : a = b := by
  cases h with
  | error e => rfl
  | ok hab => rw [hab]

/-- A stored message with its content revealed. -/
def StoredMessage.opened (cipher : ContentCipher) (m : StoredMessage) : StoredMessage :=
  { m with content := (cipher.reveal m.content).1 }

/-- A stored session as readings show it. -/
def StoredSession.opened (cipher : ContentCipher) (x : StoredSession) : StoredSession :=
  { x with messages := x.messages.map (StoredMessage.opened cipher), duration := 0 }

namespace Store

/-- Two stored sessions that readings show as one. -/
def SameShown (cipher : ContentCipher) (x y : StoredSession) : Prop :=
  x.opened cipher = y.opened cipher

/-- Stores with two tables that have everything else that matters to a reading in common. -/
inductive Peers (base : Store) (t t' : Table) : Store → Store → Prop
  | mk (nonces nonces' : Cipher.Nonces) (counters counters' : Counters)
      (events events' : List Event) :
      Peers base t t'
        { base with table := t, nonces := nonces, counters := counters, events := events }
        { base with table := t', nonces := nonces', counters := counters', events := events' }

variable {cipher : ContentCipher} {x y : StoredSession} {xs ys : List StoredSession}
  {t t' : Table} {s s' base : Store} {α β : Type} {R : α → β → Prop}

/-! ## Stored sessions that show the same -/

theorem forall₂_sameShown (h : xs.map (StoredSession.opened cipher)
    = ys.map (StoredSession.opened cipher)) : List.Forall₂ (SameShown cipher) xs ys := by
  rw [← List.forall₂_eq_eq_eq, List.forall₂_map_left_iff, List.forall₂_map_right_iff] at h
  exact h

theorem toMessage_opened (x : StoredSession) :
    (x.opened cipher).messages.map (StoredMessage.toMessage .disabled)
      = x.messages.map (StoredMessage.toMessage cipher) := by
  rw [StoredSession.opened, List.map_map]
  rfl

/-- Nothing but messages and durations can be different. -/
theorem SameShown.eq_with (h : SameShown cipher x y) :
    y = { x with messages := y.messages, duration := y.duration } := by
  cases x
  cases y
  simp only [SameShown, StoredSession.opened, StoredSession.mk.injEq] at h ⊢
  simp [h]

theorem SameShown.toStored (h : SameShown cipher x y) :
    Agree (fun a b => a.toSession cipher = b.toSession cipher) (Row.ofStored x).toStored
      (Row.ofStored y).toStored := by
  have hmessages : x.messages.map (StoredMessage.toMessage cipher)
      = y.messages.map (StoredMessage.toMessage cipher) := by
    rw [← toMessage_opened x, ← toMessage_opened y, congrArg StoredSession.messages h]
  generalize hy : y.messages = ys at hmessages
  rw [h.eq_with, hy]
  have hread : Agree (fun a b => a = x.messages ∧ b = ys)
      (Row.readMessages (MessageColumn.text x.messages))
      (Row.readMessages (MessageColumn.text ys)) := by
    rw [Row.readMessages_text, Row.readMessages_text]
    exact .ok ⟨rfl, rfl⟩
  refine hread.bind fun ms ms' hms => ?_
  obtain ⟨rfl, rfl⟩ := hms
  refine (Agree.of_eq (fun _ => rfl) rfl).bind fun start start' hstart => ?_
  cases hstart
  refine (Agree.of_eq (fun _ => rfl) rfl).bind fun finish finish' hfinish => ?_
  cases hfinish
  refine (Agree.of_eq (fun _ => rfl) rfl).bind fun last last' hlast => ?_
  cases hlast
  refine .ok ?_
  simp only [StoredSession.toSession, hmessages]
  rfl

/-- A listing looks at the number of messages and at the time of the last one. -/
theorem summary_opened (cipher : ContentCipher) (x : StoredSession) :
    summary (listed (x.opened cipher)) = summary (listed x) := by
  have hlast : ((x.opened cipher).messages.getLast?.map fun m => String.ofList m.time.shortText)
      = x.messages.getLast?.map fun m => String.ofList m.time.shortText := by
    rw [StoredSession.opened, List.getLast?_map, Option.map_map]
    rfl
  have hcount : (x.opened cipher).messages.length = x.messages.length := by
    rw [StoredSession.opened, List.length_map]
  rw [listed, listed, hlast, hcount]
  rfl

theorem SameShown.summary (h : SameShown cipher x y) :
    Store.summary (listed x) = Store.summary (listed y) := by
  rw [← summary_opened cipher x, h, summary_opened]

theorem sortValueOf_opened (key : SortKey) (x : StoredSession) :
    sortValueOf key (x.opened cipher) = sortValueOf key x := by
  cases key with
  | messageCount =>
      rw [sortValueOf, sortValueOf, StoredSession.opened, List.length_map]
  | _ => rfl

theorem listsBefore_opened (q : ListQuery) (x y : StoredSession) :
    listsBefore q (x.opened cipher) (y.opened cipher) = listsBefore q x y := by
  rw [listsBefore, listsBefore, precedes_eq, precedes_eq, comparePairs, compareLex, compareLex,
    keyed, keyed, keyed, keyed, sortValueOf_opened, sortValueOf_opened]
  rfl

/-- Selecting and sorting do not look at what opening changes. -/
theorem sortedFor_opened (q : ListQuery) (xs : List StoredSession) :
    sortedFor q (xs.map (StoredSession.opened cipher))
      = (sortedFor q xs).map (StoredSession.opened cipher) := by
  rw [sortedFor, sortedFor, List.filter_map, List.map_mergeSort]
  · rfl
  · exact fun x _ y _ => (listsBefore_opened q x y).symm

/-- Stored sessions by their starts, the latest first. -/
def startedLast (x y : StoredSession) : Bool := startsLast (Row.ofStored x) (Row.ofStored y)

theorem startedLast_iff {x y : StoredSession} :
    startedLast x y = true ↔ y.startTime.toColumn ≤ x.startTime.toColumn := startsFirst_iff

theorem startedLast_trans (x y z : StoredSession) (h : startedLast x y = true)
    (h' : startedLast y z = true) : startedLast x z = true := startsLast_trans _ _ _ h h'

theorem startedLast_total (x y : StoredSession) :
    (startedLast x y || startedLast y x) = true := startsLast_total _ _

/-- The sessions that a page of active sessions is loaded from. -/
def latest (most : Nat) (xs : List StoredSession) : List StoredSession :=
  ((xs.filter (·.endTime.isNone)).mergeSort startedLast).take most

theorem latest_opened (most : Nat) (xs : List StoredSession) :
    latest most (xs.map (StoredSession.opened cipher))
      = (latest most xs).map (StoredSession.opened cipher) := by
  rw [latest, List.filter_map]
  exact take_mergeSort_map _ _ _ most

theorem take_openRows (h : t.Holds xs) (most : Nat) :
    (openRows t).take most = (latest most xs).map Row.ofStored := by
  have hopen : (fun x => (Row.ofStored x).endTime.isNone) = fun x => x.endTime.isNone :=
    funext fun x => Option.isNone_map
  rw [openRows, show t.rows = xs.map Row.ofStored from h, List.filter_map, take_mergeSort_map]
  exact congrArg (fun p => ((((xs.filter p).mergeSort startedLast).take most).map Row.ofStored))
    hopen

theorem mem_latest {most : Nat} {x : StoredSession} (h : x ∈ latest most xs) :
    x ∈ xs ∧ x.endTime = none := by
  have hmem := List.mem_mergeSort.1 (List.mem_of_mem_take h)
  rw [List.mem_filter, Option.isNone_iff_eq_none] at hmem
  exact hmem

/-- The page of active sessions is what is loaded of the latest. -/
theorem step_active_latest {s : Store} (hopen : s.closed = false) (hx : s.table.Holds xs)
    (hplain : ∀ x ∈ xs, x.HasPlainYears) (now : Time.Timestamp) :
    (s.step now .active).1 = .ok (.sessions
      ((latest s.settings.listing.maxLimit.toNat xs).map fun x => x.shown.toSession s.cipher)) := by
  refine step_active_ok.2 ⟨hopen, _, ?_, rfl⟩
  rw [activeRows_eq, take_openRows hx, List.forall₂_map_left_iff, List.forall₂_map_right_iff,
    List.forall₂_same]
  intro x hmem
  exact ⟨x.shown, Row.toStored_shown (hplain x (mem_latest hmem).1), rfl⟩

/-! ## Readings in lockstep -/

theorem lockstep_reported (events events' : List Event) :
    Lockstep (Peers base t t') Eq (events.forM report) (events'.forM report) := by
  intro s s' h
  show Agree Eq (s.perform (events.forM report)).1 (s'.perform (events'.forM report)).1 ∧
    Peers base t t' (s.perform (events.forM report)).2 (s'.perform (events'.forM report)).2
  rw [perform_forM_report, perform_forM_report]
  cases h
  exact ⟨.ok rfl, .mk ..⟩

theorem lockstep_failed (e : StoreError) :
    Lockstep (Peers base t t') R (Store.fail e) (Store.fail e) := .throw (Abort.failed e)

theorem lockstep_excepted {x : Except StoreError α} {y : Except StoreError β}
    (h : Agree R x y) : Lockstep (Peers base t t') R (Store.ofExcept x) (Store.ofExcept y) := by
  cases h with
  | error e => exact lockstep_failed e
  | ok h => exact .pure h

/-- A question is answered alike after every pause, since no refusal is a matter of it. -/
theorem attempts_agree {f : Table → Except DatabaseError α} {g : Table → Except DatabaseError β}
    (hf : Plain f) (hg : Plain g) (hfg : Agree R (f t) (g t')) :
    Retry.Surroundings.Agree (Underway (Peers base t t')) R (surroundings (asked f))
      (surroundings (asked g)) where
  attempt s s' h := by
    obtain ⟨s, p⟩ := s
    obtain ⟨s', p'⟩ := s'
    obtain ⟨h, rfl⟩ := h
    cases h
    simp only [surroundings, after_asked hf, after_asked hg, asked]
    split
    · exact ⟨.error _, .mk .., rfl⟩
    · generalize f t = a at hfg ⊢
      generalize g t' = b at hfg ⊢
      cases hfg with
      | error e => exact ⟨.ok (.error _), .mk .., rfl⟩
      | ok hab => exact ⟨.ok (.ok hab), .mk .., rfl⟩
  pause := underway_pause _ _
  report e s s' h := by
    obtain ⟨s, p⟩ := s
    obtain ⟨s', p'⟩ := s'
    obtain ⟨h, hp⟩ := h
    cases h
    exact ⟨.mk .., hp⟩

theorem Peers.settings_eq (h : Peers base t t' s s') :
    s.settings = base.settings ∧ s'.settings = base.settings := by
  cases h
  exact ⟨rfl, rfl⟩

theorem Peers.cipher_eq (h : Peers base t t' s s') :
    s.cipher = base.cipher ∧ s'.cipher = base.cipher := by
  cases h
  exact ⟨rfl, rfl⟩

theorem lockstep_question (operation : String) (timeout : TimeoutSettings → UInt64)
    {f : Table → Except DatabaseError α} {g : Table → Except DatabaseError β} (hf : Plain f)
    (hg : Plain g) (hfg : Agree R (f t) (g t')) :
    Lockstep (Peers base t t') R (asking operation timeout f) (asking operation timeout g) := by
  rw [asking_eq, asking_eq]
  exact lockstep_retrying (fun h => h.settings_eq.1.trans h.settings_eq.2.symm)
    (attempts_agree hf hg hfg) operation timeout

section Readings

variable (hx : t.Holds xs) (hy : t'.Holds ys)

theorem lockstep_loaded (h : SameShown base.cipher x y) :
    Lockstep (Peers base t t') Eq (load (Row.ofStored x)) (load (Row.ofStored y)) := by
  refine (lockstep_excepted h.toStored).bind fun a b hab => ?_
  refine Lockstep.getThe.bind fun s s' hs => ?_
  rw [hs.cipher_eq.1, hs.cipher_eq.2]
  exact (lockstep_reported _ _).bind fun _ _ _ => .pure hab

include hx hy

/-- Sorted sessions that show the same have the same pages. -/
theorem page_sameShown (q : ListQuery) (size : Nat)
    (h : sortedFor q (xs.map (StoredSession.opened cipher))
      = sortedFor q (ys.map (StoredSession.opened cipher))) :
    Agree (List.Forall₂ fun l l' => summary l = summary l') (page q size t) (page q size t') := by
  rw [sortedFor_opened, sortedFor_opened] at h
  rw [page_of_holds hx, page_of_holds hy]
  refine .ok ?_
  rw [List.forall₂_map_left_iff, List.forall₂_map_right_iff]
  refine List.forall₂_take size (List.forall₂_drop q.offset.toNat ?_)
  exact (forall₂_sameShown h).imp fun x y hxy => hxy.summary

theorem lockstep_listed (operation : String) (timeout : TimeoutSettings → UInt64) (q : ListQuery)
    (h : sortedFor q (xs.map (StoredSession.opened cipher))
      = sortedFor q (ys.map (StoredSession.opened cipher))) :
    Lockstep (Peers base t t') Eq (listing operation timeout q) (listing operation timeout q) := by
  have hrest : Lockstep (Peers base t t') Eq (do
      let s ← MonadStateOf.get (σ := Store)
      let size := q.pageSize s.settings.listing.defaultLimit s.settings.listing.maxLimit
      let rows ← asking operation timeout (page q size.toNat)
      rows.mapM fun row => Store.ofExcept (summary row)) (do
      let s ← MonadStateOf.get (σ := Store)
      let size := q.pageSize s.settings.listing.defaultLimit s.settings.listing.maxLimit
      let rows ← asking operation timeout (page q size.toNat)
      rows.mapM fun row => Store.ofExcept (summary row)) := by
    refine Lockstep.getThe.bind fun s s' hs => ?_
    dsimp only
    rw [hs.settings_eq.1, hs.settings_eq.2]
    refine (lockstep_question _ _ (fun _ _ => rfl) (fun _ _ => rfl)
      (page_sameShown hx hy q _ h)).bind fun rows rows' hrows => ?_
    have hsummaries : Lockstep (Peers base t t') (List.Forall₂ Eq)
        (rows.mapM fun row => Store.ofExcept (summary row))
        (rows'.mapM fun row => Store.ofExcept (summary row)) :=
      Lockstep.mapM hrows fun l l' hl => lockstep_excepted (.of_eq (fun _ => rfl) hl)
    rwa [List.forall₂_eq_eq_eq] at hsummaries
  rw [listing]
  split
  · exact (lockstep_excepted (R := Eq) (.of_eq (fun _ => rfl) rfl)).bind fun _ _ _ => hrest
  · exact hrest

theorem lockstep_listedUser (userId : String) (limit : UInt32)
    (h : ∀ q, sortedFor q (xs.map (StoredSession.opened cipher))
      = sortedFor q (ys.map (StoredSession.opened cipher))) :
    Lockstep (Peers base t t') Eq (listUser userId limit) (listUser userId limit) := by
  rw [listUser]
  split
  · exact (lockstep_failed (R := Eq) _).bind fun _ _ _ => lockstep_listed hx hy _ _ _ (h _)
  · exact lockstep_listed hx hy _ _ _ (h _)

/-- Active sessions are shown alike if those that the page picks are. -/
theorem lockstep_active_shown
    (h : latest base.settings.listing.maxLimit.toNat (xs.map (StoredSession.opened base.cipher))
      = latest base.settings.listing.maxLimit.toNat
          (ys.map (StoredSession.opened base.cipher))) :
    Lockstep (Peers base t t') Eq active active := by
  rw [latest_opened, latest_opened] at h
  refine Lockstep.getThe.bind fun s s' hs => ?_
  rw [hs.settings_eq.1, hs.settings_eq.2]
  refine (lockstep_question (R := List.Forall₂ fun r r' => ∃ x y, SameShown base.cipher x y ∧
      Row.ofStored x = r ∧ Row.ofStored y = r') _ _ (fun _ _ => rfl) (fun _ _ => rfl) ?_).bind
        fun rows rows' hrows => ?_
  · refine .ok ?_
    show List.Forall₂ _ ((openRows t).take _) ((openRows t').take _)
    rw [take_openRows hx, take_openRows hy, List.forall₂_map_left_iff,
      List.forall₂_map_right_iff]
    exact (forall₂_sameShown h).imp fun x y hxy => ⟨x, y, hxy, rfl, rfl⟩
  · rw [← List.forall₂_eq_eq_eq]
    refine Lockstep.mapM hrows fun r r' hr => ?_
    obtain ⟨x, y, hxy, rfl, rfl⟩ := hr
    exact lockstep_loaded hxy

omit hx hy

theorem lockstep_metrics_shown (start finish : Timestamp)
    (h : windowReport start finish (max base.settings.metrics.maxScan 1).toNat t
      = windowReport start finish (max base.settings.metrics.maxScan 1).toNat t') :
    Lockstep (Peers base t t') Eq (metrics start finish) (metrics start finish) := by
  refine (lockstep_excepted (R := Eq) (.of_eq (fun _ => rfl) rfl)).bind fun _ _ _ => ?_
  refine Lockstep.getThe.bind fun s s' hs => ?_
  dsimp only
  rw [hs.settings_eq.1, hs.settings_eq.2]
  refine (lockstep_question _ _ (fun _ _ => rfl) (fun _ _ => rfl)
    (.of_eq (fun _ => rfl) h)).bind fun figures figures' hfigures => ?_
  cases hfigures
  split
  · exact (lockstep_reported [_] [_]).bind fun _ _ _ => .pure rfl
  · exact .pure rfl

theorem lockstep_tokens_shown (start finish : Timestamp)
    (h : windowTokens start finish t = windowTokens start finish t') :
    Lockstep (Peers base t t') Eq (tokens start finish) (tokens start finish) := by
  refine (lockstep_excepted (R := Eq) (.of_eq (fun _ => rfl) rfl)).bind fun _ _ _ => ?_
  refine (lockstep_question _ _ (fun _ _ => rfl) (fun _ _ => rfl)
    (.of_eq (fun _ => rfl) h)).bind fun total total' htotal => ?_
  exact .pure (congrArg countOf htotal)

end Readings

/-- Operations in lockstep answer alike on open stores that have everything but tables,
nonces, counters and events in common. -/
theorem step_answer_eq {now now' : Timestamp} {operation : Operation}
    (hs : Peers base t t' { s with events := [] } { s' with events := [] })
    (h : Lockstep (Peers base t t') Eq (run now operation) (run now' operation)) :
    (s.step now operation).1 = (s'.step now' operation).1 := (h _ _ hs).1.eq

end Store

end ChatArchive
