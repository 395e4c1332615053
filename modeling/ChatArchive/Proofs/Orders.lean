import ChatArchive.Proofs.Aggregates
import ChatArchive.Proofs.KeyedMap
import Mathlib.Data.List.Nodup

/-!
# Sessions created in any order

A store that sessions are created in holds each of them once, in the order in which they
were created. Listings do not show that order, since ids break ties, and sums over all rows
of a window do not either. The page of active sessions and the sample of a window are cut
from rows that are sorted by their starts alone: of sessions that start at the same instant,
the one that was created first comes first.
-/

namespace ChatArchive

open Time

/-- What is stored of a message, in the clear. -/
def Message.plainStored (m : Message) : StoredMessage :=
  ⟨m.content, m.time, m.sender, m.fileId, m.fileUrl, m.labels⟩

/-- What is stored of a session, in the clear and without the duration. -/
def Session.plainStored (session : Session) : StoredSession :=
  { session.storedWith .epoch ((responseFigures session.responseTimes).getD (0, 0))
      (session.messages.map Message.plainStored) with duration := 0 }

/-- A session that can be created. -/
structure Session.Valid (cipher : ContentCipher) (session : Session) : Prop where
  named : session.id ≠ ""
  ordered : ¬ session.EndsEarly
  measured : (responseFigures session.responseTimes).isSome
  sealable : ∀ m ∈ session.messages, cipher.Encryptable m.content

theorem opened_of_storedFrom {cipher : ContentCipher} {nonces : Cipher.Nonces} {now : Timestamp}
    {session : Session} {x : StoredSession} (h : session.StoredFrom cipher nonces now x) :
    x.opened cipher = session.plainStored := by
  have hmessages : x.messages.map (StoredMessage.opened cipher)
      = session.messages.map Message.plainStored := by
    rw [← h.storedAs.messages_eq, List.map_map]
    rfl
  obtain ⟨figures, messages, hfigures, -, rfl⟩ := Session.storedFrom_iff.1 h
  rw [StoredSession.opened, hmessages, Session.plainStored, hfigures]
  rfl

namespace Store

variable {s : Store} {cipher : ContentCipher} {xs ys : List StoredSession}
  {cs cs' : List (Timestamp × Session)} {now now' : Timestamp}

/-! ## Creating some sessions -/

/-- The calls that create some sessions, each at a time. -/
def creations (cs : List (Timestamp × Session)) : List Call :=
  cs.map fun c => ⟨c.1, .create c.2⟩

/-- A session that can be created is added behind the others. -/
theorem step_create_valid {session : Session} (hsound : Sound s xs) (hopen : s.closed = false)
    (hrefusal : s.table.refusal = none) (hvalid : session.Valid s.cipher)
    (hnew : session.id ∉ xs.map (·.id)) (now : Timestamp) :
    ∃ x nonces counters, session.StoredFrom s.cipher s.nonces now x ∧
      s.step now (.create session) = (.ok .nothing, { s with
        nonces := nonces, table := { s.table with rows := s.table.rows ++ [Row.ofStored x] },
        counters := counters, events := [] }, []) := by
  obtain ⟨x, hx, hvalidated⟩ := exists_storedFrom_valid (s := s) hvalid.measured hvalid.sealable
    hvalid.named hvalid.ordered now
  have hnone : s.table.row? x.id = none := by
    rw [hx.storedAs.id]
    exact not_not.1 fun hrow => hnew ((row?_ne_none hsound.holds _).1 hrow)
  have hpermit : s.table.permit .insert = .ok () := by rw [Table.permit, hrefusal]
  obtain ⟨nonces, hprepare⟩ := perform_prepare_ok (s := { s with events := [] }) hx hvalidated
  exact ⟨x, nonces, _, hx, step_create_prepared hopen hpermit hnone hprepare⟩

theorem sound_concat {x : StoredSession} (hsound : Sound s xs) (hid : x.id ≠ "")
    (hnew : x.id ∉ xs.map (·.id)) (nonces : Cipher.Nonces) (counters : Counters)
    (events : List Event) :
    Sound { s with
      nonces := nonces, table := { s.table with rows := s.table.rows ++ [Row.ofStored x] },
      counters := counters, events := events } (xs ++ [x]) := by
  have hholds : Table.Holds { s.table with rows := s.table.rows ++ [Row.ofStored x] }
      (xs ++ [x]) := by
    rw [Table.Holds, List.map_append, ← hsound.holds]
    rfl
  obtain ⟨hdistinct, hnamed⟩ := (sound_iff_ids hsound.holds).1 hsound
  refine (sound_iff_ids hholds).2 ?_
  rw [List.map_append, List.map_singleton]
  refine ⟨List.nodup_append.2 ⟨hdistinct, List.pairwise_singleton _ _, ?_⟩, ?_⟩
  · intro id hmem id' hself heq
    rw [heq, List.mem_singleton.1 hself] at hmem
    exact hnew hmem
  · rw [List.mem_append, List.mem_singleton]
    rintro (h | h)
    · exact hnamed h
    · exact hid h.symm

/-- Sessions that can be created are all created, and added behind the others in their
order. -/
theorem after_creations (cs : List (Timestamp × Session)) (hsound : Sound s xs)
    (hopen : s.closed = false) (hrefusal : s.table.refusal = none)
    (hvalid : ∀ c ∈ cs, c.2.Valid s.cipher)
    (hdistinct : (xs.map (·.id) ++ cs.map (·.2.id)).Nodup) :
    (∀ r ∈ s.history (creations cs), r.2 = .ok .nothing) ∧
      ∃ ys nonces table counters events,
        s.after (creations cs) = { s with
          nonces := nonces, table := table, counters := counters, events := events } ∧
        Sound (s.after (creations cs)) (xs ++ ys) ∧
        ys.map (StoredSession.opened s.cipher) = cs.map (·.2.plainStored) := by
  -- what is created joins `xs` at its end, where the next creation finds it
  induction cs generalizing s xs with
  | nil =>
      refine ⟨fun r hr => absurd hr List.not_mem_nil, [], s.nonces, s.table, s.counters, s.events,
        rfl, ?_, rfl⟩
      rwa [List.append_nil]
  | cons c cs ih =>
      have hnew : c.2.id ∉ xs.map (·.id) := fun hmem =>
        (List.nodup_append.1 hdistinct).2.2 _ hmem _ List.mem_cons_self rfl
      obtain ⟨x, nonces, counters, hx, hstep⟩ := step_create_valid hsound hopen hrefusal
        (hvalid c List.mem_cons_self) hnew c.1
      have hid : x.id = c.2.id := hx.storedAs.id
      have hsound' := sound_concat hsound (x := x)
        (by rw [hid]; exact (hvalid c List.mem_cons_self).named) (by rwa [hid]) nonces counters []
      obtain ⟨hcreated, ys, nonces', table, counters', events, hafter, hsound'', hys⟩ :=
        ih hsound' hopen hrefusal (fun d hd => hvalid d (List.mem_cons_of_mem c hd)) (by
          rw [List.map_append, List.append_assoc, List.map_singleton, hid]
          exact hdistinct)
      have hrest : s.after (creations (c :: cs)) = _ := congrArg (fun r => Store.after r.2.1
        (creations cs)) hstep
      refine ⟨fun r hr => ?_, x :: ys, nonces', table, counters', events, ?_, ?_, ?_⟩
      · rcases List.mem_cons.1 hr with rfl | hr
        · rw [hstep]
        · rw [hstep] at hr
          exact hcreated r hr
      · rw [hrest, hafter]
      · rw [hrest, List.append_cons xs x ys]
        exact hsound''
      · rw [List.map_cons, List.map_cons, opened_of_storedFrom hx, hys]

/-! ## Reading in any order -/

theorem sortedFor_perm (q : ListQuery) (hperm : xs.Perm ys) (hids : (xs.map (·.id)).Nodup) :
    sortedFor q xs = sortedFor q ys := by
  have hsame : (sortedFor q xs).Perm (sortedFor q ys) :=
    (List.mergeSort_perm _ _).trans ((hperm.filter _).trans (List.mergeSort_perm _ _).symm)
  refine hsame.eq_of_pairwise (fun x y hx hy hxy hyx => ?_) (sortedFor_pairwise q xs)
    (sortedFor_pairwise q ys)
  have hx' : x ∈ xs := (mem_sortedFor.1 hx).1
  have hy' : y ∈ xs := hperm.mem_iff.2 (mem_sortedFor.1 hy).1
  -- ids break ties, so two sessions that precede each other are one
  rw [listsBefore, precedes_eq] at hxy hyx
  have heq : comparePairs q.direction (keyed q x) (keyed q y) = .eq :=
    Std.OrientedCmp.isLE_antisymm hxy hyx
  have hid : x.id = y.id := compare_eq_iff_eq.1 (compareLex_eq_eq.1 heq).2
  exact List.inj_on_of_nodup_map hids hx' hy' hid

theorem latest_cons_cons {x y : StoredSession} {most : Nat} (hx : x.endTime.isNone = true)
    (hy : y.endTime.isNone = true) (xs : List StoredSession) :
    latest most (x :: y :: xs)
      = ((x :: y :: xs.filter (·.endTime.isNone)).mergeSort startedLast).take most := by
  have hopen : (x :: y :: xs).filter (·.endTime.isNone)
      = x :: y :: xs.filter (·.endTime.isNone) := by simp [hx, hy]
  rw [latest, hopen]

theorem latest_perm {most : Nat} (hperm : xs.Perm ys) (hids : (xs.map (·.id)).Nodup)
    (huntied : Untied startedLast most (xs.filter (·.endTime.isNone))) :
    latest most xs = latest most ys :=
  take_mergeSort_eq startedLast_trans startedLast_total (hperm.filter _)
    ((List.Nodup.of_map _ hids).filter _) huntied

end Store

/-- Readings whose answers do not depend on the order in which the sessions were created.
Listings never do. A page of active sessions must not hold two that start at the same
instant. Token counts must fit their columns, and the limit of a sample must not cut between
sessions that start at the same instant. -/
def Operation.OrderFree (settings : Settings) (xs : List StoredSession) : Operation → Prop
  | .list _ | .listAll _ | .listUser .. => True
  | .active => Untied Store.startedLast settings.listing.maxLimit.toNat
      (xs.filter (·.endTime.isNone))
  | .metrics start stop =>
      (∀ x ∈ xs, x.totalTokens.toNat < 9223372036854775808) ∧
        Uncut Store.startedFirst (max settings.metrics.maxScan 1).toNat
          (xs.filter (Store.startedIn start stop))
  | .tokens .. => ∀ x ∈ xs, x.totalTokens.toNat < 9223372036854775808
  | _ => False

namespace Store

variable {base s s' : Store} {t t' : Table} {cipher : ContentCipher} {xs ys : List StoredSession}
  {cs cs' : List (Timestamp × Session)} {now now' : Timestamp} {read : Operation}

/-- A reading that does not depend on an order is answered alike from two tables that hold
the same sessions. -/
theorem lockstep_orderFree (hx : t.Holds xs) (hy : t'.Holds ys)
    (hperm : (xs.map (StoredSession.opened base.cipher)).Perm
      (ys.map (StoredSession.opened base.cipher)))
    (hids : ((xs.map (StoredSession.opened base.cipher)).map (·.id)).Nodup)
    (hread : read.OrderFree base.settings (xs.map (StoredSession.opened base.cipher))) :
    Lockstep (Peers base t t') Eq (run now read) (run now' read) := by
  have hlisted : ∀ q, sortedFor q (xs.map (StoredSession.opened base.cipher))
      = sortedFor q (ys.map (StoredSession.opened base.cipher)) :=
    fun q => sortedFor_perm q hperm hids
  cases read with
  | list q => exact (lockstep_listed hx hy _ _ q (hlisted q)).map fun _ _ => congrArg _
  | listAll limit => exact (lockstep_listed hx hy _ _ _ (hlisted _)).map fun _ _ => congrArg _
  | listUser userId limit =>
      exact (lockstep_listedUser hx hy userId limit hlisted).map fun _ _ => congrArg _
  | active =>
      exact (lockstep_active_shown hx hy (latest_perm hperm hids hread)).map fun _ _ => congrArg _
  | metrics start finish =>
      obtain ⟨htokens, huncut⟩ := hread
      rw [List.forall_mem_map] at htokens
      exact (lockstep_metrics_shown start finish
        (windowReport_perm hx hy hperm htokens huncut)).map fun _ _ => congrArg _
  | tokens start finish =>
      have htokens := List.forall_mem_map.1 hread
      exact (lockstep_tokens_shown start finish
        (windowTokens_perm hx hy hperm htokens start finish)).bind fun total total' htotal =>
          .pure (by rw [htotal])
  | _ => exact hread.elim

/-- The ids on the page of active sessions. -/
theorem step_active_ids (hopen : s.closed = false) (hx : s.table.Holds xs)
    (hplain : ∀ x ∈ xs, x.HasPlainYears) (now : Timestamp) :
    ∃ loaded, (s.step now .active).1 = .ok (.sessions loaded) ∧
      loaded.map (·.id) = (latest s.settings.listing.maxLimit.toNat xs).map (·.id) := by
  refine ⟨_, step_active_latest hopen hx hplain now, ?_⟩
  rw [List.map_map]
  rfl

/-! ## Creating in any order -/

/-- A fresh store in which some sessions have been created. -/
def withCreated (settings : Settings) (cipher : ContentCipher) (nonces : Cipher.Nonces)
    (cs : List (Timestamp × Session)) : Store :=
  (fresh settings cipher nonces).after (creations cs)

theorem ids_plainStored (cs : List (Timestamp × Session)) :
    (cs.map (·.2.plainStored)).map (·.id) = cs.map (·.2.id) := by
  rw [List.map_map]
  rfl

section Orders

variable {settings : Settings} {nonces nonces' : Cipher.Nonces}
  (hvalid : ∀ c ∈ cs, c.2.Valid cipher) (hdistinct : (cs.map (·.2.id)).Nodup)

include hvalid hdistinct

theorem withCreated_eq (settings : Settings) (nonces : Cipher.Nonces) :
    ∃ xs nonces' table counters events,
      withCreated settings cipher nonces cs = { fresh settings cipher (.counting 0) with
        nonces := nonces', table := table, counters := counters, events := events } ∧
      table.Holds xs ∧ xs.map (StoredSession.opened cipher) = cs.map (·.2.plainStored) := by
  obtain ⟨-, xs, nonces', table, counters, events, hafter, hsound, hxs⟩ :=
    after_creations cs (sound_fresh settings cipher nonces) rfl rfl hvalid hdistinct
  rw [hafter] at hsound
  exact ⟨xs, nonces', table, counters, events, hafter, hsound.holds, hxs⟩

theorem valid_perm (hperm : (cs.map (·.2)).Perm (cs'.map (·.2))) :
    (∀ c ∈ cs', c.2.Valid cipher) ∧ (cs'.map (·.2.id)).Nodup := by
  refine ⟨fun c hc => ?_, ?_⟩
  · obtain ⟨d, hd, hsame⟩ := List.mem_map.1 (hperm.mem_iff.2 (List.mem_map_of_mem hc))
    rw [← hsame]
    exact hvalid d hd
  · have hids := hperm.map (·.id)
    rw [List.map_map, List.map_map] at hids
    exact hids.nodup_iff.1 hdistinct

/-- A reading that does not depend on an order is answered alike. -/
theorem answer_perm (hperm : (cs.map (·.2)).Perm (cs'.map (·.2)))
    (hread : read.OrderFree settings (cs.map (·.2.plainStored))) (now now' : Timestamp) :
    ((withCreated settings cipher nonces cs).step now read).1
      = ((withCreated settings cipher nonces' cs').step now' read).1 := by
  obtain ⟨hvalid', hdistinct'⟩ := valid_perm hvalid hdistinct hperm
  obtain ⟨xs, n, t, counters, events, hs, hx, hxs⟩ :=
    withCreated_eq hvalid hdistinct settings nonces
  obtain ⟨ys, n', t', counters', events', hs', hy, hys⟩ :=
    withCreated_eq hvalid' hdistinct' settings nonces'
  have hplain := hperm.map Session.plainStored
  rw [List.map_map, List.map_map] at hplain
  have hpeers : Peers (fresh settings cipher (.counting 0)) t t'
      { withCreated settings cipher nonces cs with events := [] }
      { withCreated settings cipher nonces' cs' with events := [] } := by
    rw [hs, hs']
    exact .mk ..
  refine step_answer_eq hpeers (lockstep_orderFree hx hy ?_ ?_ ?_)
  · rw [show (fresh settings cipher (.counting 0)).cipher = cipher from rfl, hxs, hys]
    exact hplain
  · rw [show (fresh settings cipher (.counting 0)).cipher = cipher from rfl, hxs, ids_plainStored]
    exact hdistinct
  · rw [show (fresh settings cipher (.counting 0)).cipher = cipher from rfl, hxs]
    exact hread

theorem active_ids (hplain : ∀ c ∈ cs, c.2.HasPlainYears) (settings : Settings)
    (nonces : Cipher.Nonces) (now : Timestamp) :
    ∃ loaded, ((withCreated settings cipher nonces cs).step now .active).1
        = .ok (.sessions loaded) ∧
      loaded.map (·.id) = (latest settings.listing.maxLimit.toNat
        (cs.map (·.2.plainStored))).map (·.id) := by
  obtain ⟨xs, n, t, counters, events, hs, hx, hxs⟩ :=
    withCreated_eq hvalid hdistinct settings nonces
  have hplain' : ∀ x ∈ xs, x.HasPlainYears := by
    intro x hmem
    have hopened := List.mem_map_of_mem (f := StoredSession.opened cipher) hmem
    rw [hxs] at hopened
    obtain ⟨c, hc, hsame⟩ := List.mem_map.1 hopened
    have hyears : c.2.plainStored.HasPlainYears :=
      ⟨(hplain c hc).startTime, (hplain c hc).endTime, by
        rintro t ⟨⟩
        exact (hplain c hc).lastActivity⟩
    rw [hsame] at hyears
    exact ⟨hyears.startTime, hyears.endTime, hyears.lastActivity⟩
  obtain ⟨loaded, hok, hids⟩ := step_active_ids
    (s := withCreated settings cipher nonces cs) (by rw [hs]; rfl) (by rw [hs]; exact hx) hplain'
    now
  refine ⟨loaded, hok, hids.trans ?_⟩
  rw [← hxs, latest_opened, List.map_map, hs]
  rfl

/-- If two active sessions on the page start at the same instant, the page shows which of
them was created first. -/
theorem untied_of_answers (hplain : ∀ c ∈ cs, c.2.HasPlainYears)
    (hsame : ∀ cs', (cs.map (·.2)).Perm (cs'.map (·.2)) →
      ((withCreated settings cipher nonces cs).step now .active).1
        = ((withCreated settings cipher nonces' cs').step now' .active).1) :
    Operation.active.OrderFree settings (cs.map (·.2.plainStored)) := by
  intro x hx y hy hne hxy hyx
  by_contra hfew
  obtain ⟨hx, hxopen⟩ := List.mem_filter.1 hx
  obtain ⟨hy, hyopen⟩ := List.mem_filter.1 hy
  obtain ⟨c, hc, rfl⟩ := List.mem_map.1 hx
  obtain ⟨d, hd, rfl⟩ := List.mem_map.1 hy
  -- both orders in which the two come first are compared: the sort keeps them apart
  obtain ⟨rest, hrest⟩ := exists_perm_cons_cons hc hd fun hcd => hne (by rw [hcd])
  have hids : ∀ zs, cs.Perm zs → ∃ loaded,
      ((withCreated settings cipher nonces cs).step now .active).1 = .ok (.sessions loaded) ∧
      loaded.map (·.id) = (latest settings.listing.maxLimit.toNat
        (zs.map (·.2.plainStored))).map (·.id) := by
    intro zs hzs
    obtain ⟨hvalid', hdistinct'⟩ := valid_perm hvalid hdistinct (hzs.map _)
    rw [hsame zs (hzs.map _)]
    exact active_ids hvalid' hdistinct' (fun c hc => hplain c (hzs.mem_iff.2 hc)) settings nonces'
      now'
  obtain ⟨loaded, hok, hloaded⟩ := hids _ hrest
  obtain ⟨loaded', hok', hloaded'⟩ := hids _ (hrest.trans (.swap d c rest))
  cases hok.symm.trans hok'
  have hpages := hloaded.symm.trans hloaded'
  simp only [List.map_cons] at hpages
  rw [latest_cons_cons hxopen hyopen, latest_cons_cons hyopen hxopen] at hpages
  refine map_take_mergeSort_ne startedLast_trans startedLast_total hne hxy hyx ?_ ?_ hpages
  · have hall := (hrest.map (·.2.plainStored)).filter (·.endTime.isNone)
    rw [ahead_perm hall, Nat.not_le] at hfew
    refine Nat.lt_of_le_of_lt (List.Sublist.countP_le (List.Sublist.filter _ ?_)) hfew
    exact (List.sublist_cons_self _ _).trans (List.sublist_cons_self _ _)
  · have hinj := (valid_perm hvalid hdistinct (hrest.map _)).2
    rw [← ids_plainStored] at hinj
    have hsub := ((List.filter_sublist (l := rest.map (·.2.plainStored))
      (p := (·.endTime.isNone))).cons_cons d.2.plainStored).cons_cons c.2.plainStored
    exact fun u hu v hv => List.inj_on_of_nodup_map hinj (hsub.subset hu) (hsub.subset hv)

end Orders

/-- Sessions that can be created, each with an id of its own, are created in every order, and
every reading whose answer is not cut between sessions of one start is answered alike after
all orders. For the page of active sessions the converse holds too: where it has two sessions
of one start, another order is answered differently. -/
theorem reads_in_any_order (settings : Settings) (cipher : ContentCipher)
    (cs : List (Timestamp × Session)) (hvalid : ∀ c ∈ cs, c.2.Valid cipher)
    (hdistinct : (cs.map (·.2.id)).Nodup) (nonces nonces' : Cipher.Nonces) (now now' : Timestamp) :
    (∀ cs', (cs.map (·.2)).Perm (cs'.map (·.2)) →
      (∀ r ∈ (fresh settings cipher nonces').history (creations cs'), r.2 = .ok .nothing) ∧
      ∀ read : Operation, read.OrderFree settings (cs.map (·.2.plainStored)) →
        ((withCreated settings cipher nonces cs).step now read).1
          = ((withCreated settings cipher nonces' cs').step now' read).1) ∧
    ((∀ c ∈ cs, c.2.HasPlainYears) →
      (Operation.active.OrderFree settings (cs.map (·.2.plainStored)) ↔
        ∀ cs', (cs.map (·.2)).Perm (cs'.map (·.2)) →
          ((withCreated settings cipher nonces cs).step now .active).1
            = ((withCreated settings cipher nonces' cs').step now' .active).1)) := by
  constructor
  · intro cs' hperm
    obtain ⟨hvalid', hdistinct'⟩ := valid_perm hvalid hdistinct hperm
    refine ⟨?_, fun read hread => answer_perm hvalid hdistinct hperm hread now now'⟩
    exact (after_creations cs' (sound_fresh settings cipher nonces') rfl rfl hvalid' hdistinct').1
  · intro hplain
    constructor
    · exact fun hread cs' hperm => answer_perm hvalid hdistinct hperm hread now now'
    · exact untied_of_answers hvalid hdistinct hplain

/-! ## Two sessions -/

/-- A session that starts at a time, has this many tokens and is not ended. -/
def counted (id : String) (start : Timestamp) (tokens : UInt64) : Session :=
  { Session.start id "u" start with totalTokens := tokens }

/-- Two sessions, of which the second starts at a time. -/
def twoStarted (start : Timestamp) : List (Timestamp × Session) :=
  [(.epoch, counted "a" .epoch 1), (.epoch, counted "b" start 2)]

theorem valid_counted {id : String} (hid : id ≠ "") (start : Timestamp) (tokens : UInt64) :
    (counted id start tokens).Valid (.ofKey []) where
  named := hid
  ordered := by
    rintro ⟨finish, ⟨⟩, -⟩
  measured := rfl
  sealable := fun m hm => absurd hm List.not_mem_nil

theorem valid_twoStarted (start : Timestamp) : ∀ c ∈ twoStarted start, c.2.Valid (.ofKey []) := by
  simp only [twoStarted, List.forall_mem_cons]
  exact ⟨valid_counted (by decide) _ _, valid_counted (by decide) _ _, by simp⟩

theorem plain_twoStarted {start : Timestamp} (hstart : start.HasPlainYear) :
    ∀ c ∈ twoStarted start, c.2.HasPlainYears := by
  have hepoch : Timestamp.epoch.HasPlainYear := by decide
  simp only [twoStarted, List.forall_mem_cons]
  refine ⟨⟨hepoch, ?_, hepoch⟩, ⟨hstart, ?_, hstart⟩, by simp⟩
  · rintro t ⟨⟩
  · rintro t ⟨⟩

/-- Two sessions that start five minutes apart. -/
theorem reads_in_any_order_apart :
    (∀ r ∈ (fresh .standard (.ofKey []) (.counting 0)).history
        (creations (twoStarted fiveMinutes).reverse), r.2 = .ok .nothing) ∧
    ((withCreated .standard (.ofKey []) (.counting 0) (twoStarted fiveMinutes)).step .epoch
        (.metrics .epoch tenMinutes)).1
      = ((withCreated .standard (.ofKey []) (.counting 0) (twoStarted fiveMinutes).reverse).step
          .epoch (.metrics .epoch tenMinutes)).1 ∧
    ∀ cs', ((twoStarted fiveMinutes).map (·.2)).Perm (cs'.map (·.2)) →
      ((withCreated .standard (.ofKey []) (.counting 0) (twoStarted fiveMinutes)).step .epoch
          .active).1
        = ((withCreated .standard (.ofKey []) (.counting 0) cs').step .epoch .active).1 := by
  obtain ⟨hreads, hactive⟩ := reads_in_any_order .standard (.ofKey []) (twoStarted fiveMinutes)
    (valid_twoStarted fiveMinutes) (by decide) (.counting 0) (.counting 0) .epoch .epoch
  obtain ⟨hcreated, hreads⟩ := hreads (twoStarted fiveMinutes).reverse (.swap _ _ _)
  refine ⟨hcreated, hreads (.metrics .epoch tenMinutes) ⟨by decide, ?_⟩,
    (hactive (plain_twoStarted (by decide))).1 ?_⟩
  · unfold Uncut
    decide +kernel
  · unfold Operation.OrderFree Untied
    decide +kernel

/-- Settings that let figures be taken over one session only. -/
def scanOne : Settings := { Settings.standard with metrics := { maxScan := 1 } }

/-- The row of a session that starts with the epoch. -/
def countedRow (id : String) (tokens : UInt64) : Row :=
  Row.ofStored (counted id .epoch tokens).plainStored

/-- Of two sessions that start at the same instant, a sample of one is the row that was
inserted first, unless start times are indexed. -/
theorem step_metrics_first (s : Store) (row row' : Row) {start finish : Timestamp}
    {figures : MetricsReport} (hsettings : s.settings = scanOne) (hopen : s.closed = false)
    (hrange : ¬ finish < start) (hindex : s.table.hasStartIndex = false)
    (hrows : s.table.rows.filter (startsIn start finish) = [row, row'])
    (hlevel : startsFirst row row' = true) (hfigures : reportOf [row] true = .ok figures)
    (now : Timestamp) : (s.step now (.metrics start finish)).1 = .ok (.report figures) := by
  have hscanned : scanned start finish 1 s.table = [row] := by
    rw [scanned, windowRows, hrows, hindex]
    show ([row, row'].mergeSort startsFirst).take 1 = [row]
    rw [mergeSort_pair, if_pos hlevel]
    rfl
  refine step_metrics_ok.2 ⟨hopen, hrange, figures, ?_, rfl⟩
  rw [figuresOf, windowReport, hsettings, show (max scanOne.metrics.maxScan 1).toNat = 1 from rfl,
    hscanned, List.countP_eq_length_filter, hrows]
  exact hfigures

/-- The order of two sessions that start at the same instant shows on the page of active
sessions, and in the figures of a window if they are taken over one of the two. -/
theorem order_of_twoStarted :
    (((withCreated .standard (.ofKey []) (.counting 0) (twoStarted .epoch)).step .epoch .active).1
      ≠ ((withCreated .standard (.ofKey []) (.counting 0) (twoStarted .epoch).reverse).step .epoch
          .active).1) ∧
    ((withCreated scanOne (.ofKey []) (.counting 0) (twoStarted .epoch)).step .epoch
        (.metrics .epoch tenMinutes)).1
      ≠ ((withCreated scanOne (.ofKey []) (.counting 0) (twoStarted .epoch).reverse).step .epoch
          (.metrics .epoch tenMinutes)).1 := by
  have hvalid := valid_twoStarted .epoch
  have hplain : ∀ c ∈ twoStarted .epoch, c.2.HasPlainYears := plain_twoStarted (by decide)
  constructor
  · obtain ⟨loaded, hok, hids⟩ := active_ids hvalid (by decide) hplain .standard (.counting 0)
      .epoch
    obtain ⟨loaded', hok', hids'⟩ := active_ids
      (fun c hc => hvalid c (List.mem_reverse.1 hc)) (by decide)
      (fun c hc => hplain c (List.mem_reverse.1 hc)) .standard (.counting 0) .epoch
    rw [hok, hok']
    intro hsame
    cases hsame
    have hpages := hids.symm.trans hids'
    simp only [twoStarted, List.reverse_cons, List.reverse_nil, List.nil_append,
      List.cons_append, List.map_cons, List.map_nil] at hpages
    rw [latest_cons_cons rfl rfl, latest_cons_cons rfl rfl, List.filter_nil, mergeSort_pair,
      mergeSort_pair] at hpages
    revert hpages
    decide +kernel
  · intro hsame
    obtain ⟨figures, hfigures, htokens⟩ : ∃ figures,
        reportOf [countedRow "a" 1] true = .ok figures ∧ figures.totalTokens = 1 := ⟨_, rfl, rfl⟩
    obtain ⟨figures', hfigures', htokens'⟩ : ∃ figures,
        reportOf [countedRow "b" 2] true = .ok figures ∧ figures.totalTokens = 2 := ⟨_, rfl, rfl⟩
    rw [step_metrics_first (withCreated scanOne (.ofKey []) (.counting 0) (twoStarted .epoch))
        (countedRow "a" 1) (countedRow "b" 2) (by decide +kernel) (by decide +kernel) (by decide)
        (by decide +kernel) (by decide +kernel) (by decide +kernel) hfigures,
      step_metrics_first (withCreated scanOne (.ofKey []) (.counting 0) (twoStarted .epoch).reverse)
        (countedRow "b" 2) (countedRow "a" 1) (by decide +kernel) (by decide +kernel) (by decide)
        (by decide +kernel) (by decide +kernel) (by decide +kernel) hfigures'] at hsame
    cases hsame
    rw [htokens] at htokens'
    cases htokens'

end Store

end ChatArchive
