import ChatArchive.Proofs.Readable
import ChatArchive.Proofs.Shown
import ChatArchive.Proofs.TimeOrder

/-!
# The page of active sessions

What is loaded when a store is opened are sessions that have not ended, the latest first, as
many as a page holds. They are selected, sorted and cut as rows and only then decoded, so a
session could be missing, come twice or look other than when it is loaded alone. In a table
that only operations have written to with plain years, none of this happens, whichever store
reads it.
-/

namespace ChatArchive.Store

open Time

variable {s : Store} {sessions : List StoredSession} {x y : StoredSession}

/-- Some sessions that were loaded are a full page of those that have not ended, the latest
first, each as it is loaded alone. -/
structure LoadsLatest (s : Store) (sessions : List StoredSession) (loaded : List Session) :
    Prop where
  count : loaded.length
    = min s.settings.listing.maxLimit.toNat (sessions.countP (·.endTime.isNone))
  distinct : loaded.Pairwise (·.id ≠ ·.id)
  whole : ∀ session ∈ loaded, session.endTime = none ∧
    ∀ now, (s.step now (.get session.id)).1 = .ok (.session session)
  latestFirst : loaded.Pairwise fun a b => ¬ a.startTime < b.startTime
  leftOut : ∀ x ∈ sessions, x.endTime = none → (∀ session ∈ loaded, session.id ≠ x.id) →
    ∀ session ∈ loaded, ¬ session.startTime < x.startTime

/-! ## Selecting -/

theorem length_latest (most : Nat) (sessions : List StoredSession) :
    (latest most sessions).length = min most (sessions.countP (·.endTime.isNone)) := by
  rw [latest, List.length_take, List.length_mergeSort, List.countP_eq_length_filter]

/-- Rows are sorted by the texts of their starts, which in plain years are their starts. -/
theorem sorted_startedLast (hplain : ∀ x ∈ sessions, x.HasPlainYears) :
    ((sessions.filter (·.endTime.isNone)).mergeSort startedLast).Pairwise
      fun x y => ¬ x.startTime < y.startTime := by
  have hsorted := List.pairwise_mergeSort startedLast_trans startedLast_total
    (sessions.filter (·.endTime.isNone))
  refine hsorted.imp_of_mem fun {x y} hx hy hle => ?_
  have hx' := hplain x (List.mem_filter.1 (List.mem_mergeSort.1 hx)).1
  have hy' := hplain y (List.mem_filter.1 (List.mem_mergeSort.1 hy)).1
  rw [← Timestamp.toColumn_lt_iff hx'.startTime hy'.startTime]
  exact not_lt.2 (startedLast_iff.1 hle)

/-! ## Loading -/

theorem Sound.get_shown (h : Sound s sessions) (hopen : s.closed = false)
    (hplain : ∀ x ∈ sessions, x.HasPlainYears) (hx : x ∈ sessions) (now : Timestamp) :
    (s.step now (.get x.id)).1 = .ok (.session (x.shown.toSession s.cipher)) :=
  (step_get_row hopen (h.named x hx) (h.row?_of_mem hx)).2 ⟨hplain x hx, rfl⟩

theorem Sound.loadsLatest (h : Sound s sessions) (hopen : s.closed = false)
    (hplain : ∀ x ∈ sessions, x.HasPlainYears) :
    LoadsLatest s sessions ((latest s.settings.listing.maxLimit.toNat sessions).map
      fun x => x.shown.toSession s.cipher) := by
  constructor
  case count => rw [List.length_map, length_latest]
  case distinct =>
    rw [List.pairwise_map]
    exact (distinct_sorted h.distinct _ _).sublist (List.take_sublist _ _)
  case whole =>
    intro session hsession
    obtain ⟨x, hx, rfl⟩ := List.mem_map.1 hsession
    obtain ⟨hmem, hactive⟩ := mem_latest hx
    exact ⟨hactive, h.get_shown hopen hplain hmem⟩
  case latestFirst =>
    rw [List.pairwise_map]
    exact (sorted_startedLast hplain).sublist (List.take_sublist _ _)
  case leftOut =>
    intro x hx hactive hout session hsession
    obtain ⟨y, hy, rfl⟩ := List.mem_map.1 hsession
    have hmem : x ∈ (sessions.filter (·.endTime.isNone)).mergeSort startedLast := by
      rw [List.mem_mergeSort, List.mem_filter, hactive]
      exact ⟨hx, rfl⟩
    have hcut : x ∉ latest s.settings.listing.maxLimit.toNat sessions := fun hin =>
      hout _ (List.mem_map_of_mem hin) rfl
    have hbefore : ¬ y.startTime < x.startTime :=
      rel_of_mem_take_of_cut (sorted_startedLast hplain) hy hmem hcut
    exact hbefore

/-! ## Runs -/

/-- What a run leaves whose calls bring plain years, and that writes to no column directly, can
be read by every open store, whatever its settings and its cipher are: the page of active
sessions is as long as the settings allow and as there are sessions without an end, and
holds the latest of them. -/
theorem active_page_after_run (settings : Settings) (cipher : ContentCipher)
    (nonces : Cipher.Nonces) (calls : List Call)
    (hcalls : ∀ c ∈ calls, ¬ c.operation.IsOverwrite ∧ c.HasPlainYears) :
    ∃ sessions, ((fresh settings cipher nonces).after calls).table.Holds sessions ∧
      ∀ s : Store, s.table = ((fresh settings cipher nonces).after calls).table →
        s.closed = false → ∀ now, ∃ loaded,
          (s.step now .active).1 = .ok (.sessions loaded) ∧ LoadsLatest s sessions loaded := by
  obtain ⟨sessions, h, hplain⟩ := (sound_fresh settings cipher nonces).hasPlainYears_after hcalls
  refine ⟨sessions, h.holds, fun s htable hopen now => ?_⟩
  have hsound : Sound s sessions := ⟨htable ▸ h.holds, h.distinct, h.named⟩
  exact ⟨_, step_active_latest hopen hsound.holds hplain now, hsound.loadsLatest hopen hplain⟩

theorem active_page_after_plainCalls :
    ∃ loaded, (((fresh .standard .disabled (.counting 0)).after plainCalls).step .epoch .active).1
        = .ok (.sessions loaded) ∧
      loaded.length = 1 ∧ ∀ session ∈ loaded, session.endTime = none := by
  have hcalls : ∀ c ∈ plainCalls, ¬ c.operation.IsOverwrite ∧ c.HasPlainYears := by
    have hepoch : Timestamp.epoch.HasPlainYear := by decide
    have hstart : ∀ id, (Session.start id "u" .epoch).HasPlainYears := by
      intro id
      exact ⟨hepoch, by simp [Session.start], hepoch⟩
    intro c hc
    simp only [plainCalls, List.mem_cons, List.not_mem_nil, or_false] at hc
    rcases hc with rfl | rfl | rfl | rfl
    · exact ⟨id, hepoch, hstart "a"⟩
    · exact ⟨id, hepoch, hepoch⟩
    · exact ⟨id, hepoch, hstart "b"⟩
    · exact ⟨id, hepoch, trivial⟩
  obtain ⟨sessions, hholds, hloads⟩ := active_page_after_run .standard .disabled (.counting 0)
      plainCalls hcalls
  have hopen : ((fresh .standard .disabled (.counting 0)).after plainCalls).closed = false := by
    decide +kernel
  obtain ⟨loaded, hloaded, hlatest⟩ := hloads
      ((fresh .standard .disabled (.counting 0)).after plainCalls) rfl hopen .epoch
  have hactive : sessions.countP (·.endTime.isNone) = 1 := by
    have hrows : ((fresh .standard .disabled (.counting 0)).after plainCalls).table.rows.countP
        (fun row => row.endTime.isNone) = 1 := by decide +kernel
    have hheld : ((fresh .standard .disabled (.counting 0)).after plainCalls).table.rows
        = sessions.map Row.ofStored := hholds
    rw [hheld, List.countP_map] at hrows
    rw [← hrows]
    exact List.countP_congr fun x _ => by simp [Row.ofStored]
  have hsettings : ((fresh .standard .disabled (.counting 0)).after plainCalls).settings
      = .standard := settings_after .standard .disabled (.counting 0) fun c hc => (hcalls c hc).1
  refine ⟨loaded, hloaded, ?_, fun session hsession => (hlatest.whole session hsession).1⟩
  rw [hlatest.count, hactive, hsettings]
  decide

end ChatArchive.Store
