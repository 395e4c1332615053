import ChatArchive.Proofs.Encodings
import ChatArchive.Store.Reading
import ChatArchive.Store.Writing

/-!
# Rows of stored sessions

The rows that the store writes are `Row.ofStored` of stored sessions, and the
changes that it makes to rows are changes of those sessions: each statement is
proved here to commute with `ofStored`. So what holds of the stored sessions is
all that has to be known about the texts in a table.

Columns and messages hold instants in forms that differ in how years outside
0 to 9999 come back. The messages column is read by the relaxed reader and always
comes back; the time columns, and the last message's time in a listing, are read
by the strict reader, which takes plain years only.
-/

namespace ChatArchive

open Json Time

/-! ## The messages column -/

namespace StoredMessage

/-- A message is an object whose only nested member is the labels. -/
theorem nests (m : StoredMessage) (depth : Nat) : Nests (depth + 2) (encoding.write m) := by
  obtain ⟨content, time, sender, fileId, fileUrl, labels⟩ := m
  refine .object fun p hp => ?_
  obtain ⟨f, hf, hp⟩ := List.mem_filterMap.1 hp
  simp only [layout, List.mem_cons, List.not_mem_nil, or_false] at hf
  rcases hf with rfl | rfl | rfl | rfl | rfl | rfl
  · cases hp
    exact .string _
  · cases hp
    exact .string _
  · cases hp
    exact .string _
  · cases fileId with
    | none => cases hp
    | some s => cases hp; exact .string _
  · cases fileUrl with
    | none => cases hp
    | some s => cases hp; exact .string _
  · cases labels with
    | none => cases hp
    | some ls =>
        cases hp
        refine .object fun q hq => ?_
        obtain ⟨e, -, rfl⟩ := List.mem_map.1 hq
        exact .string _

end StoredMessage

namespace MessageColumn

/-- The text of a messages column. -/
def text (ms : List StoredMessage) : String := StoredMessage.encoding.list.encode ms

theorem tree_text (ms : List StoredMessage) :
    tree (text ms) = .ok (StoredMessage.encoding.list.write ms) := by
  have hnests : Nests maxDepth (StoredMessage.encoding.list.write ms) := by
    refine .array fun j hj => ?_
    obtain ⟨m, -, rfl⟩ := List.mem_map.1 hj
    exact m.nests 124
  rw [tree, text, Encoding.encode, parse_compact hnests]

/-- Appending to the text is appending to the messages. -/
theorem append_text (m : StoredMessage) (ms : List StoredMessage) :
    (append (StoredMessage.encoding.write m) (StoredMessage.encoding.list.write ms)).compact
      = text (ms ++ [m]) := by
  rw [text, Encoding.encode]
  show (Json.array (ms.map _ ++ [_])).compact = (Json.array ((ms ++ [m]).map _)).compact
  rw [List.map_append]
  rfl

theorem count_text (ms : List StoredMessage) :
    count (StoredMessage.encoding.list.write ms) = ms.length := List.length_map ..

/-- The time that a listing finds is the last message's. -/
theorem lastTime?_text (ms : List StoredMessage) :
    lastTime? (StoredMessage.encoding.list.write ms)
      = ms.getLast?.map fun m => String.ofList m.time.shortText := by
  show (((ms.map StoredMessage.encoding.write).getLast?).bind (member? "ts")).bind plainText? = _
  rw [List.getLast?_map]
  cases ms.getLast? with
  | none => rfl
  | some m => rfl

end MessageColumn

namespace Row

theorem readMessages_text (ms : List StoredMessage) :
    readMessages (MessageColumn.text ms) = .ok ms := by
  rw [readMessages, MessageColumn.text,
    Encoding.decode_encode (Encoding.faithful_list fun m _ => m.faithful_encoding)]

/-! ## Reading a row -/

theorem readTime_column {t : Timestamp} (h : t.HasPlainYear) :
    readTime t.toColumn = .ok t := by
  rw [readTime, Timestamp.toColumn, String.toList_ofList, Timestamp.parseStrict_columnText h]

/-- A column is readable exactly if its instant has a plain year. -/
theorem readTime_column_iff (t : Timestamp) :
    (∃ u, readTime t.toColumn = .ok u) ↔ t.HasPlainYear := by
  constructor
  · intro h'
    obtain ⟨u, hu⟩ := h'
    rw [readTime, Timestamp.toColumn, String.toList_ofList] at hu
    split at hu
    · next v hv => exact t.parseStrict_columnText_iff.1 ⟨v, hv⟩
    · cases hu
  · exact fun h => ⟨t, readTime_column h⟩

/-- The time of a message is readable for a listing exactly if its year is plain. -/
theorem readTime_short_iff (t : Timestamp) :
    (∃ u, readTime (String.ofList t.shortText) = .ok u) ↔ t.HasPlainYear := by
  constructor
  · intro h'
    obtain ⟨u, hu⟩ := h'
    rw [readTime, String.toList_ofList] at hu
    split at hu
    · next v hv => exact t.parseStrict_shortText_iff.1 ⟨v, hv⟩
    · cases hu
  · intro h
    rw [readTime, String.toList_ofList, Timestamp.parseStrict_shortText h]
    exact ⟨t, rfl⟩

theorem readTime?_column {t? : Option Timestamp} (h : ∀ t ∈ t?, t.HasPlainYear) :
    readTime? (t?.map Timestamp.toColumn) = .ok t? := by
  cases t? with
  | none => rfl
  | some t =>
      rw [Option.map_some, readTime?, readTime_column (h t rfl)]
      rfl

theorem readTime?_column_iff (t? : Option Timestamp) :
    (∃ u, readTime? (t?.map Timestamp.toColumn) = .ok u) ↔ ∀ t ∈ t?, t.HasPlainYear := by
  constructor
  · intro h' t ht
    obtain ⟨u, hu⟩ := h'
    rw [ht, Option.map_some, readTime?] at hu
    cases hread : readTime t.toColumn with
    | error e => rw [hread] at hu; cases hu
    | ok v => exact (readTime_column_iff t).1 ⟨v, hread⟩
  · exact fun h => ⟨t?, readTime?_column h⟩

end Row

/-- All instants in the columns of a stored session have plain years. Those of
its messages do not count. -/
structure StoredSession.HasPlainYears (s : StoredSession) : Prop where
  startTime : s.startTime.HasPlainYear
  endTime : ∀ t ∈ s.endTime, t.HasPlainYear
  lastActivity : ∀ t ∈ s.lastActivity, t.HasPlainYear

namespace Row

theorem loadedFlag (b : Bool) : (flag b != 0) = b := by cases b <;> decide

/-- A row is read exactly if its messages and its times are; its other columns are taken over. -/
theorem toStored_eq_ok {row : Row} {stored : StoredSession} :
    row.toStored = .ok stored ↔
      readMessages row.messages = .ok stored.messages ∧
      readTime row.startTime = .ok stored.startTime ∧
      readTime? row.endTime = .ok stored.endTime ∧
      readTime? row.lastActivity = .ok stored.lastActivity ∧
      stored = { stored with
        id := row.id
        userId := row.userId
        name := row.name
        modelId := row.modelId
        duration := row.duration
        adminAssisted := row.adminAssisted != 0
        assistingAdminId := row.assistingAdminId
        assistingAdminName := row.assistingAdminName
        helpRequested := row.helpRequested != 0
        totalTokens := loadedTokens row.totalTokens
        maxResponseMs := row.maxResponseMs
        avgResponseMs := row.avgResponseMs } := by
  constructor
  · intro h
    obtain ⟨messages, hmessages, h⟩ := Except.bind_eq_ok.1 h
    obtain ⟨startTime, hstart, h⟩ := Except.bind_eq_ok.1 h
    obtain ⟨endTime, hend, h⟩ := Except.bind_eq_ok.1 h
    obtain ⟨lastActivity, hactivity, h⟩ := Except.bind_eq_ok.1 h
    cases h
    exact ⟨hmessages, hstart, hend, hactivity, rfl⟩
  · intro h
    obtain ⟨hmessages, hstart, hend, hactivity, hstored⟩ := h
    rw [toStored, hmessages, hstart, hend, hactivity, hstored]
    rfl

/-- What comes back of a stored session: all of it but the tokens that a column
cannot hold. -/
theorem toStored_ofStored {s : StoredSession} (h : s.HasPlainYears) :
    (ofStored s).toStored
      = .ok { s with totalTokens := loadedTokens (storedTokens s.totalTokens) } := by
  refine toStored_eq_ok.2 ⟨readMessages_text s.messages, readTime_column h.startTime,
    readTime?_column h.endTime, readTime?_column h.lastActivity, ?_⟩
  simp only [ofStored, loadedFlag]

/-- A stored session comes back exactly if all its columns have plain years. -/
theorem toStored_ofStored_iff (s : StoredSession) :
    (∃ t, (ofStored s).toStored = .ok t) ↔ s.HasPlainYears := by
  constructor
  · intro h'
    obtain ⟨t, ht⟩ := h'
    obtain ⟨-, hstart, hfinish, hlast, -⟩ := toStored_eq_ok.1 ht
    exact ⟨(readTime_column_iff _).1 ⟨_, hstart⟩, (readTime?_column_iff _).1 ⟨_, hfinish⟩,
      (readTime?_column_iff _).1 ⟨_, hlast⟩⟩
  · exact fun h => ⟨_, toStored_ofStored h⟩

end Row

/-! ## The column of tokens -/

namespace Store

theorem storedTokens_toInt {n : UInt64} (h : n.toNat < 9223372036854775808) :
    (Row.storedTokens n).toInt = n.toNat := by
  have hn : Row.storedTokens n = Int64.ofNat n.toNat := by
    rw [Row.storedTokens, ← UInt64.toInt64_ofNat', UInt64.ofNat_toNat]
  rw [hn, Int64.toInt_ofNat_of_lt h]

theorem loadedTokens_storedTokens {n : UInt64} (h : n.toNat < 9223372036854775808) :
    Row.loadedTokens (Row.storedTokens n) = n := by
  rw [Row.loadedTokens, storedTokens_toInt h, Int.toNat_natCast, UInt64.ofNat_toNat]

/-- What a column shows is kept in it again. -/
theorem storedTokens_loadedTokens {i : Int64} (h : 0 ≤ i) :
    Row.storedTokens (Row.loadedTokens i) = i := by
  have hpos : 0 ≤ i.toInt := Int64.le_iff_toInt_le.1 h
  have hlt := i.toInt_lt
  have hcount : (Row.loadedTokens i).toNat = i.toInt.toNat := by
    refine UInt64.toNat_ofNat_of_lt' ?_
    rw [UInt64.size]
    omega
  rw [← Int64.toInt_inj, storedTokens_toInt (by omega), hcount]
  omega

end Store

/-- A stored session with the tokens that its column shows. -/
def StoredSession.shown (x : StoredSession) : StoredSession :=
  { x with totalTokens := Row.loadedTokens (Row.storedTokens x.totalTokens) }

theorem Row.toStored_shown {s : StoredSession} (h : s.HasPlainYears) :
    (ofStored s).toStored = .ok s.shown := toStored_ofStored h

/-- A stored session comes back as it is if its tokens fit their column. -/
theorem Row.toStored_of_tokens {s : StoredSession} (h : s.HasPlainYears)
    (htokens : s.totalTokens.toNat < 9223372036854775808) : (ofStored s).toStored = .ok s := by
  rw [toStored_ofStored h, Store.loadedTokens_storedTokens htokens]

/-! ## Changes of rows -/

/-- The later of two last activities, by their texts. -/
def StoredSession.laterActivity (old new : Option Timestamp) : Option Timestamp :=
  match new with
  | some n => if (old.map Timestamp.toColumn).getD "" < n.toColumn then some n else old
  | none => old

/-- A stored session after the first statement of an update, which sets no end:
the id and the messages stay, and so does the duration of an ended session. -/
def StoredSession.refreshed (new old : StoredSession) : StoredSession :=
  { new with
    id := old.id
    messages := old.messages
    endTime := old.endTime
    duration := if old.endTime.isNone then new.duration else old.duration
    lastActivity := laterActivity old.lastActivity new.lastActivity }

/-- A stored session after an update: with the new end unless it has one. -/
def StoredSession.merged (new old : StoredSession) : StoredSession :=
  { new.refreshed old with endTime := old.endTime.or new.endTime }

/-- A stored session that ends unless it has ended, with a new duration if there
is one. -/
def StoredSession.ended (finish : Timestamp) (duration : Option Int64) (s : StoredSession) :
    StoredSession :=
  { s with
    endTime := s.endTime.or (some finish)
    duration := duration.getD s.duration }

/-- A stored session with one more message. -/
def StoredSession.withMessage (m : StoredMessage) (now : Timestamp) (s : StoredSession) :
    StoredSession :=
  { s with messages := s.messages ++ [m], lastActivity := some now }

namespace Row

theorem laterActivity_map (old new : Option Timestamp) :
    Store.laterActivity (old.map Timestamp.toColumn) (new.map Timestamp.toColumn)
      = (StoredSession.laterActivity old new).map Timestamp.toColumn := by
  cases new with
  | none => rfl
  | some n =>
      rw [Option.map_some, Store.laterActivity, StoredSession.laterActivity]
      split <;> rfl

theorem updatedRow_ofStored (new old : StoredSession) :
    Store.updatedRow (ofStored new) (ofStored old) = ofStored (new.refreshed old) := by
  simp only [ofStored, Store.updatedRow, StoredSession.refreshed, laterActivity_map,
    Option.isNone_map]

theorem isOpen_ofStored (id : String) (s : StoredSession) :
    Store.isOpen id (ofStored s) = (s.id = id && s.endTime.isNone) := by
  show (_ && (s.endTime.map Timestamp.toColumn).isNone) = _
  rw [Option.isNone_map]
  rfl

theorem appendedRow_ofStored (m : StoredMessage) (now : Timestamp) (s : StoredSession) :
    Store.appendedRow (StoredMessage.encoding.write m) now.toColumn (ofStored s)
      = .ok (ofStored (s.withMessage m now)) := by
  rw [Store.appendedRow]
  refine Except.bind_eq_ok.2 ⟨_, MessageColumn.tree_text s.messages, ?_⟩
  rw [MessageColumn.append_text]
  rfl

end Row

end ChatArchive
