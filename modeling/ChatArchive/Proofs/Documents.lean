import ChatArchive.Proofs.Integers
import ChatArchive.Proofs.Rows

/-!
# Stored sessions as JSON text

A stored session leaves out what it does not have and writes everything else under a short
name. Reading starts from a blank session in which exactly the fields that may be left out
are empty, so a field that was left out and one that was written as empty stay apart: no
end is not an end, an empty text is not a missing one, and no labels are not an empty set of
labels. Field by field this is `Layout.Fills`, one step for each of the sixteen columns, and
nothing is asked of the values: the integers reach over all of 64 bits, and an instant may
be a leap second or lie in a year that has a sign.
-/

namespace ChatArchive

open Json Time

namespace Json.Encoding

theorem present_timestamp (t : Timestamp) : timestamp.Present t :=
  ⟨'"', _, rfl, by decide, by decide⟩

end Json.Encoding

namespace StoredSession

theorem faithful_encoding (s : StoredSession) : encoding.Faithful s := by
  have htext : ∀ text? : Option String, ∀ v, text? = some v →
      Encoding.string.Faithful v ∧ Encoding.string.Present v :=
    fun _ v _ => ⟨Encoding.faithful_string v, Encoding.present_string v⟩
  have htime : ∀ t? : Option Timestamp, ∀ t, t? = some t →
      Encoding.timestamp.Faithful t ∧ Encoding.timestamp.Present t :=
    fun _ t _ => ⟨Encoding.faithful_timestamp t, Encoding.present_timestamp t⟩
  have hmessages : StoredMessage.encoding.list.Faithful s.messages :=
    Encoding.faithful_list fun m _ => m.faithful_encoding
  refine Layout.faithful ?_ (by decide)
  refine .of (Encoding.faithful_string _) (.of (Encoding.faithful_string _)
    (.of (Encoding.faithful_string _) (.of (Encoding.faithful_string _) (.of hmessages ?_))))
  refine .of (Encoding.faithful_timestamp _) (.omitted (htime _) rfl
    (.of (Encoding.faithful_int64 _) (.of (Encoding.faithful_bool _) ?_)))
  refine .omitted (htext _) rfl (.omitted (htext _) rfl (.of (Encoding.faithful_bool _) ?_))
  exact .of (Encoding.faithful_uint64 _) (.of (Encoding.faithful_int64 _)
    (.of (Encoding.faithful_int64 _) (.omitted (htime _) rfl .nil)))

end StoredSession

/-- Every list of stored messages and every stored session is read back from its own JSON
text, and the messages column of a row is read back as the messages it was written from. -/
theorem stored_json_reads_back :
    (∀ messages : List StoredMessage,
      StoredMessage.encoding.list.decode (StoredMessage.encoding.list.encode messages)
        = .ok messages) ∧
    (∀ s : StoredSession, StoredSession.encoding.decode (StoredSession.encoding.encode s) = .ok s) ∧
    ∀ s : StoredSession, Row.readMessages (Row.ofStored s).messages = .ok s.messages := by
  refine ⟨fun messages => ?_, fun s => Encoding.decode_encode s.faithful_encoding, fun s => ?_⟩
  · exact Encoding.decode_encode (Encoding.faithful_list fun m _ => m.faithful_encoding)
  · exact Row.readMessages_text s.messages

end ChatArchive
