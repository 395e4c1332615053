import ChatArchive.Json.Encoding
import ChatArchive.Proofs.JsonText
import ChatArchive.Proofs.TimeText
import ChatArchive.Session.Encoding

/-!
# Encodings give back what they were given

An encoding is faithful to a value if its reader takes the written value back.
Strings, instants and labels are faithful to all their values, lists if their
items are, and a record if its fields are: reading a record fills a blank one
field by field, in the order in which the fields were written, and a field that
was left out must have been blank already. `Fills` is that walk over the fields.

Stored messages are the record that the store relies on. Their text also has to
survive the tree reader, which appends to it without reading messages; that a
stored message nests two deep is all that is needed for it.
-/

namespace ChatArchive.Json

open ChatArchive.Text ChatArchive.Time

/-- An encoding gives a value back: what it writes starts like a value and its
reader takes it. -/
structure Encoding.Faithful {α : Type} (e : Encoding α) (a : α) : Prop where
  starts : StartsValue (chars (e.write a))
  takes : Reader.Takes e.read (chars (e.write a)) a

/-- A value is not written as null, so it differs from a missing one. -/
def Encoding.Present {α : Type} (e : Encoding α) (a : α) : Prop :=
  ∃ c cs, chars (e.write a) = c :: cs ∧ Reader.isBlank c = false ∧ c ≠ 'n'

namespace Encoding

theorem decode_encode {α : Type} {e : Encoding α} {a : α} (h : e.Faithful a) :
    e.decode (e.encode a) = .ok a := by
  rw [decode, encode, compact, String.toList_ofList]
  exact Reader.run_of_takes h.takes

theorem faithful_string (s : String) : string.Faithful s :=
  ⟨Reader.startsValue_string s, Reader.takes_string s⟩

theorem present_string (s : String) : string.Present s :=
  ⟨'"', _, rfl, by decide, by decide⟩

/-- Every instant is given back. -/
theorem faithful_timestamp (t : Timestamp) : timestamp.Faithful t := by
  refine ⟨Reader.startsValue_string _, fun rest _ => ?_⟩
  show readTimestamp (quoted (String.ofList t.shortText) ++ rest) = _
  rw [readTimestamp, bind_ok (Reader.string_quoted _ rest), String.toList_ofList,
    t.parseRelaxed_shortText]
  rfl

theorem faithful_list {α : Type} {e : Encoding α} {as : List α}
    (h : ∀ a ∈ as, e.Faithful a) : e.list.Faithful as := by
  have hitems : Reader.TakesItems e.read (as.map e.write) as := by
    rw [Reader.TakesItems, List.forall₂_map_left_iff, List.forall₂_same]
    exact fun a ha => ⟨(h a ha).starts, (h a ha).takes⟩
  exact ⟨Reader.startsValue_array _, Reader.takes_array hitems⟩

theorem faithful_variant {α : Type} {name : α → String} {ofName? : String → Option α}
    {a : α} (h : ofName? (name a) = some a) : (variant name ofName?).Faithful a := by
  refine ⟨Reader.startsValue_string _, fun rest _ => ?_⟩
  show Reader.variant ofName? (quoted (name a) ++ rest) = _
  rw [Reader.quoted_append, Reader.variant, bind_ok (Reader.peek_cons (by decide))]
  simp only []
  rw [if_pos trivial, bind_ok (Reader.skip_cons _ _),
    bind_ok (Reader.stringRest_quoted _ rest), h]
  rfl

end Encoding

/-! ## Labels -/

end ChatArchive.Json

namespace ChatArchive.Text

/-- A name behind all others is put at the end. -/
theorem insertEntry_last {name text : String} {entries : List (String × String)}
    (h : ∀ e ∈ entries, e.1 < name) :
    insertEntry name text entries = entries ++ [(name, text)] := by
  induction entries with
  | nil => rfl
  | cons e rest ih =>
      obtain ⟨n, t⟩ := e
      have hn : n < name := h (n, t) List.mem_cons_self
      rw [insertEntry, if_neg (String.lt_asymm hn), if_pos hn,
        ih fun e he => h e (List.mem_cons_of_mem _ he), List.cons_append]

/-- Entries in the order of their names are put back as they stand. -/
theorem Labels.foldl_insert {before entries : List (String × String)}
    {labels : Labels} (hlabels : labels.entries = before)
    (h : Ordered (before ++ entries)) :
    (entries.foldl (fun labels e => labels.insert e.1 e.2) labels).entries
      = before ++ entries := by
  induction entries generalizing before labels with
  | nil => rw [List.foldl_nil, List.append_nil, hlabels]
  | cons e rest ih =>
      have hlast : ∀ d ∈ before, d.1 < e.1 := fun d hd =>
        (List.pairwise_append.1 h).2.2 d hd e List.mem_cons_self
      have hinsert : (labels.insert e.1 e.2).entries = before ++ [e] := by
        show insertEntry e.1 e.2 labels.entries = _
        rw [hlabels, insertEntry_last hlast]
      rw [List.foldl_cons, ih hinsert (by rwa [List.append_assoc]), List.append_assoc]
      rfl

theorem Labels.ofList_entries (labels : Labels) : ofList labels.entries = labels := by
  have hordered : Ordered ([] ++ labels.entries) := by
    rw [List.nil_append]
    exact labels.ordered
  have hempty : empty.entries = [] := rfl
  have h := foldl_insert hempty hordered
  cases hfold : ofList labels.entries with
  | mk entries ordered =>
      have hentries : entries = labels.entries := by
        rw [ofList] at hfold
        rw [hfold] at h
        exact h
      cases labels
      simp only [] at hentries
      subst hentries
      rfl

end ChatArchive.Text

namespace ChatArchive.Json

open ChatArchive.Text ChatArchive.Time

theorem Encoding.faithful_labels (ls : Labels) : labels.Faithful ls := by
  have hmembers : Reader.TakesMembers (fun _ => Reader.string)
      (ls.entries.map fun e => (e.1, Json.string e.2)) ls.entries := by
    rw [Reader.TakesMembers, List.forall₂_map_left_iff, List.forall₂_same]
    exact fun e _ => ⟨rfl, Reader.takes_string e.2⟩
  refine ⟨Reader.startsValue_object _, fun rest hrest => ?_⟩
  show (Reader.object Reader.string >>= fun es => pure (Labels.ofList es))
    (chars (.object (ls.entries.map fun e => (e.1, .string e.2))) ++ rest) = _
  rw [bind_ok (Reader.takes_object hmembers rest hrest), Labels.ofList_entries]
  rfl

theorem Encoding.present_labels (ls : Labels) : labels.Present ls :=
  ⟨'{', _, by rw [labels, chars, List.cons_append], by decide, by decide⟩

/-! ## Records -/

namespace Layout

variable {α β : Type} {a b draft : α} {fields : List (Field α)}

/-- The members that some fields of a record are written as. -/
def membersOf (a : α) (fields : List (Field α)) : List (String × Json) :=
  fields.filterMap fun f => (f.write a).map fun j => (f.name, j)

/-- `Fills a fields draft b`: reading the fields of `a` as they were written
turns the draft into `b`. A field may be left out unless it is required. -/
inductive Fills (a : α) : List (Field α) → (draft b : α) → Prop
  | nil {draft : α} : Fills a [] draft draft
  | written {f : Field α} {fields : List (Field α)} {j : Json} {draft draft' b : α}
      (hwrite : f.write a = some j)
      (hread : Reader.Takes (f.read draft) (chars j) draft')
      (hrest : Fills a fields draft' b) : Fills a (f :: fields) draft b
  | leftOut {f : Field α} {fields : List (Field α)} {draft b : α}
      (hwrite : f.write a = none) (hpresence : f.presence ≠ .required)
      (hrest : Fills a fields draft b) : Fills a (f :: fields) draft b

/-- A field that is always written. -/
theorem Fills.of {name : String} {presence : Presence} {e : Encoding β} {get : α → β}
    {set : α → β → α} (h : e.Faithful (get a))
    (hrest : Fills a fields (set draft (get a)) b) :
    Fills a (.of name presence e get set :: fields) draft b := by
  refine .written rfl (fun rest hdelim => ?_) hrest
  show (e.read >>= fun v => pure (set draft v)) _ = _
  rw [bind_ok (h.takes rest hdelim)]
  rfl

/-- A field that is left out without a value; the draft has none there. -/
theorem Fills.omitted {name : String} {e : Encoding β} {get : α → Option β}
    {set : α → Option β → α} (h : ∀ v, get a = some v → e.Faithful v ∧ e.Present v)
    (hdraft : set draft none = draft) (hrest : Fills a fields (set draft (get a)) b) :
    Fills a (.omitted name e get set :: fields) draft b := by
  cases hget : get a with
  | none =>
      rw [hget, hdraft] at hrest
      refine .leftOut ?_ Presence.noConfusion hrest
      show (get a).map e.write = none
      rw [hget, Option.map_none]
  | some v =>
      obtain ⟨hfaithful, c, cs, hc, hblank, hn⟩ := h v hget
      refine .written (j := e.write v) ?_ (fun rest hdelim => ?_) hrest
      · show (get a).map e.write = _
        rw [hget, Option.map_some]
      · have hvalue := hfaithful.takes rest hdelim
        have hpeek : Reader.peek (chars (e.write v) ++ rest)
            = .ok (some c, chars (e.write v) ++ rest) := by
          rw [hc, List.cons_append, Reader.peek_cons hblank]
        have hoption : e.option.read (chars (e.write v) ++ rest) = .ok (some v, rest) := by
          show Reader.option e.read _ = _
          rw [Reader.option, bind_ok hpeek, if_neg (by simpa using hn), bind_ok hvalue]
          rfl
        show (e.option.read >>= fun v => pure (set draft v)) _ = _
        rw [bind_ok hoption, hget]
        rfl

/-- The members of a record up to its brace, and the names that they have. -/
theorem readMembers_membersOf {layout : Layout α} (h : Fills a fields draft b)
    (hfind : ∀ f ∈ fields, layout.fields.find? (·.name = f.name) = some f)
    (hdistinct : fields.Pairwise (·.name ≠ ·.name)) {seen : List String}
    (hseen : ∀ f ∈ fields, f.name ∉ seen) {fuel : List Char}
    (hfuel : (membersOf a fields).length < fuel.length) (first : Bool)
    (rest : List Char) :
    layout.readMembers fuel first seen draft
        ((if first then memberChars (membersOf a fields)
          else Reader.moreMembers (membersOf a fields)) ++ '}' :: rest)
      = .ok ((b, ((membersOf a fields).map (·.1)).reverse ++ seen), '}' :: rest) := by
  induction h generalizing seen fuel first with
  | nil =>
      cases fuel with
      | nil => exact absurd hfuel (Nat.not_lt_zero _)
      | cons c fuel => cases first <;> rfl
  | @written f fields j draft draft' b hwrite hread hrest ih =>
      have hmembers : membersOf a (f :: fields) = (f.name, j) :: membersOf a fields := by
        rw [membersOf, List.filterMap_cons_some (by rw [hwrite]; rfl)]
        rfl
      rw [hmembers] at hfuel ⊢
      cases fuel with
      | nil => exact absurd hfuel (Nat.not_lt_zero _)
      | cons c fuel =>
          have hnew : seen.contains f.name = false := by
            simpa using hseen f List.mem_cons_self
          have hseen' : ∀ g ∈ fields, g.name ∉ f.name :: seen := by
            intro g hg hmem
            rcases List.mem_cons.1 hmem with heq | hmem
            · exact (List.pairwise_cons.1 hdistinct).1 g hg heq.symm
            · exact hseen g (List.mem_cons_of_mem _ hg) hmem
          have ih' := ih (fun g hg => hfind g (List.mem_cons_of_mem _ hg))
            (List.pairwise_cons.1 hdistinct).2 hseen' (Nat.lt_of_succ_lt_succ hfuel) false
          rw [if_neg (by decide)] at ih'
          rw [readMembers, bind_ok (Reader.nextMember_quoted first f.name j _ _),
            if_pos rfl, bind_ok (Reader.string_quoted _ _),
            hfind f List.mem_cons_self]
          simp only [hnew]
          rw [if_neg (by decide), bind_ok (Reader.colon_cons _),
            bind_ok (hread _ (Reader.delimited_moreMembers _ rest)), ih', List.map_cons,
            List.reverse_cons, List.append_assoc]
          rfl
  | @leftOut f fields draft b hwrite hpresence hrest ih =>
      have hmembers : membersOf a (f :: fields) = membersOf a fields := by
        rw [membersOf, List.filterMap_cons_none (by rw [hwrite]; rfl)]
        rfl
      rw [hmembers] at hfuel ⊢
      exact ih (fun g hg => hfind g (List.mem_cons_of_mem _ hg))
        (List.pairwise_cons.1 hdistinct).2
        (fun g hg => hseen g (List.mem_cons_of_mem _ hg)) hfuel first

/-- A required field is always written. -/
theorem Fills.mem_names (h : Fills a fields draft b) {f : Field α} (hf : f ∈ fields)
    (hpresence : f.presence = .required) :
    f.name ∈ (membersOf a fields).map (·.1) := by
  induction h with
  | nil => cases hf
  | @written g fields j draft draft' b hwrite hread hrest ih =>
      rw [membersOf, List.filterMap_cons_some (by rw [hwrite]; rfl)]
      rcases List.mem_cons.1 hf with rfl | hf
      · exact List.mem_cons_self
      · exact List.mem_cons_of_mem _ (ih hf)
  | @leftOut g fields draft b hwrite hleft hrest ih =>
      rw [membersOf, List.filterMap_cons_none (by rw [hwrite]; rfl)]
      rcases List.mem_cons.1 hf with rfl | hf
      · exact absurd hpresence hleft
      · exact ih hf

/-- Distinct names lead to the fields that have them. -/
theorem find?_name (hdistinct : fields.Pairwise (·.name ≠ ·.name)) {f : Field α}
    (hf : f ∈ fields) : fields.find? (·.name = f.name) = some f := by
  induction fields with
  | nil => cases hf
  | cons g fields ih =>
      obtain ⟨hg, hdistinct⟩ := List.pairwise_cons.1 hdistinct
      rcases List.mem_cons.1 hf with rfl | hf
      · exact List.find?_cons_of_pos (decide_eq_true rfl)
      · rw [List.find?_cons_of_neg (by simpa using hg f hf)]
        exact ih hdistinct hf

theorem read_brace (layout : Layout α) (rest : List Char) :
    layout.read ('{' :: rest) = layout.readObject rest := rfl

/-- A record whose fields fill a blank one is given back. -/
theorem faithful {layout : Layout α} (h : Fills a layout.fields layout.blank a)
    (hdistinct : layout.fields.Pairwise (·.name ≠ ·.name)) :
    (Encoding.ofLayout layout).Faithful a := by
  refine ⟨Reader.startsValue_object _, fun rest _ => ?_⟩
  have hlen := Reader.length_le_memberChars (membersOf a layout.fields)
  have hfuel : (membersOf a layout.fields).length
      < (memberChars (membersOf a layout.fields) ++ '}' :: rest).length := by
    rw [List.length_append, List.length_cons]
    omega
  have hnone : ∀ f ∈ layout.fields, f.name ∉ ([] : List String) :=
    fun _ _ => List.not_mem_nil
  have hmembers := readMembers_membersOf h (fun f hf => find?_name hdistinct hf) hdistinct
    hnone hfuel true rest
  rw [if_pos rfl, List.append_nil] at hmembers
  have hmissing :
      layout.missing? ((membersOf a layout.fields).map (·.1)).reverse = none := by
    rw [missing?, Option.map_eq_none_iff, List.find?_eq_none]
    intro f hf hcond
    simp only [Bool.and_eq_true, decide_eq_true_eq, Bool.not_eq_true',
      List.contains_reverse] at hcond
    have hname := h.mem_names hf hcond.1
    rw [← List.contains_iff_mem, hcond.2] at hname
    exact Bool.noConfusion hname
  show layout.read (chars (.object (membersOf a layout.fields)) ++ rest) = _
  rw [Reader.chars_object_append, read_brace, readObject, bind_ok (get_apply _),
    bind_ok hmembers]
  simp only [hmissing]
  rw [bind_ok (Reader.objectEnd_cons rest)]
  rfl

end Layout

end ChatArchive.Json

namespace ChatArchive

open Json

/-! ## Stored messages -/

namespace StoredMessage

theorem faithful_encoding (m : StoredMessage) : encoding.Faithful m := by
  refine Layout.faithful ?_ ?_
  · exact .of (Encoding.faithful_string _) (.of (Encoding.faithful_timestamp _)
      (.of (Encoding.faithful_variant (Sender.ofName?_name _))
        (.omitted (fun v _ => ⟨Encoding.faithful_string v, Encoding.present_string v⟩) rfl
          (.omitted (fun v _ => ⟨Encoding.faithful_string v, Encoding.present_string v⟩) rfl
            (.omitted (fun v _ => ⟨Encoding.faithful_labels v, Encoding.present_labels v⟩)
              rfl .nil)))))
  · decide

end StoredMessage

end ChatArchive
