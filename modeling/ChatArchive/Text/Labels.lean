/-!
# Labels

A set of named texts, ordered by name. Setting a name again replaces its text. The order and the
uniqueness of the names are part of the type, so two sets with the same texts are equal.
-/

namespace ChatArchive.Text

/-- Inserts an entry at the place of its name. -/
def insertEntry (name text : String) : List (String × String) → List (String × String)
  | [] => [(name, text)]
  | (n, t) :: rest =>
    if name < n then (name, text) :: (n, t) :: rest
    else if n < name then (n, t) :: insertEntry name text rest
    else (name, text) :: rest

/-- Names rise strictly. -/
def Ordered (entries : List (String × String)) : Prop :=
  entries.Pairwise fun a b => a.1 < b.1

theorem mem_insertEntry {name text : String} {entries : List (String × String)}
    {e : String × String} (h : e ∈ insertEntry name text entries) :
    e = (name, text) ∨ e ∈ entries := by
  induction entries with
  | nil => simpa [insertEntry] using h
  | cons x rest ih =>
    obtain ⟨n, t⟩ := x
    simp only [insertEntry] at h
    split at h
    · simpa using h
    · split at h
      · rcases List.mem_cons.1 h with rfl | h
        · simp
        · rcases ih h with rfl | h <;> simp [*]
      · rcases List.mem_cons.1 h with rfl | h <;> simp [*]

theorem ordered_insertEntry {name text : String} {entries : List (String × String)}
    (h : Ordered entries) : Ordered (insertEntry name text entries) := by
  induction entries with
  | nil => simp [insertEntry, Ordered]
  | cons x rest ih =>
    obtain ⟨n, t⟩ := x
    have hx := List.pairwise_cons.1 h
    simp only [insertEntry]
    split
    · rename_i hlt
      refine List.pairwise_cons.2 ⟨?_, h⟩
      intro e he
      rcases List.mem_cons.1 he with rfl | he
      · exact hlt
      · exact String.lt_trans hlt (hx.1 e he)
    · split
      · rename_i hlt
        refine List.pairwise_cons.2 ⟨?_, ih hx.2⟩
        intro e he
        rcases mem_insertEntry he with rfl | he
        · exact hlt
        · exact hx.1 e he
      · rename_i h₁ h₂
        have hn : name = n := String.le_antisymm h₂ h₁
        subst hn
        exact List.pairwise_cons.2 ⟨hx.1, hx.2⟩

/-- Named texts in the order of their names. -/
structure Labels where
  entries : List (String × String)
  ordered : Ordered entries

namespace Labels

instance : DecidableEq Labels := fun a b =>
  if h : a.entries = b.entries then
    isTrue (by cases a; cases b; cases h; rfl)
  else isFalse fun e => h (congrArg entries e)

/-- No labels. -/
def empty : Labels := ⟨[], List.Pairwise.nil⟩

/-- Sets the text of a name. -/
def insert (labels : Labels) (name text : String) : Labels :=
  ⟨insertEntry name text labels.entries, ordered_insertEntry labels.ordered⟩

/-- The labels of a list, a later entry replacing an earlier one of its name. -/
def ofList (entries : List (String × String)) : Labels :=
  entries.foldl (fun labels e => labels.insert e.1 e.2) empty

end Labels

end ChatArchive.Text
