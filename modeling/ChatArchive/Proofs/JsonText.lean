import ChatArchive.Json.Tree
import ChatArchive.Proofs.Sequencing

/-!
# JSON text is read back as what was written

A reader takes a written value from the front of a text and leaves the rest, so
every statement here is about a written value in front of any rest that may
follow one: `Takes` says it of one reader, one text and one value. Strings,
arrays and objects are put together from it, each from the `Takes` of its
parts, and the tree reader is one instance.

The readers that repeat a step are given the text as fuel. Each statement about
them asks for more fuel than there are steps, and the text always is, since no
item, member or character is written as nothing.
-/

namespace ChatArchive.Json

open ChatArchive.Text

/-- What may follow a written value: nothing, a comma or a closing bracket. -/
def Delimited (rest : List Char) : Prop :=
  ∀ c ∈ rest.head?, c = ',' ∨ c = ']' ∨ c = '}'

theorem delimited_nil : Delimited [] := by
  intro c hc
  cases hc

theorem delimited_cons {c : Char} (h : c = ',' ∨ c = ']' ∨ c = '}')
    (rest : List Char) : Delimited (c :: rest) := by
  intro d hd
  cases hd
  exact h

/-- A text that starts like a value: neither with a blank nor with the bracket
that closes an array. -/
def StartsValue (text : List Char) : Prop :=
  ∃ c cs, text = c :: cs ∧ Reader.isBlank c = false ∧ c ≠ ']'

theorem StartsValue.length_pos {text : List Char} (h : StartsValue text) :
    0 < text.length := by
  obtain ⟨c, cs, rfl, -, -⟩ := h
  exact Nat.succ_pos _

theorem startsValue_cons {c : Char} {cs : List Char}
    (h : Reader.isBlank c = false) (hc : c ≠ ']') : StartsValue (c :: cs) :=
  ⟨c, cs, rfl, h, hc⟩

namespace Reader

/-- A reader takes a written value from the front of every text that it may
stand in. -/
def Takes {α : Type} (r : Reader α) (text : List Char) (a : α) : Prop :=
  ∀ rest, Delimited rest → r (text ++ rest) = .ok (a, rest)

/-- A text that is one written value and nothing else. -/
theorem run_of_takes {α : Type} {r : Reader α} {text : List Char} {a : α}
    (h : Takes r text a) : run r text = .ok a := by
  have htext := h [] delimited_nil
  rw [List.append_nil] at htext
  rw [run, htext]
  rfl

theorem peek_cons {c : Char} {cs : List Char} (h : isBlank c = false) :
    peek (c :: cs) = .ok (some c, c :: cs) := by
  rw [peek, List.dropWhile_cons_of_neg (by rw [h]; decide)]
  rfl

theorem skip_cons (c : Char) (cs : List Char) : skip (c :: cs) = .ok ((), cs) := rfl

theorem next_cons (fault : Fault) (c : Char) (cs : List Char) :
    next fault (c :: cs) = .ok (c, cs) := rfl

/-! ## Strings -/

theorem hexValue?_hexChar (d : Nat) : hexValue? (hexChar d) = some (d % 16) := by
  have key : ∀ k < 16, hexValue? (hexChar k) = some k := by decide
  have hmod : hexChar d = hexChar (d % 16) := by
    rw [hexChar, hexChar, Nat.mod_mod]
  rw [hmod]
  exact key (d % 16) (Nat.mod_lt d (by decide))

/-- A character is written as itself or by an escape. -/
theorem escape_cases (c : Char) :
    (escape c = [c] ∧ c ≠ '"' ∧ c ≠ '\\' ∧ ¬ c.toNat < 32) ∨
      ∃ cs, escape c = '\\' :: cs ∧ ∀ rest, escaped (cs ++ rest) = .ok (c, rest) := by
  have hofNat : ∀ n, c.toNat = n → c = Char.ofNat n := by
    intro n hn
    rw [← hn, Char.ofNat_toNat]
  rw [escape]
  split
  · next h => rw [h]; exact Or.inr ⟨['"'], rfl, fun _ => rfl⟩
  split
  · next h => rw [h]; exact Or.inr ⟨['\\'], rfl, fun _ => rfl⟩
  split
  · next h₁ h₂ h => exact Or.inl ⟨rfl, h₁, h₂, Nat.not_lt.2 h⟩
  split
  · next h => rw [hofNat 8 h]; exact Or.inr ⟨['b'], rfl, fun _ => rfl⟩
  split
  · next h => rw [hofNat 9 h]; exact Or.inr ⟨['t'], rfl, fun _ => rfl⟩
  split
  · next h => rw [hofNat 10 h]; exact Or.inr ⟨['n'], rfl, fun _ => rfl⟩
  split
  · next h => rw [hofNat 12 h]; exact Or.inr ⟨['f'], rfl, fun _ => rfl⟩
  split
  · next h => rw [hofNat 13 h]; exact Or.inr ⟨['r'], rfl, fun _ => rfl⟩
  · next h _ _ _ _ _ =>
      refine Or.inr ⟨_, rfl, fun rest => ?_⟩
      have hhex : hexEscape ('0' :: '0' :: hexChar (c.toNat / 16) :: hexChar c.toNat :: rest)
          = .ok (c.toNat, rest) := by
        simp only [hexEscape, hexValue?_hexChar, show hexValue? '0' = some 0 from rfl]
        rw [show 0 * 4096 + 0 * 256 + c.toNat / 16 % 16 * 16 + c.toNat % 16 = c.toNat by
          omega]
      simp only [List.cons_append, List.nil_append]
      rw [escaped, bind_ok (next_cons _ _ _)]
      show (hexEscape >>= _) _ = _
      rw [bind_ok hhex, if_neg (by omega), if_neg (by omega), Char.ofNat_toNat]
      rfl

theorem length_le_flatMap_escape (s : List Char) :
    s.length ≤ (s.flatMap escape).length := by
  induction s with
  | nil => exact Nat.le_refl _
  | cons c s ih =>
      have hc : 0 < (escape c).length := by
        rcases escape_cases c with ⟨h, -⟩ | ⟨cs, h, -⟩ <;> rw [h] <;> exact Nat.succ_pos _
      rw [List.flatMap_cons, List.length_append, List.length_cons]
      omega

theorem stringChars_escape {s fuel : List Char} (hfuel : s.length < fuel.length)
    (rest : List Char) :
    stringChars fuel (s.flatMap escape ++ '"' :: rest) = .ok (s, rest) := by
  induction s generalizing fuel with
  | nil =>
      cases fuel with
      | nil => exact absurd hfuel (Nat.not_lt_zero _)
      | cons f fuel => rfl
  | cons c s ih =>
      cases fuel with
      | nil => exact absurd hfuel (Nat.not_lt_zero _)
      | cons f fuel =>
          have hmore : s.length < fuel.length := Nat.lt_of_succ_lt_succ hfuel
          have ih' := ih hmore
          rw [List.flatMap_cons, List.append_assoc, stringChars]
          rcases escape_cases c with ⟨hesc, hq, hb, hctl⟩ | ⟨cs, hesc, hread⟩
          · rw [hesc, List.cons_append, List.nil_append, bind_ok (next_cons _ _ _),
              if_neg hq, if_neg hb, if_neg hctl, bind_ok ih']
            rfl
          · rw [hesc, List.cons_append, bind_ok (next_cons _ _ _), if_neg (by decide),
              if_pos rfl, bind_ok (hread _), bind_ok ih']
            rfl

/-- A string is read back, whatever its characters are. -/
theorem stringRest_quoted (s : String) (rest : List Char) :
    stringRest (s.toList.flatMap escape ++ '"' :: rest) = .ok (s, rest) := by
  have hlen := length_le_flatMap_escape s.toList
  have hfuel : s.toList.length < (s.toList.flatMap escape ++ '"' :: rest).length := by
    rw [List.length_append, List.length_cons]
    omega
  have h := stringChars_escape hfuel rest
  show (stringChars _ >>= fun cs => pure (String.ofList cs)) _ = _
  rw [bind_ok h, String.ofList_toList]
  rfl

theorem quoted_append (s : String) (rest : List Char) :
    quoted s ++ rest = '"' :: (s.toList.flatMap escape ++ '"' :: rest) := by
  simp only [quoted, List.cons_append, List.append_assoc, List.nil_append]

theorem string_quoted (s : String) (rest : List Char) :
    string (quoted s ++ rest) = .ok (s, rest) := by
  rw [quoted_append]
  exact stringRest_quoted s rest

theorem takes_string (s : String) : Takes string (chars (.string s)) s :=
  fun rest _ => string_quoted s rest

theorem startsValue_string (s : String) : StartsValue (chars (.string s)) :=
  startsValue_cons (by decide) (by decide)

/-! ## Arrays -/

/-- The items that follow an item, with the comma in front of them. -/
def moreItems : List Json → List Char
  | [] => []
  | j :: rest => ',' :: itemChars (j :: rest)

theorem itemChars_cons (j : Json) (js : List Json) :
    itemChars (j :: js) = chars j ++ moreItems js := by
  cases js with
  | nil => rw [itemChars, moreItems, List.append_nil]
  | cons k ks => rw [itemChars, moreItems]; exact fun h => List.cons_ne_nil k ks h

/-- A reader takes each of some written items as what stands beside it. -/
def TakesItems {α : Type} (item : Reader α) : List Json → List α → Prop :=
  List.Forall₂ fun j a => StartsValue (chars j) ∧ Takes item (chars j) a

theorem nextItem_first {text : List Char} (h : StartsValue text) (rest : List Char) :
    nextItem true (text ++ rest) = .ok (true, text ++ rest) := by
  obtain ⟨c, cs, rfl, hblank, hc⟩ := h
  rw [List.cons_append, nextItem, bind_ok (peek_cons hblank)]
  simp only []
  rw [if_neg hc, if_pos trivial]
  rfl

theorem nextItem_comma {text : List Char} (h : StartsValue text) (rest : List Char) :
    nextItem false (',' :: (text ++ rest)) = .ok (true, text ++ rest) := by
  obtain ⟨c, cs, rfl, hblank, hc⟩ := h
  rw [List.cons_append, nextItem, bind_ok (peek_cons (by decide))]
  show (skip >>= _) _ = _
  rw [bind_ok (skip_cons _ _), bind_ok (peek_cons hblank)]
  simp only []
  rw [if_neg hc]
  rfl

theorem delimited_moreItems (js : List Json) (rest : List Char) :
    Delimited (moreItems js ++ ']' :: rest) := by
  cases js with
  | nil => exact delimited_cons (Or.inr (Or.inl rfl)) rest
  | cons j js => exact delimited_cons (Or.inl rfl) _

/-- The items of an array up to its bracket, the first of them without a comma
in front. -/
theorem items_itemChars {α : Type} {item : Reader α} {js : List Json} {as : List α}
    (h : TakesItems item js as) {fuel : List Char} (hfuel : js.length < fuel.length)
    (first : Bool) (rest : List Char) :
    items item fuel first ((if first then itemChars js else moreItems js) ++ ']' :: rest)
      = .ok (as, rest) := by
  induction h generalizing fuel first with
  | nil =>
      cases fuel with
      | nil => exact absurd hfuel (Nat.not_lt_zero _)
      | cons f fuel => cases first <;> rfl
  | @cons j a js as hj hjs ih =>
      obtain ⟨hstart, htakes⟩ := hj
      cases fuel with
      | nil => exact absurd hfuel (Nat.not_lt_zero _)
      | cons f fuel =>
          have hnext : nextItem first ((if first then itemChars (j :: js)
                else moreItems (j :: js)) ++ ']' :: rest)
              = .ok (true, chars j ++ (moreItems js ++ ']' :: rest)) := by
            cases first with
            | true =>
                rw [if_pos rfl, itemChars_cons, List.append_assoc]
                exact nextItem_first hstart _
            | false =>
                rw [if_neg (by decide), moreItems, itemChars_cons, List.cons_append,
                  List.append_assoc]
                exact nextItem_comma hstart _
          have hmore : js.length < fuel.length := Nat.lt_of_succ_lt_succ hfuel
          have ih' := ih hmore false
          rw [if_neg (by decide)] at ih'
          rw [items, bind_ok hnext, if_pos rfl,
            bind_ok (htakes _ (delimited_moreItems js rest)), bind_ok ih']
          rfl

theorem length_le_itemChars {α : Type} {item : Reader α} {js : List Json} {as : List α}
    (h : TakesItems item js as) : js.length ≤ (itemChars js).length := by
  induction h with
  | nil => exact Nat.zero_le _
  | @cons j a js as hj hjs ih =>
      have hpos := hj.1.length_pos
      rw [itemChars_cons, List.length_append, List.length_cons]
      cases js with
      | nil => rw [List.length_nil]; omega
      | cons k ks =>
          rw [List.length_cons] at ih
          rw [moreItems, List.length_cons, List.length_cons]
          omega

/-- The items of an array after its bracket, the text being the fuel. -/
theorem items_text {α : Type} {item : Reader α} {js : List Json} {as : List α}
    (h : TakesItems item js as) (rest : List Char) :
    items item (itemChars js ++ ']' :: rest) true (itemChars js ++ ']' :: rest)
      = .ok (as, rest) := by
  have hlen := length_le_itemChars h
  refine items_itemChars h ?_ true rest
  rw [List.length_append, List.length_cons]
  omega

theorem chars_array_append (js : List Json) (rest : List Char) :
    chars (.array js) ++ rest = '[' :: (itemChars js ++ ']' :: rest) := by
  rw [chars, List.cons_append, List.cons_append, List.append_assoc]
  rfl

theorem takes_array {α : Type} {item : Reader α} {js : List Json} {as : List α}
    (h : TakesItems item js as) : Takes (array item) (chars (.array js)) as := by
  intro rest _
  rw [chars_array_append]
  exact items_text h rest

theorem startsValue_array (js : List Json) : StartsValue (chars (.array js)) := by
  rw [chars]
  exact startsValue_cons (by decide) (by decide)

/-! ## Objects -/

/-- The members that follow a member, with the comma in front of them. -/
def moreMembers : List (String × Json) → List Char
  | [] => []
  | m :: rest => ',' :: memberChars (m :: rest)

theorem memberChars_cons (k : String) (j : Json) (ms : List (String × Json)) :
    memberChars ((k, j) :: ms) = quoted k ++ (':' :: (chars j ++ moreMembers ms)) := by
  cases ms with
  | nil => rw [memberChars, moreMembers, List.append_nil]
  | cons m ms =>
      rw [memberChars, moreMembers, List.append_assoc, List.cons_append]
      exact fun h => List.cons_ne_nil m ms h

/-- In front of a member, with a comma unless it is the first. -/
theorem nextMember_quoted (first : Bool) (k : String) (j : Json)
    (ms : List (String × Json)) (rest : List Char) :
    nextMember first ((if first then memberChars ((k, j) :: ms)
        else moreMembers ((k, j) :: ms)) ++ rest)
      = .ok (true, quoted k ++ (':' :: (chars j ++ (moreMembers ms ++ rest)))) := by
  have htext : memberChars ((k, j) :: ms) ++ rest
      = quoted k ++ (':' :: (chars j ++ (moreMembers ms ++ rest))) := by
    rw [memberChars_cons, List.append_assoc, List.cons_append, List.append_assoc]
  cases first with
  | true => rw [if_pos rfl, htext, quoted_append]; rfl
  | false =>
      rw [if_neg (by decide), moreMembers, List.cons_append, htext, quoted_append]
      rfl

theorem colon_cons (rest : List Char) : colon (':' :: rest) = .ok ((), rest) := rfl

theorem objectEnd_cons (rest : List Char) : objectEnd ('}' :: rest) = .ok ((), rest) := rfl

theorem delimited_moreMembers (ms : List (String × Json)) (rest : List Char) :
    Delimited (moreMembers ms ++ '}' :: rest) := by
  cases ms with
  | nil => exact delimited_cons (Or.inr (Or.inr rfl)) rest
  | cons m ms => exact delimited_cons (Or.inl rfl) _

theorem length_le_memberChars (ms : List (String × Json)) :
    ms.length ≤ (memberChars ms).length := by
  induction ms with
  | nil => exact Nat.zero_le _
  | cons m ms ih =>
      obtain ⟨k, j⟩ := m
      rw [memberChars_cons]
      simp only [List.length_append, List.length_cons]
      cases ms with
      | nil => rw [List.length_nil]; omega
      | cons n ns =>
          rw [List.length_cons] at ih
          rw [moreMembers, List.length_cons, List.length_cons]
          omega

/-- A reader takes the value of each of some written members as what stands
beside it under the same name. -/
def TakesMembers {α : Type} (value : String → Reader α) :
    List (String × Json) → List (String × α) → Prop :=
  List.Forall₂ fun m e => e.1 = m.1 ∧ Takes (value m.1) (chars m.2) e.2

/-- The members of an object up to its brace, the first of them without a comma
in front. -/
theorem members_memberChars {α : Type} {value : String → Reader α}
    {ms : List (String × Json)} {es : List (String × α)} (h : TakesMembers value ms es)
    {fuel : List Char} (hfuel : ms.length < fuel.length) (first : Bool)
    (rest : List Char) :
    members value fuel first
        ((if first then memberChars ms else moreMembers ms) ++ '}' :: rest)
      = .ok (es, rest) := by
  induction h generalizing fuel first with
  | nil =>
      cases fuel with
      | nil => exact absurd hfuel (Nat.not_lt_zero _)
      | cons f fuel => cases first <;> rfl
  | @cons m e ms es hm hms ih =>
      obtain ⟨k, j⟩ := m
      obtain ⟨k', a⟩ := e
      obtain ⟨rfl, htakes⟩ := hm
      cases fuel with
      | nil => exact absurd hfuel (Nat.not_lt_zero _)
      | cons f fuel =>
          have hmore : ms.length < fuel.length := Nat.lt_of_succ_lt_succ hfuel
          have ih' := ih hmore false
          rw [if_neg (by decide)] at ih'
          rw [members, bind_ok (nextMember_quoted first _ j ms _), if_pos rfl,
            bind_ok (string_quoted _ _), bind_ok (colon_cons _),
            bind_ok (htakes _ (delimited_moreMembers ms rest)), bind_ok ih']
          rfl

/-- The members of an object after its brace, the text being the fuel. -/
theorem members_text {α : Type} {value : String → Reader α}
    {ms : List (String × Json)} {es : List (String × α)} (h : TakesMembers value ms es)
    (rest : List Char) :
    members value (memberChars ms ++ '}' :: rest) true (memberChars ms ++ '}' :: rest)
      = .ok (es, rest) := by
  have hlen := length_le_memberChars ms
  refine members_memberChars h ?_ true rest
  rw [List.length_append, List.length_cons]
  omega

theorem chars_object_append (ms : List (String × Json)) (rest : List Char) :
    chars (.object ms) ++ rest = '{' :: (memberChars ms ++ '}' :: rest) := by
  rw [chars, List.cons_append, List.cons_append, List.append_assoc]
  rfl

theorem takes_object {α : Type} {value : Reader α} {ms : List (String × Json)}
    {es : List (String × α)} (h : TakesMembers (fun _ => value) ms es) :
    Takes (object value) (chars (.object ms)) es := by
  intro rest _
  rw [chars_object_append]
  exact members_text h rest

theorem startsValue_object (ms : List (String × Json)) :
    StartsValue (chars (.object ms)) := by
  rw [chars]
  exact startsValue_cons (by decide) (by decide)

/-! ## Trees -/

end Reader

/-- A tree without numbers whose arrays and objects nest at most `depth` deep. -/
inductive Nests : (depth : Nat) → Json → Prop
  | null {depth : Nat} : Nests depth .null
  | bool {depth : Nat} (b : Bool) : Nests depth (.bool b)
  | string {depth : Nat} (s : String) : Nests depth (.string s)
  | array {depth : Nat} {items : List Json} (h : ∀ j ∈ items, Nests depth j) :
      Nests (depth + 1) (.array items)
  | object {depth : Nat} {members : List (String × Json)}
      (h : ∀ m ∈ members, Nests depth m.2) : Nests (depth + 1) (.object members)

theorem Nests.startsValue {depth : Nat} {j : Json} (h : Nests depth j) :
    StartsValue (chars j) := by
  cases h with
  | null => exact startsValue_cons (by decide) (by decide)
  | bool b => cases b <;> exact startsValue_cons (by decide) (by decide)
  | string s => exact Reader.startsValue_string s
  | array _ => exact Reader.startsValue_array _
  | object _ => exact Reader.startsValue_object _

namespace Reader

theorem treeOf_quote (inner : Option (Reader Json)) (cs : List Char) :
    treeOf inner ('"' :: cs) = (do let s ← stringRest; pure (.string s) : Reader Json) cs := rfl

theorem treeOf_bracket (item : Reader Json) (cs : List Char) :
    treeOf (some item) ('[' :: cs)
      = (do let js ← items item cs true; pure (.array js) : Reader Json) cs := rfl

theorem treeOf_brace (value : Reader Json) (cs : List Char) :
    treeOf (some value) ('{' :: cs)
      = (do let ms ← members (fun _ => value) cs true; pure (.object ms) : Reader Json) cs := rfl

theorem treeOf_string (inner : Option (Reader Json)) (s : String) (rest : List Char) :
    treeOf inner (chars (.string s) ++ rest) = .ok (.string s, rest) := by
  rw [chars, quoted_append, treeOf_quote, bind_ok (stringRest_quoted s rest)]
  rfl

/-- The tree reader takes back a tree that does not nest too deep. -/
theorem takes_tree {depth : Nat} {j : Json} (h : Nests depth j) :
    Takes (tree depth) (chars j) j := by
  induction depth generalizing j with
  | zero =>
      intro rest _
      cases h with
      | null => rfl
      | bool b => cases b <;> rfl
      | string s => exact treeOf_string none s rest
  | succ depth ih =>
      intro rest _
      rw [tree]
      cases h with
      | null => rfl
      | bool b => cases b <;> rfl
      | string s => exact treeOf_string (some (tree depth)) s rest
      | @array _ js h =>
          have hitems : TakesItems (tree depth) js js :=
            List.forall₂_same.2 fun j hj => ⟨(h j hj).startsValue, ih (h j hj)⟩
          rw [chars_array_append, treeOf_bracket, bind_ok (items_text hitems rest)]
          rfl
      | @object _ ms h =>
          have hmembers : TakesMembers (fun _ => tree depth) ms ms :=
            List.forall₂_same.2 fun m hm => ⟨rfl, ih (h m hm)⟩
          rw [chars_object_append, treeOf_brace, bind_ok (members_text hmembers rest)]
          rfl

end Reader

/-- A text that was written from a tree is read as that tree. -/
theorem parse_compact {j : Json} (h : Nests maxDepth j) : parse j.compact = .ok j := by
  rw [parse, compact, String.toList_ofList]
  exact Reader.run_of_takes (Reader.takes_tree h)

end ChatArchive.Json
