import ChatArchive.Text.Utf8
import Mathlib.Algebra.Group.Nat.Defs
import Mathlib.Data.String.Basic

/-!
# Texts compare as their bytes do

A database compares texts byte by byte, and texts of characters compare character by
character. The two orders are one, because UTF-8 keeps the order of characters: where the
encodings of two characters first differ, the byte of the smaller one is the smaller. Nor
is one encoding ever the beginning of another, so a difference between two characters
decides, whatever follows it.

An encoding is a lead byte, which grows with the number of bytes that follow it, and the
rest of the character's number in bytes of six bits each.
-/

namespace ChatArchive.Text

/-- Two lists of bytes differ at a place that both of them reach, and the first has the
smaller byte there. -/
inductive DiffersBelow : List UInt8 → List UInt8 → Prop
  | head {a b : UInt8} (h : a < b) (as bs : List UInt8) : DiffersBelow (a :: as) (b :: bs)
  | tail {as bs : List UInt8} (a : UInt8) (h : DiffersBelow as bs) :
      DiffersBelow (a :: as) (a :: bs)

theorem DiffersBelow.append_lt {as bs : List UInt8} (h : DiffersBelow as bs)
    (cs ds : List UInt8) : as ++ cs < bs ++ ds := by
  induction h with
  | head h as bs => exact List.cons_lt_cons_iff.2 (Or.inl h)
  | tail a h ih => exact List.cons_lt_cons_iff.2 (Or.inr ⟨rfl, ih⟩)

theorem differsBelow_cons {n m : Nat} {as bs : List UInt8} (hm : m < 256)
    (h : n < m ∨ n = m ∧ DiffersBelow as bs) :
    DiffersBelow (UInt8.ofNat n :: as) (UInt8.ofNat m :: bs) := by
  rcases h with h | ⟨rfl, h⟩
  · refine .head ?_ as bs
    rw [UInt8.lt_iff_toNat_lt, UInt8.toNat_ofNat_of_lt' (Nat.lt_trans h hm),
      UInt8.toNat_ofNat_of_lt' hm]
    exact h
  · exact .tail _ h

/-- The last six-bit groups of a number, each in a byte of its own. -/
def continuation : (count : Nat) → (n : Nat) → List UInt8
  | 0, _ => []
  | count + 1, n => UInt8.ofNat (n / 64 ^ count % 64 + 128) :: continuation count n

theorem continuation_differs {count n m : Nat} (h : n < m)
    (hsame : n / 64 ^ count = m / 64 ^ count) :
    DiffersBelow (continuation count n) (continuation count m) := by
  induction count with
  | zero =>
      rw [Nat.pow_zero, Nat.div_one, Nat.div_one] at hsame
      omega
  | succ count ih =>
      rw [Nat.pow_succ, ← Nat.div_div_eq_div_mul, ← Nat.div_div_eq_div_mul] at hsame
      have hle : n / 64 ^ count ≤ m / 64 ^ count := Nat.div_le_div_right (Nat.le_of_lt h)
      refine differsBelow_cons (by omega) ?_
      by_cases hgroup : n / 64 ^ count = m / 64 ^ count
      · exact Or.inr ⟨by rw [hgroup], ih hgroup⟩
      · exact Or.inl (by omega)

/-- How many bytes follow the lead byte of a character. -/
def following (n : Nat) : Nat :=
  if n ≤ 127 then 0 else if n ≤ 2047 then 1 else if n ≤ 65535 then 2 else 3

/-- The lead byte of a character. -/
def lead (n : Nat) : Nat :=
  if n ≤ 127 then n
  else if n ≤ 2047 then n / 64 + 192
  else if n ≤ 65535 then n / 4096 + 224
  else n / 262144 + 240

theorem toNat_lt (c : Char) : c.toNat < 1114112 := by
  rcases c.valid with hc | ⟨-, hc⟩
  · exact Nat.lt_trans hc (by decide)
  · exact hc

theorem utf8EncodeChar_eq (c : Char) :
    String.utf8EncodeChar c
      = UInt8.ofNat (lead c.toNat) :: continuation (following c.toNat) c.toNat := by
  have hc : c.val.toNat < 1114112 := toNat_lt c
  show String.utf8EncodeChar c
    = UInt8.ofNat (lead c.val.toNat) :: continuation (following c.val.toNat) c.val.toNat
  rw [String.utf8EncodeChar, lead, following]
  split
  · rfl
  · split
    · next h =>
        rw [Nat.mod_eq_of_lt (show c.val.toNat / 64 < 32 by omega)]
        simp only [continuation, Nat.pow_zero, Nat.div_one]
    · split
      · next h =>
          rw [Nat.mod_eq_of_lt (show c.val.toNat / 4096 < 16 by omega)]
          simp only [continuation, Nat.pow_zero, Nat.pow_one, Nat.div_one]
      · rw [Nat.mod_eq_of_lt (show c.val.toNat / 262144 < 8 by omega)]
        simp only [continuation, Nat.pow_zero, Nat.pow_one, Nat.div_one, Nat.reducePow]

/-- The lead byte of a greater character is greater, or it is the same and the difference
lies in the bytes that follow. -/
theorem lead_lt {n m : Nat} (h : n < m) (hm : m < 1114112) :
    lead m < 256 ∧ (lead n < lead m ∨ lead n = lead m ∧ following n = following m ∧
      n / 64 ^ following m = m / 64 ^ following m) := by
  unfold lead following
  split_ifs <;> simp only [Nat.reducePow, true_and] <;> omega

/-- The encodings of two characters differ as the characters do. -/
theorem utf8EncodeChar_differs {c d : Char} (h : c < d) :
    DiffersBelow (String.utf8EncodeChar c) (String.utf8EncodeChar d) := by
  have hnumbers : c.toNat < d.toNat := h
  obtain ⟨hbyte, hlead⟩ := lead_lt hnumbers (toNat_lt d)
  rw [utf8EncodeChar_eq, utf8EncodeChar_eq]
  refine differsBelow_cons hbyte ?_
  rcases hlead with hlead | ⟨hlead, hfollowing, hsame⟩
  · exact Or.inl hlead
  · refine Or.inr ⟨hlead, ?_⟩
    rw [hfollowing]
    exact continuation_differs hnumbers hsame

/-- What comes first by characters comes first by bytes. -/
theorem flatMap_utf8EncodeChar_lt {cs ds : List Char} (h : cs < ds) :
    cs.flatMap String.utf8EncodeChar < ds.flatMap String.utf8EncodeChar := by
  induction cs generalizing ds with
  | nil =>
      cases ds with
      | nil => exact absurd h (List.not_lt_nil [])
      | cons d ds =>
          rw [List.flatMap_cons, utf8EncodeChar_eq, List.flatMap_nil, List.cons_append]
          exact List.nil_lt_cons _ _
  | cons c cs ih =>
      cases ds with
      | nil => exact absurd h (List.not_lt_nil _)
      | cons d ds =>
          rw [List.flatMap_cons, List.flatMap_cons]
          rcases List.cons_lt_cons_iff.1 h with hhead | ⟨rfl, htail⟩
          · exact (utf8EncodeChar_differs hhead).append_lt _ _
          · exact List.append_left_lt (ih htail)

theorem utf8_eq_flatMap (s : String) : utf8 s = s.toList.flatMap String.utf8EncodeChar := by
  rw [utf8, String.toUTF8_eq_toByteArray, ← s.utf8Encode_toList, List.utf8Encode,
    List.data_toByteArray]

/-- Texts compare as their bytes do. -/
theorem utf8_lt_iff {s t : String} : utf8 s < utf8 t ↔ s < t := by
  have hlt : ∀ {s t : String}, s < t → utf8 s < utf8 t := by
    intro s t h
    rw [utf8_eq_flatMap, utf8_eq_flatMap]
    exact flatMap_utf8EncodeChar_lt (String.lt_iff_toList_lt.1 h)
  refine ⟨fun h => ?_, hlt⟩
  rcases lt_trichotomy s t with hst | rfl | hts
  · exact hst
  · exact absurd h (List.lt_irrefl _)
  · exact absurd (hlt hts) (List.lt_asymm h)

end ChatArchive.Text
