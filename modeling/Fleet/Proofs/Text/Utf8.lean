/-
  Fleet.Proofs.Text.Utf8 — the bytes of a text are read back as that text, and as nothing
  else (`ofBytes?_toBytes`, `ofBytes_toBytes`). So what the system takes for a text is told by
  its bytes alone (`OsText.ofBytes_bytes`).

  A character is a first byte, which says how many follow, and six bits in each of those.
  So the decoder is followed byte by byte, with the bits that are known so far: over the first
  (`lead_one` to `lead_four`), over those behind it (`decodeFrom_next`) and over the last
  (`decodeFrom_last`).
-/

import Fleet.Text.OsText
import Mathlib.Tactic.IntervalCases

namespace Fleet.Text

/-! ## Bytes -/

theorem toList_loop (bytes : ByteArray) (i : Nat) (done : Bytes) :
    ByteArray.toList.loop bytes i done = done.reverse ++ bytes.data.toList.drop i := by
  fun_induction ByteArray.toList.loop bytes i done with
  | case1 i done h ih =>
    have hi : i < bytes.data.toList.length := h
    rw [ih, List.drop_eq_getElem_cons hi]
    simp [ByteArray.get!, h]
  | case2 i done h =>
    have hi : bytes.data.toList.length ≤ i := Nat.le_of_not_lt h
    rw [List.drop_eq_nil_of_le hi, List.append_nil]

theorem toBytes_eq (text : String) : toBytes text = text.toList.flatMap String.utf8EncodeChar := by
  rw [toBytes, ByteArray.toList, toList_loop, List.reverse_nil, List.nil_append, List.drop_zero]
  conv_lhs => rw [← String.ofList_toList (s := text)]
  exact List.toList_data_toByteArray

theorem toBytes_append (first second : String) : toBytes (first ++ second) = toBytes first ++ toBytes second := by
  simp only [toBytes_eq, String.toList_append, List.flatMap_append]

theorem toBytes_join (texts : List String) : toBytes (String.join texts) = texts.flatMap toBytes := by
  induction texts with
  | nil => simp [toBytes_eq]
  | cons text rest ih => rw [String.join_cons, toBytes_append, ih, List.flatMap_cons]

/-! ## One character -/

theorem lead_one {n : Nat} (h : n < 128) : lead (UInt8.ofNat n) = .whole (Char.ofNat n) := by
  have byte : (UInt8.ofNat n).toNat = n := UInt8.toNat_ofNat_of_lt' (Nat.lt_trans h (by decide))
  have low : UInt8.ofNat n < 0x80 := by rwa [UInt8.lt_iff_toNat_lt, byte]
  rw [lead, if_pos low, byte]

theorem lead_two {k : Nat} (low : 2 ≤ k) (high : k < 32) :
    lead (UInt8.ofNat (k + 192)) = .begun ⟨[UInt8.ofNat (k + 192)], k, 1, 0x80, 0xBF⟩ := by
  interval_cases k <;> rfl

theorem lead_three {k : Nat} (high : k < 16) : lead (UInt8.ofNat (k + 224)) =
    .begun ⟨[UInt8.ofNat (k + 224)], k, 2, if k = 0 then 0xA0 else 0x80, if k = 13 then 0x9F else 0xBF⟩ := by
  interval_cases k <;> rfl

theorem lead_four {k : Nat} (high : k < 5) : lead (UInt8.ofNat (k + 240)) =
    .begun ⟨[UInt8.ofNat (k + 240)], k, 3, if k = 0 then 0x90 else 0x80, if k = 4 then 0x8F else 0xBF⟩ := by
  interval_cases k <;> rfl

section Bytes

variable {b : UInt8} {c : Char} {s : Begun} (rest : Bytes)

theorem decodeFrom_whole (h : lead b = .whole c) : decodeFrom none (b :: rest) = .char c :: decodeFrom none rest := by
  simp only [decodeFrom, h]

theorem decodeFrom_begun (h : lead b = .begun s) : decodeFrom none (b :: rest) = decodeFrom (some s) rest := by
  simp only [decodeFrom, h]

variable {done : Bytes} {bits n : Nat} {low high : UInt8}

theorem toNat_tail (below : n + 128 ≤ high.toNat) : (UInt8.ofNat (n + 128)).toNat = n + 128 :=
  UInt8.toNat_ofNat_of_lt' (Nat.lt_of_le_of_lt below high.toNat_lt)

theorem tail_within (above : low.toNat ≤ n + 128) (below : n + 128 ≤ high.toNat) :
    low ≤ UInt8.ofNat (n + 128) ∧ UInt8.ofNat (n + 128) ≤ high := by
  rw [UInt8.le_iff_toNat_le, UInt8.le_iff_toNat_le, toNat_tail below]
  exact ⟨above, below⟩

theorem decodeFrom_last (above : low.toNat ≤ n + 128) (below : n + 128 ≤ high.toNat) :
    decodeFrom (some ⟨done, bits, 1, low, high⟩) (UInt8.ofNat (n + 128) :: rest) =
      .char (Char.ofNat (bits * 64 + n)) :: decodeFrom none rest := by
  simp only [decodeFrom, if_pos (tail_within above below), toNat_tail below, Nat.add_sub_cancel, Nat.le_refl, if_true]

theorem decodeFrom_next (above : low.toNat ≤ n + 128) (below : n + 128 ≤ high.toNat) (k : Nat) :
    decodeFrom (some ⟨done, bits, k + 2, low, high⟩) (UInt8.ofNat (n + 128) :: rest) =
      decodeFrom (some ⟨done ++ [UInt8.ofNat (n + 128)], bits * 64 + n, k + 1, 0x80, 0xBF⟩) rest := by
  have more : ¬ k + 2 ≤ 1 := by omega
  simp only [decodeFrom, if_pos (tail_within above below), toNat_tail below, Nat.add_sub_cancel, if_neg more]
  rfl

end Bytes

theorem decodeFrom_char (c : Char) (rest : Bytes) :
    decodeFrom none (String.utf8EncodeChar c ++ rest) = .char c :: decodeFrom none rest := by
  obtain ⟨v, hv⟩ : ∃ v, c.val.toNat = v := ⟨_, rfl⟩
  have valid : v < 55296 ∨ 57343 < v ∧ v < 1114112 := hv ▸ c.valid
  have back {n : Nat} (h : n = v) : Char.ofNat n = c := by
    rw [h, ← hv]
    exact c.ofNat_toNat
  unfold String.utf8EncodeChar
  simp only [hv]
  -- by the number of bytes; the bounds on the second byte are those that `valid` and the length leave
  split_ifs with one two three <;> simp only [List.cons_append, List.nil_append]
  · rw [decodeFrom_whole _ (lead_one (by omega)), back rfl]
  · rw [decodeFrom_begun _ (lead_two (by omega) (by omega)), decodeFrom_last, back] <;> grind
  · have above : (if v / 4096 % 16 = 0 then 0xA0 else 0x80 : UInt8).toNat ≤ v / 64 % 64 + 128 := by
      split_ifs <;> grind
    have below : v / 64 % 64 + 128 ≤ (if v / 4096 % 16 = 13 then 0x9F else 0xBF : UInt8).toNat := by
      split_ifs <;> grind
    rw [decodeFrom_begun _ (lead_three (by omega)), decodeFrom_next _ above below 0, decodeFrom_last, back] <;> grind
  · have above : (if v / 262144 % 8 = 0 then 0x90 else 0x80 : UInt8).toNat ≤ v / 4096 % 64 + 128 := by
      split_ifs <;> grind
    have below : v / 4096 % 64 + 128 ≤ (if v / 262144 % 8 = 4 then 0x8F else 0xBF : UInt8).toNat := by
      split_ifs <;> grind
    rw [decodeFrom_begun _ (lead_four (by omega)), decodeFrom_next _ above below 1, decodeFrom_next _ _ _ 0,
      decodeFrom_last, back] <;> grind

/-! ## Texts -/

theorem decode_toBytes (text : String) : decode (toBytes text) = text.toList.map .char := by
  rw [toBytes_eq, decode]
  induction text.toList with
  | nil => rfl
  | cons c rest ih => rw [List.flatMap_cons, decodeFrom_char, ih, List.map_cons]

theorem ofBytes?_toBytes (text : String) : ofBytes? (toBytes text) = some text := by
  have chars (cs : List Char) : (cs.map Letter.char).mapM Letter.char? = some cs := by
    induction cs with
    | nil => rfl
    | cons c rest ih => simp [ih, Letter.char?]
  rw [ofBytes?, decode_toBytes, chars, Option.map_some, String.ofList_toList]

@[simp]
theorem ofBytes_toBytes (text : String) : ofBytes (toBytes text) = text := by
  have chars : (text.toList.map Letter.char).map Letter.shown = text.toList := by
    rw [List.map_map]
    exact List.map_id _
  rw [ofBytes, decode_toBytes, chars, String.ofList_toList]

end Fleet.Text

namespace Fleet.OsText

open Text

theorem ofBytes_bytes (o : OsText) : ofBytes o.bytes = o := by
  unfold ofBytes
  split
  · next t read =>
    cases o with
    | text s => exact congrArg OsText.text (Option.some.inj (read.symm.trans (ofBytes?_toBytes s)))
    | raw _ unreadable => cases read.symm.trans unreadable
  · next unread =>
    cases o with
    | text s => cases unread.symm.trans (ofBytes?_toBytes s)
    | raw => rfl

theorem bytes_inj {a b : OsText} (h : a.bytes = b.bytes) : a = b := by
  rw [← ofBytes_bytes a, h, ofBytes_bytes]

end Fleet.OsText
