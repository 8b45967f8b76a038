import Galley.Text.Utf8
import Mathlib.Data.List.Basic

/-!
# UTF-8 that is read back

The UTF-8 encoding of a text is read back to the text (`utf8_utf8Encode`). One character takes one
to four bytes (`utf8EncodeChar_cases`), of which the decoder makes the character again
(`Utf8.step_utf8EncodeChar`), whatever follows them.
-/

namespace Galley.Text

/-! ### Bytes of an encoding -/

/-- Going through an array gives the bytes that are not gone through yet. -/
private theorem toList_loop_append {bs : ByteArray} {front rest : List UInt8}
    (h : bs.data.toList = front ++ rest) (acc : List UInt8) :
    ByteArray.toList.loop bs front.length acc = acc.reverse ++ rest := by
  have hsize : bs.size = front.length + rest.length := by
    rw [ByteArray.size, ← Array.length_toList, h, List.length_append]
  induction rest generalizing front acc with
  | nil =>
    have hstop : ¬ front.length < bs.size := by
      rw [hsize]
      exact Nat.lt_irrefl _
    rw [ByteArray.toList.loop, if_neg hstop, List.append_nil]
  | cons b rest ih =>
    have hmore : front.length < bs.size := by
      rw [hsize]
      exact Nat.lt_add_of_pos_right (Nat.succ_pos _)
    have hget : bs.get! front.length = b := by
      have hdata : bs.data[front.length]? = some b := by simp [← Array.getElem?_toList, h]
      simp [ByteArray.get!, getElem!_def, hdata]
    have hdata : bs.data.toList = front ++ [b] ++ rest := by rw [h, List.append_assoc]; rfl
    have hnext := ih hdata (b :: acc) (by simp [hsize]; omega)
    rw [List.length_append, List.length_singleton] at hnext
    rw [ByteArray.toList.loop, if_pos hmore, hget, hnext]
    simp

/-- A text is encoded character by character. -/
theorem utf8Encode_eq (s : String) :
    utf8Encode s = s.toList.flatMap String.utf8EncodeChar := by
  have hbytes : s.toUTF8 = (s.toList.flatMap String.utf8EncodeChar).toByteArray := by
    rw [String.toUTF8_eq_toByteArray, ← @String.ofList_toList s, String.toByteArray_ofList,
      String.toList_ofList]
    rfl
  have hdata : (s.toList.flatMap String.utf8EncodeChar).toByteArray.data.toList =
      [] ++ s.toList.flatMap String.utf8EncodeChar := List.toList_data_toByteArray
  rw [utf8Encode, hbytes, ByteArray.toList]
  exact toList_loop_append hdata []

/-- The bytes that stand for a character: a single one below 128, or else a lead byte and up to
three continuation bytes, each with six bits of the code point. -/
theorem utf8EncodeChar_cases (c : Char) :
    (c.toNat < 0x80 ∧ ∃ a, String.utf8EncodeChar c = [a] ∧ a.toNat = c.toNat) ∨
    (0x80 ≤ c.toNat ∧ c.toNat < 0x800 ∧ ∃ a b, String.utf8EncodeChar c = [a, b] ∧
      a.toNat = c.toNat / 64 + 0xC0 ∧ b.toNat = c.toNat % 64 + 0x80) ∨
    (0x800 ≤ c.toNat ∧ c.toNat < 0x10000 ∧ ∃ a b d, String.utf8EncodeChar c = [a, b, d] ∧
      a.toNat = c.toNat / 4096 + 0xE0 ∧ b.toNat = c.toNat / 64 % 64 + 0x80 ∧
      d.toNat = c.toNat % 64 + 0x80) ∨
    (0x10000 ≤ c.toNat ∧ ∃ a b d e, String.utf8EncodeChar c = [a, b, d, e] ∧
      a.toNat = c.toNat / 262144 + 0xF0 ∧ b.toNat = c.toNat / 4096 % 64 + 0x80 ∧
      d.toNat = c.toNat / 64 % 64 + 0x80 ∧ e.toNat = c.toNat % 64 + 0x80) := by
  have hlt : c.toNat < 0x110000 := by
    have hv := c.valid
    simp only [UInt32.isValidChar, Nat.isValidChar] at hv
    exact hv.elim (fun h => Nat.lt_trans h (by decide)) And.right
  have hbyte : ∀ n : Nat, n < 256 → (UInt8.ofNat n).toNat = n := fun n hn =>
    UInt8.toNat_ofNat_of_lt' hn
  have hval : c.val.toNat = c.toNat := rfl
  simp only [String.utf8EncodeChar, hval]
  by_cases h1 : c.toNat ≤ 127
  · exact .inl ⟨by omega, _, if_pos h1, hbyte _ (by omega)⟩
  rw [if_neg h1]
  by_cases h2 : c.toNat ≤ 2047
  · refine .inr (.inl ⟨by omega, by omega, _, _, if_pos h2, ?_, hbyte _ (by omega)⟩)
    rw [hbyte _ (by omega)]
    omega
  rw [if_neg h2]
  by_cases h3 : c.toNat ≤ 65535
  · refine .inr (.inr (.inl ⟨by omega, by omega, _, _, _, if_pos h3, ?_, hbyte _ (by omega),
      hbyte _ (by omega)⟩))
    rw [hbyte _ (by omega)]
    omega
  · refine .inr (.inr (.inr ⟨by omega, _, _, _, _, if_neg h3, ?_, hbyte _ (by omega),
      hbyte _ (by omega), hbyte _ (by omega)⟩))
    rw [hbyte _ (by omega)]
    omega

namespace Utf8

/-! ### Decoding -/

private theorem isContinuation_of {b : UInt8} {n : Nat} (h : b.toNat = n % 64 + 0x80) :
    isContinuation b = true := by
  simp only [isContinuation, Bool.and_eq_true, decide_eq_true_eq, UInt8.le_iff_toNat_le,
    UInt8.lt_iff_toNat_lt, UInt8.reduceToNat, h]
  omega

/-- A continuation byte completes the code point of which it has the last six bits. -/
private theorem extend_eq {b : UInt8} {point n : Nat} (hp : point = n / 64)
    (h : b.toNat = n % 64 + 0x80) : extend point b = n := by
  unfold extend
  omega

private theorem mayFollow_iff {lead b : UInt8} : mayFollow lead b = true ↔
    isContinuation b = true ∧ (lead.toNat = 0xE0 → 0xA0 ≤ b.toNat) ∧
      (lead.toNat = 0xED → b.toNat < 0xA0) ∧ (lead.toNat = 0xF0 → 0x90 ≤ b.toNat) ∧
      (lead.toNat = 0xF4 → b.toNat < 0x90) := by
  simp [mayFollow, UInt8.lt_iff_toNat_lt, UInt8.le_iff_toNat_le, ← UInt8.toNat_inj, and_assoc,
    imp_iff_not_or]

/-- A lead byte tells by its size how many bytes follow it, and the rest of it are bits of the code
point. -/
private theorem lead_eq (lead : UInt8) :
    (lead.toNat < 0x80 → continuationCount? lead = some 0 ∧ leadBits lead = lead.toNat) ∧
    (0xC2 ≤ lead.toNat → lead.toNat < 0xE0 →
      continuationCount? lead = some 1 ∧ leadBits lead = lead.toNat - 0xC0) ∧
    (0xE0 ≤ lead.toNat → lead.toNat < 0xF0 →
      continuationCount? lead = some 2 ∧ leadBits lead = lead.toNat - 0xE0) ∧
    (0xF0 ≤ lead.toNat → lead.toNat < 0xF5 →
      continuationCount? lead = some 3 ∧ leadBits lead = lead.toNat - 0xF0) := by
  have hlt : ∀ k : UInt8, (lead < k) = (lead.toNat < k.toNat) := fun k =>
    propext UInt8.lt_iff_toNat_lt
  simp only [continuationCount?, leadBits, hlt, UInt8.reduceToNat]
  refine ⟨fun h => ?_, fun hl hu => ?_, fun hl hu => ?_, fun hl hu => ?_⟩
  · rw [if_pos h, if_pos h]
    exact ⟨rfl, rfl⟩
  · rw [if_neg (by omega), if_neg (by omega), if_pos hu, if_neg (by omega), if_pos hu]
    exact ⟨rfl, rfl⟩
  · rw [if_neg (by omega), if_neg (by omega), if_neg (by omega), if_pos hu, if_neg (by omega),
      if_neg (by omega), if_pos hu]
    exact ⟨rfl, rfl⟩
  · rw [if_neg (by omega), if_neg (by omega), if_neg (by omega), if_neg (by omega), if_pos hu,
      if_neg (by omega), if_neg (by omega), if_neg (by omega)]
    exact ⟨rfl, rfl⟩

/-- The decoder makes the character of its bytes, whatever follows them. -/
theorem step_utf8EncodeChar {c : Char} {lead : UInt8} {bytes : List UInt8}
    (h : String.utf8EncodeChar c = lead :: bytes) (more : List UInt8) :
    step lead (bytes ++ more) = .char c := by
  have hcases := utf8EncodeChar_cases c
  have hvalid : c.toNat < 0xD800 ∨ 0xDFFF < c.toNat ∧ c.toNat < 0x110000 := c.valid
  obtain ⟨hone, htwo, hthree, hfour⟩ := lead_eq lead
  rw [h] at hcases
  obtain ⟨hc, a, hb, ha⟩ | ⟨hl, hu, a, b, hb, ha, hb1⟩ | ⟨hl, hu, a, b, d, hb, ha, hb1, hb2⟩ |
    ⟨hl, a, b, d, e, hb, ha, hb1, hb2, hb3⟩ := hcases <;> cases hb
  · obtain ⟨hcount, hbits⟩ := hone (by omega)
    rw [step, hcount]
    simp only [continueWith, hbits, ha, Char.ofNat_toNat]
  · obtain ⟨hcount, hbits⟩ := htwo (by omega) (by omega)
    have hpoint : leadBits lead = c.toNat / 64 := by omega
    have hfollow : mayFollow lead b = true := mayFollow_iff.mpr
      ⟨isContinuation_of hb1, by omega, by omega, by omega, by omega⟩
    rw [step, hcount]
    simp only [List.cons_append, continueWith, hfollow, if_true, extend_eq hpoint hb1,
      Char.ofNat_toNat]
  · obtain ⟨hcount, hbits⟩ := hthree (by omega) (by omega)
    have hpoint : leadBits lead = c.toNat / 64 / 64 := by omega
    have hfollow : mayFollow lead b = true := mayFollow_iff.mpr
      ⟨isContinuation_of hb1, by omega, by omega, by omega, by omega⟩
    rw [step, hcount]
    simp only [List.cons_append, continueWith, hfollow, if_true, isContinuation_of hb2,
      extend_eq hpoint hb1, extend_eq rfl hb2, Char.ofNat_toNat]
  · obtain ⟨hcount, hbits⟩ := hfour (by omega) (by omega)
    have hpoint : leadBits lead = c.toNat / 4096 / 64 := by omega
    have hnext : c.toNat / 4096 = c.toNat / 64 / 64 := by omega
    have hfollow : mayFollow lead b = true := mayFollow_iff.mpr
      ⟨isContinuation_of hb1, by omega, by omega, by omega, by omega⟩
    rw [step, hcount]
    simp only [List.cons_append, continueWith, hfollow, if_true, isContinuation_of hb2,
      isContinuation_of hb3, extend_eq hpoint hb1, extend_eq hnext hb2, extend_eq rfl hb3,
      Char.ofNat_toNat]

private theorem decodeFrom_length_append (start : Nat) (bs more : List UInt8) :
    decodeFrom start bs.length (bs ++ more) = decodeFrom (start + bs.length) 0 more := by
  induction bs generalizing start with
  | nil => rfl
  | cons b bs ih =>
    rw [List.length_cons, List.cons_append, decodeFrom, ih]
    congr 1
    omega

/-- Encoded characters are decoded one by one. -/
private theorem decodeFrom_utf8EncodeChar_append (start : Nat) (c : Char) (more : List UInt8) :
    ∃ next, decodeFrom start 0 (String.utf8EncodeChar c ++ more) =
      (decodeFrom next 0 more).map (c :: ·) := by
  obtain ⟨lead, bytes, hb⟩ :=
    List.exists_cons_of_ne_nil (l := String.utf8EncodeChar c) (by simp)
  have hsize : c.utf8Size - 1 = bytes.length := by
    have hlen := String.length_utf8EncodeChar c
    rw [hb, List.length_cons] at hlen
    omega
  refine ⟨start + 1 + bytes.length, ?_⟩
  rw [hb, List.cons_append, decodeFrom, step_utf8EncodeChar hb]
  simp only [hsize, decodeFrom_length_append]

end Utf8

/-- **The encoding of a text is read back to the text.** -/
theorem utf8_utf8Encode (s : String) : utf8 (utf8Encode s) = .ok s.toList := by
  have hdecode : ∀ (cs : List Char) (start : Nat),
      Utf8.decodeFrom start 0 (cs.flatMap String.utf8EncodeChar) = .ok cs := by
    intro cs
    induction cs with
    | nil => exact fun _ => rfl
    | cons c cs ih =>
      intro start
      obtain ⟨next, hnext⟩ := Utf8.decodeFrom_utf8EncodeChar_append start c
        (cs.flatMap String.utf8EncodeChar)
      rw [List.flatMap_cons, hnext, ih]
      rfl
  rw [utf8, utf8Encode_eq, hdecode]

end Galley.Text
