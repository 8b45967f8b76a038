import Galley.Proofs.Text.Utf8
import Galley.Text.Blank
import Galley.Text.Latin1
import Mathlib.Data.List.Induction

/-!
# UTF-8 that is read as Latin-1

A text whose UTF-8 encoding is read as Latin-1 comes out as `misread`. Below 128 both encodings
are the same, so the text comes out as it is (`misread_eq_self`). Beyond, every character comes
out as two to four others, all from 128 to 255. One of these, the next-line control, ends a line.

So a text that is not ASCII comes out as a longer one, and it cannot be found behind a next-line
control in it either (`ascii_of_misread_eq_append`): in front of its last character beyond ASCII
there would be an `Â`, and in front of this a U+0082, which is in no name.
-/

namespace Galley.Text

/-! ### Characters that come out as others -/

/-- What a character becomes. -/
def misreadChar (c : Char) : List Char := latin1 (String.utf8EncodeChar c)

/-- What a text becomes. -/
def misread (s : List Char) : List Char := s.flatMap misreadChar

/-- The control that ends a line. -/
def nextLine : Char := '\u0085'

/-- Reading the encoding of a text as Latin-1 misreads the text. -/
theorem latin1_utf8Encode (s : String) : latin1 (utf8Encode s) = misread s.toList := by
  rw [utf8Encode_eq, latin1, List.map_flatMap]
  rfl

theorem misread_append (s t : List Char) : misread (s ++ t) = misread s ++ misread t :=
  List.flatMap_append

private theorem misread_concat (s : List Char) (c : Char) :
    misread (s ++ [c]) = misread s ++ misreadChar c := by
  rw [misread_append, misread, misread, List.flatMap_singleton]

private theorem misreadChar_eq_singleton {c : Char} (h : c.toNat < 128) : misreadChar c = [c] := by
  obtain ⟨-, a, hb, ha⟩ | ⟨hl, -⟩ | ⟨hl, -⟩ | ⟨hl, -⟩ := utf8EncodeChar_cases c
  · rw [misreadChar, hb, latin1, List.map_singleton, ha, Char.ofNat_toNat]
  all_goals omega

/-- An ASCII text comes out as it is. -/
theorem misread_eq_self {s : List Char} (h : ∀ c ∈ s, c.toNat < 128) : misread s = s := by
  induction s with
  | nil => rfl
  | cons c s ih =>
    rw [List.forall_mem_cons] at h
    rw [misread, List.flatMap_cons, misreadChar_eq_singleton h.1, ← misread, ih h.2,
      List.singleton_append]

theorem toNat_ofNat_byte (b : UInt8) : (Char.ofNat b.toNat).toNat = b.toNat := by
  have hb := b.toNat_lt
  have hv : b.toNat.isValidChar := .inl (by omega)
  rw [Char.ofNat, dif_pos hv]
  rfl

/-- Beyond ASCII all bytes are. -/
private theorem le_toNat_of_mem_utf8EncodeChar {c : Char} (h : 128 ≤ c.toNat) {b : UInt8}
    (hb : b ∈ String.utf8EncodeChar c) : 128 ≤ b.toNat := by
  obtain ⟨hc, -⟩ | ⟨-, -, a1, a2, he, h1, h2⟩ | ⟨-, -, a1, a2, a3, he, h1, h2, h3⟩ |
    ⟨-, a1, a2, a3, a4, he, h1, h2, h3, h4⟩ := utf8EncodeChar_cases c
  · omega
  all_goals
    rw [he] at hb
    simp only [List.mem_cons, List.not_mem_nil, or_false] at hb
  · obtain rfl | rfl := hb <;> omega
  · obtain rfl | rfl | rfl := hb <;> omega
  · obtain rfl | rfl | rfl | rfl := hb <;> omega

/-- What comes of a character beyond ASCII is beyond ASCII too. -/
private theorem range_of_mem_misreadChar {c d : Char} (h : 128 ≤ c.toNat) (hd : d ∈ misreadChar c) :
    128 ≤ d.toNat ∧ d.toNat < 256 := by
  obtain ⟨b, hb, rfl⟩ := List.mem_map.mp hd
  rw [toNat_ofNat_byte]
  exact ⟨le_toNat_of_mem_utf8EncodeChar h hb, b.toNat_lt⟩

/-- A character beyond ASCII becomes at least two, and the last of these is the character itself
only behind an `Â`. -/
private theorem misreadChar_eq_concat {c : Char} (h : 128 ≤ c.toNat) :
    ∃ front last, misreadChar c = front ++ [last] ∧ front ≠ [] ∧ (last = c → front = ['Â']) := by
  have hpoint : ∀ {b : UInt8}, Char.ofNat b.toNat = c → b.toNat = c.toNat := fun {b} hc => by
    rw [← hc, toNat_ofNat_byte]
  obtain ⟨hc, -⟩ | ⟨-, hu, a1, a2, he, h1, h2⟩ | ⟨hl, -, a1, a2, a3, he, h1, h2, h3⟩ |
    ⟨hl, a1, a2, a3, a4, he, h1, h2, h3, h4⟩ := utf8EncodeChar_cases c
  · omega
  · refine ⟨[Char.ofNat a1.toNat], _, by rw [misreadChar, he]; rfl, List.cons_ne_nil _ _,
      fun hlast => ?_⟩
    have hpt := hpoint hlast
    have hlead : a1.toNat = 0xC2 := by omega
    rw [hlead]
  · refine ⟨[Char.ofNat a1.toNat, Char.ofNat a2.toNat], _, by rw [misreadChar, he]; rfl,
      List.cons_ne_nil _ _, fun hlast => ?_⟩
    have hpt := hpoint hlast
    omega
  · refine ⟨[Char.ofNat a1.toNat, Char.ofNat a2.toNat, Char.ofNat a3.toNat], _,
      by rw [misreadChar, he]; rfl, List.cons_ne_nil _ _, fun hlast => ?_⟩
    have hpt := hpoint hlast
    omega

/-- The characters of a misread text are ASCII characters of the text and others from 128 to
255. -/
theorem mem_misread {s : List Char} {c : Char} (h : c ∈ misread s) :
    (c ∈ s ∧ c.toNat < 128) ∨ (128 ≤ c.toNat ∧ c.toNat < 256) := by
  obtain ⟨d, hd, hc⟩ := List.mem_flatMap.mp h
  by_cases hascii : d.toNat < 128
  · rw [misreadChar_eq_singleton hascii, List.mem_singleton] at hc
    subst hc
    exact .inl ⟨hd, hascii⟩
  · exact .inr (range_of_mem_misreadChar (Nat.le_of_not_lt hascii) hc)

/-! ### Texts that come out as others -/

private theorem length_le_misread (s : List Char) : s.length ≤ (misread s).length := by
  induction s using List.reverseRecOn with
  | nil => exact Nat.le_refl _
  | append_singleton s c ih =>
    have hc : 1 ≤ (misreadChar c).length := by
      by_cases h : c.toNat < 128
      · rw [misreadChar_eq_singleton h]
        exact Nat.le_refl _
      · obtain ⟨front, last, heq, -, -⟩ := misreadChar_eq_concat (Nat.le_of_not_lt h)
        rw [heq, List.length_append]
        exact Nat.le_add_left _ _
    rw [misread_concat, List.length_append, List.length_append, List.length_singleton]
    omega

/-- A text that is not ASCII comes out as another one. -/
theorem ascii_of_misread_eq_self {s : List Char} (h : misread s = s) :
    ∀ c ∈ s, c.toNat < 128 := by
  induction s using List.reverseRecOn with
  | nil => simp
  | append_singleton s c ih =>
    rw [misread_concat] at h
    by_cases hc : c.toNat < 128
    · rw [misreadChar_eq_singleton hc] at h
      rw [List.forall_mem_append, List.forall_mem_singleton]
      exact ⟨ih (List.append_cancel_right h), hc⟩
    · obtain ⟨front, last, heq, hne, -⟩ := misreadChar_eq_concat (Nat.le_of_not_lt hc)
      have hlen := congrArg List.length h
      have hle := length_le_misread s
      have hpos := List.length_pos_of_ne_nil hne
      rw [heq] at hlen
      simp only [List.length_append, List.length_singleton] at hlen
      omega

/-- What stands behind a separator ends with the last character, unless that is the separator. -/
private theorem exists_of_concat_eq {a q s : List Char} {x sep : Char} (hx : x ≠ sep)
    (h : a ++ [x] = q ++ sep :: s) : ∃ s', s = s' ++ [x] ∧ a = q ++ sep :: s' := by
  cases s using List.reverseRecOn with
  | nil => exact absurd (List.singleton_inj.mp (List.append_inj' h rfl).2) hx
  | append_singleton s' y =>
    rw [← List.cons_append, ← List.append_assoc] at h
    obtain ⟨ha, hy⟩ := List.append_inj' h rfl
    exact ⟨s', by rw [hy], ha⟩

/-- No text beyond ASCII stands at the end of what it comes out as, behind a next-line control. -/
theorem ascii_of_misread_eq_append {s q : List Char} (hs : '\u0082' ∉ s)
    (h : misread s = q ++ nextLine :: s) : ∀ c ∈ s, c.toNat < 128 := by
  induction s using List.reverseRecOn with
  | nil => simp
  | append_singleton s c ih =>
    rw [List.mem_append, not_or] at hs
    rw [misread_concat, ← List.cons_append, ← List.append_assoc] at h
    by_cases hc : c.toNat < 128
    · rw [misreadChar_eq_singleton hc] at h
      rw [List.forall_mem_append, List.forall_mem_singleton]
      exact ⟨ih hs.1 (List.append_cancel_right h), hc⟩
    · exfalso
      obtain ⟨front, last, heq, -, hback⟩ := misreadChar_eq_concat (Nat.le_of_not_lt hc)
      rw [heq, ← List.append_assoc] at h
      obtain ⟨h, hlast⟩ := List.append_inj' h rfl
      -- an `Â` in front of the character has to be in the text, with what comes in front of that
      rw [hback (List.singleton_inj.mp hlast)] at h
      obtain ⟨s', rfl, h⟩ := exists_of_concat_eq (by decide) h
      have hcircumflex : misreadChar 'Â' = ['Ã'] ++ ['\u0082'] := by decide
      rw [misread_concat, hcircumflex, ← List.append_assoc] at h
      obtain ⟨s'', rfl, -⟩ := exists_of_concat_eq (by decide) h
      exact hs.1 (by simp)

end Galley.Text
