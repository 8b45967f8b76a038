import Galley.Proofs.Text.Trim
import Galley.Text.Numeral
import Mathlib.Data.List.Induction
import Mathlib.Tactic.MkIffOfInductiveProp

/-!
# Numerals that can be read

A numeral is a run of digits, of any script, that is not too long to be read. What is written for
a number, `decimal n`, is one (`isNumeral_decimal`), and it is read back to the number
(`readDigits_decimal`). So is what is written for a number with a sign (`readInt_signedDecimal`).
-/

namespace Galley.Text

/-- Whether a text is a numeral that can be read. -/
@[mk_iff]
structure IsNumeral (ds : List Char) : Prop where
  ne_nil : ds ≠ []
  isDigit_of_mem : ∀ c ∈ ds, isDigit c = true
  length_le : ds.length ≤ digitLimit

instance (ds : List Char) : Decidable (IsNumeral ds) := decidable_of_iff _ (isNumeral_iff ds).symm

theorem IsNumeral.readDigits_eq {ds : List Char} (h : IsNumeral ds) :
    readDigits ds = .ok (digitsValue ds) := if_pos h.length_le

/-- What is read is a numeral. -/
theorem isNumeral_of_readDigits {ds : List Char} {n : Nat} (hne : ds ≠ [])
    (hd : ∀ c ∈ ds, isDigit c = true) (h : readDigits ds = .ok n) :
    IsNumeral ds ∧ digitsValue ds = n := by
  rw [readDigits] at h
  split at h
  · next hlen => exact ⟨⟨hne, hd, hlen⟩, Except.ok.inj h⟩
  · cases h

/-- Where a numeral ends. -/
theorem IsNumeral.takeWhile_append_cons {ds r : List Char} {c : Char} (h : IsNumeral ds)
    (hc : isDigit c = false) :
    (ds ++ c :: r).takeWhile isDigit = ds ∧ (ds ++ c :: r).dropWhile isDigit = c :: r :=
  Text.takeWhile_append_cons h.isDigit_of_mem hc

theorem notMem_of_isDigit {ds : List Char} {c : Char} (h : ∀ d ∈ ds, isDigit d = true)
    (hc : isDigit c = false) : c ∉ ds := by
  intro hm
  rw [h c hm] at hc
  cases hc

theorem IsNumeral.notMem {ds : List Char} {c : Char} (h : IsNumeral ds) (hc : isDigit c = false) :
    c ∉ ds :=
  notMem_of_isDigit h.isDigit_of_mem hc

/-! ### Numbers that are written -/

/-- The decimal digits of a number. -/
def decimal (n : Nat) : List Char := (toString n).toList

private theorem decimal_eq_toDigits (n : Nat) : decimal n = Nat.toDigits 10 n := Nat.toList_repr

theorem decimal_ne_nil (n : Nat) : decimal n ≠ [] := by
  rw [decimal_eq_toDigits]
  exact Nat.toDigits_ne_nil

/-- The code points of the ASCII digits. -/
theorem toNat_of_isDigit {c : Char} (h : c.isDigit = true) : 48 ≤ c.toNat ∧ c.toNat ≤ 57 := by
  simp only [Char.isDigit, Bool.and_eq_true, decide_eq_true_eq, UInt32.le_iff_toNat_le] at h
  exact h

/-- An ASCII digit is a digit, and its value is its distance from zero. -/
private theorem digitValue?_of_isDigit {c : Char} (h : c.isDigit = true) :
    digitValue? c = some (c.toNat - '0'.toNat) := by
  have hr := toNat_of_isDigit h
  rw [digitValue?, if_pos (by omega), if_pos hr]
  rfl

/-- Numbers are written with ASCII digits. -/
theorem ascii_of_mem_decimal {n : Nat} {c : Char} (h : c ∈ decimal n) : c.isDigit = true := by
  rw [decimal_eq_toDigits] at h
  exact Nat.isDigit_of_mem_toDigits (by decide) (by decide) h

theorem isDigit_of_mem_decimal {n : Nat} {c : Char} (h : c ∈ decimal n) : isDigit c = true := by
  rw [isDigit, digitValue?_of_isDigit (ascii_of_mem_decimal h)]
  rfl

private theorem digitsValue_concat {ds : List Char} {c : Char} {d : Nat}
    (h : digitValue? c = some d) : digitsValue (ds ++ [c]) = 10 * digitsValue ds + d := by
  rw [digitsValue, List.foldl_append, List.foldl_cons, h]
  rfl

private theorem digitsValue_of_isDigit {ds : List Char} (h : ∀ c ∈ ds, c.isDigit = true) :
    digitsValue ds = Nat.ofDigitChars 10 ds 0 := by
  induction ds using List.reverseRecOn with
  | nil => rfl
  | append_singleton ds c ih =>
    rw [List.forall_mem_append, List.forall_mem_singleton] at h
    rw [digitsValue_concat (digitValue?_of_isDigit h.2), ih h.1, Nat.ofDigitChars_append,
      Nat.ofDigitChars_cons, Nat.ofDigitChars_nil]

private theorem digitsValue_decimal (n : Nat) : digitsValue (decimal n) = n := by
  rw [decimal_eq_toDigits, digitsValue_of_isDigit,
    Nat.ofDigitChars_toDigits (by decide) (by decide)]
  exact fun c hc => Nat.isDigit_of_mem_toDigits (by decide) (by decide) hc

private theorem length_decimal_le_iff {n k : Nat} (hk : 0 < k) :
    (decimal n).length ≤ k ↔ n < Nat.pow 10 k := by
  rw [decimal_eq_toDigits]
  exact Nat.length_toDigits_le_iff (by decide) hk

/-- Small numbers have few digits. -/
theorem lt_pow_of_le {n k : Nat} (h : n ≤ k) : n < Nat.pow 10 k :=
  Nat.lt_of_lt_of_le (Nat.lt_pow_self (by decide)) (Nat.pow_le_pow_right (by decide) h)

/-- What is written for a number is a numeral. -/
theorem isNumeral_decimal {n : Nat} (h : n < Nat.pow 10 digitLimit) : IsNumeral (decimal n) where
  ne_nil := decimal_ne_nil n
  isDigit_of_mem _ := isDigit_of_mem_decimal
  length_le := (length_decimal_le_iff (by decide)).mpr h

/-- A number that is written is read back. -/
theorem readDigits_decimal {n : Nat} (h : n < Nat.pow 10 digitLimit) :
    readDigits (decimal n) = .ok n := by
  rw [(isNumeral_decimal h).readDigits_eq, digitsValue_decimal]

/-- A number with too many digits is not read back. -/
theorem exists_readDigits_decimal_eq_error {n : Nat} (h : ¬ n < Nat.pow 10 digitLimit) :
    ∃ e, readDigits (decimal n) = .error e :=
  ⟨_, if_neg fun hlen => h ((length_decimal_le_iff (by decide)).mp hlen)⟩

/-! ### Numbers that are written with a sign -/

/-- The decimal digits of a number, behind a minus sign if it is negative. -/
def signedDecimal (n : Int) : List Char := (toString n).toList

private theorem signedDecimal_cases (n : Int) :
    (n = n.natAbs ∧ signedDecimal n = decimal n.natAbs) ∨
      (n = -n.natAbs ∧ signedDecimal n = '-' :: decimal n.natAbs) := by
  cases n with
  | ofNat m => exact .inl ⟨rfl, rfl⟩
  | negSucc m => exact .inr ⟨rfl, String.toList_append⟩

theorem signedDecimal_ne_nil (n : Int) : signedDecimal n ≠ [] := by
  obtain ⟨-, h⟩ | ⟨-, h⟩ := signedDecimal_cases n <;> rw [h]
  · exact decimal_ne_nil _
  · exact List.cons_ne_nil _ _

theorem mem_signedDecimal {n : Int} {c : Char} (h : c ∈ signedDecimal n) :
    c = '-' ∨ c.isDigit = true := by
  obtain ⟨-, hn⟩ | ⟨-, hn⟩ := signedDecimal_cases n <;> rw [hn] at h
  · exact .inr (ascii_of_mem_decimal h)
  · exact (List.mem_cons.mp h).imp_right ascii_of_mem_decimal

theorem isBlank_of_mem_signedDecimal {n : Int} {c : Char} (h : c ∈ signedDecimal n) :
    isBlank c = false := by
  obtain rfl | hd := mem_signedDecimal h
  · decide
  · have hr := toNat_of_isDigit hd
    simp only [isBlank, Bool.or_eq_false_iff, Bool.and_eq_false_iff, decide_eq_false_iff_not,
      beq_eq_false_iff_ne]
    omega

private theorem scanDigits_eq {ds : List Char} (h : ∀ c ∈ ds, isDigit c = true) (b : Bool) :
    scanDigits b ds = some (ds, []) := by
  induction ds generalizing b with
  | nil => rfl
  | cons c ds ih =>
    rw [List.forall_mem_cons] at h
    rw [scanDigits, if_pos h.1, ih h.2]
    rfl

/-- What the sign is taken off. -/
private theorem cutSign_signedDecimal (n : Int) :
    ∃ negative, cutSign (signedDecimal n) = (negative, decimal n.natAbs) ∧
      n = if negative then -(n.natAbs : Int) else n.natAbs := by
  obtain ⟨hn, hd⟩ | ⟨hn, hd⟩ := signedDecimal_cases n <;> rw [hd]
  · refine ⟨false, ?_, hn⟩
    rw [cutSign]
    · intro r hr
      exact absurd (ascii_of_mem_decimal (hr ▸ List.mem_cons_self)) (by decide)
    · intro r hr
      exact absurd (ascii_of_mem_decimal (hr ▸ List.mem_cons_self)) (by decide)
  · exact ⟨true, rfl, hn⟩

/-- A number that is written with a sign is read back. -/
theorem readInt_signedDecimal {n : Int} (h : n.natAbs < Nat.pow 10 digitLimit) :
    readInt (signedDecimal n) = .ok n := by
  have hpad : (signedDecimal n).dropWhile padsNumeral = signedDecimal n := by
    refine dropWhile_eq_self_iff.mpr fun c hc => ?_
    rw [padsNumeral, isBlank_of_mem_signedDecimal (List.mem_of_mem_head? hc), Bool.false_and]
  obtain ⟨negative, hcut, hn⟩ := cutSign_signedDecimal n
  have hnum := isNumeral_decimal h
  rw [readInt, hpad, hcut]
  simp only [scanDigits_eq hnum.isDigit_of_mem, if_neg (Nat.not_lt.mpr hnum.length_le),
    List.isEmpty_eq_false_iff.mpr hnum.ne_nil, List.all_nil, Bool.not_true, Bool.or_self,
    Bool.false_eq_true, if_false, digitsValue_decimal, ← hn]

end Galley.Text
