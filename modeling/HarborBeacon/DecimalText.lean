import Mathlib.Algebra.Group.Nat.Defs
import Mathlib.Data.Char
import Mathlib.Data.List.Lex

/-!
Decimal numbers padded with zeros to a fixed width. Of two such texts the smaller one in
dictionary order is the smaller number.
-/

namespace HarborBeacon.DecimalText

/-- The number in decimal digits, with zeros before it up to `width` digits. -/
def zeroPadded (width n : Nat) : List Char :=
  List.replicate (width - (Nat.toDigits 10 n).length) '0' ++ Nat.toDigits 10 n

def digitValue (c : Char) : Nat :=
  c.toNat - '0'.toNat

def value (digits : List Char) : Nat :=
  Nat.ofDigitChars 10 digits 0

theorem value_cons (c : Char) (digits : List Char) :
    value (c :: digits) = digitValue c * 10 ^ digits.length + value digits := by
  unfold value digitValue
  rw [Nat.ofDigitChars_cons, Nat.ofDigitChars_eq_ofDigitChars_zero, Nat.mul_comm]
  simp

@[simp] theorem value_zeroPadded (width n : Nat) : value (zeroPadded width n) = n := by
  unfold value zeroPadded
  rw [Nat.ofDigitChars_append, Nat.ofDigitChars_replicate_zero, Nat.mul_zero,
    Nat.ofDigitChars_ten_toDigits]

theorem length_zeroPadded {width n : Nat} (hwidth : 0 < width) (hn : n < 10 ^ width) :
    (zeroPadded width n).length = width := by
  have hlength : (Nat.toDigits 10 n).length ≤ width :=
    (Nat.length_toDigits_le_iff (by decide) hwidth).2 hn
  simp only [zeroPadded, List.length_append, List.length_replicate]
  omega

theorem isDigit_of_mem_zeroPadded {width n : Nat} {c : Char} (h : c ∈ zeroPadded width n) :
    c.isDigit = true := by
  rcases List.mem_append.mp h with hzero | hdigit
  · rw [List.eq_of_mem_replicate hzero]
    decide
  · exact Nat.isDigit_of_mem_toDigits (by decide) (by decide) hdigit

theorem digitValue_le_nine {c : Char} (h : c.isDigit = true) : digitValue c ≤ 9 := by
  simp only [Char.isDigit, Bool.and_eq_true, decide_eq_true_eq] at h
  have hupper : c.toNat ≤ '0'.toNat + 9 := h.2
  unfold digitValue
  omega

theorem digitValue_lt_iff {c d : Char} (h : c.isDigit = true) :
    digitValue c < digitValue d ↔ c < d := by
  simp only [Char.isDigit, Bool.and_eq_true, decide_eq_true_eq] at h
  have hlower : '0'.toNat ≤ c.toNat := h.1
  have hlt : c < d ↔ c.toNat < d.toNat := Iff.rfl
  rw [hlt]
  unfold digitValue
  omega

theorem value_lt_pow {digits : List Char} (h : ∀ c ∈ digits, c.isDigit = true) :
    value digits < 10 ^ digits.length := by
  induction digits with
  | nil => decide
  | cons c digits ih =>
      have hdigit := digitValue_le_nine (h c (by simp))
      have htail := ih fun d hd => h d (by simp [hd])
      calc
        value (c :: digits) = digitValue c * 10 ^ digits.length + value digits :=
          value_cons c digits
        _ < digitValue c * 10 ^ digits.length + 10 ^ digits.length := by omega
        _ = (digitValue c + 1) * 10 ^ digits.length := by rw [Nat.add_mul, Nat.one_mul]
        _ ≤ 10 * 10 ^ digits.length := Nat.mul_le_mul_right _ (by omega)
        _ = 10 ^ (c :: digits).length := by rw [List.length_cons, Nat.pow_succ, Nat.mul_comm]

variable {digits digits' : List Char}

theorem value_cons_lt {c d : Char} (hlength : digits.length = digits'.length)
    (h : ∀ c ∈ digits, c.isDigit = true) (hlt : digitValue c < digitValue d) :
    value (c :: digits) < value (d :: digits') := by
  have htail := value_lt_pow h
  rw [value_cons, value_cons, ← hlength]
  calc
    digitValue c * 10 ^ digits.length + value digits <
        digitValue c * 10 ^ digits.length + 10 ^ digits.length := by omega
    _ = (digitValue c + 1) * 10 ^ digits.length := by rw [Nat.add_mul, Nat.one_mul]
    _ ≤ digitValue d * 10 ^ digits.length := Nat.mul_le_mul_right _ hlt
    _ ≤ digitValue d * 10 ^ digits.length + value digits' := Nat.le_add_right _ _

theorem lt_iff_value_lt (hlength : digits.length = digits'.length)
    (h : ∀ c ∈ digits, c.isDigit = true) (h' : ∀ c ∈ digits', c.isDigit = true) :
    digits < digits' ↔ value digits < value digits' := by
  induction digits generalizing digits' with
  | nil =>
      obtain rfl := List.eq_nil_of_length_eq_zero hlength.symm
      simp
  | cons c digits ih =>
      rcases digits' with _ | ⟨d, digits'⟩
      · simp at hlength
      have hlength' : digits.length = digits'.length := by simpa using hlength
      have hc := h c (by simp)
      have hd := h' d (by simp)
      have htail : ∀ e ∈ digits, e.isDigit = true := fun e he => h e (by simp [he])
      have htail' : ∀ e ∈ digits', e.isDigit = true := fun e he => h' e (by simp [he])
      rw [List.cons_lt_cons_iff]
      rcases lt_trichotomy c d with hlt | rfl | hgt
      · have hvalue := value_cons_lt hlength' htail ((digitValue_lt_iff hc).2 hlt)
        simp [hlt, hvalue]
      · rw [value_cons, value_cons, ← hlength', ih hlength' htail htail']
        simp
      · have hvalue := value_cons_lt hlength'.symm htail' ((digitValue_lt_iff hd).2 hgt)
        simp [hgt.ne', not_lt_of_gt hgt, not_lt_of_gt hvalue]

theorem zeroPadded_lt_iff {width m n : Nat} (hwidth : 0 < width) (hm : m < 10 ^ width)
    (hn : n < 10 ^ width) : zeroPadded width m < zeroPadded width n ↔ m < n := by
  rw [lt_iff_value_lt, value_zeroPadded, value_zeroPadded]
  · rw [length_zeroPadded hwidth hm, length_zeroPadded hwidth hn]
  · exact fun _ => isDigit_of_mem_zeroPadded
  · exact fun _ => isDigit_of_mem_zeroPadded

theorem append_lt_append (hlength : digits.length = digits'.length) (start rest : List Char)
    (h : digits < digits') :
    start ++ (digits ++ rest) < start ++ (digits' ++ rest) := by
  apply List.append_left_lt
  induction digits generalizing digits' with
  | nil =>
      obtain rfl := List.eq_nil_of_length_eq_zero hlength.symm
      exact absurd h (List.not_lt_nil _)
  | cons c digits ih =>
      rcases digits' with _ | ⟨d, digits'⟩
      · simp at hlength
      rw [List.cons_append, List.cons_append, List.cons_lt_cons_iff]
      rcases List.cons_lt_cons_iff.mp h with hlt | ⟨heq, htail⟩
      · exact .inl hlt
      · exact .inr ⟨heq, ih (by simpa using hlength) htail⟩

theorem eq_of_value_eq (hlength : digits.length = digits'.length)
    (h : ∀ c ∈ digits, c.isDigit = true) (h' : ∀ c ∈ digits', c.isDigit = true)
    (hvalue : value digits = value digits') : digits = digits' := by
  rcases lt_trichotomy digits digits' with hlt | heq | hgt
  · have := (lt_iff_value_lt hlength h h').1 hlt
    omega
  · exact heq
  · have := (lt_iff_value_lt hlength.symm h' h).1 hgt
    omega

theorem toDigits_value {digits : List Char} (h : ∀ c ∈ digits, c.isDigit = true)
    (hne : digits ≠ []) (hzero : digits.head? = some '0' → digits.length = 1) :
    Nat.toDigits 10 (value digits) = digits := by
  have hdigits : ∀ c ∈ Nat.toDigits 10 (value digits), c.isDigit = true := fun c hc =>
    Nat.isDigit_of_mem_toDigits (by decide) (by decide) hc
  refine eq_of_value_eq ?_ hdigits h Nat.ofDigitChars_ten_toDigits
  rcases digits with _ | ⟨c, rest⟩
  · exact absurd rfl hne
  have hle : (Nat.toDigits 10 (value (c :: rest))).length ≤ (c :: rest).length :=
    (Nat.length_toDigits_le_iff (by decide) (by simp)).2 (value_lt_pow h)
  have hpos : 0 < (Nat.toDigits 10 (value (c :: rest))).length :=
    List.length_pos_iff.mpr Nat.toDigits_ne_nil
  rcases rest with _ | ⟨d, rest⟩
  · simp only [List.length_cons, List.length_nil] at hle ⊢
    omega
  have hc : '0' < c := by
    have hfirst : c.isDigit = true := h c (by simp)
    simp only [Char.isDigit, Bool.and_eq_true, decide_eq_true_eq] at hfirst
    rcases lt_or_eq_of_le (show '0' ≤ c from hfirst.1) with hlt | heq
    · exact hlt
    · simp [← heq] at hzero
  have hc : 0 < digitValue c := (digitValue_lt_iff (c := '0') (d := c) (by decide)).2 hc
  have hbig : ¬ value (c :: d :: rest) < 10 ^ (d :: rest).length := by
    rw [value_cons]
    have := Nat.mul_le_mul_right (10 ^ (d :: rest).length) hc
    omega
  have hlt : ¬ (Nat.toDigits 10 (value (c :: d :: rest))).length ≤ (d :: rest).length := fun hle =>
    hbig ((Nat.length_toDigits_le_iff (by decide) (by simp)).1 hle)
  simp only [List.length_cons] at hle hlt ⊢
  omega

end HarborBeacon.DecimalText
