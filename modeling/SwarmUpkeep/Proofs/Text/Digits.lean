import Mathlib.Algebra.Ring.Nat
import SwarmUpkeep.Text.Ascii

/-!
# Digits

What is written in digits reads back as the same number: in decimal, with zeros in front of it or
without, and in hexadecimal.
-/

namespace SwarmUpkeep.Ascii

theorem digitValue?_digitChar {n : Nat} (h : n < 16) : digitValue? n.digitChar = some n := by
  match n with
  | 0 | 1 | 2 | 3 | 4 | 5 | 6 | 7 | 8 | 9 | 10 | 11 | 12 | 13 | 14 | 15 => decide
  | _ + 16 => omega

theorem isDigit_digitChar {n : Nat} (h : n < 10) : isDigit n.digitChar = true := by
  match n with
  | 0 | 1 | 2 | 3 | 4 | 5 | 6 | 7 | 8 | 9 => decide
  | _ + 10 => omega

theorem number?_concat (base : Nat) (digits : List Char) (c : Char) :
    number? base (digits ++ [c]) =
      (number? base digits).bind fun value =>
        (digitValue? c).bind fun d => if d < base then some (value * base + d) else none := by
  unfold number?
  rw [List.foldlM_append]
  simp only [List.foldlM_cons, List.foldlM_nil, bind_pure]
  rfl

/-- A run with a character that is no digit writes no number. -/
theorem number?_eq_none_of_mem {base : Nat} {digits : List Char} {c : Char} (hc : c ∈ digits)
    (hnone : digitValue? c = none) : number? base digits = none := by
  unfold number?
  generalize 0 = value
  induction digits generalizing value with
  | nil => cases hc
  | cons d digits ih =>
      rw [List.foldlM_cons]
      rcases List.mem_cons.mp hc with rfl | hc
      · rw [hnone]
        rfl
      · have hrest := fun value => ih hc value
        simp only [hrest]
        exact Option.bind_fun_none _

/-! ## Any base -/

variable {base : Nat}

/-- A number of so many digits is less than that power of the base. -/
theorem lt_pow_of_number? {digits : List Char} {n : Nat} (h : number? base digits = some n) :
    n < base ^ digits.length := by
  unfold number? at h
  rw [← Nat.one_mul (base ^ digits.length), ← Nat.zero_add 1]
  -- From any value that has been read so far.
  generalize 0 = value at h ⊢
  induction digits generalizing value with
  | nil =>
      cases h
      simp
  | cons c digits ih =>
      rw [List.foldlM_cons] at h
      obtain ⟨next, hnext, h⟩ := Option.bind_eq_some_iff.mp h
      obtain ⟨d, -, hd⟩ := Option.bind_eq_some_iff.mp hnext
      split at hd
      next hlt =>
        cases hd
        calc n < (value * base + d + 1) * base ^ digits.length := ih _ h
          _ ≤ (value + 1) * base * base ^ digits.length := by
            apply Nat.mul_le_mul_right
            rw [Nat.add_mul]
            omega
          _ = (value + 1) * base ^ (digits.length + 1) := by
            rw [Nat.pow_succ, Nat.mul_assoc, Nat.mul_comm base]
      next => cases hd

theorem number?_toDigits (hone : 1 < base) (hbase : base ≤ 16) (n : Nat) :
    number? base (Nat.toDigits base n) = some n := by
  -- Digits are read from the left, so that the last one comes off the end.
  induction n using Nat.strongRecOn with
  | ind n ih =>
      rcases Nat.lt_or_ge n base with hlt | hge
      · rw [Nat.toDigits_of_lt_base hlt, ← List.nil_append [n.digitChar], number?_concat,
          digitValue?_digitChar (by omega)]
        simp [number?, hlt]
      · have hlast : n % base < base := Nat.mod_lt n (by omega)
        rw [Nat.toDigits_of_base_le hone hge, number?_concat,
          ih (n / base) (Nat.div_lt_self (by omega) hone), digitValue?_digitChar (by omega)]
        simp only [Option.bind_some, if_pos hlast]
        rw [Nat.div_add_mod']

theorem exists_digit_of_mem_toDigits (hone : 1 < base) {n : Nat} {c : Char}
    (h : c ∈ Nat.toDigits base n) : ∃ d < base, c = d.digitChar := by
  induction n using Nat.strongRecOn with
  | ind n ih =>
      rcases Nat.lt_or_ge n base with hlt | hge
      · rw [Nat.toDigits_of_lt_base hlt, List.mem_singleton] at h
        exact ⟨n, hlt, h⟩
      · rw [Nat.toDigits_of_base_le hone hge, List.mem_append, List.mem_singleton] at h
        rcases h with hfront | hlast
        · exact ih (n / base) (Nat.div_lt_self (by omega) hone) hfront
        · exact ⟨n % base, Nat.mod_lt n (by omega), hlast⟩

/-- Only zero begins with a zero. -/
theorem head_toDigits_ne_zero (hone : 1 < base) (hbase : base ≤ 16) {n : Nat} (hn : n ≠ 0) :
    (Nat.toDigits base n).head? ≠ some '0' := by
  induction n using Nat.strongRecOn with
  | ind n ih =>
      rcases Nat.lt_or_ge n base with hlt | hge
      · rw [Nat.toDigits_of_lt_base hlt]
        intro hzero
        have hvalue := digitValue?_digitChar (show n < 16 by omega)
        rw [Option.some.inj hzero] at hvalue
        exact hn (Option.some.inj hvalue).symm
      · have hpos : n / base ≠ 0 := Nat.ne_of_gt (Nat.div_pos hge (by omega))
        have hfront := ih (n / base) (Nat.div_lt_self (by omega) hone) hpos
        rw [Nat.toDigits_of_base_le hone hge]
        cases hdigits : Nat.toDigits base (n / base) with
        | nil => exact absurd hdigits Nat.toDigits_ne_nil
        | cons c rest =>
            rw [hdigits] at hfront
            exact hfront

/-! ## Decimal -/

theorem number?_decimal (n : Nat) : number? 10 (decimal n) = some n :=
  number?_toDigits (by omega) (by omega) n

theorem toString_injective {n k : Nat} (h : toString n = toString k) : n = k := by
  have hread : number? 10 (toString n).toList = number? 10 (toString k).toList :=
    congrArg (fun s => number? 10 s.toList) h
  have hdigits (i : Nat) : (toString i).toList = decimal i := String.toList_ofList
  simp only [hdigits, number?_decimal] at hread
  exact Option.some.inj hread

theorem decimal_ne_nil (n : Nat) : decimal n ≠ [] :=
  Nat.toDigits_ne_nil

theorem head_decimal_ne_zero {n : Nat} (hn : n ≠ 0) : (decimal n).head? ≠ some '0' :=
  head_toDigits_ne_zero (by omega) (by omega) hn

theorem isDigit_of_mem_decimal {n : Nat} {c : Char} (h : c ∈ decimal n) : isDigit c = true := by
  obtain ⟨d, hd, rfl⟩ := exists_digit_of_mem_toDigits (by omega) h
  exact isDigit_digitChar hd

/-- A whole number is read from its digits, if it is within the bounds. -/
theorem integer?_decimal {least greatest : Int} {n : Nat} (hleast : least ≤ n)
    (hgreatest : n ≤ greatest) :
    integer? least greatest (String.ofList (decimal n)) = some (n : Int) := by
  have hnumber := number?_decimal n
  unfold integer?
  rw [String.toList_ofList]
  cases hdecimal : decimal n with
  | nil => exact absurd hdecimal (decimal_ne_nil n)
  | cons c digits =>
      have hdigit : isDigit c = true := isDigit_of_mem_decimal (hdecimal ▸ List.mem_cons_self)
      have hminus : c ≠ '-' := by
        rintro rfl
        cases hdigit
      have hplus : c ≠ '+' := by
        rintro rfl
        cases hdigit
      rw [hdecimal] at hnumber
      simp [hminus, hplus, hnumber, hleast, hgreatest]

/-! ## Hexadecimal -/

theorem number?_hexadecimal (n : Nat) : number? 16 (hexadecimal n) = some n :=
  number?_toDigits (by omega) (by omega) n

theorem hexadecimal_ne_nil (n : Nat) : hexadecimal n ≠ [] :=
  Nat.toDigits_ne_nil

theorem isHexDigit_of_mem_hexadecimal {n : Nat} {c : Char} (h : c ∈ hexadecimal n) :
    isHexDigit c = true := by
  obtain ⟨d, hd, rfl⟩ := exists_digit_of_mem_toDigits (by omega) h
  unfold isHexDigit
  rw [digitValue?_digitChar hd]
  rfl

/-! ## Zeros in front -/

theorem number?_zeros (k : Nat) (digits : List Char) :
    number? 10 (List.replicate k '0' ++ digits) = number? 10 digits := by
  induction k with
  | zero => rfl
  | succ k ih =>
      rw [← ih]
      rfl

theorem number?_padded (width n : Nat) : number? 10 (padded width n) = some n := by
  unfold padded
  rw [number?_zeros, number?_decimal]

theorem isDigit_of_mem_padded {width n : Nat} {c : Char} (h : c ∈ padded width n) :
    isDigit c = true := by
  rcases List.mem_append.mp h with hzeros | hdigits
  · rw [List.eq_of_mem_replicate hzeros]
    rfl
  · exact isDigit_of_mem_decimal hdigits

theorem length_decimal_le {width n : Nat} (hwidth : 0 < width) (h : n < 10 ^ width) :
    (decimal n).length ≤ width :=
  (Nat.length_toDigits_le_iff (by omega) hwidth).mpr h

theorem length_padded {width n : Nat} (hwidth : 0 < width) (h : n < 10 ^ width) :
    (padded width n).length = width := by
  have hle := length_decimal_le hwidth h
  simp only [padded, List.length_append, List.length_replicate]
  omega

theorem le_length_padded (width n : Nat) : width ≤ (padded width n).length := by
  simp only [padded, List.length_append, List.length_replicate]
  omega

theorem padded_ne_nil (width n : Nat) : padded width n ≠ [] := by
  unfold padded
  simp only [ne_eq, List.append_eq_nil_iff, decimal_ne_nil, and_false, not_false_eq_true]

/-! ## Order -/

theorem padded_succ {width : Nat} (hwidth : 0 < width) (n : Nat) :
    padded (width + 1) n = padded width (n / 10) ++ [(n % 10).digitChar] := by
  unfold padded decimal
  rcases Nat.lt_or_ge n 10 with hlt | hge
  · obtain ⟨front, rfl⟩ : ∃ front, width = front + 1 := ⟨width - 1, by omega⟩
    rw [Nat.div_eq_of_lt hlt, Nat.mod_eq_of_lt hlt, Nat.toDigits_of_lt_base hlt,
      Nat.toDigits_of_lt_base (by omega)]
    simp only [List.length_singleton, Nat.add_sub_cancel]
    rw [List.replicate_succ']
    rfl
  · rw [Nat.toDigits_of_base_le (by omega) hge]
    simp only [List.length_append, List.length_singleton, Nat.add_sub_add_right, List.append_assoc]

/-- What comes first decides, if it is as long. -/
theorem append_lt_append {cs ds : List Char} (h : cs < ds) (hlength : cs.length = ds.length)
    (rest rest' : List Char) : cs ++ rest < ds ++ rest' := by
  induction cs generalizing ds with
  | nil =>
      rw [List.length_eq_zero_iff.mp hlength.symm] at h
      exact absurd h (List.lt_irrefl [])
  | cons c cs ih =>
      cases ds with
      | nil => cases hlength
      | cons d ds =>
          rw [List.cons_append, List.cons_append]
          rcases List.cons_lt_cons_iff.mp h with hless | ⟨hsame, hless⟩
          · exact List.cons_lt_cons_iff.mpr (.inl hless)
          · exact List.cons_lt_cons_iff.mpr (.inr ⟨hsame, ih hless (Nat.succ.inj hlength)⟩)

/-- Numbers that are filled up to the same width are ordered as their texts are. -/
theorem padded_lt_padded {width n k : Nat} (hwidth : 0 < width) (h : n < k)
    (hk : k < 10 ^ width) : padded width n < padded width k := by
  have hdigits : ∀ e < 10, ∀ d < e, [d.digitChar] < [e.digitChar] := by decide
  obtain ⟨front, rfl⟩ : ∃ front, width = front + 1 := ⟨width - 1, by omega⟩
  induction front generalizing n k with
  | zero =>
      have hone : ∀ m < 10, padded 1 m = [m.digitChar] := by decide
      rw [hone n (by omega), hone k (by omega)]
      exact hdigits k (by omega) n h
  | succ front ih =>
      have hwidth : 0 < front + 1 := by omega
      rw [Nat.pow_succ] at hk
      rw [padded_succ hwidth, padded_succ hwidth]
      rcases Nat.lt_or_ge (n / 10) (k / 10) with hless | hge
      · have hn := length_padded hwidth (show n / 10 < 10 ^ (front + 1) by omega)
        have hk := length_padded hwidth (show k / 10 < 10 ^ (front + 1) by omega)
        exact append_lt_append (ih hless hwidth (by omega)) (hn.trans hk.symm) _ _
      · -- Only the last digits differ.
        rw [show n / 10 = k / 10 by omega]
        exact List.append_left_lt (hdigits (k % 10) (by omega) (n % 10) (by omega))

end SwarmUpkeep.Ascii
