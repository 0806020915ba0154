import SwarmUpkeep.Time.Timestamp
import SwarmUpkeep.Proofs.Text.Digits
import SwarmUpkeep.Proofs.Time.Calendar

/-!
# Timestamps read back

The lenient reader takes every timestamp that is written with `Z` for the instant that it was
written for, and so does the strict reader with every timestamp that is written with a numeric
offset in a year of four digits. Each field is written in digits and followed by a character that
is no digit, so that the reader of a field stops where the field ends.
-/

namespace SwarmUpkeep

theorem isBlankChar_of_isDigit {c : Char} (h : Ascii.isDigit c = true) : isBlankChar c = false := by
  simp only [Ascii.isDigit, Bool.and_eq_true, decide_eq_true_eq, Char.le_def,
    UInt32.le_iff_toNat_le] at h
  simp only [isBlankChar, Char.toNat]
  have h0 : ('0' : Char).val.toNat = 48 := rfl
  have h9 : ('9' : Char).val.toNat = 57 := rfl
  simp only [Bool.or_eq_false_iff, Bool.and_eq_false_iff, decide_eq_false_iff_not,
    beq_eq_false_iff_ne]
  omega

theorem dropBlanks_cons {c : Char} (h : isBlankChar c = false) (rest : List Char) :
    dropBlanks (c :: rest) = c :: rest := by
  simp only [dropBlanks, List.dropWhile_cons, h, Bool.false_eq_true, if_false]

theorem Instant.secondOfDay_lt (t : Instant) : t.secondOfDay < 86400 := by
  unfold secondOfDay
  omega

/-- An instant of universal time, in which leap seconds end minutes, that can be kept. -/
structure Instant.IsTold (t : Instant) : Prop where
  kept : t.isKept = true
  nanos : t.nanos < 1000000000 ∨ t.nanos < 2000000000 ∧ t.secondOfDay % 60 = 59

namespace Timestamp

variable {rest : List Char}

theorem ok_bind {α β : Type} (a : α) (f : α → Except TimestampError β) :
    (Except.ok a >>= f) = f a :=
  rfl

/-! ## Fields -/

theorem length_le_octetLength (cs : List Char) : cs.length ≤ octetLength cs := by
  induction cs with
  | nil => exact Nat.zero_le _
  | cons c cs ih =>
      have hcons : octetLength (c :: cs) = c.utf8Size + octetLength cs := by
        unfold octetLength
        rw [← List.singleton_append, String.ofList_append, String.utf8ByteSize_append,
          ← String.singleton_eq_ofList, String.utf8ByteSize_singleton]
      have := Char.utf8Size_pos c
      rw [hcons, List.length_cons]
      omega

theorem digitRun_append {most : Nat} {digits : List Char}
    (hdigits : ∀ c ∈ digits, Ascii.isDigit c = true) (hlength : digits.length ≤ most)
    (hrest : rest.head?.any Ascii.isDigit = false) :
    digitRun most (digits ++ rest) = (digits, rest) := by
  induction digits generalizing most with
  | nil =>
      cases most with
      | zero => rfl
      | succ most =>
          cases rest with
          | nil => rfl
          | cons c rest =>
              have hc : Ascii.isDigit c = false := hrest
              simp only [List.nil_append, digitRun, hc, Bool.false_eq_true, if_false]
  | cons c digits ih =>
      obtain ⟨most, rfl⟩ : ∃ m, most = m + 1 := by
        refine ⟨most - 1, ?_⟩
        rw [List.length_cons] at hlength
        omega
      have hrun := @ih most (fun d hd => hdigits d (.tail _ hd)) (by simpa using hlength)
      have hc := hdigits c (.head _)
      simp only [List.cons_append, digitRun, hc, if_true, hrun]

/-- A number that is written in digits is read to its end. -/
theorem number_padded {least most width n : Nat} (hleast : least ≤ (Ascii.padded width n).length)
    (hmost : (Ascii.padded width n).length ≤ most) (hn : n < 9223372036854775808)
    (hrest : rest.head?.any Ascii.isDigit = false) :
    number least most (Ascii.padded width n ++ rest) = .ok (n, rest) := by
  have hoctets : ¬ octetLength (Ascii.padded width n ++ rest) < least := by
    have := length_le_octetLength (Ascii.padded width n ++ rest)
    rw [List.length_append] at this
    omega
  have hrun := digitRun_append (fun c => Ascii.isDigit_of_mem_padded) hmost hrest
  unfold number
  rw [if_neg hoctets]
  simp only [hrun, Ascii.number?_padded, if_neg (Nat.not_lt.mpr hleast), if_pos hn]

/-- What is written in digits begins with one. -/
theorem padded_eq_cons (width n : Nat) :
    ∃ c digits, Ascii.padded width n = c :: digits ∧ Ascii.isDigit c = true := by
  cases hpadded : Ascii.padded width n with
  | nil => exact absurd hpadded (Ascii.padded_ne_nil width n)
  | cons c digits =>
      exact ⟨c, digits, rfl, Ascii.isDigit_of_mem_padded (hpadded ▸ List.mem_cons_self)⟩

theorem dropBlanks_padded (width n : Nat) :
    dropBlanks (Ascii.padded width n ++ rest) = Ascii.padded width n ++ rest := by
  obtain ⟨c, digits, hpadded, hc⟩ := padded_eq_cons width n
  rw [hpadded, List.cons_append, dropBlanks_cons (isBlankChar_of_isDigit hc)]

theorem field_padded {n : Nat} (hn : n < 100) (hrest : rest.head?.any Ascii.isDigit = false) :
    field 2 (Ascii.padded 2 n ++ rest) = .ok (n, rest) := by
  have hlength : (Ascii.padded 2 n).length = 2 := Ascii.length_padded (by omega) hn
  unfold field
  rw [dropBlanks_padded]
  exact number_padded (by omega) (by omega) (by omega) hrest

theorem blankedExactly_self {c : Char} (h : isBlankChar c = false) :
    blankedExactly c (c :: rest) = .ok rest := by
  unfold blankedExactly
  rw [dropBlanks_cons h]
  exact if_pos rfl

theorem within_of_mem {least greatest n : Nat} (h : least ≤ n ∧ n ≤ greatest) :
    within least greatest n = .ok () :=
  if_pos h

theorem separator_T : separator ('T' :: rest) = .ok rest :=
  rfl

theorem lenientOffset_Z : lenientOffset ['Z'] = .ok (0, []) :=
  rfl

/-- A year of four digits is read without a sign. -/
theorem signedYear_padded {n : Nat} (hn : n < 10000)
    (hrest : rest.head?.any Ascii.isDigit = false) :
    signedYear (Ascii.padded 4 n ++ rest) = .ok (n, rest) := by
  have hlength : (Ascii.padded 4 n).length = 4 := Ascii.length_padded (by omega) hn
  have hnumber : number 1 4 (Ascii.padded 4 n ++ rest) = .ok (n, rest) :=
    number_padded (by omega) (by omega) (by omega) hrest
  obtain ⟨c, digits, hpadded, hc⟩ := padded_eq_cons 4 n
  unfold signedYear
  rw [dropBlanks_padded, hpadded]
  split
  next heq =>
    cases heq
    cases hc
  next heq =>
    cases heq
    cases hc
  next =>
    rw [← hpadded, hnumber]
    rfl

/-- A year is read with its sign, if it has one. -/
theorem signedYear_yearText {year : Int} (hyear : year.natAbs < 9223372036854775808)
    (hrest : rest.head?.any Ascii.isDigit = false) :
    signedYear (yearText year ++ rest) = .ok (year, rest) := by
  by_cases hfour : 0 ≤ year ∧ year ≤ 9999
  · have hread : signedYear (Ascii.padded 4 year.toNat ++ rest) = .ok ((year.toNat : Int), rest) :=
      signedYear_padded (by omega) hrest
    rw [yearText, if_pos hfour, hread, Int.toNat_of_nonneg hfour.1]
  · have hnumber : number 1 (Ascii.padded 4 year.natAbs ++ rest).length
        (Ascii.padded 4 year.natAbs ++ rest) = .ok (year.natAbs, rest) := by
      refine number_padded (List.length_pos_iff.mpr (Ascii.padded_ne_nil 4 _)) ?_ hyear hrest
      rw [List.length_append]
      omega
    rw [yearText, if_neg hfour, List.cons_append]
    by_cases hneg : year < 0
    · have hvalue : -(year.natAbs : Int) = year := by omega
      rw [if_pos hneg, signedYear, dropBlanks_cons (by decide)]
      simp only [hnumber]
      exact congrArg (fun y : Int => Except.ok (y, rest)) hvalue
    · have hvalue : (year.natAbs : Int) = year := by omega
      rw [if_neg hneg, signedYear, dropBlanks_cons (by decide)]
      simp only [hnumber]
      exact congrArg (fun y : Int => Except.ok (y, rest)) hvalue

/-- Three, six or nine decimals give the nanoseconds they were cut from. -/
theorem decimals_padded {width n : Nat} (hwidth : 1 ≤ width) (hnine : width ≤ 9)
    (hn : n < 10 ^ width) (hrest : rest.head?.any Ascii.isDigit = false) :
    decimals (Ascii.padded width n ++ rest) = .ok (n * 10 ^ (9 - width), rest) := by
  have hlength : (Ascii.padded width n).length = width := Ascii.length_padded hwidth hn
  have hbound : n < 9223372036854775808 :=
    Nat.lt_of_lt_of_le hn (Nat.le_trans (Nat.pow_le_pow_right (by omega) hnine) (by omega))
  have hnumber : number 1 9 (Ascii.padded width n ++ rest) = .ok (n, rest) :=
    number_padded (by omega) (by omega) hbound hrest
  have hrun : digitRun 9 (Ascii.padded width n ++ rest) = (Ascii.padded width n, rest) :=
    digitRun_append (fun c => Ascii.isDigit_of_mem_padded) (by omega) hrest
  have hnone : rest.dropWhile Ascii.isDigit = rest := by
    cases rest with
    | nil => rfl
    | cons c rest =>
        have hc : Ascii.isDigit c = false := hrest
        simp only [List.dropWhile_cons, hc, Bool.false_eq_true, if_false]
  unfold decimals
  rw [hnumber]
  show Except.ok _ = _
  rw [hrun, hlength, hnone]
  rfl

theorem optionalDecimals_decimalsText {nanos : Nat} (h : nanos < 1000000000)
    (hdot : rest.head? ≠ some '.') (hrest : rest.head?.any Ascii.isDigit = false) :
    optionalDecimals (decimalsText nanos ++ rest) = .ok (nanos, rest) := by
  unfold decimalsText
  split
  next hzero =>
    rw [List.nil_append, hzero]
    unfold optionalDecimals
    split
    next => simp at hdot
    next => rfl
  next =>
    split
    next hmillis =>
      refine (decimals_padded (by omega) (by omega) (by omega) hrest).trans ?_
      rw [show nanos / 1000000 * 10 ^ (9 - 3) = nanos by omega]
    next =>
      split
      next hmicros =>
        refine (decimals_padded (by omega) (by omega) (by omega) hrest).trans ?_
        rw [show nanos / 1000 * 10 ^ (9 - 6) = nanos by omega]
      next =>
        refine (decimals_padded (by omega) (by omega) (by omega) hrest).trans ?_
        rw [show nanos * 10 ^ (9 - 9) = nanos by omega]

/-! ## The whole text -/

theorem head_decimalsText (nanos : Nat) :
    (decimalsText nanos ++ ['Z']).head?.any Ascii.isDigit = false := by
  unfold decimalsText
  split
  next => rfl
  next =>
    split
    next => rfl
    next => split <;> rfl

/-- The fields of an instant name it. -/
theorem instant_fields {t : Instant} (h : t.isKept = true) :
    Fields.instant ⟨t.date.year, t.date.month, t.date.day, t.secondOfDay / 3600,
      t.secondOfDay / 60 % 60, t.secondOfDay % 60, t.nanos, 0⟩ = .ok t := by
  obtain ⟨hleast, hgreatest⟩ := Instant.year_bounds h
  have hvalid : t.date.isValid = true := (Date.ofDayNumber_spec _).1
  have hsecond : ¬ t.secondOfDay % 60 = 60 := by omega
  have htime : t.secondOfDay / 3600 * 3600 + t.secondOfDay / 60 % 60 * 60 + t.secondOfDay % 60 =
      t.secondOfDay := by
    omega
  have hsame : (Instant.ofDate t.date t.secondOfDay t.nanos).addSeconds (-0) = t := by
    rw [Instant.ofDate_date, Instant.addSeconds, Int.neg_zero, Int.add_zero]
  unfold Fields.instant
  simp only [hvalid, hleast, hgreatest, decide_true, Bool.and_self, Bool.not_true,
    Bool.false_eq_true, if_false, hsecond, htime, hsame, h, if_true]
  rfl

/-- Second 60 and its decimals name the leap second after the last second of a minute. -/
theorem instant_leapSecond {t : Instant} (h : t.isKept = true)
    (hsecond : t.secondOfDay % 60 = 59) (hnanos : 1000000000 ≤ t.nanos) :
    Fields.instant ⟨t.date.year, t.date.month, t.date.day, t.secondOfDay / 3600,
      t.secondOfDay / 60 % 60, t.secondOfDay % 60 + 1, t.nanos - 1000000000, 0⟩ = .ok t := by
  rw [← instant_fields h]
  unfold Fields.instant
  simp only [hsecond, Nat.sub_add_cancel hnanos]
  rfl

/-- The last field of a leap second is written one higher, with the decimals that are left. -/
theorem exists_lastFields {t : Instant} (h : t.IsTold) :
    ∃ second nanos,
      (if t.nanos < 1000000000 then (t.secondOfDay % 60, t.nanos)
        else (t.secondOfDay % 60 + 1, t.nanos - 1000000000)) = (second, nanos) ∧
      second ≤ 60 ∧ nanos < 1000000000 ∧
      Fields.instant ⟨t.date.year, t.date.month, t.date.day, t.secondOfDay / 3600,
        t.secondOfDay / 60 % 60, second, nanos, 0⟩ = .ok t := by
  by_cases hplain : t.nanos < 1000000000
  · exact ⟨_, _, if_pos hplain, by omega, hplain, instant_fields h.kept⟩
  · obtain ⟨hbound, hlast⟩ := h.nanos.resolve_left hplain
    exact ⟨_, _, if_neg hplain, by omega, by omega, instant_leapSecond h.kept hlast (by omega)⟩

/-- A timestamp that is written with `Z` reads back as the same instant. -/
theorem readLenient_zulu {t : Instant} (h : t.IsTold) : readLenient (zulu t) = .ok t := by
  obtain ⟨hleast, hgreatest⟩ := Instant.year_bounds h.kept
  simp only [Date.leastYear, Date.greatestYear] at hleast hgreatest
  have hvalid : t.date.isValid = true := (Date.ofDayNumber_spec _).1
  obtain ⟨hmonth, hmonths, hday, hdays⟩ := Date.bounds_of_isValid hvalid
  have htime := t.secondOfDay_lt
  obtain ⟨second, nanos, hlast, hsecond, hnanos, hinstant⟩ := exists_lastFields h
  have hyear : ¬ (t.date.year < -2147483648 ∨ 2147483647 < t.date.year) := by omega
  -- Field by field: read it, find it within its bounds, and go on with what follows.
  unfold readLenient zulu localChars
  simp only [hlast, String.toList_ofList, List.append_assoc, List.cons_append]
  rw [signedYear_yearText (by omega) rfl, ok_bind, if_neg hyear]
  rw [blankedExactly_self (by decide), ok_bind, field_padded (by omega) rfl, ok_bind,
    within_of_mem ⟨hmonth, hmonths⟩, ok_bind]
  rw [blankedExactly_self (by decide), ok_bind, field_padded (by omega) rfl, ok_bind,
    within_of_mem ⟨hday, hdays⟩, ok_bind]
  rw [separator_T, ok_bind, field_padded (by omega) rfl, ok_bind,
    within_of_mem ⟨Nat.zero_le _, by omega⟩, ok_bind]
  rw [blankedExactly_self (by decide), ok_bind, field_padded (by omega) rfl, ok_bind,
    within_of_mem ⟨Nat.zero_le _, by omega⟩, ok_bind]
  rw [blankedExactly_self (by decide), ok_bind,
    field_padded (by omega) (head_decimalsText nanos), ok_bind,
    within_of_mem ⟨Nat.zero_le _, hsecond⟩, ok_bind]
  rw [optionalDecimals_decimalsText hnanos (by decide) rfl, ok_bind, lenientOffset_Z, ok_bind]
  exact hinstant

end Timestamp

/-! ## The strict reader -/

/-- An instant that RFC 3339 can write: its year has four digits, and leap seconds end minutes. -/
structure Instant.IsWritten (t : Instant) : Prop where
  year : 0 ≤ t.date.year ∧ t.date.year ≤ 9999
  nanos : t.nanos < 1000000000 ∨ t.nanos < 2000000000 ∧ t.secondOfDay % 60 = 59

theorem Instant.IsWritten.isKept {t : Instant} (h : t.IsWritten) : t.isKept = true := by
  obtain ⟨hleast, hgreatest⟩ := h.year
  obtain ⟨hstart, hend⟩ := Date.yearStart_yearOf (t.seconds / 86400)
  rw [Instant.date, Date.year_ofDayNumber] at hleast hgreatest
  simp only [Date.yearStart] at hstart hend
  refine Bool.and_eq_true_iff.mpr ⟨decide_eq_true ?_, decide_eq_true ?_⟩
  · simp only [Instant.leastSecond, Date.yearStart, Date.leastYear]
    omega
  · simp only [Instant.greatestSecond, Date.yearStart, Date.greatestYear]
    omega

theorem Instant.IsWritten.isTold {t : Instant} (h : t.IsWritten) : t.IsTold :=
  ⟨h.isKept, h.nanos⟩

/-- The nanoseconds from 1970-01-01T00:00:00Z to the end of the year 9999. -/
def Instant.limit : Int :=
  Date.yearStart 10000 * 86400 * 1000000000

theorem Instant.isWritten_ofNanos {n : Int} (h : 0 ≤ n) (hlimit : n < limit) :
    (ofNanos n).IsWritten := by
  have hyear : (ofNanos n).date.year = Date.yearOf (n / 1000000000 / 86400) := rfl
  obtain ⟨hstart, hend⟩ := Date.yearStart_yearOf (n / 1000000000 / 86400)
  simp only [limit, Date.yearStart] at hlimit
  refine ⟨?_, .inl (nanos_ofNanos_lt n)⟩
  rw [hyear]
  simp only [Date.yearStart] at hstart hend
  omega

namespace Timestamp

theorem fixed_padded {width n : Nat} (hwidth : 0 < width) (hn : n < 10 ^ width) :
    fixed width (Ascii.padded width n ++ rest) = .ok (n, rest) := by
  have hlength : (Ascii.padded width n).length = width := Ascii.length_padded hwidth hn
  have hdigits : (Ascii.padded width n).all Ascii.isDigit = true :=
    List.all_eq_true.mpr fun _ => Ascii.isDigit_of_mem_padded
  unfold fixed
  rw [List.take_left' hlength, List.drop_left' hlength]
  dsimp only
  rw [if_pos ⟨hlength, hdigits⟩, Ascii.number?_padded, Option.getD_some]

theorem exactly_self {c : Char} : exactly c (c :: rest) = .ok rest :=
  if_pos rfl

theorem offset_zero : offset (exactly ':') "+00:00".toList = .ok (0, []) :=
  rfl

/-- A timestamp in a year of four digits reads back as the same instant. -/
theorem readStrict_numeric {t : Instant} (h : t.IsWritten) : readStrict (numeric t) = .ok t := by
  obtain ⟨hleast, hgreatest⟩ := h.year
  have hvalid : t.date.isValid = true := (Date.ofDayNumber_spec _).1
  obtain ⟨hmonth, hmonths, hday, hdays⟩ := Date.bounds_of_isValid hvalid
  have htime := t.secondOfDay_lt
  obtain ⟨second, nanos, hlocal, hsecond, hnanos, hinstant⟩ := exists_lastFields h.isTold
  obtain ⟨year, hyear⟩ := Int.eq_ofNat_of_zero_le hleast
  have hyearText : yearText t.date.year = Ascii.padded 4 year := by
    rw [yearText, if_pos h.year, hyear]
    rfl
  have hchars : localChars t = Ascii.padded 4 year ++ '-' :: (Ascii.padded 2 t.date.month ++
      '-' :: (Ascii.padded 2 t.date.day ++ 'T' :: (Ascii.padded 2 (t.secondOfDay / 3600) ++
      ':' :: (Ascii.padded 2 (t.secondOfDay / 60 % 60) ++ ':' :: (Ascii.padded 2 second ++
      decimalsText nanos))))) := by
    simp only [localChars, hlocal, hyearText, List.append_assoc, List.cons_append]
  have hlength : ¬(numeric t).utf8ByteSize < leastLength := by
    have hoctets : (localChars t ++ "+00:00".toList).length ≤ (numeric t).utf8ByteSize :=
      length_le_octetLength _
    have hfour := Ascii.le_length_padded 4 year
    have htwo := Ascii.le_length_padded 2
    simp only [hchars, List.length_append, List.length_cons] at hoctets
    have hmonthText := htwo t.date.month
    have hdayText := htwo t.date.day
    have hhourText := htwo (t.secondOfDay / 3600)
    have hminuteText := htwo (t.secondOfDay / 60 % 60)
    have hsecondText := htwo second
    rw [leastLength]
    omega
  unfold readStrict
  rw [if_neg hlength]
  simp only [numeric, String.toList_ofList, hchars, List.append_assoc, List.cons_append]
  rw [fixed_padded (by omega) (by omega), ok_bind, exactly_self, ok_bind]
  rw [fixed_padded (by omega) (by omega), ok_bind, exactly_self, ok_bind]
  rw [fixed_padded (by omega) (by omega), ok_bind, ← hyear, hvalid, if_neg (by decide)]
  rw [separator_T, ok_bind, fixed_padded (by omega) (by omega), ok_bind]
  rw [exactly_self, ok_bind, fixed_padded (by omega) (by omega), ok_bind]
  rw [exactly_self, ok_bind, fixed_padded (by omega) (by omega), ok_bind]
  rw [optionalDecimals_decimalsText hnanos (by decide) rfl, ok_bind]
  rw [within_of_mem ⟨Nat.zero_le _, by omega⟩, ok_bind]
  rw [within_of_mem ⟨Nat.zero_le _, by omega⟩, ok_bind]
  rw [within_of_mem ⟨Nat.zero_le _, hsecond⟩, ok_bind, offset_zero, ok_bind]
  exact hinstant

end Timestamp

end SwarmUpkeep
