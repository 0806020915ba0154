import Mathlib.Data.List.TakeWhile
import SwarmUpkeep.Json.Document
import SwarmUpkeep.Json.Printer
import SwarmUpkeep.Proofs.Text.Digits

/-!
# Numbers read back

The characters of every number are the digits of a number in a JSON text. Those of a whole number of
64 bits write that very number; a double may be read as one next to it.
-/

namespace SwarmUpkeep.Json.Number

open Ascii (decimal isDigit)

/-- A whole number of 64 bits. -/
def IsWhole : Number → Prop
  | .whole n => leastWhole ≤ n ∧ n ≤ greatestWhole
  | .double _ => False

/-! ## Significands -/

theorem significand_le {start : Nat} (h : (start : Int) ≤ greatestWhole) (cs : List Char) :
    ((significand start cs).1 : Int) ≤ greatestWhole := by
  induction cs generalizing start with
  | nil => exact h
  | cons c cs ih =>
      unfold significand
      dsimp only
      split
      next hnext => exact ih hnext
      next => exact h

theorem toNat_of_digitValue? {c : Char} {d : Nat} (h : Ascii.digitValue? c = some d)
    (hd : d < 10) : c.toNat - 48 = d := by
  unfold Ascii.digitValue? at h
  split at h
  next => exact Option.some.inj h
  next =>
    have hcode : c.toNat = c.val.toNat := rfl
    split at h
    next hletter =>
      simp only [Char.le_def, UInt32.le_iff_toNat_le, Option.some.injEq] at hletter h
      have : 'a'.val.toNat = 97 := rfl
      omega
    next =>
      split at h
      next hletter =>
        simp only [Char.le_def, UInt32.le_iff_toNat_le, Option.some.injEq] at hletter h
        have : 'A'.val.toNat = 65 := rfl
        omega
      next => cases h

/-- Digits that 64 bits can hold make up the whole significand. -/
theorem significand_of_number? {cs : List Char} {n : Nat} (h : Ascii.number? 10 cs = some n)
    (hn : (n : Int) ≤ greatestWhole) : significand 0 cs = (n, []) := by
  unfold Ascii.number? at h
  -- What has been read from the left never gets smaller.
  have hread : ∀ start, cs.foldlM (fun value c => do
      let d ← Ascii.digitValue? c
      if d < 10 then some (value * 10 + d) else none) start = some n →
      start ≤ n ∧ significand start cs = (n, []) := by
    clear h
    induction cs with
    | nil =>
        intro start h
        cases h
        exact ⟨Nat.le_refl _, rfl⟩
    | cons c cs ih =>
        intro start h
        rw [List.foldlM_cons] at h
        obtain ⟨next, hnext, hrest⟩ := Option.bind_eq_some_iff.mp h
        obtain ⟨d, hdigit, hd⟩ := Option.bind_eq_some_iff.mp hnext
        split at hd
        next hlt =>
          cases hd
          obtain ⟨hle, hsignificand⟩ := ih _ hrest
          refine ⟨by omega, ?_⟩
          unfold significand
          dsimp only
          rw [toNat_of_digitValue? hdigit hlt, if_pos (by omega)]
          exact hsignificand
        next => cases hd
  exact (hread 0 h).2

/-! ## Parts of a number -/

/-- The sign of a number, and what is behind it. -/
def signed : List Char → Bool × List Char
  | '-' :: rest => (true, rest)
  | cs => (false, cs)

/-- The decimals of a number, and what is behind them. -/
def fractional : List Char → List Char × List Char
  | '.' :: rest => (rest.takeWhile isDigit, rest.dropWhile isDigit)
  | cs => ([], cs)

def withSign (negative : Bool) (n : Nat) : Int :=
  if negative then -n else n

theorem ofDigits?_eq (digits : List Char) :
    ofDigits? digits =
      let cs := (signed digits).2
      let tail := cs.dropWhile isDigit
      let read := significand 0 (cs.takeWhile isDigit)
      let value := withSign (signed digits).1 read.1
      if tail.isEmpty ∧ read.2.isEmpty ∧ leastWhole ≤ value ∧ ¬((signed digits).1 ∧ read.1 = 0) then
        some (.whole value)
      else
        let more := significand read.1 (fractional tail).1
        (exponentOf (fractional tail).2).bind fun exponent =>
          (Double.ofParts? (signed digits).1 more.1
            (exponent + read.2.length - ((fractional tail).1.length - more.2.length))).map
              .double :=
  rfl

/-- A whole number that is read is one of 64 bits. -/
theorem isWhole_of_ofDigits? {digits : List Char} {n : Int}
    (h : ofDigits? digits = some (.whole n)) : (Number.whole n).IsWhole := by
  rw [ofDigits?_eq] at h
  dsimp only at h
  split at h
  next hwhole =>
    cases h
    refine ⟨hwhole.2.2.1, ?_⟩
    have hle := significand_le (show ((0 : Nat) : Int) ≤ greatestWhole by decide)
      ((signed digits).2.takeWhile isDigit)
    unfold withSign
    split <;> omega
  next =>
    obtain ⟨exponent, -, h⟩ := Option.bind_eq_some_iff.mp h
    obtain ⟨d, -, h⟩ := Option.map_eq_some_iff.mp h
    cases h

/-! ## Written digits -/

/-- Digits begin with a digit. -/
theorem exists_decimal_eq_cons (n : Nat) :
    ∃ c rest, decimal n = c :: rest ∧ isDigit c = true := by
  cases hdecimal : decimal n with
  | nil => exact absurd hdecimal (Ascii.decimal_ne_nil n)
  | cons c rest =>
      exact ⟨c, rest, rfl, Ascii.isDigit_of_mem_decimal (hdecimal ▸ List.mem_cons_self)⟩

theorem ne_of_isDigit {c d : Char} (h : isDigit c = true) (hd : isDigit d = false) : c ≠ d := by
  rintro rfl
  rw [hd] at h
  cases h

theorem signed_intChars (n : Int) :
    signed (intChars n) = (decide (n < 0), decimal n.natAbs) := by
  unfold intChars
  split
  next hneg => simp [signed, hneg]
  next hpos =>
    obtain ⟨c, rest, hdecimal, hdigit⟩ := exists_decimal_eq_cons n.natAbs
    have hminus : c ≠ '-' := ne_of_isDigit hdigit rfl
    rw [hdecimal]
    simp [signed, hpos, hminus]

theorem withSign_natAbs (n : Int) : withSign (decide (n < 0)) n.natAbs = n := by
  simp only [withSign, decide_eq_true_eq]
  split <;> omega

/-- A whole number of 64 bits is read from its characters. -/
theorem ofDigits?_chars {number : Number} (h : number.IsWhole) :
    ofDigits? number.chars = some number := by
  cases number with
  | whole n =>
      have hdigits : ∀ c ∈ decimal n.natAbs, isDigit c = true :=
        fun c hc => Ascii.isDigit_of_mem_decimal hc
      have hread : significand 0 (decimal n.natAbs) = (n.natAbs, []) := by
        apply significand_of_number? (Ascii.number?_decimal _)
        have hgreatest : greatestWhole = 18446744073709551615 := rfl
        have hleast : leastWhole = -9223372036854775808 := rfl
        obtain ⟨hlow, hhigh⟩ := h
        omega
      rw [chars, ofDigits?_eq, signed_intChars]
      dsimp only
      rw [List.takeWhile_eq_self_iff.mpr hdigits, List.dropWhile_eq_nil_iff.mpr hdigits, hread]
      dsimp only
      rw [withSign_natAbs, if_pos]
      refine ⟨rfl, rfl, h.1, ?_⟩
      rintro ⟨hneg, hzero⟩
      rw [decide_eq_true_eq] at hneg
      omega
  | double d => exact h.elim

/-! ## Characters of numbers -/

theorem isNumber_eq (cs : List Char) :
    isNumber cs =
      match (signed cs).2 with
      | '0' :: rest => isNumberTail rest
      | c :: rest => isDigit c && isNumberTail (rest.dropWhile isDigit)
      | [] => false := by
  have hbehind : (signed cs).2 = match cs with
      | '-' :: rest => rest
      | _ => cs := by
    unfold signed
    split <;> rfl
  rw [hbehind]
  rfl

/-- A sign may stand in front of digits without leading zeros, and a tail behind them. -/
theorem isNumber_of_digits {cs tail : List Char} (negative : Bool)
    (hcs : ∀ c ∈ cs, isDigit c = true) (hne : cs ≠ []) (hzero : cs.head? = some '0' → cs = ['0'])
    (htail : isNumberTail tail = true) (hend : ∀ c ∈ tail.head?, isDigit c = false) :
    isNumber ((if negative then ['-'] else []) ++ (cs ++ tail)) = true := by
  have hdrop : (cs ++ tail).dropWhile isDigit = tail := by
    rw [List.dropWhile_append_of_pos hcs]
    cases tail with
    | nil => rfl
    | cons c tail => exact List.dropWhile_cons_of_neg (by simp [hend c rfl])
  obtain ⟨c, rest, rfl⟩ := List.exists_cons_of_ne_nil hne
  have hdigit : isDigit c = true := hcs c List.mem_cons_self
  rw [List.cons_append, List.dropWhile_cons_of_pos hdigit] at hdrop
  have hminus : c ≠ '-' := ne_of_isDigit hdigit rfl
  have hsigned : (signed ((if negative then ['-'] else []) ++ (c :: rest ++ tail))).2 =
      c :: (rest ++ tail) := by
    cases negative with
    | false => simp [signed, hminus]
    | true => rfl
  rw [isNumber_eq, hsigned]
  split
  next heq =>
    cases heq
    obtain rfl : rest = [] := (List.cons.inj (hzero rfl)).2
    exact htail
  next heq =>
    cases heq
    rw [hdigit, hdrop, htail]
    rfl
  next heq => cases heq

theorem isNumber_intChars (n : Int) : isNumber (intChars n) = true := by
  have hdigits := @isNumber_of_digits (decimal n.natAbs) [] (decide (n < 0))
    (fun c hc => Ascii.isDigit_of_mem_decimal hc) (Ascii.decimal_ne_nil _) (by
      intro hzero
      by_cases hn : n.natAbs = 0
      · rw [hn]
        rfl
      · exact absurd hzero (Ascii.head_decimal_ne_zero hn)) rfl (by simp)
  rw [List.append_nil] at hdigits
  unfold intChars
  split
  next hneg => simpa [hneg] using hdigits
  next hpos => simpa [hpos] using hdigits

theorem isExponent_intChars (e : Int) : isExponent ('e' :: intChars e) = true := by
  have hdigits (n : Nat) : (decimal n).all isDigit = true :=
    List.all_eq_true.mpr fun c hc => Ascii.isDigit_of_mem_decimal hc
  have hfilled (n : Nat) : (decimal n).isEmpty = false := by
    simpa using Ascii.decimal_ne_nil n
  unfold intChars
  split
  next => simp [isExponent, hdigits, hfilled]
  next =>
    obtain ⟨c, rest, hdecimal, hdigit⟩ := exists_decimal_eq_cons e.natAbs
    have hminus : c ≠ '-' := ne_of_isDigit hdigit rfl
    have hplus : c ≠ '+' := ne_of_isDigit hdigit rfl
    have hall := hdigits e.natAbs
    rw [hdecimal] at hall ⊢
    simpa [isExponent, hminus, hplus] using hall

/-- Decimals, and maybe an exponent behind them. -/
theorem isNumberTail_decimals {cs rest : List Char} (hcs : ∀ c ∈ cs, isDigit c = true)
    (hne : cs ≠ []) (hrest : rest = [] ∨ ∃ e, rest = 'e' :: intChars e) :
    isNumberTail ('.' :: (cs ++ rest)) = true := by
  have hhead : (cs ++ rest).head?.any isDigit = true := by
    obtain ⟨c, cs, rfl⟩ := List.exists_cons_of_ne_nil hne
    exact hcs c List.mem_cons_self
  have hdrop : (cs ++ rest).dropWhile isDigit = rest := by
    rw [List.dropWhile_append_of_pos hcs]
    rcases hrest with rfl | ⟨e, rfl⟩ <;> rfl
  rw [isNumberTail, hhead, hdrop, Bool.true_and]
  rcases hrest with rfl | ⟨e, rfl⟩
  · rfl
  · exact isExponent_intChars e

/-! ## Doubles -/

theorem shortest_pos {d : Double} (h : d.mantissa ≠ 0) : d.shortest.1 ≠ 0 := by
  unfold Double.shortest
  dsimp only
  cases hfound : List.findSome? (fun power => (d.decimalAt? power).map (·, power)) _ with
  | none => exact h
  | some found =>
      obtain ⟨power, -, hpower⟩ := List.exists_of_findSome?_eq_some hfound
      obtain ⟨q, hq, rfl⟩ := Option.map_eq_some_iff.mp hpower
      obtain ⟨⟨-, hpos⟩, hq⟩ := Option.ite_none_right_eq_some.mp hq
      exact Option.some.inj hq ▸ Nat.ne_of_gt hpos

/-- Digits with a point somewhere are digits without leading zeros and the tail of a number. -/
theorem exists_pointedChars {digits : List Char} (hdigits : ∀ c ∈ digits, isDigit c = true)
    (hne : digits ≠ []) (hhead : digits.head? ≠ some '0') (point : Int) :
    ∃ cs tail, pointedChars digits point = cs ++ tail ∧ (∀ c ∈ cs, isDigit c = true) ∧ cs ≠ [] ∧
      (cs.head? = some '0' → cs = ['0']) ∧ isNumberTail tail = true ∧
      ∀ c ∈ tail.head?, isDigit c = false := by
  have hzeros (n : Nat) : ∀ c ∈ List.replicate n '0', isDigit c = true := by
    intro c hc
    rw [List.eq_of_mem_replicate hc]
    rfl
  have hfront {cs : List Char} (rest : List Char) (hcs : digits = cs ++ rest) (hne : cs ≠ []) :
      cs.head? ≠ some '0' := by
    obtain ⟨c, cs, rfl⟩ := List.exists_cons_of_ne_nil hne
    rw [hcs] at hhead
    exact hhead
  unfold pointedChars
  split
  next =>
    refine ⟨digits ++ List.replicate (point.toNat - digits.length) '0', ['.', '0'], rfl,
      fun c hc => ?_, by simp [hne], fun hzero => ?_, rfl, by simp [isDigit]⟩
    · rcases List.mem_append.mp hc with hc | hc
      · exact hdigits c hc
      · exact hzeros _ c hc
    · obtain ⟨c, rest, rfl⟩ := List.exists_cons_of_ne_nil hne
      exact absurd hzero hhead
  next hlong =>
    split
    next hpoint =>
      have hinside : 0 < point.toNat ∧ point.toNat < digits.length := by omega
      have htake : digits.take point.toNat ≠ [] := by simp [hne]; omega
      refine ⟨_, _, rfl, fun c hc => hdigits c (List.mem_of_mem_take hc), htake,
        fun hzero => absurd hzero (hfront _ (List.take_append_drop _ _).symm htake), ?_,
        by simp [isDigit]⟩
      rw [← List.append_nil (digits.drop point.toNat)]
      exact isNumberTail_decimals (fun c hc => hdigits c (List.mem_of_mem_drop hc))
        (by simp; omega) (.inl rfl)
    next =>
      split
      next =>
        refine ⟨['0'], '.' :: (List.replicate (-point).toNat '0' ++ digits), rfl, by simp [isDigit],
          by simp, fun _ => rfl, ?_, by simp [isDigit]⟩
        rw [← List.append_nil (_ ++ digits)]
        refine isNumberTail_decimals (fun c hc => ?_) (by simp [hne]) (.inl rfl)
        rcases List.mem_append.mp hc with hc | hc
        · exact hzeros _ c hc
        · exact hdigits c hc
      next =>
        obtain ⟨c, rest, rfl⟩ := List.exists_cons_of_ne_nil hne
        refine ⟨[c], _, List.append_assoc _ _ _, by simpa using hdigits c (by simp), by simp,
          fun hzero => absurd hzero hhead, ?_, ?_⟩
        · split
          next => exact isExponent_intChars _
          next hmore =>
            have hrest : rest ≠ [] := by simpa using hmore
            exact isNumberTail_decimals (fun d hd => hdigits d (.tail _ hd)) hrest (.inr ⟨_, rfl⟩)
        · split <;> simp [isDigit]

theorem isNumber_doubleChars (d : Double) : isNumber d.chars = true := by
  unfold Double.chars
  dsimp only
  split
  next => cases d.negative <;> decide
  next hmantissa =>
    have hdigits := shortest_pos hmantissa
    have hall : ∀ c ∈ decimal d.shortest.1, isDigit c = true :=
      fun c hc => Ascii.isDigit_of_mem_decimal hc
    obtain ⟨cs, tail, heq, hcs, hne, hzero, htail, hend⟩ :=
      exists_pointedChars hall (Ascii.decimal_ne_nil _)
        (Ascii.head_decimal_ne_zero hdigits) ((decimal d.shortest.1).length + d.shortest.2)
    rw [heq]
    exact isNumber_of_digits d.negative hcs hne hzero htail hend

theorem isNumber_chars (number : Number) : isNumber number.chars = true := by
  cases number with
  | whole n => exact isNumber_intChars n
  | double d => exact isNumber_doubleChars d

/-! ## Tokens -/

theorem isNumberChar_of_isDigit {c : Char} (h : isDigit c = true) : isNumberChar c = true := by
  simp [isNumberChar, h]

theorem isNumberChar_of_isExponent {cs : List Char} (h : isExponent cs = true) :
    ∀ c ∈ cs, isNumberChar c = true := by
  have hdigits {ds : List Char} (h : (!ds.isEmpty && ds.all isDigit) = true) :
      ∀ d ∈ ds, isNumberChar d = true := by
    rw [Bool.and_eq_true, List.all_eq_true] at h
    exact fun d hd => isNumberChar_of_isDigit (h.2 d hd)
  cases cs with
  | nil => simp
  | cons c rest =>
      unfold isExponent at h
      rw [Bool.and_eq_true, Bool.or_eq_true, beq_iff_eq, beq_iff_eq] at h
      obtain ⟨hletter, hrest⟩ := h
      refine List.forall_mem_cons.mpr ⟨?_, ?_⟩
      · rcases hletter with rfl | rfl <;> rfl
      · split at hrest
        next => exact List.forall_mem_cons.mpr ⟨rfl, hdigits hrest⟩
        next => exact List.forall_mem_cons.mpr ⟨rfl, hdigits hrest⟩
        next => exact hdigits hrest

/-- Behind digits, what is left has to be looked at alone. -/
theorem isNumberChar_of_dropWhile {cs : List Char}
    (h : ∀ c ∈ cs.dropWhile isDigit, isNumberChar c = true) : ∀ c ∈ cs, isNumberChar c = true := by
  intro c hc
  rw [← List.takeWhile_append_dropWhile (p := isDigit) (l := cs)] at hc
  rcases List.mem_append.mp hc with hc | hc
  · exact isNumberChar_of_isDigit (List.mem_takeWhile_imp hc)
  · exact h c hc

theorem isNumberChar_of_isNumberTail {cs : List Char} (h : isNumberTail cs = true) :
    ∀ c ∈ cs, isNumberChar c = true := by
  unfold isNumberTail at h
  split at h
  next rest =>
    rw [Bool.and_eq_true] at h
    exact List.forall_mem_cons.mpr
      ⟨rfl, isNumberChar_of_dropWhile (isNumberChar_of_isExponent h.2)⟩
  next => exact isNumberChar_of_isExponent h

/-- A number starts with a sign or a digit and has no other characters than numbers have. -/
theorem exists_cons_of_isNumber {cs : List Char} (h : isNumber cs = true) :
    ∃ c rest, cs = c :: rest ∧ (c = '-' ∨ isDigit c = true) ∧
      ∀ d ∈ rest, isNumberChar d = true := by
  -- Without its sign, a number is a digit and what may follow it.
  have hunsigned : ∃ c rest, (signed cs).2 = c :: rest ∧ isDigit c = true ∧
      ∀ d ∈ rest, isNumberChar d = true := by
    rw [isNumber_eq] at h
    split at h
    next rest heq => exact ⟨_, _, heq, rfl, isNumberChar_of_isNumberTail h⟩
    next c rest _ heq =>
      rw [Bool.and_eq_true] at h
      exact ⟨c, rest, heq, h.1, isNumberChar_of_dropWhile (isNumberChar_of_isNumberTail h.2)⟩
    next => cases h
  obtain ⟨c, rest, heq, hdigit, hrest⟩ := hunsigned
  unfold signed at heq
  split at heq
  next behind =>
    obtain rfl : behind = c :: rest := heq
    exact ⟨'-', _, rfl, .inl rfl, List.forall_mem_cons.mpr ⟨isNumberChar_of_isDigit hdigit, hrest⟩⟩
  next => exact ⟨c, rest, heq, .inr hdigit, hrest⟩

/-- The characters of a number start a token and go on with it. -/
theorem exists_chars_eq_cons (number : Number) :
    ∃ c cs, number.chars = c :: cs ∧ step .between c = some (.number [c], []) ∧
      ∀ d ∈ cs, isNumberChar d = true := by
  obtain ⟨c, cs, heq, hfirst, hrest⟩ := exists_cons_of_isNumber (isNumber_chars number)
  refine ⟨c, cs, heq, ?_, hrest⟩
  rcases hfirst with rfl | hdigit
  · rfl
  · have hne {d : Char} (hd : isDigit d = false) : c ≠ d := ne_of_isDigit hdigit hd
    have hblank : isBlank c = false := by
      simp [isBlank, @hne ' ' rfl, @hne '\n' rfl, @hne '\t' rfl, @hne '\r' rfl]
    simp [step, startToken, hblank, hdigit, @hne '{' rfl, @hne '}' rfl, @hne '[' rfl,
      @hne ']' rfl, @hne ':' rfl, @hne ',' rfl, @hne '"' rfl]

end SwarmUpkeep.Json.Number
