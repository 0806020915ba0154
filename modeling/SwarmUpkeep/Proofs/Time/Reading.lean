import SwarmUpkeep.Proofs.Text.Reading
import SwarmUpkeep.Proofs.Time.Timestamp

/-!
# What the lenient reader gives

Whatever timestamp it takes, with short or signed fields, with blanks, with more decimals than
count and with any offset, the lenient reader gives an instant that its own text names. Offsets are
whole minutes, so that a leap second ends a minute of universal time as well.
-/

namespace SwarmUpkeep

namespace Timestamp

/-! ## Fields -/

theorem length_digitRun_le (most : Nat) (cs : List Char) : (digitRun most cs).1.length ≤ most := by
  induction most generalizing cs with
  | zero => exact Nat.zero_le _
  | succ most ih =>
      cases cs with
      | nil => exact Nat.zero_le _
      | cons c rest =>
          unfold digitRun
          split
          next => simpa using ih rest
          next => exact Nat.zero_le _

theorem number_gives (least most : Nat) (cs : List Char) :
    Gives (fun read => read.1 < 10 ^ (digitRun most cs).1.length) (number least most cs) := by
  unfold number
  split
  next => exact gives_error _
  next =>
    dsimp only
    split
    next => exact gives_error _
    next =>
      split
      next hnumber =>
        split
        next => exact gives_ok (Ascii.lt_pow_of_number? hnumber)
        next => exact gives_error _
      next => exact gives_error _

/-- Decimals come to less than a second. -/
theorem decimals_gives (cs : List Char) : Gives (·.1 < 1000000000) (decimals cs) := by
  refine (number_gives 1 9 cs).bind fun ⟨value, rest⟩ hvalue => gives_ok ?_
  have hnine : (digitRun 9 cs).1.length ≤ 9 := length_digitRun_le 9 cs
  calc value * 10 ^ (9 - (digitRun 9 cs).1.length)
      < 10 ^ (digitRun 9 cs).1.length * 10 ^ (9 - (digitRun 9 cs).1.length) :=
        Nat.mul_lt_mul_of_pos_right hvalue (Nat.pow_pos (by decide))
    _ = 1000000000 := by
        rw [← Nat.pow_add, Nat.add_sub_cancel' hnine]

theorem optionalDecimals_gives (cs : List Char) :
    Gives (·.1 < 1000000000) (optionalDecimals cs) := by
  unfold optionalDecimals
  split
  next => exact decimals_gives _
  next => exact gives_ok (by simp)

/-- Offsets are whole minutes. -/
theorem offset_gives (part : List Char → Except TimestampError (List Char)) (cs : List Char) :
    Gives (·.1 % 60 = 0) (offset part cs) := by
  unfold offset
  split
  next => exact gives_ok rfl
  next => exact gives_ok rfl
  next =>
    refine gives_bind fun ⟨negative, cs⟩ => gives_bind fun ⟨h₁, h₂, cs⟩ => ?_
    dsimp only
    split
    next => exact gives_error _
    next =>
      refine gives_bind fun cs => gives_bind fun ⟨m₁, m₂, cs⟩ => ?_
      dsimp only
      split
      next => exact gives_error _
      next =>
        split
        next => exact gives_error _
        next =>
          apply gives_ok
          dsimp only
          split <;> omega

theorem lenientOffset_gives (cs : List Char) : Gives (·.1 % 60 = 0) (lenientOffset cs) := by
  unfold lenientOffset
  split
  next =>
    split
    next => exact gives_ok rfl
    next => exact offset_gives _ _
  next => exact offset_gives _ _

/-! ## The whole text -/

theorem instant_gives {f : Fields} (hnanos : f.nanos < 1000000000) (hoffset : f.offset % 60 = 0) :
    Gives Instant.IsTold f.instant := by
  unfold Fields.instant
  dsimp only
  split
  next => exact gives_error _
  next =>
    split
    next => exact gives_error _
    next =>
      by_cases hleap : f.second = 60
      · simp only [if_pos hleap]
        split
        next hkept =>
          refine gives_ok ⟨hkept, .inr ⟨?_, ?_⟩⟩
          · simp only [Instant.addSeconds, Instant.ofDate]
            omega
          · simp only [Instant.secondOfDay, Instant.addSeconds, Instant.ofDate]
            omega
        next => exact gives_error _
      · simp only [if_neg hleap]
        split
        next hkept => exact gives_ok ⟨hkept, .inl hnanos⟩
        next => exact gives_error _

theorem readLenient_gives (s : String) : Gives Instant.IsTold (readLenient s) := by
  refine gives_bind fun ⟨year, cs⟩ => ?_
  dsimp only
  split
  next => exact gives_error _
  next =>
    refine gives_bind fun cs => gives_bind fun ⟨month, cs⟩ => gives_bind fun _ => ?_
    refine gives_bind fun cs => gives_bind fun ⟨day, cs⟩ => gives_bind fun _ => ?_
    refine gives_bind fun cs => gives_bind fun ⟨hour, cs⟩ => gives_bind fun _ => ?_
    refine gives_bind fun cs => gives_bind fun ⟨minute, cs⟩ => gives_bind fun _ => ?_
    refine gives_bind fun cs => gives_bind fun ⟨second, cs⟩ => gives_bind fun _ => ?_
    -- Of all fields only the decimals and the offset matter.
    refine (optionalDecimals_gives _).bind fun ⟨nanos, cs⟩ hnanos => ?_
    refine (lenientOffset_gives _).bind fun ⟨offset, cs⟩ hoffset => ?_
    dsimp only
    split
    next => exact gives_error _
    next => exact instant_gives hnanos hoffset

end Timestamp

end SwarmUpkeep
