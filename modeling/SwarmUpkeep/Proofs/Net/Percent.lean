import SwarmUpkeep.Net.Percent
import SwarmUpkeep.Proofs.Text.Digits

/-!
# Percent encoding undone

Decoding gives back the octets of an encoded text if no percent sign of the text itself stands
before two hexadecimal digits, as such a sign may be taken for an encoded octet. So two texts of
that kind never have the same encoded form.
-/

namespace SwarmUpkeep.Percent

variable {set : Char → Bool} {c : Char} {cs ds : List Char}

/-! ## Octets -/

theorem digitValue?_hexDigit {n : Nat} (h : n < 16) : Ascii.digitValue? (hexDigit n) = some n := by
  match n with
  | 0 | 1 | 2 | 3 | 4 | 5 | 6 | 7 | 8 | 9 | 10 | 11 | 12 | 13 | 14 | 15 => decide
  | _ + 16 => omega

theorem decode_encodeOctet (b : UInt8) (rest : List Char) :
    decode (encodeOctet b ++ rest) = b :: decode rest := by
  have hlast : b.toNat % 16 < 16 := Nat.mod_lt _ (by decide)
  have hfirst : b.toNat / 16 < 16 := by
    have := b.toNat_lt
    omega
  simp only [encodeOctet, List.cons_append, List.nil_append, decode, digitValue?_hexDigit hfirst,
    digitValue?_hexDigit hlast]
  rw [Nat.div_add_mod', Nat.toUInt8_eq, UInt8.ofNat_toNat]

theorem decode_octets (bs : List UInt8) (rest : List Char) :
    decode (bs.flatMap encodeOctet ++ rest) = bs ++ decode rest := by
  induction bs with
  | nil => rfl
  | cons b bs ih =>
      rw [List.flatMap_cons, List.append_assoc, decode_encodeOctet, ih]
      rfl

/-- An encoded text has none but percent signs and hexadecimal digits. -/
theorem notMem_octets (hpercent : c ≠ '%') (hdigit : Ascii.digitValue? c = none)
    (bs : List UInt8) : c ∉ bs.flatMap encodeOctet := by
  have hne : ∀ n < 16, c ≠ hexDigit n := by
    intro n hn heq
    rw [heq, digitValue?_hexDigit hn] at hdigit
    cases hdigit
  intro hmem
  obtain ⟨b, -, hb⟩ := List.mem_flatMap.mp hmem
  have := b.toNat_lt
  rcases List.mem_cons.mp hb with hfirst | hrest
  · exact hpercent hfirst
  · rcases List.mem_cons.mp hrest with hhigh | hlow
    · exact hne _ (by omega) hhigh
    · exact hne _ (Nat.mod_lt _ (by decide)) (List.mem_singleton.mp hlow)

/-! ## Percent signs -/

/-- Whether two hexadecimal digits come first. -/
def startsCode : List Char → Bool
  | a :: b :: _ => Ascii.isHexDigit a && Ascii.isHexDigit b
  | _ => false

/-- Whether no percent sign stands before two hexadecimal digits. -/
def isPlain : List Char → Bool
  | [] => true
  | c :: rest => !(c == '%' && startsCode rest) && isPlain rest

/-- A text without percent signs has no effect on what follows it. -/
theorem isPlain_append_of_notMem (h : '%' ∉ cs) (ds : List Char) :
    isPlain (cs ++ ds) = isPlain ds := by
  induction cs with
  | nil => rfl
  | cons c cs ih =>
      simp only [List.mem_cons, not_or] at h
      rw [List.cons_append, isPlain, ih h.2]
      simp [Ne.symm h.1]

theorem isPlain_of_notMem (h : '%' ∉ cs) : isPlain cs = true := by
  rw [← List.append_nil cs, isPlain_append_of_notMem h]
  rfl

/-- No code reaches over the end of a text behind which no digit comes. -/
theorem startsCode_append (hds : ∀ d ∈ ds.head?, Ascii.isHexDigit d = false) (cs : List Char) :
    startsCode (cs ++ ds) = startsCode cs := by
  match cs, ds with
  | _ :: _ :: _, _ => rfl
  | [_], [] | [], [] | [], [_] => rfl
  | [a], d :: _ => simp [startsCode, hds d rfl]
  | [], d :: _ :: _ => simp [startsCode, hds d rfl]

theorem isPlain_append (hcs : isPlain cs = true) (hds : isPlain ds = true)
    (hhead : ∀ d ∈ ds.head?, Ascii.isHexDigit d = false) : isPlain (cs ++ ds) = true := by
  induction cs with
  | nil => exact hds
  | cons c cs ih =>
      rw [isPlain, Bool.and_eq_true] at hcs
      rw [List.cons_append, isPlain, startsCode_append hhead, hcs.1, ih hcs.2]
      rfl

theorem decode_of_ne (h : c ≠ '%') (rest : List Char) :
    decode (c :: rest) = String.utf8EncodeChar c ++ decode rest := by
  rw [decode.eq_def (c :: rest)]
  split
  next heq => cases heq
  next heq =>
    cases heq
    exact absurd rfl h
  next heq =>
    cases heq
    rfl

theorem decode_percent {rest : List Char} (h : startsCode rest = false) :
    decode ('%' :: rest) = String.utf8EncodeChar '%' ++ decode rest := by
  match rest with
  | [] => rfl
  | [a] => rfl
  | a :: b :: rest =>
      rw [decode]
      split
      next hfirst hsecond => simp [startsCode, Ascii.isHexDigit, hfirst, hsecond] at h
      next => rfl

theorem utf8EncodeChar_ne_nil (c : Char) : String.utf8EncodeChar c ≠ [] := by
  intro h
  have := String.length_utf8EncodeChar c
  rw [h, List.length_nil] at this
  exact absurd this.symm (Nat.ne_of_gt c.utf8Size_pos)

/-- A character that is encoded begins with a percent sign. -/
theorem exists_encodeChar (h : set c = true) : ∃ rest, encodeChar set c = '%' :: rest := by
  rw [encodeChar, if_pos h]
  cases hoctets : String.utf8EncodeChar c with
  | nil => exact absurd hoctets (utf8EncodeChar_ne_nil c)
  | cons b bs => exact ⟨_, rfl⟩

theorem encode_cons (set : Char → Bool) (c : Char) (cs : List Char) :
    encode set (c :: cs) = encodeChar set c ++ encode set cs :=
  rfl

theorem encode_append (set : Char → Bool) (cs ds : List Char) :
    encode set (cs ++ ds) = encode set cs ++ encode set ds :=
  List.flatMap_append

/-- Characters that may stand there are left alone. -/
theorem encode_of_forall (h : ∀ c ∈ cs, set c = false) : encode set cs = cs := by
  induction cs with
  | nil => rfl
  | cons c cs ih =>
      obtain ⟨hc, hcs⟩ := List.forall_mem_cons.mp h
      rw [encode_cons, ih hcs, encodeChar, hc, if_neg Bool.false_ne_true]
      rfl

/-- A digit that comes first in an encoded text comes first in the text itself. -/
theorem cons_of_encode_eq_cons {a : Char} {rest : List Char} (ha : Ascii.isHexDigit a = true)
    (h : encode set cs = a :: rest) : ∃ ds, cs = a :: ds ∧ encode set ds = rest := by
  cases cs with
  | nil => cases h
  | cons c cs =>
      rw [encode_cons] at h
      by_cases hset : set c = true
      · obtain ⟨code, hcode⟩ := exists_encodeChar hset
        rw [hcode] at h
        cases h
        cases ha
      · rw [encodeChar, if_neg hset] at h
        cases h
        exact ⟨cs, rfl, rfl⟩

theorem startsCode_of_encode (h : startsCode (encode set cs) = true) : startsCode cs = true := by
  match hencoded : encode set cs with
  | [] | [_] => simp [hencoded, startsCode] at h
  | a :: b :: rest =>
      rw [hencoded, startsCode, Bool.and_eq_true] at h
      obtain ⟨ds, rfl, hds⟩ := cons_of_encode_eq_cons h.1 hencoded
      obtain ⟨es, rfl, _⟩ := cons_of_encode_eq_cons h.2 hds
      rw [startsCode, h.1, h.2]
      rfl

/-! ## Texts -/

/-- A text without such a percent sign is decoded to its octets. -/
theorem decode_encode (set : Char → Bool) (h : isPlain cs = true) :
    decode (encode set cs) = cs.flatMap String.utf8EncodeChar := by
  induction cs with
  | nil => rfl
  | cons c cs ih =>
      rw [isPlain, Bool.and_eq_true] at h
      rw [encode_cons, List.flatMap_cons, ← ih h.2]
      by_cases hset : set c = true
      · rw [encodeChar, if_pos hset, decode_octets]
      · rw [encodeChar, if_neg hset, List.singleton_append]
        by_cases hpercent : c = '%'
        · subst hpercent
          apply decode_percent
          rw [← Bool.not_eq_true]
          intro hcode
          simp [startsCode_of_encode hcode] at h
        · exact decode_of_ne hpercent _

theorem flatMap_utf8EncodeChar_injective
    (h : cs.flatMap String.utf8EncodeChar = ds.flatMap String.utf8EncodeChar) : cs = ds := by
  have hoctets : cs.utf8Encode = ds.utf8Encode := by
    rw [List.utf8Encode, List.utf8Encode, h]
  rw [← String.toByteArray_ofList, ← String.toByteArray_ofList, String.toByteArray_inj] at hoctets
  exact String.ofList_injective hoctets

/-- Texts without such percent signs are told apart by their encoded forms. -/
theorem encode_injective (hcs : isPlain cs = true) (hds : isPlain ds = true)
    (h : encode set cs = encode set ds) : cs = ds := by
  apply flatMap_utf8EncodeChar_injective
  rw [← decode_encode set hcs, ← decode_encode set hds, h]

end SwarmUpkeep.Percent
