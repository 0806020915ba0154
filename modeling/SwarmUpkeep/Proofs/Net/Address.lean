import SwarmUpkeep.Net.Address
import SwarmUpkeep.Proofs.Text.Digits

/-!
# Addresses read back

The text of an address is read for that address: dotted, with colons, with a double colon in the
place of zeros, and with a dotted part at its end. No text is taken for an address of the other
version, since every text of version 6 has a colon and no text of version 4 has one.
-/

namespace SwarmUpkeep.Address

/-! ## Octets and groups -/

theorem octet?_decimal (a : UInt8) : octet? (Ascii.decimal a.toNat) = some a := by
  by_cases hzero : a = 0
  · rw [hzero]
    rfl
  · have hpos : a.toNat ≠ 0 := fun h => hzero (UInt8.toNat_inj.mp h)
    have hlt : a.toNat < 256 := a.toNat_lt
    have hhead := Ascii.head_decimal_ne_zero hpos
    have hlength : (Ascii.decimal a.toNat).length ≤ 3 :=
      Ascii.length_decimal_le (by omega) (by omega)
    have hnumber := Ascii.number?_decimal a.toNat
    have hnil := Ascii.decimal_ne_nil a.toNat
    unfold octet?
    split
    next h => exact absurd h hnil
    next h => exact absurd (congrArg List.head? h) hhead
    next h => exact absurd (congrArg List.head? h) hhead
    next =>
      rw [if_pos hlength, hnumber]
      simp [hlt]

theorem group?_hexadecimal (g : UInt16) : group? (Ascii.hexadecimal g.toNat) = some g := by
  have hlt : g.toNat < 16 ^ 4 := g.toNat_lt
  have hlength : (Ascii.hexadecimal g.toNat).length ≤ 4 :=
    (Nat.length_toDigits_le_iff (by omega) (by omega)).mpr hlt
  have hnil := Ascii.hexadecimal_ne_nil g.toNat
  unfold group?
  rw [if_neg, Ascii.number?_hexadecimal]
  · simp
  · simp [hnil, hlength]

/-- A piece with a character that is no digit is no octet. -/
theorem octet?_eq_none_of_mem {cs : List Char} {c : Char} (hc : c ∈ cs)
    (hnone : Ascii.digitValue? c = none) : octet? cs = none := by
  unfold octet?
  split
  next => rfl
  next =>
    rw [List.mem_singleton.mp hc] at hnone
    cases hnone
  next => rfl
  next =>
    rw [Ascii.number?_eq_none_of_mem hc hnone]
    exact ite_self none

theorem group?_eq_none_of_mem {cs : List Char} {c : Char} (hc : c ∈ cs)
    (hnone : Ascii.digitValue? c = none) : group? cs = none := by
  unfold group?
  rw [Ascii.number?_eq_none_of_mem hc hnone]
  exact ite_self none

/-- A group is made of its octets. -/
theorem group_octets (g : UInt16) : group (octets g).1 (octets g).2 = g := by
  have hlt : g.toNat < 65536 := g.toNat_lt
  have hlow : g.toNat % 256 < 2 ^ 8 := Nat.mod_lt _ (by omega)
  have hhigh : g.toNat >>> 8 % 256 = g.toNat / 256 := by
    rw [Nat.shiftRight_eq_div_pow]
    exact Nat.mod_eq_of_lt (by omega)
  have hshift : (g.toNat / 256) <<< 8 % 65536 = (g.toNat / 256) <<< 8 := by
    rw [Nat.shiftLeft_eq]
    exact Nat.mod_eq_of_lt (by omega)
  apply UInt16.toNat_inj.mp
  calc (group (octets g).1 (octets g).2).toNat
      = (g.toNat >>> 8 % 256) <<< 8 % 65536 ||| g.toNat % 256 := by simp [group, octets]
    _ = (g.toNat / 256) <<< 8 + g.toNat % 256 := by
      rw [hhigh, hshift, Nat.shiftLeft_add_eq_or_of_lt hlow]
    _ = g.toNat := by
      rw [Nat.shiftLeft_eq]
      omega

/-! ## Dotted addresses -/

theorem colon_notMem_decimal (n : Nat) : ':' ∉ Ascii.decimal n := by
  intro h
  have hdigit := Ascii.isDigit_of_mem_decimal h
  cases hdigit

theorem dot_notMem_decimal (n : Nat) : '.' ∉ Ascii.decimal n := by
  intro h
  have hdigit := Ascii.isDigit_of_mem_decimal h
  cases hdigit

theorem dotted?_dotted (a b c d : UInt8) : dotted? (dotted a b c d) = some (a, b, c, d) := by
  unfold dotted? dotted
  simp only [List.append_assoc, List.cons_append]
  rw [Text.pieces_append_cons (dot_notMem_decimal _),
    Text.pieces_append_cons (dot_notMem_decimal _),
    Text.pieces_append_cons (dot_notMem_decimal _), Text.pieces_of_notMem (dot_notMem_decimal _)]
  simp only [octet?_decimal]
  rfl

theorem colon_notMem_dotted (a b c d : UInt8) : ':' ∉ dotted a b c d := by
  simp [dotted, colon_notMem_decimal]

/-- A text with a colon is no dotted address. -/
theorem dotted?_eq_none_of_colon {cs : List Char} (h : ':' ∈ cs) : dotted? cs = none := by
  obtain ⟨piece, hpiece, hcolon⟩ := Text.mem_piece_of_mem h (show ':' ≠ '.' by decide)
  have hnone : octet? piece = none := octet?_eq_none_of_mem hcolon rfl
  unfold dotted?
  split
  next a b c d heq =>
    rw [heq] at hpiece
    simp only [List.mem_cons, List.not_mem_nil, or_false] at hpiece
    rcases hpiece with rfl | rfl | rfl | rfl <;> simp [hnone]
  next => rfl

/-! ## Groups with colons between them -/

theorem colon_notMem_hexadecimal (n : Nat) : ':' ∉ Ascii.hexadecimal n := by
  intro h
  have hdigit := Ascii.isHexDigit_of_mem_hexadecimal h
  cases hdigit

theorem colonSeparated_cons_cons (g h : UInt16) (rest : List UInt16) :
    colonSeparated (g :: h :: rest) =
      Ascii.hexadecimal g.toNat ++ ':' :: colonSeparated (h :: rest) :=
  rfl

/-- A stretch of groups begins with a character that is no colon. -/
theorem colonSeparated_eq_cons (g : UInt16) (rest : List UInt16) :
    ∃ c cs, colonSeparated (g :: rest) = c :: cs ∧ c ≠ ':' := by
  have hcolon := colon_notMem_hexadecimal g.toNat
  cases hdigits : Ascii.hexadecimal g.toNat with
  | nil => exact absurd hdigits (Ascii.hexadecimal_ne_nil _)
  | cons c cs =>
      rw [hdigits] at hcolon
      have hc : c ≠ ':' := fun h => hcolon (h ▸ .head _)
      cases rest with
      | nil => exact ⟨c, cs, hdigits, hc⟩
      | cons h rest =>
          refine ⟨c, cs ++ ':' :: colonSeparated (h :: rest), ?_, hc⟩
          rw [colonSeparated_cons_cons, hdigits, List.cons_append]

theorem groups?_pieces (embeds : Bool) (g : UInt16) (rest : List UInt16) :
    groups? embeds (Text.pieces ':' (colonSeparated (g :: rest))) = some (g :: rest) := by
  induction rest generalizing g with
  | nil =>
      rw [colonSeparated, Text.pieces_of_notMem (colon_notMem_hexadecimal _), groups?,
        group?_hexadecimal]
  | cons h rest ih =>
      rw [colonSeparated_cons_cons, Text.pieces_append_cons (colon_notMem_hexadecimal _), groups?,
        group?_hexadecimal, ih h]
      · rfl
      · exact fun hnil => Text.pieces_ne_nil _ _ hnil

theorem stretch?_colonSeparated (embeds : Bool) (groups : List UInt16) :
    stretch? embeds (colonSeparated groups) = some groups := by
  cases groups with
  | nil => rfl
  | cons g rest =>
      obtain ⟨c, cs, hcons, _⟩ := colonSeparated_eq_cons g rest
      unfold stretch?
      rw [if_neg, groups?_pieces]
      simp [hcons]

/-! ## The double colon -/

theorem splitDoubleColon_append {cs : List Char} (h : ':' ∉ cs) (rest : List Char) :
    splitDoubleColon (cs ++ rest) =
      (splitDoubleColon rest).map fun (before, after) => (cs ++ before, after) := by
  induction cs with
  | nil => simp
  | cons c cs ih =>
      simp only [List.mem_cons, not_or] at h
      rw [List.cons_append, splitDoubleColon, ih h.2, Option.map_map]
      · rfl
      · exact fun _ hc _ => h.1 hc.symm

/-- No double colon begins within a stretch of groups. -/
theorem splitDoubleColon_colonSeparated (groups : List UInt16) (rest : List Char) :
    splitDoubleColon (colonSeparated groups ++ rest) =
      (splitDoubleColon rest).map fun (before, after) =>
        (colonSeparated groups ++ before, after) := by
  induction groups with
  | nil => simp [colonSeparated]
  | cons g groups ih =>
      cases groups with
      | nil => exact splitDoubleColon_append (colon_notMem_hexadecimal _) rest
      | cons h groups =>
          obtain ⟨c, cs, hcons, hc⟩ := colonSeparated_eq_cons h groups
          have hcolon : splitDoubleColon (':' :: (colonSeparated (h :: groups) ++ rest)) =
              (splitDoubleColon (colonSeparated (h :: groups) ++ rest)).map
                fun (before, after) => (':' :: before, after) := by
            rw [hcons, List.cons_append, splitDoubleColon]
            intro _ _ heq
            exact hc (List.cons.inj heq).1
          rw [colonSeparated_cons_cons, List.append_assoc, List.cons_append,
            splitDoubleColon_append (colon_notMem_hexadecimal _), hcolon, ih, Option.map_map,
            Option.map_map]
          simp only [Function.comp_def, List.append_assoc, List.cons_append]

/-! ## The run of zeros that is left out -/

/-- What is found to be the longest run of zeros is one. -/
theorem longestZeroRun_le (groups : List UInt16) :
    (longestZeroRun groups).2 ≤ zeroRun (groups.drop (longestZeroRun groups).1) := by
  unfold longestZeroRun
  generalize List.range groups.length = starts
  suffices h : ∀ best : Nat × Nat, best.2 ≤ zeroRun (groups.drop best.1) →
      let found := starts.foldl
        (fun best start =>
          let length := zeroRun (groups.drop start)
          if best.2 < length then (start, length) else best) best
      found.2 ≤ zeroRun (groups.drop found.1) from h (0, 0) (Nat.zero_le _)
  induction starts with
  | nil => exact fun best hbest => hbest
  | cons start starts ih =>
      intro best hbest
      apply ih
      dsimp only
      split
      · exact Nat.le_refl _
      · exact hbest

theorem take_of_le_zeroRun {groups : List UInt16} {n : Nat} (h : n ≤ zeroRun groups) :
    groups.take n = List.replicate n 0 := by
  induction groups generalizing n with
  | nil =>
      have hzero : n = 0 := Nat.le_zero.mp h
      rw [hzero]
      rfl
  | cons g groups ih =>
      cases n with
      | zero => rfl
      | succ n =>
          unfold zeroRun at h
          rw [List.takeWhile_cons] at h
          split at h
          next hg =>
            rw [List.take_succ_cons, List.replicate_succ, beq_iff_eq.mp hg,
              ih (Nat.le_of_succ_le_succ h)]
          next => exact absurd h (Nat.not_succ_le_zero n)

/-- The groups before a run of zeros, the zeros and the groups after it are all there is. -/
theorem eq_append_zeros {groups : List UInt16} {start length : Nat}
    (h : length ≤ zeroRun (groups.drop start)) :
    groups.take start ++ List.replicate length 0 ++ groups.drop (start + length) = groups := by
  rw [← take_of_le_zeroRun h, ← List.drop_drop, List.append_assoc, List.take_append_drop,
    List.take_append_drop]

/-! ## Whole addresses -/

theorem splitDoubleColon_doubleColon (rest : List Char) :
    splitDoubleColon (':' :: ':' :: rest) = some ([], rest) := by
  rw [splitDoubleColon]

theorem v6?_colonSeparated (a b c d e f g h : UInt16) :
    v6? (colonSeparated [a, b, c, d, e, f, g, h]) = some (v6 a b c d e f g h) := by
  have hsplit := splitDoubleColon_colonSeparated [a, b, c, d, e, f, g, h] []
  rw [List.append_nil] at hsplit
  unfold v6?
  rw [hsplit, groups?_pieces]
  rfl

/-- A double colon is read for the groups that are missing. -/
theorem v6?_doubleColon {before after groups : List UInt16} {missing : Nat} (hmissing : missing ≠ 0)
    (hgroups : before ++ List.replicate missing 0 ++ after = groups) (hall : groups.length = 8) :
    v6? (colonSeparated before ++ [':', ':'] ++ colonSeparated after) = ofGroups? groups := by
  have hlength := congrArg List.length hgroups
  simp only [List.length_append, List.length_replicate] at hlength
  have hcount : 8 - (before.length + after.length) = missing := by omega
  unfold v6?
  rw [List.append_assoc, splitDoubleColon_colonSeparated, List.cons_append, List.cons_append,
    List.nil_append, splitDoubleColon_doubleColon]
  simp only [Option.map_some, List.append_nil, stretch?_colonSeparated]
  rw [← hgroups]
  simp [hcount, hmissing]

theorem v6?_compressed (a b c d e f g h : UInt16) :
    v6? (compressed [a, b, c, d, e, f, g, h]) = some (v6 a b c d e f g h) := by
  have hrun := longestZeroRun_le [a, b, c, d, e, f, g, h]
  unfold compressed
  split
  next start length heq =>
    rw [heq] at hrun
    split
    · exact v6?_colonSeparated a b c d e f g h
    · exact v6?_doubleColon (by omega) (eq_append_zeros hrun) rfl

/-- A dotted address at the end of the groups stands for the last two of them. -/
theorem groups?_dotted (a b c d : UInt8) :
    groups? true [dotted a b c d] = some [group a b, group c d] := by
  have hdot : '.' ∈ dotted a b c d := by simp [dotted]
  have hnone : group? (dotted a b c d) = none := group?_eq_none_of_mem hdot rfl
  simp [groups?, hnone, dotted?_dotted]

theorem stretch?_mapped (a b c d : UInt8) :
    stretch? true ("ffff:".toList ++ dotted a b c d) = some [0xffff, group a b, group c d] := by
  have hpieces : Text.pieces ':' ("ffff:".toList ++ dotted a b c d) =
      ["ffff".toList, dotted a b c d] := by
    have hfirst := Text.pieces_append_cons (show ':' ∉ "ffff".toList by decide) (dotted a b c d)
    rw [Text.pieces_of_notMem (colon_notMem_dotted a b c d)] at hfirst
    exact hfirst
  have hffff : group? "ffff".toList = some 0xffff := rfl
  unfold stretch?
  rw [if_neg, hpieces, groups?, hffff, groups?_dotted]
  · rfl
  · exact List.cons_ne_nil _ _
  · simp

/-- An address that embeds one of version 4 is read back from its dotted form. -/
theorem v6?_mapped (g h : UInt16) :
    v6? ("::ffff:".toList ++ dotted (octets g).1 (octets g).2 (octets h).1 (octets h).2) =
      some (v6 0 0 0 0 0 0xffff g h) := by
  have hsplit : ∀ last, splitDoubleColon ("::ffff:".toList ++ last) =
      some ([], "ffff:".toList ++ last) := fun _ => splitDoubleColon_doubleColon _
  unfold v6?
  rw [hsplit]
  simp only [stretch?_mapped, group_octets]
  rfl

theorem chars_mapped (g h : UInt16) :
    (v6 0 0 0 0 0 0xffff g h).chars =
      "::ffff:".toList ++ dotted (octets g).1 (octets g).2 (octets h).1 (octets h).2 :=
  rfl

theorem chars_compressed {a b c d e f : UInt16} (g h : UInt16)
    (hplain : ¬(a = 0 ∧ b = 0 ∧ c = 0 ∧ d = 0 ∧ e = 0 ∧ f = 0xffff)) :
    (v6 a b c d e f g h).chars = compressed [a, b, c, d, e, f, g, h] := by
  unfold chars
  split
  next heq => cases heq
  next heq =>
    obtain ⟨ha, hb, hc, hd, he, hf, _, _⟩ := v6.inj heq
    exact absurd ⟨ha, hb, hc, hd, he, hf⟩ hplain
  next heq =>
    obtain ⟨rfl, rfl, rfl, rfl, rfl, rfl, rfl, rfl⟩ := v6.inj heq
    rfl

theorem chars_v4 (a b c d : UInt8) : (v4 a b c d).chars = dotted a b c d :=
  rfl

theorem colon_mem_compressed (a b : UInt16) (rest : List UInt16) :
    ':' ∈ compressed (a :: b :: rest) := by
  unfold compressed
  split
  split
  · rw [colonSeparated_cons_cons]
    simp
  · simp

/-- Every text of version 6 has a colon and is read for its address. -/
theorem v6?_chars (a b c d e f g h : UInt16) :
    ':' ∈ (v6 a b c d e f g h).chars ∧
      v6? (v6 a b c d e f g h).chars = some (v6 a b c d e f g h) := by
  by_cases hmapped : a = 0 ∧ b = 0 ∧ c = 0 ∧ d = 0 ∧ e = 0 ∧ f = 0xffff
  · obtain ⟨rfl, rfl, rfl, rfl, rfl, rfl⟩ := hmapped
    rw [chars_mapped]
    exact ⟨List.mem_append_left _ (.head _), v6?_mapped g h⟩
  · rw [chars_compressed g h hmapped]
    exact ⟨colon_mem_compressed a b _, v6?_compressed a b c d e f g h⟩

/-- Every address is read back from its text. -/
theorem parse?_text (address : Address) : parse? address.text = some address := by
  unfold parse? text
  rw [String.toList_ofList]
  cases address with
  | v4 a b c d =>
      rw [chars_v4, v4?, dotted?_dotted]
      rfl
  | v6 a b c d e f g h =>
      obtain ⟨hcolon, hread⟩ := v6?_chars a b c d e f g h
      rw [v4?, dotted?_eq_none_of_colon hcolon, hread]
      rfl

end SwarmUpkeep.Address
