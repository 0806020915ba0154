import SwarmUpkeep.Json.Printer
import SwarmUpkeep.Json.Token

/-!
# Tokens of written text

A string that has been written is one token, which holds the text of the string. Each character of
it takes the automaton, whether it is escaped or not, from one place inside the string to the next.
-/

namespace SwarmUpkeep.Json

theorem tokensFrom_step {mode : Mode} (mode' : Mode) {c : Char}
    (h : step mode c = some (mode', [])) (rest : List Char) :
    tokensFrom mode (c :: rest) = tokensFrom mode' rest := by
  rw [tokensFrom, h]
  show (tokensFrom mode' rest).bind (fun tokens => some ([] ++ tokens)) = _
  cases tokensFrom mode' rest <;> rfl

theorem tokensFrom_token {mode mode' : Mode} {c : Char} {token : Token}
    (h : step mode c = some (mode', [token])) (rest : List Char) :
    tokensFrom mode (c :: rest) = (tokensFrom mode' rest).map (token :: ·) := by
  rw [tokensFrom, h]
  show (tokensFrom mode' rest).bind (fun tokens => some ([token] ++ tokens)) = _
  cases tokensFrom mode' rest <;> rfl

theorem tokensFrom_punctuation {c : Char} {token : Token}
    (h : startToken c = some (.between, [token])) (rest : List Char) :
    tokensFrom .between (c :: rest) = (tokensFrom .between rest).map (token :: ·) :=
  @tokensFrom_token .between .between c token h rest

/-! ## Characters of a string -/

/-- The piece that stands for one character. -/
def Piece.Is (c : Char) (piece : Piece) : Prop :=
  ∀ pieces, Piece.chars? (piece :: pieces) = (Piece.chars? pieces).map (c :: ·)

theorem Piece.char_is (c : Char) : Piece.Is c (.char c) :=
  fun _ => rfl

/-- A control character is no half of a surrogate pair. -/
theorem Piece.unit_is {c : Char} (h : c.toNat < 0x20) : Piece.Is c (.unit c.toNat) := by
  intro pieces
  have hhigh : isHighSurrogate c.toNat = false := by
    simp only [isHighSurrogate, Bool.and_eq_false_iff, decide_eq_false_iff_not]
    omega
  have hlow : isLowSurrogate c.toNat = false := by
    simp only [isLowSurrogate, Bool.and_eq_false_iff, decide_eq_false_iff_not]
    omega
  refine (Piece.chars?.eq_def _).trans ?_
  simp only [hhigh, hlow, Bool.false_eq_true, if_false, Char.ofNat_toNat]

/-- The four digits of an escaped control character give its number. -/
theorem number?_code :
    ∀ n < 0x20, Ascii.isHexDigit (n / 16).digitChar = true ∧
      Ascii.isHexDigit (n % 16).digitChar = true ∧
      Ascii.number? 16 ['0', '0', (n / 16).digitChar, (n % 16).digitChar] = some n := by
  decide

/-- An escape of one letter. -/
theorem tokensFrom_letter {read : List Piece} {letter c : Char} (hletter : letter ≠ 'u')
    (h : escaped? letter = some c) (rest : List Char) :
    tokensFrom (.string read) ('\\' :: letter :: rest) =
      tokensFrom (.string (.char c :: read)) rest := by
  have hstep : step (.escape read) letter = some (.string (.char c :: read), []) := by
    simp only [step, if_neg hletter, h, Option.map_some]
  rw [tokensFrom_step (.escape read) rfl, tokensFrom_step _ hstep]

/-- An escape of a control character by its number. -/
theorem tokensFrom_code {read : List Piece} {n : Nat} (h : n < 0x20) (rest : List Char) :
    tokensFrom (.string read)
        ('\\' :: 'u' :: '0' :: '0' :: (n / 16).digitChar :: (n % 16).digitChar :: rest) =
      tokensFrom (.string (.unit n :: read)) rest := by
  obtain ⟨hfirst, hsecond, hnumber⟩ := number?_code n h
  have hthird : step (.code read ['0', '0']) (n / 16).digitChar =
      some (.code read ['0', '0', (n / 16).digitChar], []) := by
    simp only [step, hfirst, if_true]
    rfl
  have hfourth : step (.code read ['0', '0', (n / 16).digitChar]) (n % 16).digitChar =
      some (.string (.unit n :: read), []) := by
    simp only [step, hsecond, if_true, List.cons_append, List.nil_append, hnumber]
    rfl
  rw [tokensFrom_step (.escape read) rfl, tokensFrom_step (.code read []) rfl,
    tokensFrom_step (.code read ['0']) rfl,
    tokensFrom_step (.code read ['0', '0']) rfl, tokensFrom_step _ hthird,
    tokensFrom_step _ hfourth]

/-- A character is written by an escape of one letter, by its number, or as it stands. -/
theorem escapeChar_cases (c : Char) :
    (∃ letter, letter ≠ 'u' ∧ escaped? letter = some c ∧ escapeChar c = ['\\', letter]) ∨
      (c.toNat < 0x20 ∧ escapeChar c =
        ['\\', 'u', '0', '0', (c.toNat / 16).digitChar, (c.toNat % 16).digitChar]) ∨
      (c ≠ '"' ∧ c ≠ '\\' ∧ ¬ c.toNat < 0x20 ∧ escapeChar c = [c]) := by
  by_cases hletter : ∃ letter, letter ≠ 'u' ∧ escaped? letter = some c ∧
      escapeChar c = ['\\', letter]
  · exact .inl hletter
  · -- A character that no letter escapes is none of those that have one.
    have hother {d letter : Char} (hu : letter ≠ 'u') (h : escaped? letter = some d)
        (hd : escapeChar d = ['\\', letter]) : c ≠ d := by
      rintro rfl
      exact hletter ⟨letter, hu, h, hd⟩
    have hquote : c ≠ '"' := @hother _ '"' (by decide) rfl rfl
    have hslash : c ≠ '\\' := @hother _ '\\' (by decide) rfl rfl
    have hback : c ≠ '\x08' := @hother _ 'b' (by decide) rfl rfl
    have hfeed : c ≠ '\x0c' := @hother _ 'f' (by decide) rfl rfl
    have hline : c ≠ '\n' := @hother _ 'n' (by decide) rfl rfl
    have hreturn : c ≠ '\r' := @hother _ 'r' (by decide) rfl rfl
    have htab : c ≠ '\t' := @hother _ 't' (by decide) rfl rfl
    rw [escapeChar, if_neg hquote, if_neg hslash, if_neg hback, if_neg hfeed, if_neg hline,
      if_neg hreturn, if_neg htab]
    by_cases hcontrol : c.toNat < 0x20
    · exact .inr (.inl ⟨hcontrol, if_pos hcontrol⟩)
    · exact .inr (.inr ⟨hquote, hslash, hcontrol, if_neg hcontrol⟩)

/-- A written character is read as a piece that stands for it. -/
theorem tokensFrom_escapeChar (c : Char) :
    ∃ piece, Piece.Is c piece ∧ ∀ read rest,
      tokensFrom (.string read) (escapeChar c ++ rest) =
        tokensFrom (.string (piece :: read)) rest := by
  rcases escapeChar_cases c with ⟨letter, hu, hescaped, heq⟩ | ⟨hcontrol, heq⟩ |
    ⟨hquote, hslash, hprints, heq⟩
  · refine ⟨.char c, Piece.char_is c, fun read rest => ?_⟩
    rw [heq]
    exact tokensFrom_letter hu hescaped rest
  · refine ⟨.unit c.toNat, Piece.unit_is hcontrol, fun read rest => ?_⟩
    rw [heq]
    exact tokensFrom_code hcontrol rest
  · refine ⟨.char c, Piece.char_is c, fun read rest => ?_⟩
    have hstep : step (.string read) c = some (.string (.char c :: read), []) := by
      simp only [step, if_neg hquote, if_neg hslash, if_neg hprints]
    rw [heq]
    exact tokensFrom_step _ hstep rest

/-- So are all the characters of a text, one after another. -/
theorem tokensFrom_escaped (cs : List Char) :
    ∃ pieces, Piece.chars? pieces = some cs ∧ ∀ read rest,
      tokensFrom (.string read) (cs.flatMap escapeChar ++ rest) =
        tokensFrom (.string (pieces.reverse ++ read)) rest := by
  -- The pieces come out in the order of the characters, though they are kept in reverse.
  induction cs with
  | nil => exact ⟨[], rfl, fun read rest => rfl⟩
  | cons c cs ih =>
      obtain ⟨piece, hpiece, hchar⟩ := tokensFrom_escapeChar c
      obtain ⟨pieces, hpieces, hchars⟩ := ih
      refine ⟨piece :: pieces, ?_, fun read rest => ?_⟩
      · rw [hpiece, hpieces]
        rfl
      · rw [List.flatMap_cons, List.append_assoc, hchar, hchars, List.reverse_cons,
          List.append_assoc, List.singleton_append]

/-- A written string is one token with the text of the string. -/
theorem tokensFrom_quoted (s : String) (rest : List Char) :
    tokensFrom .between (quoted s ++ rest) =
      (tokensFrom .between rest).map (.string (some s) :: ·) := by
  obtain ⟨pieces, hpieces, hchars⟩ := tokensFrom_escaped s.toList
  have hclose : step (.string pieces.reverse) '"' = some (.between, [.string (some s)]) := by
    simp only [step, if_true, List.reverse_reverse, hpieces, Option.map_some, String.ofList_toList]
  have hquoted : quoted s ++ rest = '"' :: (s.toList.flatMap escapeChar ++ '"' :: rest) := by
    simp only [quoted, List.cons_append, List.append_assoc, List.nil_append]
  rw [hquoted, tokensFrom_step (.string []) rfl, hchars, List.append_nil,
    tokensFrom_token hclose]

end SwarmUpkeep.Json
