import SwarmUpkeep.Net.Url.Basic
import SwarmUpkeep.Proofs.Net.Percent
import SwarmUpkeep.Text.Pieces

/-!
# Forms read back

Whoever receives pairs in the form encoding cuts them at ampersands, each at its first equals sign,
takes plus signs for spaces and decodes the rest. That gives back the pairs, whatever texts they are
made of.
-/

namespace SwarmUpkeep

namespace Percent

/-- Octets of a text are read as that text. -/
theorem text?_utf8 (cs : List Char) :
    text? (cs.flatMap String.utf8EncodeChar) = some (String.ofList cs) := by
  have hoctets : ByteArray.mk (cs.flatMap String.utf8EncodeChar).toArray = cs.utf8Encode := by
    simp [List.utf8Encode, ByteArray.ext_iff]
  unfold text? String.fromUTF8?
  rw [dif_pos (.intro cs hoctets)]
  refine congrArg some (String.toByteArray_inj.mp ?_)
  rw [String.toByteArray_ofList]
  exact hoctets

variable {set : Char → Bool}

/-- Where percent signs are encoded, nothing else is taken for a code. -/
theorem decode_encode_of_percent (h : set '%' = true) (cs : List Char) :
    decode (encode set cs) = cs.flatMap String.utf8EncodeChar := by
  induction cs with
  | nil => rfl
  | cons c cs ih =>
      rw [encode_cons, List.flatMap_cons, ← ih, encodeChar]
      split
      next => exact decode_octets _ _
      next hset =>
        refine decode_of_ne ?_ _
        rintro rfl
        exact hset h

/-! ## Characters of forms -/

theorem notMem_formChar {c d : Char} (hd : form d = true) (hplus : d ≠ '+') (hpercent : d ≠ '%')
    (hdigit : Ascii.digitValue? d = none) : d ∉ formChar c := by
  unfold formChar encodeChar
  split
  next => simpa using hplus
  next =>
    split
    next => exact notMem_octets hpercent hdigit _
    next hset =>
      rw [List.mem_singleton]
      rintro rfl
      exact hset hd

theorem notMem_formText {d : Char} (hd : form d = true) (hplus : d ≠ '+') (hpercent : d ≠ '%')
    (hdigit : Ascii.digitValue? d = none) (s : String) : d ∉ formText s := by
  intro hmem
  obtain ⟨c, -, hc⟩ := List.mem_flatMap.mp hmem
  exact notMem_formChar hd hplus hpercent hdigit hc

end Percent

namespace Form

open Percent

/-- A plus sign stands for a space. -/
def spaced (c : Char) : Char :=
  if c = '+' then ' ' else c

/-- The name or the value that an encoded one stands for. -/
def text? (cs : List Char) : Option String :=
  Percent.text? (decode (cs.map spaced))

/-- A name and a value around the first equals sign. -/
def pair? (cs : List Char) : Option (String × String) := do
  return (← text? (cs.takeWhile (· ≠ '=')), ← text? ((cs.dropWhile (· ≠ '=')).drop 1))

/-- The pairs between ampersands. -/
def pairs? (cs : List Char) : Option (List (String × String)) :=
  ((Text.pieces '&' cs).filter fun piece => !piece.isEmpty).mapM pair?

theorem map_spaced_formChar (c : Char) :
    (formChar c).map spaced = encodeChar (fun d => form d && d != ' ') c := by
  unfold formChar
  split
  next hblank =>
    subst hblank
    decide
  next hblank =>
    have hset : (form c && c != ' ') = form c := by simp [hblank]
    simp only [encodeChar, hset]
    split
    next =>
      have hplus : '+' ∉ (String.utf8EncodeChar c).flatMap encodeOctet :=
        notMem_octets (by decide) (by decide) _
      refine (List.map_congr_left fun d hd => ?_).trans (List.map_id _)
      refine if_neg ?_
      rintro rfl
      exact hplus hd
    next hkept =>
      refine congrArg (fun d => [d]) (if_neg ?_)
      rintro rfl
      exact hkept rfl

/-- A name or a value is read back. -/
theorem text?_formText (s : String) : text? (formText s) = some s := by
  have hmap : (formText s).map spaced = encode (fun d => form d && d != ' ') s.toList := by
    rw [formText, List.map_flatMap, encode]
    simp only [map_spaced_formChar]
  rw [text?, hmap, decode_encode_of_percent (by decide), text?_utf8, String.ofList_toList]

theorem pair?_formText (name value : String) :
    pair? (formText name ++ '=' :: formText value) = some (name, value) := by
  have hname : ∀ c ∈ formText name, decide (c ≠ '=') = true := by
    intro c hc
    rw [decide_eq_true_eq]
    rintro rfl
    exact notMem_formText (by decide) (by decide) (by decide) (by decide) name hc
  unfold pair?
  rw [List.takeWhile_append_of_pos hname, List.dropWhile_append_of_pos hname]
  simp [text?_formText]

theorem notMem_formPair (name value : String) :
    '&' ∉ formText name ++ '=' :: formText value := by
  have hnone (s : String) : '&' ∉ formText s :=
    notMem_formText (by decide) (by decide) (by decide) (by decide) s
  simp [hnone]

/-- Pairs are read back. -/
theorem pairs?_formPairs (pairs : List (String × String)) :
    pairs? (formPairs pairs) = some pairs := by
  have hfilled (name value : String) :
      (formText name ++ '=' :: formText value).isEmpty = false := by
    simp
  induction pairs with
  | nil => rfl
  | cons entry rest ih =>
      obtain ⟨name, value⟩ := entry
      cases rest with
      | nil =>
          unfold pairs? formPairs
          rw [Text.pieces_of_notMem (notMem_formPair name value)]
          simp [hfilled, pair?_formText]
      | cons next rest =>
          have hpairs : formPairs ((name, value) :: next :: rest) =
              formText name ++ '=' :: formText value ++ '&' :: formPairs (next :: rest) := rfl
          unfold pairs? at ih ⊢
          rw [hpairs, Text.pieces_append_cons (notMem_formPair name value),
            List.filter_cons_of_pos (by simp [hfilled]), List.mapM_cons, pair?_formText, ih]
          rfl

/-! ## Queries -/

theorem pairs?_append (cs ds : List Char) :
    pairs? (cs ++ '&' :: ds) = do return (← pairs? cs) ++ (← pairs? ds) := by
  unfold pairs?
  rw [Text.pieces_append, List.filter_append, List.mapM_append]

end Form

/-- The pairs in the query of a place. -/
def Url.pairs? (url : Url) : Option (List (String × String)) :=
  Form.pairs? (url.query.getD "").toList

/-- Pairs that are added to a query come behind those that it has. -/
theorem Url.pairs?_addQuery (url : Url) (pairs : List (String × String)) :
    (url.addQuery pairs).pairs? = url.pairs?.map (· ++ pairs) := by
  have hkept (query : String) :
      ((if query.isEmpty then none else some query : Option String).getD "").toList =
        query.toList := by
    split
    next hempty => rw [String.isEmpty_iff.mp hempty]; rfl
    next => rfl
  have hnone : Form.pairs? "".toList = some [] := rfl
  unfold Url.pairs? Url.addQuery
  rw [hkept]
  split
  next hquery =>
    rw [hquery, String.toList_ofList, Form.pairs?_formPairs]
    rfl
  next hquery =>
    rw [hquery, String.toList_ofList, Form.pairs?_formPairs]
    rfl
  next old hfilled hquery =>
    rw [hquery, Option.getD_some]
    split
    next hpairs =>
      rw [List.isEmpty_iff.mp hpairs]
      simp
    next =>
      have htext : (old ++ "&" ++ String.ofList (Percent.formPairs pairs)).toList =
          old.toList ++ '&' :: Percent.formPairs pairs := by
        simp
      rw [htext, Form.pairs?_append, Form.pairs?_formPairs]
      cases Form.pairs? old.toList <;> rfl

end SwarmUpkeep
