import SwarmUpkeep.Net.Url.Reader
import SwarmUpkeep.Proofs.Text.Reading

/-!
# Paths that are set

A path without slashes that is no dot segment is kept as one segment, with its characters encoded.
A text that begins as an address of the secure web is read as one whose path can be set so.
-/

namespace SwarmUpkeep.Url

variable {cs segment : List Char} {url : Url}

/-! ## Segments -/

theorem segments_of_noSlash (h : ∀ c ∈ cs, isSlash true c = false) (before : List String)
    (present : List Char) :
    segments true (fun _ => false) before present cs =
      ((addSegment before (present.reverse ++ Percent.encode Percent.path cs) true).reverse, []) := by
  -- The present segment is kept in reverse.
  induction cs generalizing present with
  | nil =>
      rw [segments, Percent.encode, List.flatMap_nil, List.append_nil]
  | cons c cs ih =>
      obtain ⟨hc, hcs⟩ := List.forall_mem_cons.mp h
      rw [segments, hc, if_neg Bool.false_ne_true, if_neg Bool.false_ne_true, ih hcs]
      rw [List.reverse_append, List.reverse_reverse, List.append_assoc]
      rfl

/-- Dots and their encoded forms have no other characters. -/
theorem contains_eq_false {names : List String} {c : Char} (hc : c ∈ segment)
    (hlower : Ascii.lowerChar c = c) (hnames : ∀ name ∈ names, c ∉ name.toList) :
    names.contains (String.ofList (segment.map Ascii.lowerChar)) = false := by
  rw [List.contains_eq_mem, decide_eq_false_iff_not]
  intro hmem
  apply hnames _ hmem
  rw [String.toList_ofList, ← hlower]
  exact List.mem_map_of_mem hc

/-- A letter stays one when it is made small. -/
theorem isAlphanum_lowerChar {c : Char} (h : Ascii.isAlphanum c = true) :
    Ascii.isAlphanum (Ascii.lowerChar c) = true := by
  unfold Ascii.lowerChar
  split
  next hcapital =>
    have hletters : ∀ n : Fin 26, Ascii.isAlphanum (Char.ofNat (65 + n.val + 32)) = true := by
      decide
    have hcode : 65 ≤ c.toNat ∧ c.toNat ≤ 90 := hcapital
    have hletter := hletters ⟨c.toNat - 65, by omega⟩
    rwa [show 65 + (c.toNat - 65) = c.toNat by omega] at hletter
  next => exact h

/-- Nor have they letters or digits alone. -/
theorem contains_of_isAlphanum {names : List String} (h : ∀ c ∈ segment, Ascii.isAlphanum c = true)
    (hnames : ∀ name ∈ names, name.toList.all Ascii.isAlphanum = false) :
    names.contains (String.ofList (segment.map Ascii.lowerChar)) = false := by
  rw [List.contains_eq_mem, decide_eq_false_iff_not]
  intro hmem
  refine Bool.eq_false_iff.mp (hnames _ hmem) (List.all_eq_true.mpr fun c hc => ?_)
  rw [String.toList_ofList] at hc
  obtain ⟨d, hd, rfl⟩ := List.mem_map.mp hc
  exact isAlphanum_lowerChar (h d hd)

/-- A segment that stays as it is, wherever it stands. -/
structure IsKept (segment : List Char) : Prop where
  double : isDoubleDot segment = false
  single : isSingleDot segment = false

theorem isKept_of_mem (h : '(' ∈ segment) : IsKept segment :=
  ⟨contains_eq_false h (by decide) (by decide), contains_eq_false h (by decide) (by decide)⟩

theorem isKept_of_isAlphanum (h : ∀ c ∈ segment, Ascii.isAlphanum c = true) : IsKept segment :=
  ⟨contains_of_isAlphanum h (by decide), contains_of_isAlphanum h (by decide)⟩

theorem IsKept.addSegment (h : IsKept segment) (before : List String) (ended : Bool) :
    addSegment before segment ended = String.ofList segment :: before := by
  rw [Url.addSegment, h.double, h.single, if_neg Bool.false_ne_true, if_neg Bool.false_ne_true]

/-- An address of the secure web: it names a host, and its path is made of segments. -/
structure IsSecureWeb (url : Url) : Prop where
  scheme : url.scheme = "https"
  host : url.hasHost = true
  rooted : ∃ segments, url.path = .rooted segments

theorem IsSecureWeb.special (h : url.IsSecureWeb) : isSpecial url.scheme = true := by
  rw [h.scheme]
  rfl

/-- Only the path is set. -/
theorem withPath_eq (url : Url) (s : String) : ∃ path, url.withPath s = { url with path } := by
  unfold withPath
  split
  next => exact ⟨_, rfl⟩
  next => exact ⟨url.path, rfl⟩

/-- A text is one segment if it has no slashes, and no breaks, which are dropped, and stands for no
other segment. -/
theorem IsSecureWeb.withSegment (h : url.IsSecureWeb) {s : String}
    (hkept : IsKept (Percent.encode Percent.path s.toList))
    (hslash : ∀ c ∈ s.toList, isSlash true c = false)
    (hbreak : ∀ c ∈ s.toList, isBreak c = false) :
    url.withPath s =
      { url with path := .rooted [String.ofList (Percent.encode Percent.path s.toList)] } := by
  obtain ⟨segments, hrooted⟩ := h.rooted
  have hwhole : withoutBreaks s.toList = s.toList := by
    apply List.filter_eq_self.mpr
    intro c hc
    rw [hbreak c hc]
    rfl
  have hpath : pathAfterHost true (fun _ => false) s.toList =
      ([String.ofList (Percent.encode Percent.path s.toList)], []) := by
    cases hs : s.toList with
    | nil => rfl
    | cons c rest =>
        rw [pathAfterHost, hslash c (by simp [hs]), if_neg Bool.false_ne_true, Bool.true_or,
          if_pos rfl, ← hs, segments_of_noSlash hslash, List.reverse_nil, List.nil_append,
          hkept.addSegment]
        rfl
  unfold Url.withPath
  rw [hrooted]
  simp only [h.special, hwhole, hpath]

/-- A text with a bracket stands for no other segment. -/
theorem IsSecureWeb.withPath (h : url.IsSecureWeb) {s : String} (hopen : '(' ∈ s.toList)
    (hslash : ∀ c ∈ s.toList, isSlash true c = false)
    (hbreak : ∀ c ∈ s.toList, isBreak c = false) :
    url.withPath s =
      { url with path := .rooted [String.ofList (Percent.encode Percent.path s.toList)] } := by
  have hencoded : '(' ∈ Percent.encode Percent.path s.toList :=
    List.mem_flatMap.mpr ⟨'(', hopen, by decide⟩
  exact h.withSegment (isKept_of_mem hencoded) hslash hbreak

/-- Addresses of one place are told apart by their only segments. -/
theorem text_withSegment_inj (h : url.hasHost = true) {a b : String} :
    { url with path := .rooted [a] }.text = { url with path := .rooted [b] }.text ↔ a = b := by
  have hauthority (path : Path) : { url with path }.authorityChars = url.authorityChars := by
    cases hhost : url.host with
    | none => simp [hasHost, hhost] at h
    | some host => simp [authorityChars, hhost, userInfoChars, portChars]
  simp [text, chars, hauthority, Path.chars, segmentChars]

/-! ## Addresses of the secure web -/

theorem scheme?_https (cs : List Char) :
    scheme? ('h' :: 't' :: 't' :: 'p' :: 's' :: ':' :: cs) = some ("https", cs) := by
  have hspan : ('h' :: 't' :: 't' :: 'p' :: 's' :: ':' :: cs).span isSchemeChar =
      (['h', 't', 't', 'p', 's'], ':' :: cs) := rfl
  have hname : Ascii.lower (String.ofList ['h', 't', 't', 'p', 's']) = "https" := by decide
  simp only [scheme?, hspan, hname]
  rfl

/-- Hosts that can be reached. -/
def Host.IsNamed (host : Host) : Prop :=
  host ≠ .domain ""

theorem bracketed_gives (cs : List Char) : Gives Host.IsNamed (bracketed cs) := by
  unfold bracketed
  split
  next =>
    split
    next =>
      apply gives_ok
      simp [Host.IsNamed]
    next => exact gives_error _
  next => exact gives_error _

/-- A host is never left empty in addresses of the secure web. -/
theorem specialHost_gives (cs : List Char) : Gives Host.IsNamed (specialHost cs) := by
  unfold specialHost
  split
  next => exact gives_error _
  next => exact bracketed_gives _
  next =>
    split
    next => exact gives_error _
    next name _ =>
      split
      next => exact gives_error _
      next hname =>
        split
        next =>
          split
          next =>
            apply gives_ok
            simp [Host.IsNamed]
          next => exact gives_error _
        next =>
          apply gives_ok
          simpa [Host.IsNamed] using hname

theorem hasHost_of_isNamed {host : Host} (h : url.host = some host) (hnamed : host.IsNamed) :
    url.hasHost = true := by
  unfold hasHost
  rw [h]
  split
  next heq => cases heq
  next heq =>
    cases heq
    exact absurd rfl hnamed
  next => rfl

theorem afterSlashes_gives (cs : List Char) : Gives IsSecureWeb (afterSlashes "https" cs) := by
  have hspecial : isSpecial "https" = true := rfl
  unfold afterSlashes
  simp only [hspecial, if_true]
  refine gives_bind fun ⟨username, password, rest⟩ => (specialHost_gives _).bind fun host hhost => ?_
  dsimp only
  split
  next => exact gives_error _
  next =>
    split
    next => exact gives_bind fun _ => gives_ok ⟨rfl, hasHost_of_isNamed rfl hhost, _, rfl⟩
    next => exact gives_bind fun _ => gives_ok ⟨rfl, hasHost_of_isNamed rfl hhost, _, rfl⟩

/-- Nothing but breaks is dropped from a text that neither begins nor ends with a blank. -/
theorem input_of_edges {s : String} {first last : Char} {middle : List Char}
    (hs : s.toList = first :: (middle ++ [last])) (hfirst : isEdge first = false)
    (hlast : isEdge last = false) : input s = withoutBreaks s.toList := by
  have hend : (first :: (middle ++ [last])).reverse = last :: (first :: middle).reverse := by
    rw [← List.cons_append, List.reverse_append]
    rfl
  unfold input
  rw [hs, List.dropWhile_cons_of_neg (by simp [hfirst]), hend,
    List.dropWhile_cons_of_neg (by simp [hlast]), ← hend, List.reverse_reverse]

theorem parse_https {s : String} {middle : List Char}
    (hs : s.toList = 'h' :: 't' :: 't' :: 'p' :: 's' :: ':' :: (middle ++ ['/'])) :
    Gives IsSecureWeb (parse s) := by
  have hinput : input s =
      'h' :: 't' :: 't' :: 'p' :: 's' :: ':' :: withoutBreaks (middle ++ ['/']) := by
    rw [@input_of_edges s 'h' '/' ('t' :: 't' :: 'p' :: 's' :: ':' :: middle) hs (by decide)
      (by decide), hs]
    rfl
  unfold parse
  rw [hinput, scheme?_https]
  exact afterSlashes_gives _

end SwarmUpkeep.Url
