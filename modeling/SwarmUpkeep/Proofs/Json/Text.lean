import SwarmUpkeep.Proofs.Json.Members
import SwarmUpkeep.Proofs.Json.Number
import SwarmUpkeep.Proofs.Json.Token

/-!
# Values read back

The text of a value is read back as a document in which the value stands as it was written, and
that document as the value, if its numbers are whole, the names in its objects ascend, and it is not
too deep. What has been read is such a value but for its numbers: if they are whole, it can be
written and read again, whatever it holds.
-/

namespace SwarmUpkeep.Json

/-! ## Tokens -/

mutual

/-- The tokens of the text of a value. -/
def tokenList : Json → List Token
  | .null => [.null]
  | .bool b => [.bool b]
  | .num n => [.number n.chars]
  | .str s => [.string (some s)]
  | .arr items => .openArray :: itemTokens items ++ [.closeArray]
  | .obj members => .openObject :: memberTokens members ++ [.closeObject]

def itemTokens : List Json → List Token
  | [] => []
  | [item] => tokenList item
  | item :: rest => tokenList item ++ .comma :: itemTokens rest

def memberTokens : List (String × Json) → List Token
  | [] => []
  | [(name, value)] => .string (some name) :: .colon :: tokenList value
  | (name, value) :: rest =>
      .string (some name) :: .colon :: tokenList value ++ .comma :: memberTokens rest

end

/-- What may stand behind a value: a character that goes on with no word and no number. -/
def Closes (rest : List Char) : Prop :=
  ∀ c ∈ rest.head?, Ascii.isAlpha c = false ∧ isNumberChar c = false

/-- These characters are read as these tokens, whatever closes them. -/
def Reads (cs : List Char) (read : List Token) : Prop :=
  ∀ rest, Closes rest →
    tokensFrom .between (cs ++ rest) = (tokensFrom .between rest).map (read ++ ·)

/-- A token that is finished by what closes it. -/
theorem tokensFrom_finished {mode : Mode} {token : Token} {rest : List Char}
    (hfinish : finish mode = some [token])
    (hstep : ∀ c ∈ rest.head?,
      step mode c = (startToken c).map fun next => (next.1, token :: next.2)) :
    tokensFrom mode rest = (tokensFrom .between rest).map (token :: ·) := by
  cases rest with
  | nil => exact hfinish
  | cons c rest =>
      rw [tokensFrom, tokensFrom, hstep c rfl, step]
      cases startToken c with
      | none => rfl
      | some next =>
          obtain ⟨mode', tokens⟩ := next
          change (tokensFrom mode' rest).bind _ = ((tokensFrom mode' rest).bind _).map _
          cases tokensFrom mode' rest <;> rfl

/-- Characters with which an unfinished token goes on are taken one after the other. -/
theorem tokensFrom_goes {mode : List Char → Mode} {goes : Char → Bool}
    (hstep : ∀ read c, goes c = true → step (mode read) c = some (mode (c :: read), []))
    {cs : List Char} (hgoes : ∀ c ∈ cs, goes c = true) (read rest : List Char) :
    tokensFrom (mode read) (cs ++ rest) = tokensFrom (mode (cs.reverse ++ read)) rest := by
  induction cs generalizing read with
  | nil => rfl
  | cons c cs ih =>
      obtain ⟨hc, hcs⟩ := List.forall_mem_cons.mp hgoes
      rw [List.cons_append, tokensFrom_step _ (hstep read c hc), ih hcs, List.reverse_cons,
        List.append_assoc]
      rfl

theorem reads_word {c : Char} {cs : List Char} {token : Token}
    (hstart : step .between c = some (.word [c], [])) (h : cs.all Ascii.isAlpha = true)
    (htoken : wordToken? (c :: cs) = some token) : Reads (c :: cs) [token] := by
  intro rest hrest
  have hread : (cs.reverse ++ [c]).reverse = c :: cs := by simp
  have hgoes := @tokensFrom_goes .word Ascii.isAlpha (fun _ _ hd => if_pos hd) cs
    (List.all_eq_true.mp h)
  rw [List.cons_append, tokensFrom_step _ hstart, hgoes]
  apply tokensFrom_finished
  · rw [finish, hread, htoken]
    rfl
  · intro d hd
    rw [step, if_neg (by simp [(hrest d hd).1]), hread, htoken]
    cases startToken d <;> rfl

theorem reads_number (number : Number) : Reads number.chars [.number number.chars] := by
  intro rest hrest
  have hnumber : numberToken? number.chars = some (.number number.chars) :=
    if_pos (Number.isNumber_chars number)
  obtain ⟨c, cs, heq, hstart, hchars⟩ := Number.exists_chars_eq_cons number
  rw [heq] at hnumber ⊢
  have hread : (cs.reverse ++ [c]).reverse = c :: cs := by simp
  have hgoes := @tokensFrom_goes .number isNumberChar (fun _ _ hd => if_pos hd) cs hchars
  rw [List.cons_append, tokensFrom_step _ hstart, hgoes]
  apply tokensFrom_finished
  · rw [finish, hread, hnumber]
    rfl
  · intro d hd
    rw [step, if_neg (by simp [(hrest d hd).2]), hread, hnumber]
    cases startToken d <;> rfl

theorem closes_cons {c : Char} (halpha : Ascii.isAlpha c = false) (hnumber : isNumberChar c = false)
    (rest : List Char) : Closes (c :: rest) := by
  intro d hd
  cases hd
  exact ⟨halpha, hnumber⟩

/-- A list of parts between brackets. -/
theorem Reads.enclosed {cs : List Char} {read : List Token} {first last : Char}
    {opening closing : Token} (h : Reads cs read)
    (hfirst : startToken first = some (.between, [opening]))
    (hlast : startToken last = some (.between, [closing]))
    (hcloses : ∀ rest, Closes (last :: rest)) :
    Reads (first :: cs ++ [last]) (opening :: read ++ [closing]) := by
  intro rest hrest
  have hparts : first :: cs ++ [last] ++ rest = first :: (cs ++ last :: rest) := by simp
  rw [hparts, tokensFrom_punctuation hfirst, h _ (hcloses rest), tokensFrom_punctuation hlast]
  cases tokensFrom .between rest <;> simp

/-- Two parts with a comma between them. -/
theorem Reads.followed {cs ds : List Char} {read more : List Token} (h : Reads cs read)
    (hmore : Reads ds more) : Reads (cs ++ ',' :: ds) (read ++ .comma :: more) := by
  intro rest hrest
  rw [List.append_assoc, List.cons_append, h _ (closes_cons rfl rfl _), tokensFrom_punctuation rfl,
    hmore rest hrest]
  cases tokensFrom .between rest <;> simp

/-- A value under a name. -/
theorem Reads.named {cs : List Char} {read : List Token} (h : Reads cs read) (name : String) :
    Reads (quoted name ++ ':' :: cs) (.string (some name) :: .colon :: read) := by
  intro rest hrest
  rw [List.append_assoc, tokensFrom_quoted, List.cons_append, tokensFrom_punctuation rfl,
    h rest hrest]
  cases tokensFrom .between rest <;> rfl

theorem reads_nil : Reads [] [] := by
  intro rest hrest
  exact Option.map_id'.symm

mutual

/-- A value is read as its tokens. -/
theorem reads_chars (value : Json) : Reads value.chars value.tokenList := by
  cases value with
  | null => exact @reads_word 'n' ['u', 'l', 'l'] .null rfl rfl rfl
  | bool b =>
      cases b with
      | true => exact @reads_word 't' ['r', 'u', 'e'] (.bool true) rfl rfl rfl
      | false => exact @reads_word 'f' ['a', 'l', 's', 'e'] (.bool false) rfl rfl rfl
  | num n => exact reads_number n
  | str s => exact fun rest _ => tokensFrom_quoted s rest
  | arr items => exact (reads_itemChars items).enclosed rfl rfl (closes_cons rfl rfl)
  | obj members => exact (reads_memberChars members).enclosed rfl rfl (closes_cons rfl rfl)

theorem reads_itemChars (items : List Json) : Reads (itemChars items) (itemTokens items) := by
  match items with
  | [] => exact reads_nil
  | [item] => exact reads_chars item
  | item :: next :: rest => exact (reads_chars item).followed (reads_itemChars (next :: rest))

theorem reads_memberChars (members : List (String × Json)) :
    Reads (memberChars members) (memberTokens members) := by
  match members with
  | [] => exact reads_nil
  | [(name, value)] => exact (reads_chars value).named name
  | (name, value) :: next :: rest =>
      exact ((reads_chars value).named name).followed (reads_memberChars (next :: rest))

end

theorem tokens_text (value : Json) : tokens value.text = some value.tokenList := by
  have hread := reads_chars value [] (by simp [Closes])
  rw [List.append_nil] at hread
  rw [tokens, text, String.toList_ofList, hread]
  change some (value.tokenList ++ []) = _
  rw [List.append_nil]

/-! ## Documents -/

mutual

/-- What the text of a value says. -/
def document : Json → Document
  | .null => .null
  | .bool b => .bool b
  | .num n => .number n.chars
  | .str s => .string (some s)
  | .arr items => .array (itemDocuments items)
  | .obj members => .object (memberDocuments members)

def itemDocuments : List Json → List Document
  | [] => []
  | item :: rest => item.document :: itemDocuments rest

def memberDocuments : List (String × Json) → List (Option String × Document)
  | [] => []
  | (name, value) :: rest => (some name, value.document) :: memberDocuments rest

end

namespace Document

/-- The first item of an array is taken as every other value is. -/
theorem foldlM_firstItem (item : Json) (items : List Json) (frames : List Frame)
    (rest : List Token) :
    (itemTokens (item :: items) ++ rest).foldlM advance ⟨frames, .firstItem, .null⟩ =
      (itemTokens (item :: items) ++ rest).foldlM advance ⟨frames, .value, .null⟩ := by
  cases items <;> cases item <;> rfl

theorem foldlM_firstName (entry : String × Json) (members : List (String × Json))
    (frames : List Frame) (rest : List Token) :
    (memberTokens (entry :: members) ++ rest).foldlM advance ⟨frames, .firstName, .null⟩ =
      (memberTokens (entry :: members) ++ rest).foldlM advance ⟨frames, .nextName, .null⟩ := by
  cases members <;> rfl

mutual

/-- The tokens of a value hand its document to what is open around it. -/
theorem foldlM_tokenList (value : Json) (frames : List Frame) :
    value.tokenList.foldlM advance ⟨frames, .value, .null⟩ =
      some (deliver value.document frames) := by
  cases value with
  | null | bool | num | str => rfl
  | arr items =>
      change (itemTokens items ++ [Token.closeArray]).foldlM advance
        ⟨.items [] :: frames, .firstItem, .null⟩ = _
      cases items with
      | nil => rfl
      | cons item items =>
          rw [foldlM_firstItem, List.foldlM_append, foldlM_itemTokens _ (List.cons_ne_nil _ _)]
          change some (deliver (.array (List.reverse (List.reverse _ ++ []))) frames) = _
          rw [List.append_nil, List.reverse_reverse]
          rfl
  | obj members =>
      change (memberTokens members ++ [Token.closeObject]).foldlM advance
        ⟨.members [] none :: frames, .firstName, .null⟩ = _
      cases members with
      | nil => rfl
      | cons entry members =>
          rw [foldlM_firstName, List.foldlM_append, foldlM_memberTokens _ (List.cons_ne_nil _ _)]
          change some (deliver (.object (List.reverse (List.reverse _ ++ []))) frames) = _
          rw [List.append_nil, List.reverse_reverse]
          rfl

/-- The tokens of items put their documents into the array that is open. -/
theorem foldlM_itemTokens (items : List Json) (h : items ≠ []) (read : List Document)
    (frames : List Frame) :
    (itemTokens items).foldlM advance ⟨.items read :: frames, .value, .null⟩ =
      some ⟨.items ((itemDocuments items).reverse ++ read) :: frames, .separator, .null⟩ := by
  match items with
  | [item] => exact foldlM_tokenList item _
  | item :: next :: rest =>
      change (item.tokenList ++ Token.comma :: itemTokens (next :: rest)).foldlM advance _ = _
      rw [List.foldlM_append, foldlM_tokenList item]
      change (itemTokens (next :: rest)).foldlM advance ⟨.items (item.document :: read) :: frames,
        .value, .null⟩ = _
      rw [foldlM_itemTokens (next :: rest) (List.cons_ne_nil _ _)]
      change _ = some (State.mk (.items ((item.document :: itemDocuments (next :: rest)).reverse ++
        read) :: frames) _ _)
      rw [List.reverse_cons, List.append_assoc]
      rfl

theorem foldlM_memberTokens (members : List (String × Json)) (h : members ≠ [])
    (read : List (Option String × Document)) (frames : List Frame) :
    (memberTokens members).foldlM advance ⟨.members read none :: frames, .nextName, .null⟩ =
      some ⟨.members ((memberDocuments members).reverse ++ read) none :: frames, .separator,
        .null⟩ := by
  match members with
  | [(name, value)] => exact foldlM_tokenList value (.members read (some name) :: frames)
  | (name, value) :: next :: rest =>
      change (value.tokenList ++ Token.comma :: memberTokens (next :: rest)).foldlM advance
        ⟨.members read (some name) :: frames, .value, .null⟩ = _
      rw [List.foldlM_append, foldlM_tokenList value]
      change (memberTokens (next :: rest)).foldlM advance
        ⟨.members ((some name, value.document) :: read) none :: frames, .nextName, .null⟩ = _
      rw [foldlM_memberTokens (next :: rest) (List.cons_ne_nil _ _)]
      change _ = some (State.mk (.members (((some name, value.document) ::
        memberDocuments (next :: rest)).reverse ++ read) none :: frames) _ _)
      rw [List.reverse_cons, List.append_assoc]
      rfl

end

theorem parse?_text (value : Json) : parse? value.text = some value.document := by
  rw [parse?, tokens_text]
  change (value.tokenList.foldlM advance ⟨[], .value, .null⟩).bind _ = _
  rw [foldlM_tokenList]
  rfl

end Document

/-! ## Values -/

/-- A value that a text with so many levels can hold: whole numbers of 64 bits, and objects whose
names ascend. -/
inductive Fits : Nat → Json → Prop
  | null {depth : Nat} : Fits depth .null
  | bool {depth : Nat} {b : Bool} : Fits depth (.bool b)
  | num {depth : Nat} {n : Number} (h : n.IsWhole) : Fits depth (.num n)
  | str {depth : Nat} {s : String} : Fits depth (.str s)
  | arr {depth : Nat} {items : List Json} (h : ∀ item ∈ items, Fits depth item) :
      Fits (depth + 1) (.arr items)
  | obj {depth : Nat} {members : Members} (hnames : members.Ascending)
      (h : ∀ entry ∈ members, Fits depth entry.2) : Fits (depth + 1) (.obj members)

theorem Fits.succ {depth : Nat} {value : Json} (h : Fits depth value) : Fits (depth + 1) value := by
  induction h with
  | null => exact .null
  | bool => exact .bool
  | num h => exact .num h
  | str => exact .str
  | arr h ih => exact .arr ih
  | obj hnames h ih => exact .obj hnames ih

theorem Fits.insert {depth : Nat} {members : Members} {name : String} {value : Json}
    (h : Fits (depth + 1) (.obj members)) (hvalue : Fits depth value) :
    Fits (depth + 1) (.obj (members.insert name value)) := by
  cases h with
  | obj hnames h =>
      apply Fits.obj (hnames.insert name value)
      intro entry hentry
      rcases Members.eq_or_mem_of_mem_insert hentry with rfl | hentry
      · exact hvalue
      · exact h entry hentry

/-- A value without doubles, however deep. -/
inductive AllWhole : Json → Prop
  | null : AllWhole .null
  | bool {b : Bool} : AllWhole (.bool b)
  | num {n : Int} : AllWhole (.num (.whole n))
  | str {s : String} : AllWhole (.str s)
  | arr {items : List Json} (h : ∀ item ∈ items, AllWhole item) : AllWhole (.arr items)
  | obj {members : Members} (h : ∀ entry ∈ members, AllWhole entry.2) : AllWhole (.obj members)

namespace Document

mutual

/-- What is read fits if it has no doubles. -/
theorem fits_of_value? {depth : Nat} (d : Document) {value : Json}
    (h : value? depth d = some value) (hwhole : value.AllWhole) : Fits depth value := by
  cases d with
  | null =>
      cases h
      exact .null
  | bool b =>
      cases h
      exact .bool
  | number digits =>
      obtain ⟨n, hn, rfl⟩ := Option.map_eq_some_iff.mp h
      cases hwhole with
      | num => exact .num (Number.isWhole_of_ofDigits? hn)
  | string content =>
      obtain ⟨s, -, rfl⟩ := Option.map_eq_some_iff.mp h
      exact .str
  | array items =>
      cases depth with
      | zero => cases h
      | succ depth =>
          obtain ⟨values, hvalues, rfl⟩ := Option.map_eq_some_iff.mp h
          cases hwhole with
          | arr hitems =>
              exact .arr fun item hitem =>
                fits_of_itemValues? items hvalues item hitem (hitems item hitem)
  | object members =>
      cases depth with
      | zero => cases h
      | succ depth =>
          obtain ⟨pairs, hpairs, rfl⟩ := Option.map_eq_some_iff.mp h
          cases hwhole with
          | obj hmembers =>
              apply Fits.obj (Members.ascending_ofPairs pairs)
              intro entry hentry
              exact fits_of_memberValues? members hpairs entry (Members.mem_of_mem_ofPairs hentry)
                (hmembers entry hentry)

theorem fits_of_itemValues? {depth : Nat} (items : List Document) {values : List Json}
    (h : itemValues? depth items = some values) :
    ∀ value ∈ values, value.AllWhole → Fits depth value := by
  match items with
  | [] =>
      cases h
      simp
  | d :: rest =>
      obtain ⟨first, hfirst, h⟩ := Option.bind_eq_some_iff.mp h
      obtain ⟨others, hothers, h⟩ := Option.bind_eq_some_iff.mp h
      cases h
      exact List.forall_mem_cons.mpr ⟨fits_of_value? d hfirst, fits_of_itemValues? rest hothers⟩

theorem fits_of_memberValues? {depth : Nat} (members : List (Option String × Document))
    {pairs : List (String × Json)} (h : memberValues? depth members = some pairs) :
    ∀ entry ∈ pairs, entry.2.AllWhole → Fits depth entry.2 := by
  match members with
  | [] =>
      cases h
      simp
  | (name, d) :: rest =>
      obtain ⟨key, -, h⟩ := Option.bind_eq_some_iff.mp h
      obtain ⟨first, hfirst, h⟩ := Option.bind_eq_some_iff.mp h
      obtain ⟨others, hothers, h⟩ := Option.bind_eq_some_iff.mp h
      cases h
      exact List.forall_mem_cons.mpr ⟨fits_of_value? d hfirst, fits_of_memberValues? rest hothers⟩

end

theorem itemValues?_itemDocuments {depth : Nat} {items : List Json}
    (h : ∀ item ∈ items, value? depth item.document = some item) :
    itemValues? depth (itemDocuments items) = some items := by
  induction items with
  | nil => rfl
  | cons item items ih =>
      obtain ⟨hitem, hitems⟩ := List.forall_mem_cons.mp h
      rw [itemDocuments, itemValues?, hitem, ih hitems]
      rfl

theorem memberValues?_memberDocuments {depth : Nat} {members : List (String × Json)}
    (h : ∀ entry ∈ members, value? depth entry.2.document = some entry.2) :
    memberValues? depth (memberDocuments members) = some members := by
  induction members with
  | nil => rfl
  | cons entry members ih =>
      obtain ⟨hentry, hmembers⟩ := List.forall_mem_cons.mp h
      rw [memberDocuments, memberValues?, hentry, ih hmembers]
      rfl

/-- What fits is read from its document. -/
theorem value?_document {depth : Nat} {value : Json} (h : Fits depth value) :
    value? depth value.document = some value := by
  induction h with
  | null | bool | str => rfl
  | num h =>
      rw [document, value?, Number.ofDigits?_chars h]
      rfl
  | arr h ih =>
      rw [document, value?, itemValues?_itemDocuments ih]
      rfl
  | obj hnames h ih =>
      rw [document, value?, memberValues?_memberDocuments ih, Option.map_some, Json.object,
        hnames.ofPairs_eq]

end Document

/-- What fits is read from its text. -/
theorem parse?_text {value : Json} (h : Fits Document.depthLimit value) :
    parse? value.text = some value := by
  rw [parse?, Document.parse?_text]
  exact Document.value?_document h

end SwarmUpkeep.Json
