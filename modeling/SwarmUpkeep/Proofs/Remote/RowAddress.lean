import SwarmUpkeep.Proofs.Net.Percent
import SwarmUpkeep.Proofs.Net.Url
import SwarmUpkeep.Remote.TableApi
import SwarmUpkeep.Text.Pieces

/-!
# Addresses of rows

The address of a row holds its keys with their quotes doubled and with some characters encoded. The
quotes never let one row pass for another. The encoding does, as it leaves percent signs alone: a
key that holds the code of a character has the address of the key that holds the character itself.
As long as no percent sign in a key stands before two hexadecimal digits, every row has an address
of its own.
-/

namespace SwarmUpkeep.TableApi

variable {cs ds rest rest' : List Char}

/-! ## Quotes -/

theorem escapeChars_quote (cs : List Char) :
    escapeChars ('\'' :: cs) = '\'' :: '\'' :: escapeChars cs := by
  rw [escapeChars, if_pos rfl]

theorem escapeChars_of_ne {c : Char} (h : c ≠ '\'') (cs : List Char) :
    escapeChars (c :: cs) = c :: escapeChars cs := by
  rw [escapeChars, if_neg h]

theorem escapeChars_append (cs ds : List Char) :
    escapeChars (cs ++ ds) = escapeChars cs ++ escapeChars ds := by
  induction cs with
  | nil => rfl
  | cons c cs ih =>
      by_cases hc : c = '\''
      · subst hc
        rw [List.cons_append, escapeChars_quote, escapeChars_quote, ih]
        rfl
      · rw [List.cons_append, escapeChars_of_ne hc, escapeChars_of_ne hc, ih]
        rfl

theorem escapeChars_of_notMem (h : '\'' ∉ cs) : escapeChars cs = cs := by
  induction cs with
  | nil => rfl
  | cons c cs ih =>
      simp only [List.mem_cons, not_or] at h
      rw [escapeChars_of_ne (Ne.symm h.1), ih h.2]

theorem mem_of_mem_escapeChars {c : Char} (h : c ∈ escapeChars cs) : c ∈ cs := by
  induction cs with
  | nil => exact h
  | cons d cs ih =>
      by_cases hd : d = '\''
      · subst hd
        simp only [escapeChars_quote, List.mem_cons] at h
        grind
      · simp only [escapeChars_of_ne hd, List.mem_cons] at h
        grind

/-- Where a text inside quotes ends can be told, if no further quote follows the last one. -/
theorem escapeChars_append_quote_inj (hrest : rest.head? ≠ some '\'')
    (hrest' : rest'.head? ≠ some '\'')
    (h : escapeChars cs ++ '\'' :: rest = escapeChars ds ++ '\'' :: rest') :
    cs = ds ∧ rest = rest' := by
  induction cs generalizing ds with
  | nil =>
      cases ds with
      | nil => simpa [escapeChars] using h
      | cons d ds =>
          by_cases hd : d = '\''
          · subst hd
            simp [escapeChars] at h
            simp [h] at hrest
          · simp [escapeChars, hd, Ne.symm hd] at h
  | cons c cs ih =>
      cases ds with
      | nil =>
          by_cases hc : c = '\''
          · subst hc
            simp [escapeChars] at h
            simp [← h] at hrest'
          · simp [escapeChars, hc] at h
      | cons d ds =>
          by_cases hc : c = '\'' <;> by_cases hd : d = '\''
          · subst hc hd
            simp only [escapeChars_quote, List.cons_append, List.cons.injEq, true_and] at h
            simpa using ih h
          · simp [escapeChars, hc, hd, Ne.symm hd] at h
          · simp [escapeChars, hc, hd] at h
          · simp only [escapeChars_of_ne hc, escapeChars_of_ne hd, List.cons_append,
              List.cons.injEq] at h
            simpa [h.1] using ih h.2

/-- Quotes are not encoded, and no code has one, so it does not matter which is done first. -/
theorem encode_escapeChars (cs : List Char) :
    Percent.encode Percent.path (escapeChars cs) =
      escapeChars (Percent.encode Percent.path cs) := by
  induction cs with
  | nil => rfl
  | cons c cs ih =>
      by_cases hc : c = '\''
      · subst hc
        have hquote : Percent.encodeChar Percent.path '\'' = ['\''] := by decide
        rw [escapeChars_quote, Percent.encode_cons, Percent.encode_cons, Percent.encode_cons, ih,
          hquote, List.singleton_append, List.singleton_append, List.singleton_append,
          escapeChars_quote]
      · have hnone : '\'' ∉ Percent.encodeChar Percent.path c := by
          unfold Percent.encodeChar
          split
          · exact Percent.notMem_octets (by decide) (by decide) _
          · simpa using Ne.symm hc
        rw [escapeChars_of_ne hc, Percent.encode_cons, Percent.encode_cons, ih,
          escapeChars_append, escapeChars_of_notMem hnone]

theorem startsCode_of_escapeChars (h : Percent.startsCode (escapeChars cs) = true) :
    Percent.startsCode cs = true := by
  have hquote : Ascii.isHexDigit '\'' = false := by decide
  match cs with
  | [] => exact h
  | [c] =>
      by_cases hc : c = '\'' <;> simp [escapeChars, hc, Percent.startsCode, hquote] at h
  | c :: d :: rest =>
      by_cases hc : c = '\'' <;> by_cases hd : d = '\'' <;>
        simp [escapeChars, hc, hd, Percent.startsCode, hquote] at h ⊢
      exact h

/-- Quotes that are doubled bring no percent sign and no code. -/
theorem isPlain_escapeChars (h : Percent.isPlain cs = true) :
    Percent.isPlain (escapeChars cs) = true := by
  induction cs with
  | nil => rfl
  | cons c cs ih =>
      rw [Percent.isPlain, Bool.and_eq_true] at h
      by_cases hc : c = '\''
      · subst hc
        rw [escapeChars_quote]
        simp [Percent.isPlain, ih h.2]
      · rw [escapeChars_of_ne hc, Percent.isPlain, ih h.2, Bool.and_true]
        simp only [Bool.not_eq_true', Bool.and_eq_false_iff, beq_eq_false_iff_ne] at h ⊢
        refine h.1.imp_right fun hnone => ?_
        exact Bool.eq_false_iff.mpr fun hcode =>
          Bool.eq_false_iff.mp hnone (startsCode_of_escapeChars hcode)

/-! ## Names of rows -/

/-- Characters that may be in keys. -/
def isKeyChar (c : Char) : Bool :=
  !(c == '/' || c == '\\' || c == '#' || c == '?' || c.toNat < 0x20 ||
    (0x7F ≤ c.toNat && c.toNat ≤ 0x9F))

/-- What a row is found by. -/
structure RowName where
  table : String
  partition : String
  key : String
deriving DecidableEq

/-- Letters and digits make up the name of the table, and the keys are made of what may be in
them. -/
structure RowName.IsAllowed (row : RowName) : Prop where
  table : row.table.toList.all Ascii.isAlphanum = true
  partition : row.partition.toList.all isKeyChar = true
  key : row.key.toList.all isKeyChar = true

/-- The keys have no percent sign before two hexadecimal digits. -/
structure RowName.IsPlain (row : RowName) : Prop where
  partition : Percent.isPlain row.partition.toList = true
  key : Percent.isPlain row.key.toList = true

def RowName.url (row : RowName) (api : TableApi) : Url :=
  api.rowUrl row.table row.partition row.key

/-! ## Characters -/

theorem toNat_of_isAlphanum {c : Char} (h : Ascii.isAlphanum c = true) :
    (0x30 ≤ c.toNat ∧ c.toNat ≤ 0x39) ∨ (0x41 ≤ c.toNat ∧ c.toNat ≤ 0x5A) ∨
      (0x61 ≤ c.toNat ∧ c.toNat ≤ 0x7A) := by
  have hcode : c.toNat = c.val.toNat := rfl
  simp [Ascii.isAlphanum, Ascii.isAlpha, Ascii.isDigit, Char.le_def, UInt32.le_iff_toNat_le] at h
  omega

/-- Letters and digits are not encoded in a path. -/
theorem path_of_isAlphanum {c : Char} (h : Ascii.isAlphanum c = true) : Percent.path c = false := by
  have hcode := toNat_of_isAlphanum h
  simp [Percent.path, Percent.fragment, Percent.controls, ← Char.toNat_inj]
  omega

theorem isKeyChar_of_isAlphanum {c : Char} (h : Ascii.isAlphanum c = true) :
    isKeyChar c = true := by
  have hcode := toNat_of_isAlphanum h
  simp [isKeyChar, ← Char.toNat_inj]
  omega

theorem isSlash_of_isKeyChar {c : Char} (h : isKeyChar c = true) : Url.isSlash true c = false := by
  simp [isKeyChar, Url.isSlash, ← Char.toNat_inj] at h ⊢
  omega

theorem isBreak_of_isKeyChar {c : Char} (h : isKeyChar c = true) : Url.isBreak c = false := by
  simp [isKeyChar, Url.isBreak, ← Char.toNat_inj] at h ⊢
  omega

/-! ## Paths -/

/-- The path of a row in which the table and both keys stand. -/
def rowChars (table partition key : List Char) : List Char :=
  table ++ '(' :: ("PartitionKey='".toList ++ (escapeChars partition ++
    '\'' :: (",RowKey='".toList ++ (escapeChars key ++ ['\'', ')']))))

theorem rowChars_inj {table table' partition partition' key key' : List Char}
    (htable : '(' ∉ table) (htable' : '(' ∉ table') :
    rowChars table partition key = rowChars table' partition' key' ↔
      table = table' ∧ partition = partition' ∧ key = key' := by
  constructor
  · intro h
    have htables : table = table' := by
      have hpieces := congrArg (Text.pieces '(') h
      rw [rowChars, rowChars, Text.pieces_append_cons htable,
        Text.pieces_append_cons htable'] at hpieces
      exact (List.cons.inj hpieces).1
    subst htables
    have hpartition := List.append_cancel_left (List.cons.inj (List.append_cancel_left h)).2
    obtain ⟨rfl, hrest⟩ := escapeChars_append_quote_inj (by simp) (by simp) hpartition
    have hkey := List.append_cancel_left hrest
    obtain ⟨rfl, -⟩ := escapeChars_append_quote_inj (by simp) (by simp) hkey
    exact ⟨rfl, rfl, rfl⟩
  · rintro ⟨rfl, rfl, rfl⟩
    rfl

/-- The characters of a path of a row come from its parts or from the words around them. -/
theorem mem_rowChars {table partition key : List Char} {c : Char}
    (h : c ∈ rowChars table partition key) :
    c ∈ table ∨ c ∈ partition ∨ c ∈ key ∨ c ∈ "(PartitionKey=',RowKey=')".toList := by
  have hwords : "(PartitionKey=',RowKey=')".toList =
      '(' :: ("PartitionKey='".toList ++ (",RowKey='".toList ++ [')'])) := rfl
  rw [hwords]
  simp only [rowChars, List.mem_append, List.mem_cons] at h ⊢
  have hpartition := @mem_of_mem_escapeChars partition c
  have hkey := @mem_of_mem_escapeChars key c
  grind

theorem encode_rowChars {table : List Char} (htable : table.all Ascii.isAlphanum = true)
    (partition key : List Char) :
    Percent.encode Percent.path (rowChars table partition key) =
      rowChars table (Percent.encode Percent.path partition)
        (Percent.encode Percent.path key) := by
  have hletter : ∀ c ∈ table, Percent.path c = false := by
    intro c hc
    exact path_of_isAlphanum (List.all_eq_true.mp htable c hc)
  have hopen : Percent.encodeChar Percent.path '(' = ['('] := by decide
  have hquote : Percent.encodeChar Percent.path '\'' = ['\''] := by decide
  have hpartition : Percent.encode Percent.path "PartitionKey='".toList =
      "PartitionKey='".toList := by decide
  have hkey : Percent.encode Percent.path ",RowKey='".toList = ",RowKey='".toList := by decide
  have hend : Percent.encode Percent.path ['\'', ')'] = ['\'', ')'] := by decide
  simp only [rowChars, Percent.encode_append, Percent.encode_cons, encode_escapeChars,
    Percent.encode_of_forall hletter, hopen, hquote, hpartition, hkey, hend,
    List.singleton_append]

/-! ## Addresses -/

theorem RowName.IsAllowed.open_notMem {row : RowName} (h : row.IsAllowed) :
    '(' ∉ row.table.toList := by
  intro hopen
  exact absurd (List.all_eq_true.mp h.table _ hopen) (by decide)

theorem toList_rowPath (table partition key : String) :
    (table ++ "(PartitionKey='" ++ escape partition ++ "',RowKey='" ++ escape key ++ "')").toList =
      rowChars table.toList partition.toList key.toList := by
  simp [rowChars, escape]

/-- The place of a row: one segment, in which the keys are encoded. -/
def RowName.urlAt (row : RowName) (base : Url) : Url :=
  { base with
    path := .rooted [String.ofList (rowChars row.table.toList
      (Percent.encode Percent.path row.partition.toList)
      (Percent.encode Percent.path row.key.toList))] }

theorem RowName.IsAllowed.isKeyChar {row : RowName} (h : row.IsAllowed) :
    ∀ c ∈ rowChars row.table.toList row.partition.toList row.key.toList,
      TableApi.isKeyChar c = true := by
  intro c hc
  rcases mem_rowChars hc with htable | hpartition | hkey | hword
  · exact isKeyChar_of_isAlphanum (List.all_eq_true.mp h.table c htable)
  · exact List.all_eq_true.mp h.partition c hpartition
  · exact List.all_eq_true.mp h.key c hkey
  · have hwords : "(PartitionKey=',RowKey=')".toList.all TableApi.isKeyChar = true := by decide
    exact List.all_eq_true.mp hwords c hword

theorem RowName.url_eq {api : TableApi} {row : RowName} (hbase : api.base.IsSecureWeb)
    (hrow : row.IsAllowed) : row.url api = row.urlAt api.base := by
  have hchars := hrow.isKeyChar
  unfold RowName.url RowName.urlAt rowUrl TableApi.url
  rw [hbase.withPath, toList_rowPath, encode_rowChars hrow.table]
  · rw [toList_rowPath]
    simp [rowChars]
  · rw [toList_rowPath]
    exact fun c hc => isSlash_of_isKeyChar (hchars c hc)
  · rw [toList_rowPath]
    exact fun c hc => isBreak_of_isKeyChar (hchars c hc)

/-- What the address of a row shows of it: the table, and the keys as they are encoded. -/
def RowName.shown (row : RowName) : String × List Char × List Char :=
  (row.table, Percent.encode Percent.path row.partition.toList,
    Percent.encode Percent.path row.key.toList)

/-- Two rows have one address just if it shows the same of them. -/
theorem RowName.text_urlAt_inj {base : Url} {a b : RowName} (hhost : base.hasHost = true)
    (ha : a.IsAllowed) (hb : b.IsAllowed) :
    (a.urlAt base).text = (b.urlAt base).text ↔ a.shown = b.shown := by
  rw [urlAt, urlAt, Url.text_withSegment_inj hhost, String.ofList_inj,
    rowChars_inj (ha.open_notMem) (hb.open_notMem), String.toList_inj]
  simp [shown]

theorem RowName.IsPlain.shown_inj {a b : RowName} (ha : a.IsPlain) (hb : b.IsPlain) :
    a.shown = b.shown ↔ a = b := by
  constructor
  · intro h
    simp only [shown, Prod.mk.injEq] at h
    obtain ⟨htable, hpartition, hkey⟩ := h
    have hpartition := Percent.encode_injective ha.partition hb.partition hpartition
    have hkey := Percent.encode_injective ha.key hb.key hkey
    cases a
    cases b
    simp_all [String.toList_inj]
  · rintro rfl
    rfl

/-! ## Requests -/

/-- The row that a request is about, if it is about one row and its address names the row. -/
def row? : TableRequest → Option RowName
  | .upsert table row => some ⟨table, row.partition, row.key⟩
  | .get table partition key | .delete table partition key => some ⟨table, partition, key⟩
  | .createTable _ | .deleteTable _ | .findTable _ | .insert _ _ | .query _ _ _ _ => none

/-- A place as it is sent: what is said of a user goes into a header. -/
def sentTo (url : Url) : Url :=
  if (Request.credentials? url).isSome then url.withoutUserInfo else url

theorem hasHost_sentTo {url : Url} (h : url.hasHost = true) : (sentTo url).hasHost = true := by
  unfold sentTo
  split
  · exact h
  · exact h

theorem RowName.sentTo_urlAt (row : RowName) (base : Url) :
    sentTo (row.urlAt base) = row.urlAt (sentTo base) := by
  have hcredentials : Request.credentials? (row.urlAt base) = Request.credentials? base := rfl
  unfold sentTo
  rw [hcredentials]
  split
  · rfl
  · rfl

theorem build_url {url : Url} (hscheme : url.scheme = "https") (hhost : url.hasHost = true)
    (method : Method) (headers : List (String × String)) (body : Option String) :
    ∃ sent, Request.build method url [] headers body = .ok sent ∧ sent.url = sentTo url := by
  unfold sentTo
  split
  next hcredentials => simp [Request.build, hhost, hcredentials, Url.withoutUserInfo, hscheme]
  next hcredentials => simp [Request.build, hhost, hcredentials, hscheme]

/-- A request about a row is always made, and goes to the place of the row. -/
theorem request_row {api : TableApi} {row : RowName} {request : TableRequest}
    (hbase : api.base.IsSecureWeb) (hrow : row.IsAllowed) (hrequest : row? request = some row)
    (token : String) (now : Instant) :
    ∃ sent, api.request token now request = .ok sent ∧
      sent.url = row.urlAt (sentTo api.base) := by
  have hsecure : (row.url api).scheme = "https" ∧ (row.url api).hasHost = true := by
    rw [RowName.url_eq hbase hrow]
    exact ⟨hbase.scheme, hbase.host⟩
  rw [← RowName.sentTo_urlAt, ← RowName.url_eq hbase hrow]
  cases request with
  | upsert table row =>
      cases hrequest
      exact build_url hsecure.1 hsecure.2 _ _ _
  | get table partition key =>
      cases hrequest
      exact build_url hsecure.1 hsecure.2 _ _ _
  | delete table partition key =>
      cases hrequest
      exact build_url hsecure.1 hsecure.2 _ _ _
  | createTable | deleteTable | findTable | insert | query => cases hrequest

/-! ## Accounts -/

theorem make_base {account : String} {api : TableApi} (h : make account = .ok api) :
    api.base.IsSecureWeb := by
  unfold make at h
  split at h
  next base hparse =>
    cases h
    have haddress : ("https://" ++ account ++ ".table.core.windows.net/").toList =
        'h' :: 't' :: 't' :: 'p' :: 's' :: ':' ::
          (('/' :: '/' :: (account.toList ++ ".table.core.windows.net".toList)) ++ ['/']) := by
      simp
    exact Url.parse_https haddress base hparse
  next => cases h

/-- Two rows of an account have one address just if they are in one table and their keys are
encoded alike, and so only if they are the same row, unless a percent sign in a key stands before
two hexadecimal digits. To read, write or delete a row a request is always made, and it goes to the
place of another row just if that has the same address. -/
theorem addresses_tell_rows {account : String} {api : TableApi} {a b : RowName}
    (hmake : make account = .ok api) (ha : a.IsAllowed) (hb : b.IsAllowed) :
    ((a.url api).text = (b.url api).text ↔ a.shown = b.shown) ∧
    (a.IsPlain → b.IsPlain → ((a.url api).text = (b.url api).text ↔ a = b)) ∧
    ∀ (token token' : String) (now now' : Instant) (first second : TableRequest),
      row? first = some a → row? second = some b →
      ∃ sent sent', api.request token now first = .ok sent ∧
        api.request token' now' second = .ok sent' ∧
        (sent.url.text = sent'.url.text ↔ (a.url api).text = (b.url api).text) := by
  have hbase := make_base hmake
  have hinj := RowName.text_urlAt_inj hbase.host ha hb
  rw [← RowName.url_eq hbase ha, ← RowName.url_eq hbase hb] at hinj
  refine ⟨hinj, fun hplain hplain' => hinj.trans (hplain.shown_inj hplain'), ?_⟩
  intro token token' now now' first second hfirst hsecond
  obtain ⟨sent, hsent, hurl⟩ := request_row hbase ha hfirst token now
  obtain ⟨sent', hsent', hurl'⟩ := request_row hbase hb hsecond token' now'
  refine ⟨sent, sent', hsent, hsent', ?_⟩
  rw [hurl, hurl', RowName.text_urlAt_inj (hasHost_sentTo hbase.host) ha hb, hinj]

/-- The first key holds what follows it in the path of a row, quotes and all. -/
def quotedRow : RowName :=
  ⟨"dtrtable", "p',RowKey='x", "50% größer"⟩

def unquotedRow : RowName :=
  ⟨"dtrtable", "p", "x',RowKey='50% größer"⟩

theorem addresses_tell_rows_quoted :
    ∃ api, make "swarmsa" = .ok api ∧ quotedRow.IsAllowed ∧ unquotedRow.IsAllowed ∧
      (quotedRow.url api).text ≠ (unquotedRow.url api).text ∧
      ∃ sent sent',
        api.request "T" ⟨0, 0⟩ (.get "dtrtable" "p',RowKey='x" "50% größer") = .ok sent ∧
        api.request "T" ⟨1, 0⟩ (.delete "dtrtable" "p" "x',RowKey='50% größer") = .ok sent' ∧
        sent.url.text ≠ sent'.url.text := by
  obtain ⟨api, hmake⟩ : ∃ api, make "swarmsa" = .ok api := ⟨_, rfl⟩
  have hquoted : quotedRow.IsAllowed :=
    ⟨by decide +kernel, by decide +kernel, by decide +kernel⟩
  have hunquoted : unquotedRow.IsAllowed :=
    ⟨by decide +kernel, by decide +kernel, by decide +kernel⟩
  obtain ⟨-, hplain, hrequests⟩ := addresses_tell_rows hmake hquoted hunquoted
  have hne : (quotedRow.url api).text ≠ (unquotedRow.url api).text := by
    rw [ne_eq, hplain ⟨by decide +kernel, by decide +kernel⟩ ⟨by decide +kernel, by decide +kernel⟩]
    decide
  obtain ⟨sent, sent', hsent, hsent', hurl⟩ := hrequests "T" "T" ⟨0, 0⟩ ⟨1, 0⟩
    (.get "dtrtable" "p',RowKey='x" "50% größer") (.delete "dtrtable" "p" "x',RowKey='50% größer")
    rfl rfl
  exact ⟨api, hmake, hquoted, hunquoted, hne, sent, sent', hsent, hsent', mt hurl.mp hne⟩

/-- Two keys of which one holds the code of a blank where the other has the blank. -/
theorem spaced_rows_meet :
    ∃ api, make "swarmsa" = .ok api ∧
      RowName.IsAllowed ⟨"dtrtable", "replicas", "a b"⟩ ∧
      RowName.IsAllowed ⟨"dtrtable", "replicas", "a%20b"⟩ ∧
      RowName.url ⟨"dtrtable", "replicas", "a b"⟩ api =
        RowName.url ⟨"dtrtable", "replicas", "a%20b"⟩ api ∧
      ∀ now, api.request "T" now (.delete "dtrtable" "replicas" "a b") =
        api.request "T" now (.delete "dtrtable" "replicas" "a%20b") := by
  obtain ⟨api, hmake⟩ : ∃ api, make "swarmsa" = .ok api := ⟨_, rfl⟩
  have hspaced : RowName.IsAllowed ⟨"dtrtable", "replicas", "a b"⟩ :=
    ⟨by decide +kernel, by decide +kernel, by decide +kernel⟩
  have hcoded : RowName.IsAllowed ⟨"dtrtable", "replicas", "a%20b"⟩ :=
    ⟨by decide +kernel, by decide +kernel, by decide +kernel⟩
  have hurl : RowName.url ⟨"dtrtable", "replicas", "a b"⟩ api =
      RowName.url ⟨"dtrtable", "replicas", "a%20b"⟩ api := by
    have hbase := make_base hmake
    have hkeys : Percent.encode Percent.path "a b".toList =
        Percent.encode Percent.path "a%20b".toList := by decide
    rw [RowName.url_eq hbase hspaced, RowName.url_eq hbase hcoded, RowName.urlAt, RowName.urlAt,
      hkeys]
  refine ⟨api, hmake, hspaced, hcoded, hurl, fun now => ?_⟩
  simp only [RowName.url] at hurl
  simp only [request, hurl]

end SwarmUpkeep.TableApi
