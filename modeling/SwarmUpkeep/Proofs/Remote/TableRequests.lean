import SwarmUpkeep.Proofs.Json.Text
import SwarmUpkeep.Proofs.Remote.RowForm

/-!
# Requests as the service reads them

A table service takes from a request what is asked of it. The path names a table, all rows of one,
an entry of the table of tables, or a row by its keys in quotes; the method and the body say what is
to be done there, and the query says which rows are looked for, how many of them and from where on.

The reading stands here by itself. Whatever is asked with names and keys that fit into a path is
read again from the request that is sent for it, behind any token and at any time.
-/

namespace SwarmUpkeep

open TableApi

namespace TableService

/-! ## Reading -/

/-- A text in quotes, up to a quote that is not doubled, and what stands behind it. -/
def quoted? : List Char → Option (List Char × List Char)
  | '\'' :: '\'' :: rest => (quoted? rest).map fun (text, behind) => ('\'' :: text, behind)
  | '\'' :: rest => some ([], rest)
  | [] => none
  | c :: rest => (quoted? rest).map fun (text, behind) => (c :: text, behind)

/-- What a path names. -/
inductive Resource where
  | table (name : String)
  | rows (name : String)
  | entry (name key : String)
  | row (name partition key : String)

/-- What the brackets behind a name hold: nothing, a key, or the two keys of a row. -/
def bracketed? (name : String) : List Char → Option Resource
  | [')'] => some (.rows name)
  | '\'' :: cs =>
      match quoted? cs with
      | some (key, [')']) => some (.entry name (String.ofList key))
      | _ => none
  | cs => do
      let (partition, cs) ← quoted? (← cs.dropPrefix? "PartitionKey='".toList)
      let (key, cs) ← quoted? (← cs.dropPrefix? ",RowKey='".toList)
      if cs = [')'] then some (.row name (String.ofList partition) (String.ofList key)) else none

def resource? (path : List Char) : Option Resource :=
  let name := String.ofList (path.takeWhile (· ≠ '('))
  match path.dropWhile (· ≠ '(') with
  | [] => some (.table name)
  | _ :: cs => bracketed? name cs

/-- The partition that a filter is about. -/
def filtered? (filter : String) : Option String :=
  match filter.toList.dropPrefix? "PartitionKey eq '".toList >>= quoted? with
  | some (partition, []) => some (String.ofList partition)
  | _ => none

def most? : Option String → Option (Option Nat)
  | none => some none
  | some digits => (Ascii.number? 10 digits.toList).map some

/-- The rows of a table that the pairs of a query look for. -/
def query? (name : String) (pairs : List (String × String)) : Option TableRequest := do
  let partition ← filtered? (← pairs.lookup "$filter")
  let most ← most? (pairs.lookup "$top")
  return .query name partition most
    ((pairs.lookup "NextPartitionKey").map fun next => ⟨next, pairs.lookup "NextRowKey"⟩)

/-- The row that an object is stored as: its keys and its other members. -/
def stored? (members : Json.Members) : Option Row :=
  match members.find? "PartitionKey", members.find? "RowKey" with
  | some (.str partition), some (.str key) =>
      some ⟨partition, key,
        members.filter fun (name, _) => name != "PartitionKey" && name != "RowKey"⟩
  | _, _ => none

/-- The table that an object names which is put into the table of tables. -/
def created? (name : String) : Json.Members → Option TableRequest
  | [(member, .str table)] =>
      if name = "Tables" ∧ member = "TableName" then some (.createTable table) else none
  | _ => none

/-- The object in the body of a request. -/
def object? (request : Request) : Option Json.Members := do
  (← Json.parse? (← request.body)).members?

/-- What a request asks for at what its path names. -/
def asked? (request : Request) : Resource → Option TableRequest
  | .table name =>
      if request.method = .post then do
        let members ← object? request
        (created? name members).or ((stored? members).map (.insert name))
      else none
  | .rows name => if request.method = .get then request.url.pairs? >>= query? name else none
  | .entry name key =>
      if name = "Tables" then
        match request.method with
        | .get => some (.findTable key)
        | .delete => some (.deleteTable key)
        | _ => none
      else none
  | .row name partition key =>
      match request.method with
      | .get => some (.get name partition key)
      | .put => do
          let row ← stored? (← object? request)
          if row.partition = partition ∧ row.key = key then some (.upsert name row) else none
      | .delete =>
          if request.headers.lookup "if-match" = some "*" then some (.delete name partition key)
          else none
      | _ => none

/-- What a request asks of the service at a place. -/
def read? (base : Url) (request : Request) : Option TableRequest :=
  match request.url.path with
  | .rooted [segment] =>
      if request.url.scheme = base.scheme ∧ request.url.host = base.host ∧
          request.url.port = base.port then do
        let path ← Percent.text? (Percent.decode segment.toList)
        asked? request (← resource? path.toList)
      else none
  | _ => none

/-! ## What can be read -/

def IsName (name : String) : Prop :=
  ∀ c ∈ name.toList, Ascii.isAlphanum c = true

instance : DecidablePred IsName := fun name =>
  decidable_of_iff (name.toList.all Ascii.isAlphanum = true) List.all_eq_true

/-- A key of characters that may be in one, without a percent sign before two hexadecimal digits. -/
structure IsKey (key : String) : Prop where
  allowed : key.toList.all isKeyChar = true
  plain : Percent.isPlain key.toList = true

/-- A row whose properties have names of their own and can be sent. -/
structure IsStorable (row : Row) : Prop where
  own : ∀ entry ∈ row.properties, entry.1 ≠ "PartitionKey" ∧ entry.1 ≠ "RowKey"
  fits : (Json.obj row.properties).Fits Json.Document.depthLimit

/-- What is asked with such names, keys and rows. -/
def IsReadable : TableRequest → Prop
  | .createTable _ => True
  | .deleteTable name | .findTable name | .query name _ _ _ => IsName name
  | .insert name row => IsName name ∧ IsStorable row
  | .upsert name row => IsName name ∧ IsKey row.partition ∧ IsKey row.key ∧ IsStorable row
  | .get name partition key | .delete name partition key =>
      IsName name ∧ IsKey partition ∧ IsKey key

/-! ## Paths -/

variable {cs rest : List Char} {name key : String} {base : Url}

theorem quoted?_escapeChars (hrest : rest.head? ≠ some '\'') (cs : List Char) :
    quoted? (escapeChars cs ++ '\'' :: rest) = some (cs, rest) := by
  induction cs with
  | nil =>
      match rest with
      | [] => rfl
      | c :: rest =>
          rw [List.head?_cons, ne_eq, Option.some.injEq] at hrest
          rw [escapeChars, List.nil_append, quoted?]
          simpa using hrest
  | cons c cs ih =>
      by_cases hquote : c = '\''
      · subst hquote
        rw [escapeChars_quote, List.cons_append, List.cons_append, quoted?, ih]
        rfl
      · rw [escapeChars_of_ne hquote, List.cons_append, quoted?, ih]
        · rfl
        · exact fun _ hc _ => hquote hc
        · exact hquote

theorem dropPrefix?_append (word cs : List Char) : (word ++ cs).dropPrefix? word = some cs :=
  List.dropPrefix?_eq_some_iff.mpr ⟨word, rfl, beq_self_eq_true word⟩

theorem IsName.open_notMem (h : IsName name) : '(' ∉ name.toList := fun hopen =>
  absurd (h _ hopen) (by decide)

theorem IsName.resource?_eq (h : IsName name) :
    resource? name.toList = some (.table name) := by
  have hname : ∀ c ∈ name.toList, decide (c ≠ '(') = true := fun c hc =>
    decide_eq_true fun hopen => h.open_notMem (hopen ▸ hc)
  unfold resource?
  rw [List.takeWhile_eq_self_iff.mpr hname, List.dropWhile_eq_nil_iff.mpr hname,
    String.ofList_toList]

theorem IsName.resource?_append (h : IsName name) (cs : List Char) :
    resource? (name.toList ++ '(' :: cs) = bracketed? name cs := by
  have hname : ∀ c ∈ name.toList, decide (c ≠ '(') = true := fun c hc =>
    decide_eq_true fun hopen => h.open_notMem (hopen ▸ hc)
  unfold resource?
  rw [List.takeWhile_append_of_pos hname, List.dropWhile_append_of_pos hname]
  simp

theorem toList_entryPath (key : String) :
    ("Tables('" ++ escape key ++ "')").toList =
      "Tables".toList ++ '(' :: '\'' :: (escapeChars key.toList ++ ['\'', ')']) := by
  simp [escape]

theorem resource?_entryPath (key : String) :
    resource? ("Tables('" ++ escape key ++ "')").toList = some (.entry "Tables" key) := by
  have hname : IsName "Tables" := by decide
  rw [toList_entryPath, hname.resource?_append, bracketed?, quoted?_escapeChars (by simp)]
  simp

theorem IsName.resource?_rows (h : IsName name) :
    resource? (name ++ "()").toList = some (.rows name) := by
  rw [String.toList_append]
  exact h.resource?_append [')']

theorem IsName.resource?_rowPath (h : IsName name) (partition key : String) :
    resource?
      (name ++ "(PartitionKey='" ++ escape partition ++ "',RowKey='" ++ escape key ++ "')").toList =
      some (.row name partition key) := by
  have hmiddle (cs : List Char) : (",RowKey='".toList ++ cs).head? ≠ some '\'' := by simp
  have hend : [')'].head? ≠ some '\'' := by decide
  rw [toList_rowPath, rowChars, h.resource?_append, bracketed?]
  · simp only [dropPrefix?_append, Option.bind_eq_bind, Option.bind_some,
      quoted?_escapeChars (hmiddle _), quoted?_escapeChars hend, if_true, String.ofList_toList]
  · simp
  · simp

/-- A text that is one segment of a path and is read from it again. -/
structure IsPath (path : String) : Prop where
  chars : ∀ c ∈ path.toList, isKeyChar c = true
  kept : Url.IsKept (Percent.encode Percent.path path.toList)
  plain : Percent.isPlain path.toList = true

/-- A bracket keeps a text from standing for another segment. -/
theorem IsPath.of_mem {path : String} (hopen : '(' ∈ path.toList)
    (hchars : ∀ c ∈ path.toList, isKeyChar c = true)
    (hplain : Percent.isPlain path.toList = true) : IsPath path :=
  ⟨hchars, Url.isKept_of_mem (List.mem_flatMap.mpr ⟨'(', hopen, by decide⟩), hplain⟩

theorem IsName.percent_notMem (h : IsName name) : '%' ∉ name.toList := fun hpercent =>
  absurd (h _ hpercent) (by decide)

theorem IsName.isKeyChar (h : IsName name) : ∀ c ∈ name.toList, TableApi.isKeyChar c = true :=
  fun c hc => isKeyChar_of_isAlphanum (h c hc)

theorem IsName.isPath (h : IsName name) : IsPath name := by
  refine ⟨h.isKeyChar, ?_, Percent.isPlain_of_notMem h.percent_notMem⟩
  rw [Percent.encode_of_forall fun c hc => path_of_isAlphanum (h c hc)]
  exact Url.isKept_of_isAlphanum h

theorem IsName.isPath_rows (h : IsName name) : IsPath (name ++ "()") := by
  apply IsPath.of_mem
  · simp
  · have hend : ∀ c ∈ "()".toList, TableApi.isKeyChar c = true := List.all_eq_true.mp (by decide)
    simpa [or_imp, forall_and] using And.intro h.isKeyChar hend
  · rw [String.toList_append]
    exact Percent.isPlain_append_of_notMem h.percent_notMem "()".toList

theorem IsName.isKey (h : IsName name) : IsKey name :=
  ⟨List.all_eq_true.mpr h.isKeyChar, Percent.isPlain_of_notMem h.percent_notMem⟩

theorem isPlain_quoted (hcs : Percent.isPlain cs = true)
    (hrest : Percent.isPlain ('\'' :: rest) = true) :
    Percent.isPlain (escapeChars cs ++ '\'' :: rest) = true := by
  refine Percent.isPlain_append (isPlain_escapeChars hcs) hrest fun d hd => ?_
  cases hd
  decide

theorem IsKey.isPath_entry (h : IsKey key) : IsPath ("Tables('" ++ escape key ++ "')") := by
  have hkey : ∀ c ∈ escapeChars key.toList, TableApi.isKeyChar c = true := fun c hc =>
    List.all_eq_true.mp h.allowed c (mem_of_mem_escapeChars hc)
  apply IsPath.of_mem
  · simp
  · have hword : ∀ c ∈ "Tables('".toList, TableApi.isKeyChar c = true :=
      List.all_eq_true.mp (by decide)
    have hend : ∀ c ∈ "')".toList, TableApi.isKeyChar c = true := List.all_eq_true.mp (by decide)
    intro c hc
    simp only [String.toList_append, List.mem_append, escape, String.toList_ofList] at hc
    rcases hc with (hc | hc) | hc
    · exact hword c hc
    · exact hkey c hc
    · exact hend c hc
  · have hbefore : '%' ∉ ['(', '\''] := by decide
    rw [toList_entryPath, Percent.isPlain_append_of_notMem (by decide)]
    exact (Percent.isPlain_append_of_notMem hbefore _).trans (isPlain_quoted h.plain rfl)

theorem isPath_row {partition : String} (hname : IsName name) (hpartition : IsKey partition)
    (hkey : IsKey key) :
    IsPath
      (name ++ "(PartitionKey='" ++ escape partition ++ "',RowKey='" ++ escape key ++ "')") := by
  have hrow : RowName.IsAllowed ⟨name, partition, key⟩ :=
    ⟨List.all_eq_true.mpr hname, hpartition.allowed, hkey.allowed⟩
  apply IsPath.of_mem
  · simp
  · rw [toList_rowPath]
    exact hrow.isKeyChar
  · rw [toList_rowPath, rowChars, Percent.isPlain_append_of_notMem hname.percent_notMem]
    have hend : Percent.isPlain (escapeChars key.toList ++ ['\'', ')']) = true :=
      isPlain_quoted hkey.plain rfl
    have hbetween : '%' ∉ '\'' :: ",RowKey='".toList := by decide
    have hmiddle : Percent.isPlain ('\'' :: (",RowKey='".toList ++
        (escapeChars key.toList ++ ['\'', ')']))) = true :=
      (Percent.isPlain_append_of_notMem hbetween _).trans hend
    have hbefore : '%' ∉ '(' :: "PartitionKey='".toList := by decide
    exact (Percent.isPlain_append_of_notMem hbefore _).trans
      (isPlain_quoted hpartition.plain hmiddle)

theorem IsPath.url_eq {api : TableApi} (hbase : api.base.IsSecureWeb) {path : String}
    (hpath : IsPath path) :
    api.url path = { api.base with
      path := .rooted [String.ofList (Percent.encode Percent.path path.toList)] } :=
  hbase.withSegment hpath.kept (fun c hc => isSlash_of_isKeyChar (hpath.chars c hc))
    fun c hc => isBreak_of_isKeyChar (hpath.chars c hc)

theorem IsName.encode_rows (h : IsName name) :
    String.ofList (Percent.encode Percent.path (name ++ "()").toList) = name ++ "()" := by
  have hend : ∀ c ∈ "()".toList, Percent.path c = false := by
    rintro c hc
    rcases List.mem_pair.mp hc with rfl | rfl <;> rfl
  rw [Percent.encode_of_forall, String.ofList_toList]
  intro c hc
  rw [String.toList_append] at hc
  rcases List.mem_append.mp hc with hc | hc
  · exact path_of_isAlphanum (h c hc)
  · exact hend c hc

/-- A request to a path is read at what the path names. -/
theorem IsPath.exists_build {api : TableApi} (hbase : api.base.IsSecureWeb) {path : String}
    (hpath : IsPath path) (method : Method) (query headers : List (String × String))
    (body : Option String) :
    ∃ sent, Request.build method (api.url path) query headers body = .ok sent ∧
      sent.method = method ∧ sent.body = body ∧
      (∀ name, name ≠ "authorization" → sent.headers.lookup name = headers.lookup name) ∧
      sent.url.pairs? = api.base.pairs?.map (· ++ query) ∧
      read? api.base sent = (resource? path.toList).bind (asked? sent) := by
  have hurl := hpath.url_eq hbase
  have hsecure : (api.url path).IsSecureWeb := by
    rw [hurl]
    exact ⟨hbase.scheme, hbase.host, _, rfl⟩
  obtain ⟨sent, hbuild⟩ := Request.exists_build hsecure method query headers body
  obtain ⟨hmethod, hbody, hsent⟩ := Request.build_ok hbuild
  obtain ⟨hscheme, hhost, hport, hplace⟩ := Request.destination_eq (api.url path) query
  rw [← hsent, hurl] at hscheme hhost hport hplace
  refine ⟨sent, hbuild, hmethod, hbody, ?_, ?_, ?_⟩
  · intro name hname
    rw [Request.build_headers hbuild]
    cases Request.credentials? (api.url path) with
    | none => rfl
    | some credentials =>
        simp [Request.authorization, List.lookup_cons, beq_eq_false_iff_ne.mpr hname]
  · rw [hsent, Request.pairs?_destination, hurl]
    rfl
  · unfold read?
    rw [hplace]
    dsimp only
    rw [if_pos ⟨hscheme, hhost, hport⟩, String.toList_ofList, Percent.decode_encode _ hpath.plain,
      Percent.text?_utf8, String.ofList_toList]
    rfl

/-! ## Bodies -/

/-- The object of a row is stored as that row. -/
theorem stored?_rowMembers {row : Row} (hascending : row.properties.Ascending)
    (hown : ∀ entry ∈ row.properties, entry.1 ≠ "PartitionKey" ∧ entry.1 ≠ "RowKey") :
    stored? (rowMembers row) = some row := by
  have hpartition : (rowMembers row).find? "PartitionKey" = some (.str row.partition) :=
    (find?_rowMembers row _).trans (if_neg (by decide)) |>.trans (if_pos rfl)
  have hkey : (rowMembers row).find? "RowKey" = some (.str row.key) :=
    (find?_rowMembers row _).trans (if_pos rfl)
  have hrest : ((rowMembers row).filter fun (name, _) =>
      name != "PartitionKey" && name != "RowKey") = row.properties := by
    apply ((rowMembers_ascending hascending).filter _).ext hascending
    intro name
    refine (Json.Members.find?_filter (fun name => name != "PartitionKey" && name != "RowKey")
      _ name).trans ?_
    cases hname : name != "PartitionKey" && name != "RowKey" with
    | true =>
        simp only [Bool.and_eq_true, bne_iff_ne] at hname
        rw [if_pos rfl, find?_rowMembers]
        exact (if_neg (Ne.symm hname.2)).trans (if_neg (Ne.symm hname.1))
    | false =>
        rw [if_neg Bool.false_ne_true]
        cases hfind : row.properties.find? name with
        | none => rfl
        | some value =>
            have hother := hown _ (Json.Members.mem_of_find? hfind)
            simp [hother] at hname
  unfold stored?
  rw [hpartition, hkey]
  dsimp only
  rw [hrest]

theorem created?_rowMembers (name : String) (row : Row) :
    created? name (rowMembers row) = none := by
  have hkey : (rowMembers row).find? keyName = some (.str row.key) :=
    (find?_rowMembers row _).trans (if_pos rfl)
  unfold created?
  split
  next member table hmembers =>
    refine if_neg fun hnamed => ?_
    rw [hmembers, hnamed.2] at hkey
    cases hkey
  next => rfl

theorem object?_of_body {request : Request} {members : Json.Members}
    (hfits : (Json.obj members).Fits Json.Document.depthLimit)
    (hbody : request.body = some (Json.obj members).text) : object? request = some members := by
  unfold object?
  rw [hbody]
  change (Json.parse? (Json.obj members).text).bind Json.members? = some members
  rw [Json.parse?_text hfits]
  rfl

theorem IsStorable.fits_rowMembers {row : Row} (h : IsStorable row) :
    (Json.obj (rowMembers row)).Fits Json.Document.depthLimit :=
  (h.fits.insert .str).insert .str

theorem IsStorable.ascending {row : Row} (h : IsStorable row) : row.properties.Ascending := by
  cases h.fits with
  | obj hascending => exact hascending

/-! ## Queries -/

theorem filtered?_filter (partition : String) :
    filtered? ("PartitionKey eq '" ++ escape partition ++ "'") = some partition := by
  have hfilter : ("PartitionKey eq '" ++ escape partition ++ "'").toList =
      "PartitionKey eq '".toList ++ (escapeChars partition.toList ++ '\'' :: []) := by
    simp [escape]
  unfold filtered?
  rw [hfilter, dropPrefix?_append]
  change (match quoted? (escapeChars partition.toList ++ '\'' :: []) with
    | some (partition, []) => some (String.ofList partition)
    | _ => none) = _
  rw [quoted?_escapeChars (by simp)]
  simp

theorem most?_map (most : Option Nat) : most? (most.map toString) = some most := by
  cases most with
  | none => rfl
  | some n =>
      have hdigits : (toString n).toList = Ascii.decimal n := String.toList_ofList
      rw [Option.map_some, most?, hdigits, Ascii.number?_decimal]
      rfl

/-- The pairs of a page look for what is asked. -/
theorem query?_pageQuery (name partition : String) (most : Option Nat)
    (start : Option Continuation) :
    query? name (pageQuery partition most start) = some (.query name partition most start) := by
  have hfilter : (pageQuery partition most start).lookup "$filter" =
      some ("PartitionKey eq '" ++ escape partition ++ "'") := rfl
  have hmost : (pageQuery partition most start).lookup "$top" = most.map toString := by
    cases most with
    | none =>
        match start with
        | none | some ⟨_, none⟩ | some ⟨_, some _⟩ => rfl
    | some n => rfl
  have hnext : (pageQuery partition most start).lookup "NextPartitionKey" =
      start.map Continuation.partition := by
    cases most <;> cases start <;> rfl
  have hkey : (pageQuery partition most start).lookup "NextRowKey" =
      start.bind Continuation.key := by
    cases most <;> match start with
      | none | some ⟨_, none⟩ | some ⟨_, some _⟩ => rfl
  unfold query?
  rw [hfilter, hmost, hnext, hkey, most?_map]
  simp only [Option.bind_eq_bind, Option.bind_some, filtered?_filter]
  cases start <;> rfl

/-! ## Requests -/

variable {api : TableApi} {asked : TableRequest}

/-- What is asked is read again from the request that is sent for it. -/
theorem read?_request (hbase : api.base.IsSecureWeb) (hquery : api.base.query = none)
    (h : IsReadable asked) (token : String) (now : Instant) :
    ∃ sent, api.request token now asked = .ok sent ∧ read? api.base sent = some asked := by
  have hpairs : api.base.pairs? = some [] := by
    rw [Url.pairs?, hquery]
    rfl
  cases asked with
  | createTable name =>
      have hname : IsName "Tables" := by decide
      obtain ⟨sent, hbuild, hmethod, hbody, -, -, hread⟩ := hname.isPath.exists_build hbase .post []
        (headers token now ++ [withoutContent, Request.jsonType])
        (some (Json.obj [("TableName", .str name)]).text)
      have hfits : (Json.obj [("TableName", .str name)]).Fits Json.Document.depthLimit :=
        .obj (List.pairwise_singleton _ _) fun entry hentry => by
          rw [List.mem_singleton.mp hentry]
          exact .str
      refine ⟨sent, hbuild, ?_⟩
      rw [hread, hname.resource?_eq, Option.bind_some, asked?, if_pos hmethod,
        object?_of_body hfits hbody]
      rfl
  | deleteTable name =>
      obtain ⟨sent, hbuild, hmethod, hbody, -, -, hread⟩ :=
        (IsName.isKey h).isPath_entry.exists_build hbase .delete [] (headers token now) none
      refine ⟨sent, hbuild, ?_⟩
      rw [hread, resource?_entryPath, Option.bind_some, asked?, if_pos rfl, hmethod]
  | findTable name =>
      obtain ⟨sent, hbuild, hmethod, hbody, -, -, hread⟩ :=
        (IsName.isKey h).isPath_entry.exists_build hbase .get [] (headers token now) none
      refine ⟨sent, hbuild, ?_⟩
      rw [hread, resource?_entryPath, Option.bind_some, asked?, if_pos rfl, hmethod]
  | insert name row =>
      obtain ⟨hname, hrow⟩ := h
      obtain ⟨sent, hbuild, hmethod, hbody, -, -, hread⟩ := hname.isPath.exists_build hbase .post []
        (headers token now ++ [withoutContent, Request.jsonType]) (some (rowJson row).text)
      refine ⟨sent, hbuild, ?_⟩
      rw [hread, hname.resource?_eq, Option.bind_some, asked?, if_pos hmethod,
        object?_of_body hrow.fits_rowMembers hbody]
      simp only [Option.bind_eq_bind, Option.bind_some, created?_rowMembers, Option.none_or,
        stored?_rowMembers hrow.ascending hrow.own, Option.map_some]
  | upsert name row =>
      obtain ⟨hname, hpartition, hkey, hrow⟩ := h
      obtain ⟨sent, hbuild, hmethod, hbody, -, -, hread⟩ :=
        (isPath_row hname hpartition hkey).exists_build hbase .put []
          (headers token now ++ [Request.jsonType]) (some (rowJson row).text)
      refine ⟨sent, hbuild, ?_⟩
      rw [hread, hname.resource?_rowPath, Option.bind_some, asked?, hmethod]
      dsimp only
      simp only [object?_of_body hrow.fits_rowMembers hbody, Option.bind_eq_bind, Option.bind_some,
        stored?_rowMembers hrow.ascending hrow.own, and_self, if_true]
  | get name partition key =>
      obtain ⟨hname, hpartition, hkey⟩ := h
      obtain ⟨sent, hbuild, hmethod, hbody, -, -, hread⟩ :=
        (isPath_row hname hpartition hkey).exists_build hbase .get [] (headers token now) none
      refine ⟨sent, hbuild, ?_⟩
      rw [hread, hname.resource?_rowPath, Option.bind_some, asked?, hmethod]
  | delete name partition key =>
      obtain ⟨hname, hpartition, hkey⟩ := h
      obtain ⟨sent, hbuild, hmethod, hbody, hheaders, -, hread⟩ :=
        (isPath_row hname hpartition hkey).exists_build hbase .delete []
          (headers token now ++ [("if-match", "*")]) none
      refine ⟨sent, hbuild, ?_⟩
      rw [hread, hname.resource?_rowPath, Option.bind_some, asked?, hmethod]
      have hmatch : (headers token now ++ [("if-match", "*")]).lookup "if-match" = some "*" := by
        simp [headers, List.lookup_cons]
      exact if_pos ((hheaders "if-match" (by decide)).trans hmatch)
  | query name partition most start =>
      have hname : IsName name := h
      obtain ⟨sent, hbuild, hmethod, hbody, -, hsent, hread⟩ :=
        hname.isPath_rows.exists_build hbase .get (pageQuery partition most start)
          (headers token now) none
      refine ⟨sent, hbuild, ?_⟩
      rw [hread, hname.resource?_rows, Option.bind_some, asked?, if_pos hmethod, hsent, hpairs]
      simp only [Option.map_some, List.nil_append, Option.bind_eq_bind, Option.bind_some,
        query?_pageQuery]

end TableService

/-- A request is built once a token is had and the clock has been read, and then it is sent. -/
theorem TableApi.ask_eq (api : TableApi) (asked : TableRequest) :
    api.ask asked = Program.ask (I := Web) (.token TokenSource.storageResource) fun
      | .error e => .done (.error e)
      | .ok token => Program.ask (I := Web) (.outside .now) fun now =>
          match api.request token now asked with
          | .error e => .done (.ok (.error e))
          | .ok request => Program.ask (I := Web) (.outside (.send request)) fun answer =>
              .done (.ok (judged (TableApi.what asked) Response.cloudMessage request answer)) := by
  refine congrArg (Program.ask (I := Web) _) ?_
  funext answer
  cases answer with
  | error e => rfl
  | ok token =>
      refine congrArg (Program.ask (I := Web) _) ?_
      funext now
      change Attempt.bind (Web.submit (api.request token now asked)).outcome _ = _
      dsimp only
      cases api.request token now asked <;> rfl

end SwarmUpkeep
