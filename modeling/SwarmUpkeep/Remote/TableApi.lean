import SwarmUpkeep.Json.Decode
import SwarmUpkeep.Net.Url.Reader
import SwarmUpkeep.Remote.Token
import SwarmUpkeep.Storage.Row
import SwarmUpkeep.Time.Timestamp

/-!
# The interface of the table service

A row has an address that is made of its partition and its key, with quotes in them doubled. A
query answers page by page; each page but the last tells where the next one starts.

What can be asked of the service is a type of its own, so that a model can be put in its place.
-/

namespace SwarmUpkeep

/-- Where the next page of a query starts. -/
structure Continuation where
  partition : String
  key : Option String
deriving DecidableEq, Inhabited

/-- What can be asked of the table service. A query may name the most rows that it wants. -/
inductive TableRequest where
  | createTable (table : String)
  | deleteTable (table : String)
  | findTable (table : String)
  | insert (table : String) (row : Row)
  | upsert (table : String) (row : Row)
  | get (table partition key : String)
  | delete (table partition key : String)
  | query (table partition : String) (most : Option Nat) (start : Option Continuation)

/-- The place of a storage account's tables. -/
structure TableApi where
  base : Url
deriving Inhabited

namespace TableApi

def make (account : String) : Except ServiceError TableApi :=
  match Url.parse ("https://" ++ account ++ ".table.core.windows.net/") with
  | .ok base => .ok ⟨base⟩
  | .error e => .error (.fatal ("bad storage account '" ++ account ++ "': " ++ e.message))

/-! ## Addresses -/

def escapeChars : List Char → List Char
  | [] => []
  | c :: rest => if c = '\'' then '\'' :: '\'' :: escapeChars rest else c :: escapeChars rest

/-- A text inside quotes: each quote in it is doubled. -/
def escape (s : String) : String :=
  String.ofList (escapeChars s.toList)

def url (api : TableApi) (path : String) : Url :=
  api.base.withPath path

/-- The address of a row. -/
def rowUrl (api : TableApi) (table partition key : String) : Url :=
  api.url (table ++ "(PartitionKey='" ++ escape partition ++ "',RowKey='" ++ escape key ++ "')")

def tableUrl (api : TableApi) (table : String) : Url :=
  api.url ("Tables('" ++ escape table ++ "')")

/-! ## Rows as JSON -/

def partitionName : String := "PartitionKey"

def keyName : String := "RowKey"

def timestampName : String := "Timestamp"

/-- Members that the service adds. -/
def isServiceMember (name : String) : Bool :=
  "odata.".toList.isPrefixOf name.toList

def rowJson (row : Row) : Json :=
  .obj (Json.Members.insert (Json.Members.insert row.properties partitionName (.str row.partition))
    keyName (.str row.key))

/-- The row that a JSON object is. One without keys is none; what the service adds is left out. -/
def rowOf? (members : Json.Members) : Option Row := do
  let partition ← (← Json.Members.find? members partitionName).text?
  let key ← (← Json.Members.find? members keyName).text?
  let properties := members.filter fun (name, _) =>
    name != partitionName && name != keyName && name != timestampName && !isServiceMember name
  return ⟨partition, key, properties⟩

/-! ## Requests -/

def version : String := "2019-02-02"

/-- The headers of every request: behind which token it is made, and when. -/
def headers (token : String) (now : Instant) : List (String × String) :=
  [("authorization", "Bearer " ++ token),
   ("x-ms-version", version),
   ("x-ms-date", Timestamp.http now),
   ("accept", "application/json;odata=nometadata"),
   ("dataserviceversion", "3.0;NetFx")]

def withoutContent : String × String :=
  ("prefer", "return-no-content")

/-- What is asked for, in the words of an error. -/
def what : TableRequest → String
  | .createTable table => "create table " ++ table
  | .deleteTable table => "delete table " ++ table
  | .findTable table => "get table " ++ table
  | .insert table _ => "insert into " ++ table
  | .upsert table _ => "upsert into " ++ table
  | .get table _ _ => "get from " ++ table
  | .delete table _ _ => "delete from " ++ table
  | .query table _ _ _ => "query " ++ table

/-- The pairs in the query of a page. -/
def pageQuery (partition : String) (most : Option Nat) (start : Option Continuation) :
    List (String × String) :=
  [("$filter", "PartitionKey eq '" ++ escape partition ++ "'")] ++
    (most.map fun n => ("$top", toString n)).toList ++
    match start with
    | none => []
    | some next =>
        ("NextPartitionKey", next.partition) ::
          (next.key.map fun key => ("NextRowKey", key)).toList

/-- The request that asks for something, behind a token and at an instant. -/
def request (api : TableApi) (token : String) (now : Instant) :
    TableRequest → Except ServiceError Request
  | .createTable table =>
      Request.build .post (api.url "Tables") []
        (headers token now ++ [withoutContent, Request.jsonType])
        (some (Json.obj [("TableName", .str table)]).text)
  | .deleteTable table => Request.build .delete (api.tableUrl table) [] (headers token now) none
  | .findTable table => Request.build .get (api.tableUrl table) [] (headers token now) none
  | .insert table row =>
      Request.build .post (api.url table) []
        (headers token now ++ [withoutContent, Request.jsonType]) (some (rowJson row).text)
  | .upsert table row =>
      Request.build .put (api.rowUrl table row.partition row.key) []
        (headers token now ++ [Request.jsonType]) (some (rowJson row).text)
  | .get table partition key =>
      Request.build .get (api.rowUrl table partition key) [] (headers token now) none
  | .delete table partition key =>
      Request.build .delete (api.rowUrl table partition key) []
        (headers token now ++ [("if-match", "*")]) none
  | .query table partition most start =>
      Request.build .get (api.url (table ++ "()")) (pageQuery partition most start)
        (headers token now) none

/-- Asks for something. Without a token nothing is asked; what is asked may be refused. -/
def ask (api : TableApi) (request : TableRequest) :
    Attempt Web ServiceError (Except ServiceError Response) := do
  let token ← Web.token TokenSource.storageResource
  let now ← Web.now
  let reply ← (Web.submit (api.request token now request)).outcome
  return reply >>= fun response => response.checked (what request) Response.cloudMessage

end TableApi

/-! ## The service as an interface -/

inductive TableServiceCall where
  | ask (request : TableRequest)
  | now
  | nonce

/-- What may not be asked at all is told apart from what is asked and refused. -/
abbrev TableServiceCall.Answer : TableServiceCall → Type
  | ask _ => Except ServiceError (Except ServiceError Response)
  | now => Instant
  | nonce => String

/-- The table service and what is needed to name messages. -/
abbrev TableService : Interface :=
  ⟨TableServiceCall, TableServiceCall.Answer⟩

/-- Asks the service of an account. -/
def TableApi.respond (api : TableApi) : (call : TableServiceCall) → Program Web call.Answer
  | .ask request => api.ask request
  | .now => Web.now
  | .nonce => Web.nonce

namespace TableService

/-! ## Tables -/

/-- What comes of a request that may be made: a response, or why it is refused. -/
def reply (request : TableRequest) :
    Attempt TableService ServiceError (Except ServiceError Response) :=
  Program.perform (I := TableService) (.ask request)

def ask (request : TableRequest) : Attempt TableService ServiceError Response := do
  Attempt.ofExcept (← reply request)

/-- Creates a table and tells whether it was created now. -/
def createTable (table : String) : Attempt TableService ServiceError Bool := do
  match ← reply (.createTable table) with
  | .ok _ => return true
  | .error (.conflict _) => return false
  | .error e => Attempt.fail e

def deleteTable (table : String) : Attempt TableService ServiceError Unit := do
  discard (ask (.deleteTable table))

def tableExists (table : String) : Attempt TableService ServiceError Bool := do
  match ← reply (.findTable table) with
  | .ok _ => return true
  | .error (.notFound _) => return false
  | .error e => Attempt.fail e

/-! ## Rows -/

def insertOnly (table : String) (row : Row) : Attempt TableService ServiceError Unit := do
  discard (ask (.insert table row))

def upsertOnly (table : String) (row : Row) : Attempt TableService ServiceError Unit := do
  discard (ask (.upsert table row))

/-- Writes to a table, which is created if it is missing. -/
def creating (table : String) (write : Attempt TableService ServiceError Unit) :
    Attempt TableService ServiceError Unit := do
  match ← write.outcome with
  | .ok () => return ()
  | .error (.notFound _) =>
      discard (createTable table)
      write
  | .error e => Attempt.fail e

/-- Inserts a row that must not be there yet. -/
def insert (table : String) (row : Row) : Attempt TableService ServiceError Unit :=
  creating table (insertOnly table row)

def upsert (table : String) (row : Row) : Attempt TableService ServiceError Unit :=
  creating table (upsertOnly table row)

def members? (d : Json.Document) : Option Json.Members :=
  match d with
  | .object _ => (d.value? Json.Document.depthLimit) >>= Json.members?
  | _ => none

def get (table partition key : String) : Attempt TableService ServiceError (Option Row) := do
  match ← reply (.get table partition key) with
  | .ok response =>
      let members ← Attempt.ofExcept (response.decode members?)
      return TableApi.rowOf? members
  | .error (.notFound _) => return none
  | .error e => Attempt.fail e

def delete (table partition key : String) : Attempt TableService ServiceError Unit := do
  discard (ask (.delete table partition key))

/-! ## Queries -/

/-- The objects of a page. -/
def page? (d : Json.Document) : Option (List Json.Members) := do
  match ← d.fields? ["value"] with
  | [items] =>
      Json.Document.withDefault []
        (Json.Document.list? fun d => match d with
          | .object _ => (d.value? (Json.Document.depthLimit - 2)) >>= Json.members?
          | _ => none)
        items
  | _ => none

/-- Where the next page starts, from the headers of a response. -/
def continuation? (response : Response) : Option Continuation := do
  return ⟨← response.header? "x-ms-continuation-NextPartitionKey",
    response.header? "x-ms-continuation-NextRowKey"⟩

/-- Whether so many rows are enough. -/
def isEnough (most : Option Nat) (count : Nat) : Bool :=
  most.any (· ≤ count)

/-- The rows of the pages from a start on, behind those that have been read. A table that is
missing has no rows. -/
def collectPages (table partition : String) (most : Option Nat) :
    (pages : Nat) → Option Continuation → List Row → Attempt TableService ServiceError (List Row)
  | 0, _, _ => Attempt.fail (.fatal ("query " ++ table ++ ": too many pages"))
  | pages + 1, start, read => do
      match ← reply (.query table partition most start) with
      | .error (.notFound _) => return []
      | .error e => Attempt.fail e
      | .ok response =>
          let items ← Attempt.ofExcept (response.decode page?)
          let read := read ++ items.filterMap TableApi.rowOf?
          match continuation? response with
          | none => return read
          | some next =>
              if isEnough most read.length then return read
              else collectPages table partition most pages (some next) read

/-- The rows of a partition in the order of their keys, at most so many if a number is given. -/
def queryPartition (table partition : String) (most : Option Nat) (pages : Nat) :
    Attempt TableService ServiceError (List Row) := do
  let rows ← collectPages table partition most pages none []
  let rows := rows.mergeSort fun a b => a.key ≤ b.key
  return match most with
    | some n => rows.take n
    | none => rows

end TableService

end SwarmUpkeep
