import Mathlib.Logic.Function.Basic
import SwarmUpkeep.Proofs.Json.Members
import SwarmUpkeep.Proofs.Json.Record
import SwarmUpkeep.Proofs.Remote.Requests
import SwarmUpkeep.Proofs.Storage.Shelf

/-!
# A service of tables

How a table service replies, by what it holds. It tells by the status of a reply whether a table or
a row was there, and it cuts the rows of a partition into pages as it likes, empty pages not
excepted. What is asked of it and answered depends on nothing else but the clock, which never shows
the same time twice.
-/

namespace SwarmUpkeep

open TableApi

/-! ## Bodies -/

namespace TableService

open Json.Document (IsRecord HasDefault IsArray IsReadBy)

/-- A body is one object. -/
def IsObject (body : String) (members : Json.Members) : Prop :=
  ∃ d, Json.Document.parse? body = some d ∧
    d.value? Json.Document.depthLimit = some (.obj members)

/-- An item of a page is an object, which may be as deep as the page leaves room for. -/
def IsItem (d : Json.Document) (members : Json.Members) : Prop :=
  d.value? (Json.Document.depthLimit - 2) = some (.obj members)

/-- A body is a page with these objects. -/
def IsPage (body : String) (items : List Json.Members) : Prop :=
  ∃ d value, Json.Document.parse? body = some d ∧ IsRecord ["value"] d [value] ∧
    HasDefault [] (IsArray IsItem) value items

variable {response : Response} {members : Json.Members} {items : List Json.Members}

theorem continuation?_eq (response : Response) :
    continuation? response =
      (response.header? "x-ms-continuation-NextPartitionKey").map fun partition =>
        ⟨partition, response.header? "x-ms-continuation-NextRowKey"⟩ :=
  Option.map_eq_bind.symm

theorem members?_eq_some_iff {value : Json} :
    value.members? = some members ↔ value = .obj members := by
  cases value <;> simp [Json.members?]

/-- Only objects are read as values with members. -/
theorem value?_eq_obj_iff {depth : Nat} {d : Json.Document} :
    (match d with
      | .object _ => d.value? depth >>= Json.members?
      | _ => none) = some members ↔ d.value? depth = some (.obj members) := by
  cases d with
  | object entries => simp [members?_eq_some_iff, Option.bind_eq_some_iff]
  | null | bool | number | string => simp [Json.Document.value?]
  | array items => cases depth <;> simp [Json.Document.value?]

theorem isPage_iff : IsPage response.body items ↔ response.decode page? = .ok items := by
  have hitem : IsReadBy IsItem fun d => match d with
      | .object _ => d.value? (Json.Document.depthLimit - 2) >>= Json.members?
      | _ => none := fun _ _ => value?_eq_obj_iff
  rw [Response.decode_eq_ok_iff]
  refine exists_congr fun d => ?_
  rw [exists_and_left]
  refine and_congr_right fun _ => ?_
  simp only [← Json.Document.withDefault_eq_some_iff (Json.Document.list?_eq_some_iff hitem)]
  exact (Json.Document.read_field_iff _).symm

end TableService

/-- What a service holds: the rows of each table that is there, the pages that it has promised to
show from each continuation on, and the time that the clock showed last. -/
structure TableServer where
  table : String → Option Shelf
  pages : Continuation → List (List Row)
  clock : Int

/-- A name that a member of a row can have beside its keys and what the service adds. -/
def TableApi.IsOwnName (name : String) : Prop :=
  name ≠ partitionName ∧ name ≠ keyName ∧ name ≠ timestampName ∧ isServiceMember name = false

namespace TableServer

variable {server server' : TableServer} {limit : Nat} {row row' : Row} {members : Json.Members}

/-- The object shows the row, whatever else the service adds to it. -/
structure Shows (members : Json.Members) (row : Row) : Prop where
  partition : members.find? partitionName = some (.str row.partition)
  key : members.find? keyName = some (.str row.key)
  own : ∀ name, IsOwnName name → members.find? name = row.properties.find? name

/-- As much of the rows as has to be shown to a query that wants so many of them. -/
structure Suffices (most : Option Nat) (rows shown : List Row) : Prop where
  leading : shown <+: rows
  enough : shown = rows ∨ TableService.isEnough most shown.length = true

/-- The pages to be shown from here on: a cut of the partition, or what has been promised. -/
def IsCut (server : TableServer) (limit : Nat) (shelf : Shelf) (partition : String)
    (most : Option Nat) : Option Continuation → List (List Row) → Prop
  | none, pages =>
      pages.length ≤ limit ∧
        ∃ rows, shelf.Lists partition rows ∧ Suffices most rows pages.flatten
  | some start, pages => pages = server.pages start

/-- The reply says where the rest is shown, or that there is no more. -/
def Promises (reply : Response) (rest : List (List Row)) (server' : TableServer) : Prop :=
  match reply.header? "x-ms-continuation-NextPartitionKey" with
  | none => rest = []
  | some partition =>
      rest ≠ [] ∧
        server'.pages ⟨partition, reply.header? "x-ms-continuation-NextRowKey"⟩ = rest

/-- What becomes of a request: it is done, or something is missing or in the way. -/
inductive Verdict where
  | done
  | missing
  | taken
deriving DecidableEq

def verdict (server : TableServer) : TableRequest → Verdict
  | .createTable name => if (server.table name).isSome then .taken else .done
  | .deleteTable name | .findTable name | .upsert name _ | .query name _ _ _ =>
      if (server.table name).isSome then .done else .missing
  | .insert name row =>
      match server.table name with
      | none => .missing
      | some shelf => if (shelf row.partition row.key).isSome then .taken else .done
  | .get name partition key | .delete name partition key =>
      match server.table name with
      | none => .missing
      | some shelf => if (shelf partition key).isSome then .done else .missing

/-- The tables once a request has been done. -/
def tablesAfter (server : TableServer) : TableRequest → String → Option Shelf
  | .createTable name => Function.update server.table name (some fun _ _ => none)
  | .deleteTable name => Function.update server.table name none
  | .insert name row | .upsert name row =>
      Function.update server.table name
        ((server.table name).map fun shelf => shelf.set row.partition row.key (some row))
  | .delete name partition key =>
      Function.update server.table name
        ((server.table name).map fun shelf => shelf.set partition key none)
  | .findTable _ | .get _ _ _ | .query _ _ _ _ => server.table

/-- What the reply shows to a request that has been done. -/
def Displays (limit : Nat) (server : TableServer) (request : TableRequest) (reply : Response)
    (server' : TableServer) : Prop :=
  match request with
  | .get name partition key =>
      ∃ shelf row members, server.table name = some shelf ∧ shelf partition key = some row ∧
        TableService.IsObject reply.body members ∧ Shows members row
  | .query name partition most start =>
      ∃ shelf page rest items, server.table name = some shelf ∧
        server.IsCut limit shelf partition most start (page :: rest) ∧
        TableService.IsPage reply.body items ∧ List.Forall₂ Shows items page ∧
        Promises reply rest server'
  | _ => True

/-- How a service replies, and what it holds afterwards. -/
def Replies (limit : Nat) (server : TableServer) (request : TableRequest) (reply : Response)
    (server' : TableServer) : Prop :=
  server.clock ≤ server'.clock ∧
    match server.verdict request with
    | .done =>
        reply.isSuccess = true ∧ server'.table = server.tablesAfter request ∧
          Displays limit server request reply server'
    | .missing => reply.status = 404 ∧ server'.table = server.table
    | .taken => reply.status = 409 ∧ server'.table = server.table

/-- Surroundings with such a service, and with a clock that moves on between any two readings and
stays within the nanoseconds that a key can hold. -/
def rules {σ : Type} (limit : Nat) (server : σ → TableServer) : Rules TableService σ where
  allows _ _ := True
  moves s c answer s' :=
    match c, answer with
    | .ask request, answer =>
        ∃ reply, answer = .ok (reply.checked (what request) Response.cloudMessage) ∧
          (server s).Replies limit request reply (server s')
    | .now, t =>
        (server s').table = (server s).table ∧ (server s').clock = t.sinceEpoch ∧
          (server s).clock < t.sinceEpoch ∧ 0 ≤ t.sinceEpoch ∧
          t.sinceEpoch ≤ TokenSource.greatest64
    | .nonce, _ =>
        (server s').table = (server s).table ∧ (server s).clock ≤ (server s').clock

/-! ## Replies -/

variable {reply : Response} {what : String} {explain : String → String}

theorem checked_of_success (h : reply.isSuccess = true) :
    reply.checked what explain = .ok reply :=
  if_pos h

/-- What an unsuccessful reply is an error about. -/
def complaint (what : String) (explain : String → String) (reply : Response) : String :=
  what ++ ": " ++ explain reply.body ++ " (status " ++ toString reply.status ++ ")"

theorem checked_of_missing (h : reply.status = 404) :
    reply.checked what explain = .error (.notFound (complaint what explain reply)) := by
  unfold Response.checked complaint
  rw [if_neg (by simp [Response.isSuccess, h]), ServiceError.ofStatus, if_pos h]

theorem checked_of_conflict (h : reply.status = 409) :
    reply.checked what explain = .error (.conflict (complaint what explain reply)) := by
  unfold Response.checked complaint
  rw [if_neg (by simp [Response.isSuccess, h]), ServiceError.ofStatus, if_neg (by simp [h]),
    if_pos (.inl h)]

variable {σ : Type} {server : σ → TableServer} {s s' : σ} {request : TableRequest}
variable {answer : Except ServiceError (Except ServiceError Response)}

/-- Nothing has changed but promises and the time. -/
def Keeps (server server' : TableServer) : Prop :=
  server'.table = server.table ∧ server.clock ≤ server'.clock

theorem Keeps.trans {server server' server'' : TableServer} (h : Keeps server server')
    (h' : Keeps server' server'') : Keeps server server'' :=
  ⟨h'.1.trans h.1, h.2.trans h'.2⟩

theorem moves_done (h : (rules limit server).moves s (.ask request) answer s')
    (hverdict : (server s).verdict request = .done) :
    (server s').table = (server s).tablesAfter request ∧ (server s).clock ≤ (server s').clock ∧
      ∃ reply, answer = .ok (.ok reply) ∧ Displays limit (server s) request reply (server s') := by
  obtain ⟨reply, rfl, hclock, hreply⟩ := h
  rw [hverdict] at hreply
  obtain ⟨hsuccess, htable, hdisplays⟩ := hreply
  exact ⟨htable, hclock, reply, congrArg _ (checked_of_success hsuccess), hdisplays⟩

theorem moves_missing (h : (rules limit server).moves s (.ask request) answer s')
    (hverdict : (server s).verdict request = .missing) :
    Keeps (server s) (server s') ∧ ∃ told, answer = .ok (.error (.notFound told)) := by
  obtain ⟨reply, rfl, hclock, hreply⟩ := h
  rw [hverdict] at hreply
  exact ⟨⟨hreply.2, hclock⟩, _, congrArg _ (checked_of_missing hreply.1)⟩

theorem moves_taken (h : (rules limit server).moves s (.ask request) answer s')
    (hverdict : (server s).verdict request = .taken) :
    Keeps (server s) (server s') ∧ ∃ told, answer = .ok (.error (.conflict told)) := by
  obtain ⟨reply, rfl, hclock, hreply⟩ := h
  rw [hverdict] at hreply
  exact ⟨⟨hreply.2, hclock⟩, _, congrArg _ (checked_of_conflict hreply.1)⟩

/-! ## Rows that are shown -/

/-- A row that reads like another one. -/
structure Resembles (row row' : Row) : Prop where
  partition : row.partition = row'.partition
  key : row.key = row'.key
  own : ∀ name, IsOwnName name → row.properties.find? name = row'.properties.find? name

instance (name : String) : Decidable (IsOwnName name) :=
  inferInstanceAs (Decidable (_ ∧ _))

/-- What shows a row is read as one like it. -/
theorem Shows.rowOf? (h : Shows members row) :
    ∃ read, TableApi.rowOf? members = some read ∧ Resembles read row := by
  refine ⟨⟨row.partition, row.key, members.filter fun entry => entry.1 != partitionName &&
    entry.1 != keyName && entry.1 != timestampName && !isServiceMember entry.1⟩,
    ?_, rfl, rfl, fun name hname => ?_⟩
  · unfold TableApi.rowOf?
    rw [h.partition, h.key]
    rfl
  · rw [← h.own name hname]
    refine (Json.Members.find?_filter (fun name => name != partitionName && name != keyName &&
      name != timestampName && !isServiceMember name) members name).trans (if_pos ?_)
    obtain ⟨hpartition, hkey, htimestamp, hservice⟩ := hname
    simp [hpartition, hkey, htimestamp, hservice]

/-- What shows the rows of a page is read as rows like them. -/
theorem filterMap_rowOf? {items : List Json.Members} {page : List Row}
    (h : List.Forall₂ Shows items page) :
    List.Forall₂ Resembles (items.filterMap TableApi.rowOf?) page := by
  induction h with
  | nil => exact .nil
  | cons hshows _ ih =>
      obtain ⟨read, hread, hresembles⟩ := hshows.rowOf?
      rw [List.filterMap_cons, hread]
      exact .cons hresembles ih

theorem keys_of_resembles {rows rows' : List Row} (h : List.Forall₂ Resembles rows rows') :
    rows.map (·.key) = rows'.map (·.key) := by
  induction h with
  | nil => rfl
  | cons hrow _ ih => rw [List.map_cons, List.map_cons, hrow.key, ih]

theorem mergeSort_of_ascending {rows : List Row} (h : rows.Pairwise fun r r' => r.key < r'.key) :
    rows.mergeSort (fun a b => a.key ≤ b.key) = rows := by
  apply List.mergeSort_of_pairwise
  refine h.imp fun hless => ?_
  exact decide_eq_true (String.not_lt.mp (String.lt_asymm hless))

/-- Rows that are read in the order of the keys are sorted already. -/
theorem mergeSort_of_resembles {rows rows' : List Row} (h : List.Forall₂ Resembles rows rows')
    (hascending : rows'.Pairwise fun r r' => r.key < r'.key) :
    rows.mergeSort (fun a b => a.key ≤ b.key) = rows := by
  have hkeys : (rows.map (·.key)).Pairwise (· < ·) := by
    rw [keys_of_resembles h]
    exact List.pairwise_map.mpr hascending
  exact mergeSort_of_ascending (List.pairwise_map.mp hkeys)

/-! ## Queries -/

variable {shelf : Shelf} {name partition : String}

open TableService

/-- Whether a table is there can be asked. -/
theorem tableExists_upholds :
    (tableExists name).Upholds (rules limit server)
      (fun there s' => there = ((server s).table name).isSome ∧ Keeps (server s) (server s'))
      (fun _ _ => False) s := by
  refine ⟨trivial, fun answer s' hmove => ?_⟩
  cases htable : (server s).table name with
  | none =>
      obtain ⟨hkeeps, told, rfl⟩ := moves_missing hmove (by simp [verdict, htable])
      exact ⟨rfl, hkeeps⟩
  | some shelf =>
      obtain ⟨hsame, hclock, reply, rfl, _⟩ := moves_done hmove (by simp [verdict, htable])
      exact ⟨rfl, hsame, hclock⟩

/-- What a query for a page is answered. -/
theorem query_upholds {most : Option Nat} {start : Option Continuation}
    (htable : (server s).table name = some shelf) :
    (TableService.reply (.query name partition most start)).Upholds (rules limit server)
      (fun outcome s' => Keeps (server s) (server s') ∧
        ∃ reply page rest items, outcome = .ok reply ∧
          (server s).IsCut limit shelf partition most start (page :: rest) ∧
          TableService.IsPage reply.body items ∧ List.Forall₂ Shows items page ∧
          Promises reply rest (server s'))
      (fun _ _ => False) s := by
  refine ⟨trivial, fun answer s' hmove => ?_⟩
  obtain ⟨hsame, hclock, reply, rfl, hdisplays⟩ :=
    moves_done hmove (by simp only [verdict, htable, Option.isSome_some, if_true])
  obtain ⟨shelf', page, rest, items, hshelf, hpage⟩ := hdisplays
  obtain rfl : shelf = shelf' := Option.some.inj (htable.symm.trans hshelf)
  exact ⟨⟨hsame, hclock⟩, reply, page, rest, items, rfl, hpage⟩

/-- Pages are collected to their end, or until there are enough rows. -/
theorem collectPages_upholds {fuel : Nat} {most : Option Nat} {start : Option Continuation}
    {read done rows : List Row} (hfuel : 0 < fuel) (htable : (server s).table name = some shelf)
    (hcut : ∀ pages, (server s).IsCut limit shelf partition most start pages →
      pages.length ≤ fuel ∧ Suffices most rows (done ++ pages.flatten))
    (hread : List.Forall₂ Resembles read done) :
    (collectPages name partition most fuel start read).Upholds (rules limit server)
      (fun read' s' => Keeps (server s) (server s') ∧
        ∃ taken, List.Forall₂ Resembles read' taken ∧ Suffices most rows taken)
      (fun _ _ => False) s := by
  induction fuel generalizing s start read done with
  | zero => exact absurd hfuel (Nat.lt_irrefl 0)
  | succ fuel ih =>
      unfold collectPages
      refine (query_upholds htable).bind ?_
      rintro _ s' ⟨hkeeps, reply, page, rest, items, rfl, hpages, hitems, hshows, hpromises⟩
      obtain ⟨hlength, hsuffices⟩ := hcut _ hpages
      rw [List.flatten_cons, ← List.append_assoc] at hsuffices
      have hall : List.Forall₂ Resembles (read ++ items.filterMap TableApi.rowOf?) (done ++ page) :=
        List.rel_append hread (filterMap_rowOf? hshows)
      have htold : (Attempt.ofExcept (reply.decode TableService.page?) :
          Attempt TableService ServiceError _).Upholds (rules limit server)
          (fun told s'' => told = items ∧ s'' = s') (fun _ _ => False) s' := by
        rw [TableService.isPage_iff.mp hitems]
        exact ⟨rfl, rfl⟩
      refine htold.bind fun told s'' hsame => ?_
      rw [hsame.1, hsame.2]
      generalize read ++ items.filterMap TableApi.rowOf? = read' at hall
      dsimp only
      unfold Promises at hpromises
      rw [continuation?_eq]
      cases hnext : reply.header? "x-ms-continuation-NextPartitionKey" with
      | none =>
          rw [hnext] at hpromises
          rw [hpromises, List.flatten_nil, List.append_nil] at hsuffices
          exact ⟨hkeeps, done ++ page, hall, hsuffices⟩
      | some next =>
          rw [hnext] at hpromises
          obtain ⟨hne, hrest⟩ := hpromises
          rw [Option.map_some]
          dsimp only
          split
          next henough =>
            rw [hall.length_eq] at henough
            have hleading : done ++ page <+: rows :=
              (List.prefix_append _ _).trans hsuffices.leading
            exact ⟨hkeeps, done ++ page, hall, hleading, .inr henough⟩
          next =>
            rw [List.length_cons] at hlength
            have hmore := List.length_pos_iff.mpr hne
            have hcut' : ∀ pages, (server s').IsCut limit shelf partition most
                (some ⟨next, reply.header? "x-ms-continuation-NextRowKey"⟩) pages →
                pages.length ≤ fuel ∧ Suffices most rows (done ++ page ++ pages.flatten) := by
              intro pages hpages
              rw [show pages = rest from hpages.trans hrest]
              exact ⟨by omega, hsuffices⟩
            refine (ih (by omega) (hkeeps.1 ▸ htable) hcut' hall).mono ?_ fun _ _ he => he
            rintro rows s'' ⟨hkeeps', htaken⟩
            exact ⟨hkeeps.trans hkeeps', htaken⟩

/-- What suffices for so many rows holds the first so many of them. -/
theorem Suffices.take {n : Nat} {rows shown : List Row} (h : Suffices (some n) rows shown) :
    shown.take n = rows.take n := by
  rcases h.enough with hall | henough
  · rw [hall]
  · obtain ⟨rest, rfl⟩ := h.leading
    have hlength : n ≤ shown.length := by simpa [isEnough] using henough
    rw [List.take_append_of_le_length hlength]

/-- A query lists the rows of the partition in the order of their keys, as many as are wanted. -/
theorem queryPartition_upholds {most : Option Nat} {rows : List Row} (hlimit : 0 < limit)
    (htable : (server s).table name = some shelf) (hrows : shelf.Lists partition rows) :
    (queryPartition name partition most limit).Upholds (rules limit server)
      (fun read s' => Keeps (server s) (server s') ∧
        List.Forall₂ Resembles read (most.elim rows fun n => rows.take n))
      (fun _ _ => False) s := by
  have hcut : ∀ pages, (server s).IsCut limit shelf partition most none pages →
      pages.length ≤ limit ∧ Suffices most rows ([] ++ pages.flatten) := by
    rintro pages ⟨hlength, rows', hrows', hsuffices⟩
    rw [hrows.unique hrows']
    exact ⟨hlength, hsuffices⟩
  refine (collectPages_upholds hlimit htable hcut .nil).bind ?_
  rintro read s' ⟨hkeeps, taken, hread, hsuffices⟩
  have hsorted :=
    mergeSort_of_resembles hread (hrows.ascending.sublist hsuffices.leading.sublist)
  rw [hsorted]
  cases most with
  | none =>
      have hall : taken = rows := hsuffices.enough.resolve_right (by simp [isEnough])
      exact ⟨hkeeps, hall ▸ hread⟩
  | some n =>
      refine ⟨hkeeps, ?_⟩
      rw [Option.elim_some, ← hsuffices.take]
      exact List.forall₂_take n hread

/-- A table that is missing has no rows. -/
theorem queryPartition_missing {most : Option Nat} (hlimit : 0 < limit)
    (htable : (server s).table name = none) :
    (queryPartition name partition most limit).Upholds (rules limit server)
      (fun read s' => Keeps (server s) (server s') ∧ read = []) (fun _ _ => False) s := by
  obtain ⟨fuel, rfl⟩ : ∃ fuel, limit = fuel + 1 := Nat.exists_eq_succ_of_ne_zero (by omega)
  refine ⟨trivial, fun answer s' hmove => ?_⟩
  obtain ⟨hkeeps, told, rfl⟩ := moves_missing hmove (by simp [verdict, htable])
  refine ⟨hkeeps, ?_⟩
  rw [List.mergeSort_nil]
  cases most with
  | none => rfl
  | some n => exact List.take_nil

end TableServer

end SwarmUpkeep
