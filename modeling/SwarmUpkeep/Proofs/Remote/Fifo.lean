import SwarmUpkeep.Proofs.Remote.TableWeb
import SwarmUpkeep.World.Respond

/-!
# Queues in tables are queues

A table service that is used as a queue service answers like one that keeps a list of messages
under the name of each queue. The keys of messages begin with the time in digits of one width, so
that the order of the keys is the order in which the messages were put. This is so for tables that
are asked outright, and so it is for those behind the web.
-/

namespace SwarmUpkeep

/-- The messages of each queue that is there, in the order in which they were put. -/
abbrev Fifo :=
  String → Option (List Message)

/-- The queue service as an interface of its own. -/
abbrev Queues : Interface :=
  ⟨QueueCall, QueueCall.Answer⟩

namespace Fifo

/-- What a call is about is not there. -/
def Lacks (fifo : Fifo) : QueueCall → Prop
  | .delete queue | .put queue _ | .peek queue | .get queue => fifo queue = none
  | .deleteMessage queue message =>
      ∀ messages, fifo queue = some messages → ∀ m ∈ messages, m.id ≠ message.id
  | .create _ | .exists _ | .count _ => False

/-- How queues answer a call, and what they hold afterwards. A message that is put goes to the end
under an identifier of its own, and one that is taken stays where it is. -/
inductive Step (fifo : Fifo) : (call : QueueCall) → call.Answer → Fifo → Prop where
  | created {queue : String} (h : fifo queue = none) :
      Step fifo (.create queue) (.ok true) (Function.update fifo queue (some []))
  | present {queue : String} {messages : List Message} (h : fifo queue = some messages) :
      Step fifo (.create queue) (.ok false) fifo
  | deleted {queue : String} {messages : List Message} (h : fifo queue = some messages) :
      Step fifo (.delete queue) (.ok ()) (Function.update fifo queue none)
  | told (queue : String) : Step fifo (.exists queue) (.ok (fifo queue).isSome) fifo
  | put {queue text id : String} {messages : List Message} (h : fifo queue = some messages)
      (hnew : ∀ m ∈ messages, m.id ≠ id) :
      Step fifo (.put queue text) (.ok ())
        (Function.update fifo queue (some (messages ++ [⟨id, text⟩])))
  | peeked {queue : String} {messages : List Message} (h : fifo queue = some messages) :
      Step fifo (.peek queue) (.ok messages.head?) fifo
  | taken {queue : String} {messages : List Message} (h : fifo queue = some messages) :
      Step fifo (.get queue) (.ok messages.head?) fifo
  | removed {queue : String} {message m : Message} {messages : List Message}
      (h : fifo queue = some messages) (hmem : m ∈ messages) (hid : m.id = message.id) :
      Step fifo (.deleteMessage queue message) (.ok ())
        (Function.update fifo queue (some (messages.filter fun m => m.id ≠ message.id)))
  | counted (queue : String) :
      Step fifo (.count queue) (.ok ((fifo queue).getD []).length) fifo
  | missing {call : QueueCall} (what : String) (h : fifo.Lacks call) :
      Step fifo call (call.failed (.notFound what)) fifo

/-- Calls with their answers, one after another. -/
inductive Runs : Fifo → List (Exchange Queues) → Fifo → Prop where
  | nil (fifo : Fifo) : Runs fifo [] fifo
  | cons {fifo fifo' fifo'' : Fifo} {e : Exchange Queues} {rest : List (Exchange Queues)}
      (h : Step fifo e.call e.answer fifo') (hrest : Runs fifo' rest fifo'') :
      Runs fifo (e :: rest) fifo''

/-- Only creating a queue makes it exist. -/
theorem Step.absent {fifo fifo' : Fifo} {call : QueueCall} {answer : call.Answer}
    (h : Step fifo call answer fifo') {queue : String} (hcall : call ≠ .create queue)
    (hnone : fifo queue = none) : fifo' queue = none := by
  cases h with
  | @created other h =>
      have hother : queue ≠ other := fun heq => hcall (heq ▸ rfl)
      rw [Function.update_of_ne hother, hnone]
  | deleted h =>
      rw [Function.update_apply, hnone, ite_self]
  | @put other text id messages h hnew =>
      have hother : queue ≠ other := by
        rintro rfl
        cases hnone.symm.trans h
      rw [Function.update_of_ne hother, hnone]
  | @removed other message m messages h hmem hid =>
      have hother : queue ≠ other := by
        rintro rfl
        cases hnone.symm.trans h
      rw [Function.update_of_ne hother, hnone]
  | present h => exact hnone
  | told other => exact hnone
  | peeked h => exact hnone
  | taken h => exact hnone
  | counted other => exact hnone
  | missing what h => exact hnone

end Fifo

namespace TableQueue

open TableServer
open TableService (IsName IsKey)

variable {σ : Type}

/-! ## Keys -/

/-- The identifier comes before every key that is still to be given at a later time. -/
def IsPast (clock : Int) (id : String) : Prop :=
  ∀ (t : Instant) (nonce : String), clock < t.sinceEpoch → 0 ≤ t.sinceEpoch →
    t.sinceEpoch ≤ TokenSource.greatest64 → id < messageKey t nonce

theorem IsPast.mono {clock clock' : Int} {id : String} (h : IsPast clock id)
    (hclock : clock ≤ clock') : IsPast clock' id :=
  fun t nonce ht => h t nonce (Int.lt_of_le_of_lt hclock ht)

theorem keyNanos_eq {t : Instant} (hleast : 0 ≤ t.sinceEpoch)
    (hgreatest : t.sinceEpoch ≤ TokenSource.greatest64) : keyNanos t = t.sinceEpoch.toNat := by
  refine if_pos ⟨Int.le_trans ?_ hleast, hgreatest⟩
  decide

/-- A key that is given at some time comes before all later ones. -/
theorem isPast_messageKey {t : Instant} (nonce : String) (hleast : 0 ≤ t.sinceEpoch)
    (hgreatest : t.sinceEpoch ≤ TokenSource.greatest64) :
    IsPast t.sinceEpoch (messageKey t nonce) := by
  intro t' nonce' hlater hleast' hgreatest'
  have hbound : t'.sinceEpoch.toNat < 10 ^ 20 := by
    simp only [TokenSource.greatest64] at hgreatest'
    omega
  have hless := Ascii.padded_lt_padded (show 0 < 20 by omega)
    (show t.sinceEpoch.toNat < t'.sinceEpoch.toNat by omega) hbound
  have hlength : (Ascii.padded 20 t.sinceEpoch.toNat).length =
      (Ascii.padded 20 t'.sinceEpoch.toNat).length := by
    rw [Ascii.length_padded (by omega) (by omega), Ascii.length_padded (by omega) hbound]
  rw [String.lt_iff]
  unfold messageKey
  rw [keyNanos_eq hleast hgreatest, keyNanos_eq hleast' hgreatest']
  simp only [String.toList_append, String.toList_ofList, List.append_assoc]
  exact Ascii.append_lt_append hless hlength _ _

/-! ## Queues and tables -/

/-- The row of a message. -/
def rowOf (m : Message) : Row :=
  messageRow m.id m.text

/-- A table that holds these messages in their order. -/
def Shelves (shelf : Shelf) (messages : List Message) : Prop :=
  shelf.Lists partition (messages.map rowOf)

/-- The service has a table for each queue that is there, with its messages in it. -/
structure Mirrors (fifo : Fifo) (server : TableServer) : Prop where
  tables : ∀ queue, Option.Rel Shelves (server.table queue) (fifo queue)
  past : ∀ queue messages, fifo queue = some messages → ∀ m ∈ messages, IsPast server.clock m.id

namespace Mirrors

variable {fifo : Fifo} {server server' : TableServer} {queue : String}

theorem of_empty (h : ∀ queue, server.table queue = none) : Mirrors (fun _ => none) server where
  tables queue := by
    rw [h queue]
    exact .none
  past _ _ hnone := nomatch hnone

/-- A queue is there with its table, or neither is. -/
theorem cases (h : Mirrors fifo server) (queue : String) :
    (server.table queue = none ∧ fifo queue = none) ∨
      ∃ shelf messages, server.table queue = some shelf ∧ fifo queue = some messages ∧
        Shelves shelf messages := by
  have hrel := h.tables queue
  cases htable : server.table queue with
  | none =>
      rw [htable] at hrel
      cases hfifo : fifo queue with
      | none => exact .inl ⟨rfl, rfl⟩
      | some messages =>
          rw [hfifo] at hrel
          cases hrel
  | some shelf =>
      rw [htable] at hrel
      cases hfifo : fifo queue with
      | none =>
          rw [hfifo] at hrel
          cases hrel
      | some messages =>
          rw [hfifo] at hrel
          cases hrel with
          | some hshelves => exact .inr ⟨shelf, messages, rfl, rfl, hshelves⟩

theorem isSome_eq (h : Mirrors fifo server) (queue : String) :
    (server.table queue).isSome = (fifo queue).isSome := by
  rcases h.cases queue with ⟨htable, hfifo⟩ | ⟨shelf, messages, htable, hfifo, _⟩ <;>
    rw [htable, hfifo] <;> rfl

theorem absent_iff (h : Mirrors fifo server) (queue : String) :
    server.table queue = none ↔ fifo queue = none := by
  rw [← Option.isSome_eq_false_iff.trans Option.isNone_iff_eq_none, h.isSome_eq,
    Option.isSome_eq_false_iff, Option.isNone_iff_eq_none]

theorem keeps (h : Mirrors fifo server) (htable : server'.table = server.table)
    (hclock : server.clock ≤ server'.clock) : Mirrors fifo server' where
  tables := htable ▸ h.tables
  past queue messages hqueue m hm := (h.past queue messages hqueue m hm).mono hclock

/-- One queue changes with its table. -/
theorem update (h : Mirrors fifo server) {shelf : Option Shelf} {messages : Option (List Message)}
    (htable : server'.table = Function.update server.table queue shelf)
    (hclock : server.clock ≤ server'.clock) (hshelves : Option.Rel Shelves shelf messages)
    (hpast : ∀ there, messages = some there → ∀ m ∈ there, IsPast server'.clock m.id) :
    Mirrors (Function.update fifo queue messages) server' where
  tables other := by
    rw [htable]
    by_cases hother : other = queue
    · subst hother
      rw [Function.update_self, Function.update_self]
      exact hshelves
    · rw [Function.update_of_ne hother, Function.update_of_ne hother]
      exact h.tables other
  past other there hthere m hm := by
    by_cases hother : other = queue
    · subst hother
      rw [Function.update_self] at hthere
      exact hpast there hthere m hm
    · rw [Function.update_of_ne hother] at hthere
      exact (h.past other there hthere m hm).mono hclock

end Mirrors

/-! ## Messages -/

theorem messageOf_of_resembles {row : Row} {m : Message} (h : Resembles row (rowOf m)) :
    messageOf row = m := by
  have htext : row.text? textName = some m.text :=
    congrArg (fun value => value.bind Json.text?) (h.own textName (by decide))
  have hkey : row.key = m.id := h.key
  unfold messageOf
  rw [htext, hkey, Option.getD_some]

theorem map_messageOf {rows : List Row} {messages : List Message}
    (h : List.Forall₂ Resembles rows (messages.map rowOf)) : rows.map messageOf = messages := by
  induction messages generalizing rows with
  | nil =>
      cases h
      rfl
  | cons m messages ih =>
      cases h with
      | cons hrow hrows => rw [List.map_cons, messageOf_of_resembles hrow, ih hrows]

theorem Shelves.found {shelf : Shelf} {messages : List Message} (h : Shelves shelf messages)
    {id : String} {row : Row} (hrow : shelf partition id = some row) :
    ∃ m ∈ messages, m.id = id := by
  obtain ⟨hmem, hkey⟩ := (Shelf.Lists.found h id row).mp hrow
  obtain ⟨m, hm, rfl⟩ := List.mem_map.mp hmem
  exact ⟨m, hm, hkey⟩

theorem Shelves.missing {shelf : Shelf} {messages : List Message} (h : Shelves shelf messages)
    {id : String} (hnone : shelf partition id = none) : ∀ m ∈ messages, m.id ≠ id := by
  rintro m hm rfl
  have hrow := (Shelf.Lists.found h m.id (rowOf m)).mpr ⟨List.mem_map_of_mem hm, rfl⟩
  rw [hnone] at hrow
  cases hrow

/-! ## Calls -/

variable {fifo : Fifo} {server : σ → TableServer} {limit : Nat} {s : σ} {queue : String}

/-- A call has been answered as the queues answer it, and the tables hold what the queues hold
after it. -/
def Follows (server : σ → TableServer) (fifo : Fifo) (call : QueueCall) (answer : call.Answer)
    (s' : σ) : Prop :=
  ∃ fifo', Fifo.Step fifo call answer fifo' ∧ Mirrors fifo' (server s')

theorem create_upholds (h : Mirrors fifo (server s)) :
    Program.Upholds (rules limit server) (Follows server fifo (.create queue)) (create queue)
      s := by
  refine ⟨trivial, fun answer s' hmove => ?_⟩
  rcases h.cases queue with ⟨htable, hfifo⟩ | ⟨shelf, messages, htable, hfifo, hshelves⟩
  · obtain ⟨hnow, hclock, reply, rfl, _⟩ := moves_done hmove (by simp [verdict, htable])
    refine ⟨_, .created hfifo,
      h.update hnow hclock (.some Shelf.Lists.nil) fun there hthere m hm => ?_⟩
    rw [← Option.some.inj hthere] at hm
    exact absurd hm List.not_mem_nil
  · obtain ⟨hkeeps, told, rfl⟩ := moves_taken hmove (by simp [verdict, htable])
    exact ⟨fifo, .present hfifo, h.keeps hkeeps.1 hkeeps.2⟩

theorem delete_upholds (h : Mirrors fifo (server s)) :
    Program.Upholds (rules limit server) (Follows server fifo (.delete queue)) (delete queue)
      s := by
  refine ⟨trivial, fun answer s' hmove => ?_⟩
  rcases h.cases queue with ⟨htable, hfifo⟩ | ⟨shelf, messages, htable, hfifo, hshelves⟩
  · obtain ⟨hkeeps, told, rfl⟩ := moves_missing hmove (by simp [verdict, htable])
    exact ⟨fifo, .missing told hfifo, h.keeps hkeeps.1 hkeeps.2⟩
  · obtain ⟨hnow, hclock, reply, rfl, _⟩ := moves_done hmove (by simp [verdict, htable])
    exact ⟨_, .deleted hfifo, h.update hnow hclock .none fun _ hnone => by cases hnone⟩

theorem exists_upholds (h : Mirrors fifo (server s)) :
    Program.Upholds (rules limit server) (Follows server fifo (.exists queue)) (exists? queue)
      s := by
  refine Program.Upholds.mono tableExists_upholds fun result s' hresult => ?_
  cases result with
  | ok there =>
      obtain ⟨rfl, hkeeps⟩ := hresult
      rw [h.isSome_eq]
      exact ⟨fifo, .told queue, h.keeps hkeeps.1 hkeeps.2⟩
  | error e => exact hresult.elim

theorem put_upholds (text : String) (h : Mirrors fifo (server s)) :
    Program.Upholds (rules limit server) (Follows server fifo (.put queue text)) (put queue text)
      s := by
  refine ⟨trivial, fun t s₁ hnow => ⟨trivial, fun nonce s₂ hnonce => ⟨trivial, ?_⟩⟩⟩
  obtain ⟨htable₁, hclock₁, hless, hleast, hgreatest⟩ := hnow
  obtain ⟨htable₂, hclock₂⟩ := hnonce
  rw [hclock₁] at hclock₂
  intro answer s₃ hmove
  have hkept : Mirrors fifo (server s₂) :=
    h.keeps (htable₂.trans htable₁) (hless.le.trans hclock₂)
  rcases hkept.cases queue with ⟨htable, hfifo⟩ | ⟨shelf, messages, htable, hfifo, hshelves⟩
  · obtain ⟨hkeeps, told, rfl⟩ := moves_missing hmove (by simp [verdict, htable])
    exact ⟨fifo, .missing told hfifo, hkept.keeps hkeeps.1 hkeeps.2⟩
  · have hbefore : ∀ m ∈ messages, m.id < messageKey t nonce :=
      fun m hm => h.past queue messages hfifo m hm t nonce hless hleast hgreatest
    have hnew : ∀ m ∈ messages, m.id ≠ messageKey t nonce :=
      fun m hm hid => String.lt_irrefl _ (hid ▸ hbefore m hm)
    have hfree : shelf partition (messageKey t nonce) = none := by
      refine Option.eq_none_iff_forall_ne_some.mpr fun row hrow => ?_
      obtain ⟨m, hm, hid⟩ := hshelves.found hrow
      exact hnew m hm hid
    have hverdict : (server s₂).verdict
        (.insert queue (messageRow (messageKey t nonce) text)) = .done := by
      have hrow : (shelf (messageRow (messageKey t nonce) text).partition
          (messageRow (messageKey t nonce) text).key) = none := hfree
      simp [verdict, htable, hrow]
    obtain ⟨hafter, hclock₃, reply, rfl, _⟩ := moves_done hmove hverdict
    have hlast : Shelves (shelf.set partition (messageKey t nonce)
        (some (messageRow (messageKey t nonce) text)))
        (messages ++ [⟨messageKey t nonce, text⟩]) := by
      have hbehind : ∀ r ∈ messages.map rowOf, r.key < (rowOf ⟨messageKey t nonce, text⟩).key := by
        intro r hr
        obtain ⟨m, hm, rfl⟩ := List.mem_map.mp hr
        exact hbefore m hm
      have hconcat := Shelf.Lists.concat hshelves hbehind
      rw [← List.map_singleton, ← List.map_append] at hconcat
      exact hconcat
    refine ⟨_, .put hfifo hnew, hkept.update ?_ hclock₃ (.some hlast) ?_⟩
    · rw [hafter, tablesAfter, htable]
      rfl
    · intro there hthere m hm
      have hclock : t.sinceEpoch ≤ (server s₃).clock := hclock₂.trans hclock₃
      rw [← Option.some.inj hthere] at hm
      rcases List.mem_append.mp hm with hm | hm
      · exact (h.past queue messages hfifo m hm).mono (hless.le.trans hclock)
      · rw [List.mem_singleton.mp hm]
        exact (isPast_messageKey nonce hleast hgreatest).mono hclock

theorem peek_upholds (hlimit : 0 < limit) (h : Mirrors fifo (server s)) :
    (peek limit queue).Upholds (rules limit server)
      (fun head s' => ∃ messages, fifo queue = some messages ∧ head = messages.head? ∧
        Mirrors fifo (server s'))
      (fun e s' => (∃ what, e = .notFound what) ∧ fifo queue = none ∧ Mirrors fifo (server s'))
      s := by
  refine Attempt.Upholds.bind (tableExists_upholds.monoError fun _ _ he => he.elim) ?_
  rintro there s' ⟨rfl, hkeeps⟩
  have hkept := h.keeps hkeeps.1 hkeeps.2
  rcases h.cases queue with ⟨htable, hfifo⟩ | ⟨shelf, messages, htable, hfifo, hshelves⟩
  · rw [htable]
    exact ⟨⟨_, rfl⟩, hfifo, hkept⟩
  · rw [htable, Option.isSome_some, if_pos rfl]
    have htable' : (server s').table queue = some shelf := hkeeps.1 ▸ htable
    refine Attempt.Upholds.bind ((queryPartition_upholds hlimit htable' hshelves).monoError
      fun _ _ he => he.elim) ?_
    rintro read s'' ⟨hkeeps', hread⟩
    rw [Option.elim_some, ← List.map_take] at hread
    refine ⟨messages, hfifo, ?_, hkept.keeps hkeeps'.1 hkeeps'.2⟩
    rw [← List.head?_map, map_messageOf hread, List.head?_take]
    rfl

theorem deleteMessage_upholds (message : Message) (h : Mirrors fifo (server s)) :
    Program.Upholds (rules limit server) (Follows server fifo (.deleteMessage queue message))
      (deleteMessage queue message) s := by
  refine ⟨trivial, fun answer s' hmove => ?_⟩
  rcases h.cases queue with ⟨htable, hfifo⟩ | ⟨shelf, messages, htable, hfifo, hshelves⟩
  · obtain ⟨hkeeps, told, rfl⟩ := moves_missing hmove (by simp [verdict, htable])
    refine ⟨fifo, .missing told fun there hthere => ?_, h.keeps hkeeps.1 hkeeps.2⟩
    rw [hfifo] at hthere
    cases hthere
  · cases hrow : shelf partition message.id with
    | none =>
        obtain ⟨hkeeps, told, rfl⟩ := moves_missing hmove (by simp [verdict, htable, hrow])
        refine ⟨fifo, .missing told fun there hthere => ?_, h.keeps hkeeps.1 hkeeps.2⟩
        rw [hfifo] at hthere
        rw [← Option.some.inj hthere]
        exact hshelves.missing hrow
    | some row =>
        obtain ⟨m, hm, hid⟩ := hshelves.found hrow
        obtain ⟨hafter, hclock, reply, rfl, _⟩ :=
          moves_done hmove (by simp [verdict, htable, hrow])
        have hrest : Shelves (shelf.set partition message.id none)
            (messages.filter fun m => m.id ≠ message.id) := by
          have hremoved := Shelf.Lists.remove hshelves message.id
          rw [List.filter_map] at hremoved
          exact hremoved
        refine ⟨_, .removed hfifo hm hid, h.update ?_ hclock (.some hrest) ?_⟩
        · rw [hafter, tablesAfter, htable]
          rfl
        · intro there hthere m hm
          rw [← Option.some.inj hthere] at hm
          exact (h.past queue messages hfifo m (List.mem_filter.mp hm).1).mono hclock

theorem count_upholds (hlimit : 0 < limit) (h : Mirrors fifo (server s)) :
    (count limit queue).Upholds (rules limit server)
      (fun n s' => n = ((fifo queue).getD []).length ∧ Mirrors fifo (server s'))
      (fun _ _ => False) s := by
  rcases h.cases queue with ⟨htable, hfifo⟩ | ⟨shelf, messages, htable, hfifo, hshelves⟩
  · refine Attempt.Upholds.bind (queryPartition_missing hlimit htable) ?_
    rintro _ s' ⟨hkeeps, rfl⟩
    rw [hfifo]
    exact ⟨rfl, h.keeps hkeeps.1 hkeeps.2⟩
  · refine Attempt.Upholds.bind (queryPartition_upholds hlimit htable hshelves) ?_
    rintro read s' ⟨hkeeps, hread⟩
    rw [hfifo]
    refine ⟨?_, h.keeps hkeeps.1 hkeeps.2⟩
    rw [hread.length_eq, Option.elim_none, List.length_map]
    rfl

/-- Every call is answered as the queues answer it, and the tables hold what the queues hold
after it. -/
theorem respond_upholds (call : QueueCall) (hlimit : 0 < limit) (h : Mirrors fifo (server s)) :
    (respond limit call).Upholds (rules limit server) (Follows server fifo call) s := by
  cases call with
  | create queue => exact create_upholds h
  | delete queue => exact delete_upholds h
  | «exists» queue => exact exists_upholds h
  | put queue text => exact put_upholds text h
  | peek queue =>
      refine Program.Upholds.mono (peek_upholds hlimit h) fun result s' hresult => ?_
      cases result with
      | ok head =>
          obtain ⟨messages, hfifo, rfl, hkept⟩ := hresult
          exact ⟨fifo, .peeked hfifo, hkept⟩
      | error e =>
          obtain ⟨⟨what, rfl⟩, hfifo, hkept⟩ := hresult
          exact ⟨fifo, .missing what hfifo, hkept⟩
  | get queue =>
      refine Program.Upholds.mono (peek_upholds hlimit h) fun result s' hresult => ?_
      cases result with
      | ok head =>
          obtain ⟨messages, hfifo, rfl, hkept⟩ := hresult
          exact ⟨fifo, .taken hfifo, hkept⟩
      | error e =>
          obtain ⟨⟨what, rfl⟩, hfifo, hkept⟩ := hresult
          exact ⟨fifo, .missing what hfifo, hkept⟩
  | deleteMessage queue message => exact deleteMessage_upholds message h
  | count queue =>
      refine Program.Upholds.mono (count_upholds hlimit h) fun result s' hresult => ?_
      cases result with
      | ok n =>
          obtain ⟨rfl, hkept⟩ := hresult
          exact ⟨fifo, .counted queue, hkept⟩
      | error e => exact hresult.elim

/-! ## Sequences of calls -/

/-- One call after another, whether they fail or not. -/
def asking : List QueueCall → Program Queues Unit
  | [] => .done ()
  | call :: rest => .ask call fun _ => asking rest

theorem asking_asks (calls : List QueueCall) :
    (asking calls).Asks fun call : QueueCall => call ∈ calls := by
  induction calls with
  | nil => exact trivial
  | cons call rest ih =>
      exact ⟨List.mem_cons_self, fun _ _ _ => ih.mono fun _ => List.mem_cons_of_mem call⟩

/-- Calls one after another are answered as by queues of messages, and what the tables hold at the
end is what the queues hold. Nothing but its creation makes a queue exist. -/
structure Refines (fifo : Fifo) (server : σ → TableServer) (calls : List QueueCall)
    (serve : σ → (c : QueueCall) → c.Answer × σ) (s : σ) : Prop where
  answered : ∃ fifo', Fifo.Runs fifo ((asking calls).transcript serve s) fifo' ∧
    Mirrors fifo' (server ((asking calls).run serve s).2)
  absent : ∀ queue, .create queue ∉ calls → (server s).table queue = none →
    (server ((asking calls).run serve s).2).table queue = none

/-- Where each call is answered as the queues answer it, so are calls one after another. -/
theorem refines_of_follows {serve : σ → (c : QueueCall) → c.Answer × σ} {calls : List QueueCall}
    (h : Mirrors fifo (server s))
    (hfollows : ∀ v ∈ (asking calls).visits serve s, ∀ fifo, Mirrors fifo (server v.1) →
      Follows server fifo v.2 (serve v.1 v.2).1 (serve v.1 v.2).2) :
    Refines fifo server calls serve s := by
  induction calls generalizing s fifo with
  | nil => exact ⟨⟨fifo, .nil fifo, h⟩, fun _ _ hnone => hnone⟩
  | cons call rest ih =>
      obtain ⟨hhead, hrest⟩ := List.forall_mem_cons.mp hfollows
      obtain ⟨middle, hstep, hmirrors⟩ := hhead fifo h
      obtain ⟨⟨fifo', hruns, hend⟩, habsent⟩ := ih hmirrors hrest
      refine ⟨⟨fifo', .cons hstep hruns, hend⟩, fun queue hcalls hnone => ?_⟩
      obtain ⟨hcall, hcalls⟩ := List.ne_and_not_mem_of_not_mem_cons hcalls
      apply habsent queue hcalls
      rw [hmirrors.absent_iff]
      exact hstep.absent hcall.symm ((h.absent_iff queue).mp hnone)

/-- The answers to calls by tables that are asked outright. -/
def outright (pages : Nat) (serve : σ → (c : TableServiceCall) → c.Answer × σ) (s : σ)
    (call : QueueCall) : call.Answer × σ :=
  (respond pages call).run serve s

/-- Tables that are asked outright answer as queues. -/
theorem tables_refine {serve : σ → (c : TableServiceCall) → c.Answer × σ} {calls : List QueueCall}
    (hlimit : 0 < limit) (h : Mirrors fifo (server s))
    (hserved : Program.Obeys (rules limit server) serve
      (((asking calls).via (respond limit)).visits serve s)) :
    Refines fifo server calls (outright limit serve) s := by
  rw [Program.visits_via] at hserved
  refine refines_of_follows h fun v hv fifo hmirrors => ?_
  exact (respond_upholds v.2 hlimit hmirrors).run fun w hw =>
    hserved w (List.mem_flatMap.mpr ⟨v, hv, hw⟩)

section

variable {services : Services} {web : σ → (c : WebCall) → c.Answer × σ}

/-- The answers to calls by the services of a run over the web. -/
def overWeb (services : Services) (web : σ → (c : WebCall) → c.Answer × σ) (s : σ)
    (call : QueueCall) : call.Answer × σ :=
  Program.run web (services.respond (.queue call)) s

/-- The services of a run keep the queues in their tables. -/
theorem overWeb_eq (services : Services) (web : σ → (c : WebCall) → c.Answer × σ) :
    overWeb services web =
      outright services.pageLimit
        (Program.behind (I := TableService) services.tables.respond web) := by
  funext s call
  exact Program.run_via (I := TableService) (J := Web) (respond services.pageLimit call) s

/-- Over the web the tables are asked nothing but what they can take from requests, and they answer
it as they would if they were asked outright. -/
theorem obeys_behind {account : String} {calls : List QueueCall}
    (hmake : TableApi.make account = .ok services.tables)
    (hquery : services.tables.base.query = none) (hcalls : ∀ call ∈ calls, call.IsReadable)
    (hserved : Program.Obeys (webRules limit services.tables.base server) web
      (Program.visits (I := Web) web
        ((asking calls).via fun c => services.respond (.queue c)) s)) :
    Program.Obeys (rules limit server) (Program.behind services.tables.respond web)
      (((asking calls).via (respond services.pageLimit)).visits
        (Program.behind services.tables.respond web) s) := by
  have hvia : (asking calls).via (fun c => services.respond (.queue c)) =
      ((asking calls).via (respond services.pageLimit)).via services.tables.respond :=
    (asking_asks calls).via_via fun _ _ => rfl
  have hasks : ((asking calls).via (respond services.pageLimit)).Asks
      TableServiceCall.IsReadable :=
    (asking_asks calls).via fun call hcall =>
      (respond_asks services.pageLimit call).mono fun _ => (hcalls call hcall).needs
  rw [hvia] at hserved
  exact Program.Obeys.via hserved (hasks.visits _ s)
    fun s c hc => TableServer.respond_upholds (TableApi.make_base hmake) hquery s c hc

end

/-- Calls one after another are answered as by queues of messages, and what the tables hold at the
end is what the queues hold. Nothing but its creation makes a queue exist. This is so of tables that
are asked outright, and over the web for calls about queues whose names are letters and digits and
about messages with such identifiers as messages are given. -/
theorem calls_answered_by_queues (fifo : Fifo) (calls : List QueueCall) (hlimit : 0 < limit) :
    (∀ (server : σ → TableServer) (serve : σ → (c : TableServiceCall) → c.Answer × σ) (s : σ),
      Mirrors fifo (server s) →
      Program.Obeys (rules limit server) serve
        (((asking calls).via (respond limit)).visits serve s) →
      Refines fifo server calls (outright limit serve) s) ∧
    ∀ (account : String) (services : Services) (server : σ → TableServer)
      (web : σ → (c : WebCall) → c.Answer × σ) (s : σ),
      TableApi.make account = .ok services.tables → services.tables.base.query = none →
      services.pageLimit = limit → (∀ call ∈ calls, call.IsReadable) → Mirrors fifo (server s) →
      Program.Obeys (webRules limit services.tables.base server) web
        (Program.visits (I := Web) web
          ((asking calls).via fun c => services.respond (.queue c)) s) →
      Refines fifo server calls (overWeb services web) s := by
  refine ⟨fun server serve s h hserved => tables_refine hlimit h hserved, ?_⟩
  rintro account services server web s hmake hquery rfl hcalls h hserved
  rw [overWeb_eq]
  exact tables_refine hlimit h (obeys_behind hmake hquery hcalls hserved)

/-- The queue of the trial. -/
def trialQueue : String :=
  "upgradequeue"

/-- When the service is asked for the nth time. -/
def trialTime (asked : Nat) : Instant :=
  ⟨1800000000 + asked, 0⟩

/-- Its message, which is put when the clock is read for the second time. -/
def trialMessage : Message :=
  ⟨messageKey (trialTime 3) "n", "upgrade"⟩

/-- A page with these rows in it. -/
def pageText (rows : List Row) : String :=
  (Json.obj [("value", .arr (rows.map TableApi.rowJson))]).text

/-- The replies of a service that shows the message behind an empty page. -/
def trialReply : (asked : Nat) → Response
  | 13 => ⟨200, [("x-ms-continuation-NextPartitionKey", partition)], pageText []⟩
  | 16 => ⟨200, [], pageText [rowOf trialMessage]⟩
  | _ => ⟨204, [], ""⟩

/-- The table of the queue when the service is asked for the nth time. It is made at once, and the
message is put into it and taken out again. -/
def trialShelf (asked : Nat) : Option Shelf :=
  let full : Shelf := Shelf.set (fun _ _ => none) partition (rowOf trialMessage).key
    (some (rowOf trialMessage))
  if asked < 3 then none
  else if asked < 8 then some fun _ _ => none
  else if asked < 20 then some full
  else some (full.set partition trialMessage.id none)

def trialServer (asked : Nat) : TableServer where
  table := Function.update (fun _ => none) trialQueue (trialShelf asked)
  pages _ := [[rowOf trialMessage]]
  clock := (1799999999 + asked) * 1000000000

def trialWeb (asked : Nat) (c : WebCall) : c.Answer × Nat :=
  (match c with
    | .token _ => .ok "token"
    | .outside (.send _) => .ok (trialReply asked)
    | .outside .now => trialTime asked
    | .outside .nonce => "n"
    | .outside (.execute _ _) => .error ""
    | .outside (.pause _) => (), asked + 1)

def trialCalls : List QueueCall :=
  [.create trialQueue, .put trialQueue "upgrade", .peek trialQueue,
    .deleteMessage trialQueue trialMessage]

theorem trialCalls_isReadable : ∀ call ∈ trialCalls, call.IsReadable := by
  have hname : IsName trialQueue := by decide
  have hkey : IsKey trialMessage.id := ⟨by decide +kernel, by decide +kernel⟩
  simp only [trialCalls, List.forall_mem_cons]
  exact ⟨hname, hname, hname, ⟨hname, hkey⟩, fun _ h => absurd h List.not_mem_nil⟩

/-- The tables as they are asked by the services of the trial. -/
def trialServe : Nat → (c : TableServiceCall) → c.Answer × Nat :=
  Program.behind (I := TableService) Services.trial.tables.respond trialWeb

theorem visits_trialCalls :
    ((asking trialCalls).via (respond 2)).visits trialServe 0 =
      [(0, .ask (.createTable trialQueue)), (3, .now), (4, .nonce),
        (5, .ask (.insert trialQueue (rowOf trialMessage))), (8, .ask (.findTable trialQueue)),
        (11, .ask (.query trialQueue partition (some 1) none)),
        (14, .ask (.query trialQueue partition (some 1) (some ⟨partition, none⟩))),
        (17, .ask (.delete trialQueue partition trialMessage.id))] := by
  decide +kernel

theorem trial_rests (asked : Nat) (h : trialShelf (asked + 1) = trialShelf asked) :
    Rests (trialServer asked) (trialServer (asked + 1)) := by
  refine ⟨?_, rfl, ?_⟩
  · simp only [trialServer, h]
  · simp only [trialServer]
    omega

/-- What is asked over the web is answered as the service replies, if it rests until then. -/
theorem trial_obeys (request : TableRequest) (asked : Nat)
    (hrequest : TableService.IsReadable request) (hasked : asked < 20)
    (hfirst : trialShelf (asked + 1) = trialShelf asked)
    (hsecond : trialShelf (asked + 2) = trialShelf (asked + 1))
    (hreply : (trialServer (asked + 2)).Replies 2 request (trialReply (asked + 2))
      (trialServer (asked + 3))) :
    Program.Obeys (webRules 2 Services.trial.tables.base trialServer) trialWeb
      (Program.visits (I := Web) trialWeb (Services.trial.tables.ask request) asked) := by
  obtain ⟨sent, hsent, hread⟩ :=
    TableService.read?_request (TableApi.make_base Services.make_trial) Services.query_trial
      hrequest "token" (trialTime (asked + 1))
  have hvisits : Program.visits (I := Web) trialWeb (Services.trial.tables.ask request) asked =
      [(asked, .token TokenSource.storageResource), (asked + 1, .outside .now),
        (asked + 2, .outside (.send sent))] := by
    rw [TableApi.ask_eq]
    simp only [Program.visits, trialWeb, hsent]
  rw [hvisits]
  simp only [Program.Obeys, List.forall_mem_cons]
  refine ⟨fun _ => ⟨⟨"token", rfl⟩, trial_rests _ hfirst⟩, ?_, ?_, fun _ hv =>
    absurd hv List.not_mem_nil⟩
  · have hrests := trial_rests _ hsecond
    refine ⟨hrests.table, hrests.pages, ?_, ?_, ?_, ?_⟩ <;>
      simp only [trialServer, trialWeb, trialTime, Instant.sinceEpoch, TokenSource.greatest64] <;>
      omega
  · intro other hother
    cases hread.symm.trans hother
    exact ⟨_, rfl, hreply⟩

theorem pages_of_trial :
    TableService.IsPage (trialReply 13).body [] ∧
      TableService.IsPage (trialReply 16).body
        [[(TableApi.partitionName, .str partition), (TableApi.keyName, .str trialMessage.id),
          (textName, .str trialMessage.text)]] :=
  ⟨TableService.isPage_iff.mpr (by decide +kernel), TableService.isPage_iff.mpr (by decide +kernel)⟩

/-- The message is in the table from when it is put until it is taken out. -/
theorem lists_of_trial :
    (Shelf.set (fun _ _ => none) partition (rowOf trialMessage).key
      (some (rowOf trialMessage))).Lists partition [rowOf trialMessage] :=
  Shelf.Lists.nil.concat fun _ hr => absurd hr List.not_mem_nil

theorem trialWeb_obeys :
    Program.Obeys (webRules 2 Services.trial.tables.base trialServer) trialWeb
      (Program.visits (I := Web) trialWeb
        ((asking trialCalls).via fun c => Services.trial.respond (.queue c)) 0) := by
  have hname : IsName trialQueue := trialCalls_isReadable _ (.head _)
  have hkey : IsKey trialMessage.id :=
    (trialCalls_isReadable (.deleteMessage trialQueue trialMessage) (by simp [trialCalls])).2
  have htable (asked : Nat) : (trialServer asked).table trialQueue = trialShelf asked := by
    simp [trialServer]
  have hclock (asked : Nat) : (trialServer asked).clock ≤ (trialServer (asked + 1)).clock := by
    simp only [trialServer]
    omega
  -- What is done to the queue is all that is done.
  have hafter (asked : Nat) (shelf : Option Shelf) (h : trialShelf (asked + 1) = shelf) :
      (trialServer (asked + 1)).table =
        Function.update (trialServer asked).table trialQueue shelf := by
    rw [← h]
    exact (Function.update_idem ..).symm
  have hsame (asked : Nat) (h : trialShelf (asked + 1) = trialShelf asked) :
      (trialServer (asked + 1)).table = (trialServer asked).table := by
    simp only [trialServer, h]
  have hshows : Shows [(TableApi.partitionName, .str partition),
      (TableApi.keyName, .str trialMessage.id), (textName, .str trialMessage.text)]
      (rowOf trialMessage) := by
    refine ⟨rfl, rfl, fun name hname => ?_⟩
    rw [Json.Members.find?_cons, if_neg hname.1.symm, Json.Members.find?_cons,
      if_neg hname.2.1.symm]
    rfl
  have hall : ∀ v ∈ ((asking trialCalls).via (respond 2)).visits trialServe 0,
      Program.Obeys (webRules 2 Services.trial.tables.base trialServer) trialWeb
        (Program.visits (I := Web) trialWeb (Services.trial.tables.respond v.2) v.1) := by
    rw [visits_trialCalls]
    simp only [List.forall_mem_cons]
    refine ⟨?_, ?_, ?_, ?_, ?_, ?_, ?_, ?_, fun _ hv => absurd hv List.not_mem_nil⟩
    · exact trial_obeys (.createTable trialQueue) 0 trivial (by decide) rfl rfl
        ⟨hclock _, rfl, hafter 2 _ rfl, trivial⟩
    · exact List.forall_mem_singleton.mpr ⟨rfl, rfl, rfl, by decide, by decide, by decide⟩
    · exact List.forall_mem_singleton.mpr (trial_rests 4 rfl)
    · refine trial_obeys (.insert trialQueue (rowOf trialMessage)) 5
        ⟨hname, isStorable_messageRow _ _⟩ (by decide) rfl rfl ⟨hclock _, rfl, ?_, trivial⟩
      simp only [tablesAfter, htable]
      exact hafter 7 _ rfl
    · exact trial_obeys (.findTable trialQueue) 8 hname (by decide) rfl rfl
        ⟨hclock _, rfl, hsame 10 rfl, trivial⟩
    · refine trial_obeys (.query trialQueue partition (some 1) none) 11 hname (by decide)
        rfl rfl ⟨hclock _, rfl, hsame 13 rfl, _, [], [[rowOf trialMessage]], [], htable 13, ?_,
          pages_of_trial.1, .nil, List.cons_ne_nil _ _, rfl⟩
      exact ⟨by decide, [rowOf trialMessage], lists_of_trial, List.prefix_rfl, .inl rfl⟩
    · exact trial_obeys (.query trialQueue partition (some 1) (some ⟨partition, none⟩)) 14
        hname (by decide) rfl rfl ⟨hclock _, rfl, hsame 16 rfl, _, [rowOf trialMessage], [], _,
          htable 16, rfl, pages_of_trial.2, .cons hshows .nil, rfl⟩
    · refine trial_obeys (.delete trialQueue partition trialMessage.id) 17
        ⟨hname, isKey_partition, hkey⟩ (by decide) rfl rfl ⟨hclock _, ?_⟩
      have hverdict : (trialServer 19).verdict (.delete trialQueue partition trialMessage.id) =
          .done := rfl
      rw [hverdict]
      refine ⟨rfl, ?_, trivial⟩
      simp only [tablesAfter, htable]
      exact hafter 19 _ rfl
  have hvia : (asking trialCalls).via (fun c => Services.trial.respond (.queue c)) =
      ((asking trialCalls).via (respond 2)).via Services.trial.tables.respond :=
    (asking_asks trialCalls).via_via fun _ _ => rfl
  rw [hvia, Program.visits_via]
  intro w hw
  obtain ⟨v, hv, hw⟩ := List.mem_flatMap.mp hw
  exact hall v hv w hw

/-- The message is put, shown on the second page of a query, and taken out again, by the services of
the trial and by the tables behind them. -/
theorem calls_answered_by_queues_trial :
    TableApi.make "swarmsa" = .ok Services.trial.tables ∧
      Program.Obeys (webRules 2 Services.trial.tables.base trialServer) trialWeb
        (Program.visits (I := Web) trialWeb
          ((asking trialCalls).via fun c => Services.trial.respond (.queue c)) 0) ∧
      Refines (fun _ => none) trialServer trialCalls (overWeb Services.trial trialWeb) 0 ∧
      Refines (fun _ => none) trialServer trialCalls (outright 2 trialServe) 0 ∧
      (overWeb Services.trial trialWeb 8 (.peek trialQueue)).1 = .ok (some trialMessage) := by
  have hmirrors : Mirrors (fun _ => none) (trialServer 0) :=
    .of_empty fun _ => congrFun (Function.update_eq_self trialQueue fun _ => none) _
  obtain ⟨houtright, hweb⟩ :=
    calls_answered_by_queues (σ := Nat) (fun _ => none) trialCalls (show 0 < 2 by decide)
  refine ⟨Services.make_trial, trialWeb_obeys, ?_, ?_, ?_⟩
  · exact hweb "swarmsa" Services.trial trialServer trialWeb 0 Services.make_trial
      Services.query_trial rfl trialCalls_isReadable hmirrors trialWeb_obeys
  · refine houtright trialServer trialServe 0 hmirrors ?_
    exact obeys_behind Services.make_trial Services.query_trial trialCalls_isReadable trialWeb_obeys
  · decide +kernel

end TableQueue

end SwarmUpkeep
