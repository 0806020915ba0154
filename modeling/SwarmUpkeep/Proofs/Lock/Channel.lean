import SwarmUpkeep.Proofs.Remote.Separation
import SwarmUpkeep.Proofs.Swarm.Record
import SwarmUpkeep.Proofs.World.Queues

/-!
# The lock as a channel

A lock that is held is a list of notices. Signals are put at its end, and the one at its head is
taken by the node that it names and by no other. Whatever is done to the lock, in whichever order,
it answers as the list does, and only taking it and giving it up changes whether it is held.
-/

namespace SwarmUpkeep

open Attempt Control

/-- Only creating a queue and deleting it changes whether one is there. -/
theorem Fifo.Step.isSome_eq {fifo fifo' : Fifo} {call : QueueCall} {answer : call.Answer}
    (h : Step fifo call answer fifo') (hcreate : ∀ queue, call ≠ .create queue)
    (hdelete : ∀ queue, call ≠ .delete queue) (name : String) :
    (fifo' name).isSome = (fifo name).isSome := by
  have hupdate : ∀ {queue messages} (left : List Message), fifo queue = some messages →
      (Function.update fifo queue (some left) name).isSome = (fifo name).isSome := by
    intro queue messages left hqueue
    rw [Function.update_apply]
    split
    next hname => rw [hname, hqueue, Option.isSome_some, Option.isSome_some]
    next => rfl
  cases h with
  | created h => exact absurd rfl (hcreate _)
  | deleted h => exact absurd rfl (hdelete _)
  | put h hnew => exact hupdate _ h
  | removed h hmem hid => exact hupdate _ h
  | present h => rfl
  | told queue => rfl
  | peeked h => rfl
  | taken h => rfl
  | counted queue => rfl
  | missing what h => rfl

/-- A question to the clock, or to a queue that is neither created nor deleted by it. -/
def Call.IsPosting : Call → Prop
  | .queue (.create _) | .queue (.delete _) => False
  | .queue _ | .now => True
  | _ => False

namespace Lock

/-- What a message says: who is to act next, or nothing that can be read. -/
inductive Notice where
  | naming (signal : RejoinSignal)
  | garbled (text : String)

namespace Notice

def ofText (text : String) : Notice :=
  match RejoinSignal.parse? text with
  | some signal => .naming signal
  | none => .garbled text

def read : Notice → Except LockError RejoinSignal
  | .naming signal => .ok signal
  | .garbled text => .error (.malformedSignal text)

theorem signalOf_eq (message : Message) : signalOf message = (ofText message.text).read := by
  unfold signalOf ofText
  cases RejoinSignal.parse? message.text <;> rfl

/-- The text of a signal is a notice of it. -/
theorem ofText_text {signal : RejoinSignal} (hkept : signal.enqueuedAt.isKept = true)
    (hnanos : signal.enqueuedAt.nanos < 1000000000) : ofText signal.text = .naming signal := by
  rw [ofText, RejoinSignal.parse?_text ⟨hkept, .inl hnanos⟩]

end Notice

/-! ## The list of notices -/

/-- The notices of a lock that is held. -/
abbrev Channel :=
  Option (List Notice)

namespace Channel

/-- What is read at the head. -/
def head (channel : Channel) : Except LockError (Option RejoinSignal) :=
  match channel.getD [] with
  | [] => .ok none
  | first :: _ => first.read.map some

/-- The signal at the head, if it names the node. -/
def taken (channel : Channel) (nodeId : String) : Except LockError (Option RejoinSignal) :=
  channel.head.map fun signal => signal.filter fun signal => signal.nodeId = nodeId

/-- The notices without the one at the head, if that one names the node. -/
def take (channel : Channel) (nodeId : String) : Channel :=
  match channel with
  | some (.naming signal :: rest) =>
      if signal.nodeId = nodeId then some rest else some (.naming signal :: rest)
  | channel => channel

/-- The notices after a use of the lock at some instant. -/
def next (channel : Channel) (now : Instant) : Use → Channel
  | .acquire => some (channel.getD [])
  | .release => none
  | .enqueue nodeId => channel.map fun notices => notices ++ [.naming ⟨nodeId, now⟩]
  | .consumeFor nodeId => channel.take nodeId
  | .isHeld | .pendingSignals | .peek => channel

/-- What a use of the lock at some instant results in. -/
def Answers (channel : Channel) (now : Instant) : (use : Use) → Except LockError use.Result → Prop
  | .isHeld, result => result = .ok channel.isSome
  | .acquire, result => result = .ok (if channel.isSome then .alreadyLocked else .acquired)
  | .release, result => result = .ok ()
  | .enqueue nodeId, result =>
      if channel.isSome then result = .ok ⟨nodeId, now⟩
      else ∃ what, result = .error (.service (.notFound what))
  | .pendingSignals, result => result = .ok (channel.getD []).length
  | .peek, result => result = channel.head
  | .consumeFor nodeId, result => result = channel.taken nodeId

/-- What the messages of a queue say. -/
def ofQueue (fifo : Fifo) (queue : String) : Channel :=
  (fifo queue).map fun messages => messages.map fun m => .ofText m.text

theorem ofQueue_of_none {fifo : Fifo} {queue : String} (h : fifo queue = none) :
    ofQueue fifo queue = none := by
  rw [ofQueue, h, Option.map_none]

theorem ofQueue_of_some {fifo : Fifo} {queue : String} {messages : List Message}
    (h : fifo queue = some messages) :
    ofQueue fifo queue = some (messages.map fun m => .ofText m.text) := by
  rw [ofQueue, h, Option.map_some]

theorem taken_of_head {channel : Channel} {nodeId : String} {signal : RejoinSignal}
    (h : channel.head = .ok (some signal)) :
    channel.taken nodeId = .ok (if signal.nodeId = nodeId then some signal else none) := by
  simp [taken, h, Except.map, Option.filter_some]

/-- Nothing is taken unless the head names the node. -/
theorem take_eq_self {channel : Channel} {nodeId : String}
    (h : ∀ signal, channel.head = .ok (some signal) → signal.nodeId ≠ nodeId) :
    channel.take nodeId = channel := by
  unfold take
  split
  next signal rest => exact if_neg (h signal rfl)
  next => rfl

/-- A signal that is read at the head is that of the first message. -/
theorem of_head {fifo : Fifo} {queue : String} {signal : RejoinSignal}
    (h : (ofQueue fifo queue).head = .ok (some signal)) :
    ∃ m rest, fifo queue = some (m :: rest) ∧ Notice.ofText m.text = .naming signal := by
  cases hqueue : fifo queue with
  | none =>
      rw [ofQueue_of_none hqueue] at h
      cases h
  | some messages =>
      rw [ofQueue_of_some hqueue] at h
      cases messages with
      | nil => cases h
      | cons m rest =>
          refine ⟨m, rest, rfl, ?_⟩
          cases hnotice : Notice.ofText m.text with
          | naming head =>
              rw [List.map_cons, hnotice] at h
              cases h
              rfl
          | garbled text =>
              rw [List.map_cons, hnotice] at h
              cases h

end Channel

/-! ## One use -/

/-- No two messages of the queue have the same identifier. -/
def Distinct (fifo : Fifo) (queue : String) : Prop :=
  ∀ messages, fifo queue = some messages → (messages.map (·.id)).Nodup

theorem Distinct.of_none {fifo : Fifo} {queue : String} (h : fifo queue = none) :
    Distinct fifo queue := by
  intro messages hsome
  cases h.symm.trans hsome

theorem Distinct.of_some {fifo : Fifo} {queue : String} {messages : List Message}
    (h : fifo queue = some messages) (hdistinct : (messages.map (·.id)).Nodup) :
    Distinct fifo queue := by
  intro other hother
  cases h.symm.trans hother
  exact hdistinct

/-- The queue answers a use as its notices do, and is left with what they leave. -/
structure Follows (queue : String) (now : Instant) (fifo : Fifo) (use : Use)
    (result : Except LockError use.Result) (fifo' : Fifo) : Prop where
  answers : (Channel.ofQueue fifo queue).Answers now use result
  contents : Channel.ofQueue fifo' queue = (Channel.ofQueue fifo queue).next now use
  distinct : Distinct fifo' queue

/-- A use that leaves both the queue and its notices alone. -/
theorem Follows.of_same {queue : String} {now : Instant} {fifo fifo' : Fifo} {use : Use}
    {result : Except LockError use.Result} (hsame : fifo' = fifo) (h : Distinct fifo queue)
    (hanswers : (Channel.ofQueue fifo queue).Answers now use result)
    (hnext : (Channel.ofQueue fifo queue).next now use = Channel.ofQueue fifo queue) :
    Follows queue now fifo use result fifo' := by
  subst hsame
  exact ⟨hanswers, hnext.symm, h⟩

section Uses

variable {σ : Type} {respond : σ → (c : Call) → c.Answer × σ} {fifo : σ → Fifo} {queue : String}
variable {s : σ} {messages : List Message}

theorem isHeld_upholds :
    Program.Upholds (Fifo.serving respond fifo)
      (fun result s' => result = .ok (fifo s queue).isSome ∧ fifo s' = fifo s)
      (Lock.isHeld queue) s := by
  refine Fifo.serving_upholds rfl fun answer s' left hleft hstep => ?_
  cases hstep with
  | told => exact ⟨rfl, hleft⟩
  | missing what h => exact h.elim

theorem acquire_upholds (h : Distinct (fifo s) queue) :
    Program.Upholds (Fifo.serving respond fifo)
      (fun result s' => Follows queue (respond s .now).1 (fifo s) .acquire result (fifo s'))
      (Lock.acquire queue) s := by
  refine Program.Upholds.bind isHeld_upholds ?_
  rintro _ s₁ ⟨rfl, hsame⟩
  cases hqueue : fifo s queue with
  | some messages =>
      have hcontents := Channel.ofQueue_of_some hqueue
      refine ⟨?_, ?_, ?_⟩
      · rw [hcontents]
        rfl
      · rw [hsame, hcontents]
        rfl
      · rw [hsame]
        exact h
  | none =>
      have hcontents := Channel.ofQueue_of_none hqueue
      refine Fifo.serving_upholds hsame fun answer s₂ left hleft hstep => ?_
      cases hstep with
      | created _ =>
          have hself := congrFun hleft queue
          rw [Function.update_self] at hself
          refine ⟨?_, ?_, .of_some hself .nil⟩
          · rw [hcontents]
            rfl
          · rw [hcontents, Channel.ofQueue_of_some hself]
            rfl
      | present h => cases hqueue.symm.trans h
      | missing what h => exact h.elim

theorem release_upholds :
    Program.Upholds (Fifo.serving respond fifo)
      (fun result s' => Follows queue (respond s .now).1 (fifo s) .release result (fifo s'))
      (Lock.release queue) s := by
  refine Fifo.serving_upholds rfl fun answer s' left hleft hstep => ?_
  cases hstep with
  | deleted h =>
      have hself := congrFun hleft queue
      rw [Function.update_self] at hself
      exact ⟨rfl, Channel.ofQueue_of_none hself, .of_none hself⟩
  | missing what h =>
      have hself := (congrFun hleft queue).trans h
      exact ⟨rfl, Channel.ofQueue_of_none hself, .of_none hself⟩

theorem enqueue_upholds (h : Distinct (fifo s) queue) (nodeId : String) :
    Program.Upholds (Fifo.serving respond fifo)
      (fun result s' =>
        Follows queue (respond s .now).1 (fifo s) (.enqueue nodeId) result (fifo s'))
      (Lock.enqueue queue nodeId) s := by
  refine ⟨trivial, ?_⟩
  rintro _ s₁ ⟨rfl, hkept, hnanos, hsame⟩
  refine Fifo.serving_upholds hsame fun answer s₂ left hleft hstep => ?_
  cases hstep with
  | @put _ _ id messages hqueue hnew =>
      have hcontents := Channel.ofQueue_of_some hqueue
      have hself := congrFun hleft queue
      rw [Function.update_self] at hself
      refine ⟨?_, ?_, .of_some hself ?_⟩
      · rw [hcontents]
        rfl
      · rw [hcontents, Channel.ofQueue_of_some hself, List.map_append, List.map_singleton,
          Notice.ofText_text hkept hnanos]
        rfl
      · rw [List.map_append, List.map_singleton, ← List.concat_eq_append]
        exact (h messages hqueue).concat (by simpa using hnew)
  | missing what hnone =>
      have hcontents := Channel.ofQueue_of_none hnone
      refine ⟨?_, ?_, ?_⟩
      · rw [hcontents]
        exact ⟨what, rfl⟩
      · rw [hleft, hcontents]
        rfl
      · rw [hleft]
        exact h

theorem pendingSignals_upholds (h : Distinct (fifo s) queue) :
    Program.Upholds (Fifo.serving respond fifo)
      (fun result s' =>
        Follows queue (respond s .now).1 (fifo s) .pendingSignals result (fifo s'))
      (Lock.pendingSignals queue) s := by
  refine Fifo.serving_upholds rfl fun answer s' left hleft hstep => ?_
  cases hstep with
  | counted =>
      refine Follows.of_same hleft h ?_ rfl
      cases hqueue : fifo s queue with
      | some messages => simp [Channel.Answers, Channel.ofQueue, hqueue]
      | none => simp [Channel.Answers, Channel.ofQueue, hqueue]
  | missing what h => exact h.elim

/-- The head of the queue is read, and nothing changes. -/
theorem peek_upholds :
    Program.Upholds (Fifo.serving respond fifo)
      (fun result s' => result = (Channel.ofQueue (fifo s) queue).head ∧ fifo s' = fifo s)
      (Lock.peek queue) s := by
  refine Fifo.serving_upholds rfl fun answer s' left hleft hstep => ?_
  cases hstep with
  | @peeked _ messages hqueue =>
      rw [Channel.ofQueue_of_some hqueue]
      cases messages with
      | nil => exact ⟨rfl, hleft⟩
      | cons m rest =>
          change Program.Upholds _ _ (do
            return some (← Attempt.ofExcept (signalOf m)) : Control LockError _) s'
          rw [Notice.signalOf_eq]
          cases hnotice : Notice.ofText m.text with
          | naming signal =>
              refine ⟨?_, hleft⟩
              rw [List.map_cons, hnotice]
              rfl
          | garbled text =>
              refine ⟨?_, hleft⟩
              rw [List.map_cons, hnotice]
              rfl
  | missing what hnone =>
      rw [Channel.ofQueue_of_none hnone]
      exact ⟨rfl, hleft⟩

/-- A head that names the node is looked at once more and removed. -/
theorem takeHead_upholds {m : Message} {rest : List Message} {signal : RejoinSignal}
    (h : Distinct (fifo s) queue) (hqueue : fifo s queue = some (m :: rest))
    (hnotice : Notice.ofText m.text = .naming signal) (now : Instant) :
    Program.Upholds (Fifo.serving respond fifo)
      (fun result s' => Follows queue now (fifo s) (.consumeFor signal.nodeId) result (fifo s'))
      (do
        match ← (getMessage queue).mapError .service with
        | none => return none
        | some message =>
            let head ← Attempt.ofExcept (signalOf message)
            if !head.isFor signal.nodeId then return none
            (deleteMessage queue message).mapError .service
            return some head : Control LockError (Option RejoinSignal)) s := by
  have hself : signal.isFor signal.nodeId = true := beq_self_eq_true _
  have hread : signalOf m = .ok signal := by rw [Notice.signalOf_eq, hnotice, Notice.read]
  have hcontents := Channel.ofQueue_of_some hqueue
  rw [List.map_cons, hnotice] at hcontents
  have hdistinct := h _ hqueue
  rw [List.map_cons, List.nodup_cons] at hdistinct
  refine Program.Upholds.bind (m := fun result s₁ => result = .ok (some m) ∧ fifo s₁ = fifo s) ?_ ?_
  · refine Fifo.serving_upholds rfl fun answer s₁ left hsame hstep => ?_
    cases hstep with
    | missing what hnone => cases hqueue.symm.trans hnone
    | taken hmessages =>
        cases hqueue.symm.trans hmessages
        exact ⟨rfl, hsame⟩
  rintro _ s₁ ⟨rfl, hsame⟩
  simp only [hread]
  refine Program.Upholds.bind (m := fun result s₁ => result = .ok signal ∧ fifo s₁ = fifo s)
    ⟨rfl, hsame⟩ ?_
  rintro _ s₁ ⟨rfl, hsame⟩
  simp only [hself, Bool.not_true, Bool.false_eq_true, if_false]
  refine Fifo.serving_upholds hsame fun answer s₂ left hleft hstep => ?_
  cases hstep with
  | missing what hlacks => exact absurd rfl (hlacks _ hqueue m List.mem_cons_self)
  | removed hmessages hmem hid =>
      cases hqueue.symm.trans hmessages
      have hrest : (m :: rest).filter (fun other => other.id ≠ m.id) = rest := by
        rw [List.filter_cons_of_neg (by simp)]
        refine List.filter_eq_self.mpr fun other hother => ?_
        exact decide_eq_true fun hsame => hdistinct.1 (hsame ▸ List.mem_map_of_mem hother)
      have hself := congrFun hleft queue
      rw [Function.update_self, hrest] at hself
      refine ⟨?_, ?_, .of_some hself hdistinct.2⟩
      · rw [hcontents]
        exact ((Channel.taken_of_head rfl).trans (congrArg Except.ok (if_pos rfl))).symm
      · rw [hcontents, Channel.ofQueue_of_some hself]
        exact (if_pos rfl).symm

theorem consumeFor_upholds (h : Distinct (fifo s) queue) (nodeId : String) :
    Program.Upholds (Fifo.serving respond fifo)
      (fun result s' =>
        Follows queue (respond s .now).1 (fifo s) (.consumeFor nodeId) result (fifo s'))
      (Lock.consumeFor queue nodeId) s := by
  refine Program.Upholds.bind peek_upholds ?_
  rintro _ s₁ ⟨rfl, hsame⟩
  have hleft : ∀ result, (Channel.ofQueue (fifo s) queue).taken nodeId = result →
      (∀ signal, (Channel.ofQueue (fifo s) queue).head = .ok (some signal) →
        signal.nodeId ≠ nodeId) →
      Follows queue (respond s .now).1 (fifo s) (.consumeFor nodeId) result (fifo s₁) :=
    fun _ htaken hother => .of_same hsame h htaken.symm (Channel.take_eq_self hother)
  cases hhead : (Channel.ofQueue (fifo s) queue).head with
  | error e => exact hleft _ (by rw [Channel.taken, hhead]; rfl) (by simp [hhead])
  | ok found =>
      cases found with
      | none => exact hleft _ (by rw [Channel.taken, hhead]; rfl) (by simp [hhead])
      | some signal =>
          by_cases hfor : signal.nodeId = nodeId
          · subst hfor
            obtain ⟨m, rest, hqueue, hnotice⟩ := Channel.of_head hhead
            have hself : signal.isFor signal.nodeId = true := beq_self_eq_true _
            simp only [hself, Bool.not_true, Bool.false_eq_true, if_false]
            rw [← hsame] at h hqueue ⊢
            exact takeHead_upholds h hqueue hnotice _
          · have hother : signal.isFor nodeId = false := beq_eq_false_iff_ne.mpr hfor
            simp only [hother, Bool.not_false, if_true]
            refine hleft _ ?_ ?_
            · exact (Channel.taken_of_head hhead).trans (congrArg Except.ok (if_neg hfor))
            · rw [hhead]
              rintro _ ⟨⟩
              exact hfor

theorem use_upholds (h : Distinct (fifo s) queue) (use : Use) :
    Program.Upholds (Fifo.serving respond fifo)
      (fun result s' => Follows queue (respond s .now).1 (fifo s) use result (fifo s'))
      (use.program queue) s := by
  cases use with
  | isHeld =>
      apply isHeld_upholds.mono
      rintro _ s' ⟨rfl, hsame⟩
      refine Follows.of_same hsame h ?_ rfl
      exact congrArg Except.ok Option.isSome_map.symm
  | acquire => exact acquire_upholds h
  | release => exact release_upholds
  | enqueue nodeId => exact enqueue_upholds h nodeId
  | pendingSignals => exact pendingSignals_upholds h
  | peek =>
      apply peek_upholds.mono
      rintro _ s' ⟨rfl, hsame⟩
      exact Follows.of_same hsame h rfl rfl
  | consumeFor nodeId => exact consumeFor_upholds h nodeId

/-! ## One use after another -/

/-- One use after another, whether they fail or not. -/
def play (queue : String) : List Use → Program Surroundings Unit
  | [] => .done ()
  | use :: rest => (use.program queue).bind fun _ => play queue rest

theorem play_asks (queue : String) (uses : List Use) :
    (play queue uses).Asks Call.IsQueued := by
  induction uses with
  | nil => exact trivial
  | cons use uses ih =>
      exact (use.program_asks queue (fun _ _ => trivial) trivial).bind fun _ => ih

theorem play_append (past rest : List Use) :
    play queue (past ++ rest) = (play queue past).bind fun _ => play queue rest := by
  induction past with
  | nil => rfl
  | cons use past ih =>
      simp only [List.cons_append, play, ih]
      rw [Program.bind_assoc]

/-- The notices after one use after another, each at the instant that the clock tells then. -/
def Channel.after (respond : σ → (c : Call) → c.Answer × σ) (queue : String) :
    List Use → σ → Channel → Channel
  | [], _, channel => channel
  | use :: rest, s, channel =>
      after respond queue rest ((use.program queue).run respond s).2
        (channel.next (respond s .now).1 use)

/-- The queue holds at each time what the notices say. -/
theorem ofQueue_after (past : List Use) (h : Distinct (fifo s) queue)
    (hserved : Program.Obeys (Fifo.serving respond fifo) respond
      ((play queue past).visits respond s)) :
    let s' := ((play queue past).run respond s).2
    Channel.ofQueue (fifo s') queue =
        Channel.after respond queue past s (.ofQueue (fifo s) queue) ∧
      Distinct (fifo s') queue := by
  induction past generalizing s with
  | nil => exact ⟨rfl, h⟩
  | cons use past ih =>
      simp only [play, Program.visits_bind] at hserved
      obtain ⟨huse, hrest⟩ := List.forall_mem_append.mp hserved
      have hfollows := (use_upholds h use).run huse
      simp only [play, Program.run_bind, Channel.after, ← hfollows.contents]
      exact ih hfollows.distinct hrest

/-! ## Signals -/

/-- The use sends a signal, looks for one or takes one. -/
def Use.IsSignal : Use → Prop
  | .enqueue _ | .pendingSignals | .peek | .consumeFor _ => True
  | .isHeld | .acquire | .release => False

theorem Use.IsSignal.asks {use : Use} (h : use.IsSignal) (queue : String) :
    (use.program queue).Asks Call.IsPosting := by
  cases use with
  | enqueue nodeId => exact enqueue_asks trivial (fun _ => trivial) nodeId
  | pendingSignals => exact pendingSignals_asks trivial
  | peek => exact peek_asks trivial
  | consumeFor nodeId => exact consumeFor_asks trivial trivial (fun _ => trivial) nodeId
  | isHeld => exact h.elim
  | acquire => exact h.elim
  | release => exact h.elim

theorem play_posting {uses : List Use} (h : ∀ use ∈ uses, use.IsSignal) :
    (play queue uses).Asks Call.IsPosting := by
  induction uses with
  | nil => exact trivial
  | cons use uses ih =>
      obtain ⟨huse, huses⟩ := List.forall_mem_cons.mp h
      exact (huse.asks queue).bind fun _ => ih huses

/-- Signals change nothing about which queues are there. -/
theorem posting_keeps {c : Call} (hc : c.IsPosting) (name : String) (there : Bool) :
    (Fifo.serving respond fifo).Keeps (fun s => (fifo s name).isSome = there) c := by
  rintro s rfl
  cases c with
  | queue call =>
      refine ⟨trivial, ?_⟩
      intro answer s' hstep
      refine Fifo.Step.isSome_eq hstep ?_ ?_ name
      · rintro queue rfl
        exact hc
      · rintro queue rfl
        exact hc
  | now =>
      refine ⟨trivial, ?_⟩
      rintro answer s' ⟨_, _, _, hsame⟩
      rw [hsame]
  | _ => exact hc.elim

/-- Whatever has been done to the lock, a use of it results in what its notices answer and leaves
what they leave. Signals change nothing about whether the lock is held. -/
theorem channel_answers (past : List Use) (use : Use) (hdistinct : Distinct (fifo s) queue)
    (hserved : Program.Obeys (Fifo.serving respond fifo) respond
      ((play queue (past ++ [use])).visits respond s)) :
    let s' := ((play queue past).run respond s).2
    let channel := Channel.after respond queue past s (.ofQueue (fifo s) queue)
    let left := fifo ((use.program queue).run respond s').2
    channel.Answers (respond s' .now).1 use ((use.program queue).run respond s').1 ∧
      Channel.ofQueue left queue = channel.next (respond s' .now).1 use ∧
      ((∀ u ∈ past ++ [use], u.IsSignal) →
        ∀ name, (left name).isSome = (fifo s name).isSome) := by
  have hwhole := hserved
  rw [play_append, Program.visits_bind] at hserved
  obtain ⟨hpast, hlast⟩ := List.forall_mem_append.mp hserved
  obtain ⟨hcontents, hleft⟩ := ofQueue_after past hdistinct hpast
  have huse : Program.Obeys (Fifo.serving respond fifo) respond
      ((use.program queue).visits respond ((play queue past).run respond s).2) := by
    intro v hv
    apply hlast
    rw [play, Program.visits_bind]
    exact List.mem_append_left _ hv
  have hfollows := (use_upholds hleft use).run huse
  refine ⟨hcontents ▸ hfollows.answers, hcontents ▸ hfollows.contents, ?_⟩
  intro hsignals name
  have hkept : (play queue (past ++ [use])).Upholds (Fifo.serving respond fifo)
      (fun _ s' => (fifo s' name).isSome = (fifo s name).isSome) s :=
    (play_posting hsignals).keeps (fun c hc => posting_keeps hc name _) rfl
  have hend := hkept.run hwhole
  rw [play_append, Program.run_bind, play, Program.run_bind] at hend
  exact hend

end Uses

end Lock

namespace World

/-- A lock that is held, with nobody named yet. -/
def beckoned : World :=
  { trial with queues := [("upgrades", [])] }

theorem channel_answers_beckoned :
    let past : List Lock.Use :=
      [.enqueue "nœud \"1\"", .enqueue "узел-2", .peek, .consumeFor "узел-2", .pendingSignals]
    let use : Lock.Use := .consumeFor "nœud \"1\""
    let w := ((Lock.play "upgrades" past).run respond beckoned).2
    let channel := Lock.Channel.after respond "upgrades" past beckoned
      (.ofQueue beckoned.fifo "upgrades")
    let left := ((use.program "upgrades").run respond w).2.fifo
    Lock.Distinct beckoned.fifo "upgrades" ∧
      Program.Obeys (Fifo.serving respond fifo) respond
        ((Lock.play "upgrades" (past ++ [use])).visits respond beckoned) ∧
      channel.Answers (w.respond .now).1 use ((use.program "upgrades").run respond w).1 ∧
      Lock.Channel.ofQueue left "upgrades" = channel.next (w.respond .now).1 use ∧
      ((∀ u ∈ past ++ [use], u.IsSignal) →
        ∀ name, (left name).isSome = (beckoned.fifo name).isSome) := by
  intro past use w channel left
  have hdistinct : Lock.Distinct beckoned.fifo "upgrades" := .of_some rfl .nil
  have hqueueing : beckoned.IsQueueing := by
    refine ⟨rfl, rfl, rfl, ?_⟩
    intro queue messages hmessages m hm
    simp only [fifo, beckoned, Keyed.find?] at hmessages
    split at hmessages
    · cases hmessages
      cases hm
    · cases hmessages
  have hserved := queueing_of_clock (Lock.play_asks "upgrades" (past ++ [use])) hqueueing
    (by decide) (by decide +kernel)
  exact ⟨hdistinct, hserved, Lock.channel_answers past use hdistinct hserved⟩

end World

end SwarmUpkeep
