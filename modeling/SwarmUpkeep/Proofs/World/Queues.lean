import SwarmUpkeep.Proofs.Remote.Fifo
import SwarmUpkeep.Proofs.World.Clock
import SwarmUpkeep.Proofs.World.Faults

/-!
# The queues of a world

A world keeps a list of messages under the name of each queue. As long as no fault hits them and
nobody else is told to take part, its queues answer as queues do.
-/

namespace SwarmUpkeep

/-- A question to a queue or to the clock. -/
def Call.IsQueued : Call → Prop
  | .queue _ | .now => True
  | _ => False

/-- Surroundings whose queues do not fail, and whose clock tells instants that can be kept. -/
def Fifo.serving {σ : Type} (respond : σ → (c : Call) → c.Answer × σ) (fifo : σ → Fifo) :
    Rules Surroundings σ where
  allows _ := Call.IsQueued
  moves s c answer s' :=
    match c, answer with
    | .queue call, answer => (fifo s).Step call answer (fifo s')
    | .now, answer =>
        answer = (respond s .now).1 ∧ answer.isKept = true ∧ answer.nanos < 1000000000 ∧
          fifo s' = fifo s
    | _, _ => True

/-- What holds after each step of a queue holds after a question to it. -/
theorem Fifo.serving_upholds {σ α : Type} {respond : σ → (c : Call) → c.Answer × σ}
    {fifo : σ → Fifo} {call : QueueCall} {next : call.Answer → Program Surroundings α}
    {post : α → σ → Prop} {s : σ} {before : Fifo} (hs : fifo s = before)
    (h : ∀ answer s' after, fifo s' = after → before.Step call answer after →
      (next answer).Upholds (serving respond fifo) post s') :
    (Program.ask (I := Surroundings) (Call.queue call) next).Upholds (serving respond fifo) post s :=
  ⟨trivial, fun answer s' hstep => h answer s' _ rfl (hs ▸ hstep)⟩

namespace World

variable {w : World}

/-- The messages of each queue of a world. -/
def fifo (w : World) : Fifo :=
  Keyed.find? w.queues

/-- The identifier that a world gives to the nth message. -/
def nthMessage (n : Nat) : String :=
  "msg-" ++ toString n

theorem nthMessage_injective {n k : Nat} (h : nthMessage n = nthMessage k) : n = k :=
  Ascii.toString_injective ((String.append_right_inj "msg-").mp h)

/-- None of the messages has an identifier that is given after so many. -/
def Known (count : Nat) (messages : List Message) : Prop :=
  ∀ m ∈ messages, ∀ n, count < n → m.id ≠ nthMessage n

/-- No fault hits the queues, nobody else creates them or takes messages, and no message has an
identifier that is still to be given. -/
structure IsQueueing (w : World) : Prop where
  faults : w.faults = []
  alone : w.knobs.createRace = false
  unstolen : w.knobs.stealOnGet = 0
  known : ∀ queue messages, w.fifo queue = some messages → Known w.messageCount messages

theorem Known.append {count : Nat} {messages : List Message} (h : Known count messages)
    (text : String) : Known (count + 1) (messages ++ [⟨nthMessage (count + 1), text⟩]) := by
  intro m hm n hn
  rcases List.mem_append.mp hm with hold | hnew
  · exact h m hold n (by omega)
  · rw [List.mem_singleton.mp hnew]
    intro hsame
    have := nthMessage_injective hsame
    omega

theorem fifo_set (w : World) (queue : String) (messages : List Message) :
    ({ w with queues := Keyed.set w.queues queue messages } : World).fifo =
      Function.update w.fifo queue (some messages) := by
  funext other
  unfold fifo
  by_cases hother : other = queue
  · rw [hother, Keyed.find?_set_self, Function.update_self]
  · rw [Keyed.find?_set_of_ne _ _ hother, Function.update_of_ne hother]

theorem fifo_erase (w : World) (queue : String) :
    ({ w with queues := Keyed.erase w.queues queue } : World).fifo =
      Function.update w.fifo queue none := by
  funext other
  unfold fifo
  by_cases hother : other = queue
  · rw [hother, Keyed.find?_erase_self, Function.update_self]
  · rw [Keyed.find?_erase_of_ne _ hother, Function.update_of_ne hother]

/-- What one queue holds may change, as long as its messages are known, and messages may have been
given identifiers. -/
theorem IsQueueing.update (h : w.IsQueueing) {w' : World} {queue : String}
    {contents : Option (List Message)} (hfifo : w'.fifo = Function.update w.fifo queue contents)
    (hknown : ∀ messages, contents = some messages → Known w'.messageCount messages)
    (hcount : w.messageCount ≤ w'.messageCount) (hknobs : w'.knobs = w.knobs)
    (hfaults : w'.faults = w.faults) : w'.IsQueueing := by
  refine ⟨hfaults.trans h.faults, hknobs ▸ h.alone, hknobs ▸ h.unstolen, ?_⟩
  intro other messages hmessages
  rw [hfifo, Function.update_apply] at hmessages
  split at hmessages
  · exact hknown messages hmessages
  · exact fun m hm n hn => h.known other messages hmessages m hm n (by omega)

/-- A call is answered as queues answer it, and the queues can go on. -/
structure Answered (w : World) (call : QueueCall) (result : call.Answer × World) : Prop where
  steps : w.fifo.Step call result.1 result.2.fifo
  left : result.2.IsQueueing

theorem IsQueueing.answered_of_missing (h : w.IsQueueing) {call : QueueCall} (what : String)
    (hlacks : w.fifo.Lacks call) : w.Answered call (call.failed (.notFound what), w) :=
  ⟨.missing what hlacks, h⟩

/-- The queues of a world answer as queues do. -/
theorem IsQueueing.answered (h : w.IsQueueing) (call : QueueCall) :
    w.Answered call (w.queue call) := by
  cases call with
  | create queue =>
      cases hqueue : Keyed.find? w.queues queue with
      | some messages =>
          simp only [World.queue, hqueue]
          exact ⟨.present hqueue, h⟩
      | none =>
          have hfifo := w.fifo_set queue []
          simp only [World.queue, hqueue, h.alone, Bool.not_false]
          refine ⟨hfifo ▸ .created hqueue, h.update hfifo ?_ (Nat.le_refl _) rfl rfl⟩
          rintro _ ⟨⟩ m hm
          cases hm
  | delete queue =>
      cases hqueue : Keyed.find? w.queues queue with
      | some messages =>
          have hfifo := w.fifo_erase queue
          simp only [World.queue, hqueue]
          refine ⟨hfifo ▸ .deleted hqueue, h.update hfifo ?_ (Nat.le_refl _) rfl rfl⟩
          rintro _ ⟨⟩
      | none =>
          simp only [World.queue, hqueue]
          exact h.answered_of_missing _ hqueue
  | «exists» queue => exact ⟨.told queue, h⟩
  | put queue text =>
      cases hqueue : Keyed.find? w.queues queue with
      | some messages =>
          have hknown := h.known queue messages hqueue
          have hfifo : (w.append queue messages text).fifo = Function.update w.fifo queue
              (some (messages ++ [⟨nthMessage (w.messageCount + 1), text⟩])) :=
            w.fifo_set queue _
          simp only [World.queue, hqueue]
          refine ⟨hfifo ▸ .put hqueue ?_, h.update hfifo ?_ (Nat.le_succ _) rfl rfl⟩
          · exact fun m hm => hknown m hm _ (Nat.lt_succ_self _)
          · rintro _ ⟨⟩
            exact hknown.append text
      | none =>
          simp only [World.queue, hqueue]
          exact h.answered_of_missing _ hqueue
  | peek queue =>
      cases hqueue : Keyed.find? w.queues queue with
      | some messages =>
          simp only [World.queue, hqueue]
          exact ⟨.peeked hqueue, h⟩
      | none =>
          simp only [World.queue, hqueue]
          exact h.answered_of_missing _ hqueue
  | get queue =>
      cases hqueue : Keyed.find? w.queues queue with
      | some messages =>
          simp only [World.queue, hqueue, h.unstolen, List.drop_zero, Keyed.set_find? hqueue]
          exact ⟨.taken hqueue, h⟩
      | none =>
          simp only [World.queue, hqueue]
          exact h.answered_of_missing _ hqueue
  | deleteMessage queue message =>
      cases hqueue : Keyed.find? w.queues queue with
      | some messages =>
          simp only [World.queue, hqueue]
          split
          next hany =>
            obtain ⟨m, hm, hid⟩ := List.any_eq_true.mp hany
            have hfifo := w.fifo_set queue (messages.filter fun m => m.id ≠ message.id)
            refine ⟨hfifo ▸ .removed hqueue hm (of_decide_eq_true hid),
              h.update hfifo ?_ (Nat.le_refl _) rfl rfl⟩
            rintro _ ⟨⟩ m hm
            exact h.known queue messages hqueue m (List.mem_of_mem_filter hm)
          next hnone =>
            apply h.answered_of_missing
            rintro _ hsome m hm hid
            cases hqueue.symm.trans hsome
            exact hnone (List.any_eq_true.mpr ⟨m, hm, decide_eq_true hid⟩)
      | none =>
          simp only [World.queue, hqueue]
          apply h.answered_of_missing
          rintro _ hsome
          cases hqueue.symm.trans hsome
  | count queue => exact ⟨.counted queue, h⟩

/-- A world serves its queues for as long as its clock tells instants that can be written. -/
theorem queueing_of_clock {α : Type} {p : Program Surroundings α} (hasks : p.Asks Call.IsQueued)
    (h : w.IsQueueing) (hclock : 0 ≤ w.clock.sinceEpoch)
    (hlimit : w.clock.sinceEpoch + 1000 * ((p.visits respond w).length : Int) < Instant.limit) :
    Program.Obeys (Fifo.serving respond fifo) respond (p.visits respond w) := by
  refine obeys_of_clock hasks ?_ h hclock hlimit
  intro w c hc h
  cases c with
  | queue call =>
      -- Where nothing is hit, recording the call changes no more than the journal.
      have hnoted : w.noted call.text = w.record call.text := by
        rw [noted, receive, h.faults]
        simp only [strike]
        rw [← h.faults]
      have hrespond := respond_queue_of_spared (isStruck_of_faultless h.faults call.text)
      rw [hnoted] at hrespond
      have hleft : (w.record call.text).IsQueueing := ⟨h.faults, h.alone, h.unstolen, h.known⟩
      obtain ⟨hsteps, hleft⟩ := hleft.answered call
      constructor
      all_goals rw [hrespond]
      · exact fun _ => hsteps
      · exact hleft
      · intro _
        rw [queue_eq]
        rfl
  | now =>
      refine ⟨fun hwritten => ⟨rfl, hwritten.isKept, ?_, rfl⟩,
        ⟨h.faults, h.alone, h.unstolen, h.known⟩, fun h => absurd rfl h⟩
      exact Instant.nanos_ofNanos_lt _
  | _ => exact hc.elim

end World

end SwarmUpkeep
