import SwarmUpkeep.Proofs.Lock.Handoff
import SwarmUpkeep.Proofs.World.Runs

/-!
# A failed handoff in a world

What a failed handoff leaves in the queue is decided by two of its questions: the removal of the
signal and the deletion of the queue. Where neither came through, all is as it was, and where both
did, there is no queue. A host that took the signal and then failed before it gave the lock up
leaves a queue without the signal, which nobody can take or give up any more.
-/

namespace SwarmUpkeep.Handoff

open Attempt World

/-- The message is taken out of the queue. -/
def Takes (queue : String) (message : Message) (v : World × Call) : Prop :=
  v.2 = .queue (.deleteMessage queue message) ∧
    v.1.isStruck (QueueCall.deleteMessage queue message).text = false

instance (queue : String) (message : Message) : DecidablePred (Takes queue message)
  | (w, .queue call) =>
      decidable_of_iff (call = .deleteMessage queue message ∧
        w.isStruck (QueueCall.deleteMessage queue message).text = false) (by simp [Takes])
  | (_, .swarm _ _) | (_, .reach _) | (_, .provider _) | (_, .table _) | (_, .addon _)
  | (_, .probe _) | (_, .template _) | (_, .pause _) | (_, .now) => isFalse fun h => by cases h.1

/-- What the queue holds, and whether the signal has been taken and the lock been given up. -/
structure Stands (queue : String) (told : Knobs) (message : Message)
    (contents : Option (List Message)) (taken released : Prop)
    (s : World × List (World × Call)) : Prop where
  holds : QueueIs queue told contents s.1
  taken : (∃ v ∈ s.2, Takes queue message v) ↔ taken
  released : (∃ v ∈ s.2, Releases queue v) ↔ released

variable {queue : String} {told : Knobs} {message : Message} {contents : Option (List Message)}
variable {contents' : Option (List Message)} {taken released : Prop} {w w' : World}
variable {past : List (World × Call)} {c : Call}

namespace Stands

theorem step (h : Stands queue told message contents taken released (w, past))
    (hqueue : QueueIs queue told contents' w') :
    Stands queue told message contents' (taken ∨ Takes queue message (w, c))
      (released ∨ Releases queue (w, c)) (w', past ++ [(w, c)]) := by
  refine ⟨hqueue, ?_, ?_⟩
  · rw [← h.taken]
    simp only [List.mem_append, List.mem_singleton, or_and_right, exists_or, exists_eq_left]
  · rw [← h.released]
    simp only [List.mem_append, List.mem_singleton, or_and_right, exists_or, exists_eq_left]

/-- A question that neither takes the signal nor gives the lock up. -/
theorem pass (h : Stands queue told message contents taken released (w, past))
    (htakes : ¬Takes queue message (w, c)) (hreleases : ¬Releases queue (w, c))
    (hqueue : QueueIs queue told contents w') :
    Stands queue told message contents taken released (w', past ++ [(w, c)]) := by
  have hstep := h.step (c := c) hqueue
  simp only [htakes, hreleases, or_false] at hstep
  exact hstep

end Stands

/-- The rules for a handoff: only the deletion of the queue is spared by all faults. -/
abbrev sparing (queue : String) : Rules Surroundings (World × List (World × Call)) :=
  (World.rules (fun w c => Spares queue (w, c)) fun _ _ => True).traced

/-- A question about something else than the queue that leaves it alone. -/
theorem keeps_elsewhere (hc : ∀ call, c ≠ .queue call)
    (hqueue : ∀ w, QueueIs queue told contents w → QueueIs queue told contents (w.respond c).2) :
    (sparing queue).Keeps (Stands queue told message contents taken released) c := by
  rintro ⟨w, past⟩ hs
  refine ⟨trivial, ?_⟩
  rintro answer ⟨w', past'⟩ ⟨⟨_, hanswer⟩, rfl⟩
  refine hs.pass (fun htakes => hc _ htakes.1) (hc _) ?_
  rw [show w' = (w.respond c).2 from (congrArg Prod.snd hanswer).symm]
  exact hqueue w hs.holds

theorem keeps_of_isWork (hc : c.IsWork) :
    (sparing queue).Keeps (Stands queue told message contents taken released) c :=
  keeps_elsewhere hc.ne_queue fun _ h => h.stirs (respond_stirs hc)

theorem keeps_leave :
    (sparing queue).Keeps (Stands queue told message contents taken released)
      (.swarm .here .leave) :=
  keeps_elsewhere (fun _ h => by cases h) fun _ h => h.leave

theorem keeps_look {call : QueueCall}
    (hcall : call = .exists queue ∨ call = .peek queue ∨ call = .count queue) :
    (sparing queue).Keeps (Stands queue told message contents taken released) (.queue call) := by
  rintro ⟨w, past⟩ hs
  refine ⟨trivial, ?_⟩
  rintro answer ⟨w', past'⟩ ⟨⟨_, hanswer⟩, rfl⟩
  refine hs.pass ?_ ?_ (hs.holds.look hcall hanswer)
  · rintro ⟨h, _⟩
    rcases hcall with rfl | rfl | rfl <;> cases h
  · intro h
    rcases hcall with rfl | rfl | rfl <;> cases h

/-- The queue once the message has been taken out of it. -/
def without (message : Message) (messages : List Message) : List Message :=
  messages.filter fun m => m.id ≠ message.id

/-- Where a host stands that finds the message at the head of the queue. -/
def host (queue : String) (told : Knobs) (message : Message) (rest : List Message) :
    Lock.Standing (World × List (World × Call)) where
  outside := Stands queue told message (some (message :: rest)) False False
  inside := Stands queue told message (some (without message (message :: rest))) True False
  stuck _ := False
  released := Stands queue told message none True True

theorem host_takeover (rest : List Message) (hsteal : told.stealOnGet = 0) :
    Lock.Takeover (sparing queue) queue (host queue told message rest) (· = message) where
  outside _ hc := keeps_of_isWork hc
  inside _ hc := keeps_of_isWork hc
  released _ hc := keeps_of_isWork hc
  inside_of_stuck _ h := h.elim
  peek := keeps_look (.inr (.inl rfl))
  count := keeps_look (.inr (.inr rfl))
  leave := keeps_leave
  get := by
    rintro ⟨w, past⟩ hs
    refine ⟨trivial, ?_⟩
    rintro answer ⟨w', past'⟩ ⟨⟨_, hanswer⟩, rfl⟩
    obtain ⟨hqueue, hhead⟩ := hs.holds.get hsteal hanswer
    have hstands := hs.pass (c := .queue (.get queue)) (fun h => by cases h.1)
      (fun h => by cases h) hqueue
    cases answer with
    | error e => exact hstands
    | ok got =>
        refine ⟨hstands, ?_⟩
        rintro first rfl
        obtain ⟨_, hfirst⟩ := hhead first rfl
        cases hfirst
        rfl
  take := by
    rintro ⟨w, past⟩ message rfl hs
    refine ⟨trivial, ?_⟩
    rintro answer ⟨w', past'⟩ ⟨⟨_, hanswer⟩, rfl⟩
    cases hstruck : w.isStruck (QueueCall.deleteMessage queue message).text with
    | false =>
        obtain ⟨rfl, hqueue⟩ := hs.holds.remove List.mem_cons_self hstruck hanswer
        have hstep := hs.step (c := .queue (.deleteMessage queue message)) hqueue
        have htakes : Takes queue message (w, .queue (.deleteMessage queue message)) :=
          ⟨rfl, hstruck⟩
        have hreleases : ¬Releases queue (w, .queue (.deleteMessage queue message)) :=
          fun h => by cases h
        simp only [htakes, hreleases, or_true, or_false] at hstep
        exact hstep
    | true =>
        rcases queue_answers hanswer with ⟨_, rfl, e, rfl⟩ | ⟨hspared, _⟩
        · refine hs.pass ?_ (fun h => by cases h) (hs.holds.noted _)
          rintro ⟨_, hspared⟩
          rw [hstruck] at hspared
          cases hspared
        · rw [hstruck] at hspared
          cases hspared
  release := by
    rintro ⟨w, past⟩ hs
    refine upholds_bind.mpr (upholds_outcome.mpr ⟨trivial, ?_⟩)
    rintro answer ⟨w', past'⟩ ⟨⟨hspares, hanswer⟩, rfl⟩
    obtain ⟨rfl, hqueue⟩ := hs.holds.delete (hspares rfl) hanswer
    have hstep := hs.step (c := .queue (.delete queue)) hqueue
    have htakes : ¬Takes queue message (w, .queue (.delete queue)) := fun h => by cases h.1
    have hreleases : Releases queue (w, .queue (.delete queue)) := rfl
    simp only [htakes, hreleases, or_true, or_false] at hstep
    exact hstep

theorem mem_without_iff {first : Message} {messages : List Message} :
    first ∈ without message messages ↔ first ∈ messages ∧ first.id ≠ message.id := by
  simp [without]

/-- What a failed handoff leaves. It leaks the lock if it has taken the signal and never came to
give the lock up: of what follows the signal, `depart_error` names the parts whose failure does
that. Just then the queue is there without the signal; otherwise the signal is still there, or the
queue is gone. -/
theorem complete_error_leaves {site : Site} {w : World} {message : Message} {rest : List Message}
    {e : RejoinError}
    (hqueue : Keyed.find? w.queues site.config.swarm.upgradeQueue = some (message :: rest))
    (hsteal : w.knobs.stealOnGet = 0)
    (hspares : ∀ v ∈ (complete site).visits World.respond w,
      Spares site.config.swarm.upgradeQueue v)
    (herror : (w.run (complete site)).1 = .error e) :
    let queue := site.config.swarm.upgradeQueue
    let visits := (complete site).visits World.respond w
    let left := Keyed.find? (w.run (complete site)).2.queues queue
    let leaks := (∃ v ∈ visits, Takes queue message v) ∧ ¬∃ v ∈ visits, Releases queue v
    ((left = none ∨ ∃ messages, left = some messages ∧ message ∈ messages) ↔ ¬leaks) ∧
      (leaks → left = some (without message (message :: rest))) := by
  intro queue visits left leaks
  have hstart : (host queue w.knobs message rest).outside (w, []) := by
    refine ⟨⟨hqueue, rfl⟩, ?_, ?_⟩ <;> simp
  have hcomplete := complete_upholds site (host_takeover rest hsteal) hstart
  have hend := Program.Upholds.run_traced hcomplete (obeys_rules hspares)
  rw [show (complete site).run respond w = w.run (complete site) from rfl, herror] at hend
  -- A host that fails never took the signal, or took it and stopped there, or gave the lock up.
  obtain hout | hin | hreleased := hend
  · have hleft : left = some (message :: rest) := hout.holds.contents
    have hleaks : ¬leaks := fun h => hout.taken.mp h.1
    refine ⟨⟨fun _ => hleaks, fun _ => .inr ⟨_, hleft, List.mem_cons_self⟩⟩, ?_⟩
    exact fun h => absurd h hleaks
  · have hleft : left = some (without message (message :: rest)) := hin.holds.contents
    have hleaks : leaks := ⟨hin.taken.mpr trivial, hin.released.mp⟩
    refine ⟨⟨?_, fun h => absurd hleaks h⟩, fun _ => hleft⟩
    rintro (hnone | ⟨messages, hsome, hmem⟩)
    · rw [hleft] at hnone
      cases hnone
    · rw [hleft] at hsome
      cases hsome
      exact absurd rfl (mem_without_iff.mp hmem).2
  · have hleft : left = none := hreleased.holds.contents
    have hleaks : ¬leaks := fun h => h.2 (hreleased.released.mpr trivial)
    exact ⟨⟨fun _ => hleaks, fun _ => .inl hleft⟩, fun h => absurd h hleaks⟩

/-- A host whose control plane does not answer once it has taken the signal that names it. -/
def mute : World :=
  { World.trial with
    queues := [("upgrades", [⟨"msg-1", RejoinSignal.text ⟨"m0", default⟩⟩])]
    faults := [⟨"inspect(m0)", 0, none, .service (.transient "engine busy")⟩] }

/-- The lock leaks: the handoff fails, and the queue is there and empty. -/
theorem complete_error_leaves_mute :
    let visits := (complete mute.site).visits World.respond mute
    (∃ e, (mute.run (complete mute.site)).1 = .error e) ∧
      (∃ v ∈ visits, Takes "upgrades" ⟨"msg-1", RejoinSignal.text ⟨"m0", default⟩⟩ v) ∧
      (¬∃ v ∈ visits, Releases "upgrades" v) ∧
      Keyed.find? (mute.run (complete mute.site)).2.queues "upgrades" = some [] := by
  intro visits
  have hfails : (mute.run (complete mute.site)).1.isOk = false := by decide +kernel
  have hspares : ∀ v ∈ visits, Spares "upgrades" v := by decide +kernel
  have htakes : ∃ v ∈ visits, Takes "upgrades" ⟨"msg-1", RejoinSignal.text ⟨"m0", default⟩⟩ v := by
    decide +kernel
  have hreleases : ¬∃ v ∈ visits, Releases "upgrades" v := by decide +kernel
  cases herror : (mute.run (complete mute.site)).1 with
  | ok outcome => rw [herror] at hfails; cases hfails
  | error e =>
      have hleaves := complete_error_leaves rfl rfl hspares herror
      refine ⟨⟨e, rfl⟩, htakes, hreleases, (hleaves.2 ⟨htakes, hreleases⟩).trans ?_⟩
      simp [without]

end SwarmUpkeep.Handoff
