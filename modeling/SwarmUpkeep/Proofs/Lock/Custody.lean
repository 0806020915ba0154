import SwarmUpkeep.Proofs.Upkeep.Questions

/-!
# Custody of the upgrade lock

A party to the lock stands outside of it, inside of it, or has come out of it. Where it stands is
told by predicates on any kind of state, under any rules for the surroundings. The laws below are
all that the two control loops need of the surroundings: with them an upgrade and the completion
of an upgrade each leave the lock in one of few ways, whatever call fails.

A world with one control loop in it obeys the laws, and so do the surroundings of one party among
many.
-/

namespace SwarmUpkeep

open Attempt Control

variable {σ : Type} {rules : Rules Surroundings σ} {s : σ}

namespace Lock

/-- Where a party stands. It is stuck where it could not give the lock up. -/
structure Standing (σ : Type) where
  outside : σ → Prop
  inside : σ → Prop
  stuck : σ → Prop
  released : σ → Prop

/-- The surroundings leave a party where it stands while it works on nodes, and let it give the
lock up, or else leave it inside. -/
structure Custody (rules : Rules Surroundings σ) (queue : String) (party : Standing σ) :
    Prop where
  outside : ∀ c, Call.IsWork c → rules.Keeps party.outside c
  inside : ∀ c, Call.IsWork c → rules.Keeps party.inside c
  released : ∀ c, Call.IsWork c → rules.Keeps party.released c
  inside_of_stuck : ∀ s, party.stuck s → party.inside s
  release : ∀ s, party.inside s →
    (release queue).Upholds rules (fun _ => party.released) (fun _ => party.stuck) s

/-- What a coordinator needs beyond that: it comes inside by creating the queue, learns who it is,
and comes out by naming a node, too. -/
structure Coordination (rules : Rules Surroundings σ) (queue : String) (party : Standing σ)
    (isSelf : Option String → Prop) (named : String → σ → Prop) : Prop
    extends Custody rules queue party where
  isHeld : rules.Keeps party.outside (.queue (.exists queue))
  create : ∀ s, party.outside s →
    (createQueue queue).Upholds rules
      (fun created => if created then party.inside else party.outside) (fun _ => party.outside) s
  localId : ∀ s selfId s', party.inside s →
    rules.moves s (.swarm .here .localId) (.ok selfId) s' → isSelf selfId
  enqueue : ∀ s id, isSelf (some id) → party.inside s →
    (enqueue queue id).Upholds rules (fun _ => named id) (fun _ => party.inside) s

/-- What a host needs that completes its upgrade: what it gets from the queue is the head, removing
the head brings it inside, and it may leave the swarm. -/
structure Takeover (rules : Rules Surroundings σ) (queue : String) (party : Standing σ)
    (isHead : Message → Prop) : Prop extends Custody rules queue party where
  peek : rules.Keeps party.outside (.queue (.peek queue))
  count : rules.Keeps party.outside (.queue (.count queue))
  get : ∀ s, party.outside s →
    (getMessage queue).Upholds rules
      (fun got s' => party.outside s' ∧ ∀ message, got = some message → isHead message)
      (fun _ => party.outside) s
  take : ∀ s message, isHead message → party.outside s →
    (deleteMessage queue message).Upholds rules (fun _ => party.inside) (fun _ => party.outside) s
  leave : rules.Keeps party.inside (.swarm .here .leave)

variable {queue : String} {party : Standing σ} {isHead : Message → Prop}

namespace Takeover

theorem peek_upholds (h : Takeover rules queue party isHead) (hs : party.outside s) :
    (Lock.peek queue).Upholds rules (fun _ => party.outside) (fun _ => party.outside) s := by
  have hpeek : (peekMessage queue).Upholds rules (fun _ => party.outside)
      (fun _ => party.outside) s :=
    Program.perform_upholds_of_keeps h.peek hs fun answer s' _ hs' => by cases answer <;> exact hs'
  refine upholds_bind.mpr (upholds_outcome.mpr (hpeek.mono ?_ ?_))
  · intro message s' hs'
    cases message with
    | none => exact hs'
    | some message =>
        refine upholds_bind.mpr (upholds_ofExcept.mpr ?_)
        cases signalOf message <;> exact hs'
  · intro e s' hs'
    cases e <;> exact hs'

theorem count_upholds (h : Takeover rules queue party isHead) (hs : party.outside s) :
    (pendingSignals queue).Upholds rules (fun _ => party.outside) (fun _ => party.outside) s := by
  refine Upholds.renamed (Program.perform_upholds_of_keeps h.count hs fun answer s' _ hs' => ?_)
  cases answer <;> exact hs'

/-- A host is inside exactly if it has got the signal. -/
theorem consume_upholds (h : Takeover rules queue party isHead) (nodeId : String)
    (hs : party.outside s) :
    (consumeFor queue nodeId).Upholds rules
      (fun signal => if signal.isSome then party.inside else party.outside)
      (fun _ => party.outside) s := by
  refine (h.peek_upholds hs).bind fun head s hs => ?_
  cases head with
  | none => exact hs
  | some head =>
      dsimp only
      split
      · exact hs
      · refine Upholds.bind (h.get s hs).renamed fun got s ⟨hs, hgot⟩ => ?_
        cases got with
        | none => exact hs
        | some message =>
            refine upholds_bind.mpr (upholds_ofExcept.mpr ?_)
            cases signalOf message with
            | error e => exact hs
            | ok signal =>
                dsimp only [outcomeIs]
                split
                · exact hs
                · exact Upholds.bind (h.take s message (hgot message rfl) hs).renamed
                    fun _ s hs => hs

end Takeover

end Lock

end SwarmUpkeep
