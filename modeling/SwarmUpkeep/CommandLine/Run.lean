import SwarmUpkeep.CommandLine.Command
import SwarmUpkeep.Remote.Wiring
import SwarmUpkeep.Upkeep.Handoff
import SwarmUpkeep.Upkeep.Health
import SwarmUpkeep.Upkeep.Upgrade.Run

/-!
# Runs

A run checks its settings, sets up its services and carries out one command. The first of the
three that fails ends it.
-/

namespace SwarmUpkeep.CommandLine

/-- Why a run failed. -/
inductive RunError where
  | config (error : ConfigError)
  | setup (error : SetupError)
  | upgrade (error : UpgradeError)
  | health (error : HealthError)
  | rejoin (error : RejoinError)
deriving DecidableEq, Inhabited

def RunError.message : RunError → String
  | config e => e.message
  | setup e => e.message
  | upgrade e => e.message
  | health e => e.message
  | rejoin e => e.message

/-- What a run has come to. -/
inductive RunOutcome where
  | upgraded (report : Upgrade.Report)
  | healed (passes : List Health.Pass)
  | handedOff (outcome : HandoffOutcome)
  | joined (outcome : JoinOutcome)
deriving Inhabited

/-- The outcome in a few words. -/
def RunOutcome.summary : RunOutcome → String
  | upgraded _ => "Upgrade run finished"
  | healed [] => "Heal pass skipped"
  | healed _ => "Heal pass finished"
  | handedOff .idle => "No handoff pending"
  | handedOff (.notForUs target _) => "Handoff is for another node: " ++ target
  | handedOff (.completed id) => "Handoff completed, reimaging " ++ id
  | joined (.alreadyMember id) => "Already a swarm member: " ++ id
  | joined (.joined id _ _) => "Joined swarm: " ++ id

/-- The control loop of a command. -/
def Command.control (site : Site) : Command → Control RunError RunOutcome
  | upgrade templateUrl => do
      return .upgraded (← (Upgrade.run site templateUrl).mapError .upgrade)
  | heal => do return .healed (← (Health.heal site.config).mapError .health)
  | completeHandoff => do return .handedOff (← (Handoff.complete site).mapError .rejoin)
  | join role => do return .joined (← (Handoff.join site role).mapError .rejoin)

/-- What has to hold before a command is carried out. -/
def prepare (config : Config) : Except RunError Services := do
  match config.validate with
  | .error e => throw (.config e)
  | .ok () =>
      match Services.ofConfig config with
      | .error e => throw (.setup e)
      | .ok services => return services

/-- A run with settings and a command. -/
def run (config : Config) (command : Command) : Attempt Outside RunError RunOutcome :=
  match prepare config with
  | .error e => Attempt.fail e
  | .ok services => services.attach (command.control ⟨config, config.addon.enabled⟩)

/-- The exit code of a run. -/
def exitCode : Except RunError RunOutcome → UInt8
  | .ok _ => 0
  | .error _ => 1

/-- The exit code of a command line that is not acted upon. -/
def UsageError.exitCode (e : UsageError) : UInt8 :=
  if e.isMistake then 2 else 0

end SwarmUpkeep.CommandLine
