import SwarmUpkeep.Main
import SwarmUpkeep.World.Respond
import SwarmUpkeep.World.Scenario
import SwarmUpkeep.Proofs.Lock.Parties
import SwarmUpkeep.Proofs.Upkeep.Demotion
import SwarmUpkeep.Proofs.Upkeep.Sequence
import SwarmUpkeep.Proofs.World.Handoff
import SwarmUpkeep.Proofs.World.OwnHost
import SwarmUpkeep.Proofs.World.Quorum
import SwarmUpkeep.Proofs.World.StandDown
import SwarmUpkeep.Proofs.World.Upgrade
import SwarmUpkeep.Proofs.Upkeep.Leadership
import SwarmUpkeep.Proofs.Upkeep.StepDown
import SwarmUpkeep.Proofs.Upkeep.Diagnosis
import SwarmUpkeep.Proofs.Upkeep.Reconciliation
import SwarmUpkeep.Proofs.World.Deletion
import SwarmUpkeep.Proofs.World.Addressee
import SwarmUpkeep.Proofs.Upkeep.Itinerary
import SwarmUpkeep.Proofs.Net.Address
import SwarmUpkeep.Proofs.Remote.Fifo
import SwarmUpkeep.Proofs.Storage.Holdings
import SwarmUpkeep.Proofs.Upkeep.Ledger
import SwarmUpkeep.Proofs.Remote.Separation
import SwarmUpkeep.Proofs.World.Aftermath
import SwarmUpkeep.Proofs.World.Capacity
import SwarmUpkeep.Proofs.World.Reconciled
import SwarmUpkeep.Proofs.World.Replacement
import SwarmUpkeep.Proofs.Upkeep.Abort
import SwarmUpkeep.Proofs.Upkeep.Pairing
import SwarmUpkeep.Proofs.World.Queues
import SwarmUpkeep.Proofs.Lock.Channel
import SwarmUpkeep.Proofs.World.Admission
import SwarmUpkeep.Proofs.World.Retirement
import SwarmUpkeep.Proofs.World.Overprovision
import SwarmUpkeep.Proofs.Upkeep.Parameters
import SwarmUpkeep.Proofs.Remote.Pages
import SwarmUpkeep.Proofs.Remote.RowAddress
import SwarmUpkeep.Proofs.Swarm.Signal
import SwarmUpkeep.Proofs.Remote.Tokens
import SwarmUpkeep.Proofs.Remote.Listings
import SwarmUpkeep.Proofs.Remote.Demotion
import SwarmUpkeep.Proofs.Upkeep.LeaderAddress
