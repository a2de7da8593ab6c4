import GhostDataplane.Lib.Checked
import GhostDataplane.Lib.Machine
import GhostDataplane.Lib.Runs
import GhostDataplane.Lib.Log
import GhostDataplane.Lib.Bank
import GhostDataplane.Lib.Weight
import GhostDataplane.Lib.Lpm
import GhostDataplane.Lib.Hands
import GhostDataplane.Lib.Text
import GhostDataplane.Lib.Stream
import GhostDataplane.Lib.While
import GhostDataplane.Lib.Returns
import GhostDataplane.Lib.Heap
import GhostDataplane.Lib.Decimal
import GhostDataplane.Lib.Utf8
import GhostDataplane.Lib.Json
import GhostDataplane.Lib.JsonStandard
import GhostDataplane.Agent.Cpu
import GhostDataplane.Agent.State
import GhostDataplane.Agent.Callbacks
import GhostDataplane.Agent.Schedule
import GhostDataplane.Agent.System
import GhostDataplane.Agent.Threads
import GhostDataplane.Agent.Process
import GhostDataplane.Agent.Cgroups
import GhostDataplane.Engine.Init
import GhostDataplane.Engine.Switch
import GhostDataplane.Engine.Threads
import GhostDataplane.Engine.Stats
import GhostDataplane.Engine.Pipe
import GhostDataplane.Engine.Firewall
import GhostDataplane.Engine.Address
import GhostDataplane.Engine.Coprocessor
import GhostDataplane.Engine.Rules
import GhostDataplane.Engine.ConfigFile
import GhostDataplane.Engine.Json
import GhostDataplane.Engine.JsonGrammar
import GhostDataplane.Engine.Load
import GhostDataplane.Engine.SharedSetup
import GhostDataplane.Engine.Main
import GhostDataplane.Proofs.Pipe
import GhostDataplane.Proofs.PipeSteps
import GhostDataplane.Proofs.Events
import GhostDataplane.Proofs.Conservation
import GhostDataplane.Proofs.Staging
import GhostDataplane.Proofs.Counters
import GhostDataplane.Proofs.Inspection
import GhostDataplane.Proofs.Drain
import GhostDataplane.Proofs.Fifo
import GhostDataplane.Proofs.Routing
import GhostDataplane.Proofs.Verdict
import GhostDataplane.Proofs.RuleMemory
import GhostDataplane.Proofs.Address
import GhostDataplane.Proofs.RuleFile
import GhostDataplane.Proofs.ConfigFile
import GhostDataplane.Proofs.JsonString
import GhostDataplane.Proofs.JsonParse
import GhostDataplane.Proofs.JsonItems
import GhostDataplane.Proofs.JsonDocument
import GhostDataplane.Proofs.JsonStandard
import GhostDataplane.Proofs.Load
import GhostDataplane.Proofs.SharedSetup
import GhostDataplane.Proofs.SerialSetup
import GhostDataplane.Proofs.Main
import GhostDataplane.Proofs.Shutdown
import GhostDataplane.Proofs.Places
import GhostDataplane.Proofs.Moves
import GhostDataplane.Proofs.Callbacks
import GhostDataplane.Proofs.Replace
import GhostDataplane.Proofs.Scan
import GhostDataplane.Proofs.Assign
import GhostDataplane.Proofs.Loop
import GhostDataplane.Proofs.Migrate
import GhostDataplane.Proofs.Steps
import GhostDataplane.Proofs.Placement
import GhostDataplane.Proofs.QueueClass
import GhostDataplane.Proofs.Transactions
import GhostDataplane.Proofs.RoundSound
import GhostDataplane.Proofs.RoundEnd
import GhostDataplane.Proofs.Locality
import GhostDataplane.Proofs.NoAbort
import GhostDataplane.Proofs.Preemption
import GhostDataplane.Proofs.Candidates
import GhostDataplane.Proofs.Replies
import GhostDataplane.Proofs.Turns
import GhostDataplane.Proofs.QueueOrder
import GhostDataplane.Proofs.Statistics
import GhostDataplane.Proofs.GlobalCpu
import GhostDataplane.Proofs.Flags
import GhostDataplane.Proofs.Interleaving
import GhostDataplane.Proofs.Exclusion
import GhostDataplane.Proofs.Cgroups
import GhostDataplane.Lib.Line
import GhostDataplane.Proofs.Accept
import GhostDataplane.Proofs.Messages
import GhostDataplane.Proofs.Service
import GhostDataplane.Proofs.Enclave
import GhostDataplane.Proofs.Serve
import GhostDataplane.Proofs.Stop
import GhostDataplane.Proofs.Exit
