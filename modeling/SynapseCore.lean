import SynapseCore.Foundation.KeyedRuns
import SynapseCore.Foundation.Ledger
import SynapseCore.Contract.TransactionRecords
import SynapseCore.Contract.LifecycleRefinement
import SynapseCore.Contract.TerminalStatuses
import SynapseCore.Contract.RegisterCallback
import SynapseCore.Contract.StatusIndex
import SynapseCore.Contract.RegistrationRuns
import SynapseCore.Foundation.Tally
import SynapseCore.Contract.RelayQuorum
import SynapseCore.Contract.RelayApprovals
import SynapseCore.Contract.RelaySignerSet
import SynapseCore.Contract.RelayConfiguration
import SynapseCore.Contract.AuditTrail
import SynapseCore.Contract.StellarTxHash
import SynapseCore.Contract.TransitionErrors
import SynapseCore.Contract.OutcomeAttribution
import SynapseCore.Contract.TransactionTags
import SynapseCore.Contract.RequestOrder
import SynapseCore.Contract.StatusPages
import SynapseCore.Foundation.Spans
import SynapseCore.Migration.SchemaDiff
import SynapseCore.Foundation.OrderedMaps
import SynapseCore.Foundation.Text
import SynapseCore.Gate.Comparison
import SynapseCore.Gate.BaselineFile
import SynapseCore.Contract.Withdrawals
import SynapseCore.Gate.Arithmetic
import SynapseCore.Foundation.Canonical
import SynapseCore.Rendering.StateDump
import SynapseCore.Foundation.Alignment
import SynapseCore.Rendering.LineDiff
import SynapseCore.Foundation.Readable
import SynapseCore.Foundation.Utf8
import SynapseCore.Rendering.ScVal
import SynapseCore.Rendering.LastEvents
import SynapseCore.Rendering.EventSnapshots
import SynapseCore.Rendering.EventCatalogue
import SynapseCore.Rendering.BehaviourTrace
import SynapseCore.Gate.GateRun
import SynapseCore.Foundation.Trials
import SynapseCore.Harness.RotationWorld
import SynapseCore.Harness.RotationChaos
import SynapseCore.Harness.SeededChaos
import SynapseCore.Harness.RotationInterleavings
import SynapseCore.Contract.AccessControl
import SynapseCore.Harness.StorageClient
import SynapseCore.Contract.SubsystemRuns
import SynapseCore.Rendering.EventEmitters
import SynapseCore.Rendering.ProfileDiff
import SynapseCore.Gate.Measurements
import SynapseCore.Foundation.KeyLines
import SynapseCore.Gate.WasmSize
