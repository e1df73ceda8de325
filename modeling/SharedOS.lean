import SharedOS.Foundation.Program
import SharedOS.Foundation.Run
import SharedOS.Foundation.Interleaving
import SharedOS.Contracts.Audit
import SharedOS.Contracts.Execution
import SharedOS.Core.DecisionLaws
import SharedOS.Core.GrantOutcome
import SharedOS.Core.ConstraintMeet
import SharedOS.Precedent.Key
import SharedOS.Precedent.AdmissionLaws
import SharedOS.Kernel.Ports
import SharedOS.Kernel.Recording
import SharedOS.Kernel.InvokeTool
import SharedOS.Kernel.AuditMediation
import SharedOS.Kernel.LiveCall
import SharedOS.Kernel.LiveMediation
import SharedOS.Kernel.OutcomeRecord
import SharedOS.Kernel.TurnLease
import SharedOS.Kernel.HeldRegistry
import SharedOS.Kernel.LeaseCatalogue
import SharedOS.Kernel.UsageLedger
import SharedOS.Foundation.Interpreter
import SharedOS.Kernel.ToolPorts
import SharedOS.Kernel.HookOrder
import SharedOS.Kernel.MessageTool
import SharedOS.Kernel.ResourceTool
import SharedOS.Kernel.CallIsolation
import SharedOS.Runtime.Executor
import SharedOS.Runtime.RetrySafety
import SharedOS.Runtime.Steps
import SharedOS.Runtime.Budgets
import SharedOS.Runtime.EventLog
import SharedOS.Runtime.TurnScopes
import SharedOS.Runtime.DeadlineRefinement
import SharedOS.Core.ConstraintLattice
import SharedOS.Core.DerivedGrant
import SharedOS.Foundation.KeyOrder
import SharedOS.Core.RequiredAuthority
import SharedOS.Core.CanonicalForm
import SharedOS.Precedent.KeyDigest
import SharedOS.Conformance.JudgeSoundness
import SharedOS.Mcp.InBand
import SharedOS.Foundation.Codec
import SharedOS.Contracts.Http
import SharedOS.Contracts.Codecs
import SharedOS.Contracts.Parsed
import SharedOS.Kernel.NamespaceCatalog
import SharedOS.Foundation.Grouping
import SharedOS.Contracts.Card
import SharedOS.Core.Loading
import SharedOS.Core.MessageService
import SharedOS.Core.AgentCard
import SharedOS.Core.GrantsInForce
import SharedOS.Kernel.AgentCard
import SharedOS.Foundation.ObjectHeap
import SharedOS.Core.ReadJson
import SharedOS.Core.ToolNamespaceControl
import SharedOS.Kernel.NamespaceSettings
import SharedOS.Foundation.Timers
import SharedOS.Runtime.DeadlineTimers
import SharedOS.Mcp.ToolNames
import SharedOS.Runtime.TurnDecision
import SharedOS.Adapters.Harness
import SharedOS.Adapters.Protocols
import SharedOS.Adapters.CallsCarried
import SharedOS.Adapters.Endings
import SharedOS.Foundation.Race
import SharedOS.Runtime.StandardLoop
import SharedOS.Foundation.History
import SharedOS.Runtime.SessionClose
import SharedOS.Adapters.ModelDriver
import SharedOS.Adapters.Conversation
import SharedOS.Adapters.HarnessDriver
import SharedOS.Adapters.FrameGuard
import SharedOS.Adapters.FrameQueue
import SharedOS.Foundation.JsonText
import SharedOS.Adapters.FrameWriters
import SharedOS.Adapters.EscalationLatch
import SharedOS.Kernel.MessageRecipient
import SharedOS.Adapters.WireNames
import SharedOS.Conformance.OwnCalls
import SharedOS.Conformance.Assemble
import SharedOS.Conformance.LiftedFacts
import SharedOS.Foundation.Base64
import SharedOS.Foundation.Utf8
import SharedOS.Mcp.ExecutionToken
import SharedOS.Foundation.PropertyChain
import SharedOS.Foundation.ValueSchema
import SharedOS.Contracts.Untrusted
import SharedOS.Kernel.Registration
import SharedOS.Kernel.RegistrationContract
import SharedOS.Foundation.Embedding
import SharedOS.Kernel.Operations
import SharedOS.Kernel.OperationMediation
import SharedOS.Kernel.MediatedOperations
import SharedOS.Kernel.Refusal
import SharedOS.Kernel.ExplainedRefusal
import SharedOS.Foundation.Agreement
import SharedOS.Http.Routes
import SharedOS.Http.Handler
import SharedOS.Http.HandlerGates
import SharedOS.Http.Client
import SharedOS.Foundation.PullQueue
import SharedOS.Adapters.FrameChannel
import SharedOS.Adapters.HarnessRun
import SharedOS.Foundation.JsonLines
import SharedOS.Mcp.Stdio
import SharedOS.Kernel.ToolListing
import SharedOS.Kernel.ListedCalls
import SharedOS.Kernel.AuditWriteLimit
import SharedOS.Kernel.Spending
import SharedOS.Runtime.Callbacks
