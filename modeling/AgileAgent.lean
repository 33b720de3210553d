import AgileAgent.DecisionDsl.Commands
import AgileAgent.DecisionDsl.Resume
import AgileAgent.DecisionDsl.Scopes
import AgileAgent.DecisionDsl.RunningPath
import AgileAgent.DecisionDsl.Desugar
import AgileAgent.DecisionDsl.Rules
import AgileAgent.DecisionDsl.Retry
import AgileAgent.DecisionDsl.Idle
import AgileAgent.DecisionDsl.Ready
import AgileAgent.DecisionDsl.Leftovers
import AgileAgent.DecisionDsl.Actions
import AgileAgent.DecisionDsl.ProviderSession
import AgileAgent.DecisionDsl.Replies
import AgileAgent.DecisionDsl.Fresh
import AgileAgent.DecisionDsl.Reflection
import AgileAgent.DecisionDsl.Views
import AgileAgent.Machine
import AgileAgent.RuntimeDomain.DomainEvent
import AgileAgent.RuntimeDomain.TranscriptJournal
import AgileAgent.RuntimeDomain.Worker
import AgileAgent.RuntimeDomain.Lifecycle
import AgileAgent.RuntimeDomain.Stream
import AgileAgent.Core.AgentSlot
import AgileAgent.Core.Agreement
import AgileAgent.DecisionDsl.Validate
import AgileAgent.DecisionDsl.Parser
import AgileAgent.DecisionDsl.Listing
import AgileAgent.DecisionDsl.Faults
import AgileAgent.DecisionDsl.References
import AgileAgent.DecisionDsl.Names
import AgileAgent.DecisionDsl.Late
import AgileAgent.DecisionDsl.Delays
import AgileAgent.Core.Resting
import AgileAgent.RuntimeDomain.ToolCalls
import AgileAgent.Backlog.BacklogState
import AgileAgent.Backlog.ThreadSafeBacklog
import AgileAgent.Acyclic
import AgileAgent.Kanban.Domain
import AgileAgent.Kanban.Repository
import AgileAgent.Kanban.Service
import AgileAgent.Kanban.Dependencies
import AgileAgent.Kanban.MemoryRepository
import AgileAgent.Core.Pool.HumanDecisionQueue
import AgileAgent.Core.Pool.Decisions
import AgileAgent.Core.Pool.Calls
import AgileAgent.Core.Pool.Roster
import AgileAgent.Core.Pool.Focus
import AgileAgent.Core.Pool.AgentIds
import AgileAgent.Backlog.Moves
import AgileAgent.Core.Pool.Completion
import AgileAgent.Core.Pool.Effects
import AgileAgent.Core.Pool.PendingRequests
import AgileAgent.Custody
import AgileAgent.Core.Pool.TaskCustody
import AgileAgent.Kanban.Effects
import AgileAgent.Kanban.Numbering
import AgileAgent.Kanban.Started
import AgileAgent.Kanban.Deletion
import AgileAgent.Kanban.ElementIds
import AgileAgent.Kanban.FileRepository
import AgileAgent.Kanban.FileAgreement
import AgileAgent.Kanban.DecisionKanban
import AgileAgent.Core.Mail.AgentMailbox
import AgileAgent.Core.Mail.Delivery
import AgileAgent.Kanban.Reports
import AgileAgent.Core.Mail.Snapshot
import AgileAgent.Core.DecisionAgentSlot
import AgileAgent.Progress
import AgileAgent.Core.Answering
import AgileAgent.Core.Pool.DecisionCommands
import AgileAgent.Core.Pool.DecisionPaths
import AgileAgent.Core.Loop.AppState
import AgileAgent.Fallible
import AgileAgent.Core.Loop.Host
import AgileAgent.Core.Loop.TaskEngine
import AgileAgent.Core.Loop.LoopRunner
import AgileAgent.Core.Loop.Judgement
import AgileAgent.Core.Loop.Turns
import AgileAgent.Core.Loop.Guardrails
import AgileAgent.Core.Loop.OwnText
import AgileAgent.Decision.RunningContext
import AgileAgent.Decision.TaskRuns
import AgileAgent.Core.Loop.SlotTranscript
import AgileAgent.Daemon.EventPump
import AgileAgent.Daemon.Items
import AgileAgent.Daemon.EventLog
import AgileAgent.Daemon.Broadcaster
import AgileAgent.Core.Loop.ActiveTask
import AgileAgent.Daemon.DecisionIntegration
import AgileAgent.Daemon.EventLoop
import AgileAgent.Daemon.TurnEnds
import AgileAgent.Daemon.Sequence
import AgileAgent.Daemon.ShutdownSnapshot
import AgileAgent.Daemon.Recovery
import AgileAgent.Decision.Task
import AgileAgent.Decision.Automation
import AgileAgent.Decision.TaskEngine
import AgileAgent.Decision.Engine
import AgileAgent.Decision.RateLimiter
import AgileAgent.Decision.SessionPool
import AgileAgent.Decision.Arbitrator
import AgileAgent.Decision.RuleEngine
import AgileAgent.Decision.LlmEngine
import AgileAgent.Decision.TieredEngine
import AgileAgent.Decision.TaskRegistry
import AgileAgent.Decision.Pipeline
import AgileAgent.RingBuffer
import AgileAgent.DecisionDsl.Cycles
import AgileAgent.DecisionDsl.Grammar
import AgileAgent.DecisionDsl.ShortCircuit
import AgileAgent.DecisionDsl.Derivations
import AgileAgent.DecisionDsl.Tokens
import AgileAgent.DecisionDsl.Switches
import AgileAgent.DecisionDsl.EnumSwitches
import AgileAgent.Decision.Text
import AgileAgent.Worktree.Git
import AgileAgent.Worktree.WorktreeManager
import AgileAgent.Worktree.GitFlowExecutor
import AgileAgent.Worktree.Preparation
import AgileAgent.Provider.Codex
import AgileAgent.Provider.CodexTurns
import AgileAgent.Worktree.Porcelain
import AgileAgent.Worktree.Worktrees
import AgileAgent.ByteCuts
import AgileAgent.DecisionDsl.Filters
import AgileAgent.Core.Previews
import AgileAgent.Owners
import AgileAgent.Core.Loop.CallUpdates
import AgileAgent.Daemon.CommandEntries
import AgileAgent.Core.Pool.QueueRuns
import AgileAgent.Kanban.Blocking
import AgileAgent.Core.EventAggregator
import AgileAgent.Core.Loop.TodoOrder
import AgileAgent.DecisionDsl.Alike
import AgileAgent.Daemon.DecisionAgentSlot
import AgileAgent.Decision.Compression
import AgileAgent.Decision.GitState
import AgileAgent.Decision.AheadBehind
import AgileAgent.Decision.Uncommitted
import AgileAgent.Decision.TaskMetadata
import AgileAgent.Decision.BranchNames
import AgileAgent.Decision.Metrics
import AgileAgent.Decision.BuiltinActions
import AgileAgent.Decision.StructuredResponse
import AgileAgent.Substitution
import AgileAgent.Decision.Prompts
import AgileAgent.Decision.TaskContexts
import AgileAgent.Worktree.Rebase
import AgileAgent.Worktree.ChangesInfo
import AgileAgent.Provider.Claude
import AgileAgent.Provider.LaunchConfig
import AgileAgent.Provider.LaunchModes
import AgileAgent.Provider.Redaction
import AgileAgent.SortedMap
import AgileAgent.Provider.Interpolate
import AgileAgent.Commands.Parse
import AgileAgent.Decision.TaskBranches
import AgileAgent.Daemon.ClientDisplay
import AgileAgent.Protocol.Server
import AgileAgent.Protocol.Calls
import AgileAgent.Tui.Streaming
import AgileAgent.Tui.ActiveCell
import AgileAgent.Tui.Said
import AgileAgent.Protocol.Admission
