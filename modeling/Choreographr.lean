import Choreographr.Lib.OrdMap
import Choreographr.Lib.Machine
import Choreographr.Lib.LastMatch
import Choreographr.Session.Types
import Choreographr.Session.State
import Choreographr.Session.Store
import Choreographr.Session.Migration
import Choreographr.Session.Projection
import Choreographr.Session.ToolBatch
import Choreographr.Session.Messages
import Choreographr.Session.AgentLoop
import Choreographr.Session.Handlers
import Choreographr.Session.System
import Choreographr.Session.Proofs.Moves
import Choreographr.Session.Proofs.Turns
import Choreographr.Session.Proofs.WorkerRuns
import Choreographr.Session.Proofs.Runs
import Choreographr.Session.Proofs.Transcript
import Choreographr.Session.Proofs.Chain
import Choreographr.Session.Proofs.UndoRedo
import Choreographr.Session.Proofs.ToolBatch
import Choreographr.Session.Proofs.Pairing
import Choreographr.Session.Proofs.Answers
import Choreographr.Session.Proofs.Calls
import Choreographr.Session.Proofs.Config
import Choreographr.Session.Proofs.TurnIds
import Choreographr.Session.Proofs.Disk
import Choreographr.Session.Proofs.Tokens
import Choreographr.Session.Proofs.Skills
import Choreographr.Session.Proofs.Modified
import Choreographr.Session.Proofs.Tables
import Choreographr.Session.Proofs.Migration
import Choreographr.Session.Proofs.LiveRuns
import Choreographr.Protocols.Values
import Choreographr.Protocols.Sse
import Choreographr.Protocols.Proofs.Sse
import Choreographr.Protocols.ReasoningDetails
import Choreographr.Protocols.ChatProjection
import Choreographr.Protocols.Proofs.ChatProjection
import Choreographr.Protocols.Proofs.ResponsesInput
import Choreographr.Lib.Assembly
import Choreographr.Protocols.TurnResult
import Choreographr.Protocols.ReasoningCapture
import Choreographr.Protocols.ChatStream
import Choreographr.Protocols.ResponsesStream
import Choreographr.Protocols.Fragments
import Choreographr.Protocols.Proofs.ReasoningCapture
import Choreographr.Protocols.Proofs.ChatStream
import Choreographr.Protocols.Proofs.ResponsesStream
import Choreographr.Protocols.BlockReplies
import Choreographr.Protocols.Anthropic
import Choreographr.Protocols.Google
import Choreographr.Protocols.Proofs.BlockReplies
import Choreographr.Protocols.Proofs.Anthropic
import Choreographr.Protocols.Proofs.Google
import Choreographr.Protocols.Proofs.GooglePairing
import Choreographr.Server.System
import Choreographr.Server.Proofs.Replies
import Choreographr.Lib.Counting
import Choreographr.Daemon.State
import Choreographr.Daemon.SessionThread
import Choreographr.Daemon.CommandLoop
import Choreographr.Daemon.System
import Choreographr.Daemon.Proofs.Disk
import Choreographr.Daemon.Proofs.Threads
import Choreographr.Daemon.Proofs.Lifecycle
import Choreographr.Daemon.Proofs.LoopLifecycle
import Choreographr.Daemon.Proofs.Deletion
import Choreographr.Daemon.Proofs.Subtree
import Choreographr.Daemon.Proofs.Desk
import Choreographr.Daemon.Proofs.Attach
import Choreographr.Daemon.Proofs.FanOut
import Choreographr.Lib.ByteOrder
import Choreographr.Session.Kv
import Choreographr.Session.Proofs.Kv
import Choreographr.Transport.Noise
import Choreographr.Transport.Proofs.Noise
import Choreographr.Server.Lag
import Choreographr.Server.Proofs.Lag
import Choreographr.Keystore.State
import Choreographr.Keystore.Refresh
import Choreographr.Keystore.System
import Choreographr.Keystore.Proofs.Handlers
import Choreographr.Keystore.Proofs.Locked
import Choreographr.Keystore.Proofs.Quarantine
import Choreographr.Keystore.Proofs.Locks
import Choreographr.Keystore.Proofs.Rotation
import Choreographr.Catalog.Proofs.Overlay
import Choreographr.Catalog.Proofs.Coherence
import Choreographr.Catalog.Proofs.RefreshQueue
import Choreographr.Protocols.Proofs.SseDone
import Choreographr.Protocols.Proofs.CallAssembly
import Choreographr.Protocols.Proofs.ToolCallDeltas
import Choreographr.Protocols.Proofs.DetailsReplay
import Choreographr.Protocols.Proofs.ReasoningChannels
import Choreographr.Session.Proofs.ToolImages
import Choreographr.Lib.Dialogue
import Choreographr.Protocols.AnthropicRequest
import Choreographr.Protocols.Proofs.AnthropicRequest
import Choreographr.Protocols.Proofs.GoogleSignatures
import Choreographr.Lib.LineReader
import Choreographr.Protocols.LineSse
import Choreographr.Protocols.Proofs.LineSse
import Choreographr.Protocols.Proofs.Retry
import Choreographr.Tools.Proofs.FileLocks
import Choreographr.Tools.Proofs.Sanitize
import Choreographr.Tools.Proofs.EditFile
import Choreographr.Tools.Proofs.EditTargets
import Choreographr.Session.Proofs.TokenSums
import Choreographr.Tools.Proofs.SanitizeText
import Choreographr.Client.Proofs.StreamedCap
import Choreographr.Client.Proofs.Routing
import Choreographr.Tools.Proofs.Series
import Choreographr.Tools.Proofs.TextStream
import Choreographr.Tools.Proofs.ReadFile
import Choreographr.Tui.Proofs.TextFilter
import Choreographr.Tui.Proofs.NormalizedSource
import Choreographr.CacheWarm.Proofs.Driver
import Choreographr.Tui.Proofs.Input
import Choreographr.Tui.Proofs.CursorRow
import Choreographr.Tools.Grep.NeverDenies
import Choreographr.Tui.Proofs.Selection
import Choreographr.Tools.Proofs.ShellStream
import Choreographr.Vm.Proofs.Exact
