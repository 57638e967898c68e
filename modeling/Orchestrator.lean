import Orchestrator.Retries
import Orchestrator.Locks
import Orchestrator.Release
import Orchestrator.Verdict
import Orchestrator.Worktree
import Orchestrator.OutboxFlag
import Orchestrator.Ledger
import Orchestrator.Attempts
import Orchestrator.Hang
import Orchestrator.Finalizing
import Orchestrator.Order
import Orchestrator.Cancel
import Orchestrator.Providers
import Orchestrator.Opacity
import Orchestrator.Diagnostics
import Orchestrator.Report
import Orchestrator.Sessions
import Orchestrator.Lib.Regex
import Orchestrator.Prescan
import Orchestrator.RoundTrip
import Orchestrator.Delivery
import Orchestrator.Payloads
import Orchestrator.Artifacts
import Orchestrator.Grace
import Orchestrator.Exit
import Orchestrator.Inbox
import Orchestrator.Lib.Latest
import Orchestrator.CodexIndex
import Orchestrator.Rollouts
import Orchestrator.Freshness
import Orchestrator.Lib.Rfc3339
import Orchestrator.Lib.Lines
import Orchestrator.Lib.Utf8
import Orchestrator.Lib.Json
import Orchestrator.LogTail
import Orchestrator.Titles
import Orchestrator.Exclude
import Orchestrator.Actions
import Orchestrator.Lib.Path
import Orchestrator.Conversation
import Orchestrator.Bounded
import Orchestrator.Transport
import Orchestrator.ProcessTree
import Orchestrator.Lib.Pool
import Orchestrator.Fleet
import Orchestrator.Persistence
import Orchestrator.Lib.Throws
import Orchestrator.Endings
import Orchestrator.Admission
