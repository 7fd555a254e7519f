import GreenchClaw.Process.TaskWaiters
import GreenchClaw.Process.QueueOrder
import GreenchClaw.Routing.CacheKey
import GreenchClaw.Cron.DueSlots
import GreenchClaw.Cron.Slots
import GreenchClaw.Cron.OneShots
import GreenchClaw.Markdown.Nesting
import GreenchClaw.AutoReply.DebounceRuns
import GreenchClaw.AutoReply.FollowupConservation
import GreenchClaw.AutoReply.FollowupProgress
import GreenchClaw.AutoReply.FollowupBatches
import GreenchClaw.Pairing.Provenance
import GreenchClaw.Outbound.NoReplay
import GreenchClaw.Exec.PreludeLinks
import GreenchClaw.Pairing.NodeRuns
import GreenchClaw.Pairing.Usable
import GreenchClaw.Approvals.SingleUse
import GreenchClaw.Gateway.ReloadConvergence
import GreenchClaw.Heartbeat.WakeRuns
import GreenchClaw.Sessions.RouteRuns
import GreenchClaw.Acp.LedgerReplay
import GreenchClaw.History.ImportedMerge
import GreenchClaw.Gateway.AttemptsBounded
import GreenchClaw.Gateway.PlanCoverage
import GreenchClaw.Gateway.PendingRevisions
import GreenchClaw.AuthProfiles.WindowsKept
import GreenchClaw.Agents.GuardedTranscripts
import GreenchClaw.ApplyPatch.Meaning
import GreenchClaw.SessionHistory.AppendedHistory
import GreenchClaw.Transcripts.RewriteKept
import GreenchClaw.Net.Cidr
import GreenchClaw.AuthProfiles.RoundRobin
import GreenchClaw.Agents.PrunedHistory
import GreenchClaw.Agents.PrunedContext
import GreenchClaw.AutoReply.InboundDedupe
import GreenchClaw.AutoReply.DispatcherRuns
import GreenchClaw.Markdown.ChunkBound
import GreenchClaw.Markdown.RenderedStyles
import GreenchClaw.SystemEvents.PeekedEvents
import GreenchClaw.Subagents.ReadIndex
import GreenchClaw.Sessions.MaintenanceWarning
import GreenchClaw.Routing.AgentKeys
import GreenchClaw.Exec.SafeBinReading
import GreenchClaw.Exec.WindowsArgv
import GreenchClaw.Exec.ApprovalsNormal
import GreenchClaw.Config.JsonBytes
import GreenchClaw.Cron.ListPages
