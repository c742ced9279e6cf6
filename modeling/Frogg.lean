import Frogg.Server.BackwardPaging
import Frogg.Server.ForwardCatchUp
import Frogg.Relay.FrameDelivery
import Frogg.Ui.CatchUpGenerations
import Frogg.Ui.ReloadAgreement
import Frogg.Server.AgentRecords
import Frogg.Relay.RelayAttacks
import Frogg.Server.ForegroundTurns
import Frogg.Server.RunningAgents
import Frogg.Server.LabelCatchUp
import Frogg.Server.ProjectTodoService
import Frogg.Server.ServicePortRuns
import Frogg.Server.AgentUpdateRuns
import Frogg.Server.RegistryRuns
import Frogg.DaemonRs.TextMatchAgreement
import Frogg.Protocol.FrameRoundTrips
import Frogg.Relay.KindAndContent
import Frogg.Server.DirectoryReads
import Frogg.Ui.DirectoryRefreshes
import Frogg.Server.PidLockOwners
import Frogg.DaemonRs.TrustAgreement
import Frogg.Tasks.ExecutionOrder
import Frogg.Tasks.HierarchyRuns
import Frogg.Server.UsageLimitRuns
import Frogg.Server.FinishNotification
import Frogg.Ui.DirectoryCommits
import Frogg.Server.AgentLoading
import Frogg.Server.PromptRuns
import Frogg.Server.JsonlFrameRuns
import Frogg.Server.PairingRuns
import Frogg.Server.Pcm16Resampler
import Frogg.Server.WorkspacePaging
import Frogg.Server.ForwardedClients
import Frogg.Server.GitObserverRuns
import Frogg.Server.ThrottleKeys
import Frogg.Protocol.TerminalInputModeRuns
import Frogg.Server.VoiceTurnRuns
import Frogg.DaemonRs.SupervisorRuns
import Frogg.Server.GitProcessSchedulerRuns
import Frogg.Protocol.MatchRanges
import Frogg.Ui.ReplicaCache
import Frogg.Server.ProjectionTexts
import Frogg.Server.CoalescerReentry
import Frogg.Protocol.EditDistance
