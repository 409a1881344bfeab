import Redskilled.Acp.OneBadLine
import Redskilled.Acp.PublishTurn
import Redskilled.Acp.SessionRetention
import Redskilled.Acp.TerminalOutput
import Redskilled.Acp.TicketLoopRuns
import Redskilled.Daemon.BirthProbe
import Redskilled.Daemon.CustodyHeads
import Redskilled.Daemon.DemandLaw
import Redskilled.Daemon.FailedAcquire
import Redskilled.Daemon.GithubObligation
import Redskilled.Daemon.GithubRetention
import Redskilled.Daemon.IntentStore
import Redskilled.Daemon.LaunchExact
import Redskilled.Daemon.OneDeath
import Redskilled.Daemon.OutboxRestart
import Redskilled.Daemon.ProjectControl
import Redskilled.Daemon.RefusedRequest
import Redskilled.Daemon.ScopeCeiling
import Redskilled.Daemon.WebAuthRuns
import Redskilled.Deaths.ReaperAccounts
import Redskilled.Deaths.TornWrites
import Redskilled.Gate.GateCoverage
import Redskilled.Github.BalanceStore
import Redskilled.Github.ConditionalPages
import Redskilled.Github.GatewayScope
import Redskilled.Github.GhBatch
import Redskilled.Github.PlainToonl
import Redskilled.Github.PublishedOnce
import Redskilled.Github.ReadsOnly
import Redskilled.Github.SingleObjectRuns
import Redskilled.Host.OrphanSweep
import Redskilled.Host.RuntimeReclaim
import Redskilled.Host.SpawnLock
import Redskilled.Host.StartExclusion
import Redskilled.Landing.ConflictHunks
import Redskilled.Landing.CountersignRetention
import Redskilled.Landing.LandLock
import Redskilled.Landing.MergeBounds
import Redskilled.Landing.MergeDriverRaces
import Redskilled.Landing.RebaseWorktree
import Redskilled.Lane.Reboot
import Redskilled.Lane.Position
import Redskilled.Lane.ToldAll
import Redskilled.Link.LinkStore
import Redskilled.Link.ReplayWindow
import Redskilled.Manager.TakenUp
import Redskilled.Memory.DocRecord
import Redskilled.Memory.FederationLeak
import Redskilled.Memory.HeadOfChain
import Redskilled.Memory.PromotionEngine
import Redskilled.Memory.ReadBack
import Redskilled.Pool.OneHolder
import Redskilled.Pool.WorkerDrain
import Redskilled.Pool.WorkspaceMounts
import Redskilled.Telemetry.NothingLost
import Redskilled.Tracker.ClaimAttempt
import Redskilled.Tracker.Dependencies
import Redskilled.Tracker.ElectionOrder
import Redskilled.Tracker.LeaseRecovery
import Redskilled.Tracker.QuarantineCurator
import Redskilled.Tracker.RequeueComplete
import Redskilled.Tracker.StaleSweep
import Redskilled.Update.ServedVersion
import Redskilled.Update.Takeover
