import Veridex.Api.ApproveRuns
import Veridex.Api.CompetitionBoard
import Veridex.Api.KillSwitch
import Veridex.Checks.DoctoredRows
import Veridex.DustExecution.AmbiguousWait
import Veridex.DustExecution.CustodyAdmission
import Veridex.DustExecution.EmergencyStop
import Veridex.DustExecution.HonestStatus
import Veridex.DustExecution.OrderAmounts
import Veridex.DustExecution.ReArmRace
import Veridex.DustExecution.Rehearsal
import Veridex.DustExecution.RepeatedTarget
import Veridex.DustExecution.SignerRecovery
import Veridex.DustExecution.SelfCross
import Veridex.DustExecution.SessionRuns
import Veridex.Ingest.CaptureRuns
import Veridex.LiveRecorder.BookStanding
import Veridex.Maker.ConvergenceMarkets
import Veridex.Maker.MarketIsolation
import Veridex.MmStrategy.BridgeRuns
import Veridex.MmStrategy.GuardSubtracts
import Veridex.MmStrategy.Liveness
import Veridex.MmStrategy.MakerSafety
import Veridex.MmStrategy.Recompute
import Veridex.MmStrategy.Restart
import Veridex.MmStrategy.StandingQuotes
import Veridex.Runtime.ArenaFixtures
import Veridex.Runtime.EvidenceBinding
import Veridex.Runtime.HostedRun
import Veridex.Runtime.KickoffClose
import Veridex.Runtime.LeasedRun
import Veridex.Runtime.SpoolRuns
import Veridex.Scoring.ProjectionRuns
import Veridex.Venues.CostToFill
import Veridex.Venues.ResolverOutcomes
import Veridex.Venues.WirePrice
import Veridex.Verifier.Anchored
import Veridex.Verifier.DomainRoot
