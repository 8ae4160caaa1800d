import QuantWorkbench.Account.DamagedStore
import QuantWorkbench.Account.FaithfulReplay
import QuantWorkbench.Account.LedgerMutators
import QuantWorkbench.Account.PositionPreview
import QuantWorkbench.Account.SnapshotStore
import QuantWorkbench.Account.ValidBuys
import QuantWorkbench.Advisory.Engine
import QuantWorkbench.Backtest.EarnedWhileHeld
import QuantWorkbench.Backtest.NavBooks
import QuantWorkbench.Backtest.NoLookAhead
import QuantWorkbench.Data.ProviderFailover
import QuantWorkbench.Data.ProviderRegistry
import QuantWorkbench.Data.QuoteCache
import QuantWorkbench.Data.RefreshRuns
import QuantWorkbench.Experiments.EvaluationBounds
import QuantWorkbench.Features.UniverseVisibility
import QuantWorkbench.Features.Visibility
import QuantWorkbench.Intelligence.CnInfoWindow
import QuantWorkbench.Intelligence.ReliefPhrases
import QuantWorkbench.Research.ConformalCalibration
import QuantWorkbench.Research.CrossSection
import QuantWorkbench.Research.EvolutionAudit
import QuantWorkbench.Research.ForecastFutures
import QuantWorkbench.Research.PointInTime
import QuantWorkbench.Research.PromotionEvidence
import QuantWorkbench.Research.ProspectiveMetrics
import QuantWorkbench.Research.ScreeningFutures
import QuantWorkbench.Research.SplitWindows
import QuantWorkbench.Runtime.BackfillProgress
import QuantWorkbench.Runtime.BackfillSeams
import QuantWorkbench.Runtime.CheckpointRoundTrip
import QuantWorkbench.Runtime.DailyBundleCommit
import QuantWorkbench.Runtime.DerivedScreen
import QuantWorkbench.Runtime.EodAttempts
import QuantWorkbench.Runtime.EodCompletion
import QuantWorkbench.Runtime.EodExposure
import QuantWorkbench.Runtime.EodPermission
import QuantWorkbench.Runtime.ForgottenCycle
import QuantWorkbench.Runtime.GapRecovery
import QuantWorkbench.Runtime.LiveQuality
import QuantWorkbench.Runtime.ProtectionPrice
import QuantWorkbench.Runtime.ResearchChildren
import QuantWorkbench.Runtime.TickReports
import QuantWorkbench.Storage.ActiveArtifacts
import QuantWorkbench.Storage.FinalBars
import QuantWorkbench.Storage.ProjectStorage
import QuantWorkbench.Storage.PublicRiskEvidence
import QuantWorkbench.Strategies.WithinSpec
import QuantWorkbench.Workbench.DurableBaseline
import QuantWorkbench.Workbench.GuidanceService
import QuantWorkbench.Workbench.SpendingCap
