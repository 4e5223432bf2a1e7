import Opifex.DispatchSelection
import Opifex.DesiredStateGates
import Opifex.SpendExposure
import Opifex.SpendReadmission
import Opifex.IdentityCollision
import Opifex.SubmissionSafety
import Opifex.HoldBrake
import Opifex.RetryCeiling
import Opifex.OverlappingTicks
import Opifex.UninterruptedTick
import Opifex.MirrorLabels
import Opifex.IngestInterleaving
import Opifex.DatedPark
import Opifex.PollerParks
import Opifex.ParkPlan
import Opifex.QuotaExit
import Opifex.DrainedEvents
import Opifex.QuotaMetering
import Opifex.QuotaFold
import Opifex.LivenessClock
import Opifex.RunnerBackstops
import Opifex.HandOff
import Opifex.DeadlineClocks
import Opifex.BudgetEscalations
import Opifex.EscalationDedup
import Opifex.StaleEscalations
import Opifex.DeadTimeLedger
import Opifex.ApprovalDesk
import Opifex.ApprovalAnswers
import Opifex.ParkedEscalations
import Opifex.TrustCeiling
import Opifex.RenewalChain
import Opifex.DemotionDesk
import Opifex.DemotionDisarms
import Opifex.PromotionLadder
import Opifex.SupervisorCeiling
import Opifex.SupervisorInvocation
import Opifex.GitProgress
import Opifex.AuthorizationRecords
import Opifex.FleetState
import Opifex.RunWorkspace
import Opifex.SteeringAudit
import Opifex.SteeringScope
import Opifex.SettingsPatch
import Opifex.SettingsPrecondition
import Opifex.RefreshRotation
import Opifex.AvoidedParks
import Opifex.CurrentWorkOrder
import Opifex.RoutingLabels
import Opifex.IdentityParsing
import Opifex.GrantAuthorization
import Opifex.PromotionShortfall
import Opifex.WritePathGuard
import Opifex.DeadTimeWindow
import Opifex.StdoutLines
import Opifex.EpicBody
import Opifex.EpicChildren
import Opifex.Redaction
import Opifex.InstructionNumbers
import Opifex.UnknownWords
import Opifex.EtagCache
import Opifex.Pagination
import Opifex.LegacyModelSettings
import Opifex.FactoryBranches
import Opifex.ToolSignatures
