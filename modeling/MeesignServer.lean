import MeesignServer.FallibleProgram
import MeesignServer.FiniteMap
import MeesignServer.IndexBlocks
import MeesignServer.DataModel
import MeesignServer.CommunicatorModel
import MeesignServer.ProtocolModel
import MeesignServer.VotingModel
import MeesignServer.RunningTaskModel
import MeesignServer.DatabaseModel
import MeesignServer.HydrationModel
import MeesignServer.ServerModel
import MeesignServer.ActiveShares
import MeesignServer.TaskOutcomes
import MeesignServer.ServerOutcomes
import MeesignServer.TableFrames
import MeesignServer.VoteTally
import MeesignServer.ServerInvariant
import MeesignServer.TableWrites
import MeesignServer.HydrationOutcomes
import MeesignServer.TaskStart
import MeesignServer.InvariantSteps
import MeesignServer.TaskAdmission
import MeesignServer.ServerMoves
import MeesignServer.TableSync
import MeesignServer.SyncRuns
import MeesignServer.ConsentSafety
import MeesignServer.IndexStability
import MeesignServer.RestartTransparency
import MeesignServer.VotingRuns
import MeesignServer.StaleSweep
import MeesignServer.PhaseOrder
import MeesignServer.GroupWellFormed
import MeesignServer.GroupResults
import MeesignServer.AdmissionStart
import MeesignServer.CrashConsistency
import MeesignServer.FailedDecision
import MeesignServer.Subscriptions
import MeesignServer.SweepSchedule
import MeesignServer.LazyCache
import MeesignServer.TaskSchedule
import MeesignServer.MessageBuffers
import MeesignServer.BufferInvariant
import MeesignServer.MessageDelivery
import MeesignServer.MessageHistory
import MeesignServer.ResultAgreement
import MeesignServer.CachedBuffers
import MeesignServer.AcknowledgedUpdates
import MeesignServer.ClientMessages
import MeesignServer.RoundAssertions
import MeesignServer.ShareRecovery
import MeesignServer.RefusedRequests
import MeesignServer.GroupRequests
import MeesignServer.RowGroups
import MeesignServer.GroupListings
import MeesignServer.ProcessStops
import MeesignServer.FoundTasks
import MeesignServer.RoundMixing
import MeesignServer.WorkMessages
import MeesignServer.PdfHelperLifecycle
import MeesignServer.HonestRounds
import MeesignServer.PushModel
import MeesignServer.AnnouncedTasks
import MeesignServer.TaskAddressees
import MeesignServer.StreamFollowing
import MeesignServer.TaskListings
import MeesignServer.ConsentTrail
import MeesignServer.HexFormat
import MeesignServer.ServiceModel
import MeesignServer.ServiceRuns
import MeesignServer.TaskAuthority
import MeesignServer.DeviceIdentity
import MeesignServer.SweepRecovery
