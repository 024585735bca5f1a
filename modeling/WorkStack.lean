import WorkStack.Store.CrashAtomicity
import WorkStack.Store.RefusedSave
import WorkStack.Store.ExternalEdits
import WorkStack.Store.AdoptionRetry
import WorkStack.WriteSession.Leftovers
import WorkStack.WriteSession.ForeignBytes
import WorkStack.Events.Delivery
import WorkStack.Store.RebindReview
import WorkStack.Streams.DeletionRewrite
import WorkStack.Service.WorkSessionRuns
import WorkStack.Service.OutcomeRuns
import WorkStack.Deletion.Plan
import WorkStack.Effect.Updates
import WorkStack.RemoteUpdate.OneAtATime
import WorkStack.RemoteUpdate.BackedStart
import WorkStack.RemoteUpdate.Rollback
import WorkStack.Streams.AppendRuns
import WorkStack.Knowledge.LedgerRuns
import WorkStack.Reports.ReportRuns
import WorkStack.RemoteUpdate.JournalRuns
import WorkStack.Connection.Closing
import WorkStack.Checkpoints.TaskFacts
import WorkStack.Service.NoticePages
import WorkStack.Service.StatusRuns
import WorkStack.Knowledge.Observations
import WorkStack.Service.DailyEntries
import WorkStack.Agent.BriefReading
import WorkStack.Effect.Ranking
import WorkStack.Text.Like
import WorkStack.Storage.SearchAgreement
import WorkStack.Reports.DailyLines
import WorkStack.Reports.ReportWalks
import WorkStack.Effect.Slots
import WorkStack.Views.TableOrdering
import WorkStack.Views.OutcomeHierarchy
import WorkStack.Views.ResumeFacts
import WorkStack.Service.ActivityEvents
import WorkStack.Service.Relationships
import WorkStack.Service.DisplayIdRuns
import WorkStack.Views.RevealedTasks
import WorkStack.Storage.CanonicalJson
import WorkStack.RemoteUpdate.Offers
import WorkStack.RemoteUpdate.Remembering
