import ProcessRuns.FailureText
import ProcessRuns.Log.Faulty
import ProcessRuns.Log.Memory
import ProcessRuns.Queue.Broadcast
import ProcessRuns.Service.Blueprint
import ProcessRuns.Service.Settle
import ProcessRuns.Settings.Reader
import ProcessRuns.Sql.Log
import ProcessRuns.Proofs.Queue.Conservation
import ProcessRuns.Proofs.Activities.Order
import ProcessRuns.Proofs.Activities.Releases
import ProcessRuns.Proofs.Activities.Reopening
import ProcessRuns.Proofs.Activities.LogTables
import ProcessRuns.Proofs.Service.Timers
import ProcessRuns.Proofs.Activities.Failures
import ProcessRuns.Proofs.Activities.Reports
import ProcessRuns.Proofs.Activities.DataDates
import ProcessRuns.Proofs.Activities.Wakeups
import ProcessRuns.Proofs.Service.Pool
import ProcessRuns.Proofs.Activities.Permits
import ProcessRuns.Proofs.Log.Stamps
import ProcessRuns.Proofs.Activities.LastRuns
import ProcessRuns.Proofs.Json.Reading
import ProcessRuns.Proofs.Log.Values
import ProcessRuns.Proofs.Log.Notes
import ProcessRuns.Proofs.Log.Operations
import ProcessRuns.Proofs.Sql.Pages
import ProcessRuns.Proofs.Activities.Selections
import ProcessRuns.Proofs.Activities.LateRequests
import ProcessRuns.Proofs.Service.Stopping
import ProcessRuns.Proofs.Service.Channel
import ProcessRuns.Proofs.Activities.Lifecycles
import ProcessRuns.Proofs.Activities.Executions
import ProcessRuns.Proofs.Activities.Reprocessings
import ProcessRuns.Proofs.Sql.Lexemes
import ProcessRuns.Proofs.Sql.Texts
import ProcessRuns.Proofs.Log.Requests
import ProcessRuns.Proofs.Sql.CleanTexts
import ProcessRuns.Proofs.Log.FailedSelections
import ProcessRuns.Proofs.Service.Registrations
import ProcessRuns.Proofs.Log.Repairs
import ProcessRuns.Proofs.Log.Pages
import ProcessRuns.Proofs.Schedule.Dates
import ProcessRuns.Proofs.Activities.Restarts
import ProcessRuns.Proofs.Json.Whole
import ProcessRuns.Proofs.Log.Additions
import ProcessRuns.Proofs.Sql.Bindings
import ProcessRuns.Proofs.Sql.Ids
import ProcessRuns.Proofs.Sql.Catalog
import ProcessRuns.Proofs.Sql.TablePairs
import ProcessRuns.Proofs.Log.TableNames
import ProcessRuns.Proofs.Json.Records
