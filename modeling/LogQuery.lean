import LogQuery.Main
import LogQuery.Proofs.Calendar.Formats
import LogQuery.Proofs.Config.CloudId
import LogQuery.Proofs.Config.Outcome
import LogQuery.Proofs.Filter.Describe
import LogQuery.Proofs.Filter.Fault
import LogQuery.Proofs.Filter.Order
import LogQuery.Proofs.Filter.TimeRange
import LogQuery.Proofs.Json.PlainTags
import LogQuery.Proofs.Json.RoundTrip
import LogQuery.Proofs.Output.Descent
import LogQuery.Proofs.Output.Http
import LogQuery.Proofs.Output.Outcome
import LogQuery.Proofs.Output.Projection
import LogQuery.Proofs.Output.Stream
import LogQuery.Proofs.Retrieval.Budget
import LogQuery.Proofs.Retrieval.Cancel
import LogQuery.Proofs.Retrieval.Ceiling
import LogQuery.Proofs.Retrieval.Command
import LogQuery.Proofs.Retrieval.Printed
import LogQuery.Proofs.Retrieval.Replay
import LogQuery.Proofs.Search.Determined
import LogQuery.Proofs.Search.Fit
import LogQuery.Proofs.Search.TimeWindow
import LogQuery.Proofs.Search.Unescape
import LogQuery.Proofs.Output.Embed
