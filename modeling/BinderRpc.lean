import BinderRpc.RoundTrip
import BinderRpc.Model.Socket
import BinderRpc.Lib.Directory
import BinderRpc.Model.Database
import BinderRpc.Model.Binder
import BinderRpc.Model.Client
import BinderRpc.Model.Server
import BinderRpc.Model.Sample
import BinderRpc.Keys
import BinderRpc.Frames
import BinderRpc.Registry
import BinderRpc.Location
import BinderRpc.Agreement
import BinderRpc.Naming
import BinderRpc.Execution
import BinderRpc.Answering
import BinderRpc.ScalarCalls
import BinderRpc.Results
import BinderRpc.Registering
import BinderRpc.Acknowledgement
import BinderRpc.Schedules
import BinderRpc.Arrival
import BinderRpc.Signatures
import BinderRpc.ArrayLengths
import BinderRpc.Conversation
import BinderRpc.Texts
import BinderRpc.FailureReports
import BinderRpc.FalseSuccess
import BinderRpc.FailedRegistrations
import BinderRpc.Atomicity
import BinderRpc.Survival
import BinderRpc.Transfers
import BinderRpc.Tokens
import BinderRpc.ArgSizes
import BinderRpc.SlotTable
import BinderRpc.Dispatch
import BinderRpc.LoopSurvival
import BinderRpc.Deployment
import BinderRpc.Delivery
import BinderRpc.Calls
import BinderRpc.Lib.Bubbling
import BinderRpc.Sorting
import BinderRpc.Pipeline
