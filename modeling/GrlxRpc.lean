import GrlxRpc.Lib.Transition
import GrlxRpc.Lib.Channel
import GrlxRpc.Wire.Frame
import GrlxRpc.Wire.StringHash
import GrlxRpc.Dispatch.Dispatcher
import GrlxRpc.Session.State
import GrlxRpc.Session.Step
import GrlxRpc.Session.Reader
import GrlxRpc.Session.Writer
import GrlxRpc.Session.Auth
import GrlxRpc.Session.Replies
import GrlxRpc.Session.Calls
import GrlxRpc.Session.CallEnds
import GrlxRpc.Session.Teardown
import GrlxRpc.Session.Origin
import GrlxRpc.Session.Requests
import GrlxRpc.Session.Deadlines
import GrlxRpc.Session.DeadlineRead
import GrlxRpc.Session.Oversized
import GrlxRpc.Session.CallContext
import GrlxRpc.Link
import GrlxRpc.Storms
import GrlxRpc.Logger
import GrlxRpc.Client
import GrlxRpc.Client.Completion
import GrlxRpc.Feed.Order
import GrlxRpc.Server.Admission
import GrlxRpc.Server.Stop
import GrlxRpc.Server.Hooks
import GrlxRpc.Server.Handshakes
import GrlxRpc.Server.Filter
import GrlxRpc.Session.RateLimit
import GrlxRpc.Session.Failures
import GrlxRpc.Message.RoundTrip
import GrlxRpc.Message.Guard
import GrlxRpc.Wire.MethodIds
import GrlxRpc.Address
import GrlxRpc.Buffers.Bounded
import GrlxRpc.Buffers.Guards
import GrlxRpc.Manager.Table
import GrlxRpc.Manager.Handlers
import GrlxRpc.Message.Accepted
import GrlxRpc.Session.Parse
import GrlxRpc.Session.Served
import GrlxRpc.Session.ErrorReplies
import GrlxRpc.Session.Thrown
import GrlxRpc.Link.Executions
import GrlxRpc.Client.Invoke
import GrlxRpc.Client.Calls
import GrlxRpc.Client.Events
import GrlxRpc.Client.Outcomes
import GrlxRpc.Server.Broadcast
import GrlxRpc.Client.SharedPtr
import GrlxRpc.Client.Notifications
import GrlxRpc.Session.Operations
import GrlxRpc.Session.ReadBack
import GrlxRpc.Link.Rest
