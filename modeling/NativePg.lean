import NativePg.Connect.Alike
import NativePg.Connect.Fsm
import NativePg.Connect.Reconnect
import NativePg.ErrorCode
import NativePg.Exec
import NativePg.ExecSome.Agree
import NativePg.ExecSome.Copy
import NativePg.ExecSome.CopyFrames
import NativePg.ExecSome.CopyOut
import NativePg.ExecSome.Fsm
import NativePg.ExecSome.Missing
import NativePg.ExecSome.Reading
import NativePg.ExecSome.Sessions
import NativePg.Lib.Calendar
import NativePg.Lib.Decimal
import NativePg.Lib.Decode
import NativePg.Lib.Fifo
import NativePg.Lib.Flat
import NativePg.Lib.Framing
import NativePg.Lib.Outcomes
import NativePg.Lib.Scram
import NativePg.Lib.Significant
import NativePg.Lib.Trimmed
import NativePg.Multiplexer.Completion
import NativePg.Multiplexer.Connection
import NativePg.Multiplexer.Debts
import NativePg.Multiplexer.Model
import NativePg.Multiplexer.Queue
import NativePg.Multiplexer.Routing
import NativePg.Multiplexer.Tickets
import NativePg.NotificationQueue
import NativePg.Pool.Bookkeeping
import NativePg.Pool.Demand
import NativePg.Pool.Model
import NativePg.Pool.Shutdown
import NativePg.Protocol.BackendMessage
import NativePg.Protocol.ConnectionState
import NativePg.Protocol.Decoding
import NativePg.Protocol.Encoding
import NativePg.Protocol.ErrorFields
import NativePg.Protocol.Fifo
import NativePg.Protocol.Messages
import NativePg.Protocol.ParameterDescription
import NativePg.Protocol.ReadBuffer
import NativePg.Protocol.SerializationContext
import NativePg.Protocol.Serialize
import NativePg.Protocol.Sqlstate
import NativePg.Protocol.Views
import NativePg.ReadResponse.Answers
import NativePg.ReadResponse.Calls
import NativePg.ReadResponse.Complete
import NativePg.ReadResponse.Fsm
import NativePg.ReadResponse.Moves
import NativePg.ReadResponse.Safety
import NativePg.ReadResponse.Server
import NativePg.ReadResponse.Sound
import NativePg.Request
import NativePg.RequestBuilder
import NativePg.RequestFailure
import NativePg.RequestGrammar
import NativePg.Responses.Asserts
import NativePg.Responses.ColumnCounts
import NativePg.Responses.CommandTag
import NativePg.Responses.Errors
import NativePg.Responses.Expected
import NativePg.Responses.Model
import NativePg.Responses.Reuse
import NativePg.Responses.Routing
import NativePg.Responses.RowMapping
import NativePg.Responses.Seen
import NativePg.Responses.Setup
import NativePg.Responses.SetupExact
import NativePg.Responses.Steps
import NativePg.Responses.Storage
import NativePg.Responses.Turns
import NativePg.Responses.Views
import NativePg.Startup.Base64
import NativePg.Startup.Fsm
import NativePg.Startup.Login
import NativePg.Startup.Reading
import NativePg.Startup.Scram
import NativePg.Startup.ScramServer
import NativePg.Startup.Writes
import NativePg.Types.DateExact
import NativePg.Types.DateTime
import NativePg.Types.Interval
import NativePg.Types.IntervalTerms
import NativePg.Types.Numeric
import NativePg.Types.Printed
import NativePg.Types.PrintedIntervals
import NativePg.Types.PrintedNumeric
import NativePg.Types.PrintedZones
import NativePg.Types.Scan
import NativePg.Types.Sentinels
import NativePg.Types.Stamps
import NativePg.Types.Texts
import NativePg.Startup.Base64Exact
import NativePg.Startup.ServerFirst
import NativePg.Lib.Hexadecimal
import NativePg.Types.Bytea
import NativePg.Types.Integers
import NativePg.Exec.Complete
import NativePg.Multiplexer.Deliveries
import NativePg.Multiplexer.Reader
import NativePg.Multiplexer.Wired
import NativePg.Exec.Served
import NativePg.Startup.Complete
import NativePg.Session
import NativePg.ExecSome.Mixed
import NativePg.Types.Parameters
import NativePg.Statements.Server
import NativePg.Statements.Typed
import NativePg.Statements.Answers
import NativePg.Statements.Served
import NativePg.Statements.Rows
import NativePg.Statements.RowTypes
import NativePg.Statements.Results
