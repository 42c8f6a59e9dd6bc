import GoSmpp.Lib.Octets
import GoSmpp.Lib.Format
import GoSmpp.Lib.Stream
import GoSmpp.Protocol.Basic
import GoSmpp.Protocol.Pdu
import GoSmpp.Protocol.Errors
import GoSmpp.Codec.Fields
import GoSmpp.Codec.Header
import GoSmpp.Codec.Framer
import GoSmpp.Codec.Body
import GoSmpp.Codec.Smpp34
import GoSmpp.Codec.Smpp34Extra
import GoSmpp.Codec.SubmitMulti
import GoSmpp.Codec.Smpp50
import GoSmpp.Codec.Registry
import GoSmpp.Codec.Pdu
import GoSmpp.Codec.Commands
import GoSmpp.Codec.RoundTrip
import GoSmpp.Lib.Run
import GoSmpp.Session.StateMachine
import GoSmpp.Session.Ledger
import GoSmpp.Lib.Pool
import GoSmpp.Session.Conservation
import GoSmpp.Session.Basic
import GoSmpp.Session.Receive
import GoSmpp.Session.Step
import GoSmpp.Session.Shutdown
import GoSmpp.Session.Delivery
import GoSmpp.Session.Lifecycle
import GoSmpp.Codec.Failures
import GoSmpp.Session.Answer
import GoSmpp.Session.Operations
import GoSmpp.Session.Calls
import GoSmpp.Session.Sequence
import GoSmpp.Session.Correlation
import GoSmpp.Session.Limits
import GoSmpp.Session.Reservation
import GoSmpp.Server.RateLimit
import GoSmpp.Server.Throttling
import GoSmpp.Session.Pipeline
import GoSmpp.Server.Dispatch
import GoSmpp.Lib.Link
import GoSmpp.Session.Frames
import GoSmpp.Session.Agreement
import GoSmpp.Session.Negotiation
import GoSmpp.Codec.ErrorResponse
import GoSmpp.Encoding.Gsm7
import GoSmpp.Encoding.Unicode
import GoSmpp.Lib.Lists
import GoSmpp.Message.Segment
import GoSmpp.Message.RoundTrip
import GoSmpp.Session.Retry
import GoSmpp.Session.PeerReservation
import GoSmpp.Lib.Assoc
import GoSmpp.Session.Deferred
import GoSmpp.Transport.Write
import GoSmpp.Session.Transmit
import GoSmpp.Lib.Family
import GoSmpp.Server.Ownership
import GoSmpp.Server.Unbound
import GoSmpp.Encoding.Septets
import GoSmpp.Lib.Cuts
import GoSmpp.Message.Reassembly
import GoSmpp.Message.Cutting
import GoSmpp.Message.Forms
import GoSmpp.Message.Parts
import GoSmpp.Lib.Heap
import GoSmpp.Message.Wire
import GoSmpp.Session.Deadlines
import GoSmpp.Session.Window
import GoSmpp.Session.Timers
import GoSmpp.Client.Basic
import GoSmpp.Client.Ownership
import GoSmpp.Session.Unbinding
import GoSmpp.Codec.Destination
import GoSmpp.Codec.FramerErrors
import GoSmpp.Codec.SizeHint
import GoSmpp.Lib.Indexing
import GoSmpp.Lib.Words
import GoSmpp.Message.Elements
import GoSmpp.Message.Receipt
import GoSmpp.Message.ReceiptParameters
import GoSmpp.Message.ReceiptText
import GoSmpp.Client.Waiting
import GoSmpp.Lib.Memory
import GoSmpp.Lib.Register
import GoSmpp.Session.Generator
import GoSmpp.Session.Own
import GoSmpp.Session.Socket
import GoSmpp.Session.Liveness
