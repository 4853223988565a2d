import Averyws.Library.Utf8
import Averyws.Library.Bytes
import Averyws.Library.Cells
import Averyws.Library.Chunks
import Averyws.Library.Words
import Averyws.Library.Code
import Averyws.Library.Run
import Averyws.Library.Events
import Averyws.Library.Outbox
import Averyws.Library.Base64
import Averyws.Utilities.Utf8
import Averyws.Utilities.Websocket
import Averyws.Utilities.ChunkVector
import Averyws.Utilities.ChunkVectorRun
import Averyws.Utilities.Base64
import Averyws.Utilities.Base64Codec
import Averyws.Header
import Averyws.Gather
import Averyws.Control
import Averyws.Session
import Averyws.Handshake
import Averyws.Connection
import Averyws.SessionManager
import Averyws.Server
import Averyws.Frame
import Averyws.HeaderReader
import Averyws.HeaderRoundTrip
import Averyws.HeaderBytes
import Averyws.Gathering
import Averyws.Controlling
import Averyws.Receiver
import Averyws.ReadChain
import Averyws.Stages
import Averyws.FrameRun
import Averyws.Message
import Averyws.FailureCodes
import Averyws.SessionRun
import Averyws.ReadBounds
import Averyws.WireOrder
import Averyws.ServerRun
import Averyws.Broadcast
import Averyws.RequestOrder
import Averyws.HeaderDecoder
import Averyws.Replies
import Averyws.ControlReplies
import Averyws.Dealer
import Averyws.ReadSide
import Averyws.HandshakeSplit
import Averyws.Twins
import Averyws.Heartbeats
import Averyws.RequestType
import Averyws.Registry
import Averyws.FirstHeader
import Averyws.Fragments
import Averyws.FrameCode
import Averyws.FrameSteps
import Averyws.Upstream
import Averyws.ReadWork
import Averyws.Memory
import Averyws.Delivery
import Averyws.Drain
import Averyws.Published
import Averyws.Teardown
import Averyws.Relay
import Averyws.Progress
import Averyws.Conversation
