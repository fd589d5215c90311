import GoSocket.Foundation.Fallible
import GoSocket.Foundation.Varint
import GoSocket.Packet.TcpIO
import GoSocket.Packet.Encoding
import GoSocket.Packet.FixHeader
import GoSocket.Packet.Message
import GoSocket.Packet.Getters
import GoSocket.Packet.Fields
import GoSocket.Packet.FieldRuns
import GoSocket.Packet.FrameBounds
import GoSocket.Packet.FieldLengths
import GoSocket.Packet.Encoders
import GoSocket.Packet.RoundTrip
import GoSocket.Common.MessageQueue
import GoSocket.Common.Alarm
import GoSocket.Common.QueueRuns
import GoSocket.Common.AlarmSafety
import GoSocket.Client.State
import GoSocket.Client.Step
import GoSocket.Foundation.Ledger
import GoSocket.Client.Threads
import GoSocket.Client.Callbacks
import GoSocket.Socket.Breaker
import GoSocket.Connect.ComplexConnect
import GoSocket.Socket.TcpSocket
import GoSocket.Packet.Readers
import GoSocket.Socket.SslSocket
import GoSocket.Client.Delivery
import GoSocket.Client.WakeUps
import GoSocket.Client.Requests
import GoSocket.Client.NoReconnect
import GoSocket.Client.Books
import GoSocket.Client.Teardowns
import GoSocket.Client.Answers
import GoSocket.Client.Pool
import GoSocket.Client.Timeouts
import GoSocket.Client.Replies
import GoSocket.Client.RunConnect
import GoSocket.Packet.Responses
import GoSocket.Connect.SslConnector
import GoSocket.Connect.ConnectImpatient
import GoSocket.Connect.Descriptors
import GoSocket.Connect.Race
import GoSocket.Foundation.Keyed
import GoSocket.Socket.Poll
import GoSocket.Socket.Interchange
import GoSocket.Socket.Kqueue
import GoSocket.Client.StatusTrace
import GoSocket.Client.Locking
import GoSocket.Packet.FieldCodecs
import GoSocket.Packet.HeaderLengths
import GoSocket.Packet.EncodedLengths
import GoSocket.Packet.LengthCodec
import GoSocket.Socket.TcpReader
import GoSocket.Foundation.LinkedCells
import GoSocket.Common.LinkedMessages
import GoSocket.Foundation.Deadlines
import GoSocket.Common.QueueOrder
import GoSocket.Client.WaitDisconnect
import GoSocket.Client.KeepAlive
import GoSocket.Client.NetCore
import GoSocket.Client.BackOff
import GoSocket.Connect.DnsQuery
import GoSocket.Foundation.Ranking
import GoSocket.Connect.TimedRace
import GoSocket.Connect.ImpatientEnds
import GoSocket.Foundation.Loops
import GoSocket.Packet.ZlibStreams
import GoSocket.Foundation.Cuts
import GoSocket.Packet.CutStreams
import GoSocket.Socket.CutDelivery
import GoSocket.Packet.Relay
import GoSocket.Client.Wire
import GoSocket.Client.WireWrites
import GoSocket.Client.WireReads
import GoSocket.Common.LiveAlarms
import GoSocket.Common.UncanceledAlarms
import GoSocket.Client.TimerSteps
import GoSocket.Client.Joins
import GoSocket.Client.PingTimeouts
import GoSocket.Client.AlarmCount
import GoSocket.Client.ObjectPool
import GoSocket.Foundation.CanReach
import GoSocket.Client.Recovery
import GoSocket.Client.SentRequests
import GoSocket.Client.WireAnswers
import GoSocket.Client.FrontMessage
import GoSocket.Client.LastPass
import GoSocket.Foundation.Tally
import GoSocket.Client.Connections
import GoSocket.Foundation.Simulation
import GoSocket.Socket.StaleNumbers
import GoSocket.Connect.LookupNumbers
