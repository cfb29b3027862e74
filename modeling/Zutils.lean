import Zutils.Base.ByteOrder
import Zutils.Base.Checked
import Zutils.Base.ByteStream
import Zutils.Base.CString
import Zutils.Base.StringUtil
import Zutils.Base.CUtil
import Zutils.Base.Int128
import Zutils.Base.SharedPtr
import Zutils.Base.SharedPtrSpec
import Zutils.Base.StringNumber
import Zutils.Base.IoBuffer2
import Zutils.Base.ObjectCore
import Zutils.Base.TimerManager
import Zutils.Lib.Run
import Zutils.Lib.Since
import Zutils.Lib.Ensures
import Zutils.Lib.Loop
import Zutils.Lib.Framing
import Zutils.Lib.Backlog
import Zutils.Lib.Ledger
import Zutils.Lib.Holding
import Zutils.Lib.Grant
import Zutils.Lib.Links
import Zutils.Lib.ByteMap
import Zutils.Lib.Tape
import Zutils.Lib.SqlSession
import Zutils.Lib.SqlLexer
import Zutils.Lib.Wire
import Zutils.Lib.HostWord
import Zutils.Lib.Scanning
import Zutils.Lib.Template
import Zutils.Lib.XmlLexer
import Zutils.Lib.XmlAttribute
import Zutils.Lib.XmlWriter
import Zutils.Lib.OrderedSet
import Zutils.Lib.InsertionOrder
import Zutils.Lib.Median
import Zutils.Lib.RoundRobin
import Zutils.Base.ByteStreamSpec
import Zutils.Base.ByteStreamChecks
import Zutils.Base.ByteStreamBounds
import Zutils.Base.ByteStreamMemory
import Zutils.Base.ByteStreamOps
import Zutils.Base.ByteStreamArray
import Zutils.Base.ByteStreamSticky
import Zutils.Base.ByteStreamAtomic
import Zutils.Base.ByteStreamUnwritten
import Zutils.Base.ByteStreamCString
import Zutils.Base.IoBuffer2Spec
import Zutils.Base.IoBuffer2Runs
import Zutils.Base.IoBuffer2Offset
import Zutils.Base.IoBuffer2RoundTrip
import Zutils.Base.ObjectCoreSpec
import Zutils.Base.ObjectCoreEnds
import Zutils.Base.TimerManagerSpec
import Zutils.Base.SysByteorder
import Zutils.Base.LinkedMap
import Zutils.Base.LinkedMapSpec
import Zutils.Base.LinkedMapSubscript
import Zutils.Base.ZlibCompress
import Zutils.Base.DynLibManager
import Zutils.Base.DynLibManagerSpec
import Zutils.Pcap.CommChannelInfo
import Zutils.Pcap.PacketCapture
import Zutils.Pcap.FrameBounds
import Zutils.Pcap.TcpFrame
import Zutils.Xml.Parser
import Zutils.Xml.HandlerResults
import Zutils.Xml.Serializer
import Zutils.Xml.SerializerSpec
import Zutils.Xml.AttributeValues
import Zutils.Config.ConfigFile
import Zutils.Config.ConfigFileSpec
import Zutils.Config.ConfigEvents
import Zutils.Config.HandlerSafety
import Zutils.Config.LoadResults
import Zutils.Config.ItemValues
import Zutils.Config.ConnString
import Zutils.Config.ConnStringReuse
import Zutils.Config.IpAddrInfo
import Zutils.Net.IoBuffer
import Zutils.Net.IoBufferSpec
import Zutils.Net.IoBufferRuns
import Zutils.Net.ReadFd
import Zutils.Net.IoBufferTyped
import Zutils.Net.IoBufferTypedSpec
import Zutils.Net.IoHandler
import Zutils.Net.IoHandlerSpec
import Zutils.Net.Transmit
import Zutils.Net.Senders
import Zutils.Net.SendBuffer
import Zutils.Net.WriteWatch
import Zutils.Net.Codec.LengthHeader
import Zutils.Net.Codec.LengthHeaderRefusal
import Zutils.Net.Codec.Packet
import Zutils.Net.Codec.PacketSpec
import Zutils.Net.Codec.PacketFrames
import Zutils.Net.Codec.Delivery
import Zutils.Net.Codec.PacketBacklog
import Zutils.Net.Codec.PacketStream
import Zutils.Net.Codec.BodyRoundTrip
import Zutils.Net.Codec.PacketReads
import Zutils.Net.Codec.PacketPatch
import Zutils.Net.Codec.PacketHint
import Zutils.Net.Codec.PacketAllocation
import Zutils.Net.Codec.BufferGrowth
import Zutils.Net.Codec.HeaderCodec
import Zutils.Net.Http.RequestContext
import Zutils.Net.Http.Response
import Zutils.Net.Http.ResponseParser
import Zutils.Net.Http.ResponseReader
import Zutils.Net.Http.ResponseTurns
import Zutils.Net.Http.ResponseReads
import Zutils.Net.Http.ResponseHead
import Zutils.Net.Http.ResponseStream
import Zutils.Net.Http.Request
import Zutils.Net.Http.Fragments
import Zutils.Net.Http.Dispatch
import Zutils.Net.Http.RequestFaithful
import Zutils.Net.Lifecycle
import Zutils.Net.PostedTasks
import Zutils.Net.MessagePump
import Zutils.Net.MessagePumpSpec
import Zutils.Net.MessagePumpRest
import Zutils.Net.EventBase
import Zutils.Net.Watchers
import Zutils.Net.WatchersSpec
import Zutils.Net.WatcherRegistrations
import Zutils.Net.WatcherInterest
import Zutils.Net.Connector
import Zutils.Net.ConnectorSpec
import Zutils.Net.ClientAgreement
import Zutils.Net.SocketOwnership
import Zutils.Net.ConnectAttempts
import Zutils.Net.DisConnect
import Zutils.Net.TcpServer
import Zutils.Net.TcpServerSpec
import Zutils.Net.RoundRobin
import Zutils.Net.TimeSyncor
import Zutils.Net.TimeSyncorSpec
import Zutils.MessagePdu.Message
import Zutils.MessagePdu.RoundTrip
import Zutils.MessagePdu.ArrayBounds
import Zutils.Db.ConnPool
import Zutils.Db.ConnPoolSpec
import Zutils.Db.ConnHolders
import Zutils.Db.ConnPoolCapacity
import Zutils.Db.ConnPoolLife
import Zutils.Db.MySql
import Zutils.Db.MySqlSpec
import Zutils.Db.MySqlTransaction
import Zutils.Db.MySqlCalls
import Zutils.Db.MySqlCallsSpec
import Zutils.Db.MySqlReconnects
import Zutils.Db.MySqlHandles
import Zutils.Db.MySqlCallsAgree
import Zutils.Db.MySqlAnswer
import Zutils.Db.MySqlAnswerSpec
import Zutils.Db.IntegerColumns
import Zutils.Db.QueryString
import Zutils.Db.QueryStringSpec
import Zutils.Db.QueryBounds
import Zutils.Db.SqlLiteral
