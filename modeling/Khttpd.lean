import Khttpd.Analysis.Accounts
import Khttpd.Analysis.BackPressure
import Khttpd.Analysis.BodyFraming
import Khttpd.Analysis.ChunkEnd
import Khttpd.Analysis.ChunkSize
import Khttpd.Analysis.Chunked
import Khttpd.Analysis.HeaderFrames
import Khttpd.Analysis.HeaderManager
import Khttpd.Analysis.HeaderSegmentation
import Khttpd.Analysis.Http3Sink
import Khttpd.Analysis.HttpResponse
import Khttpd.Analysis.KeepAlive
import Khttpd.Analysis.ServedOnce
import Khttpd.Analysis.SocketPool
import Khttpd.Analysis.UpstreamPool
import Khttpd.Analysis.WriteQueue
import Khttpd.Analysis.HeaderPool
import Khttpd.Analysis.ContentLength
import Khttpd.Analysis.HpackTable
import Khttpd.Analysis.DataLength
import Khttpd.Analysis.HeaderMemory
import Khttpd.Analysis.TcpServerSink
import Khttpd.Analysis.StoredHeaders
import Khttpd.Analysis.DechunkReader
import Khttpd.Analysis.Cookies
import Khttpd.Analysis.Range
import Khttpd.Analysis.UrlCoding
import Khttpd.Analysis.Url
import Khttpd.Analysis.HttpTimeReads
import Khttpd.Analysis.HttpTime
import Khttpd.Analysis.Huffman
import Khttpd.Analysis.AutoArray
import Khttpd.Analysis.Base64
import Khttpd.Analysis.FieldValue
import Khttpd.Analysis.WebDavRequest
import Khttpd.Analysis.SockPoolHelper
import Khttpd.Analysis.Json
import Khttpd.Analysis.Serializable
import Khttpd.Analysis.KXml
import Khttpd.Analysis.KXmlRoundTrip
import Khttpd.Analysis.Mempbrk
import Khttpd.Analysis.HtmlCoding
import Khttpd.Analysis.HuffEncode
import Khttpd.Analysis.HeaderBlocks
import Khttpd.Analysis.SendWindow
import Khttpd.Analysis.BodyDelivery
import Khttpd.Analysis.WriterTurns
import Khttpd.Analysis.SendBuffer
import Khttpd.Analysis.Proxy
import Khttpd.Analysis.HeaderCalls
