import GnyProxy.Incremental
import GnyProxy.CString
import GnyProxy.Common
import GnyProxy.Http
import GnyProxy.HttpMessage
import GnyProxy.GnyDecoder
import GnyProxy.GnyChunking
import GnyProxy.Narrow
import GnyProxy.Positions
import GnyProxy.CutsGny
import GnyProxy.MessageSource11
import GnyProxy.Decoder11
import GnyProxy.Cuts11
import GnyProxy.MessageProgress
import GnyProxy.MessageSinkGny
import GnyProxy.MessageSink11
import GnyProxy.Transfer
import GnyProxy.GnyRoundTrip
import GnyProxy.Numerals
import GnyProxy.Layout11
import GnyProxy.RoundTrip11
import GnyProxy.Parsed11
import GnyProxy.Relay11
import GnyProxy.Translation
import GnyProxy.Reading
import GnyProxy.Copying
import GnyProxy.Frames
import GnyProxy.Multiconn
import GnyProxy.Demultiplexing
import GnyProxy.Multiplexing
import GnyProxy.Scheduling
import GnyProxy.Isolation
import GnyProxy.Responses
import GnyProxy.HttpProxy
import GnyProxy.Pipelining
import GnyProxy.Requester
import GnyProxy.Bookkeeping
import GnyProxy.Proxy
import GnyProxy.Draining
import GnyProxy.Lifetimes
import GnyProxy.Transactions
import GnyProxy.Requests
import GnyProxy.Custody
import GnyProxy.Encodings
import GnyProxy.Cells
import GnyProxy.Tunnels
import GnyProxy.Framing
import GnyProxy.InStep
import GnyProxy.Codes
import GnyProxy.BinarySearch
import GnyProxy.Lookup
import GnyProxy.SlashPath
import GnyProxy.FileServer
import GnyProxy.Upstream
import GnyProxy.Unsolicited
import GnyProxy.UnusedIds
import GnyProxy.Recycling
import GnyProxy.HttpServer
import GnyProxy.ServerPipelining
import GnyProxy.Replies
import GnyProxy.Asking
import GnyProxy.Reuse
import GnyProxy.Urls
import GnyProxy.ChunkSizes
import GnyProxy.Delimiting
import GnyProxy.Trailers
import GnyProxy.FileCalls
import GnyProxy.FileSessions
import GnyProxy.Sweeping
import GnyProxy.ServiceLoops
import GnyProxy.Wire
import GnyProxy.Turns
import GnyProxy.Replying
import GnyProxy.Handing
import GnyProxy.ReadBack
import GnyProxy.Ledgers
import GnyProxy.Relaying
import GnyProxy.Accounts
import GnyProxy.Reception
import GnyProxy.Streams
import GnyProxy.Conveying
import GnyProxy.Returning
