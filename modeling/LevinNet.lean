import LevinNet.AddressMap
import LevinNet.Bytes
import LevinNet.CommandLine.Options
import LevinNet.CommandLine.Run
import LevinNet.Crawl.Crawler
import LevinNet.Crawl.Frontier
import LevinNet.Crawl.Schedule
import LevinNet.Crawl.Seed
import LevinNet.Crawl.System
import LevinNet.Crawl.Visit
import LevinNet.Dial.Attempt
import LevinNet.Dial.Host
import LevinNet.Dial.Open
import LevinNet.Dial.ProxyCheck
import LevinNet.Directory
import LevinNet.Duration
import LevinNet.Frame.Command
import LevinNet.Frame.Error
import LevinNet.Frame.Header
import LevinNet.Frame.Link
import LevinNet.Frame.Message
import LevinNet.Frame.Reader
import LevinNet.Frame.Stream
import LevinNet.Live.Crawl
import LevinNet.Live.Recording
import LevinNet.Live.SocksClient
import LevinNet.Net.HostName
import LevinNet.Net.Ipv4
import LevinNet.Net.Ipv6
import LevinNet.Net.NumericHost
import LevinNet.Net.SocketAddress
import LevinNet.Peer
import LevinNet.Session.Basic
import LevinNet.Session.Config
import LevinNet.Session.Error
import LevinNet.Session.Network
import LevinNet.Session.Payload
import LevinNet.Storage.Blob
import LevinNet.Storage.Cursor
import LevinNet.Storage.Decoding
import LevinNet.Storage.Encoding
import LevinNet.Storage.Error
import LevinNet.Storage.Kind
import LevinNet.Storage.Value
import LevinNet.Text.CaseTable
import LevinNet.Text.Digits
import LevinNet.Text.EscapeTable
import LevinNet.Text.Hex
import LevinNet.Text.Lowercase
import LevinNet.Text.Quoted
import LevinNet.Text.Utf8
import LevinNet.Varint
import LevinNet.Wire.Sink
import LevinNet.Wire.Source
import LevinNet.Main
import LevinNet.Proofs.Storage.Grammar
import LevinNet.Proofs.Storage.Completeness
import LevinNet.Proofs.Storage.Soundness
import LevinNet.Proofs.Storage.RoundTrip
import LevinNet.Proofs.Storage.NormalForm
import LevinNet.Proofs.Frame.Parsing
import LevinNet.Proofs.Frame.Reading
import LevinNet.Frame.Ends
import LevinNet.Proofs.Frame.Reads
import LevinNet.Proofs.Session.Answering
import LevinNet.Proofs.Session.Exchange
import LevinNet.Proofs.Wire.Timing
import LevinNet.Proofs.Session.Deadline
import LevinNet.Proofs.Session.Conservation
import LevinNet.Proofs.Frame.Written
import LevinNet.Proofs.Directory.Listing
import LevinNet.Proofs.Directory.Roots
import LevinNet.Proofs.Session.Discovery
import LevinNet.Proofs.Crawl.Moves
import LevinNet.Proofs.Net.EndpointText
import LevinNet.Proofs.Crawl.Ledger
import LevinNet.Proofs.Crawl.Provenance
import LevinNet.Proofs.Crawl.Quiescence
import LevinNet.Proofs.Crawl.Scheduled
import LevinNet.Proofs.Crawl.Runs
import LevinNet.Proofs.Crawl.Places
import LevinNet.Proofs.Crawl.Logs
import LevinNet.Proofs.Crawl.Reports
import LevinNet.Proofs.Crawl.Termination
import LevinNet.Proofs.Storage.Truncation
import LevinNet.Proofs.Frame.Inverse
import LevinNet.Proofs.Crawl.Setup
import LevinNet.Proofs.Session.Closing
import LevinNet.Proofs.Crawl.Failures
import LevinNet.Proofs.Directory.Accounting
import LevinNet.Proofs.Session.Metadata
import LevinNet.Proofs.Session.Pairing
import LevinNet.Proofs.Session.RpcPort
import LevinNet.Proofs.Storage.Limits
import LevinNet.Proofs.Storage.Refusals
import LevinNet.Proofs.Directory.Rearranged
import LevinNet.Proofs.Session.Resumption
import LevinNet.Proofs.Dial.Opening
import LevinNet.Proofs.Crawl.Rank
import LevinNet.Proofs.Crawl.Returns
import LevinNet.Proofs.Crawl.Outcomes
import LevinNet.Proofs.Dial.ProxyCheck
import LevinNet.Proofs.Storage.OpenContainers
import LevinNet.Proofs.Storage.Sequence
import LevinNet.Proofs.Crawl.Identity
import LevinNet.Proofs.Crawl.Shutdown
import LevinNet.Proofs.Storage.VarintCodec
import LevinNet.Proofs.Storage.Metering
import LevinNet.Proofs.Storage.Progress
