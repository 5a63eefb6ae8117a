import AmuleD.Basic
import AmuleD.Merkle.Tree
import AmuleD.Hashes.Aich.Split
import AmuleD.Hashes.Aich.Hash
import AmuleD.Hashes.Aich.BuildTree
import AmuleD.Hashes.Aich.Materialize
import AmuleD.Bytes.LittleEndian
import AmuleD.Codec.Struct
import AmuleD.Dict
import AmuleD.Hashes.Aich.Path
import AmuleD.Hashes.Aich.Recovery
import AmuleD.Hashes.Aich.Verify
import AmuleD.Hashes.Aich.Agreement
import AmuleD.Hashes.Aich.RoundTrip
import AmuleD.Hashes.Aich.Soundness
import AmuleD.Chunks
import AmuleD.Hashes.Ed2k
import AmuleD.Streams.Cursor
import AmuleD.Codec.Binary
import AmuleD.Peer.Hashset
import AmuleD.Upload.BlockSource
import AmuleD.Download.VerifyParts
import AmuleD.Intervals.Cover
import AmuleD.Download.Ics.Shrink
import AmuleD.Download.Ics.Block
import AmuleD.Download.Ics.Select
import AmuleD.Download.Ics.Sound
import AmuleD.Sorting.Stable
import AmuleD.Upload.Queue
import AmuleD.Upload.Ranks
import AmuleD.Upload.Slots
import AmuleD.Upload.Promotion
import AmuleD.Peer.SourceExchange
import AmuleD.Pacing.TokenBucket
import AmuleD.Upload.Sharing
import AmuleD.Download.ThrottleGate
import AmuleD.Xor.Metric
import AmuleD.Kad.KadUInt128
import AmuleD.Kad.RoutingBin
import AmuleD.Kad.RoutingZone
import AmuleD.Kad.Placed
import AmuleD.Kad.ZoneAdd
import AmuleD.Kad.Closest
import AmuleD.Kad.ContactOrder
import AmuleD.Streams.ExactRead
import AmuleD.Streams.Keystream
import AmuleD.Peer.Obfuscation
import AmuleD.Peer.Handshake
import AmuleD.Peer.Conversation
import AmuleD.Intervals.HalfOpen
import AmuleD.Download.PartFile
import AmuleD.Download.GapHistory
import AmuleD.Codec.Packet
import AmuleD.Peer.Receive
import AmuleD.Peer.Framing
import AmuleD.Codec.Tags
import AmuleD.Peer.Hello
import AmuleD.Peer.Incoming
import AmuleD.Peer.Settled
import AmuleD.Intervals.Tiles
import AmuleD.Peer.Reassembly
import AmuleD.Upload.Engine
import AmuleD.Peer.PartPackets
import AmuleD.Upload.Splitting
import AmuleD.Peer.Transfer
import AmuleD.Peer.Completion
import AmuleD.Peer.LinearRequests
import AmuleD.Peer.HonestTransfer
import AmuleD.Kad.Obfuscation
import AmuleD.Codec.TagWriter
import AmuleD.Peer.UdpObfuscation
import AmuleD.Kad.BuddyRegistry
import AmuleD.Kad.Spider
import AmuleD.Kad.Tags
import AmuleD.Kad.Publish
import AmuleD.Kad.Search
import AmuleD.OrderedDict
import AmuleD.Kad.SearchMetric
import AmuleD.Natt.Utp
import AmuleD.Natt.UtpDelivery
import AmuleD.Natt.UtpEnding
import AmuleD.Download.Queue
import AmuleD.Download.Incoming
import AmuleD.Download.Lifecycle
import AmuleD.Download.Ics.Sessions
import AmuleD.Download.Ics.SessionRanges
import AmuleD.Download.Attempt
import AmuleD.Download.ThrottledAttempt
import AmuleD.Server.Blacklist
import AmuleD.Server.Relapse
import AmuleD.Rounding.Binary
import AmuleD.Upload.Credits
import AmuleD.Peer.DialBack
import AmuleD.Kad.Callback
import AmuleD.Natt.Rendezvous
import AmuleD.Peer.Rotation
import AmuleD.Sorting.Selection
import AmuleD.Server.SearchResults
import AmuleD.Server.GlobalSearch
import AmuleD.Server.SearchWindows
import AmuleD.Peer.PreEngine
import AmuleD.Security.SecureIdent
import AmuleD.Peer.PreEngineAnswers
import AmuleD.Peer.PreEngineRuns
import AmuleD.Security.Identities
import AmuleD.Hashes.Aich.IdentWidth
import AmuleD.Natt.Frames
import AmuleD.Streams.ReceiveLoop
import AmuleD.Peer.Ladder
import AmuleD.Peer.LegacyExchange
import AmuleD.Server.SourceLookups
import AmuleD.Peer.AnswerMatching
import AmuleD.Download.Dial
import AmuleD.Peer.DhHandshake
import AmuleD.State.Backend
import AmuleD.State.Ownership
import AmuleD.Sharing.SharedTables
import AmuleD.Sharing.Rescan
import AmuleD.Sharing.RescanExact
import AmuleD.State.FileSources
import AmuleD.Download.SourceRefresh
import AmuleD.Download.Ics.Preference
import AmuleD.Download.Regions
import AmuleD.Kad.Removal
import AmuleD.Peer.TruncatedSources
import AmuleD.Download.Ics.NeededParts
import AmuleD.Hashes.Aich.Truncation
import AmuleD.Download.ChunkBitmap
import AmuleD.Download.Salvage
import AmuleD.Download.Ics.Progress
import AmuleD.Peer.ServedFile
import AmuleD.PyStr
import AmuleD.Security.IpFilter
import AmuleD.Codec.TagAtomicity
import AmuleD.Download.Paused
import AmuleD.Codec.Packing
import AmuleD.Kad.NodesDat
import AmuleD.Percent
import AmuleD.Download.Links
import AmuleD.Sharing.KnownMet
import AmuleD.Streams.Scanning
import AmuleD.Kad.WireTags
import AmuleD.Kad.SourceEntries
import AmuleD.Kad.RelayLoop
import AmuleD.Kad.Bootstrap
import AmuleD.Kad.PublishLookup
import AmuleD.Kad.PublishCollect
import AmuleD.Kad.PoolRotation
import AmuleD.State.SourcePruning
import AmuleD.PosixPath
import AmuleD.Sharing.ShareAdd
import AmuleD.Sharing.FileLink
import AmuleD.Natt.QuicProof
import AmuleD.Download.Ics.Exhausted
import AmuleD.Download.Ics.OutOfParts
import AmuleD.Server.ServerFilter
import AmuleD.Fields
import AmuleD.Security.IpFilterLines
import AmuleD.Security.IpFilterForms
import AmuleD.Json.Boundaries
import AmuleD.Config.Jsonc
import AmuleD.Json.Dumps
import AmuleD.Kernel.Control
import AmuleD.Server.Rotation
import AmuleD.Download.Ics.PartStatus
import AmuleD.Peer.Greeting
import AmuleD.Peer.GreetingOrder
import AmuleD.Json.Loads
import AmuleD.Kad.NodeCache
import AmuleD.Kad.CacheAgreement
import AmuleD.Config.Settings
import AmuleD.Config.Merging
import AmuleD.Config.SetAndLoad
import AmuleD.Scripts
import AmuleD.State.Migrations
import AmuleD.State.Accounts
import AmuleD.Bytes.Der
import AmuleD.Security.PublicKey
import AmuleD.Config.Identity
import AmuleD.Server.ServerMet
import AmuleD.Codec.WholePackets
import AmuleD.Bytes.Bitmap
import AmuleD.Peer.FileStatus
import AmuleD.Peer.OwnEngine
import AmuleD.Download.Race
import AmuleD.Duplex
import AmuleD.Peer.OwnGreeting
import AmuleD.Kad.SearchRuns
