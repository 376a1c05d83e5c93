import RustyDht.Lib.Bytes
import RustyDht.Lib.UnstableSort
import RustyDht.Lib.Vec
import RustyDht.Lib.Machine
import RustyDht.Lib.Keeps
import RustyDht.Lib.Assoc
import RustyDht.Lib.Bencode
import RustyDht.Lib.Lru
import RustyDht.Lib.Recent
import RustyDht.Lib.Checks
import RustyDht.Lib.Framing
import RustyDht.Lib.Crc
import RustyDht.Lib.Channel
import RustyDht.Common
import RustyDht.Packets
import RustyDht.Wire
import RustyDht.Buckets
import RustyDht.NodeBucketStorage
import RustyDht.Socket
import RustyDht.PeerStorage
import RustyDht.Ipv4AddrSrc
import RustyDht.Throttler
import RustyDht.Builder
import RustyDht.Operations
import RustyDht.Dht
import RustyDht.Network
import RustyDht.EventLoop
import RustyDht.Shutdown
import RustyDht.Calls
import RustyDht.Lemmas.Id
import RustyDht.Lemmas.Buckets
import RustyDht.Lemmas.Overflow
import RustyDht.Lemmas.NodeBucketStorage
import RustyDht.Lemmas.Wire
import RustyDht.Lemmas.Reencoding
import RustyDht.Lemmas.Socket
import RustyDht.Lemmas.PeerStorage
import RustyDht.Lemmas.Ipv4AddrSrc
import RustyDht.Lemmas.Throttler
import RustyDht.Lemmas.Operations
import RustyDht.Lemmas.Dht
import RustyDht.Lemmas.Requests
import RustyDht.Lemmas.Steps
import RustyDht.Lemmas.Channels
import RustyDht.Lemmas.Informed
import RustyDht.Lemmas.Network
import RustyDht.Lemmas.Alive
import RustyDht.Lemmas.EventLoop
import RustyDht.Lemmas.Identity
import RustyDht.Lemmas.Calls
import RustyDht.Theorems.IdMetric
import RustyDht.Theorems.ValidIds
import RustyDht.Theorems.Buckets
import RustyDht.Theorems.VerifiedContacts
import RustyDht.Theorems.NodeRecords
import RustyDht.Theorems.BucketCount
import RustyDht.Theorems.NearestNodes
import RustyDht.Theorems.Prune
import RustyDht.Theorems.OutboundRequests
import RustyDht.Theorems.Shortlist
import RustyDht.Theorems.AnnouncePeer
import RustyDht.Theorems.RoundTrip
import RustyDht.Theorems.Reencoding
import RustyDht.Theorems.MessageBuilder
import RustyDht.Theorems.NoPortZero
import RustyDht.Theorems.Admission
import RustyDht.Theorems.FindNode
import RustyDht.Theorems.InfoHashDump
import RustyDht.Theorems.RecentPeers
import RustyDht.Theorems.Consensus
import RustyDht.Theorems.WellBehaved
import RustyDht.Theorems.SeparateRecords
import RustyDht.Theorems.Tokens
import RustyDht.Theorems.TokenChecksum
import RustyDht.Theorems.PeersHandedOut
import RustyDht.Theorems.ReplyRecognised
import RustyDht.Theorems.Ipv4Only
import RustyDht.Theorems.Network
import RustyDht.Theorems.GenuineContacts
import RustyDht.Theorems.Availability
import RustyDht.Theorems.Subscribers
import RustyDht.Theorems.Answered
import RustyDht.Theorems.Waiting
import RustyDht.Theorems.Shutdown
import RustyDht.Theorems.OwnId
import RustyDht.Theorems.PeersStored
import RustyDht.Theorems.RepliesOnce
import RustyDht.Theorems.Lookups
import RustyDht.Theorems.PeersFound
import RustyDht.Theorems.Announcing
