import RustyDht.Common
import RustyDht.Lib.Lru

/-!
# Peer storage

`PeerInfo` and `PeerStorage` (`src/storage/peer_storage.rs`), and the dump of it that `DHT::get_info_hashes` makes
(`src/dht/dht.rs`). The interior mutability of the source is explicit: looking a torrent up returns the storage it leaves behind.
-/

namespace RustyDht

/-- `PeerInfo`. -/
structure PeerInfo where
  addr : SocketAddr
  lastUpdated : Instant
  deriving DecidableEq

/-- `PeerInfo::new`. -/
def PeerInfo.new (addr : SocketAddr) (now : Instant) : PeerInfo := { addr, lastUpdated := now }

/-- `PeerStorage`. -/
structure PeerStorage where
  peers : LruCache Id (LruCache SocketAddr PeerInfo)
  maxPeersPerTorrent : Nat
  deriving DecidableEq

namespace PeerStorage

/-- `PeerStorage::new`. -/
def new (maxTorrents maxPeersPerTorrent : Nat) : PeerStorage := { peers := .new maxTorrents, maxPeersPerTorrent }

/-- `PeerStorage::announce_peer`. -/
def announcePeer (self : PeerStorage) (infoHash : Id) (peerAddr : SocketAddr) (now : Instant) : PeerStorage :=
  match self.peers.getMut infoHash with
  | some (swarmLru, write) => { self with peers := write (swarmLru.put peerAddr (PeerInfo.new peerAddr now)) }
  | none =>
    let swarmLru := (LruCache.new self.maxPeersPerTorrent).put peerAddr (PeerInfo.new peerAddr now)
    { self with peers := self.peers.put infoHash swarmLru }

/-- The peers of a swarm that are IPv4 and newer than an instant, if one is given. -/
def freshPeers (swarmLru : LruCache SocketAddr PeerInfo) (newerThan : Option Instant) : List PeerInfo :=
  ((swarmLru.iter.filter (fun pi => pi.1.ip.isIpv4)).filter (fun pi =>
    match newerThan with
    | none => true
    | some time => decide (pi.2.lastUpdated > time))).map Prod.snd

/-- `PeerStorage::get_peers_info`. -/
def getPeersInfo (self : PeerStorage) (infoHash : Id) (newerThan : Option Instant) : List PeerInfo × PeerStorage :=
  match self.peers.get infoHash with
  | (some swarmLru, peers) => (freshPeers swarmLru newerThan, { self with peers })
  | (none, peers) => ([], { self with peers })

/-- `PeerStorage::get_peers`. -/
def getPeers (self : PeerStorage) (infoHash : Id) (newerThan : Option Instant) : List SocketAddr × PeerStorage :=
  let (infos, self) := self.getPeersInfo infoHash newerThan
  (infos.map (·.addr), self)

/-- `PeerStorage::get_info_hashes`. -/
def getInfoHashes (self : PeerStorage) : List Id := self.peers.iter.map Prod.fst

end PeerStorage

/-- The pass of `DHT::get_info_hashes` over the info hashes. -/
def DHT.getInfoHashesLoop (newerThan : Option Instant) : List Id → PeerStorage →
    List (Id × List PeerInfo) × PeerStorage
  | [], peerStorage => ([], peerStorage)
  | hash :: hashes, peerStorage =>
    let (infos, peerStorage) := peerStorage.getPeersInfo hash newerThan
    let (rest, peerStorage) := getInfoHashesLoop newerThan hashes peerStorage
    (if infos.isEmpty then rest else (hash, infos) :: rest, peerStorage)

/-- `DHT::get_info_hashes`, on the peer storage of the DHT's state. -/
def DHT.getInfoHashes (peerStorage : PeerStorage) (newerThan : Option Instant) : List (Id × List PeerInfo) × PeerStorage :=
  DHT.getInfoHashesLoop newerThan peerStorage.getInfoHashes peerStorage

end RustyDht
