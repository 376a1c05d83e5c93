import RustyDht.PeerStorage
import Mathlib.Logic.Function.Basic

/-!
# Lemmas about the peer storage

Which records of peers are stored, and which of them a lookup finds. Then a storage whose info hashes are dumped next to one whose are
not: a dump looks every torrent up, from the most recently used to the least, and each lookup is a use, so it reverses the order of
use. `Woven p` says that the torrents of one storage are those of the other in the order that dumps leave, `p` telling which torrents
were used since, or before an even number of dumps.
-/

namespace RustyDht

open LruCache (weave)

/-! ## Stored peers -/

namespace PeerStorage

variable {self : PeerStorage} {infoHash : Id} {peer : SocketAddr} {info : PeerInfo}

/-- A record of a peer is stored under an info hash. -/
def Stored (self : PeerStorage) (infoHash : Id) (peer : SocketAddr) (info : PeerInfo) : Prop :=
  ∃ swarmLru, (infoHash, swarmLru) ∈ self.peers.entries ∧ (peer, info) ∈ swarmLru.entries

/-- A lookup leaves the records there are. -/
theorem stored_getPeers_iff (hash : Id) (newerThan : Option Instant) :
    (self.getPeers hash newerThan).2.Stored infoHash peer info ↔ self.Stored infoHash peer info := by
  have hpeers : (self.getPeers hash newerThan).2.peers = (self.peers.get hash).2 := by
    unfold getPeers getPeersInfo
    rcases self.peers.get hash with ⟨_ | swarmLru, peers⟩ <;> rfl
  unfold Stored
  simp only [hpeers, LruCache.mem_get_iff]

/-- An announce puts the peer into the swarm of its torrent, or into a new one, and puts that into the storage. -/
theorem announcePeer_eq (self : PeerStorage) (hash : Id) (addr : SocketAddr) (now : Instant) :
    self.announcePeer hash addr now =
      { self with
        peers := self.peers.put hash
          (((self.peers.peek hash).getD (.new self.maxPeersPerTorrent)).put addr (PeerInfo.new addr now)) } := by
  cases hpeek : self.peers.peek hash with
  | some swarmLru => simp only [announcePeer, LruCache.getMut, hpeek, Option.map_some, Option.getD_some, LruCache.put_of_some hpeek]
  | none => simp only [announcePeer, LruCache.getMut, hpeek, Option.map_none, Option.getD_none]

/-- The records after an announce: the one announced, and some of the others. -/
theorem Stored.of_announcePeer {hash : Id} {addr : SocketAddr} {now : Instant}
    (h : (self.announcePeer hash addr now).Stored infoHash peer info) :
    (infoHash = hash ∧ peer = addr ∧ info = PeerInfo.new addr now) ∨
      (¬(infoHash = hash ∧ peer = addr) ∧ self.Stored infoHash peer info) := by
  obtain ⟨swarmLru, hswarm, hpeer⟩ := h
  rw [announcePeer_eq] at hswarm
  rcases LruCache.mem_of_mem_put hswarm with heq | ⟨hother, hne⟩
  · obtain ⟨rfl, rfl⟩ := Prod.mk.inj heq
    rcases LruCache.mem_of_mem_put hpeer with heq | ⟨hother, hne⟩
    · obtain ⟨rfl, rfl⟩ := Prod.mk.inj heq
      exact .inl ⟨rfl, rfl, rfl⟩
    · refine .inr ⟨fun h => hne h.2, ?_⟩
      cases hpeek : self.peers.peek infoHash with
      | some old =>
        rw [hpeek] at hother
        exact ⟨old, (self.peers.peek_eq_some_iff infoHash old).mp hpeek, hother⟩
      | none =>
        rw [hpeek] at hother
        exact absurd hother List.not_mem_nil
  · exact .inr ⟨fun h => hne h.1, swarmLru, hother, hpeer⟩

/-- A peer that is announced is stored, if there is any room. -/
theorem stored_announcePeer (htorrents : 1 ≤ self.peers.cap) (hpeers : 1 ≤ self.maxPeersPerTorrent)
    (hswarms : ∀ hash swarmLru, (hash, swarmLru) ∈ self.peers.entries → swarmLru.cap = self.maxPeersPerTorrent) (hash : Id)
    (addr : SocketAddr) (now : Instant) : (self.announcePeer hash addr now).Stored hash addr (PeerInfo.new addr now) := by
  rw [announcePeer_eq]
  refine ⟨_, LruCache.mem_put htorrents hash _, LruCache.mem_put ?_ addr _⟩
  cases hpeek : self.peers.peek hash with
  | none => exact hpeers
  | some swarmLru => exact hswarms hash swarmLru ((self.peers.peek_eq_some_iff hash swarmLru).mp hpeek) ▸ hpeers

/-- A record is one of a fresh peer: the peer is IPv4, and it announced itself after an instant, if one is given. -/
def Fresh (newerThan : Option Instant) (peer : SocketAddr) (info : PeerInfo) : Prop :=
  peer.ip.isIpv4 = true ∧ ∀ time, newerThan = some time → time < info.lastUpdated

/-- The fresh peers of a swarm are those of its fresh records. -/
theorem mem_freshPeers_iff {swarmLru : LruCache SocketAddr PeerInfo} {newerThan : Option Instant} :
    info ∈ freshPeers swarmLru newerThan ↔ ∃ peer, (peer, info) ∈ swarmLru.entries ∧ Fresh newerThan peer info := by
  unfold freshPeers Fresh LruCache.iter
  cases newerThan with
  | none => simp
  | some time => simp [and_comm]

/-- The fresh peers of a swarm are those of some of its entries, in their order. -/
theorem freshPeers_sublist (swarmLru : LruCache SocketAddr PeerInfo) (newerThan : Option Instant) :
    ∃ entries : List (SocketAddr × PeerInfo),
      entries.Sublist swarmLru.entries ∧ freshPeers swarmLru newerThan = entries.map Prod.snd :=
  ⟨_, List.filter_sublist.trans List.filter_sublist, rfl⟩

/-- What a lookup finds. -/
theorem getPeers_fst (infoHash : Id) (newerThan : Option Instant) : (self.getPeers infoHash newerThan).1 =
    match self.peers.peek infoHash with
    | some swarmLru => (freshPeers swarmLru newerThan).map (·.addr)
    | none => [] := by
  unfold getPeers getPeersInfo
  cases hpeek : self.peers.peek infoHash with
  | none => rw [LruCache.get_of_none hpeek]; rfl
  | some swarmLru => rw [LruCache.get_of_some hpeek]

/-- The peers that a lookup finds are the addresses of the fresh records. -/
theorem mem_getPeers_iff {newerThan : Option Instant} {addr : SocketAddr} : addr ∈ (self.getPeers infoHash newerThan).1 ↔
    ∃ peer info, self.Stored infoHash peer info ∧ Fresh newerThan peer info ∧ info.addr = addr := by
  rw [getPeers_fst]
  cases hpeek : self.peers.peek infoHash with
  | none =>
    refine ⟨fun h => absurd h List.not_mem_nil, ?_⟩
    rintro ⟨peer, info, ⟨swarmLru, hswarm, -⟩, -⟩
    exact absurd (List.mem_map.mpr ⟨_, hswarm, rfl⟩) ((self.peers.peek_eq_none_iff infoHash).mp hpeek)
  | some swarmLru =>
    have hswarm := (self.peers.peek_eq_some_iff infoHash swarmLru).mp hpeek
    rw [List.mem_map]
    constructor
    · rintro ⟨info, hinfo, rfl⟩
      obtain ⟨peer, hpeer, hfresh⟩ := mem_freshPeers_iff.mp hinfo
      exact ⟨peer, info, ⟨swarmLru, hswarm, hpeer⟩, hfresh, rfl⟩
    · rintro ⟨peer, info, ⟨other, hother, hpeer⟩, hfresh, rfl⟩
      have hsame := (self.peers.peek_eq_some_iff infoHash other).mpr hother
      rw [hpeek, Option.some.injEq] at hsame
      exact ⟨info, mem_freshPeers_iff.mpr ⟨peer, hsame ▸ hpeer, hfresh⟩, rfl⟩

/-- Where records have the addresses they are under, a lookup finds no peer twice. -/
theorem nodup_getPeers (haddr : ∀ peer info, self.Stored infoHash peer info → info.addr = peer) (newerThan : Option Instant) :
    (self.getPeers infoHash newerThan).1.Nodup := by
  rw [getPeers_fst]
  cases hpeek : self.peers.peek infoHash with
  | none => exact List.nodup_nil
  | some swarmLru =>
    have hswarm := (self.peers.peek_eq_some_iff infoHash swarmLru).mp hpeek
    obtain ⟨entries, hsub, hfresh⟩ := freshPeers_sublist swarmLru newerThan
    have hkeys : ∀ e ∈ entries, e.2.addr = e.1 := fun e he => haddr e.1 e.2 ⟨swarmLru, hswarm, hsub.subset he⟩
    dsimp only
    rw [hfresh, List.map_map]
    exact (List.map_congr_left hkeys) ▸ swarmLru.nodup.sublist (hsub.map Prod.fst)

end PeerStorage

/-! ## Lookups and puts, side by side -/

/-- The torrents of one storage are those of another in the order that some dumps have left, and the bounds are the same. -/
structure PeerStorage.Woven (p : Id → Bool) (dumped plain : PeerStorage) : Prop where
  entries : dumped.peers.entries = weave (fun e => p e.1) plain.peers.entries
  cap : dumped.peers.cap = plain.peers.cap
  max : dumped.maxPeersPerTorrent = plain.maxPeersPerTorrent

namespace PeerStorage.Woven

variable {p : Id → Bool} {dumped plain : PeerStorage}

/-- The two hold the same torrents, with the same peers. -/
theorem perm (h : Woven p dumped plain) : dumped.peers.entries.Perm plain.peers.entries :=
  h.entries ▸ LruCache.weave_perm _ _

/-- A lookup finds the same in both. -/
theorem peek (h : Woven p dumped plain) (hash : Id) : dumped.peers.peek hash = plain.peers.peek hash := by
  ext swarm
  rw [LruCache.peek_eq_some_iff, LruCache.peek_eq_some_iff, h.perm.mem_iff]

/-- Making one torrent the most recently used, in both, with the same peers. -/
theorem toFront (h : Woven p dumped plain) (hash : Id) (swarm : LruCache SocketAddr PeerInfo) :
    (dumped.peers.toFront hash swarm).entries =
      weave (fun e => Function.update p hash true e.1) (plain.peers.toFront hash swarm).entries := by
  have hothers : dumped.peers.others hash = weave (fun e => Function.update p hash true e.1) (plain.peers.others hash) := by
    rw [LruCache.others, LruCache.others, h.entries, LruCache.filter_weave]
    refine LruCache.weave_congr (fun e he => ?_)
    rw [Function.update_of_ne (of_decide_eq_true (List.mem_filter.mp he).2)]
  simp only [LruCache.toFront, hothers]
  exact (LruCache.weave_cons (Function.update_self hash true p)).symm

/-- A lookup leaves the storages woven: the torrent, if it is there, was just used. -/
theorem get (h : Woven p dumped plain) (hash : Id) (newerThan : Option Instant) :
    (dumped.getPeersInfo hash newerThan).1 = (plain.getPeersInfo hash newerThan).1 ∧
      Woven (Function.update p hash true) (dumped.getPeersInfo hash newerThan).2 (plain.getPeersInfo hash newerThan).2 := by
  cases hpeek : plain.peers.peek hash with
  | none =>
    simp only [getPeersInfo, LruCache.get_of_none hpeek, LruCache.get_of_none ((h.peek hash).trans hpeek), true_and]
    refine ⟨?_, h.cap, h.max⟩
    rw [h.entries]
    refine LruCache.weave_congr (fun e he => ?_)
    rw [Function.update_of_ne]
    rintro rfl
    exact (LruCache.peek_eq_none_iff _ _).mp hpeek (List.mem_map.mpr ⟨e, he, rfl⟩)
  | some swarm =>
    simp only [getPeersInfo, LruCache.get_of_some hpeek, LruCache.get_of_some ((h.peek hash).trans hpeek), true_and]
    exact ⟨h.toFront hash swarm, h.cap, h.max⟩

/-- What stays when a torrent comes in is woven, if what it evicts, if anything, is the least recently used torrent of both. -/
theorem kept (h : Woven p dumped plain)
    (hevict : plain.peers.entries.length = plain.peers.cap → ∀ e ∈ plain.peers.entries.dropLast, p e.1 = true) :
    dumped.peers.kept = weave (fun e => p e.1) plain.peers.kept := by
  rw [LruCache.kept, LruCache.kept, h.perm.length_eq, h.cap]
  by_cases hfull : plain.peers.entries.length = plain.peers.cap
  · rw [if_pos hfull, if_pos hfull, h.entries]
    exact LruCache.dropLast_weave (hevict hfull)
  · rw [if_neg hfull, if_neg hfull, h.entries]

/-- An announce leaves the storages woven, if what it evicts, if anything, is the least recently used torrent of both. -/
theorem announcePeer (h : Woven p dumped plain) (hash : Id) (addr : SocketAddr) (now : Instant)
    (hevict : plain.peers.peek hash = none → plain.peers.entries.length = plain.peers.cap →
      ∀ e ∈ plain.peers.entries.dropLast, p e.1 = true) :
    Woven (Function.update p hash true) (dumped.announcePeer hash addr now) (plain.announcePeer hash addr now) := by
  cases hpeek : plain.peers.peek hash with
  | some swarm =>
    simp only [PeerStorage.announcePeer, LruCache.getMut, hpeek, (h.peek hash).trans hpeek, Option.map_some]
    exact ⟨h.toFront hash _, h.cap, h.max⟩
  | none =>
    have hpeek' := (h.peek hash).trans hpeek
    have hnew : ∀ e ∈ plain.peers.entries, Function.update p hash true e.1 = p e.1 := by
      intro e he
      rw [Function.update_of_ne]
      rintro rfl
      exact (LruCache.peek_eq_none_iff _ _).mp hpeek (List.mem_map.mpr ⟨e, he, rfl⟩)
    simp only [PeerStorage.announcePeer, LruCache.getMut, hpeek, hpeek', Option.map_none, h.max]
    refine ⟨?_, ?_, rfl⟩
    · rcases Nat.eq_zero_or_pos plain.peers.cap with hcap | hcap
      · simp only [LruCache.put_of_cap hcap hpeek, LruCache.put_of_cap (h.cap.trans hcap) hpeek', h.entries]
        exact LruCache.weave_congr (fun e he => (hnew e he).symm)
      · simp only [LruCache.put_of_none hcap hpeek, LruCache.put_of_none (h.cap ▸ hcap) hpeek', h.kept (hevict hpeek)]
        refine (congrArg _ (LruCache.weave_congr (fun e he => (hnew e ((LruCache.kept_sublist _).subset he)).symm))).trans ?_
        exact (LruCache.weave_cons (Function.update_self hash true p)).symm
    · rw [LruCache.put_cap, LruCache.put_cap, h.cap]

end PeerStorage.Woven

/-- A dump looks every torrent up. -/
theorem DHT.getInfoHashesLoop_snd (newerThan : Option Instant) (hashes : List Id) : ∀ peerStorage : PeerStorage,
    (DHT.getInfoHashesLoop newerThan hashes peerStorage).2 =
      { peerStorage with peers := peerStorage.peers.touchAll hashes } := by
  induction hashes with
  | nil => exact fun _ => rfl
  | cons hash hashes ih =>
    intro peerStorage
    have hget : (peerStorage.getPeersInfo hash newerThan).2 =
        { peerStorage with peers := (peerStorage.peers.get hash).2 } := by
      rw [PeerStorage.getPeersInfo]
      split
      · next h => rw [h]
      · next h => rw [h]
    rw [getInfoHashesLoop]
    simp only [ih, hget]
    rfl

/-- A dump reverses the order in which the torrents were used, and does nothing else. -/
theorem DHT.getInfoHashes_snd (peerStorage : PeerStorage) (newerThan : Option Instant) :
    (DHT.getInfoHashes peerStorage newerThan).2.peers.entries = peerStorage.peers.entries.reverse ∧
      (DHT.getInfoHashes peerStorage newerThan).2.peers.cap = peerStorage.peers.cap ∧
      (DHT.getInfoHashes peerStorage newerThan).2.maxPeersPerTorrent = peerStorage.maxPeersPerTorrent := by
  rw [DHT.getInfoHashes, DHT.getInfoHashesLoop_snd]
  exact ⟨peerStorage.peers.touchAll_keys, LruCache.touchAll_cap _ _, rfl⟩

end RustyDht
