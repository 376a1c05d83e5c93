import RustyDht.Lib.Machine
import RustyDht.Lib.Recent
import RustyDht.Lemmas.PeerStorage
import Mathlib.Logic.Function.Basic

/-!
# A store of the most recent peers

What a peer storage is for, and that it is that: `RecentPeers` keeps every touch of a torrent and every announce, and says what is
stored by looking back over them. The storage, with its two levels of caches, answers every call as `RecentPeers` does.
-/

namespace RustyDht

open LruCache (recent)

/-- A call on a peer storage. -/
inductive PeerStorageCall where
  | announcePeer (infoHash : Id) (peerAddr : SocketAddr) (now : Instant)
  | getPeers (infoHash : Id) (newerThan : Option Instant)
  | getPeersInfo (infoHash : Id) (newerThan : Option Instant)
  | getInfoHashes

/-- The storage after a call. -/
def PeerStorageCall.apply (self : PeerStorage) : PeerStorageCall → PeerStorage
  | .announcePeer infoHash peerAddr now => self.announcePeer infoHash peerAddr now
  | .getPeers infoHash newerThan => (self.getPeers infoHash newerThan).2
  | .getPeersInfo infoHash newerThan => (self.getPeersInfo infoHash newerThan).2
  | .getInfoHashes => self

/-! ## The history -/

/-- All that happened to the torrents: the touches, latest first, and the announces of each since it last entered the store, latest
first. -/
structure RecentPeers where
  maxTorrents : Nat
  maxPeersPerTorrent : Nat
  touched : List Id
  announced : Id → List PeerInfo

namespace RecentPeers

/-- Nothing has happened. -/
def new (maxTorrents maxPeersPerTorrent : Nat) : RecentPeers :=
  { maxTorrents, maxPeersPerTorrent, touched := [], announced := fun _ => [] }

/-- The torrents stored: the most recently touched ones, latest first. -/
def stored (self : RecentPeers) : List Id := (recent id self.touched).take self.maxTorrents

/-- The last addresses announced to a torrent, each with its latest announce, latest first. -/
def swarm (self : RecentPeers) (infoHash : Id) : List PeerInfo :=
  (recent PeerInfo.addr (self.announced infoHash)).take self.maxPeersPerTorrent

/-- A peer is newer than an instant, if one is given. -/
def newer (newerThan : Option Instant) (info : PeerInfo) : Bool := newerThan.all (fun time => info.lastUpdated > time)

/-- The IPv4 peers of a torrent that are newer than an instant, if one is given, if the torrent is stored. -/
def peers (self : RecentPeers) (infoHash : Id) (newerThan : Option Instant) : List PeerInfo :=
  if infoHash ∈ self.stored then
    (self.swarm infoHash).filter (fun info => info.addr.isIpv4 && newer newerThan info)
  else []

/-- A lookup touches a torrent that is stored. -/
def lookUp (self : RecentPeers) (infoHash : Id) : RecentPeers :=
  if infoHash ∈ self.stored then { self with touched := infoHash :: self.touched } else self

/-- An announce touches its torrent. One that was not stored starts anew. -/
def announce (self : RecentPeers) (infoHash : Id) (info : PeerInfo) : RecentPeers :=
  { self with
    touched := infoHash :: self.touched
    announced := Function.update self.announced infoHash
      (info :: if infoHash ∈ self.stored then self.announced infoHash else []) }

/-- The history after a call. -/
def apply (self : RecentPeers) : PeerStorageCall → RecentPeers
  | .announcePeer infoHash peerAddr now => self.announce infoHash ⟨peerAddr, now⟩
  | .getPeers infoHash _ => self.lookUp infoHash
  | .getPeersInfo infoHash _ => self.lookUp infoHash
  | .getInfoHashes => self

/-! ## The storage follows the history -/

/-- The entry of a cache for a peer. -/
def entry (info : PeerInfo) : SocketAddr × PeerInfo := (info.addr, info)

/-- A storage holds what its history says: the torrents stored, in their order, and of each the swarm in its order. -/
structure Refines (history : RecentPeers) (storage : PeerStorage) : Prop where
  maxTorrents : storage.peers.cap = history.maxTorrents
  maxPeers : storage.maxPeersPerTorrent = history.maxPeersPerTorrent
  stored : storage.peers.keys = history.stored
  swarmCap : ∀ e ∈ storage.peers.entries, e.2.cap = history.maxPeersPerTorrent
  swarm : ∀ e ∈ storage.peers.entries, e.2.entries = (history.swarm e.1).map entry

variable {history : RecentPeers} {storage : PeerStorage}

theorem new_refines (maxTorrents maxPeersPerTorrent : Nat) :
    (new maxTorrents maxPeersPerTorrent).Refines (.new maxTorrents maxPeersPerTorrent) where
  maxTorrents := rfl
  maxPeers := rfl
  stored := List.take_nil.symm
  swarmCap _ he := absurd he List.not_mem_nil
  swarm _ he := absurd he List.not_mem_nil

/-- An announce changes the swarm of no other torrent. -/
theorem announce_swarm_of_ne {infoHash other : Id} (h : other ≠ infoHash) (info : PeerInfo) :
    (history.announce infoHash info).swarm other = history.swarm other := by
  simp only [swarm, announce, Function.update_of_ne h]

/-- The swarm of the torrent announced to. -/
theorem announce_swarm (history : RecentPeers) (infoHash : Id) (info : PeerInfo) :
    (history.announce infoHash info).swarm infoHash =
      (recent PeerInfo.addr (info :: if infoHash ∈ history.stored then history.announced infoHash else [])).take
        history.maxPeersPerTorrent := by
  simp only [swarm, announce, Function.update_self]

/-- A peer put into a swarm is its latest announce. -/
theorem put_swarm {swarmLru : LruCache SocketAddr PeerInfo} {infos : List PeerInfo} (hcap : 1 ≤ swarmLru.cap)
    (h : swarmLru.entries = ((recent PeerInfo.addr infos).take swarmLru.cap).map entry) (info : PeerInfo) :
    (swarmLru.put info.addr info).entries = ((recent PeerInfo.addr (info :: infos)).take swarmLru.cap).map entry := by
  have hmap : ∀ l : List PeerInfo, ((recent PeerInfo.addr l).take swarmLru.cap).map entry =
      (recent Prod.fst (l.map entry)).take swarmLru.cap := by
    intro l
    rw [LruCache.recent_map PeerInfo.addr entry (fun _ => rfl), List.map_take]
  rw [hmap] at h ⊢
  exact LruCache.put_recent hcap h info.addr info

namespace Refines

/-- A torrent is found exactly if it is stored. -/
theorem peek_isSome_iff (h : history.Refines storage) (infoHash : Id) :
    (∃ swarmLru, storage.peers.peek infoHash = some swarmLru) ↔ infoHash ∈ history.stored := by
  rw [← h.stored, ← Option.isSome_iff_exists, ← not_iff_not, Bool.not_eq_true, Option.isSome_eq_false_iff, Option.isNone_iff_eq_none,
    LruCache.peek_eq_none_iff]

/-- A torrent that is not found is not stored. -/
theorem not_mem_stored (h : history.Refines storage) {infoHash : Id} (hpeek : storage.peers.peek infoHash = none) :
    infoHash ∉ history.stored := by
  rw [← h.stored]
  exact (LruCache.peek_eq_none_iff _ _).mp hpeek

/-- Two filters and the peers, on the entries of a swarm. -/
theorem freshPeers_entry (swarmLru : LruCache SocketAddr PeerInfo) (infos : List PeerInfo) (h : swarmLru.entries = infos.map entry)
    (newerThan : Option Instant) :
    PeerStorage.freshPeers swarmLru newerThan = infos.filter (fun info => info.addr.isIpv4 && newer newerThan info) := by
  have hipv4 : ∀ addr : SocketAddr, addr.ip.isIpv4 = addr.isIpv4 := by
    intro addr
    cases addr <;> rfl
  rw [PeerStorage.freshPeers, LruCache.iter, h, List.filter_filter, List.filter_map, List.map_map]
  have hid : ∀ l : List PeerInfo, l.map (Prod.snd ∘ entry) = l := List.map_id
  rw [hid]
  refine List.filter_congr (fun info _ => ?_)
  rw [Bool.and_comm (info.addr.isIpv4), ← hipv4]
  cases newerThan <;> rfl

/-- A lookup of peers gives what the history says. -/
theorem getPeersInfo (h : history.Refines storage) (infoHash : Id) (newerThan : Option Instant) :
    (storage.getPeersInfo infoHash newerThan).1 = history.peers infoHash newerThan := by
  rw [peers]
  cases hpeek : storage.peers.peek infoHash with
  | none =>
    rw [if_neg (h.not_mem_stored hpeek), PeerStorage.getPeersInfo, LruCache.get_of_none hpeek]
  | some swarmLru =>
    have hmem := (h.peek_isSome_iff infoHash).mp ⟨swarmLru, hpeek⟩
    rw [if_pos hmem, PeerStorage.getPeersInfo, LruCache.get_of_some hpeek]
    exact freshPeers_entry swarmLru _ (h.swarm _ ((LruCache.peek_eq_some_iff _ _ _).mp hpeek)) newerThan

theorem getPeers (h : history.Refines storage) (infoHash : Id) (newerThan : Option Instant) :
    (storage.getPeers infoHash newerThan).1 = (history.peers infoHash newerThan).map (·.addr) :=
  congrArg (List.map PeerInfo.addr) (h.getPeersInfo infoHash newerThan)

/-- The keys of the storage are the torrents used last. -/
theorem keys_eq (h : history.Refines storage) : storage.peers.keys = (recent id history.touched).take storage.peers.cap := by
  rw [h.maxTorrents]
  exact h.stored

/-- A lookup leaves what the history says. -/
theorem lookUp (h : history.Refines storage) (hmax : 1 ≤ history.maxTorrents) (infoHash : Id) (newerThan : Option Instant) :
    (history.lookUp infoHash).Refines (storage.getPeersInfo infoHash newerThan).2 := by
  rw [RecentPeers.lookUp]
  cases hpeek : storage.peers.peek infoHash with
  | none =>
    rw [if_neg (h.not_mem_stored hpeek), PeerStorage.getPeersInfo, LruCache.get_of_none hpeek]
    exact h
  | some swarmLru =>
    have hmem := (h.peek_isSome_iff infoHash).mp ⟨swarmLru, hpeek⟩
    have hentry := (LruCache.peek_eq_some_iff _ _ _).mp hpeek
    have hentries : ∀ e ∈ (storage.peers.toFront infoHash swarmLru).entries, e ∈ storage.peers.entries := by
      intro e he
      rcases LruCache.mem_toFront_iff.mp he with rfl | ⟨he, -⟩
      · exact hentry
      · exact he
    rw [if_pos hmem, PeerStorage.getPeersInfo, LruCache.get_of_some hpeek]
    refine ⟨h.maxTorrents, h.maxPeers, ?_, fun e he => h.swarmCap e (hentries e he), fun e he => h.swarm e (hentries e he)⟩
    rw [RecentPeers.stored, ← h.maxTorrents]
    exact LruCache.toFront_keys_recent (h.maxTorrents ▸ hmax) h.keys_eq hpeek

/-- What an announce is put into: the swarm of the torrent, if it is stored, and otherwise an empty one. -/
theorem swarm_getD (h : history.Refines storage) (infoHash : Id) :
    ((storage.peers.peek infoHash).getD (.new storage.maxPeersPerTorrent)).cap = history.maxPeersPerTorrent ∧
      ((storage.peers.peek infoHash).getD (.new storage.maxPeersPerTorrent)).entries =
        ((recent PeerInfo.addr (if infoHash ∈ history.stored then history.announced infoHash else [])).take
          history.maxPeersPerTorrent).map entry := by
  cases hpeek : storage.peers.peek infoHash with
  | some swarmLru =>
    have hentry := (LruCache.peek_eq_some_iff _ _ _).mp hpeek
    rw [if_pos ((h.peek_isSome_iff infoHash).mp ⟨swarmLru, hpeek⟩)]
    exact ⟨h.swarmCap _ hentry, h.swarm _ hentry⟩
  | none =>
    have hnot : infoHash ∉ history.stored := h.not_mem_stored hpeek
    rw [if_neg hnot]
    exact ⟨h.maxPeers, by simp [LruCache.new]⟩

/-- An announce leaves what the history says. -/
theorem announce (h : history.Refines storage) (hmax : 1 ≤ history.maxTorrents) (hpeers : 1 ≤ history.maxPeersPerTorrent) (infoHash : Id)
    (peerAddr : SocketAddr) (now : Instant) :
    (history.announce infoHash ⟨peerAddr, now⟩).Refines (storage.announcePeer infoHash peerAddr now) := by
  obtain ⟨hcap, hentries⟩ := h.swarm_getD infoHash
  rw [PeerStorage.announcePeer_eq]
  refine ⟨(LruCache.put_cap _ _ _).trans h.maxTorrents, h.maxPeers, ?_, fun e he => ?_, fun e he => ?_⟩
  · refine (LruCache.put_keys_recent (h.maxTorrents ▸ hmax) h.keys_eq _ _).trans ?_
    rw [h.maxTorrents]
    rfl
  · rcases LruCache.mem_of_mem_put he with rfl | ⟨he, -⟩
    · exact (LruCache.put_cap _ _ _).trans hcap
    · exact h.swarmCap e he
  · rcases LruCache.mem_of_mem_put he with rfl | ⟨he, hne⟩
    · rw [← hcap] at hentries hpeers
      rw [announce_swarm, ← hcap]
      exact put_swarm hpeers hentries ⟨peerAddr, now⟩
    · rw [announce_swarm_of_ne hne]
      exact h.swarm e he

/-- A call leaves what the history says. -/
theorem apply (h : history.Refines storage) (hmax : 1 ≤ history.maxTorrents) (hpeers : 1 ≤ history.maxPeersPerTorrent)
    (call : PeerStorageCall) : (history.apply call).Refines (call.apply storage) := by
  cases call with
  | announcePeer infoHash peerAddr now => exact h.announce hmax hpeers infoHash peerAddr now
  | getPeers infoHash newerThan => exact h.lookUp hmax infoHash newerThan
  | getPeersInfo infoHash newerThan => exact h.lookUp hmax infoHash newerThan
  | getInfoHashes => exact h

end Refines

/-- No call changes the bounds. -/
theorem apply_max (history : RecentPeers) (call : PeerStorageCall) :
    (history.apply call).maxTorrents = history.maxTorrents ∧
      (history.apply call).maxPeersPerTorrent = history.maxPeersPerTorrent := by
  have hlookUp : ∀ infoHash, (history.lookUp infoHash).maxTorrents = history.maxTorrents ∧
      (history.lookUp infoHash).maxPeersPerTorrent = history.maxPeersPerTorrent := by
    intro infoHash
    rw [lookUp]
    split <;> exact ⟨rfl, rfl⟩
  cases call with
  | announcePeer infoHash peerAddr now => exact ⟨rfl, rfl⟩
  | getPeers infoHash newerThan => exact hlookUp infoHash
  | getPeersInfo infoHash newerThan => exact hlookUp infoHash
  | getInfoHashes => exact ⟨rfl, rfl⟩

/-- The peers of a torrent have different addresses. -/
theorem peers_nodup (history : RecentPeers) (infoHash : Id) (newerThan : Option Instant) :
    ((history.peers infoHash newerThan).map (·.addr)).Nodup := by
  rw [peers]
  split
  · exact (LruCache.recent_nodup PeerInfo.addr (history.announced infoHash)).sublist
      ((List.filter_sublist.trans (List.take_sublist _ _)).map _)
  · exact List.nodup_nil

/-- After every sequence of calls a storage with room for torrents and peers answers as its history: the torrents stored are the most
recently touched ones, latest first, and a lookup gives, latest announce first and each address once, the IPv4 ones among the last
addresses announced since the torrent entered the storage, if it is stored, whose latest announce is newer than the instant given. -/
theorem run_answers (maxTorrents maxPeersPerTorrent : Nat) (hmax : 1 ≤ maxTorrents) (hpeers : 1 ≤ maxPeersPerTorrent)
    (calls : List PeerStorageCall) :
    let storage := Machine.run PeerStorageCall.apply (.new maxTorrents maxPeersPerTorrent) calls
    let history := Machine.run apply (new maxTorrents maxPeersPerTorrent) calls
    storage.getInfoHashes = history.stored ∧
      (∀ infoHash newerThan, (storage.getPeersInfo infoHash newerThan).1 = history.peers infoHash newerThan) ∧
      (∀ infoHash newerThan, (storage.getPeers infoHash newerThan).1 = (history.peers infoHash newerThan).map (·.addr)) ∧
      ∀ infoHash newerThan, ((storage.getPeersInfo infoHash newerThan).1.map (·.addr)).Nodup := by
  have hrun : ∀ (calls : List PeerStorageCall) (self : PeerStorage) (history : RecentPeers), history.Refines self →
      1 ≤ history.maxTorrents → 1 ≤ history.maxPeersPerTorrent →
      (Machine.run apply history calls).Refines (Machine.run PeerStorageCall.apply self calls) := by
    intro calls
    induction calls with
    | nil => exact fun self history h _ _ => h
    | cons call calls ih =>
      intro self history h hmax hpeers
      obtain ⟨h1, h2⟩ := history.apply_max call
      exact ih _ _ (h.apply hmax hpeers call) (h1.symm ▸ hmax) (h2.symm ▸ hpeers)
  intro storage history
  have h : history.Refines storage := hrun calls _ _ (new_refines maxTorrents maxPeersPerTorrent) hmax hpeers
  refine ⟨h.stored, h.getPeersInfo, h.getPeers, fun infoHash newerThan => ?_⟩
  rw [h.getPeersInfo]
  exact history.peers_nodup infoHash newerThan

/-- With room for one torrent and two peers. -/
theorem run_answers_one_two :
    let calls : List PeerStorageCall := [.announcePeer (Id.startingWith 1) (.v4 ⟨1, 2, 3, 4⟩ 6881) 10,
      .announcePeer (Id.startingWith 1) (.v4 ⟨5, 6, 7, 8⟩ 6881) 20, .getPeers (Id.startingWith 1) none, .getInfoHashes]
    let storage := Machine.run PeerStorageCall.apply (.new 1 2) calls
    let history := Machine.run apply (new 1 2) calls
    storage.getInfoHashes = history.stored ∧
      (∀ infoHash newerThan, (storage.getPeersInfo infoHash newerThan).1 = history.peers infoHash newerThan) ∧
      (∀ infoHash newerThan, (storage.getPeers infoHash newerThan).1 = (history.peers infoHash newerThan).map (·.addr)) ∧
      ∀ infoHash newerThan, ((storage.getPeersInfo infoHash newerThan).1.map (·.addr)).Nodup :=
  run_answers 1 2 (by decide) (by decide) _

end RecentPeers

end RustyDht
