import RustyDht.Lemmas.PeerStorage
import RustyDht.Lemmas.Requests

/-!
# The peers that get_peers hands out

An `AnnounceHistory` keeps the announces that a DHT has accepted. Whatever else happens, each peer that is stored is one that announced
itself, and its record has the time of the latest announce of it. So the peers of a reply to get_peers have announced themselves from
their own IP addresses, and of late.
-/

namespace RustyDht

open DHT

/-- An announce that was accepted: its arguments, where it came from and when it was stored. -/
structure Announce where
  arguments : AnnouncePeerRequestArguments
  source : SocketAddr
  time : Instant

namespace Announce

/-- The port that an announce is about: that of the packet if it says so, else the one announced. -/
def port (a : Announce) : UInt16 := if a.arguments.impliedPort = some true then a.source.port else a.arguments.port

/-- The announce is one of a peer for an info hash, from the IP address of the peer. -/
def Of (infoHash : Id) (peer : SocketAddr) (a : Announce) : Prop :=
  a.arguments.infoHash = infoHash ∧ a.source.ip = peer.ip ∧ a.port = peer.port

instance (infoHash : Id) (peer : SocketAddr) (a : Announce) : Decidable (Of infoHash peer a) :=
  inferInstanceAs (Decidable (_ ∧ _ ∧ _))

/-- The peer that an announce stores. -/
def peer (a : Announce) : SocketAddr := announcedPeer a.arguments a.source

end Announce

/-- A DHT and the announces that it has accepted since it was made, the latest first. -/
structure AnnounceHistory (σ : Type) where
  dht : DHT σ
  announces : List Announce

namespace AnnounceHistory

variable {σ : Type} {env : Env σ} {h : AnnounceHistory σ} {s : DHT σ}

/-- A new DHT has accepted nothing. -/
def start (s : DHT σ) : AnnounceHistory σ := { dht := s, announces := [] }

/-- The announce that an event makes the DHT accept: the loop gets to handle it, and its token is valid. -/
def accepts (env : Env σ) (s : DHT σ) : Event → Option Announce
  | .accept throttled now _ =>
    match s.socket.received.head? with
    | some ({ messageType := .request (.announcePeerRequest arguments), .. }, addr) =>
      if s.Answers throttled (.announcePeerRequest arguments) addr ∧ TokenValid env s arguments addr then
        some { arguments, source := addr, time := now 1 }
      else none
    | _ => none
  | _ => none

/-- A step of the DHT, and the announce it accepts if it accepts one. -/
def next (env : Env σ) (h : AnnounceHistory σ) (e : Event) : AnnounceHistory σ where
  dht := step env h.dht e
  announces := (accepts env h.dht e).toList ++ h.announces

/-! ## What is stored was announced -/

/-- Every record is under the address that it has, and has the time of the latest announce that stored it. -/
def Logged (announces : List Announce) (peerStorage : PeerStorage) : Prop :=
  ∀ infoHash peer info, peerStorage.Stored infoHash peer info → info.addr = peer ∧
    ∃ a, announces.find? (fun a => a.arguments.infoHash = infoHash ∧ a.peer = peer) = some a ∧ a.time = info.lastUpdated

/-- A lookup leaves the records logged. -/
theorem Logged.getPeers {announces : List Announce} {peerStorage : PeerStorage} (hl : Logged announces peerStorage) (hash : Id)
    (newerThan : Option Instant) : Logged announces (peerStorage.getPeers hash newerThan).2 :=
  fun infoHash peer info hstored => hl infoHash peer info ((PeerStorage.stored_getPeers_iff hash newerThan).mp hstored)

/-- An announce that is logged leaves the records logged. -/
theorem Logged.announcePeer {announces : List Announce} {peerStorage : PeerStorage} (hl : Logged announces peerStorage)
    (a : Announce) : Logged (a :: announces) (peerStorage.announcePeer a.arguments.infoHash a.peer a.time) := by
  intro infoHash peer info hstored
  rcases hstored.of_announcePeer with ⟨rfl, rfl, rfl⟩ | ⟨hother, hstored⟩
  · exact ⟨rfl, a, List.find?_cons_of_pos (by simp), rfl⟩
  · obtain ⟨haddr, b, hfind, htime⟩ := hl infoHash peer info hstored
    refine ⟨haddr, b, ?_, htime⟩
    rw [List.find?_cons_of_neg, hfind]
    exact fun hsame => hother ⟨(of_decide_eq_true hsame).1.symm, (of_decide_eq_true hsame).2.symm⟩

/-- The announce that is accepted when the next message is one. -/
theorem accepts_announce {msg : Message} {arguments : AnnouncePeerRequestArguments} {addr : SocketAddr}
    (hnext : s.NextRequest msg (.announcePeerRequest arguments) addr) (throttled : Bool) (now : Nat → Instant)
    (shuffle : PartialShuffle) : accepts env s (.accept throttled now shuffle) =
      if s.Answers throttled (.announcePeerRequest arguments) addr ∧ TokenValid env s arguments addr then
        some { arguments, source := addr, time := now 1 }
      else none := by
  obtain ⟨transactionId, version, requesterIp, messageType, readOnly⟩ := msg
  obtain ⟨hhead, rfl⟩ := hnext
  unfold accepts
  dsimp only
  rw [hhead]

/-- Only an announce is accepted. -/
theorem accepts_eq_none {e : Event} (hnot : ∀ throttled now shuffle, e = .accept throttled now shuffle → ¬s.NextIsAnnounce) :
    accepts env s e = none := by
  unfold accepts
  split
  · split
    · rename_i throttled now shuffle _ _ _ _ _ _ _ hhead
      exact absurd ⟨_, _, _, hhead, rfl⟩ (hnot throttled now shuffle rfl)
    · rfl
  · rfl

/-- An announce that is accepted is stored. -/
theorem peerStorage_of_accepts {e : Event} {a : Announce} (haccepts : accepts env s e = some a) :
    (step env s e).peerStorage = s.peerStorage.announcePeer a.arguments.infoHash a.peer a.time := by
  by_cases hannounce : ∃ throttled now shuffle, e = .accept throttled now shuffle ∧ s.NextIsAnnounce
  · obtain ⟨throttled, now, shuffle, rfl, msg, arguments, addr, hhead, htype⟩ := hannounce
    rw [accepts_announce ⟨hhead, htype⟩] at haccepts
    obtain ⟨⟨hanswers, htoken⟩, rfl⟩ := Option.ite_some_none_eq_some.mp haccepts
    exact (step_accept_announce ⟨hhead, htype⟩ hanswers htoken now shuffle).stored
  · rw [accepts_eq_none (fun throttled now shuffle he hnext => hannounce ⟨throttled, now, shuffle, he, hnext⟩)] at haccepts
    exact nomatch haccepts

/-- What lookups keep, an event keeps that accepts no announce. -/
theorem keeps_of_not_accepts {P : PeerStorage → Prop}
    (hgetPeers : ∀ peerStorage hash newerThan, P peerStorage → P (peerStorage.getPeers hash newerThan).2) {e : Event}
    (hnot : accepts env s e = none) (hs : P s.peerStorage) : P (step env s e).peerStorage := by
  have hclosed : Closed env (fun _ => True) (fun _ => True) (fun s : DHT σ => P s.peerStorage) :=
    closed_of_lookups env (P := fun peerStorage _ _ => P peerStorage) (fun hash newerThan h => hgetPeers _ hash newerThan h)
  by_cases hannounce : ∃ throttled now shuffle, e = .accept throttled now shuffle ∧ s.NextIsAnnounce
  · obtain ⟨throttled, now, shuffle, rfl, msg, arguments, addr, hhead, htype⟩ := hannounce
    have hunanswered : Unanswered s (step env s (.accept throttled now shuffle)) := by
      by_cases htoken : TokenValid env s arguments addr
      · refine step_accept_of_not_answers ⟨hhead, htype⟩ (fun hanswers => ?_) now
        rw [accepts_announce ⟨hhead, htype⟩, if_pos ⟨hanswers, htoken⟩] at hnot
        exact nomatch hnot
      · exact step_accept_announce_none ⟨hhead, htype⟩ htoken throttled now shuffle
    exact hunanswered.peerStorage ▸ hs
  · refine hclosed.step_of_valid (fun _ _ => trivial) hs e ?_ (fun _ _ _ _ h => h)
    intro throttled now shuffle he hnext
    exact absurd ⟨throttled, now, shuffle, he, hnext⟩ hannounce

/-- Every event leaves the records logged. -/
theorem logged_next (hl : Logged h.announces h.dht.peerStorage) (e : Event) :
    Logged (h.next env e).announces (h.next env e).dht.peerStorage := by
  unfold next
  dsimp only
  cases haccepts : accepts env h.dht e with
  | none => exact keeps_of_not_accepts (P := Logged h.announces) (fun _ hash newerThan hl => hl.getPeers hash newerThan) haccepts hl
  | some a =>
    rw [peerStorage_of_accepts haccepts]
    exact hl.announcePeer a

/-! ## Every run -/

/-- The peer is IPv4, an announce of it for the info hash, from its own IP address, was accepted, and the latest such announce is newer
than an instant, if one is given. -/
structure RightlyHandedOut (announces : List Announce) (infoHash : Id) (newerThan : Option Instant) (peer : SocketAddr) : Prop where
  ipv4 : peer.isIpv4 = true
  announced : ∃ a, announces.find? (fun a => a.Of infoHash peer) = some a ∧ ∀ time, newerThan = some time → time < a.time

/-- What a reply to get_peers carries: peers that are rightly handed out, each once and no more than there may be; or else nodes, where
no fresh peer is stored or none may be handed out. -/
def RightValues (h : AnnounceHistory σ) (infoHash : Id) (now : Instant) : GetPeersResponseValues → Prop
  | .peers peers =>
    (∀ peer ∈ peers, RightlyHandedOut h.announces infoHash (h.dht.peersNewerThan now) peer) ∧ peers.Nodup ∧
      peers.length ≤ h.dht.settings.maxPeersResponse
  | .nodes _ =>
    (∀ peer info, h.dht.peerStorage.Stored infoHash peer info → ¬PeerStorage.Fresh (h.dht.peersNewerThan now) peer info) ∨
      h.dht.settings.maxPeersResponse = 0

/-- An IPv4 peer that an announce stores is one that the announce is of. -/
theorem peer_eq_iff {peer : SocketAddr} (hipv4 : peer.ip.isIpv4 = true) (a : Announce) :
    a.peer = peer ↔ a.source.ip = peer.ip ∧ a.port = peer.port := by
  unfold Announce.peer Announce.port announcedPeer
  cases peer with
  | v6 ip port flowinfo scopeId => exact absurd hipv4 Bool.false_ne_true
  | v4 ip port =>
    rcases a.arguments.impliedPort with _ | _ | _ <;> cases a.source <;>
      simp [SocketAddr.setPort, SocketAddr.ip, SocketAddr.port]

/-- A fresh peer that is stored is rightly handed out. -/
theorem Logged.rightlyHandedOut {announces : List Announce} {peerStorage : PeerStorage} (hl : Logged announces peerStorage)
    {infoHash : Id} {newerThan : Option Instant} {addr : SocketAddr} (haddr : addr ∈ (peerStorage.getPeers infoHash newerThan).1) :
    RightlyHandedOut announces infoHash newerThan addr := by
  obtain ⟨peer, info, hstored, ⟨hipv4, hnewer⟩, rfl⟩ := PeerStorage.mem_getPeers_iff.mp haddr
  obtain ⟨haddr, a, hfind, htime⟩ := hl infoHash peer info hstored
  rw [haddr]
  refine ⟨?_, a, ?_, fun time ht => htime ▸ hnewer time ht⟩
  · cases peer with
    | v4 ip port => rfl
    | v6 ip port flowinfo scopeId => exact hipv4
  · rw [← hfind]
    refine congrArg (announces.find? ·) (funext (fun a => ?_))
    rw [decide_eq_decide, Announce.Of, peer_eq_iff hipv4]

/-- Where the records are logged, get_peers is answered rightly. -/
theorem Logged.rightValues (hl : Logged h.announces h.dht.peerStorage) {throttled : Bool} {now : Nat → Instant}
    {shuffle : PartialShuffle} {arguments : GetPeersRequestArguments} {addr : SocketAddr} {response : GetPeersResponseArguments}
    (hreplies : RepliesGetPeers env h.dht throttled now shuffle arguments addr response) :
    h.RightValues arguments.infoHash (now 1) response.values := by
  obtain ⟨-, msg, hresponse⟩ := hreplies.eq_answer
  cases hresponse
  dsimp only
  by_cases hnone : ((h.dht.seen env msg addr arguments.requesterId (now 0)).handedOut arguments.infoHash (now 1)).length = 0
  · rw [if_pos hnone]
    have hlength : min h.dht.settings.maxPeersResponse
        (h.dht.peerStorage.getPeers arguments.infoHash (h.dht.peersNewerThan (now 1))).1.length = 0 := List.length_take ▸ hnone
    rcases Nat.min_eq_zero_iff.mp hlength with hmax | hempty
    · exact .inr hmax
    · refine .inl (fun peer info hstored hfresh => ?_)
      have hfound := PeerStorage.mem_getPeers_iff.mpr ⟨peer, info, hstored, hfresh, rfl⟩
      rw [List.length_eq_zero_iff.mp hempty] at hfound
      exact List.not_mem_nil hfound
  · rw [if_neg hnone]
    have hnodup := PeerStorage.nodup_getPeers (fun peer info hstored => (hl arguments.infoHash peer info hstored).1)
      (h.dht.peersNewerThan (now 1))
    exact ⟨fun peer hpeer => hl.rightlyHandedOut (List.mem_of_mem_take hpeer), hnodup.sublist (List.take_sublist _ _),
      List.length_take_le _ _⟩

/-- In every run of a new DHT, the peers of every reply to get_peers are IPv4 addresses that were announced for the info hash, from
their own IP addresses and under the ports they are handed out with, in announces that were accepted, the latest of them within the
freshness of the reply; they are distinct and no more than there may be; and a reply carries nodes only where no fresh IPv4 peer is
stored or none may be handed out. -/
theorem run_rightValues (env : Env σ) {id : Option Id} {ip4Source : σ} {buckets : NodeBucketStorage} {settings : DHTSettings}
    {rng secretRng : Nat → UInt8} {random : Id} {s : DHT σ}
    (hnew : new env id ip4Source buckets settings rng secretRng random = .ok s) (events : List Event) (throttled : Bool)
    (now : Nat → Instant) (shuffle : PartialShuffle) (arguments : GetPeersRequestArguments) (addr : SocketAddr)
    (response : GetPeersResponseArguments)
    (hreplies : RepliesGetPeers env (Machine.run (next env) (start s) events).dht throttled now shuffle arguments addr response) :
    (Machine.run (next env) (start s) events).RightValues arguments.infoHash (now 1) response.values := by
  have hstart : Logged (start s).announces (start s).dht.peerStorage := by
    rintro infoHash peer info ⟨swarmLru, hswarm, -⟩
    rw [start, (new_eq_ok hnew).2.2.1] at hswarm
    exact absurd hswarm List.not_mem_nil
  have hl := Machine.run_invariant (next env) (P := fun h => Logged h.announces h.dht.peerStorage)
    (fun _ e hl => logged_next hl e) events (start s) hstart
  exact hl.rightValues hreplies

/-- A node announces itself, under another port than it sends from, and is handed out. -/
theorem run_rightValues_one_peer :
    (Machine.run (next sampleEnv) (start sampleDht) [.packet sampleAnnouncePacket ⟨127, 0, 0, 1⟩ 6882,
      .accept false sampleClock sampleShuffle, .packet samplePeersPacket ⟨127, 0, 0, 1⟩ 6881]).RightValues
        samplePeersArguments.infoHash (sampleClock 1) (.peers [.v4 ⟨127, 0, 0, 1⟩ 6883]) :=
  run_rightValues sampleEnv sampleDht_new [.packet sampleAnnouncePacket ⟨127, 0, 0, 1⟩ 6882,
      .accept false sampleClock sampleShuffle, .packet samplePeersPacket ⟨127, 0, 0, 1⟩ 6881]
    false sampleClock sampleShuffle samplePeersArguments (.v4 ⟨127, 0, 0, 1⟩ 6881)
    ⟨Id.zero, sampleToken, .peers [.v4 ⟨127, 0, 0, 1⟩ 6883]⟩
    ⟨samplePeersRequest, replyTo samplePeersRequest (.v4 ⟨127, 0, 0, 1⟩ 6881)
      (.getPeersResponse ⟨Id.zero, sampleToken, .peers [.v4 ⟨127, 0, 0, 1⟩ 6883]⟩),
      ⟨by decide +kernel, rfl⟩, rfl, by decide +kernel⟩

end AnnounceHistory

end RustyDht
