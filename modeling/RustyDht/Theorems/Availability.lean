import RustyDht.Lemmas.Alive
import RustyDht.Lemmas.EventLoop
import RustyDht.Theorems.Ipv4Only

/-!
# The DHT does not stop

No packet, from whatever address and whatever is in it, and no other event poisons the lock on the state or ends the incoming task; and
the event loop goes on as long as the outgoing task does, which only a message that cannot be sent ends. What it takes is a scrape
interval that is not negative, numbers of torrents and of peers that a 32-bit integer holds, and a clock to which the times of the
throttler can be added.
-/

namespace RustyDht

/-- The settings let a sample be given whatever is stored, and caches be made. -/
structure DHTSettings.Workable (settings : DHTSettings) : Prop where
  interval : ¬settings.minSampleIntervalSecs < 0
  torrents : settings.maxTorrents ≤ 2147483647
  peers : settings.maxPeersPerTorrent ≤ 2147483647

namespace DHT

variable {σ : Type} {env : Env σ} {s : DHT σ} {settings : DHTSettings}

/-- No more torrents are stored than there may be. -/
def FewTorrents (maxTorrents : Nat) (storage : PeerStorage) : Prop :=
  storage.peers.cap = maxTorrents ∧ storage.peers.entries.length ≤ storage.peers.cap

/-- A lookup stores no torrent. -/
theorem FewTorrents.getPeers {maxTorrents : Nat} {storage : PeerStorage} (h : FewTorrents maxTorrents storage) (hash : Id)
    (newerThan : Option Instant) : FewTorrents maxTorrents (storage.getPeers hash newerThan).2 := by
  have hpeers : (storage.getPeers hash newerThan).2.peers = (storage.peers.get hash).2 := by
    unfold PeerStorage.getPeers PeerStorage.getPeersInfo
    rcases storage.peers.get hash with ⟨_ | swarmLru, peers⟩ <;> rfl
  unfold FewTorrents
  rw [hpeers, LruCache.get_cap]
  exact ⟨h.1, LruCache.length_get_le h.2 hash⟩

/-- An announce stores one torrent more at most, and evicts one if there is no room. -/
theorem FewTorrents.announcePeer {maxTorrents : Nat} {storage : PeerStorage} (h : FewTorrents maxTorrents storage) (hash : Id)
    (addr : SocketAddr) (now : Instant) : FewTorrents maxTorrents (storage.announcePeer hash addr now) := by
  unfold FewTorrents
  rw [PeerStorage.announcePeer_eq]
  dsimp only
  rw [LruCache.put_cap]
  exact ⟨h.1, LruCache.length_put_le h.2 _ _⟩

/-- Every event leaves no more torrents than there may be. -/
theorem FewTorrents.step {maxTorrents : Nat} (h : FewTorrents maxTorrents s.peerStorage) (e : Event) :
    FewTorrents maxTorrents (step env s e).peerStorage := by
  cases haccepts : AnnounceHistory.accepts env s e with
  | none => exact AnnounceHistory.keeps_of_not_accepts (fun _ hash newerThan h => h.getPeers hash newerThan) haccepts h
  | some a =>
    rw [AnnounceHistory.peerStorage_of_accepts haccepts]
    exact h.announcePeer _ _ _

/-- The DHT is alive, has only heard from IPv4 addresses, and can give a sample. -/
structure Steady (settings : DHTSettings) (s : DHT σ) : Prop where
  alive : s.Alive
  ipv4 : s.Ipv4Only
  torrents : FewTorrents settings.maxTorrents s.peerStorage
  settings : s.settings = settings

/-- A DHT that is steady can give a sample. -/
theorem Steady.canSample (h : s.Steady settings) (hworkable : settings.Workable) (req : RequestSpecific) : s.CanSample req := by
  cases req with
  | sampleInfoHashesRequest arguments =>
    refine ⟨h.settings ▸ hworkable.interval, ?_⟩
    have hlength : s.peerStorage.getInfoHashes.length = s.peerStorage.peers.entries.length := List.length_map _
    have hcap := h.torrents.1
    have hfew := h.torrents.2
    have hfits := hworkable.torrents
    omega
  | _ => exact trivial

/-- Every event leaves the DHT steady. -/
theorem Steady.step (h : s.Steady settings) (hworkable : settings.Workable) (e : Event) : (step env s e).Steady settings where
  alive := h.alive.step h.ipv4.informed (h.canSample hworkable) e
  ipv4 := h.ipv4.step e
  torrents := h.torrents.step e
  settings := (step_settings env s e).trans h.settings

/-- A new DHT is steady. -/
theorem steady_of_new {id : Option Id} {ip4Source : σ} {buckets : NodeBucketStorage} {rng secretRng : Nat → UInt8} {random : Id}
    (hnew : new env id ip4Source buckets settings rng secretRng random = .ok s) : s.Steady settings := by
  refine ⟨?_, ipv4Only_of_new hnew, ?_, ?_⟩
  · obtain ⟨ourId, tokenSecret, rfl⟩ := eq_of_new hnew
    exact ⟨fun _ => rfl, rfl⟩
  · rw [(new_eq_ok hnew).2.2.1]
    exact ⟨rfl, Nat.zero_le _⟩
  · obtain ⟨ourId, tokenSecret, rfl⟩ := eq_of_new hnew
    rfl

/-- No event ends the outgoing task but one at which a message cannot be sent. -/
theorem step_outgoingUp_of_sent (env : Env σ) (s : DHT σ) {e : Event} (hnot : ∀ text, e ≠ .outgoing (.failed text)) :
    (step env s e).socket.outgoingUp = s.socket.outgoingUp := by
  by_cases hout : ∃ result, e = .outgoing result
  · obtain ⟨result, rfl⟩ := hout
    exact s.socket.backgroundIoOutgoing_outgoingUp env.codec (fun text hresult => hnot text (congrArg _ hresult))
  · exact step_outgoingUp env s (fun result he => hout ⟨result, he⟩)

end DHT

/-! ## The event loop -/

namespace EventLoop

variable {σ : Type} {env : Env σ} {self : EventLoop σ} {settings : DHTSettings} {throttle : ThrottleSettings}

/-- The DHT of the loop is steady, and its throttler has the settings. -/
structure Steady (settings : DHTSettings) (throttle : ThrottleSettings) (loop : EventLoop σ) : Prop where
  dht : loop.dht.Steady settings
  throttler : loop.throttler.toThrottlerSettings = throttle.throttler

/-- Every event leaves the loop steady. -/
theorem Steady.step (h : self.Steady settings throttle) (hworkable : settings.Workable) {e : EventLoopEvent}
    (hfits : e.Fits throttle.throttler) : (self.step env e).Steady settings throttle where
  dht := by
    rw [step_dht env self (h.throttler ▸ hfits)]
    exact Machine.run_invariant (DHT.step env) (P := DHT.Steady settings) (fun _ e h => h.step hworkable e) _ _ h.dht
  throttler := (step_throttlerSettings env self (h.throttler ▸ hfits)).trans h.throttler

/-- A steady loop stays steady. -/
theorem Steady.run (h : self.Steady settings throttle) (env : Env σ) (hworkable : settings.Workable) {es : List EventLoopEvent}
    (hfits : ∀ e ∈ es, e.Fits throttle.throttler) : (Machine.run (EventLoop.step env) self es).Steady settings throttle :=
  Machine.run_invariant_of_stepsOk (EventLoop.step env) (P := Steady settings throttle) (fun _ _ h hok => h.step hworkable hok) es self h
    (stepsOk_fits env self hfits)

/-- A loop begins steady. -/
theorem start_steady {id : Option Id} {ip4Source : σ} {buckets : NodeBucketStorage} {rng secretRng : Nat → UInt8} {random : Id}
    {dht : DHT σ} (hnew : DHT.new env id ip4Source buckets settings rng secretRng random = .ok dht) (now : Instant) :
    (start dht throttle now).Steady settings throttle := ⟨DHT.steady_of_new hnew, rfl⟩

/-- The outgoing task goes on after an event, unless a message cannot be sent. -/
theorem Steady.step_outgoingUp (h : self.Steady settings throttle) (env : Env σ) {e : EventLoopEvent} (hfits : e.Fits throttle.throttler)
    (hsent : ∀ text, e ≠ .dht (.outgoing (.failed text))) :
    (self.step env e).dht.socket.outgoingUp = self.dht.socket.outgoingUp := by
  rw [step_dht env self (h.throttler ▸ hfits)]
  cases e with
  | dht e =>
    cases e with
    | accept throttled now shuffle => rfl
    | _ => exact DHT.step_outgoingUp_of_sent env _ (fun text he => hsent text (congrArg _ he))
  | accept clock now shuffle =>
    unfold dhtEvents
    dsimp only
    cases self.next with
    | none => rfl
    | some p =>
      have hnot : ∀ result, DHT.Event.accept (self.blocks p.2 clock) now shuffle ≠ .outgoing result := fun result he => by cases he
      exact DHT.step_outgoingUp env self.dht hnot
  | subscribe => rfl
  | recv i => rfl
  | close i => rfl

end EventLoop

end RustyDht
