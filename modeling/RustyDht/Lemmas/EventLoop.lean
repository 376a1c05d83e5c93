import RustyDht.EventLoop
import RustyDht.Lemmas.Requests
import RustyDht.Lemmas.Throttler

/-!
# The parts of the event loop

In every step the DHT, the throttler and each channel take the steps that concern them, and no others: so in every run each fares as it
would on its own. For the DHT and the throttler this is said where the throttler does not panic, because what it adds to the times of
packets are instants.
-/

namespace RustyDht

variable {σ : Type} {env : Env σ}

/-- The throttler after a call. -/
def Throttler.afterCall {n : Nat} (self : Throttler n) (call : ThrottleCall) : Throttler n :=
  match self.checkThrottle call.ip (some call.now) none call.clock with
  | .ok (_, self') => self'
  | .error _ => self

/-- A call does not change the settings. -/
theorem Throttler.afterCall_settings (self : Throttler 32) (call : ThrottleCall) :
    (self.afterCall call).toThrottlerSettings = self.toThrottlerSettings := by
  unfold afterCall
  rcases checkThrottle_checked (by decide : 1 ≤ 32) self call with ⟨throttled, self', hcheck, hsame, -⟩ | ⟨p, hcheck, -⟩
  · rw [hcheck]
    exact hsame
  · rw [hcheck]

/-- The period and the timeout can be added to what the clock of the throttler reads. -/
def EventLoopEvent.Fits (settings : ThrottlerSettings) : EventLoopEvent → Prop
  | .accept clock _ _ => settings.Fits (clock 0)
  | _ => True

namespace EventLoop

variable {self : EventLoop σ} {e : EventLoopEvent}

/-! ## What concerns the parts -/

/-- The message that the loop takes next. -/
def next (self : EventLoop σ) : Option (Message × SocketAddr) :=
  if self.dht.running then self.dht.socket.received.head? else none

/-- The call of the throttler for a packet from an address. -/
def call (addr : SocketAddr) (clock : Nat → Instant) : ThrottleCall := { ip := addr.ip, now := clock 0, clock }

/-- Whether the throttler blocks a packet from an address. -/
def blocks (self : EventLoop σ) (addr : SocketAddr) (clock : Nat → Instant) : Bool :=
  match self.throttler.checkThrottle addr.ip none none clock with
  | .ok (throttled, _) => throttled
  | .error _ => true

/-- The calls of the throttler. -/
def throttleCalls (self : EventLoop σ) : EventLoopEvent → List ThrottleCall
  | .accept clock _ _ => (self.next.map (fun p => call p.2 clock)).toList
  | _ => []

/-- What happens to the DHT. -/
def dhtEvents (self : EventLoop σ) : EventLoopEvent → List DHT.Event
  | .dht (.accept _ _ _) => []
  | .dht e => [e]
  | .accept clock now shuffle => (self.next.map (fun p => .accept (self.blocks p.2 clock) now shuffle)).toList
  | _ => []

/-- The messages that the subscribers are told of. -/
def published (env : Env σ) (self : EventLoop σ) : EventLoopEvent → List Message
  | .accept clock now shuffle =>
    match self.next with
    | some (msg, addr) =>
      if reachesSubscribers env self.dht.popReceived msg addr (self.blocks addr clock) now shuffle then [msg] else []
    | none => []
  | _ => []

/-- What happens to a channel. -/
def channelEvents (env : Env σ) (i : ChannelId) (self : EventLoop σ) (e : EventLoopEvent) : List (ChannelEvent DHTEvent) :=
  match e with
  | .recv j => if i = j then [.recv] else []
  | .close j => if i = j then [.close] else []
  | e => (self.published env e).map (fun msg => .offer (eventOf msg))

/-! ## One step -/

/-- The throttler answers a call where the period and the timeout can be added to its time. -/
theorem checkThrottle_ok (self : EventLoop σ) (addr : SocketAddr) {clock : Nat → Instant} (hfits : self.throttler.Fits (clock 0)) :
    self.throttler.checkThrottle addr.ip none none clock =
      .ok (self.blocks addr clock, self.throttler.afterCall (call addr clock)) := by
  have hcall : self.throttler.Fits (call addr clock).now := hfits
  obtain ⟨throttled, throttler, hcheck, -⟩ := Throttler.checkThrottle_ok (by decide : 1 ≤ 32) self.throttler hcall
  have hnone : self.throttler.checkThrottle addr.ip none none clock = .ok (throttled, throttler) := hcheck
  unfold Throttler.afterCall blocks
  rw [hcheck, hnone]

/-- A turn of the loop: the throttler is asked, the DHT handles the message, and the subscribers are told. If the throttler panics, they
are not, and the loop ends. -/
theorem accept_of_next {msg : Message} {addr : SocketAddr} (hnext : self.next = some (msg, addr)) (clock now : Nat → Instant)
    (shuffle : PartialShuffle) : ∃ dht throttler, self.accept env clock now shuffle =
      (if reachesSubscribers env self.dht.popReceived msg addr (self.blocks addr clock) now shuffle then
        ({ self with dht, throttler }).sendPacketToSubscribers msg
      else { self with dht, throttler }) ∧
      (self.throttler.Fits (clock 0) → dht = DHT.step env self.dht (.accept (self.blocks addr clock) now shuffle) ∧
        throttler = self.throttler.afterCall (call addr clock)) := by
  unfold next at hnext
  split at hnext
  · rename_i hrunning
    obtain ⟨rest, hreceived⟩ := List.head?_eq_some_iff.mp hnext
    have hpopped : { self.dht with socket := { self.dht.socket with received := rest } } = self.dht.popReceived := by
      simp [DHT.popReceived, hreceived]
    unfold accept
    rw [hreceived]
    dsimp only
    rw [if_pos hrunning, hpopped]
    cases hcheck : self.throttler.checkThrottle addr.ip none none clock with
    | ok p =>
      have hblocks : self.blocks addr clock = p.1 := by rw [blocks, hcheck]
      refine ⟨DHT.step env self.dht (.accept p.1 now shuffle), p.2, by rw [hblocks], fun hfits => ?_⟩
      obtain ⟨-, hafter⟩ := Prod.mk.inj (Except.ok.inj (hcheck.symm.trans (checkThrottle_ok self addr hfits)))
      exact ⟨by rw [hblocks], hafter⟩
    | error p =>
      have hblocks : self.blocks addr clock = true := by rw [blocks, hcheck]
      refine ⟨{ self.dht with socket := { self.dht.socket with received := rest }, running := false }, self.throttler, ?_, fun hfits => ?_⟩
      · rw [hblocks]
        rfl
      · cases hcheck.symm.trans (checkThrottle_ok self addr hfits)
  · cases hnext

/-- Nothing to take. -/
theorem accept_of_none (hnext : self.next = none) (clock now : Nat → Instant) (shuffle : PartialShuffle) :
    self.accept env clock now shuffle = self := by
  unfold next at hnext
  unfold accept
  split
  · rename_i hreceived
    split at hnext
    · simp [hreceived] at hnext
    · rename_i hrunning
      rw [if_neg hrunning]
  · rfl

/-- The DHT takes the steps that concern it. -/
theorem step_dht (env : Env σ) (self : EventLoop σ) {e : EventLoopEvent} (hfits : e.Fits self.throttler.toThrottlerSettings) :
    (self.step env e).dht = Machine.run (DHT.step env) self.dht (self.dhtEvents e) := by
  cases e with
  | dht e => cases e <;> rfl
  | accept clock now shuffle =>
    unfold dhtEvents step
    dsimp only
    cases hnext : self.next with
    | none => simp [accept_of_none hnext]
    | some p =>
      obtain ⟨dht, throttler, haccept, hboth⟩ := @accept_of_next _ env _ _ _ hnext clock now shuffle
      obtain ⟨rfl, rfl⟩ := hboth hfits
      rw [haccept]
      split <;> rfl
  | subscribe => rfl
  | recv i => rfl
  | close i => rfl

/-- The throttler is called for the messages that are taken. -/
theorem step_throttler (env : Env σ) (self : EventLoop σ) {e : EventLoopEvent} (hfits : e.Fits self.throttler.toThrottlerSettings) :
    (self.step env e).throttler = Machine.run Throttler.afterCall self.throttler (self.throttleCalls e) := by
  cases e with
  | dht e => cases e <;> rfl
  | accept clock now shuffle =>
    unfold throttleCalls step
    dsimp only
    cases hnext : self.next with
    | none => simp [accept_of_none hnext]
    | some p =>
      obtain ⟨dht, throttler, haccept, hboth⟩ := @accept_of_next _ env _ _ _ hnext clock now shuffle
      obtain ⟨rfl, rfl⟩ := hboth hfits
      rw [haccept]
      split <;> rfl
  | subscribe => rfl
  | recv i => rfl
  | close i => rfl

/-- The throttler keeps its settings. -/
theorem step_throttlerSettings (env : Env σ) (self : EventLoop σ) {e : EventLoopEvent} (hfits : e.Fits self.throttler.toThrottlerSettings) :
    (self.step env e).throttler.toThrottlerSettings = self.throttler.toThrottlerSettings := by
  rw [step_throttler env self hfits]
  exact Machine.run_invariant Throttler.afterCall (P := fun t => t.toThrottlerSettings = self.throttler.toThrottlerSettings)
    (fun t c ht => (t.afterCall_settings c).trans ht) _ _ rfl

/-- Every subscriber has a channel of its own, and a channel that is no subscriber's has lost its receiver. -/
structure Wf (loop : EventLoop σ) : Prop where
  nodup : loop.subscribers.Nodup
  lt : ∀ i ∈ loop.subscribers, i < loop.channels.length
  closed : ∀ i < loop.channels.length, i ∉ loop.subscribers → (loop.channel i).closed = true

theorem start_wf (dht : DHT σ) (settings : ThrottleSettings) (now : Instant) : (start dht settings now).Wf where
  nodup := List.nodup_nil
  lt i hi := by simp [start] at hi
  closed i hi := by simp [start] at hi

/-- The subscribers that are told of a message still have channels of their own. -/
theorem Wf.retain (h : self.Wf) (dht : DHT σ) (throttler : Throttler 32) (event : DHTEvent) : Wf {
    dht, throttler
    subscribers := (Vec.retain (Channel.offerTo capacity event) self.subscribers self.channels).1
    channels := (Vec.retain (Channel.offerTo capacity event) self.subscribers self.channels).2 } := by
  obtain ⟨hkept, hlength, hnth⟩ := Channel.retain_offerTo capacity event self.subscribers self.channels h.nodup h.lt
  refine ⟨?_, fun i hi => ?_, fun i hi hnot => ?_⟩
  · simp only [hkept]
    exact h.nodup.filter _
  · simp only [hkept, List.mem_filter] at hi
    simpa only [hlength] using h.lt i hi.1
  · simp only [hlength] at hi
    simp only [hkept, List.mem_filter, not_and, Bool.not_eq_true, Bool.not_eq_false'] at hnot
    simp only [channel, hnth]
    by_cases hmem : i ∈ self.subscribers
    · rw [if_pos hmem, Channel.trySend_of_closed (hnot hmem)]
      exact hnot hmem
    · rw [if_neg hmem]
      exact h.closed i hi hmem

/-- Taking from a channel, or dropping it, leaves the subscribers and their channels together. -/
theorem Wf.set (h : self.Wf) (i : ChannelId) {ch : Channel DHTEvent} (hclosed : (self.channel i).closed = true → ch.closed = true) :
    Wf { self with channels := self.channels.set i ch } where
  nodup := h.nodup
  lt j hj := by simpa using h.lt j hj
  closed j hj hnot := by
    simp only [List.length_set] at hj
    by_cases hji : i = j
    · subst hji
      simp [channel, Channel.nth_set_self hj, hclosed (h.closed i hj hnot)]
    · simp only [channel, Channel.nth_set_of_ne hji]
      exact h.closed j hj hnot

/-- A new subscriber has a channel of its own. -/
theorem Wf.subscribe (h : self.Wf) : self.subscribe.2.Wf where
  nodup := by
    refine List.nodup_append.mpr ⟨h.nodup, List.nodup_singleton _, fun i hi j hj => ?_⟩
    rw [List.mem_singleton.mp hj]
    exact Nat.ne_of_lt (h.lt i hi)
  lt i hi := by
    have hlength : self.subscribe.2.channels.length = self.channels.length + 1 := List.length_append
    rw [hlength]
    rcases List.mem_append.mp hi with hi | hi
    · exact Nat.lt_succ_of_lt (h.lt i hi)
    · rw [List.mem_singleton.mp hi]
      exact Nat.lt_succ_self _
  closed i hi hnot := by
    have hlength : self.subscribe.2.channels.length = self.channels.length + 1 := List.length_append
    rw [hlength] at hi
    have hold : i ∉ self.subscribers := fun hmem => hnot (List.mem_append_left _ hmem)
    have hne : i ≠ self.channels.length := fun hlast => hnot (List.mem_append_right _ (List.mem_singleton.mpr hlast))
    simp only [EventLoop.subscribe, channel, Channel.nth_append_new]
    exact h.closed i (Nat.lt_of_le_of_ne (Nat.le_of_lt_succ hi) hne) hold

/-- Every event keeps the subscribers and their channels together. -/
theorem Wf.step (h : self.Wf) (e : EventLoopEvent) : (self.step env e).Wf := by
  cases e with
  | dht e => cases e <;> exact ⟨h.nodup, h.lt, h.closed⟩
  | accept clock now shuffle =>
    unfold EventLoop.step
    dsimp only
    cases hnext : self.next with
    | none => simpa only [accept_of_none hnext] using h
    | some p =>
      obtain ⟨dht, throttler, haccept, -⟩ := @accept_of_next _ env _ _ _ hnext clock now shuffle
      rw [haccept]
      split
      · exact h.retain _ _ _
      · exact ⟨h.nodup, h.lt, h.closed⟩
  | subscribe => exact h.subscribe
  | recv i => exact h.set i (fun hclosed => by simpa [Channel.recv_closed] using hclosed)
  | close i => exact h.set i (fun _ => rfl)

/-- Each channel takes the steps that concern it. -/
theorem Wf.step_channel (h : self.Wf) (e : EventLoopEvent) (i : ChannelId) (hi : i < self.channels.length) :
    (self.step env e).channel i = Machine.run (Channel.step capacity) (self.channel i) (self.channelEvents env i e) := by
  cases e with
  | dht e => cases e <;> rfl
  | accept clock now shuffle =>
    unfold channelEvents published EventLoop.step
    dsimp only
    cases hnext : self.next with
    | none => simp [accept_of_none hnext]
    | some p =>
      obtain ⟨msg, addr⟩ := p
      obtain ⟨dht, throttler, haccept, -⟩ := @accept_of_next _ env _ _ _ hnext clock now shuffle
      rw [haccept]
      dsimp only
      by_cases hreaches : reachesSubscribers env self.dht.popReceived msg addr (self.blocks addr clock) now shuffle = true
      · obtain ⟨-, -, hnth⟩ := Channel.retain_offerTo capacity (eventOf msg) self.subscribers self.channels h.nodup h.lt
        have hoffered : (Channel.nth (Vec.retain (Channel.offerTo capacity (eventOf msg)) self.subscribers self.channels).2 i) =
            ((self.channel i).trySend capacity (eventOf msg)).2 := by
          rw [hnth]
          split
          · rfl
          · rename_i hnot
            exact (Channel.trySend_of_closed (h.closed i hi hnot) _).symm
        rw [if_pos hreaches, if_pos hreaches]
        exact hoffered
      · rw [if_neg hreaches, if_neg hreaches]
        rfl
  | subscribe => exact Channel.nth_append_new self.channels i
  | recv j =>
    unfold channelEvents
    by_cases hij : i = j
    · subst hij
      simp [EventLoop.step, channel, Channel.nth_set_self hi, Channel.step]
    · simp [EventLoop.step, channel, Channel.nth_set_of_ne (Ne.symm hij), hij]
  | close j =>
    unfold channelEvents
    by_cases hij : i = j
    · subst hij
      simp [EventLoop.step, channel, Channel.nth_set_self hi, Channel.step]
    · simp [EventLoop.step, channel, Channel.nth_set_of_ne (Ne.symm hij), hij]

/-- No channel is ever removed. -/
theorem Wf.length_le (h : self.Wf) (env : Env σ) (e : EventLoopEvent) :
    self.channels.length ≤ (self.step env e).channels.length := by
  cases e with
  | dht e => cases e <;> exact Nat.le_refl _
  | accept clock now shuffle =>
    unfold EventLoop.step
    dsimp only
    cases hnext : self.next with
    | none => simp [accept_of_none hnext]
    | some p =>
      obtain ⟨dht, throttler, haccept, -⟩ := @accept_of_next _ env _ _ _ hnext clock now shuffle
      rw [haccept]
      split
      · exact Nat.le_of_eq (Channel.retain_offerTo capacity (eventOf p.1) self.subscribers self.channels h.nodup h.lt).2.1.symm
      · exact Nat.le_refl _
  | subscribe => simp [EventLoop.step, EventLoop.subscribe]
  | recv i => simp [EventLoop.step]
  | close i => simp [EventLoop.step]

/-! ## Every run -/

/-- Where the times of all events fit, those of every step do. -/
theorem stepsOk_fits (env : Env σ) (self : EventLoop σ) {settings : ThrottlerSettings} {es : List EventLoopEvent}
    (hfits : ∀ e ∈ es, e.Fits settings) : Machine.StepsOk (step env) (fun _ e => e.Fits settings) self es :=
  Machine.stepsOk_of_forall (step env) es self (fun e he _ => hfits e he)

/-- The throttler is called for the messages that are taken. -/
theorem run_throttler (env : Env σ) (self : EventLoop σ) {es : List EventLoopEvent}
    (hfits : ∀ e ∈ es, e.Fits self.throttler.toThrottlerSettings) : (Machine.run (step env) self es).throttler =
      Machine.run Throttler.afterCall self.throttler (Machine.outputs (step env) throttleCalls self es) := by
  refine Machine.run_part_of_stepsOk (step env) (I := fun s => s.throttler.toThrottlerSettings = self.throttler.toThrottlerSettings)
    EventLoop.throttler throttleCalls (fun s e hs hok => ?_) (fun s e hs hok => ?_) es self rfl (stepsOk_fits env self hfits)
  · exact (step_throttlerSettings env s (hs.symm ▸ hok)).trans hs
  · exact step_throttler env s (hs.symm ▸ hok)

/-- The subscribers and their channels are together, and there is a channel with a number. -/
structure HasChannel (i : ChannelId) (loop : EventLoop σ) : Prop where
  wf : loop.Wf
  lt : i < loop.channels.length

theorem HasChannel.step {i : ChannelId} (h : self.HasChannel i) (e : EventLoopEvent) : (self.step env e).HasChannel i :=
  ⟨h.wf.step e, Nat.lt_of_lt_of_le h.lt (h.wf.length_le env e)⟩

theorem HasChannel.run {i : ChannelId} (h : self.HasChannel i) (env : Env σ) (es : List EventLoopEvent) :
    (Machine.run (EventLoop.step env) self es).HasChannel i :=
  Machine.run_invariant (EventLoop.step env) (P := HasChannel i) (fun _ e h => h.step e) es self h

/-- Each channel fares as it would on its own. -/
theorem HasChannel.run_channel {i : ChannelId} (h : self.HasChannel i) (es : List EventLoopEvent) :
    (Machine.run (EventLoop.step env) self es).channel i = Machine.run (Channel.step capacity) (self.channel i)
      (Machine.outputs (EventLoop.step env) (channelEvents env i) self es) :=
  Machine.run_part (EventLoop.step env) (I := HasChannel i) (fun loop => loop.channel i) (channelEvents env i)
    (fun _ e h => h.step e) (fun _ e h => h.wf.step_channel e i h.lt) es self h

end EventLoop

end RustyDht
