import RustyDht.Lemmas.EventLoop
import RustyDht.Theorems.Availability

/-!
# What subscribers are told

Every message that the event loop takes, and that neither the throttler nor its source port keeps out, is offered to every subscriber
once, in the order of receipt; but a request whose reply cannot be queued ends the loop instead. A subscriber that takes its time misses
what comes while its channel is full, and nothing else; no subscriber costs another one anything.
-/

namespace RustyDht

namespace EventLoop

variable {σ : Type} {env : Env σ} {self : EventLoop σ} {settings : DHTSettings} {throttle : ThrottleSettings}

/-- The message that an event takes, unless the throttler blocks it, it comes from port 0, or it is a request with a reply that cannot be
queued because the outgoing task has ended. -/
def passed (env : Env σ) (self : EventLoop σ) : EventLoopEvent → List Message
  | .accept clock now shuffle =>
    match self.next with
    | some (msg, addr) =>
      if self.blocks addr clock || addr.port == 0 ||
        !(self.dht.socket.outgoingUp || (self.dht.replies env false now shuffle).isEmpty) then [] else [msg]
    | none => []
  | _ => []

/-- The loop keeps its DHT steady, and the subscribers with their channels. -/
structure Sound (settings : DHTSettings) (throttle : ThrottleSettings) (loop : EventLoop σ) : Prop
    extends Steady settings throttle loop where
  wf : loop.Wf

theorem Sound.step (h : self.Sound settings throttle) (hworkable : settings.Workable) {e : EventLoopEvent}
    (hfits : e.Fits throttle.throttler) : (self.step env e).Sound settings throttle where
  toSteady := h.toSteady.step hworkable hfits
  wf := h.wf.step e

theorem Sound.subscribe (h : self.Sound settings throttle) : self.subscribe.2.Sound settings throttle where
  toSteady := ⟨h.dht, h.throttler⟩
  wf := h.wf.subscribe

/-- A sound loop stays sound. -/
theorem Sound.run (h : self.Sound settings throttle) (env : Env σ) (hworkable : settings.Workable) {es : List EventLoopEvent}
    (hfits : ∀ e ∈ es, e.Fits throttle.throttler) : (Machine.run (EventLoop.step env) self es).Sound settings throttle :=
  Machine.run_invariant_of_stepsOk (EventLoop.step env) (P := Sound settings throttle) (fun _ _ h hok => h.step hworkable hok) es self h
    (stepsOk_fits env self hfits)

/-- The next message was received by the DHT, whose loop runs. -/
theorem received_of_next {p : Message × SocketAddr} (hnext : self.next = some p) :
    self.dht.running = true ∧ self.dht.socket.received.head? = some p := by
  unfold next at hnext
  split at hnext
  · rename_i hrunning
    exact ⟨hrunning, hnext⟩
  · cases hnext

/-- A sound loop handles a message that is not blocked and has a port, if the outgoing task runs or there is no reply. -/
theorem Sound.handles_iff (h : self.Sound settings throttle) (hworkable : settings.Workable) {msg : Message} {addr : SocketAddr}
    (hnext : self.next = some (msg, addr)) (now : Nat → Instant) (shuffle : PartialShuffle) :
    ((DHT.acceptIncomingPacket env msg addr false now shuffle).run.run self.dht.popReceived).1 = .ok () ↔
      self.dht.socket.outgoingUp = true ∨ self.dht.replies env false now shuffle = [] := by
  obtain ⟨hrunning, hhead⟩ := received_of_next hnext
  have hip := DHT.checkable_of_isIpv4 (h.dht.ipv4.informed.received _ (List.mem_of_head? hhead)).1
  have hpopped : self.dht.popReceived.Alive := ⟨h.dht.alive.running, h.dht.alive.poisoned⟩
  have hsample : ∀ req, self.dht.CanSample req → self.dht.popReceived.CanSample req := by
    intro req hreq
    cases req with
    | sampleInfoHashesRequest arguments => exact hreq
    | _ => exact trivial
  constructor
  · intro hok
    by_contra hno
    obtain ⟨hdown, hreplies⟩ := not_or.mp hno
    obtain ⟨req, htype, hanswers⟩ : ∃ req, msg.messageType = .request req ∧ self.dht.Answers false req addr := by
      by_contra hnot
      refine hreplies (DHT.replies_of_not_answers (fun msg' req addr' hnext' hanswers => ?_) now shuffle)
      obtain ⟨rfl, rfl⟩ := Prod.mk.inj (Option.some.inj (hhead.symm.trans hnext'.head))
      exact hnot ⟨req, hnext'.type, hanswers⟩
    have hanswers' : self.dht.popReceived.Answers false req addr :=
      ⟨⟨hrunning, hpopped.poisoned, rfl, hanswers.port, hanswers.readOnly⟩, hip, hsample req hanswers.canSample⟩
    rw [DHT.run_acceptIncomingPacket_of_answers htype hanswers', DHT.handled_fst_iff, DHT.repliesTo_popReceived] at hok
    rw [DHT.replies_of_answers ⟨hhead, htype⟩ hanswers] at hreplies
    exact hok.elim hdown hreplies
  · intro hsome
    rcases @DHT.Alive.run_acceptIncomingPacket _ env _ hpopped msg addr hip (fun req => hsample req (h.dht.canSample hworkable req)) false
      now shuffle with hrun | ⟨req, htype, -, hport, hreadOnly, hrun⟩
    · rw [hrun]
    · have hanswers : self.dht.Answers false req addr :=
        ⟨⟨hrunning, hpopped.poisoned, rfl, hport, hreadOnly⟩, hip, h.dht.canSample hworkable req⟩
      rw [DHT.replies_of_answers ⟨hhead, htype⟩ hanswers] at hsome
      rw [hrun, DHT.handled_fst_iff, DHT.repliesTo_popReceived]
      exact hsome

/-- A sound loop handles whatever passes, so that the subscribers are told of it. -/
theorem Sound.published_eq (h : self.Sound settings throttle) (hworkable : settings.Workable) (e : EventLoopEvent) :
    self.published env e = self.passed env e := by
  cases e with
  | accept clock now shuffle =>
    unfold published passed
    dsimp only
    cases hnext : self.next with
    | none => rfl
    | some p =>
      obtain ⟨msg, addr⟩ := p
      have hhandles := @Sound.handles_iff _ env _ _ _ h hworkable _ _ hnext now shuffle
      unfold reachesSubscribers
      dsimp only
      cases hblocks : self.blocks addr clock with
      | true => simp
      | false =>
        by_cases hport : addr.port = 0
        · simp [hport]
        · cases hresult : ((DHT.acceptIncomingPacket env msg addr false now shuffle).run.run self.dht.popReceived).1 with
          | ok a =>
            have hsome := hhandles.mp hresult
            simp [hport]
            grind
          | error e =>
            have hnone := mt hhandles.mpr (by rw [hresult]; exact nofun)
            simp [hport]
            grind
  | dht e => rfl
  | subscribe => rfl
  | recv i => rfl
  | close i => rfl

/-- Whenever a message passes, a subscriber's receiver is there, and there is room in its channel. -/
def KeepsUp (env : Env σ) (i : ChannelId) (loop : EventLoop σ) (e : EventLoopEvent) : Prop :=
  loop.passed env e = [] ∨ (loop.channel i).HasRoom capacity

instance (env : Env σ) (i : ChannelId) (loop : EventLoop σ) (e : EventLoopEvent) : Decidable (loop.KeepsUp env i e) :=
  inferInstanceAs (Decidable (_ ∨ _))

/-- What a channel has been sent of the messages that passed. -/
structure Told (ch : Channel DHTEvent) (msgs : List Message) : Prop where
  sent : ch.sent.Sublist (msgs.map eventOf)
  waiting : ch.waiting.length ≤ capacity

/-- What a channel is offered in a run. -/
theorem Sound.offered_channelEvents (h : self.Sound settings throttle) (hworkable : settings.Workable) (i : ChannelId)
    {es : List EventLoopEvent} (hfits : ∀ e ∈ es, e.Fits throttle.throttler) :
    Channel.offered (Machine.outputs (EventLoop.step env) (channelEvents env i) self es) =
      (Machine.outputs (EventLoop.step env) (passed env) self es).map eventOf := by
  induction es generalizing self with
  | nil => rfl
  | cons e es ih =>
    have hpublished : self.published env e = self.passed env e := h.published_eq hworkable e
    have hfirst : Channel.offered (self.channelEvents env i e) = (self.passed env e).map eventOf := by
      cases e with
      | recv j =>
        unfold channelEvents
        dsimp only
        split <;> rfl
      | close j =>
        unfold channelEvents
        dsimp only
        split <;> rfl
      | _ =>
        rw [← hpublished]
        exact Channel.offered_map_offer eventOf _
    have hstep : (self.step env e).Sound settings throttle := h.step hworkable (hfits e List.mem_cons_self)
    have hrest := ih hstep (fun e he => hfits e (List.mem_cons_of_mem _ he))
    rw [Machine.outputs_cons, Machine.outputs_cons, Channel.offered_append, hfirst, hrest, List.map_append]

/-- Where a subscriber keeps up, there is room in its channel whenever something is offered. -/
theorem Sound.stepsOk_channelEvents (h : self.Sound settings throttle) (hworkable : settings.Workable) (i : ChannelId)
    (e : EventLoopEvent) (hkeeps : self.KeepsUp env i e) :
    Machine.StepsOk (Channel.step capacity) (fun ch e => ∀ a, e = .offer a → ch.HasRoom capacity) (self.channel i)
      (self.channelEvents env i e) := by
  have hpublished : self.published env e = self.passed env e := h.published_eq hworkable e
  have hoffer : Machine.StepsOk (Channel.step capacity) (fun ch e => ∀ a, e = .offer a → ch.HasRoom capacity) (self.channel i)
      ((self.published env e).map (fun msg => .offer (eventOf msg))) := by
    have hone : (self.passed env e).length ≤ 1 := by
      cases e with
      | accept clock now shuffle =>
        unfold passed
        dsimp only
        split
        · split <;> simp
        · simp
      | _ => simp [passed]
    rw [hpublished]
    rcases hmsgs : self.passed env e with _ | ⟨msg, rest⟩
    · exact trivial
    · rw [hmsgs] at hone
      obtain rfl : rest = [] := by simpa using hone
      rcases hkeeps with hnone | hroom
      · simp [hmsgs] at hnone
      · exact ⟨fun _ _ => hroom, trivial⟩
  cases e with
  | recv j =>
    unfold channelEvents
    dsimp only
    split
    · exact ⟨fun a ha => (by cases ha), trivial⟩
    · exact trivial
  | close j =>
    unfold channelEvents
    dsimp only
    split
    · exact ⟨fun a ha => (by cases ha), trivial⟩
    · exact trivial
  | dht e => exact hoffer
  | accept clock now shuffle => exact hoffer
  | subscribe => exact hoffer

/-- In every run of a new DHT's event loop, whatever else is subscribed, taken or dropped: a subscriber is sent messages that passed since
it subscribed, each once and in order, and no more than 32 wait for it; if it keeps up it is sent all of them; and it stays among the
subscribers for as long as its receiver is there. -/
theorem run_told (env : Env σ) (hworkable : settings.Workable) {id : Option Id} {ip4Source : σ} {buckets : NodeBucketStorage}
    {rng secretRng : Nat → UInt8} {random : Id} {dht : DHT σ}
    (hnew : DHT.new env id ip4Source buckets settings rng secretRng random = .ok dht) (throttle : ThrottleSettings) (now : Instant)
    {before after : List EventLoopEvent} (hbefore : ∀ e ∈ before, e.Fits throttle.throttler)
    (hafter : ∀ e ∈ after, e.Fits throttle.throttler) {loop final : EventLoop σ}
    (hloop : Machine.run (step env) (start dht throttle now) before = loop)
    (hfinal : Machine.run (step env) loop.subscribe.2 after = final) :
    Told (final.channel loop.subscribe.1) (Machine.outputs (step env) (passed env) loop.subscribe.2 after) ∧
      (Machine.StepsOk (step env) (KeepsUp env loop.subscribe.1) loop.subscribe.2 after →
        (final.channel loop.subscribe.1).sent = (Machine.outputs (step env) (passed env) loop.subscribe.2 after).map eventOf) ∧
      ((final.channel loop.subscribe.1).closed = false → loop.subscribe.1 ∈ final.subscribers) := by
  have hstart : (start dht throttle now).Sound settings throttle := ⟨start_steady hnew now, start_wf dht throttle now⟩
  have hsound : loop.subscribe.2.Sound settings throttle := (hloop ▸ hstart.run env hworkable hbefore).subscribe
  have hthere : loop.subscribe.2.HasChannel loop.subscribe.1 := ⟨hsound.wf, by simp [subscribe]⟩
  have hempty : loop.subscribe.2.channel loop.subscribe.1 = .new := by
    simp [subscribe, channel, Channel.nth, List.getD_eq_getElem?_getD]
  have hchannel : final.channel loop.subscribe.1 = Machine.run (Channel.step capacity) .new
      (Machine.outputs (step env) (channelEvents env loop.subscribe.1) loop.subscribe.2 after) := by
    rw [← hfinal, ← hempty]
    exact hthere.run_channel after
  have hoffered : Channel.offered (Machine.outputs (step env) (channelEvents env loop.subscribe.1) loop.subscribe.2 after) =
      (Machine.outputs (step env) (passed env) loop.subscribe.2 after).map eventOf := hsound.offered_channelEvents hworkable _ hafter
  refine ⟨?_, fun hkeeps => ?_, fun hopen => ?_⟩
  · obtain ⟨l, hsent, hsub⟩ :=
      Channel.run_sent (Machine.outputs (step env) (channelEvents env loop.subscribe.1) loop.subscribe.2 after) .new
    rw [hoffered] at hsub
    rw [hchannel]
    exact ⟨hsent ▸ hsub, (Channel.run_wf _ (Channel.new_wf capacity)).waiting⟩
  · have hrooms := Machine.stepsOk_part (step env) (I := fun s => Sound settings throttle s ∧ HasChannel loop.subscribe.1 s)
      (fun s => s.channel loop.subscribe.1) (channelEvents env loop.subscribe.1)
      (fun _ e h hok => ⟨h.1.step hworkable hok.1, h.2.step e⟩) (fun _ e h _ => h.2.wf.step_channel e _ h.2.lt)
      (fun _ e h hok => h.1.stepsOk_channelEvents hworkable _ e hok.2) after _ ⟨hsound, hthere⟩
      (Machine.stepsOk_and (step env) after _ (stepsOk_fits env _ hafter) hkeeps)
    rw [hempty] at hrooms
    rw [hchannel, Channel.run_sent_of_hasRoom _ _ hrooms, hoffered]
    rfl
  · have hfinally := hthere.run env after
    rw [hfinal] at hfinally
    by_contra hnot
    rw [hfinally.wf.closed _ hfinally.lt hnot] at hopen
    cases hopen

/-- A DHT with the default settings begins to accept packets. -/
def sampleLoop : EventLoop Ipv4Addr := start DHT.sampleDht .default 0

/-- It receives a request, and the first subscriber takes the event that tells of it. -/
def sampleReceived : List EventLoopEvent :=
  [.dht (.packet DHT.samplePeersPacket ⟨127, 0, 0, 1⟩ 6881), .accept DHT.sampleClock DHT.sampleClock DHT.sampleShuffle, .recv 0]

/-- A subscriber that keeps up is told of the request. -/
theorem run_told_one_request :
    Told ((Machine.run (step DHT.sampleEnv) sampleLoop.subscribe.2 sampleReceived).channel 0)
        (Machine.outputs (step DHT.sampleEnv) (passed DHT.sampleEnv) sampleLoop.subscribe.2 sampleReceived) ∧
      ((Machine.run (step DHT.sampleEnv) sampleLoop.subscribe.2 sampleReceived).channel 0).sent = [eventOf DHT.samplePeersRequest] ∧
      0 ∈ (Machine.run (step DHT.sampleEnv) sampleLoop.subscribe.2 sampleReceived).subscribers := by
  have hworkable : DHTSettings.default.Workable := ⟨by decide, by decide, by decide⟩
  have hfits : ∀ e ∈ sampleReceived, e.Fits ThrottleSettings.default.throttler := by
    simp only [sampleReceived, List.forall_mem_cons, List.not_mem_nil, false_implies, implies_true, and_true]
    exact ⟨trivial, ⟨by decide, by decide⟩, trivial⟩
  have hloop : Machine.run (step DHT.sampleEnv) (start DHT.sampleDht .default 0) [] = sampleLoop := rfl
  have hfinal : Machine.run (step DHT.sampleEnv) sampleLoop.subscribe.2 sampleReceived = _ := rfl
  obtain ⟨htold, hall, hstays⟩ := run_told DHT.sampleEnv hworkable DHT.sampleDht_new .default 0 (fun _ he => absurd he List.not_mem_nil)
    hfits hloop hfinal
  refine ⟨htold, ?_, hstays (by decide +kernel)⟩
  rw [show (0 : ChannelId) = sampleLoop.subscribe.1 from rfl, hall (by decide +kernel)]
  decide +kernel

end EventLoop

end RustyDht
