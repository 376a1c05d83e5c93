import RustyDht.Theorems.Subscribers
import RustyDht.Theorems.WellBehaved
import Mathlib.Data.List.Forall2

/-!
# Who behaves is answered

A DHT with a throttler before it answers every request of an address that stays within the limit in every window of the period, whatever
other addresses send in between and whatever else happens. Only an announce with a token that we did not give is left without a reply.
-/

namespace RustyDht

/-! ## The throttler -/

namespace Throttler

/-- What a throttler answers to a call after others. -/
theorem answers_append_singleton (call : ThrottleCall) (calls : List ThrottleCall) : ∀ self : Throttler 32,
    (∀ c ∈ calls ++ [call], self.Fits c.now) →
    ∃ answers throttled throttler, self.answers (calls ++ [call]) = .ok (answers ++ [throttled]) ∧ answers.length = calls.length ∧
      (Machine.run afterCall self calls).checkThrottle call.ip (some call.now) none call.clock = .ok (throttled, throttler) := by
  induction calls with
  | nil =>
    intro self hfits
    obtain ⟨throttled, throttler, hcheck, -⟩ := checkThrottle_ok (by decide) self (hfits call List.mem_cons_self)
    exact ⟨[], throttled, throttler, answers_cons hcheck [], rfl, hcheck⟩
  | cons first calls ih =>
    intro self hfits
    obtain ⟨blocked, self', hcheck, hsame, -⟩ := checkThrottle_ok (by decide) self (hfits first List.mem_cons_self)
    have hafter : self.afterCall first = self' := by
      unfold afterCall
      rw [hcheck]
    obtain ⟨answers, throttled, throttler, hanswers, hlength, hlast⟩ := ih self' (fun c hc => hsame ▸ hfits c (List.mem_cons_of_mem _ hc))
    refine ⟨blocked :: answers, throttled, throttler, ?_, by simp [hlength], ?_⟩
    · rw [List.cons_append, answers_cons hcheck, hanswers]
      rfl
    · rw [Machine.run_cons, hafter]
      exact hlast

/-- A throttler that never blocks an address does not block it after other calls. -/
theorem NeverBlocks.last {self : Throttler 32} {calls : List ThrottleCall} {call : ThrottleCall}
    (h : self.NeverBlocks call.ip (calls ++ [call])) (hfits : ∀ c ∈ calls ++ [call], self.Fits c.now) :
    ∃ throttler, (Machine.run afterCall self calls).checkThrottle call.ip (some call.now) none call.clock = .ok (false, throttler) := by
  obtain ⟨answers, throttled, throttler, hanswers, hlength, hlast⟩ := answers_append_singleton call calls self hfits
  obtain ⟨answers', hanswers', hall⟩ := h
  obtain rfl : answers ++ [throttled] = answers' := Except.ok.inj (hanswers.symm.trans hanswers')
  have hreverse := List.forall₂_reverse_iff.mpr hall
  simp only [List.reverse_append, List.reverse_singleton, List.singleton_append, List.forall₂_cons] at hreverse
  rw [hreverse.1 trivial] at hlast
  exact ⟨throttler, hlast⟩

end Throttler

/-! ## The event loop -/

namespace EventLoop

open DHT

variable {σ : Type} {env : Env σ} {settings : DHTSettings} {throttle : ThrottleSettings} {loop : EventLoop σ} {msg : Message}
  {req : RequestSpecific} {addr : SocketAddr}

/-- What the throttler is asked in a run has times to which the period and the timeout can be added. -/
theorem fits_throttleCalls (env : Env σ) {settings : ThrottlerSettings} (es : List EventLoopEvent) : ∀ self : EventLoop σ,
    (∀ e ∈ es, e.Fits settings) → ∀ c ∈ Machine.outputs (step env) throttleCalls self es, settings.Fits c.now := by
  induction es with
  | nil => exact fun _ _ c hc => absurd hc List.not_mem_nil
  | cons e es ih =>
    intro self hfits c hc
    rcases List.mem_append.mp hc with hc | hc
    · have he := hfits e List.mem_cons_self
      cases e with
      | accept clock now shuffle =>
        obtain ⟨p, -, rfl⟩ := Option.map_eq_some_iff.mp (Option.mem_toList.mp hc)
        exact he
      | _ => exact absurd hc List.not_mem_nil
    · exact ih _ (fun e he => hfits e (List.mem_cons_of_mem _ he)) c hc

/-- A steady DHT whose outgoing task runs answers a request that passes, unless it is an announce with a token that it did not give. -/
theorem Sound.answers_iff (h : loop.Sound settings throttle) (hworkable : settings.Workable) (hreadOnly : settings.readOnly = false)
    (hup : loop.dht.socket.outgoingUp = true) (hnext : loop.dht.NextRequest msg req addr) (hport : addr.port ≠ 0) (now : Nat → Instant)
    (shuffle : PartialShuffle) :
    (∃ res, responseMatchesRequest res req = true ∧
        (DHT.step env loop.dht (.accept false now shuffle)).socket.toSend = loop.dht.socket.toSend ++ [(replyTo msg addr res, addr)]) ↔
      ∀ arguments, req = .announcePeerRequest arguments → TokenValid env loop.dht arguments addr := by
  have haddr := (h.dht.ipv4.informed.received _ (List.mem_of_head? hnext.head)).1
  have hanswers : loop.dht.Answers false req addr := {
    running := h.dht.alive.running hup, poisoned := h.dht.alive.poisoned, throttled := rfl, port := hport
    readOnly := by rw [h.dht.settings, hreadOnly]
    checkable := checkable_of_isIpv4 haddr
    canSample := h.dht.canSample hworkable req }
  have hsends : (DHT.step env loop.dht (.accept false now shuffle)).socket.toSend =
      loop.dht.socket.toSend ++ loop.dht.repliesTo env msg req addr now shuffle := by
    rw [step_toSend env loop.dht (fun _ he => by cases he), sends, if_pos hup]
    exact congrArg (loop.dht.socket.toSend ++ ·) (replies_of_answers hnext hanswers now shuffle)
  have hsome := answer_isSome_iff env (loop.dht.seen env msg addr req.requesterId (now 0)) req addr (now 1) shuffle
  rw [hsends]
  unfold repliesTo
  cases hanswer : ((loop.dht.seen env msg addr req.requesterId (now 0)).answer env req addr (now 1) shuffle).1 with
  | none =>
    rw [hanswer] at hsome
    constructor
    · rintro ⟨res, -, hsame⟩
      simp at hsame
    · intro htoken
      exact absurd (hsome.mpr htoken) Bool.false_ne_true
  | some res =>
    rw [hanswer] at hsome
    exact ⟨fun _ => hsome.mp rfl, fun _ => ⟨res, (h.dht.ipv4.suits hnext hanswer).1.kind, rfl⟩⟩

/-- In every run of a new DHT's event loop, a request from an address that has stayed within the limit in every window of the period passes
the throttler; while the outgoing task runs the subscribers are offered it, and it is replied to, by a response of its kind, exactly where
it is no announce with a token that the DHT did not give. -/
theorem run_answers_wellBehaved (env : Env σ) (hworkable : settings.Workable) (hreadOnly : settings.readOnly = false) {id : Option Id}
    {ip4Source : σ} {buckets : NodeBucketStorage} {rng secretRng : Nat → UInt8} {random : Id} {dht : DHT σ}
    (hnew : DHT.new env id ip4Source buckets settings rng secretRng random = .ok dht) {throttle : ThrottleSettings}
    (hthrottle : 1 ≤ throttle.throttlePacketCount ∨ 0 < throttle.throttler.period) {began : Instant} {before : List EventLoopEvent}
    (hbefore : ∀ e ∈ before, e.Fits throttle.throttler)
    (hloop : Machine.run (step env) (start dht throttle began) before = loop) (hnext : loop.dht.NextRequest msg req addr)
    (hport : addr.port ≠ 0) (hup : loop.dht.socket.outgoingUp = true) {calls : List ThrottleCall} {clock : Nat → Instant}
    (hfits : throttle.throttler.Fits (clock 0))
    (hcalls : Machine.outputs (step env) throttleCalls (start dht throttle began) before ++ [call addr clock] = calls)
    (hmono : NonDecreasing calls) (hclock : addr.ip = blankIp → ClockKeepsUp throttle.throttler.period began calls)
    (hbehaved : WellBehaved throttle.throttler addr.ip calls) (now : Nat → Instant) (shuffle : PartialShuffle) :
    loop.passed env (.accept clock now shuffle) = [msg] ∧
      ((∃ res, responseMatchesRequest res req = true ∧ (loop.step env (.accept clock now shuffle)).dht.socket.toSend =
          loop.dht.socket.toSend ++ [(replyTo msg addr res, addr)]) ↔
        ∀ arguments, req = .announcePeerRequest arguments → TokenValid env loop.dht arguments addr) := by
  have hstart : (start dht throttle began).Sound settings throttle := ⟨start_steady hnew began, start_wf dht throttle began⟩
  have hsound : loop.Sound settings throttle := hloop ▸ hstart.run env hworkable hbefore
  have htaken : loop.next = some (msg, addr) := by
    unfold next
    rw [if_pos (hsound.dht.alive.running hup)]
    exact hnext.head
  have hpasses : loop.blocks addr clock = false := by
    have hfitsAll : ∀ c ∈ Machine.outputs (step env) throttleCalls (start dht throttle began) before ++ [call addr clock],
        (Throttler.new 32 throttle.throttler began).Fits c.now := by
      intro c hc
      rcases List.mem_append.mp hc with hc | hc
      · exact fits_throttleCalls env before _ hbefore c hc
      · rw [List.mem_singleton.mp hc]
        exact hfits
    have hnever := Throttler.new_neverThrottles (n := 32) (by decide) hthrottle (hcalls ▸ hmono) (hcalls ▸ hclock) (hcalls ▸ hbehaved)
    obtain ⟨throttler, hcheck⟩ := (hnever.neverBlocks (by decide) _ _ hfitsAll).last hfitsAll
    have hthrottler : loop.throttler = Machine.run Throttler.afterCall (.new 32 throttle.throttler began)
        (Machine.outputs (step env) throttleCalls (start dht throttle began) before) := by
      rw [← hloop]
      exact run_throttler env _ hbefore
    rw [← hthrottler] at hcheck
    have hblocks := (checkThrottle_ok loop addr (hsound.throttler ▸ hfits)).symm.trans hcheck
    exact (Prod.mk.inj (Except.ok.inj hblocks)).1
  constructor
  · unfold passed
    simp [htaken, hpasses, hport, hup]
  · have hstep : (loop.step env (.accept clock now shuffle)).dht = DHT.step env loop.dht (.accept false now shuffle) := by
      have hfitsNow : (EventLoopEvent.accept clock now shuffle).Fits loop.throttler.toThrottlerSettings := hsound.throttler ▸ hfits
      rw [step_dht env loop hfitsNow]
      simp [dhtEvents, htaken, hpasses]
    rw [hstep]
    exact hsound.answers_iff hworkable hreadOnly hup hnext hport now shuffle

/-- The loop, when it has been asked for peers. -/
def sampleAskedLoop : EventLoop Ipv4Addr :=
  Machine.run (step DHT.sampleEnv) sampleLoop [.dht (.packet DHT.samplePeersPacket ⟨127, 0, 0, 1⟩ 6881)]

/-- The first request of an address. -/
theorem run_answers_wellBehaved_first :
    sampleAskedLoop.passed DHT.sampleEnv (.accept DHT.sampleClock DHT.sampleClock DHT.sampleShuffle) = [DHT.samplePeersRequest] ∧
      ((∃ res, responseMatchesRequest res (.getPeersRequest DHT.samplePeersArguments) = true ∧
          (sampleAskedLoop.step DHT.sampleEnv (.accept DHT.sampleClock DHT.sampleClock DHT.sampleShuffle)).dht.socket.toSend =
            sampleAskedLoop.dht.socket.toSend ++ [(replyTo DHT.samplePeersRequest (.v4 ⟨127, 0, 0, 1⟩ 6881) res, .v4 ⟨127, 0, 0, 1⟩ 6881)]) ↔
        ∀ arguments, RequestSpecific.getPeersRequest DHT.samplePeersArguments = .announcePeerRequest arguments →
          TokenValid DHT.sampleEnv sampleAskedLoop.dht arguments (.v4 ⟨127, 0, 0, 1⟩ 6881)) := by
  have hworkable : DHTSettings.default.Workable := ⟨by decide, by decide, by decide⟩
  have hbefore : ∀ e ∈ [EventLoopEvent.dht (.packet DHT.samplePeersPacket ⟨127, 0, 0, 1⟩ 6881)],
      e.Fits ThrottleSettings.default.throttler := by
    intro e he
    rw [List.mem_singleton.mp he]
    exact trivial
  have hloop : Machine.run (step DHT.sampleEnv) (start DHT.sampleDht .default 0)
      [.dht (.packet DHT.samplePeersPacket ⟨127, 0, 0, 1⟩ 6881)] = sampleAskedLoop := rfl
  have hcalls : Machine.outputs (step DHT.sampleEnv) throttleCalls (start DHT.sampleDht .default 0)
      [.dht (.packet DHT.samplePeersPacket ⟨127, 0, 0, 1⟩ 6881)] ++ [call (.v4 ⟨127, 0, 0, 1⟩ 6881) DHT.sampleClock] =
        [call (.v4 ⟨127, 0, 0, 1⟩ 6881) DHT.sampleClock] := rfl
  have hnext : sampleAskedLoop.dht.NextRequest DHT.samplePeersRequest (.getPeersRequest DHT.samplePeersArguments)
      (.v4 ⟨127, 0, 0, 1⟩ 6881) := ⟨by decide +kernel, rfl⟩
  refine run_answers_wellBehaved DHT.sampleEnv hworkable rfl DHT.sampleDht_new (.inl (by decide)) hbefore hloop hnext (by decide)
    (by decide +kernel) ⟨by decide, by decide⟩ hcalls ?_ (fun _ => ⟨?_, ?_⟩) (fun since => ?_) _ _
  · simp [NonDecreasing]
  · simp
  · simp
  · refine Nat.le_trans List.countP_le_length ?_
    decide

end EventLoop

end RustyDht
