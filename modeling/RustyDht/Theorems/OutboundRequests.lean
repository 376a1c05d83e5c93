import RustyDht.Lemmas.Socket

/-!
# Outbound requests

What the socket does with responses, over every interleaving of sends, packets and cleanup ticks. Only solicited responses get
through, and each request is answered at most once. No outstanding request is lost as long as no request is sent under a transaction
id that another request, not yet too old, is stored under: the storage keys requests by transaction id alone, and the later of two
such requests replaces the earlier.
-/

namespace RustyDht

open Bencode (Codec)

namespace SocketHistory

/-! ## Only solicited responses -/

/-- The responses on the general channel, and those on the response channels, are the matches; a match is of a request stored
before, by a response that answers it from where it was sent; a request is matched at most once, so that a channel has at most
one message; and a response that answers no request in the storage leaves the socket as it was. -/
def ResponsesSolicited (codec : Codec) (s : SocketHistory) : Prop :=
  s.socket.received.filter (·.1.isResponse) = s.matched.map (fun x => (x.response, x.source)) ∧
  (∀ ch, s.socket.channel ch = (s.matched.filter (fun x => x.request.responseChannel = some ch)).map (·.response)) ∧
  (∀ x ∈ s.matched, x.request ∈ s.stored ∧ x.request.AnsweredBy x.response x.source) ∧
  (s.matched.map (·.request)).Nodup ∧
  (∀ ch, (s.socket.channel ch).length ≤ 1) ∧
  ∀ buf m sender, Message.fromBytes codec buf = .ok m → m.isResponse = true →
    (∀ tid r, s.socket.requestStorage.requests tid = some r → ¬r.AnsweredBy m sender) →
      s.socket.backgroundIoIncoming codec buf sender = s.socket

/-- At most one match is of a request with a given channel. -/
theorem Wf.matched_channel_length {s : SocketHistory} (h : s.Wf) (ch : ChannelId) :
    (s.matched.filter (fun x => x.request.responseChannel = some ch)).length ≤ 1 := by
  have hinj : ∀ r ∈ s.stored, ∀ r' ∈ s.stored, r.responseChannel = r'.responseChannel → r = r' :=
    fun r hr r' hr' he => List.inj_on_of_nodup_map h.distinct hr hr' he
  have hnodup : ((s.matched.filter (fun x => x.request.responseChannel = some ch)).map (·.request)).Nodup :=
    h.once.sublist (List.filter_sublist.map _)
  rcases hl : s.matched.filter (fun x => x.request.responseChannel = some ch) with _ | ⟨x, _ | ⟨y, rest⟩⟩
  · rw [hl]
    exact Nat.zero_le 1
  · rw [hl]
    exact Nat.le_refl 1
  · have hmem : ∀ z ∈ x :: y :: rest, z.request ∈ s.stored ∧ z.request.responseChannel = some ch := by
      intro z hz
      rw [← hl, List.mem_filter, decide_eq_true_eq] at hz
      exact ⟨(h.answered z hz.1).1, hz.2⟩
    obtain ⟨hx, hxch⟩ := hmem x List.mem_cons_self
    obtain ⟨hy, hych⟩ := hmem y (List.mem_cons_of_mem x List.mem_cons_self)
    rw [hl, List.map_cons, List.map_cons, List.nodup_cons] at hnodup
    exact absurd (List.mem_cons.mpr (Or.inl (hinj _ hx _ hy (hxch.trans hych.symm)))) hnodup.1

/-- In every state of every run, only solicited responses have got through, each request has been answered at most once, and a
response that answers nothing changes nothing. -/
theorem run_responsesSolicited (codec : Codec) (now : Instant) (es : List (Duration × SocketEvent)) :
    ResponsesSolicited codec (Machine.run (SocketHistory.step codec) (new now) es) := by
  have h := run_wf codec now es
  generalize Machine.run (SocketHistory.step codec) (new now) es = s at h
  refine ⟨h.general, h.channels, h.answered, h.once, ?_, ?_⟩
  · intro ch
    rw [h.channels ch, List.length_map]
    exact h.matched_channel_length ch
  · intro buf m sender hparse hm hnone
    rcases DHTSocket.backgroundIoIncoming_cases codec h.up buf sender h.key with
      ⟨⟨text, hparse'⟩, -⟩ | ⟨m', hparse', ⟨hm', -⟩ | ⟨-, -, hs⟩ | ⟨r, -, hmatch, -⟩⟩
    · exact nomatch hparse.symm.trans hparse'
    · obtain rfl := Except.ok.inj (hparse.symm.trans hparse')
      exact absurd hm (by rw [hm']; exact Bool.false_ne_true)
    · exact hs
    · obtain rfl := Except.ok.inj (hparse.symm.trans hparse')
      obtain ⟨hst, hanswered⟩ := (OutboundRequestStorage.getMatchingRequestInfo_eq_some_iff h.key).mp hmatch
      exact absurd hanswered (hnone _ r hst)

/-! ## No outstanding request is lost -/

/-- A request that was stored, was matched by no response, and is not older than what the cleanup prunes. -/
def Outstanding (s : SocketHistory) (now : Instant) (r : RequestInfo) : Prop :=
  r ∈ s.stored ∧ r ∉ s.matched.map (·.request) ∧ now ≤ r.createdAt + DHTSocket.pruneAge

/-- An outstanding request is in the storage, and a response that answers it is matched to it and is what its channel gets. -/
def NoRequestLost (codec : Codec) (s : SocketHistory) : Prop :=
  ∀ r elapsed, s.Outstanding (s.clock + elapsed) r →
    s.socket.requestStorage.requests (.from r.packet.transactionId) = some r ∧
    ∀ buf m sender, Message.fromBytes codec buf = .ok m → r.AnsweredBy m sender →
      (s.step codec (elapsed, .packet buf sender)).matched = s.matched ++ [⟨r, m, sender⟩] ∧
      ∃ ch, r.responseChannel = some ch ∧ (s.step codec (elapsed, .packet buf sender)).socket.channel ch = [m]

/-- The condition on an event: a request is sent under a transaction id that no stored request has, unless it is older than what the
cleanup prunes. -/
def FreshTransactionId (s : SocketHistory) : Duration × SocketEvent → Prop
  | (elapsed, .sendTo toSend _ _) => ∀ req, toSend.messageType = .request req →
    ∀ r, s.socket.requestStorage.requests (.from toSend.transactionId) = some r →
      r.createdAt + DHTSocket.pruneAge < s.clock + elapsed
  | _ => True

/-- The outstanding requests are in the storage. -/
def Kept (s : SocketHistory) : Prop :=
  ∀ r, s.Outstanding s.clock r → s.socket.requestStorage.requests (.from r.packet.transactionId) = some r

/-- An event that meets the condition keeps the outstanding requests in the storage. -/
theorem Wf.step_kept {s : SocketHistory} (codec : Codec) (h : s.Wf) (hkept : s.Kept) (e : Duration × SocketEvent)
    (hok : FreshTransactionId s e) : (s.step codec e).Kept := by
  obtain ⟨elapsed, e⟩ := e
  -- What is outstanding later was outstanding before, if it was stored and its match is not new.
  have hearlier : ∀ r, r ∈ s.stored → r ∉ s.matched.map (·.request) →
      s.clock + elapsed ≤ r.createdAt + DHTSocket.pruneAge →
      s.socket.requestStorage.requests (.from r.packet.transactionId) = some r :=
    fun r h1 h2 h3 => hkept r ⟨h1, h2, Nat.le_trans (Nat.le_add_right _ _) h3⟩
  rcases h.step_cases codec elapsed e with
    ⟨toSend, req, dest, destId, rfl, htype, hs⟩ | ⟨toSend, hs⟩ | ⟨m, sender, hm, hs⟩ | ⟨buf, m, sender, r₀, rfl, hm, hmatch, hs⟩ |
      hs
  · rw [hs]
    rintro r ⟨hr, hunmatched, hage⟩
    simp only [DHTSocket.sendTo_of_request _ htype, OutboundRequestStorage.addRequest, DHTSocket.newRequestInfo, Function.update_apply]
    rcases List.mem_append.mp hr with hr | hr
    · have hst := hearlier r hr hunmatched hage
      rw [if_neg, hst]
      intro heq
      rw [heq] at hst
      exact absurd (hok req htype r hst) (Nat.not_lt.mpr hage)
    · rw [List.mem_singleton.mp hr]
      exact if_pos rfl
  · rw [hs]
    exact fun r hr => hearlier r hr.1 hr.2.1 hr.2.2
  · rw [hs]
    exact fun r hr => hearlier r hr.1 hr.2.1 hr.2.2
  · rw [hs]
    rintro r ⟨hr, hunmatched, hage⟩
    rw [List.map_append, List.map_singleton, List.mem_append, not_or, List.mem_singleton] at hunmatched
    have hst := hearlier r hr hunmatched.1 hage
    obtain ⟨hst₀, -⟩ := (OutboundRequestStorage.getMatchingRequestInfo_eq_some_iff h.key).mp hmatch
    simp only [Function.update_apply]
    rw [if_neg, hst]
    intro heq
    rw [heq, hst₀] at hst
    exact hunmatched.2 (Option.some.inj hst).symm
  · rw [hs]
    rintro r ⟨hr, hunmatched, hage⟩
    exact OutboundRequestStorage.pruneOlderThan_of_young (hearlier r hr hunmatched hage) hage

/-- Where the outstanding requests are in the storage, none is lost. -/
theorem Wf.noRequestLost {s : SocketHistory} (codec : Codec) (h : s.Wf) (hkept : s.Kept) : s.NoRequestLost codec := by
  rintro r elapsed ⟨hr, hunmatched, hage⟩
  have hst := hkept r ⟨hr, hunmatched, Nat.le_trans (Nat.le_add_right _ _) hage⟩
  refine ⟨hst, fun buf m sender hparse hanswered => ?_⟩
  have hmatch := (OutboundRequestStorage.getMatchingRequestInfo_eq_some_iff h.key).mpr ⟨hst, hanswered⟩
  have hmatched : (s.step codec (elapsed, .packet buf sender)).matched = s.matched ++ [⟨r, m, sender⟩] := by
    simp only [SocketHistory.step, SocketEvent.matches, hparse, hmatch, Option.map_some, Option.toList_some]
  obtain ⟨ch, -, hch⟩ := (h.request r hr).2
  refine ⟨hmatched, ch, hch, ?_⟩
  have hnone : s.matched.filter (fun x => x.request.responseChannel = some ch) = [] := by
    rw [List.filter_eq_nil_iff]
    intro x hx he
    rw [decide_eq_true_eq] at he
    have : x.request = r := List.inj_on_of_nodup_map h.distinct (h.answered x hx).1 hr (he.trans hch.symm)
    exact hunmatched (List.mem_map.mpr ⟨x, hx, this⟩)
  rw [(h.step codec (elapsed, .packet buf sender)).channels ch, hmatched, List.filter_append, hnone]
  simp only [List.nil_append, List.filter_singleton, hch, decide_true, cond_true, List.map_singleton]

/-- In every state of a run that never sends a request under the transaction id of a stored one that is not too old, no outstanding
request is lost. -/
theorem run_noRequestLost (codec : Codec) (now : Instant) (es : List (Duration × SocketEvent))
    (hok : Machine.StepsOk (SocketHistory.step codec) FreshTransactionId (new now) es) :
    NoRequestLost codec (Machine.run (SocketHistory.step codec) (new now) es) := by
  have hstep : ∀ (s : SocketHistory) (e : Duration × SocketEvent), s.Wf ∧ s.Kept → FreshTransactionId s e →
      (s.step codec e).Wf ∧ (s.step codec e).Kept :=
    fun s e hs hok => ⟨hs.1.step codec e, hs.1.step_kept codec hs.2 e hok⟩
  have h := Machine.run_invariant_of_stepsOk (SocketHistory.step codec) hstep es (new now)
    ⟨new_wf now, fun r hr => absurd hr.1 List.not_mem_nil⟩ hok
  exact h.1.noRequestLost codec h.2

/-- Two pings with different transaction ids, to two nodes. -/
theorem run_noRequestLost_two_pings :
    NoRequestLost Bencode.codec (Machine.run (SocketHistory.step Bencode.codec) (new 0)
      [(0, .sendTo ⟨[0, 0], none, none, .request (.pingRequest ⟨Id.zero⟩), none⟩ (.v4 ⟨1, 2, 3, 4⟩ 6881) none),
        (5, .sendTo ⟨[0, 1], none, none, .request (.pingRequest ⟨Id.zero⟩), none⟩ (.v4 ⟨5, 6, 7, 8⟩ 6881) none)]) := by
  refine run_noRequestLost Bencode.codec 0 _ ⟨?_, ?_, trivial⟩
  · intro req _ r hr
    exact nomatch hr
  · intro req _ r hr
    exact nomatch hr

/-- Two pings with one transaction id, to two nodes: the first is lost. -/
theorem not_noRequestLost_same_transaction_id :
    ¬NoRequestLost Bencode.codec (Machine.run (SocketHistory.step Bencode.codec) (new 0)
      [(0, .sendTo ⟨[0, 0], none, none, .request (.pingRequest ⟨Id.zero⟩), none⟩ (.v4 ⟨1, 2, 3, 4⟩ 6881) none),
        (5, .sendTo ⟨[0, 0], none, none, .request (.pingRequest ⟨Id.zero⟩), none⟩ (.v4 ⟨5, 6, 7, 8⟩ 6881) none)]) := by
  intro h
  have hst := (h ⟨.v4 ⟨1, 2, 3, 4⟩ 6881, none, ⟨[0, 0], none, none, .request (.pingRequest ⟨Id.zero⟩), none⟩, 0, some 0⟩ 0
    ⟨by decide, by decide, by decide⟩).1
  revert hst
  decide

end SocketHistory

end RustyDht
