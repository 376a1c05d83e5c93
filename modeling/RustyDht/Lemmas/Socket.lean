import RustyDht.Lib.Machine
import RustyDht.Lemmas.Wire
import RustyDht.Socket

/-!
# Lemmas about the socket

What each event does to the request storage and the channels, the history of a run, and the invariant that ties the two: which
requests were stored, which response each was matched by, and what was put on the channels for it.
-/

namespace RustyDht

open Bencode (Codec)

/-! ## The queue -/

namespace DHTSocket

/-- Sending a request stores it, and puts it on the queue unless the outgoing task has ended. -/
theorem sendTo_of_request (self : DHTSocket) {toSend : Message} {req : RequestSpecific} (htype : toSend.messageType = .request req)
    (dest : SocketAddr) (destId : Option Id) (now : Instant) : self.sendTo toSend dest destId now =
      { self with
        responseChannels := self.responseChannels ++ [[]]
        requestStorage := self.requestStorage.addRequest (self.newRequestInfo toSend dest destId now)
        toSend := self.toSend ++ if self.outgoingUp then [(toSend, dest)] else [] } := by
  simp only [sendTo, htype]
  split <;> simp

/-- Sending another message puts it on the queue unless the outgoing task has ended. -/
theorem sendTo_of_not_request (self : DHTSocket) {toSend : Message} (hnot : ∀ req, toSend.messageType ≠ .request req)
    (dest : SocketAddr) (destId : Option Id) (now : Instant) : self.sendTo toSend dest destId now =
      { self with toSend := self.toSend ++ if self.outgoingUp then [(toSend, dest)] else [] } := by
  unfold sendTo
  split
  · rename_i req htype
    exact absurd htype (hnot req)
  · obtain ⟨requestStorage, queue, received, responseChannels, incomingUp, outgoingUp⟩ := self
    cases outgoingUp <;> simp

/-- What sending puts on the queue. -/
theorem sendTo_toSend (self : DHTSocket) (toSend : Message) (dest : SocketAddr) (destId : Option Id) (now : Instant) :
    (self.sendTo toSend dest destId now).toSend = self.toSend ++ if self.outgoingUp then [(toSend, dest)] else [] := by
  by_cases hreq : ∃ req, toSend.messageType = .request req
  · obtain ⟨req, htype⟩ := hreq
    rw [sendTo_of_request self htype]
  · rw [sendTo_of_not_request self (fun req htype => hreq ⟨req, htype⟩)]

/-- Sending receives nothing and ends no task. -/
@[simp] theorem sendTo_received (self : DHTSocket) (toSend : Message) (dest : SocketAddr) (destId : Option Id) (now : Instant) :
    (self.sendTo toSend dest destId now).received = self.received := by
  by_cases hreq : ∃ req, toSend.messageType = .request req
  · obtain ⟨req, htype⟩ := hreq
    rw [sendTo_of_request self htype]
  · rw [sendTo_of_not_request self (fun req htype => hreq ⟨req, htype⟩)]

@[simp] theorem sendTo_outgoingUp (self : DHTSocket) (toSend : Message) (dest : SocketAddr) (destId : Option Id) (now : Instant) :
    (self.sendTo toSend dest destId now).outgoingUp = self.outgoingUp := by
  by_cases hreq : ∃ req, toSend.messageType = .request req
  · obtain ⟨req, htype⟩ := hreq
    rw [sendTo_of_request self htype]
  · rw [sendTo_of_not_request self (fun req htype => hreq ⟨req, htype⟩)]

/-- The outgoing task takes from the queue, or ends, and changes nothing else. -/
theorem backgroundIoOutgoing_eq (codec : Codec) (self : DHTSocket) (result : SendResult) :
    ∃ toSend ⊆ self.toSend, ∃ outgoingUp, (self.backgroundIoOutgoing codec result).2 = { self with toSend, outgoingUp } := by
  obtain ⟨requestStorage, queue, received, responseChannels, incomingUp, outgoingUp⟩ := self
  rw [backgroundIoOutgoing]
  dsimp only
  by_cases hup : outgoingUp = true
  · rw [if_pos hup]
    rcases queue with - | ⟨⟨msg, dest⟩, rest⟩
    · exact ⟨[], List.Subset.refl _, outgoingUp, rfl⟩
    · dsimp only
      rcases backgroundIoOutgoingSingle codec msg result with e | bytes
      · cases e with
        | conntrackError text => exact ⟨rest, List.subset_cons_self _ _, outgoingUp, rfl⟩
        | _ => exact ⟨[], List.nil_subset _, false, rfl⟩
      · exact ⟨rest, List.subset_cons_self _ _, outgoingUp, rfl⟩
  · rw [if_neg hup]
    exact ⟨queue, List.Subset.refl _, outgoingUp, rfl⟩

/-- What the outgoing task sends is a message of the queue. -/
theorem mem_of_backgroundIoOutgoing (codec : Codec) (self : DHTSocket) (result : SendResult) {bytes : List UInt8} {dest : SocketAddr}
    (hsent : (self.backgroundIoOutgoing codec result).1 = some (bytes, dest)) :
    ∃ msg, (msg, dest) ∈ self.toSend ∧ msg.toBytes codec = .ok bytes := by
  rw [backgroundIoOutgoing] at hsent
  split at hsent
  · split at hsent
    · rename_i msg dest' toSend hqueue
      cases hsingle : backgroundIoOutgoingSingle codec msg result with
      | ok bytes' =>
        rw [hsingle] at hsent
        cases hsent
        obtain ⟨written, hwritten, hresult⟩ := Checks.bind_eq_ok.mp hsingle
        refine ⟨msg, hqueue ▸ List.mem_cons_self, ?_⟩
        cases result with
        | sent => exact hwritten.trans hresult
        | permissionDenied => cases hresult
        | failed text => cases hresult
      | error e =>
        rw [hsingle] at hsent
        cases e <;> cases hsent
    · cases hsent
  · cases hsent

/-- The outgoing task does not begin anew. -/
theorem outgoingUp_of_backgroundIoOutgoing (codec : Codec) (self : DHTSocket) (result : SendResult)
    (hup : (self.backgroundIoOutgoing codec result).2.outgoingUp = true) : self.outgoingUp = true := by
  by_contra hdown
  rw [backgroundIoOutgoing, if_neg hdown] at hup
  exact hdown hup

/-- The outgoing task goes on after a message that is sent or denied, since every message can be written. -/
theorem backgroundIoOutgoing_outgoingUp (codec : Codec) (self : DHTSocket) {result : SendResult}
    (hresult : ∀ text, result ≠ .failed text) : (self.backgroundIoOutgoing codec result).2.outgoingUp = self.outgoingUp := by
  rw [backgroundIoOutgoing]
  by_cases hup : self.outgoingUp = true
  · rw [if_pos hup]
    rcases self.toSend with - | ⟨⟨msg, dest⟩, rest⟩
    · rfl
    · obtain ⟨bytes, hbytes⟩ := msg.toBytes_ok codec
      dsimp only
      rw [backgroundIoOutgoingSingle, hbytes]
      cases result with
      | sent => rfl
      | permissionDenied => rfl
      | failed text => exact absurd rfl (hresult text)
  · rw [if_neg hup]

/-- A packet puts nothing on the queue, and has nothing to do with the outgoing task. -/
theorem backgroundIoIncoming_eq (codec : Codec) (self : DHTSocket) (buf : List UInt8) (sender : SocketAddr) :
    ∃ requestStorage received responseChannels incomingUp,
      self.backgroundIoIncoming codec buf sender = { self with requestStorage, received, responseChannels, incomingUp } := by
  rw [backgroundIoIncoming]
  by_cases hup : self.incomingUp = true
  · rw [if_pos hup, backgroundIoIncomingSingle]
    cases Message.fromBytes codec buf with
    | error e => cases e <;> exact ⟨_, _, _, _, rfl⟩
    | ok m =>
      simp only [bind, Except.bind]
      cases m.messageType with
      | response res =>
        simp only
        obtain ⟨info, requestStorage⟩ := self.requestStorage.takeMatchingRequestInfo m sender
        cases info with
        | none => exact ⟨_, _, _, _, rfl⟩
        | some info =>
          simp only [pure, Except.pure, notify]
          cases info.responseChannel <;> exact ⟨_, _, _, _, rfl⟩
      | request req => exact ⟨_, _, _, _, rfl⟩
      | error err => exact ⟨_, _, _, _, rfl⟩
  · rw [if_neg hup]
    exact ⟨_, _, _, _, rfl⟩

@[simp] theorem backgroundIoIncoming_toSend (codec : Codec) (self : DHTSocket) (buf : List UInt8) (sender : SocketAddr) :
    (self.backgroundIoIncoming codec buf sender).toSend = self.toSend := by
  obtain ⟨requestStorage, received, responseChannels, incomingUp, hsocket⟩ := backgroundIoIncoming_eq codec self buf sender
  rw [hsocket]

@[simp] theorem backgroundIoIncoming_outgoingUp (codec : Codec) (self : DHTSocket) (buf : List UInt8) (sender : SocketAddr) :
    (self.backgroundIoIncoming codec buf sender).outgoingUp = self.outgoingUp := by
  obtain ⟨requestStorage, received, responseChannels, incomingUp, hsocket⟩ := backgroundIoIncoming_eq codec self buf sender
  rw [hsocket]

end DHTSocket

/-! ## Matching -/

/-- A message answers a request: it is a response of the request's kind with its transaction id, from the address the request went
to, and from the node it was meant for, if that is known. -/
def RequestInfo.AnsweredBy (r : RequestInfo) (m : Message) (source : SocketAddr) : Prop :=
  m.transactionId = r.packet.transactionId ∧ source = r.addr ∧ (r.id = none ∨ r.id = m.getAuthorId) ∧
    ∃ res req, m.messageType = .response res ∧ r.packet.messageType = .request req ∧ responseMatchesRequest res req = true

namespace OutboundRequestStorage

variable {st : OutboundRequestStorage} {m : Message} {source : SocketAddr} {r : RequestInfo}

/-- A message that answers a stored request finds it. -/
theorem getMatchingRequestInfo_of_answeredBy (hst : st.requests (.from r.packet.transactionId) = some r) (h : r.AnsweredBy m source) :
    st.getMatchingRequestInfo m source = some r := by
  obtain ⟨htid, haddr, hid, res, req, hres, hreq, hkind⟩ := h
  have hauthor : m.getAuthorId = some res.responderId := by rw [Message.getAuthorId, hres]
  have hid' : r.id.isNone = true ∨ (m.getAuthorId.isSome = true ∧ r.id = m.getAuthorId) := by
    rcases hid with hnone | heq
    · exact Or.inl (by rw [hnone]; rfl)
    · exact Or.inr ⟨by rw [hauthor]; rfl, heq⟩
  simp only [getMatchingRequestInfo, hres, htid, hst, hreq, hkind, if_true, if_pos haddr.symm, if_pos hid']

/-- A message that answers a stored request takes it, and no other leaves the storage. -/
theorem takeMatchingRequestInfo_of_answeredBy (hst : st.requests (.from r.packet.transactionId) = some r)
    (h : r.AnsweredBy m source) : st.takeMatchingRequestInfo m source =
      (some r, { requests := Function.update st.requests (.from r.packet.transactionId) none }) := by
  simp only [takeMatchingRequestInfo, getMatchingRequestInfo_of_answeredBy hst h, Option.isSome_some, if_true, h.1, hst]

/-- A stored request is found by a message exactly when it is the one under its transaction id and is answered by it. -/
theorem getMatchingRequestInfo_eq_some_iff (hkey : ∀ tid r, st.requests tid = some r → tid = .from r.packet.transactionId) :
    st.getMatchingRequestInfo m source = some r ↔
      st.requests (.from r.packet.transactionId) = some r ∧ r.AnsweredBy m source := by
  constructor
  · intro h
    simp only [getMatchingRequestInfo] at h
    split at h
    · next res hres =>
      split at h
      · next info hinfo =>
        split at h
        · next haddr =>
          split at h
          · next hid =>
            split at h
            · next req hreq =>
              split at h
              · next hkind =>
                obtain rfl := Option.some.inj h
                have htid := hkey _ _ hinfo
                have hbytes : m.transactionId = info.packet.transactionId := congrArg TransactionId.bytes htid
                refine ⟨htid ▸ hinfo, hbytes, haddr.symm, ?_, res, req, hres, hreq, hkind⟩
                rcases hid with hnone | ⟨-, heq⟩
                · exact Or.inl (Option.isNone_iff_eq_none.mp hnone)
                · exact Or.inr heq
              · exact nomatch h
            · exact nomatch h
          · exact nomatch h
        · exact nomatch h
      · exact nomatch h
    · exact nomatch h
  · exact fun h => getMatchingRequestInfo_of_answeredBy h.1 h.2

/-- What a message that finds a request takes: that request, and no other leaves the storage. -/
theorem takeMatchingRequestInfo_of_some (hkey : ∀ tid r, st.requests tid = some r → tid = .from r.packet.transactionId)
    (h : st.getMatchingRequestInfo m source = some r) :
    st.takeMatchingRequestInfo m source =
      (some r, { requests := Function.update st.requests (.from r.packet.transactionId) none }) := by
  obtain ⟨hst, hanswered⟩ := (getMatchingRequestInfo_eq_some_iff hkey).mp h
  exact takeMatchingRequestInfo_of_answeredBy hst hanswered

/-- A message that finds no request leaves the storage as it was. -/
theorem takeMatchingRequestInfo_of_none (h : st.getMatchingRequestInfo m source = none) :
    st.takeMatchingRequestInfo m source = (none, st) := by
  simp only [takeMatchingRequestInfo, h, Option.isSome_none, Bool.false_eq_true, if_false]

/-- A message that is no response finds no request. -/
theorem getMatchingRequestInfo_of_not_response (h : ∀ res, m.messageType ≠ .response res) :
    st.getMatchingRequestInfo m source = none := by
  rw [getMatchingRequestInfo]
  split
  · next res hres => exact absurd hres (h res)
  · rfl

/-- After pruning, a stored request is one that was stored and is young enough. -/
theorem pruneOlderThan_eq_some {d : Duration} {now : Instant} {tid : TransactionId}
    (h : (st.pruneOlderThan d now).requests tid = some r) : st.requests tid = some r := by
  rw [pruneOlderThan] at h
  split at h
  · exact h
  · exact (Option.filter_eq_some_iff.mp h).1

/-- Pruning keeps a request that is not older than the limit. -/
theorem pruneOlderThan_of_young {d : Duration} {now : Instant} {tid : TransactionId} (h : st.requests tid = some r)
    (hage : now ≤ r.createdAt + d) : (st.pruneOlderThan d now).requests tid = some r := by
  rw [pruneOlderThan, Instant.checkedSub]
  by_cases hle : d ≤ now
  · rw [if_pos hle]
    refine Option.filter_eq_some_iff.mpr ⟨h, ?_⟩
    rw [decide_eq_true_eq]
    exact Nat.sub_le_iff_le_add.mpr hage
  · rw [if_neg hle]
    exact h

end OutboundRequestStorage

/-! ## What a packet does -/

/-- Whether a message is a response. -/
def Message.isResponse (m : Message) : Bool :=
  match m.messageType with
  | .response _ => true
  | _ => false

/-- Whether a message is a request. -/
def Message.isRequest (m : Message) : Bool :=
  match m.messageType with
  | .request _ => true
  | _ => false

namespace DHTSocket

/-- What a packet does while the incoming task runs: nothing if it does not parse, or is a response that answers no stored request;
a request or an error goes to the general channel; a response that answers a stored request takes it out, and goes to its channel
and to the general one. -/
theorem backgroundIoIncoming_cases (codec : Codec) {s : DHTSocket} (hup : s.incomingUp = true) (buf : List UInt8)
    (sender : SocketAddr)
    (hkey : ∀ tid r, s.requestStorage.requests tid = some r → tid = .from r.packet.transactionId) :
    ((∃ text, Message.fromBytes codec buf = .error (.packetParseError text)) ∧ s.backgroundIoIncoming codec buf sender = s) ∨
    ∃ m, Message.fromBytes codec buf = .ok m ∧
      ((m.isResponse = false ∧
          s.backgroundIoIncoming codec buf sender = { s with received := s.received ++ [(m, sender)] }) ∨
        (m.isResponse = true ∧ s.requestStorage.getMatchingRequestInfo m sender = none ∧
          s.backgroundIoIncoming codec buf sender = s) ∨
        ∃ r, m.isResponse = true ∧ s.requestStorage.getMatchingRequestInfo m sender = some r ∧
          s.backgroundIoIncoming codec buf sender =
            { s.notify r.responseChannel m with
              requestStorage :=
                { requests := Function.update s.requestStorage.requests (.from r.packet.transactionId) none }
              received := s.received ++ [(m, sender)] }) := by
  rw [backgroundIoIncoming, if_pos hup]
  cases hparse : Message.fromBytes codec buf with
  | error e =>
    obtain ⟨text, rfl⟩ := Message.fromBytes_parseErrors codec buf e hparse
    refine Or.inl ⟨⟨text, rfl⟩, ?_⟩
    rw [backgroundIoIncomingSingle, hparse]
    rfl
  | ok m =>
    refine Or.inr ⟨m, rfl, ?_⟩
    simp only [backgroundIoIncomingSingle, hparse, bind, Except.bind]
    cases htype : m.messageType with
    | response res =>
      have hres : m.isResponse = true := by rw [Message.isResponse, htype]
      refine Or.inr ?_
      cases hmatch : s.requestStorage.getMatchingRequestInfo m sender with
      | none =>
        rw [OutboundRequestStorage.takeMatchingRequestInfo_of_none hmatch]
        exact Or.inl ⟨hres, rfl, rfl⟩
      | some r =>
        rw [OutboundRequestStorage.takeMatchingRequestInfo_of_some hkey hmatch]
        refine Or.inr ⟨r, hres, rfl, ?_⟩
        cases hch : r.responseChannel with
        | none =>
          simp only [notify, hch]
          rfl
        | some ch =>
          simp only [notify, hch]
          rfl
    | request req => exact Or.inl ⟨by rw [Message.isResponse, htype], rfl⟩
    | error err => exact Or.inl ⟨by rw [Message.isResponse, htype], rfl⟩

end DHTSocket

/-! ## Histories -/

/-- A stored request with the response it was matched by, and the address that came from. -/
structure RequestMatch where
  request : RequestInfo
  response : Message
  source : SocketAddr

/-- A socket with the time, every request that was ever stored, and every match, oldest first. -/
structure SocketHistory where
  socket : DHTSocket
  clock : Instant
  stored : List RequestInfo
  matched : List RequestMatch

/-- The request that an event stores, if it stores one. -/
def SocketEvent.stores (s : DHTSocket) (now : Instant) : SocketEvent → List RequestInfo
  | .sendTo toSend dest destId =>
    match toSend.messageType with
    | .request _ => [s.newRequestInfo toSend dest destId now]
    | _ => []
  | _ => []

/-- The match that an event makes, if it makes one. -/
def SocketEvent.matches (codec : Codec) (s : DHTSocket) : SocketEvent → List RequestMatch
  | .packet buf sender =>
    match Message.fromBytes codec buf with
    | .ok m => ((s.requestStorage.getMatchingRequestInfo m sender).map (fun r => ⟨r, m, sender⟩)).toList
    | .error _ => []
  | _ => []

namespace SocketHistory

/-- A new socket, without a history. -/
def new (now : Instant) : SocketHistory := { socket := .new, clock := now, stored := [], matched := [] }

/-- The history after an event that happens some time after the last. -/
def step (codec : Codec) (s : SocketHistory) (e : Duration × SocketEvent) : SocketHistory where
  socket := e.2.apply codec s.socket (s.clock + e.1)
  clock := s.clock + e.1
  stored := s.stored ++ e.2.stores s.socket (s.clock + e.1)
  matched := s.matched ++ e.2.matches codec s.socket

/-- What holds of a socket and its history after every run. -/
structure Wf (s : SocketHistory) : Prop where
  /-- The incoming task runs. -/
  up : s.socket.incomingUp = true
  /-- A request is stored under its own transaction id. -/
  key : ∀ tid r, s.socket.requestStorage.requests tid = some r → tid = .from r.packet.transactionId
  /-- What is stored was stored, and was matched by nothing. -/
  live : ∀ tid r, s.socket.requestStorage.requests tid = some r → r ∈ s.stored ∧ r ∉ s.matched.map (·.request)
  /-- What was stored is a request, with a response channel of its own. -/
  request : ∀ r ∈ s.stored, (∃ req, r.packet.messageType = .request req) ∧
    ∃ ch < s.socket.responseChannels.length, r.responseChannel = some ch
  /-- No two stored requests share a channel. -/
  distinct : (s.stored.map (·.responseChannel)).Nodup
  /-- A match is of a stored request, by a message that answers it. -/
  answered : ∀ x ∈ s.matched, x.request ∈ s.stored ∧ x.request.AnsweredBy x.response x.source
  /-- A stored request is matched once. -/
  once : (s.matched.map (·.request)).Nodup
  /-- The responses on the general channel are the matches. -/
  general : s.socket.received.filter (·.1.isResponse) = s.matched.map (fun x => (x.response, x.source))
  /-- What is on a response channel are the matches of its request. -/
  channels : ∀ ch, s.socket.channel ch =
    (s.matched.filter (fun x => x.request.responseChannel = some ch)).map (·.response)

/-- A new socket's history. -/
theorem new_wf (now : Instant) : (new now).Wf where
  up := rfl
  key _ _ h := nomatch h
  live _ _ h := nomatch h
  request _ h := absurd h List.not_mem_nil
  distinct := List.nodup_nil
  answered _ h := absurd h List.not_mem_nil
  once := List.nodup_nil
  general := rfl
  channels _ := rfl

/-! ## The invariant over runs -/

variable {s : SocketHistory}

/-- The channel of a stored request exists. -/
theorem Wf.channel_lt (h : s.Wf) {r : RequestInfo} (hr : r ∈ s.stored) {ch : ChannelId} (hch : r.responseChannel = some ch) :
    ch < s.socket.responseChannels.length := by
  obtain ⟨ch', hlt, he⟩ := (h.request r hr).2
  rw [he] at hch
  exact Option.some.inj hch ▸ hlt

/-- Storing a request keeps the invariant. -/
theorem Wf.sendRequest (h : s.Wf) {toSend : Message} {req : RequestSpecific} (htype : toSend.messageType = .request req)
    (dest : SocketAddr) (destId : Option Id) (now : Instant) :
    Wf { socket := s.socket.sendTo toSend dest destId now, clock := now,
         stored := s.stored ++ [s.socket.newRequestInfo toSend dest destId now], matched := s.matched } := by
  have hnew : (s.socket.newRequestInfo toSend dest destId now).responseChannel = some s.socket.responseChannels.length := rfl
  have hpacket : (s.socket.newRequestInfo toSend dest destId now).packet = toSend := rfl
  generalize hinfo : s.socket.newRequestInfo toSend dest destId now = info at hnew hpacket
  have hsocket : s.socket.sendTo toSend dest destId now =
      { s.socket with
        responseChannels := s.socket.responseChannels ++ [[]]
        requestStorage := s.socket.requestStorage.addRequest info
        toSend := s.socket.toSend ++ if s.socket.outgoingUp then [(toSend, dest)] else [] } := by
    rw [DHTSocket.sendTo_of_request _ htype, hinfo]
  -- The new request's channel is newer than every channel in use.
  have hfresh : ∀ r ∈ s.stored, r.responseChannel ≠ info.responseChannel := by
    intro r hr he
    exact absurd (h.channel_lt hr (he.trans hnew)) (Nat.lt_irrefl _)
  have hinfo_matched : info ∉ s.matched.map (·.request) := by
    intro hm
    obtain ⟨x, hx, he⟩ := List.mem_map.mp hm
    exact hfresh x.request (h.answered x hx).1 (congrArg _ he)
  rw [hsocket]
  refine ⟨h.up, ?_, ?_, ?_, ?_, ?_, h.once, h.general, ?_⟩
  · intro tid r hr
    simp only [OutboundRequestStorage.addRequest, Function.update_apply] at hr
    split at hr
    · next he => rw [he, ← Option.some.inj hr]
    · exact h.key tid r hr
  · intro tid r hr
    simp only [OutboundRequestStorage.addRequest, Function.update_apply] at hr
    split at hr
    · obtain rfl := Option.some.inj hr
      exact ⟨List.mem_append_right _ List.mem_cons_self, hinfo_matched⟩
    · obtain ⟨h1, h2⟩ := h.live tid r hr
      exact ⟨List.mem_append_left _ h1, h2⟩
  · intro r hr
    rw [List.length_append]
    rcases List.mem_append.mp hr with hr | hr
    · obtain ⟨hreq, ch, hlt, he⟩ := h.request r hr
      exact ⟨hreq, ch, Nat.lt_add_right _ hlt, he⟩
    · rw [List.mem_singleton.mp hr]
      exact ⟨⟨req, by rw [hpacket, htype]⟩, _, Nat.lt_add_one _, hnew⟩
  · rw [List.map_append, List.nodup_append]
    refine ⟨h.distinct, List.nodup_singleton _, ?_⟩
    intro a ha b hb
    obtain ⟨r, hr, rfl⟩ := List.mem_map.mp ha
    rw [List.map_singleton, List.mem_singleton] at hb
    exact hb ▸ hfresh r hr
  · intro x hx
    obtain ⟨h1, h2⟩ := h.answered x hx
    exact ⟨List.mem_append_left _ h1, h2⟩
  · intro ch
    rw [← h.channels ch, DHTSocket.channel, DHTSocket.channel, List.getD_eq_getElem?_getD, List.getD_eq_getElem?_getD,
      List.getElem?_append]
    split
    · rfl
    · next hge =>
      rw [List.getElem?_eq_none (l := s.socket.responseChannels) (Nat.not_lt.mp hge)]
      cases ch - s.socket.responseChannels.length <;> rfl

/-- A message that is put on the general channel only keeps the invariant, if it is no response. -/
theorem Wf.receive (h : s.Wf) {m : Message} (hm : m.isResponse = false) (sender : SocketAddr) (now : Instant) :
    Wf { s with socket := { s.socket with received := s.socket.received ++ [(m, sender)] }, clock := now } where
  up := h.up
  key := h.key
  live := h.live
  request := h.request
  distinct := h.distinct
  answered := h.answered
  once := h.once
  general := by
    rw [List.filter_append, h.general, List.filter_singleton, hm]
    exact List.append_nil _
  channels := h.channels

/-- A response that answers a stored request keeps the invariant. -/
theorem Wf.answer (h : s.Wf) {m : Message} (hm : m.isResponse = true) {sender : SocketAddr} {r : RequestInfo}
    (hmatch : s.socket.requestStorage.getMatchingRequestInfo m sender = some r) (now : Instant) :
    Wf { socket :=
          { s.socket.notify r.responseChannel m with
            requestStorage :=
              { requests := Function.update s.socket.requestStorage.requests (.from r.packet.transactionId) none }
            received := s.socket.received ++ [(m, sender)] }
         clock := now, stored := s.stored, matched := s.matched ++ [⟨r, m, sender⟩] } := by
  obtain ⟨hst, hanswered⟩ := (OutboundRequestStorage.getMatchingRequestInfo_eq_some_iff h.key).mp hmatch
  obtain ⟨hstored, hunmatched⟩ := h.live _ r hst
  obtain ⟨ch, hlt, hch⟩ := (h.request r hstored).2
  have hlen : (s.socket.notify r.responseChannel m).responseChannels.length = s.socket.responseChannels.length := by
    simp only [DHTSocket.notify, hch, List.length_modify]
  have hrest : ∀ tid r', Function.update s.socket.requestStorage.requests (.from r.packet.transactionId) none tid = some r' →
      tid ≠ .from r.packet.transactionId ∧ s.socket.requestStorage.requests tid = some r' := by
    intro tid r' hr'
    rw [Function.update_apply] at hr'
    split at hr'
    · exact nomatch hr'
    · next hne => exact ⟨hne, hr'⟩
  refine ⟨?_, ?_, ?_, ?_, h.distinct, ?_, ?_, ?_, ?_⟩
  · simp only [DHTSocket.notify, hch]
    exact h.up
  · intro tid r' hr'
    exact h.key tid r' (hrest tid r' hr').2
  · intro tid r' hr'
    obtain ⟨hne, hlive⟩ := hrest tid r' hr'
    obtain ⟨h1, h2⟩ := h.live tid r' hlive
    refine ⟨h1, ?_⟩
    rw [List.map_append, List.map_singleton, List.mem_append, List.mem_singleton]
    rintro (h3 | rfl)
    · exact h2 h3
    · exact hne (h.key tid _ hlive)
  · intro r' hr'
    rw [hlen]
    exact h.request r' hr'
  · intro x hx
    rcases List.mem_append.mp hx with hx | hx
    · exact h.answered x hx
    · rw [List.mem_singleton.mp hx]
      exact ⟨hstored, hanswered⟩
  · rw [List.map_append, List.map_singleton, List.nodup_append]
    refine ⟨h.once, List.nodup_singleton _, ?_⟩
    intro a ha b hb
    rw [List.mem_singleton.mp hb]
    rintro rfl
    exact hunmatched ha
  · rw [List.filter_append, h.general, List.filter_singleton, hm, List.map_append]
    rfl
  · intro ch'
    rw [List.filter_append, List.map_append, ← h.channels ch']
    simp only [DHTSocket.channel, DHTSocket.notify, hch, List.getD_eq_getElem?_getD, List.getElem?_modify]
    by_cases he : ch = ch'
    · subst he
      rw [List.getElem?_eq_getElem hlt]
      simp [hch]
    · have hne : ¬ (some ch = some ch') := fun h => he (Option.some.inj h)
      simp [hch, he]

/-- A tick of the cleanup keeps the invariant. -/
theorem Wf.requestCleanup (h : s.Wf) (now : Instant) :
    Wf { s with socket := s.socket.requestCleanup now, clock := now } where
  up := h.up
  key tid r hr := h.key tid r (OutboundRequestStorage.pruneOlderThan_eq_some hr)
  live tid r hr := h.live tid r (OutboundRequestStorage.pruneOlderThan_eq_some hr)
  request := h.request
  distinct := h.distinct
  answered := h.answered
  once := h.once
  general := h.general
  channels := h.channels

/-- The ways a history goes on: a request is stored; another message is queued; a packet does not parse, or answers no stored
request; a packet is no response; a response answers a stored request; the storage is pruned. -/
theorem Wf.step_cases (codec : Codec) (h : s.Wf) (elapsed : Duration) (e : SocketEvent) :
    (∃ toSend req dest destId, e = .sendTo toSend dest destId ∧ toSend.messageType = .request req ∧
      s.step codec (elapsed, e) =
        { socket := s.socket.sendTo toSend dest destId (s.clock + elapsed), clock := s.clock + elapsed,
          stored := s.stored ++ [s.socket.newRequestInfo toSend dest destId (s.clock + elapsed)], matched := s.matched }) ∨
    (∃ toSend, s.step codec (elapsed, e) =
      { s with socket := { s.socket with toSend }, clock := s.clock + elapsed }) ∨
    (∃ m sender, m.isResponse = false ∧ s.step codec (elapsed, e) =
      { s with socket := { s.socket with received := s.socket.received ++ [(m, sender)] }, clock := s.clock + elapsed }) ∨
    (∃ buf m sender r, e = .packet buf sender ∧ m.isResponse = true ∧
      s.socket.requestStorage.getMatchingRequestInfo m sender = some r ∧
      s.step codec (elapsed, e) =
        { socket :=
            { s.socket.notify r.responseChannel m with
              requestStorage :=
                { requests := Function.update s.socket.requestStorage.requests (.from r.packet.transactionId) none }
              received := s.socket.received ++ [(m, sender)] }
          clock := s.clock + elapsed, stored := s.stored, matched := s.matched ++ [⟨r, m, sender⟩] }) ∨
    s.step codec (elapsed, e) =
      { s with socket := s.socket.requestCleanup (s.clock + elapsed), clock := s.clock + elapsed } := by
  cases e with
  | sendTo toSend dest destId =>
    cases htype : toSend.messageType with
    | request req =>
      refine Or.inl ⟨toSend, req, dest, destId, rfl, htype, ?_⟩
      simp only [step, SocketEvent.apply, SocketEvent.stores, SocketEvent.matches, htype, List.append_nil]
    | response res =>
      refine Or.inr (Or.inl ⟨s.socket.toSend ++ if s.socket.outgoingUp then [(toSend, dest)] else [], ?_⟩)
      have hnot : ∀ req, toSend.messageType ≠ .request req := fun req h => by simp [htype] at h
      simp only [step, SocketEvent.apply, SocketEvent.stores, SocketEvent.matches, DHTSocket.sendTo_of_not_request _ hnot, htype,
        List.append_nil]
    | error err =>
      refine Or.inr (Or.inl ⟨s.socket.toSend ++ if s.socket.outgoingUp then [(toSend, dest)] else [], ?_⟩)
      have hnot : ∀ req, toSend.messageType ≠ .request req := fun req h => by simp [htype] at h
      simp only [step, SocketEvent.apply, SocketEvent.stores, SocketEvent.matches, DHTSocket.sendTo_of_not_request _ hnot, htype,
        List.append_nil]
  | packet buf sender =>
    rcases DHTSocket.backgroundIoIncoming_cases codec h.up buf sender h.key with
      ⟨⟨text, hparse⟩, hs⟩ | ⟨m, hparse, ⟨hm, hs⟩ | ⟨hm, hmatch, hs⟩ | ⟨r, hm, hmatch, hs⟩⟩
    · refine Or.inr (Or.inl ⟨s.socket.toSend, ?_⟩)
      simp only [step, SocketEvent.apply, SocketEvent.stores, SocketEvent.matches, hparse, hs, List.append_nil]
    · refine Or.inr (Or.inr (Or.inl ⟨m, sender, hm, ?_⟩))
      have hmatch : s.socket.requestStorage.getMatchingRequestInfo m sender = none := by
        refine OutboundRequestStorage.getMatchingRequestInfo_of_not_response (fun res hres => ?_)
        rw [Message.isResponse, hres] at hm
        exact nomatch hm
      simp only [step, SocketEvent.apply, SocketEvent.stores, SocketEvent.matches, hparse, hs, hmatch, Option.map_none,
        Option.toList_none, List.append_nil]
    · refine Or.inr (Or.inl ⟨s.socket.toSend, ?_⟩)
      simp only [step, SocketEvent.apply, SocketEvent.stores, SocketEvent.matches, hparse, hs, hmatch, Option.map_none,
        Option.toList_none, List.append_nil]
    · refine Or.inr (Or.inr (Or.inr (Or.inl ⟨buf, m, sender, r, rfl, hm, hmatch, ?_⟩)))
      simp only [step, SocketEvent.apply, SocketEvent.stores, SocketEvent.matches, hparse, hs, hmatch, Option.map_some,
        Option.toList_some, List.append_nil]
  | requestCleanup =>
    refine Or.inr (Or.inr (Or.inr (Or.inr ?_)))
    simp only [step, SocketEvent.apply, SocketEvent.stores, SocketEvent.matches, List.append_nil]

/-- Every event keeps the invariant. -/
theorem Wf.step (codec : Codec) (h : s.Wf) (e : Duration × SocketEvent) : (s.step codec e).Wf := by
  obtain ⟨elapsed, e⟩ := e
  rcases h.step_cases codec elapsed e with
    ⟨toSend, req, dest, destId, -, htype, hs⟩ | ⟨toSend, hs⟩ | ⟨m, sender, hm, hs⟩ | ⟨buf, m, sender, r, -, hm, hmatch, hs⟩ | hs
  · exact hs ▸ h.sendRequest htype dest destId _
  · exact hs ▸ ⟨h.up, h.key, h.live, h.request, h.distinct, h.answered, h.once, h.general, h.channels⟩
  · exact hs ▸ h.receive hm sender _
  · exact hs ▸ h.answer hm hmatch _
  · exact hs ▸ h.requestCleanup _

/-- The invariant holds after every run. -/
theorem run_wf (codec : Codec) (now : Instant) (es : List (Duration × SocketEvent)) :
    (Machine.run (SocketHistory.step codec) (new now) es).Wf :=
  Machine.run_invariant (SocketHistory.step codec) (fun _ e hs => hs.step codec e) es (new now) (new_wf now)

end SocketHistory

end RustyDht
