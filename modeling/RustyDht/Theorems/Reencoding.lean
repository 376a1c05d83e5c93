import RustyDht.Lemmas.Reencoding

/-!
# Encoding undoes decoding

A wire message that is accepted and converted back is the message that came, but for what the decoder settles: a flag is 0 or 1, an error
has its code and its text only, a get_peers response has values or nodes and never both, and an interval is at most six hours. A negative
interval is the exception: it is taken for one of some 2 ^ 64 seconds, and leaves as six hours.
-/

namespace RustyDht

open Checks (bind_eq_ok map_eq_ok)

/-! ## What the decoder settles -/

/-- A request, its implied port 0 or 1. -/
def DHTRequestSpecific.normalise : DHTRequestSpecific → DHTRequestSpecific
  | .announcePeer a => .announcePeer { a with impliedPort := a.impliedPort.map (fun implied => if implied = 0 then 0 else 1) }
  | req => req

/-- The arguments of a get_peers response: values without nodes, or nodes. -/
def DHTGetPeersResponseArguments.normalise (a : DHTGetPeersResponseArguments) : DHTGetPeersResponseArguments :=
  { a with nodes := if a.values.isSome then none else some (a.nodes.getD []) }

/-- A response, its interval at most six hours. -/
def DHTResponseSpecific.normalise : DHTResponseSpecific → DHTResponseSpecific
  | .getPeers a => .getPeers a.normalise
  | .sampleInfoHashes a => .sampleInfoHashes { a with interval := min (Int32.ofNat maxScrapeInterval) a.interval }
  | res => res

/-- An error, its list cut after the text. -/
def DHTErrorSpecific.normalise (err : DHTErrorSpecific) : DHTErrorSpecific := { errorInfo := err.errorInfo.take 2 }

/-- A message's variant, normalised. -/
def DHTMessageVariant.normalise : DHTMessageVariant → DHTMessageVariant
  | .dhtRequest req => .dhtRequest req.normalise
  | .dhtResponse res => .dhtResponse res.normalise
  | .dhtError err => .dhtError err.normalise

/-- A message, normalised, and marked read-only by 0 or 1. -/
def DHTMessage.normalise (msg : DHTMessage) : DHTMessage :=
  { msg with
    variant := msg.variant.normalise
    readOnly := msg.readOnly.map (fun readOnly => if readOnly ≥ 1 then 1 else 0) }

/-- A sample_infohashes response asks for a negative interval. -/
def DHTMessageVariant.NegativeInterval : DHTMessageVariant → Prop
  | .dhtResponse (.sampleInfoHashes a) => a.interval < 0
  | _ => False

/-! ## Variants -/

/-- A request that was read is written as it came. -/
theorem RequestSpecific.intoSerde_of_fromSerde {req : DHTRequestSpecific} {r : RequestSpecific} (h : req.fromSerde = .ok r) :
    r.intoSerde = req.normalise := by
  cases req with
  | announcePeer a =>
    obtain ⟨id, hid, h⟩ := bind_eq_ok.mp h
    obtain ⟨hash, hhash, h⟩ := bind_eq_ok.mp h
    cases h
    obtain ⟨aid, ahash, port, token, implied⟩ := a
    have himplied : (implied.map (fun p => p != 0)).map (fun p => if p then (1 : UInt8) else 0) =
        implied.map (fun p => if p = 0 then 0 else 1) := by
      cases implied with
      | none => rfl
      | some p => by_cases hp : p = 0 <;> simp [hp]
    simp only [intoSerde, DHTRequestSpecific.normalise, Id.toVec_of_fromBytes _ id hid, Id.toVec_of_fromBytes _ hash hhash, himplied]
  | findNode a | getPeers a | sampleInfoHashes a =>
    obtain ⟨id, hid, h⟩ := bind_eq_ok.mp h
    obtain ⟨target, htarget, h⟩ := bind_eq_ok.mp h
    cases h
    simp only [intoSerde, DHTRequestSpecific.normalise, Id.toVec_of_fromBytes _ id hid, Id.toVec_of_fromBytes _ target htarget]
  | ping a =>
    obtain ⟨id, hid, h⟩ := bind_eq_ok.mp h
    cases h
    simp only [intoSerde, DHTRequestSpecific.normalise, Id.toVec_of_fromBytes _ id hid]

/-- The values or nodes of a get_peers response that were read are written as they came. -/
theorem ResponseSpecific.intoSerde_getPeersResponse {a : DHTGetPeersResponseArguments} {id : Id} {values : GetPeersResponseValues}
    (hid : id.toVec = a.id) (h : a.fromSerde = .ok values) :
    (ResponseSpecific.getPeersResponse ⟨id, a.token, values⟩).intoSerde = .getPeers a.normalise := by
  obtain ⟨aid, token, nodes, peers⟩ := a
  rw [DHTGetPeersResponseArguments.fromSerde] at h
  cases peers with
  | some bytes =>
    obtain ⟨peers, hpeers, rfl⟩ := map_eq_ok.mp h
    simp [intoSerde, DHTGetPeersResponseArguments.normalise, hid, peersToBytes_of_bytesToPeers hpeers]
  | none =>
    cases nodes with
    | some bytes =>
      obtain ⟨nodes, hnodes, rfl⟩ := map_eq_ok.mp h
      simp [intoSerde, DHTGetPeersResponseArguments.normalise, hid, nodes4ToBytes_of_bytesToNodes4 hnodes]
    | none =>
      cases h
      simp [intoSerde, DHTGetPeersResponseArguments.normalise, hid, nodes4ToBytes]

/-- The greatest interval is no negative one. -/
theorem min_interval_ne {interval : Int32} (h : interval < 0) :
    Int32.ofNat maxScrapeInterval ≠ min (Int32.ofNat maxScrapeInterval) interval := by
  intro heq
  have hle : min (Int32.ofNat maxScrapeInterval) interval ≤ interval := by
    by_cases hle : Int32.ofNat maxScrapeInterval ≤ interval <;> simp [Min.min, hle]
  rw [← heq] at hle
  have hneg : Int32.ofNat maxScrapeInterval < 0 := Int32.lt_of_le_of_lt hle h
  exact absurd hneg (by decide)

/-- A response that was read is written as it came exactly where its interval is not negative. -/
theorem ResponseSpecific.intoSerde_of_fromSerde {res : DHTResponseSpecific} {r : ResponseSpecific} (h : res.fromSerde = .ok r) :
    r.intoSerde = res.normalise ↔ ¬(DHTMessageVariant.dhtResponse res).NegativeInterval := by
  cases res with
  | findNode a =>
    obtain ⟨id, hid, h⟩ := bind_eq_ok.mp h
    obtain ⟨nodes, hnodes, h⟩ := bind_eq_ok.mp h
    cases h
    simp [intoSerde, DHTResponseSpecific.normalise, DHTMessageVariant.NegativeInterval, Id.toVec_of_fromBytes _ id hid,
      nodes4ToBytes_of_bytesToNodes4 hnodes]
  | getPeers a =>
    obtain ⟨id, hid, h⟩ := bind_eq_ok.mp h
    obtain ⟨values, hvalues, h⟩ := bind_eq_ok.mp h
    cases h
    have hwritten := intoSerde_getPeersResponse (Id.toVec_of_fromBytes _ id hid) hvalues
    simp [hwritten, DHTResponseSpecific.normalise, DHTMessageVariant.NegativeInterval]
  | ping a =>
    obtain ⟨id, hid, h⟩ := bind_eq_ok.mp h
    cases h
    simp [intoSerde, DHTResponseSpecific.normalise, DHTMessageVariant.NegativeInterval, Id.toVec_of_fromBytes _ id hid]
  | sampleInfoHashes a =>
    obtain ⟨id, hid, h⟩ := bind_eq_ok.mp h
    obtain ⟨nodes, hnodes, h⟩ := bind_eq_ok.mp h
    obtain ⟨samples, hsamples, h⟩ := bind_eq_ok.mp h
    cases h
    have hneg : a.interval < 0 ↔ ¬0 ≤ a.interval.toInt := by
      rw [Int32.lt_iff_toInt_lt, Int.not_le]
      rfl
    have hwritten : (ResponseSpecific.sampleInfoHashesResponse
        ⟨id, Duration.fromSecs a.interval.toInt64.toUInt64.toNat, nodes, samples, a.num⟩).intoSerde =
          .sampleInfoHashes { a with
            interval := if 0 ≤ a.interval.toInt then min (Int32.ofNat maxScrapeInterval) a.interval
              else Int32.ofNat maxScrapeInterval } := by
      rw [intoSerde, interval_of_fromSecs, Id.toVec_of_fromBytes _ id hid, nodes4ToBytes_of_bytesToNodes4 hnodes,
        samplesToBytes_of_bytesToSamples hsamples]
    rw [hwritten, DHTResponseSpecific.normalise, DHTMessageVariant.NegativeInterval]
    by_cases h0 : 0 ≤ a.interval.toInt
    · simp [hneg, h0]
    · have hne := min_interval_ne (hneg.mpr h0)
      simp [hneg, h0, hne]

/-- An error that was read is written as it came. -/
theorem ErrorSpecific.intoSerde_of_fromSerde {err : DHTErrorSpecific} {e : ErrorSpecific} (h : err.fromSerde = .ok e) :
    e.intoSerde = err.normalise := by
  obtain ⟨info⟩ := err
  rw [DHTErrorSpecific.fromSerde] at h
  split at h
  · rename_i first second rest heq
    obtain ⟨code, hcode, h⟩ := bind_eq_ok.mp h
    obtain ⟨description, hdescription, h⟩ := bind_eq_ok.mp h
    cases h
    rw [intoSerde, DHTErrorSpecific.normalise, int_of_errorCode hcode, bytes_of_errorDescription hdescription, heq]
    rfl
  · cases h

/-- A variant that was read is written as it came exactly where it has no negative interval. -/
theorem MessageType.intoSerde_of_fromSerde {variant : DHTMessageVariant} {type : MessageType} (h : variant.fromSerde = .ok type) :
    type.intoSerde = variant.normalise ↔ ¬variant.NegativeInterval := by
  cases variant with
  | dhtRequest req =>
    obtain ⟨r, hr, rfl⟩ := map_eq_ok.mp h
    simp [intoSerde, DHTMessageVariant.normalise, DHTMessageVariant.NegativeInterval, RequestSpecific.intoSerde_of_fromSerde hr]
  | dhtResponse res =>
    obtain ⟨r, hr, rfl⟩ := map_eq_ok.mp h
    rw [← ResponseSpecific.intoSerde_of_fromSerde hr, intoSerde, DHTMessageVariant.normalise]
    exact ⟨DHTMessageVariant.dhtResponse.inj, congrArg DHTMessageVariant.dhtResponse⟩
  | dhtError err =>
    obtain ⟨e, he, rfl⟩ := map_eq_ok.mp h
    simp [intoSerde, DHTMessageVariant.normalise, DHTMessageVariant.NegativeInterval, ErrorSpecific.intoSerde_of_fromSerde he]

/-! ## Messages -/

/-- A wire message that is accepted is written as it came, normalised, exactly where it asks for no negative interval. -/
theorem Message.intoSerdeMessage_eq_normalise_iff {x : DHTMessage} {m : Message} (h : Message.fromSerdeMessage x = .ok m) :
    m.intoSerdeMessage = x.normalise ↔ ¬x.variant.NegativeInterval := by
  obtain ⟨ip, hip, h⟩ := bind_eq_ok.mp h
  obtain ⟨type, htype, h⟩ := bind_eq_ok.mp h
  cases h
  obtain ⟨tid, version, variant, xip, readOnly⟩ := x
  have hro : (readOnly.map (fun ro => decide (ro ≥ 1))).map (fun ro => if ro then (1 : Int32) else 0) =
      readOnly.map (fun ro => if ro ≥ 1 then 1 else 0) := by
    cases readOnly with
    | none => rfl
    | some ro => simp
  rw [← MessageType.intoSerde_of_fromSerde htype]
  simp only [intoSerdeMessage, DHTMessage.normalise, map_sockaddrToBytes_of_requesterIpFromSerde hip, hro, DHTMessage.mk.injEq,
    true_and, and_true]

/-- A read-only sample_infohashes response with an interval of eleven hours is written as it came, with one of six. -/
theorem Message.intoSerdeMessage_eq_normalise_eleven_hours :
    let x : DHTMessage := ⟨[1, 2], none, .dhtResponse (.sampleInfoHashes
      ⟨List.replicate 20 7, 39600, List.replicate 26 8, 1, List.replicate 40 9⟩), some [1, 2, 3, 4, 26, 225], some 3⟩
    ∃ m, Message.fromSerdeMessage x = .ok m ∧ m.intoSerdeMessage = x.normalise ∧ x.normalise = ⟨[1, 2], none, .dhtResponse
      (.sampleInfoHashes ⟨List.replicate 20 7, 21600, List.replicate 26 8, 1, List.replicate 40 9⟩), some [1, 2, 3, 4, 26, 225],
      some 1⟩ := by
  intro x
  have hinterval : ¬x.variant.NegativeInterval := by
    show ¬(39600 : Int32) < 0
    decide
  obtain ⟨m, hm⟩ : ∃ m, Message.fromSerdeMessage x = .ok m := ⟨_, rfl⟩
  exact ⟨m, hm, (Message.intoSerdeMessage_eq_normalise_iff hm).mpr hinterval, rfl⟩

/-- A sample_infohashes response with an interval of -1 is accepted as one of `2 ^ 64 - 1` seconds, and written as one of six hours. -/
theorem Message.intoSerdeMessage_ne_normalise_negative :
    let x : DHTMessage := ⟨[1, 2], none, .dhtResponse (.sampleInfoHashes ⟨List.replicate 20 7, -1, [], 0, []⟩), none, none⟩
    let m : Message := ⟨[1, 2], none, none, .response (.sampleInfoHashesResponse
      ⟨⟨List.replicate 20 7, rfl⟩, Duration.fromSecs 18446744073709551615, [], [], 0⟩), none⟩
    Message.fromSerdeMessage x = .ok m ∧
      m.intoSerdeMessage.variant = .dhtResponse (.sampleInfoHashes ⟨List.replicate 20 7, 21600, [], 0, []⟩) ∧
      x.normalise.variant = .dhtResponse (.sampleInfoHashes ⟨List.replicate 20 7, -1, [], 0, []⟩) ∧
      m.intoSerdeMessage ≠ x.normalise := by
  intro x m
  have hsecs : (-1 : Int32).toInt64.toUInt64.toNat = 18446744073709551615 := by decide
  have hread : Message.fromSerdeMessage x = .ok m := by
    show Except.ok _ = Except.ok m
    rw [hsecs]
    rfl
  have hwritten : m.intoSerdeMessage.variant = .dhtResponse (.sampleInfoHashes ⟨List.replicate 20 7, 21600, [], 0, []⟩) := rfl
  have hnormal : x.normalise.variant = .dhtResponse (.sampleInfoHashes ⟨List.replicate 20 7, -1, [], 0, []⟩) := rfl
  refine ⟨hread, hwritten, hnormal, ?_⟩
  intro h
  rw [h, hnormal] at hwritten
  simp at hwritten

end RustyDht
