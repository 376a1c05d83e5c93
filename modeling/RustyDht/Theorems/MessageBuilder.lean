import RustyDht.Builder
import RustyDht.Lib.Checks

/-!
# What a builder builds

A builder builds its message exactly where the fields that its kind requires are set, and returns an error where they are not; the message
does not depend on the fields of other kinds. The number of info hashes of a sample_infohashes response is the exception: one that does not
fit 32 bits panics where it should be refused.
-/

namespace RustyDht

open Checks (bind_eq_ok)

/-- A message is of its kind, and has nothing that its kind does not carry. -/
def BuilderMessageType.Carries (type : BuilderMessageType) (m : Message) : Prop :=
  match type with
  | .pingRequest | .findNodeRequest | .getPeersRequest | .announcePeerRequest | .sampleInfoHashesRequest =>
    (∃ req, m.messageType = .request req) ∧ m.requesterIp = none
  | .pingResponse | .findNodeResponse | .getPeersResponse | .announcePeerResponse | .sampleInfoHashesResponse =>
    (∃ res, m.messageType = .response res) ∧ m.readOnly = none
  | .error => (∃ err, m.messageType = .error err) ∧ m.requesterIp = none ∧ m.readOnly = none ∧ m.version = none

namespace MessageBuilder

/-! ## What a kind asks for, and what it uses -/

/-- The fields that the kind of message requires are set, to values that it can represent. -/
def Complete (self : MessageBuilder) : Prop :=
  match self.messageType with
  | .pingRequest => self.senderId.isSome
  | .findNodeRequest | .getPeersRequest | .sampleInfoHashesRequest => self.senderId.isSome ∧ self.target.isSome
  | .announcePeerRequest =>
    self.senderId.isSome ∧ self.target.isSome ∧ self.token.isSome ∧ ¬(self.impliedPort = some false ∧ self.port = none)
  | .pingResponse | .announcePeerResponse => self.transactionId.isSome ∧ self.senderId.isSome
  | .findNodeResponse => self.transactionId.isSome ∧ self.senderId.isSome ∧ self.nodes.isSome
  | .getPeersResponse =>
    self.transactionId.isSome ∧ self.senderId.isSome ∧ self.token.isSome ∧ (self.peers.isSome ∨ self.nodes.isSome)
  | .sampleInfoHashesResponse =>
    self.transactionId.isSome ∧ self.senderId.isSome ∧ self.interval.isSome ∧ self.nodes.isSome ∧
      (∃ num, self.numInfohashes = some num ∧ num ≤ 2147483647) ∧ self.samples.isSome
  | .error => self.transactionId.isSome ∧ self.code.isSome ∧ self.description.isSome

/-- A builder without the fields that its kind does not use. -/
def onlyUsed (self : MessageBuilder) : MessageBuilder :=
  let request : MessageBuilder :=
    { messageType := self.messageType, transactionId := self.transactionId, version := self.version, readOnly := self.readOnly,
      senderId := self.senderId }
  let response : MessageBuilder :=
    { messageType := self.messageType, transactionId := self.transactionId, version := self.version,
      requesterIp := self.requesterIp, senderId := self.senderId }
  match self.messageType with
  | .pingRequest => request
  | .findNodeRequest | .getPeersRequest | .sampleInfoHashesRequest => { request with target := self.target }
  | .announcePeerRequest =>
    { request with target := self.target, token := self.token, port := self.port, impliedPort := self.impliedPort }
  | .pingResponse | .announcePeerResponse => response
  | .findNodeResponse => { response with nodes := self.nodes }
  | .getPeersResponse =>
    { response with token := self.token, peers := self.peers, nodes := if self.peers.isSome then none else self.nodes }
  | .sampleInfoHashesResponse =>
    { response with
      interval := self.interval, nodes := self.nodes, numInfohashes := self.numInfohashes, samples := self.samples }
  | .error =>
    { messageType := self.messageType, transactionId := self.transactionId, code := self.code, description := self.description }

/-- A failure that is returned. -/
def Returned (f : Failure) : Prop := ∃ e, f = .error e

/-- Whatever the random bytes, a builder builds a message if and only if it is complete and returns an error otherwise, without a panic;
and the message is of its kind, and the same whatever the fields are that its kind does not use. -/
structure BuildsRight (builder : MessageBuilder) : Prop where
  ok_iff : ∀ rng, (∃ m, builder.build rng = .ok m) ↔ builder.Complete
  error : ∀ rng, ¬builder.Complete → ∃ e, builder.build rng = .error (.error e)
  carries : ∀ rng m, builder.build rng = .ok m → builder.messageType.Carries m
  independent : ∀ rng m, builder.build rng = .ok m → ∀ other : MessageBuilder, other.onlyUsed = builder.onlyUsed → other.build rng = .ok m

/-- A sample_infohashes response counts more info hashes than 32 bits hold, and nothing that it is asked for before is missing. -/
def CountOverflows (self : MessageBuilder) : Prop :=
  self.messageType = .sampleInfoHashesResponse ∧ self.transactionId.isSome ∧ self.senderId.isSome ∧ self.interval.isSome ∧
    self.nodes.isSome ∧ ∃ num, self.numInfohashes = some num ∧ 2147483647 < num

/-- A count that overflows is none that the message can represent. -/
theorem CountOverflows.not_complete {self : MessageBuilder} (h : self.CountOverflows) : ¬self.Complete := by
  obtain ⟨htype, -, -, -, -, num, hnum, hlt⟩ := h
  rw [Complete, htype]
  rintro ⟨-, -, -, -, ⟨num', hnum', hle⟩, -⟩
  rw [hnum] at hnum'
  cases hnum'
  omega

/-! ## The checks of a build -/

/-- A required field is checked to be set. -/
theorem requiredOrError_checks {α : Type} (builderField : String) (value : Option α) :
    Checks Returned (requiredOrError builderField value) value.isSome := by
  cases value with
  | none => exact (Checks.of_error ⟨_, rfl⟩).congr (by simp)
  | some value => exact (Checks.of_ok value).congr (by simp)

/-- A request is built where its arguments are. -/
theorem buildRequestCommon_checks (self : MessageBuilder) (rng : UInt8 × UInt8) {x : Except Failure RequestSpecific} {P : Prop}
    (h : Checks Returned x P) : Checks Returned (self.buildRequestCommon rng x) P := h.bind_ok

/-- A response is built where there is a transaction id and then its arguments are. -/
theorem buildResponseCommon_checks (self : MessageBuilder) {x : Except Failure ResponseSpecific} {P : Prop}
    (h : self.transactionId.isSome → Checks Returned x P) :
    Checks Returned (self.buildResponseCommon x) (self.transactionId.isSome ∧ P) := by
  refine (requiredOrError_checks "transaction_id" self.transactionId).bind ?_
  intro htid tid
  exact (h htid).bind_ok

/-- The values of a get_peers response are peers or nodes. -/
theorem getPeersValues_checks (self : MessageBuilder) :
    Checks Returned self.getPeersValues (self.peers.isSome ∨ self.nodes.isSome) := by
  rw [getPeersValues]
  cases self.peers with
  | some peers => exact (Checks.of_ok _).congr (by simp)
  | none =>
    cases self.nodes with
    | some nodes => exact (Checks.of_ok _).congr (by simp)
    | none => exact (Checks.of_error ⟨_, rfl⟩).congr (by simp)

/-- The port of an announce_peer request is implied, or given. -/
theorem announceImpliedPort_checks (self : MessageBuilder) :
    Checks Returned self.announceImpliedPort (¬(self.impliedPort = some false ∧ self.port = none)) := by
  rw [announceImpliedPort]
  cases self.impliedPort with
  | none =>
    cases self.port with
    | some port => exact (Checks.of_ok _).congr (by simp)
    | none => exact (Checks.of_ok _).congr (by simp)
  | some implied =>
    by_cases h : implied = false ∧ self.port = none
    · obtain ⟨rfl, hport⟩ := h
      simp only [hport]
      exact (Checks.of_error ⟨_, rfl⟩).congr (by simp)
    · have hok : (!implied && self.port.isNone) = false := by
        cases implied with
        | true => rfl
        | false =>
          have hport : self.port ≠ none := fun hport => h ⟨rfl, hport⟩
          simpa using Option.isSome_iff_ne_none.mpr hport
      simp only [hok]
      exact (Checks.of_ok _).congr (by simpa using h)

/-- The number of info hashes is checked to be set, where it fits 32 bits if it is. -/
theorem numInfohashesI32_checks (self : MessageBuilder) (h : ∀ num, self.numInfohashes = some num → num ≤ 2147483647) :
    Checks Returned self.numInfohashesI32 (∃ num, self.numInfohashes = some num ∧ num ≤ 2147483647) := by
  rw [numInfohashesI32]
  cases hnum : self.numInfohashes with
  | none => exact (Checks.of_error ⟨_, rfl⟩).congr (by simp)
  | some num =>
    have hle := h num hnum
    simp only [if_pos hle]
    exact (Checks.of_ok _).congr (by simpa using hle)

/-- A number of info hashes that does not fit 32 bits panics. -/
theorem numInfohashesI32_panic (self : MessageBuilder) {num : Nat} (hnum : self.numInfohashes = some num)
    (h : 2147483647 < num) : ∃ p, self.numInfohashesI32 = .error (.panic p) := by
  rw [numInfohashesI32, hnum]
  simp only [if_neg (Nat.not_le.mpr h)]
  exact ⟨_, rfl⟩

/-- A builder whose count does not overflow builds its message where it is complete, and returns an error where it is not. -/
theorem build_checks (self : MessageBuilder) (rng : UInt8 × UInt8) (h : ¬self.CountOverflows) :
    Checks Returned (self.build rng) self.Complete := by
  have htid := requiredOrError_checks "transaction_id" self.transactionId
  have hsender := requiredOrError_checks "sender_id" self.senderId
  have htarget := requiredOrError_checks "target" self.target
  have htoken := requiredOrError_checks "token" self.token
  have hnodes := requiredOrError_checks "nodes" self.nodes
  have hinterval := requiredOrError_checks "interval" self.interval
  have hsamples := requiredOrError_checks "samples" self.samples
  have hcode := requiredOrError_checks "code" self.code
  have hdescription := requiredOrError_checks "description" self.description
  rw [build, Complete]
  cases htype : self.messageType with
  | pingRequest => exact self.buildRequestCommon_checks rng hsender.bind_ok
  | findNodeRequest => exact self.buildRequestCommon_checks rng (hsender.bind fun _ _ => htarget.bind_ok)
  | getPeersRequest => exact self.buildRequestCommon_checks rng (hsender.bind fun _ _ => htarget.bind_ok)
  | sampleInfoHashesRequest => exact self.buildRequestCommon_checks rng (hsender.bind fun _ _ => htarget.bind_ok)
  | announcePeerRequest =>
    exact self.buildRequestCommon_checks rng (hsender.bind fun _ _ => htarget.bind fun _ _ => htoken.bind fun _ _ =>
      self.announceImpliedPort_checks.bind_ok)
  | pingResponse => exact self.buildResponseCommon_checks fun _ => hsender.bind_ok
  | announcePeerResponse => exact self.buildResponseCommon_checks fun _ => hsender.bind_ok
  | findNodeResponse => exact self.buildResponseCommon_checks fun _ => hsender.bind fun _ _ => hnodes.bind_ok
  | getPeersResponse =>
    exact self.buildResponseCommon_checks fun _ => hsender.bind fun _ _ => htoken.bind fun _ _ => self.getPeersValues_checks.bind_ok
  | sampleInfoHashesResponse =>
    refine self.buildResponseCommon_checks fun htid => hsender.bind fun hid _ => hinterval.bind fun hsecs _ =>
      hnodes.bind fun hlist _ => ?_
    -- The count is looked at once all that comes before it is there.
    have hfits : ∀ num, self.numInfohashes = some num → num ≤ 2147483647 := by
      intro num hnum
      by_contra hlt
      exact h ⟨htype, htid, hid, hsecs, hlist, num, hnum, Nat.not_le.mp hlt⟩
    exact (self.numInfohashesI32_checks hfits).bind fun _ _ => hsamples.bind_ok
  | error => exact htid.bind fun _ _ => hcode.bind fun _ _ => hdescription.bind_ok

/-- A builder whose count overflows panics. -/
theorem build_panic (self : MessageBuilder) (rng : UInt8 × UInt8) (h : self.CountOverflows) :
    ∃ p, self.build rng = .error (.panic p) := by
  obtain ⟨htype, htid, hid, hinterval, hnodes, num, hnum, hlt⟩ := h
  obtain ⟨tid, htid⟩ := Option.isSome_iff_exists.mp htid
  obtain ⟨id, hid⟩ := Option.isSome_iff_exists.mp hid
  obtain ⟨interval, hinterval⟩ := Option.isSome_iff_exists.mp hinterval
  obtain ⟨nodes, hnodes⟩ := Option.isSome_iff_exists.mp hnodes
  obtain ⟨p, hp⟩ := self.numInfohashesI32_panic hnum hlt
  refine ⟨p, ?_⟩
  simp only [build, htype, buildSampleInfohashesResponse, buildResponseCommon, htid, hid, hinterval, hnodes, hp, requiredOrError]
  rfl

/-! ## The message that is built -/

/-- A built request is a request, from no one's address. -/
theorem carries_buildRequestCommon {self : MessageBuilder} {rng : UInt8 × UInt8} {x : Except Failure RequestSpecific} {m : Message}
    (h : self.buildRequestCommon rng x = .ok m) : (∃ req, m.messageType = .request req) ∧ m.requesterIp = none := by
  obtain ⟨req, -, h⟩ := bind_eq_ok.mp h
  cases h
  exact ⟨⟨req, rfl⟩, rfl⟩

/-- A built response is a response, not marked read-only. -/
theorem carries_buildResponseCommon {self : MessageBuilder} {x : Except Failure ResponseSpecific} {m : Message}
    (h : self.buildResponseCommon x = .ok m) : (∃ res, m.messageType = .response res) ∧ m.readOnly = none := by
  obtain ⟨tid, -, h⟩ := bind_eq_ok.mp h
  obtain ⟨res, -, h⟩ := bind_eq_ok.mp h
  cases h
  exact ⟨⟨res, rfl⟩, rfl⟩

/-- A built error is an error, with nothing but its transaction id around it. -/
theorem carries_buildError {self : MessageBuilder} {m : Message} (h : self.buildError = .ok m) :
    (∃ err, m.messageType = .error err) ∧ m.requesterIp = none ∧ m.readOnly = none ∧ m.version = none := by
  obtain ⟨tid, -, h⟩ := bind_eq_ok.mp h
  obtain ⟨code, -, h⟩ := bind_eq_ok.mp h
  obtain ⟨description, -, h⟩ := bind_eq_ok.mp h
  cases h
  exact ⟨⟨_, rfl⟩, rfl, rfl, rfl⟩

/-- A built message is of its builder's kind, and carries what that kind does. -/
theorem carries_build {self : MessageBuilder} {rng : UInt8 × UInt8} {m : Message} (h : self.build rng = .ok m) :
    self.messageType.Carries m := by
  rw [build] at h
  cases htype : self.messageType <;> rw [htype] at h
  case error => exact carries_buildError h
  case pingRequest | findNodeRequest | getPeersRequest | announcePeerRequest | sampleInfoHashesRequest =>
    exact carries_buildRequestCommon h
  all_goals exact carries_buildResponseCommon h

/-- The fields that the kind does not use make no difference. -/
theorem build_onlyUsed (self : MessageBuilder) (rng : UInt8 × UInt8) : self.onlyUsed.build rng = self.build rng := by
  obtain ⟨type, tid, version, ip, readOnly, id, target, port, implied, token, nodes, peers, interval, samples, num, code, description⟩ :=
    self
  cases type with
  | getPeersResponse => cases peers <;> rfl
  | _ => rfl

/-- A builder does as it should exactly where its count of info hashes does not overflow. -/
theorem buildsRight_iff (self : MessageBuilder) : self.BuildsRight ↔ ¬self.CountOverflows := by
  constructor
  · intro h hover
    have hcomplete : ¬self.Complete := hover.not_complete
    obtain ⟨p, hp⟩ := self.build_panic (0, 0) hover
    obtain ⟨e, he⟩ := h.error (0, 0) hcomplete
    rw [hp] at he
    cases he
  · intro h
    refine ⟨fun rng => (self.build_checks rng h).ok_iff, ?_, fun rng m hm => carries_build hm, ?_⟩
    · intro rng hcomplete
      obtain ⟨-, ⟨e, rfl⟩, he⟩ := (self.build_checks rng h).fails hcomplete
      exact ⟨e, he⟩
    · intro rng m hm other hother
      rw [← other.build_onlyUsed, hother, self.build_onlyUsed]
      exact hm

/-- A response that reports 2147483648 info hashes, everything else set, panics when it is built. -/
theorem not_buildsRight_2147483648 :
    let self : MessageBuilder :=
      { messageType := .sampleInfoHashesResponse, transactionId := some [1, 2], senderId := some Id.zero, interval := some 0,
        nodes := some [], samples := some [], numInfohashes := some 2147483648 }
    (∃ p, self.build (0, 0) = .error (.panic p)) ∧ ¬self.Complete ∧ ¬self.BuildsRight := by
  intro self
  have hpanic : ∃ p, self.build (0, 0) = .error (.panic p) := ⟨_, rfl⟩
  have hover : self.CountOverflows := ⟨rfl, rfl, rfl, rfl, rfl, 2147483648, rfl, by decide⟩
  refine ⟨hpanic, hover.not_complete, ?_⟩
  intro h
  obtain ⟨p, hp⟩ := hpanic
  obtain ⟨e, he⟩ := h.error (0, 0) hover.not_complete
  rw [hp] at he
  cases he

end MessageBuilder

end RustyDht
