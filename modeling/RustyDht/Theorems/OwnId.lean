import RustyDht.Lemmas.Identity
import RustyDht.Theorems.Consensus

/-!
# The id follows the votes

A DHT whose address source is the consensus has, for each address, the votes of the nodes that responded and whose ids are valid for
their own addresses, one fewer for every turn of the maintenance. Its id is the one it began with until a turn finds an address elected,
and from then on it is valid for an address elected at the last such turn.
-/

namespace RustyDht

/-! ## Elections -/

namespace IdentityEvent

/-- The call on the consensus. -/
def op : IdentityEvent → VoteOp
  | .vote theirAddr proposedAddr => .addVote theirAddr proposedAddr
  | .maintenance _ => .decay

/-- The votes of an address after some events: one more for every vote on it, up to the most, and one fewer for every turn of the
maintenance. -/
def count (maxVotes : Nat) (happened : List IdentityEvent) (ip : Ipv4Addr) : Nat :=
  Machine.run (VoteOp.count maxVotes ip) 0 (happened.map op)

/-- An event is a vote on an address. -/
def isVoteOn (ip : Ipv4Addr) : IdentityEvent → Bool
  | .vote _ proposedAddr => proposedAddr = ip
  | .maintenance _ => false

/-- Some events end with a turn of the maintenance that finds an address elected: no other has more votes, and it has enough of them,
and any. -/
def Elects (minVotes maxVotes : Nat) (happened : List IdentityEvent) (ip : Ipv4Addr) : Prop :=
  (∃ before rng, happened = before ++ [.maintenance rng]) ∧ IPV4Consensus.Leads minVotes (count maxVotes happened) ip

/-- An id is the first one, where no turn of the maintenance has elected an address; or it is valid for one that the last turn which has
elected any has elected. -/
def Follows (env : Env SoundConsensus) (minVotes maxVotes : Nat) (first : Id) (happened : List IdentityEvent) (ourId : Id) : Prop :=
  (ourId = first ∧ ∀ upTo, upTo <+: happened → ∀ ip, ¬Elects minVotes maxVotes upTo ip) ∨
  ∃ upTo ip, upTo <+: happened ∧ Elects minVotes maxVotes upTo ip ∧
    ourId.isValidForIp env.checksumCastagnoli (.v4 ip) = .ok true ∧
    ∀ longer, longer <+: happened → upTo.length < longer.length → ∀ ip, ¬Elects minVotes maxVotes longer ip

variable {minVotes maxVotes : Nat} {happened : List IdentityEvent} {ip : Ipv4Addr}

/-- One more event. -/
theorem count_append (maxVotes : Nat) (happened : List IdentityEvent) (e : IdentityEvent) :
    count maxVotes (happened ++ [e]) = e.op.tally maxVotes (count maxVotes happened) := by
  have htally : ∀ events, count maxVotes events = Machine.run (VoteOp.tally maxVotes) (fun _ => 0) (events.map op) :=
    fun events => funext (fun ip => (IPV4Consensus.run_tally maxVotes _ ip).symm)
  rw [htally, htally, List.map_append, Machine.run_append]
  rfl

/-- An address has no more votes than it was given. -/
theorem count_le (maxVotes : Nat) (happened : List IdentityEvent) (ip : Ipv4Addr) :
    count maxVotes happened ip ≤ happened.countP (isVoteOn ip) := by
  induction happened using List.reverseRecOn with
  | nil => simp [count]
  | append_singleton happened e ih =>
    rw [count_append, List.countP_append, List.countP_singleton]
    cases e with
    | vote theirAddr proposedAddr =>
      by_cases hip : proposedAddr = ip
      · subst hip
        simp [op, VoteOp.tally, isVoteOn]
        omega
      · simpa [op, VoteOp.tally, isVoteOn, Function.update_of_ne (Ne.symm hip), hip] using ih
    | maintenance rng =>
      simp [op, VoteOp.tally, isVoteOn]
      omega

/-- An address that is elected was given enough votes. -/
theorem Elects.enough (h : Elects minVotes maxVotes happened ip) : max 1 minVotes ≤ happened.countP (isVoteOn ip) := by
  have hle := count_le maxVotes happened ip
  have hpos := h.2.pos
  have henough := h.2.enough
  omega

/-- Where the id has followed the votes and an event elects an address for which the id is valid after it, it follows them. -/
theorem Follows.of_elects {env : Env SoundConsensus} {first ourId : Id} {e : IdentityEvent}
    (helects : Elects minVotes maxVotes (happened ++ [e]) ip)
    (hvalid : ourId.isValidForIp env.checksumCastagnoli (.v4 ip) = .ok true) :
    Follows env minVotes maxVotes first (happened ++ [e]) ourId :=
  .inr ⟨_, ip, List.prefix_refl _, helects, hvalid, fun _ hlonger hlt => absurd hlonger.length_le (not_le_of_gt hlt)⟩

/-- Where the id has followed the votes and an event elects no address and leaves it as it is, it follows them. -/
theorem Follows.append {env : Env SoundConsensus} {first ourId : Id} {e : IdentityEvent}
    (h : Follows env minVotes maxVotes first happened ourId) (hnot : ∀ ip, ¬Elects minVotes maxVotes (happened ++ [e]) ip) :
    Follows env minVotes maxVotes first (happened ++ [e]) ourId := by
  rcases h with ⟨hfirst, hnone⟩ | ⟨upTo, ip, hprefix, helects, hvalid, hlast⟩
  · refine .inl ⟨hfirst, fun upTo hupTo => ?_⟩
    rcases List.prefix_concat_iff.mp hupTo with rfl | hupTo
    · exact hnot
    · exact hnone upTo hupTo
  · refine .inr ⟨upTo, ip, hprefix.trans (List.prefix_append _ _), helects, hvalid, fun longer hlonger hlt => ?_⟩
    rcases List.prefix_concat_iff.mp hlonger with rfl | hlonger
    · exact hnot
    · exact hlast longer hlonger hlt

end IdentityEvent

/-! ## The consensus as a source -/

namespace SoundConsensus

variable {f : Ipv4Addr → Nat} {ip : Ipv4Addr}

/-- A consensus that has no votes. -/
def new (minVotes maxVotes : Nat) (hmin : minVotes < 2 ^ 31) (hpos : 1 ≤ maxVotes) (hmax : maxVotes ≤ 2 ^ 31 - 2) : SoundConsensus where
  toIPV4Consensus := .new minVotes maxVotes
  sound := ⟨_, IPV4Consensus.new_represents hmin hpos hmax⟩

/-- A call leaves a consensus of the tally after it, with the settings it had. -/
theorem apply_next (self : SoundConsensus) (h : self.toIPV4Consensus.Represents f) (op : VoteOp) :
    self.toIPV4Consensus.Next f (op.tally self.maxVotes f) (self.apply op).toIPV4Consensus := by
  obtain ⟨s, hs, hnext⟩ := h.apply op
  have heq : s = (self.apply op).toIPV4Consensus := Except.ok.inj (hs.symm.trans (self.apply_eq op))
  exact heq ▸ hnext

/-- The best address is the one that leads, if any does. -/
theorem best_leads (self : SoundConsensus) (h : self.toIPV4Consensus.Represents f) :
    (∀ ip, self.best = some ip → IPV4Consensus.Leads self.minVotes f ip) ∧
      (self.best = none → ∀ ip, ¬IPV4Consensus.Leads self.minVotes f ip) := by
  refine ⟨fun ip hip => ?_, fun hnone ip hleads => ?_⟩
  · obtain ⟨hfirst, henough⟩ := h.best_eq_some_iff.mp (self.best_eq.trans (by rw [hip]))
    exact ⟨h.le_of_first hfirst, henough, h.first_pos hfirst⟩
  · obtain ⟨other, hfirst⟩ := Option.isSome_iff_exists.mp (h.first_isSome.mpr ⟨ip, hleads.pos⟩)
    have hmost := h.best_eq_some_iff.mpr ⟨hfirst, hleads.enough.trans (h.le_of_first hfirst ip)⟩
    rw [self.best_eq, hnone] at hmost
    cases hmost

end SoundConsensus

/-! ## Every run -/

namespace Identity

open IdentityEvent

/-- What is known of an identity after some events: the consensus has the votes of each address, and the id has followed them. -/
structure Tallied (env : Env SoundConsensus) (minVotes maxVotes : Nat) (first : Id) (happened : List IdentityEvent)
    (s : Identity SoundConsensus) : Prop where
  represents : s.ip4Source.toIPV4Consensus.Represents (count maxVotes happened)
  minVotes_eq : s.ip4Source.minVotes = minVotes
  maxVotes_eq : s.ip4Source.maxVotes = maxVotes
  follows : Follows env minVotes maxVotes first happened s.ourId

variable {env : Env SoundConsensus} {minVotes maxVotes : Nat} {first : Id} {happened : List IdentityEvent} {s : Identity SoundConsensus}

/-- One more event. -/
theorem Tallied.step (henv : env.ip4Source = .consensus) (h : Tallied env minVotes maxVotes first happened s) (e : IdentityEvent) :
    Tallied env minVotes maxVotes first (happened ++ [e]) (Identity.step env s e) := by
  obtain ⟨hrepresents, hmin, hmax⟩ := s.ip4Source.apply_next h.represents e.op
  rw [h.maxVotes_eq, ← count_append] at hrepresents
  cases e with
  | vote theirAddr proposedAddr =>
    have hsource : (Identity.step env s (.vote theirAddr proposedAddr)).ip4Source =
        s.ip4Source.apply (.addVote theirAddr proposedAddr) := by
      unfold Identity.step
      rw [henv]
      rfl
    refine ⟨hsource ▸ hrepresents, hsource ▸ hmin.trans h.minVotes_eq, hsource ▸ hmax.trans h.maxVotes_eq, h.follows.append ?_⟩
    rintro ip ⟨⟨before, rng, hturn⟩, -⟩
    cases (List.append_inj' hturn rfl).2
  | maintenance rng =>
    have hstep : Identity.step env s (.maintenance rng) =
        { ip4Source := s.ip4Source.apply .decay
          ourId := (s.ip4Source.apply .decay).best.elim s.ourId (fun ip => idFor env ip rng s.ourId) } := by
      unfold Identity.step
      rw [henv]
      cases hbest : (s.ip4Source.apply .decay).best <;> simp [IPV4AddrSource.consensus, hbest]
    obtain ⟨hsome, hnone⟩ := (s.ip4Source.apply .decay).best_leads hrepresents
    have hmin' : (s.ip4Source.apply .decay).minVotes = minVotes := hmin.trans h.minVotes_eq
    rw [hmin'] at hsome hnone
    rw [hstep]
    refine ⟨hrepresents, hmin', hmax.trans h.maxVotes_eq, ?_⟩
    cases hbest : (s.ip4Source.apply .decay).best with
    | some ip => exact .of_elects ⟨⟨happened, rng, rfl⟩, hsome ip hbest⟩ (idFor_valid env ip rng s.ourId)
    | none => exact h.follows.append (fun ip helects => hnone hbest ip helects.2)

/-- After all events. -/
theorem Tallied.run (henv : env.ip4Source = .consensus) (hmin : minVotes < 2 ^ 31) (hpos : 1 ≤ maxVotes) (hmax : maxVotes ≤ 2 ^ 31 - 2)
    (first : Id) (happened : List IdentityEvent) : Tallied env minVotes maxVotes first happened
      (Machine.run (Identity.step env) ⟨.new minVotes maxVotes hmin hpos hmax, first⟩ happened) := by
  induction happened using List.reverseRecOn with
  | nil =>
    refine ⟨IPV4Consensus.new_represents hmin hpos hmax, rfl, rfl, .inl ⟨rfl, ?_⟩⟩
    rintro upTo hupTo ip ⟨⟨before, rng, rfl⟩, -⟩
    simp at hupTo
  | append_singleton happened e ih =>
    rw [Machine.run_append]
    exact ih.step henv e

end Identity

namespace DHT

open IdentityEvent

/-- In every run of a new DHT whose address source is a consensus, the consensus has for each address the votes that it was given in the
responses handled, of nodes whose ids are valid for their own addresses, one fewer for every turn of the maintenance; the id is the one
it began with, until a turn of the maintenance finds an address elected, and then valid for an address elected at the last such turn; and
an address is elected only where enough such responses reported it. -/
theorem run_followsVotes (env : Env SoundConsensus) (henv : env.ip4Source = .consensus) (minVotes maxVotes : Nat)
    (hmin : minVotes < 2 ^ 31) (hpos : 1 ≤ maxVotes) (hmax : maxVotes ≤ 2 ^ 31 - 2) {id : Option Id} {buckets : NodeBucketStorage}
    {settings : DHTSettings} {rng secretRng : Nat → UInt8} {random : Id} {s : DHT SoundConsensus}
    (hnew : new env id (.new minVotes maxVotes hmin hpos hmax) buckets settings rng secretRng random = .ok s) (events : List Event) :
    let s' := Machine.run (step env) s events
    let happened := Machine.outputs (step env) (identityEvents env) s events
    (∀ ip, s'.ip4Source.votesOf ip = count maxVotes happened ip) ∧
      Follows env minVotes maxVotes s.ourId happened s'.ourId ∧
      ∀ upTo ip, Elects minVotes maxVotes upTo ip → max 1 minVotes ≤ upTo.countP (isVoteOn ip) := by
  intro s' happened
  have hidentity : s'.identity = Machine.run (Identity.step env) s.identity happened :=
    Machine.run_part (step env) (I := fun _ => True) identity (identityEvents env) (fun _ _ _ => trivial)
      (fun s e _ => step_identity env s e) events s trivial
  have hstart : s.identity = ⟨.new minVotes maxVotes hmin hpos hmax, s.ourId⟩ := by
    obtain ⟨ourId, tokenSecret, rfl⟩ := eq_of_new hnew
    rfl
  have htallied := Identity.Tallied.run henv hmin hpos hmax s.ourId happened
  rw [← hstart, ← hidentity] at htallied
  exact ⟨htallied.represents.find, htallied.follows, fun upTo ip helects => helects.enough⟩

/-- An environment whose address source is a consensus. -/
def sampleVotingEnv : Env SoundConsensus :=
  { sort := .insertion, checksumCastagnoli := crc32c, codec := Bencode.codec, ip4Source := .consensus }

/-- A new DHT with the id zero, which elects an address that one vote is left for. -/
def sampleVotingDht : DHT SoundConsensus :=
  expect (orPanic (new sampleVotingEnv (some Id.zero) (.new 1 10 (by decide) (by decide) (by decide)) (.new Id.zero 8) .default
    (fun _ => 0) (fun _ => 0) Id.zero)) rfl

/-- A response to a ping, which says that our address is 1.2.3.4. -/
def sampleVotePacket : List UInt8 :=
  Bencode.ascii "d2:ip6:" ++ ([1, 2, 3, 4, 0, 1] : List UInt8) ++ Bencode.ascii "1:rd2:id20:" ++ (Id.startingWith 2).bytes ++
    Bencode.ascii "e1:t2:" ++ ([0, 0] : List UInt8) ++ Bencode.ascii "1:y1:re"

/-- A node is asked twice and reports an address each time. -/
def sampleVotes : List Event :=
  [.routerPing [[.v4 ⟨127, 0, 0, 1⟩ 6881]], .runSpawned 0 0 (0, 0), .packet sampleVotePacket ⟨127, 0, 0, 1⟩ 6881,
    .response 0 0 0 (fun _ => 0), .routerPing [[.v4 ⟨127, 0, 0, 1⟩ 6881]], .runSpawned 0 0 (0, 0),
    .packet sampleVotePacket ⟨127, 0, 0, 1⟩ 6881, .response 0 0 0 (fun _ => 0), .ip4Maintenance (fun _ => 0)]

/-- The address reported is elected. -/
theorem run_followsVotes_two :
    let s' := Machine.run (step sampleVotingEnv) sampleVotingDht sampleVotes
    let happened := Machine.outputs (step sampleVotingEnv) (identityEvents sampleVotingEnv) sampleVotingDht sampleVotes
    (∀ ip, s'.ip4Source.votesOf ip = count 10 happened ip) ∧
      Follows sampleVotingEnv 1 10 sampleVotingDht.ourId happened s'.ourId ∧
      ∀ upTo ip, Elects 1 10 upTo ip → max 1 1 ≤ upTo.countP (isVoteOn ip) :=
  run_followsVotes sampleVotingEnv rfl 1 10 (by decide) (by decide) (by decide)
    (show new sampleVotingEnv (some Id.zero) (.new 1 10 (by decide) (by decide) (by decide)) (.new Id.zero 8) .default (fun _ => 0)
      (fun _ => 0) Id.zero = .ok sampleVotingDht from rfl) sampleVotes

end DHT

end RustyDht
