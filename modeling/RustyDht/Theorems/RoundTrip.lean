import RustyDht.Lemmas.Wire

/-!
# The message round trip

Every message with IPv4 addresses is written, and reads back as itself, but for the interval of a sample_infohashes response, which
the wire carries in whole seconds and up to six hours. That a response reads back as the kind it is rests on the untagged variants:
each of them asks for a key that those declared after it do not write.
-/

namespace RustyDht

/-- Writing a message with IPv4 addresses succeeds, and reading the bytes gives the message back with its interval cut down. The
arguments of a response, whatever they are, deserialize to the variant they were written by. -/
theorem Message.roundTrip (codec : Bencode.Codec) (m : Message) (h : m.AllIpv4) :
    (∃ bytes, m.toBytes codec = .ok bytes ∧ Message.fromBytes codec bytes = .ok m.truncateInterval) ∧
      ∀ res : DHTResponseSpecific, DHTResponseSpecific.deserializeArguments res.arguments.entries = .ok res :=
  ⟨Message.fromBytes_toBytes codec h, DHTResponseSpecific.deserializeArguments_arguments⟩

/-- A sample_infohashes response with an interval of eleven hours and a half second reads back with one of six hours. -/
theorem Message.roundTrip_sampleInfoHashes :
    (∃ bytes,
      Message.toBytes Bencode.codec ⟨[0, 1, 2], some [1], none, .response (.sampleInfoHashesResponse
        ⟨Id.startingWith 1, 39600500000000, [⟨Id.startingWith 2, .v4 ⟨127, 0, 0, 1⟩ 1234⟩], [Id.startingWith 3], 1⟩), none⟩ =
          .ok bytes ∧
      Message.fromBytes Bencode.codec bytes = .ok ⟨[0, 1, 2], some [1], none, .response (.sampleInfoHashesResponse
        ⟨Id.startingWith 1, 21600000000000, [⟨Id.startingWith 2, .v4 ⟨127, 0, 0, 1⟩ 1234⟩], [Id.startingWith 3], 1⟩), none⟩) ∧
      ∀ res : DHTResponseSpecific, DHTResponseSpecific.deserializeArguments res.arguments.entries = .ok res := by
  refine Message.roundTrip Bencode.codec _ ⟨(fun _ h => nomatch h), ?_⟩
  intro n hn
  rw [List.mem_singleton.mp hn]
  rfl

end RustyDht
