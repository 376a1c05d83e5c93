import RustyDht.Wire

/-!
# Lemmas about the wire format

Every record of a list reads back, every wire message deserializes to itself, and what the public message is converted to converts
back to it.
-/

namespace RustyDht

open Bencode (Value Fields Codec Canonical require optional firstOk ascii require_entries require_entries_none optional_entries)

/-! ## Records -/

/-- A 16-bit word's bytes read back. -/
theorem u16FromBeBytes_u16ToBeBytes (x : UInt16) : u16FromBeBytes (x >>> 8).toUInt8 x.toUInt8 = x := by
  have hx : x.toNat < 2 ^ 16 := x.toNat_lt
  have hhi : (x >>> 8).toNat = x.toNat / 256 := by
    rw [UInt16.toNat_shiftRight]
    exact Nat.shiftRight_eq_div_pow _ _
  rw [← UInt16.toNat_inj, u16FromBeBytes, UInt16.toNat_or, UInt16.toNat_shiftLeft, UInt8.toNat_toUInt16, UInt8.toNat_toUInt16,
    UInt16.toNat_toUInt8, UInt16.toNat_toUInt8, hhi]
  have hlt : x.toNat % 2 ^ 8 < 2 ^ 8 := Nat.mod_lt _ (by decide)
  have h8 : (8 : UInt16).toNat % 16 = 8 := rfl
  rw [h8, Nat.mod_eq_of_lt (a := x.toNat / 256) (by omega), Nat.shiftLeft_eq, Nat.mod_eq_of_lt (by omega),
    ← Nat.shiftLeft_eq, ← Nat.shiftLeft_add_eq_or_of_lt hlt, Nat.shiftLeft_eq]
  omega

/-- An IPv4 address reads back. -/
theorem bytesToSockaddr_sockaddrToBytes {addr : SocketAddr} (h : addr.isIpv4 = true) :
    bytesToSockaddr (sockaddrToBytes addr) = .ok addr := by
  cases addr with
  | v4 ip port =>
    simp only [sockaddrToBytes, Ipv4Addr.octets, u16ToBeBytes, List.cons_append, List.nil_append, bytesToSockaddr,
      u16FromBeBytes_u16ToBeBytes]
  | v6 ip port flowinfo scopeId => exact absurd h Bool.false_ne_true

/-- The bytes of an IPv4 address are six. -/
theorem length_sockaddrToBytes {addr : SocketAddr} (h : addr.isIpv4 = true) : (sockaddrToBytes addr).length = 6 := by
  cases addr with
  | v4 ip port => rfl
  | v6 ip port flowinfo scopeId => exact absurd h Bool.false_ne_true

/-- An id reads back. -/
theorem Id.fromBytes_toVec (id : Id) : Id.fromBytes id.toVec = .ok id := dif_pos id.size

/-- The bytes of a node at an IPv4 address are 26. -/
theorem length_node4ToBytes {node : Node} (h : node.address.isIpv4 = true) : (node4ToBytes node).length = node4ByteSize := by
  rw [node4ToBytes, List.length_append, length_sockaddrToBytes h, Id.toVec, node.id.size, node4ByteSize]

/-- A node at an IPv4 address reads back. -/
theorem bytesToNode4_node4ToBytes {node : Node} (h : node.address.isIpv4 = true) :
    bytesToNode4 (node4ToBytes node) = .ok node := by
  have hid : Framing.slice (node4ToBytes node) 0 idSize = node.id.toVec := List.take_left' node.id.size
  have haddr : Framing.slice (node4ToBytes node) idSize node4ByteSize = sockaddrToBytes node.address := by
    rw [Framing.slice, node4ToBytes, List.drop_left' (show node.id.toVec.length = idSize from node.id.size)]
    exact List.take_of_length_le (by rw [length_sockaddrToBytes h]; decide)
  rw [bytesToNode4, hid, haddr, Id.fromBytes_toVec, bytesToSockaddr_sockaddrToBytes h]
  rfl

/-- A list of nodes at IPv4 addresses reads back. -/
theorem bytesToNodes4_nodes4ToBytes {nodes : List Node} (h : ∀ n ∈ nodes, n.address.isIpv4 = true) :
    bytesToNodes4 (nodes4ToBytes nodes) = .ok nodes := by
  have hlen : ∀ n ∈ nodes, (node4ToBytes n).length = node4ByteSize := fun n hn => length_node4ToBytes (h n hn)
  rw [bytesToNodes4, if_neg, nodes4ToBytes]
  · exact Framing.mapSlices_flatMap (by decide) hlen (fun n hn => bytesToNode4_node4ToBytes (h n hn))
  · rw [nodes4ToBytes, Framing.length_flatMap hlen, Nat.mul_mod_left]
    exact not_not_intro rfl

/-- A list of IPv4 peers reads back. -/
theorem bytesToPeers_peersToBytes {peers : List SocketAddr} (h : ∀ p ∈ peers, p.isIpv4 = true) :
    bytesToPeers (peersToBytes peers) = .ok peers := by
  induction peers with
  | nil => rfl
  | cons p peers ih =>
    have hrest := ih (fun q hq => h q (List.mem_cons_of_mem p hq))
    rw [bytesToPeers, peersToBytes] at hrest ⊢
    rw [List.map_cons, List.mapM_cons, hrest, bytesToSockaddr_sockaddrToBytes (h p List.mem_cons_self)]
    rfl

/-- A list of samples reads back. -/
theorem bytesToSamples_samplesToBytes (samples : List Id) : bytesToSamples (samplesToBytes samples) = .ok samples := by
  have hlen : ∀ id ∈ samples, id.toVec.length = idSize := fun id _ => id.size
  rw [bytesToSamples, if_neg, samplesToBytes]
  · exact Framing.mapSlices_flatMap (by decide) hlen (fun id _ => Id.fromBytes_toVec id)
  · rw [samplesToBytes, Framing.length_flatMap hlen, Nat.mul_mod_left]
    exact not_not_intro rfl

/-! ## Integers -/

theorem Value.asI32_int (x : Int32) : Value.asI32 (.int x.toInt) = .ok x := by
  have h : Int32.minValue.toInt ≤ x.toInt ∧ x.toInt ≤ Int32.maxValue.toInt := ⟨x.minValue_le_toInt, x.toInt_le⟩
  simp only [Value.asI32, Value.asInt, bind, Except.bind, if_pos h, Int32.ofInt_toInt]
  rfl

theorem Value.asU16_int (x : UInt16) : Value.asU16 (.int x.toNat) = .ok x := by
  have h : 0 ≤ (x.toNat : Int) ∧ (x.toNat : Int) ≤ 65535 := by
    have := x.toNat_lt
    omega
  simp only [Value.asU16, Value.asInt, bind, Except.bind, if_pos h, Int.toNat_natCast, UInt16.ofNat_toNat]
  rfl

theorem Value.asU8_int (x : UInt8) : Value.asU8 (.int x.toNat) = .ok x := by
  have h : 0 ≤ (x.toNat : Int) ∧ (x.toNat : Int) ≤ 255 := by
    have := x.toNat_lt
    omega
  simp only [Value.asU8, Value.asInt, bind, Except.bind, if_pos h, Int.toNat_natCast, UInt8.ofNat_toNat]
  rfl

theorem Value.asByteBufs_list (l : List (List UInt8)) : Value.asByteBufs (.list (l.map .bytes)) = .ok l := by
  induction l with
  | nil => rfl
  | cons s l ih =>
    simp only [Value.asByteBufs, Value.asList, bind, Except.bind] at ih ⊢
    rw [List.map_cons, List.mapM_cons, ih]
    rfl

/-! ## Arguments -/

theorem DHTPingArguments.deserialize_entries (a : DHTPingArguments) : deserialize a.fields.entries = .ok a := by
  have hd : Fields.Distinct (a.fields.map Prod.fst) := show Fields.Distinct ["id"] by decide
  rw [deserialize, require_entries hd rfl]
  rfl

theorem DHTFindNodeArguments.deserialize_entries (a : DHTFindNodeArguments) : deserialize a.fields.entries = .ok a := by
  have hd : Fields.Distinct (a.fields.map Prod.fst) := show Fields.Distinct ["id", "target"] by decide
  rw [deserialize, require_entries hd rfl, require_entries hd rfl]
  rfl

theorem DHTGetPeersArguments.deserialize_entries (a : DHTGetPeersArguments) : deserialize a.fields.entries = .ok a := by
  have hd : Fields.Distinct (a.fields.map Prod.fst) := show Fields.Distinct ["id", "info_hash"] by decide
  rw [deserialize, require_entries hd rfl, require_entries hd rfl]
  rfl

theorem DHTSampleInfoHashesRequestArguments.deserialize_entries (a : DHTSampleInfoHashesRequestArguments) :
    deserialize a.fields.entries = .ok a := by
  have hd : Fields.Distinct (a.fields.map Prod.fst) := show Fields.Distinct ["id", "target"] by decide
  rw [deserialize, require_entries hd rfl, require_entries hd rfl]
  rfl

theorem DHTAnnouncePeerRequestArguments.deserialize_entries (a : DHTAnnouncePeerRequestArguments) :
    deserialize a.fields.entries = .ok a := by
  have hd : Fields.Distinct (a.fields.map Prod.fst) :=
    show Fields.Distinct ["id", "info_hash", "port", "token", "implied_port"] by decide
  rw [deserialize, require_entries hd rfl, require_entries hd rfl, require_entries hd rfl, require_entries hd rfl,
    optional_entries hd rfl (fun x _ => Value.asU8_int x), Value.asU16_int]
  rfl

theorem DHTPingResponseArguments.deserialize_entries (a : DHTPingResponseArguments) :
    deserialize a.fields.entries = .ok a := by
  have hd : Fields.Distinct (a.fields.map Prod.fst) := show Fields.Distinct ["id"] by decide
  rw [deserialize, require_entries hd rfl]
  rfl

theorem DHTFindNodeResponseArguments.deserialize_entries (a : DHTFindNodeResponseArguments) :
    deserialize a.fields.entries = .ok a := by
  have hd : Fields.Distinct (a.fields.map Prod.fst) := show Fields.Distinct ["id", "nodes"] by decide
  rw [deserialize, require_entries hd rfl, require_entries hd rfl]
  rfl

theorem DHTGetPeersResponseArguments.deserialize_entries (a : DHTGetPeersResponseArguments) :
    deserialize a.fields.entries = .ok a := by
  have hd : Fields.Distinct (a.fields.map Prod.fst) := show Fields.Distinct ["id", "token", "nodes", "values"] by decide
  rw [deserialize, require_entries hd rfl, require_entries hd rfl, optional_entries hd rfl (fun s _ => Value.asBytes_bytes s),
    optional_entries hd rfl (fun l _ => Value.asByteBufs_list l)]
  rfl

theorem DHTSampleInfoHashesResponseArguments.deserialize_entries (a : DHTSampleInfoHashesResponseArguments) :
    deserialize a.fields.entries = .ok a := by
  have hd : Fields.Distinct (a.fields.map Prod.fst) :=
    show Fields.Distinct ["id", "interval", "nodes", "num", "samples"] by decide
  rw [deserialize, require_entries hd rfl, require_entries hd rfl, require_entries hd rfl, require_entries hd rfl,
    require_entries hd rfl, Value.asI32_int, Value.asI32_int]
  rfl

/-! ## Untagged responses -/

/-- Arguments without a token are not those of a get_peers response. -/
theorem DHTGetPeersResponseArguments.deserialize_of_no_token {fs : Fields} (hd : Fields.Distinct (fs.map Prod.fst))
    (h : fs.get "token" = none) : ∃ e, deserialize fs.entries = .error e := by
  rw [deserialize, require_entries_none hd h]
  cases require fs.entries "id" Value.asBytes with
  | error e => exact ⟨e, rfl⟩
  | ok id => exact ⟨_, rfl⟩

/-- Arguments without an interval are not those of a sample_infohashes response. -/
theorem DHTSampleInfoHashesResponseArguments.deserialize_of_no_interval {fs : Fields}
    (hd : Fields.Distinct (fs.map Prod.fst)) (h : fs.get "interval" = none) : ∃ e, deserialize fs.entries = .error e := by
  rw [deserialize, require_entries_none hd h]
  cases require fs.entries "id" Value.asBytes with
  | error e => exact ⟨e, rfl⟩
  | ok id => exact ⟨_, rfl⟩

/-- Arguments without nodes are not those of a find_node response. -/
theorem DHTFindNodeResponseArguments.deserialize_of_no_nodes {fs : Fields} (hd : Fields.Distinct (fs.map Prod.fst))
    (h : fs.get "nodes" = none) : ∃ e, deserialize fs.entries = .error e := by
  rw [deserialize, require_entries_none hd h]
  cases require fs.entries "id" Value.asBytes with
  | error e => exact ⟨e, rfl⟩
  | ok id => exact ⟨_, rfl⟩

/-- The untagged variants never resolve the arguments of a response to another variant than its own. -/
theorem DHTResponseSpecific.deserializeArguments_arguments (res : DHTResponseSpecific) :
    deserializeArguments res.arguments.entries = .ok res := by
  cases res with
  | getPeers a =>
    rw [deserializeArguments, arguments, DHTGetPeersResponseArguments.deserialize_entries]
    rfl
  | sampleInfoHashes a =>
    have hd : Fields.Distinct (a.fields.map Prod.fst) :=
      show Fields.Distinct ["id", "interval", "nodes", "num", "samples"] by decide
    obtain ⟨e, he⟩ := DHTGetPeersResponseArguments.deserialize_of_no_token hd rfl
    rw [deserializeArguments, arguments, he, DHTSampleInfoHashesResponseArguments.deserialize_entries]
    rfl
  | findNode a =>
    have hd : Fields.Distinct (a.fields.map Prod.fst) := show Fields.Distinct ["id", "nodes"] by decide
    obtain ⟨e, he⟩ := DHTGetPeersResponseArguments.deserialize_of_no_token hd rfl
    obtain ⟨e', he'⟩ := DHTSampleInfoHashesResponseArguments.deserialize_of_no_interval hd rfl
    rw [deserializeArguments, arguments, he, he', DHTFindNodeResponseArguments.deserialize_entries]
    rfl
  | ping a =>
    have hd : Fields.Distinct (a.fields.map Prod.fst) := show Fields.Distinct ["id"] by decide
    obtain ⟨e, he⟩ := DHTGetPeersResponseArguments.deserialize_of_no_token hd rfl
    obtain ⟨e', he'⟩ := DHTSampleInfoHashesResponseArguments.deserialize_of_no_interval hd rfl
    obtain ⟨e'', he''⟩ := DHTFindNodeResponseArguments.deserialize_of_no_nodes hd rfl
    rw [deserializeArguments, arguments, he, he', he'', DHTPingResponseArguments.deserialize_entries]
    rfl

/-! ## Messages -/

/-- A request deserializes from any record that has its tag and its arguments. -/
theorem DHTRequestSpecific.deserialize_entries (req : DHTRequestSpecific) {fs : Fields}
    (hd : Fields.Distinct (fs.map Prod.fst)) (hq : fs.get "q" = req.fields.get "q") (ha : fs.get "a" = req.fields.get "a") :
    deserialize fs.entries = .ok req := by
  cases req with
  | ping a =>
    rw [deserialize, require_entries hd hq, require_entries hd ha]
    simp only [Value.asBytes, Value.asDict, Value.ofFields, bind, Except.bind, if_true, a.deserialize_entries]
    rfl
  | findNode a =>
    rw [deserialize, require_entries hd hq, require_entries hd ha]
    simp only [Value.asBytes, Value.asDict, Value.ofFields, bind, Except.bind, if_true, a.deserialize_entries]
    rw [if_neg (by decide)]
    rfl
  | getPeers a =>
    rw [deserialize, require_entries hd hq, require_entries hd ha]
    simp only [Value.asBytes, Value.asDict, Value.ofFields, bind, Except.bind, if_true, a.deserialize_entries]
    rw [if_neg (by decide), if_neg (by decide)]
    rfl
  | announcePeer a =>
    rw [deserialize, require_entries hd hq, require_entries hd ha]
    simp only [Value.asBytes, Value.asDict, Value.ofFields, bind, Except.bind, if_true, a.deserialize_entries]
    rw [if_neg (by decide), if_neg (by decide), if_neg (by decide)]
    rfl
  | sampleInfoHashes a =>
    rw [deserialize, require_entries hd hq, require_entries hd ha]
    simp only [Value.asBytes, Value.asDict, Value.ofFields, bind, Except.bind, if_true, a.deserialize_entries]
    rw [if_neg (by decide), if_neg (by decide), if_neg (by decide), if_neg (by decide)]
    rfl

/-- A message's variant deserializes from any record that has its fields. -/
theorem DHTMessageVariant.deserialize_entries (variant : DHTMessageVariant) {fs : Fields}
    (hd : Fields.Distinct (fs.map Prod.fst))
    (h : ∀ key ∈ ["y", "q", "a", "r", "e"], fs.get key = variant.fields.get key) : deserialize fs.entries = .ok variant := by
  cases variant with
  | dhtRequest req =>
    have hy : fs.get "y" = tag "q" := h "y" (by decide)
    have hreq : DHTRequestSpecific.deserialize fs.entries = .ok req := by
      refine req.deserialize_entries hd ?_ ?_
      · cases req <;> exact h "q" (by decide)
      · cases req <;> exact h "a" (by decide)
    rw [deserialize, require_entries hd hy]
    simp only [Value.asBytes, bind, Except.bind, if_true, hreq]
    rfl
  | dhtResponse res =>
    have hy : fs.get "y" = tag "r" := h "y" (by decide)
    have hr : fs.get "r" = some (.ofFields res.arguments) := h "r" (by decide)
    rw [deserialize, require_entries hd hy]
    simp only [Value.asBytes, bind, Except.bind, if_true, DHTResponseSpecific.deserialize]
    rw [if_neg (by decide), require_entries hd hr]
    simp only [Value.asDict, Value.ofFields, res.deserializeArguments_arguments]
    rfl
  | dhtError err =>
    have hy : fs.get "y" = tag "e" := h "y" (by decide)
    have he : fs.get "e" = some (.list err.errorInfo) := h "e" (by decide)
    rw [deserialize, require_entries hd hy]
    simp only [Value.asBytes, bind, Except.bind, if_true]
    rw [if_neg (by decide), if_neg (by decide), require_entries hd he]
    rfl

/-- The keys of a message are distinct. -/
theorem DHTMessage.fields_distinct (msg : DHTMessage) : Fields.Distinct (msg.fields.map Prod.fst) := by
  have hq : Fields.Distinct ["t", "v", "y", "q", "a", "ip", "ro"] := by decide
  have hr : Fields.Distinct ["t", "v", "y", "r", "ip", "ro"] := by decide
  have he : Fields.Distinct ["t", "v", "y", "e", "ip", "ro"] := by decide
  obtain ⟨t, v, variant, ip, ro⟩ := msg
  cases variant with
  | dhtRequest req => cases req <;> exact hq
  | dhtResponse res => exact hr
  | dhtError err => exact he

/-- The keys of a message's variant. -/
theorem DHTMessageVariant.keys_subset (variant : DHTMessageVariant) : variant.fields.map Prod.fst ⊆ ["y", "q", "a", "r", "e"] := by
  have hq : ["y", "q", "a"] ⊆ ["y", "q", "a", "r", "e"] := by simp
  have hr : ["y", "r"] ⊆ ["y", "q", "a", "r", "e"] := by simp
  have he : ["y", "e"] ⊆ ["y", "q", "a", "r", "e"] := by simp
  cases variant with
  | dhtRequest req => cases req <;> exact hq
  | dhtResponse res => exact hr
  | dhtError err => exact he

/-- A message has the fields of its variant. -/
theorem DHTMessage.get_fields (msg : DHTMessage) : ∀ key ∈ ["y", "q", "a", "r", "e"],
    msg.fields.get key = msg.variant.fields.get key := by
  intro key hkey
  have hhead : ∀ key ∈ ["y", "q", "a", "r", "e"], ∀ k ∈ ["t", "v"], ascii k ≠ ascii key := by decide
  have htail : ∀ key ∈ ["y", "q", "a", "r", "e"], ∀ k ∈ ["ip", "ro"], ascii k ≠ ascii key := by decide
  rw [fields, Fields.get_append_of_not_mem_right, Fields.get_append_of_not_mem_left]
  · intro f hf
    exact hhead key hkey f.1 (List.mem_map_of_mem (f := Prod.fst) hf)
  · intro f hf
    exact htail key hkey f.1 (List.mem_map_of_mem (f := Prod.fst) hf)

/-- After its variant a message has its address and its mark. -/
theorem DHTMessage.get_fields_tail (msg : DHTMessage) : ∀ key ∈ ["ip", "ro"],
    msg.fields.get key = Fields.get key [("ip", msg.ip.map .bytes), ("ro", msg.readOnly.map (fun ro => .int ro.toInt))] := by
  intro key hkey
  have hhead : ∀ key ∈ ["ip", "ro"], ∀ k ∈ ["t", "v"], ascii k ≠ ascii key := by decide
  have hvariant : ∀ key ∈ ["ip", "ro"], ∀ k ∈ ["y", "q", "a", "r", "e"], ascii k ≠ ascii key := by decide
  rw [fields, Fields.get_append_of_not_mem_left]
  intro f hf
  rcases List.mem_append.mp hf with hf | hf
  · exact hhead key hkey f.1 (List.mem_map_of_mem (f := Prod.fst) hf)
  · exact hvariant key hkey f.1 (msg.variant.keys_subset (List.mem_map_of_mem (f := Prod.fst) hf))

/-- A wire message deserializes to itself. -/
theorem DHTMessage.deserialize_entries (msg : DHTMessage) : deserialize msg.fields.entries = .ok msg := by
  have hd := msg.fields_distinct
  have hip : msg.fields.get "ip" = msg.ip.map .bytes := msg.get_fields_tail "ip" (by decide)
  have hro : msg.fields.get "ro" = msg.readOnly.map (fun ro => .int ro.toInt) := msg.get_fields_tail "ro" (by decide)
  rw [deserialize, require_entries hd rfl, optional_entries hd rfl (fun s _ => Value.asBytes_bytes s),
    msg.variant.deserialize_entries hd msg.get_fields, optional_entries hd hip (fun s _ => Value.asBytes_bytes s),
    optional_entries hd hro (fun x _ => Value.asI32_int x)]
  rfl

/-! ## Canonical values -/

/-- A 32-bit signed integer fits 64 bits. -/
theorem canonical_i32 (x : Int32) : Canonical (.int x.toInt) := by
  have h1 := x.minValue_le_toInt
  have h2 := x.toInt_le
  have hmin : Int32.minValue.toInt = -2 ^ 31 := rfl
  have hmax : Int32.maxValue.toInt = 2 ^ 31 - 1 := rfl
  exact Canonical.int (by omega) (by omega)

/-- A natural number below `2 ^ 16` fits 64 bits. -/
theorem canonical_nat {n : Nat} (h : n < 2 ^ 16) : Canonical (.int n) := Canonical.int (by omega) (by omega)

/-- A request has canonical fields. -/
theorem DHTRequestSpecific.fields_canonical (req : DHTRequestSpecific) : req.fields.AllCanonical := by
  have hid : Fields.Distinct ["id"] := by decide
  have htarget : Fields.Distinct ["id", "target"] := by decide
  have hhash : Fields.Distinct ["id", "info_hash"] := by decide
  have hann : Fields.Distinct ["id", "info_hash", "port", "token", "implied_port"] := by decide
  cases req with
  | ping a => exact .cons (.bytes _) (.cons (.ofFields hid (.cons (.bytes _) .nil)) .nil)
  | findNode a => exact .cons (.bytes _) (.cons (.ofFields htarget (.cons (.bytes _) (.cons (.bytes _) .nil))) .nil)
  | getPeers a => exact .cons (.bytes _) (.cons (.ofFields hhash (.cons (.bytes _) (.cons (.bytes _) .nil))) .nil)
  | announcePeer a =>
    have hport : Canonical (.int a.port.toNat) := canonical_nat a.port.toNat_lt
    have himplied : ∀ p : UInt8, Canonical (.int p.toNat) := fun p => canonical_nat (Nat.lt_trans p.toNat_lt (by decide))
    exact .cons (.bytes _) (.cons (.ofFields hann
      (.cons (.bytes _) (.cons (.bytes _) (.cons hport (.cons (.bytes _) (.consMap himplied .nil _)))))) .nil)
  | sampleInfoHashes a => exact .cons (.bytes _) (.cons (.ofFields htarget (.cons (.bytes _) (.cons (.bytes _) .nil))) .nil)

/-- A list of byte strings is canonical. -/
theorem canonical_byteBufs (l : List (List UInt8)) : Canonical (.list (l.map .bytes)) := by
  refine Canonical.list (fun v hv => ?_)
  obtain ⟨s, -, rfl⟩ := List.mem_map.mp hv
  exact Canonical.bytes s

/-- A response's arguments are canonical. -/
theorem DHTResponseSpecific.arguments_canonical (res : DHTResponseSpecific) : Canonical (.ofFields res.arguments) := by
  have hgp : Fields.Distinct ["id", "token", "nodes", "values"] := by decide
  have hsample : Fields.Distinct ["id", "interval", "nodes", "num", "samples"] := by decide
  have hfind : Fields.Distinct ["id", "nodes"] := by decide
  have hping : Fields.Distinct ["id"] := by decide
  cases res with
  | getPeers a =>
    exact .ofFields hgp (.cons (.bytes _) (.cons (.bytes _) (.consMap .bytes (.consMap canonical_byteBufs .nil _) _)))
  | sampleInfoHashes a =>
    exact .ofFields hsample (.cons (.bytes _) (.cons (canonical_i32 _) (.cons (.bytes _) (.cons (canonical_i32 _)
      (.cons (.bytes _) .nil)))))
  | findNode a => exact .ofFields hfind (.cons (.bytes _) (.cons (.bytes _) .nil))
  | ping a => exact .ofFields hping (.cons (.bytes _) .nil)

/-- The error information of a message's variant, if it is an error, is canonical. -/
def DHTMessageVariant.ErrorCanonical : DHTMessageVariant → Prop
  | .dhtError err => ∀ v ∈ err.errorInfo, Canonical v
  | _ => True

/-- A message is canonical. -/
theorem DHTMessage.canonical (msg : DHTMessage) (h : msg.variant.ErrorCanonical) : Canonical (.ofFields msg.fields) := by
  have hvariant : msg.variant.fields.AllCanonical := by
    obtain ⟨t, v, variant, ip, ro⟩ := msg
    cases variant with
    | dhtRequest req => exact .cons (.bytes _) req.fields_canonical
    | dhtResponse res => exact .cons (.bytes _) (.cons res.arguments_canonical .nil)
    | dhtError err => exact .cons (.bytes _) (.cons (.list h) .nil)
  have hhead : Fields.AllCanonical [("t", some (.bytes msg.transactionId)), ("v", msg.version.map .bytes)] :=
    .cons (.bytes _) (.consMap .bytes .nil _)
  have htail : Fields.AllCanonical [("ip", msg.ip.map .bytes), ("ro", msg.readOnly.map (fun ro => .int ro.toInt))] :=
    .consMap .bytes (.consMap canonical_i32 .nil _) _
  exact .ofFields msg.fields_distinct ((hhead.append hvariant).append htail)

/-- What a wire message is written as reads back. -/
theorem DHTMessage.fromBytes_toBytes (codec : Codec) (msg : DHTMessage) (h : msg.variant.ErrorCanonical) :
    ∃ bytes, msg.toBytes codec = .ok bytes ∧ DHTMessage.fromBytes codec bytes = .ok msg := by
  obtain ⟨bytes, hencode, hdecode⟩ := codec.decode_encode (msg.canonical h)
  refine ⟨bytes, by rw [toBytes, hencode]; rfl, ?_⟩
  rw [fromBytes, hdecode]
  simp only [bind, Except.bind, Value.ofFields, Value.asDict, msg.deserialize_entries]
  rfl

/-! ## Conversions -/

/-- Every socket address a response carries is IPv4. -/
def ResponseSpecific.AllIpv4 : ResponseSpecific → Prop
  | .pingResponse _ => True
  | .findNodeResponse a => ∀ n ∈ a.nodes, n.address.isIpv4 = true
  | .getPeersResponse a =>
    match a.values with
    | .nodes nodes => ∀ n ∈ nodes, n.address.isIpv4 = true
    | .peers peers => ∀ p ∈ peers, p.isIpv4 = true
  | .sampleInfoHashesResponse a => ∀ n ∈ a.nodes, n.address.isIpv4 = true

/-- A response whose interval is cut down to whole seconds, and to the greatest interval. -/
def ResponseSpecific.truncateInterval : ResponseSpecific → ResponseSpecific
  | .sampleInfoHashesResponse a =>
    .sampleInfoHashesResponse { a with interval := Duration.fromSecs (min maxScrapeInterval a.interval.asSecs) }
  | res => res

/-- The greatest interval fits the wire's integer. -/
theorem interval_roundTrip (n : Nat) :
    (Int32.ofNat (min maxScrapeInterval n)).toInt64.toUInt64.toNat = min maxScrapeInterval n := by
  have hle : min maxScrapeInterval n ≤ 21600 := Nat.min_le_left _ _
  have hint : (Int32.ofNat (min maxScrapeInterval n)).toInt64.toInt = (min maxScrapeInterval n : Nat) := by
    rw [Int32.toInt_toInt64, Int32.toInt_ofNat_of_lt (by omega)]
  have hpos : 0 ≤ (Int32.ofNat (min maxScrapeInterval n)).toInt64 := by
    rw [Int64.le_iff_toInt_le, hint]
    exact Int.natCast_nonneg _
  rw [Int64.toNat_toUInt64_of_le hpos, Int64.toNatClampNeg, hint, Int.toNat_natCast]

/-- A request converts back. -/
theorem RequestSpecific.fromSerde_intoSerde (req : RequestSpecific) : req.intoSerde.fromSerde = .ok req := by
  cases req with
  | announcePeerRequest a =>
    obtain ⟨requester, hash, port, implied, token⟩ := a
    simp only [intoSerde, DHTRequestSpecific.fromSerde, Id.fromBytes_toVec, bind, Except.bind]
    rcases implied with _ | _ | _ <;> rfl
  | _ => simp only [intoSerde, DHTRequestSpecific.fromSerde, Id.fromBytes_toVec, bind, Except.bind]; rfl

/-- A response converts back, with its interval cut down. -/
theorem ResponseSpecific.fromSerde_intoSerde {res : ResponseSpecific} (h : res.AllIpv4) :
    res.intoSerde.fromSerde = .ok res.truncateInterval := by
  cases res with
  | pingResponse a => simp only [intoSerde, DHTResponseSpecific.fromSerde, Id.fromBytes_toVec, bind, Except.bind]; rfl
  | findNodeResponse a =>
    simp only [intoSerde, DHTResponseSpecific.fromSerde, Id.fromBytes_toVec, bytesToNodes4_nodes4ToBytes h, bind, Except.bind]
    rfl
  | getPeersResponse a =>
    obtain ⟨responder, token, values⟩ := a
    cases values with
    | nodes nodes =>
      simp only [intoSerde, DHTResponseSpecific.fromSerde, DHTGetPeersResponseArguments.fromSerde, Id.fromBytes_toVec,
        bytesToNodes4_nodes4ToBytes h, bind, Except.bind]
      rfl
    | peers peers =>
      simp only [intoSerde, DHTResponseSpecific.fromSerde, DHTGetPeersResponseArguments.fromSerde, Id.fromBytes_toVec,
        bytesToPeers_peersToBytes h, bind, Except.bind]
      rfl
  | sampleInfoHashesResponse a =>
    simp only [intoSerde, DHTResponseSpecific.fromSerde, Id.fromBytes_toVec, bytesToNodes4_nodes4ToBytes h,
      bytesToSamples_samplesToBytes, interval_roundTrip, bind, Except.bind]
    rfl

/-- An error converts back. -/
theorem ErrorSpecific.fromSerde_intoSerde (err : ErrorSpecific) : err.intoSerde.fromSerde = .ok err := by
  have hcode : Int32.minValue.toInt ≤ err.code.toInt ∧ err.code.toInt ≤ Int32.maxValue.toInt :=
    ⟨err.code.minValue_le_toInt, err.code.toInt_le⟩
  have hdesc : String.fromUTF8? ⟨err.description.toUTF8.data.toList.toArray⟩ = some err.description := by
    have hbytes : (⟨err.description.toUTF8.data.toList.toArray⟩ : ByteArray) = err.description.toByteArray := rfl
    rw [hbytes, String.fromUTF8?, dif_pos err.description.isValidUTF8]
    rfl
  simp only [intoSerde, DHTErrorSpecific.fromSerde, errorCode, errorDescription, if_pos hcode, hdesc, Int32.ofInt_toInt, bind,
    Except.bind]
  rfl

/-- Every socket address a message carries is IPv4. -/
def Message.AllIpv4 (m : Message) : Prop :=
  (∀ ip, m.requesterIp = some ip → ip.isIpv4 = true) ∧
    match m.messageType with
    | .response res => res.AllIpv4
    | _ => True

/-- A message whose scrape interval, if it has one, is cut down. -/
def Message.truncateInterval (m : Message) : Message :=
  match m.messageType with
  | .response res => { m with messageType := .response res.truncateInterval }
  | _ => m

/-- An IPv4 requester's address converts back. -/
theorem requesterIpFromSerde_map {ip : Option SocketAddr} (h : ∀ a, ip = some a → a.isIpv4 = true) :
    requesterIpFromSerde (ip.map sockaddrToBytes) = .ok ip := by
  cases ip with
  | none => rfl
  | some a =>
    simp only [Option.map_some, requesterIpFromSerde, bytesToSockaddr_sockaddrToBytes (h a rfl)]
    rfl

/-- A message converts to a wire message and back. -/
theorem Message.fromSerdeMessage_intoSerdeMessage {m : Message} (h : m.AllIpv4) :
    Message.fromSerdeMessage m.intoSerdeMessage = .ok m.truncateInterval := by
  obtain ⟨tid, version, ip, type, ro⟩ := m
  obtain ⟨hip, htype⟩ := h
  have hro : (ro.map (fun readOnly => if readOnly then (1 : Int32) else 0)).map (fun readOnly => decide (readOnly ≥ 1)) = ro := by
    rcases ro with _ | _ | _ <;> rfl
  simp only [Message.fromSerdeMessage, Message.intoSerdeMessage, requesterIpFromSerde_map hip, hro]
  cases type with
  | request req =>
    simp only [MessageType.intoSerde, DHTMessageVariant.fromSerde, req.fromSerde_intoSerde]
    rfl
  | response res =>
    simp only [MessageType.intoSerde, DHTMessageVariant.fromSerde, ResponseSpecific.fromSerde_intoSerde htype]
    rfl
  | error err =>
    simp only [MessageType.intoSerde, DHTMessageVariant.fromSerde, err.fromSerde_intoSerde]
    rfl

/-- The wire message of a message has a canonical error. -/
theorem Message.intoSerdeMessage_errorCanonical (m : Message) : m.intoSerdeMessage.variant.ErrorCanonical := by
  obtain ⟨tid, version, ip, type, ro⟩ := m
  cases type with
  | request req => exact trivial
  | response res => exact trivial
  | error err =>
    intro v hv
    simp only [ErrorSpecific.intoSerde, List.mem_cons, List.not_mem_nil, or_false] at hv
    rcases hv with rfl | rfl
    · exact canonical_i32 _
    · exact Canonical.bytes _

/-- Every message can be written. -/
theorem Message.toBytes_ok (codec : Codec) (m : Message) : ∃ bytes, m.toBytes codec = .ok bytes := by
  obtain ⟨bytes, hto, -⟩ := DHTMessage.fromBytes_toBytes codec m.intoSerdeMessage m.intoSerdeMessage_errorCanonical
  exact ⟨bytes, hto⟩

/-- A message with IPv4 addresses is written, and what is written reads back as it, with its interval cut down. -/
theorem Message.fromBytes_toBytes (codec : Codec) {m : Message} (h : m.AllIpv4) :
    ∃ bytes, m.toBytes codec = .ok bytes ∧ Message.fromBytes codec bytes = .ok m.truncateInterval := by
  obtain ⟨bytes, hto, hfrom⟩ := DHTMessage.fromBytes_toBytes codec m.intoSerdeMessage m.intoSerdeMessage_errorCanonical
  refine ⟨bytes, hto, ?_⟩
  rw [Message.fromBytes, hfrom]
  exact Message.fromSerdeMessage_intoSerdeMessage h

/-! ## What is read has IPv4 addresses -/

/-- An address that reads is IPv4. -/
theorem isIpv4_of_bytesToSockaddr {bytes : List UInt8} {addr : SocketAddr} (h : bytesToSockaddr bytes = .ok addr) :
    addr.isIpv4 = true := by
  unfold bytesToSockaddr at h
  split at h
  · cases h
    rfl
  · split at h <;> cases h

/-- The nodes that read are at IPv4 addresses. -/
theorem isIpv4_of_bytesToNodes4 {bytes : List UInt8} {nodes : List Node} (h : bytesToNodes4 bytes = .ok nodes) :
    ∀ n ∈ nodes, n.address.isIpv4 = true := by
  have hnode : ∀ s n, bytesToNode4 s = .ok n → n.address.isIpv4 = true := by
    intro s n hn
    obtain ⟨id, -, hn⟩ := Checks.bind_eq_ok.mp hn
    obtain ⟨addr, haddr, hn⟩ := Checks.bind_eq_ok.mp hn
    cases hn
    exact isIpv4_of_bytesToSockaddr haddr
  unfold bytesToNodes4 at h
  split at h
  · cases h
  · exact Framing.forall_of_mapM (fun i n hn => hnode _ n hn) h

/-- A response that reads has IPv4 addresses. -/
theorem DHTResponseSpecific.allIpv4_of_fromSerde {a : DHTResponseSpecific} {res : ResponseSpecific} (h : a.fromSerde = .ok res) :
    res.AllIpv4 := by
  cases a with
  | ping a =>
    obtain ⟨id, -, h⟩ := Checks.bind_eq_ok.mp h
    cases h
    exact trivial
  | findNode a =>
    obtain ⟨id, -, h⟩ := Checks.bind_eq_ok.mp h
    obtain ⟨nodes, hnodes, h⟩ := Checks.bind_eq_ok.mp h
    cases h
    exact isIpv4_of_bytesToNodes4 hnodes
  | sampleInfoHashes a =>
    obtain ⟨id, -, h⟩ := Checks.bind_eq_ok.mp h
    obtain ⟨nodes, hnodes, h⟩ := Checks.bind_eq_ok.mp h
    obtain ⟨samples, -, h⟩ := Checks.bind_eq_ok.mp h
    cases h
    exact isIpv4_of_bytesToNodes4 hnodes
  | getPeers a =>
    obtain ⟨id, -, h⟩ := Checks.bind_eq_ok.mp h
    obtain ⟨values, hvalues, h⟩ := Checks.bind_eq_ok.mp h
    cases h
    unfold DHTGetPeersResponseArguments.fromSerde at hvalues
    split at hvalues
    · obtain ⟨peers, hpeers, rfl⟩ := Checks.map_eq_ok.mp hvalues
      exact Framing.forall_of_mapM (fun s x hx => isIpv4_of_bytesToSockaddr hx) hpeers
    · obtain ⟨nodes, hnodes, rfl⟩ := Checks.map_eq_ok.mp hvalues
      exact isIpv4_of_bytesToNodes4 hnodes
    · cases hvalues
      simp [ResponseSpecific.AllIpv4]

/-- A message that reads has IPv4 addresses. -/
theorem Message.allIpv4_of_fromBytes {codec : Codec} {bytes : List UInt8} {m : Message} (h : Message.fromBytes codec bytes = .ok m) :
    m.AllIpv4 := by
  obtain ⟨msg, -, h⟩ := Checks.bind_eq_ok.mp h
  obtain ⟨requesterIp, hip, h⟩ := Checks.bind_eq_ok.mp h
  obtain ⟨type, htype, h⟩ := Checks.bind_eq_ok.mp h
  cases h
  refine ⟨?_, ?_⟩
  · intro ip hsome
    obtain rfl : requesterIp = some ip := hsome
    unfold requesterIpFromSerde at hip
    split at hip
    · obtain ⟨addr, haddr, he⟩ := Checks.map_eq_ok.mp hip
      cases he
      exact isIpv4_of_bytesToSockaddr haddr
    · cases hip
  · unfold DHTMessageVariant.fromSerde at htype
    split at htype
    · obtain ⟨req, -, rfl⟩ := Checks.map_eq_ok.mp htype
      exact trivial
    · obtain ⟨res, hres, rfl⟩ := Checks.map_eq_ok.mp htype
      exact DHTResponseSpecific.allIpv4_of_fromSerde hres
    · obtain ⟨err, -, rfl⟩ := Checks.map_eq_ok.mp htype
      exact trivial

/-! ## What is read from what was written -/

/-- What is read from the bytes that a message is written as. -/
def Message.ReadsAs (codec : Codec) (msg m : Message) : Prop :=
  ∃ bytes, msg.toBytes codec = .ok bytes ∧ Message.fromBytes codec bytes = .ok m

/-- An IPv6 address does not read back. -/
theorem requesterIpFromSerde_of_not_ipv4 {addr : SocketAddr} (h : addr.isIpv4 = false) (ip : Option SocketAddr) :
    requesterIpFromSerde (some (sockaddrToBytes addr)) ≠ .ok ip := by
  cases addr with
  | v4 ip port => cases h
  | v6 ip port flowinfo scopeId =>
    have hlen : (sockaddrToBytes (.v6 ip port flowinfo scopeId)).length = 18 := by
      simp [sockaddrToBytes, u16ToBeBytes, ip.size]
    intro hread
    obtain ⟨addr, haddr, -⟩ := Checks.map_eq_ok.mp hread
    unfold bytesToSockaddr at haddr
    split at haddr
    · rename_i heq
      rw [heq] at hlen
      cases hlen
    · split at haddr <;> cases haddr

/-- A message reads back as itself, with its interval cut down, if it reads back: only an IPv6 address in a response could make it read
as something else. -/
theorem Message.ReadsAs.eq {codec : Codec} {msg m : Message} (h : Message.ReadsAs codec msg m)
    (hres : ∀ res, msg.messageType = .response res → res.AllIpv4) : m = msg.truncateInterval := by
  obtain ⟨bytes, hto, hfrom⟩ := h
  obtain ⟨bytes', hto', hfrom'⟩ := DHTMessage.fromBytes_toBytes codec msg.intoSerdeMessage msg.intoSerdeMessage_errorCanonical
  obtain rfl : bytes' = bytes := Except.ok.inj (hto'.symm.trans hto)
  rw [Message.fromBytes, hfrom'] at hfrom
  have hread : Message.fromSerdeMessage msg.intoSerdeMessage = .ok m := hfrom
  have hipv4 : msg.AllIpv4 := by
    refine ⟨fun ip hip => ?_, ?_⟩
    · by_contra hnot
      obtain ⟨requesterIp, hrequester, -⟩ := Checks.bind_eq_ok.mp hread
      unfold intoSerdeMessage at hrequester
      rw [hip] at hrequester
      exact requesterIpFromSerde_of_not_ipv4 (Bool.eq_false_of_not_eq_true hnot) requesterIp hrequester
    · cases htype : msg.messageType with
      | response res => exact hres res htype
      | _ => exact trivial
  rw [Message.fromSerdeMessage_intoSerdeMessage hipv4] at hread
  exact (Except.ok.inj hread).symm

/-- What was written and has been cut short does not read. -/
theorem Message.fromBytes_take {codec : Codec} (hcodec : codec.RejectsTruncated) {msg : Message} {bytes : List UInt8}
    (hto : msg.toBytes codec = .ok bytes) {n : Nat} (hn : n < bytes.length) :
    ∃ text, Message.fromBytes codec (bytes.take n) = .error (.packetParseError text) := by
  have hencode : codec.encode (.ofFields msg.intoSerdeMessage.fields) = .ok bytes := by
    unfold Message.toBytes DHTMessage.toBytes at hto
    cases h : codec.encode (.ofFields msg.intoSerdeMessage.fields) with
    | error e =>
      rw [h] at hto
      cases hto
    | ok s =>
      rw [h] at hto
      exact congrArg Except.ok (Except.ok.inj hto)
  obtain ⟨e, he⟩ := hcodec (msg.intoSerdeMessage.canonical msg.intoSerdeMessage_errorCanonical) hencode hn
  refine ⟨e, ?_⟩
  rw [Message.fromBytes, DHTMessage.fromBytes, he]
  rfl

/-- Of what was written, as much as there is room for reads as the whole does, or not at all. -/
theorem Message.fromBytes_of_take {codec : Codec} (hcodec : codec.RejectsTruncated) {msg m : Message} {bytes : List UInt8}
    (hto : msg.toBytes codec = .ok bytes) {n : Nat} (hread : Message.fromBytes codec (bytes.take n) = .ok m) :
    Message.fromBytes codec bytes = .ok m := by
  by_cases hn : n < bytes.length
  · obtain ⟨text, herror⟩ := Message.fromBytes_take hcodec hto hn
    rw [herror] at hread
    cases hread
  · rw [List.take_of_length_le (Nat.le_of_not_lt hn)] at hread
    exact hread

/-! ## Errors -/

/-- An error of the conversion from the wire is a parse error. -/
def ParseErrors {α : Type} (r : Except RustyDHTError α) : Prop := ∀ e, r = .error e → ∃ text, e = .packetParseError text

namespace ParseErrors

variable {α β : Type}

theorem ok (a : α) : ParseErrors (.ok a : Except RustyDHTError α) := fun _ h => nomatch h

theorem error (text : String) : ParseErrors (.error (.packetParseError text) : Except RustyDHTError α) :=
  fun _ h => ⟨text, (Except.error.inj h).symm⟩

theorem bind {r : Except RustyDHTError α} {f : α → Except RustyDHTError β} (h : ParseErrors r) (hf : ∀ a, ParseErrors (f a)) :
    ParseErrors (r >>= f) := by
  cases r with
  | error e => exact fun e' he => h e' (congrArg Except.error (Except.error.inj he))
  | ok a => exact hf a

theorem map {r : Except RustyDHTError α} (h : ParseErrors r) (f : α → β) : ParseErrors (f <$> r) := by
  cases r with
  | error e => exact fun e' he => h e' (congrArg Except.error (Except.error.inj he))
  | ok a => exact ok (f a)

theorem mapM {f : α → Except RustyDHTError β} (hf : ∀ a, ParseErrors (f a)) (l : List α) : ParseErrors (l.mapM f) := by
  induction l with
  | nil => exact ok []
  | cons a l ih =>
    rw [List.mapM_cons]
    exact (hf a).bind (fun b => ih.bind (fun bs => ok (b :: bs)))

theorem mapError {r : Except String α} : ParseErrors (r.mapError .packetParseError) := by
  cases r with
  | error e => exact error e
  | ok a => exact ok a

end ParseErrors

theorem Id.fromBytes_parseErrors (bytes : List UInt8) : ParseErrors (Id.fromBytes bytes) := by
  rw [Id.fromBytes]
  split
  · exact .ok _
  · exact .error _

theorem bytesToSockaddr_parseErrors (bytes : List UInt8) : ParseErrors (bytesToSockaddr bytes) := by
  rw [bytesToSockaddr.eq_def]
  split
  · exact .ok _
  · split
    · exact .error _
    · exact .error _

theorem bytesToNodes4_parseErrors (bytes : List UInt8) : ParseErrors (bytesToNodes4 bytes) := by
  rw [bytesToNodes4]
  split
  · exact .error _
  · exact .mapM (fun _ => (Id.fromBytes_parseErrors _).bind fun _ => (bytesToSockaddr_parseErrors _).bind fun _ => .ok _) _

theorem bytesToSamples_parseErrors (bytes : List UInt8) : ParseErrors (bytesToSamples bytes) := by
  rw [bytesToSamples]
  split
  · exact .error _
  · exact .mapM (fun _ => Id.fromBytes_parseErrors _) _

theorem DHTRequestSpecific.fromSerde_parseErrors (req : DHTRequestSpecific) : ParseErrors req.fromSerde := by
  have hid := Id.fromBytes_parseErrors
  cases req with
  | ping a => exact (hid _).bind fun _ => .ok _
  | _ => exact (hid _).bind fun _ => (hid _).bind fun _ => .ok _

theorem DHTResponseSpecific.fromSerde_parseErrors (res : DHTResponseSpecific) : ParseErrors res.fromSerde := by
  have hid := Id.fromBytes_parseErrors
  have hnodes := bytesToNodes4_parseErrors
  cases res with
  | findNode a => exact (hid _).bind fun _ => (hnodes _).bind fun _ => .ok _
  | getPeers a =>
    refine (hid _).bind fun _ => .bind ?_ fun _ => .ok _
    rw [DHTGetPeersResponseArguments.fromSerde]
    split
    · exact .map (.mapM bytesToSockaddr_parseErrors _) _
    · exact (hnodes _).map _
    · exact .ok _
  | ping a => exact (hid _).bind fun _ => .ok _
  | sampleInfoHashes a =>
    exact (hid _).bind fun _ => (hnodes _).bind fun _ => (bytesToSamples_parseErrors _).bind fun _ => .ok _

theorem DHTErrorSpecific.fromSerde_parseErrors (err : DHTErrorSpecific) : ParseErrors err.fromSerde := by
  rw [DHTErrorSpecific.fromSerde]
  split
  · refine .bind ?_ fun _ => .bind ?_ fun _ => .ok _
    · rw [errorCode.eq_def]
      split
      · split
        · exact .ok _
        · exact .error _
      · exact .error _
    · rw [errorDescription.eq_def]
      split
      · split
        · exact .ok _
        · exact .error _
      · exact .error _
  · exact .error _

/-- Whatever the bytes, reading a message fails with a parse error, if it fails. -/
theorem Message.fromBytes_parseErrors (codec : Codec) (bytes : List UInt8) : ParseErrors (Message.fromBytes codec bytes) := by
  refine ParseErrors.mapError.bind fun msg => ?_
  refine .bind ?_ fun _ => .bind ?_ fun _ => .ok _
  · cases msg.ip with
    | none => exact .ok _
    | some ip => exact (bytesToSockaddr_parseErrors ip).map _
  · cases msg.variant with
    | dhtRequest req => exact req.fromSerde_parseErrors.map _
    | dhtResponse res => exact res.fromSerde_parseErrors.map _
    | dhtError err => exact err.fromSerde_parseErrors.map _

end RustyDht
