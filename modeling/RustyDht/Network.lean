import RustyDht.Dht

/-!
# Hosts and the network between them

A DHT at an address is a host, and hosts that send datagrams to each other make a network. Every host runs this program. The network may
lose a datagram, deliver it late, out of order or more than once. Other parties may send whatever they like, but not under the address of
a host. What the operating system says to a datagram is an argument.
-/

namespace RustyDht

variable {σ : Type}

/-! ## Hosts -/

/-- A host: a DHT at an address of the network. -/
structure Host (σ : Type) where
  dht : DHT σ

namespace Host

/-- A host after an event of its DHT other than a packet or a turn of the outgoing task, which have to do with the network. -/
def step (env : Env σ) (self : Host σ) (e : DHT.Event) : Host σ :=
  match e with
  | .packet _ _ _ | .outgoing _ => self
  | e => { dht := DHT.step env self.dht e }

/-- The length of the buffer that `background_io_incoming_single` reads into: what does not fit is cut off. -/
def bufSize : Nat := 2048

/-- The host reads a datagram. -/
def receive (env : Env σ) (self : Host σ) (bytes : List UInt8) (ip : Ipv4Addr) (port : UInt16) : Host σ :=
  { dht := DHT.step env self.dht (.packet (bytes.take bufSize) ip port) }

/-- The outgoing task of the host takes a turn. -/
def outgoing (env : Env σ) (self : Host σ) (result : SendResult) : Host σ := { dht := DHT.step env self.dht (.outgoing result) }

end Host

/-! ## The network -/

/-- An address of the network, which is IPv4. -/
structure Endpoint where
  ip : Ipv4Addr
  port : UInt16
  deriving DecidableEq

/-- The address as the program has it. -/
def Endpoint.addr (self : Endpoint) : SocketAddr := .v4 self.ip self.port

/-- The endpoint of an address, if it is IPv4. -/
def SocketAddr.endpoint : SocketAddr → Option Endpoint
  | .v4 ip port => some ⟨ip, port⟩
  | .v6 _ _ _ _ => none

/-- A datagram on its way. -/
structure Datagram where
  bytes : List UInt8
  src : Endpoint
  dst : Endpoint

/-- The hosts of a network, each at its address, and the datagrams in flight. -/
structure Network (σ : Type) where
  hosts : Endpoint → Option (Host σ)
  inFlight : List Datagram

/-- What happens in a network. -/
inductive NetworkEvent where
  /-- The DHT of a host takes a step. -/
  | host (a : Endpoint) (e : DHT.Event)
  /-- The outgoing task of a host sends the next message. -/
  | outgoing (a : Endpoint) (result : SendResult)
  /-- A datagram reaches where it is sent to. It stays in flight: it may be delivered once more. -/
  | deliver (i : Nat)
  /-- A datagram is lost, or has been delivered for the last time. -/
  | lose (i : Nat)
  /-- Another party sends a datagram. -/
  | inject (bytes : List UInt8) (src dst : Endpoint)

namespace Network

/-- The network with another host in the place of one. -/
def setHost (net : Network σ) (a : Endpoint) (host : Host σ) : Network σ :=
  { net with hosts := Function.update net.hosts a (some host) }

/-- The network with one more datagram in flight. -/
def send (net : Network σ) (d : Datagram) : Network σ := { net with inFlight := net.inFlight ++ [d] }

/-- The next message of a host is sent. -/
def outgoing (env : Env σ) (net : Network σ) (a : Endpoint) (host : Host σ) (result : SendResult) : Network σ :=
  let net' := net.setHost a (host.outgoing env result)
  match (host.dht.socket.backgroundIoOutgoing env.codec result).1 with
  | some (bytes, dest) =>
    match dest.endpoint with
    | some dst => net'.send { bytes, src := a, dst }
    | none => net'
  | none => net'

/-- The network after an event. -/
def step (env : Env σ) (net : Network σ) : NetworkEvent → Network σ
  | .host a e =>
    match net.hosts a with
    | some host => net.setHost a (host.step env e)
    | none => net
  | .outgoing a result =>
    match net.hosts a with
    | some host => net.outgoing env a host result
    | none => net
  | .deliver i =>
    match net.inFlight[i]? with
    | some d =>
      match net.hosts d.dst with
      | some host => net.setHost d.dst (host.receive env d.bytes d.src.ip d.src.port)
      | none => net
    | none => net
  | .lose i => { net with inFlight := net.inFlight.eraseIdx i }
  | .inject bytes src dst =>
    match net.hosts src with
    | some _ => net
    | none => net.send { bytes, src, dst }

/-- A network at its start: every host has a new DHT, and nothing is in flight. -/
structure Starts (env : Env σ) (net : Network σ) : Prop where
  hosts : ∀ a host, net.hosts a = some host → ∃ id ip4Source buckets settings rng secretRng random,
    DHT.new env id ip4Source buckets settings rng secretRng random = .ok host.dht
  inFlight : net.inFlight = []

end Network

end RustyDht
