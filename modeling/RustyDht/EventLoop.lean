import RustyDht.Dht
import RustyDht.Throttler
import RustyDht.Lib.Channel

/-!
# The event loop

The loop of `DHT::accept_incoming_packets` with its throttler, and those who subscribed to its events (`src/dht/dht.rs`,
`src/dht/dht_event.rs`): every message that the loop has handled is sent to them. The receivers belong to the application, which takes
from them and drops them as it likes.
-/

namespace RustyDht

variable {σ : Type}

/-- `MessageReceivedEvent`. -/
structure MessageReceivedEvent where
  message : Message
  deriving DecidableEq

/-- `DHTEventType`. -/
inductive DHTEventType where
  | messageReceived (event : MessageReceivedEvent)
  deriving DecidableEq

/-- `DHTEvent`. -/
structure DHTEvent where
  eventType : DHTEventType
  deriving DecidableEq

/-- The fields of `DHTSettings` that the throttler of the event loop is made with. -/
structure ThrottleSettings where
  throttlePacketCount : PacketCount
  throttlePeriodSecs : Nat
  throttleNaughtyTimeoutSecs : Nat
  throttleMaxTrackingSecs : Nat

/-- `DHTSettings::default`. -/
def ThrottleSettings.default : ThrottleSettings where
  throttlePacketCount := 10
  throttlePeriodSecs := 6
  throttleNaughtyTimeoutSecs := 60
  throttleMaxTrackingSecs := 86400

/-- The settings of the throttler. -/
def ThrottleSettings.throttler (self : ThrottleSettings) : ThrottlerSettings where
  rateLimit := self.throttlePacketCount
  period := Duration.fromSecs self.throttlePeriodSecs
  naughtyTimeout := Duration.fromSecs self.throttleNaughtyTimeoutSecs
  maxTracking := Duration.fromSecs self.throttleMaxTrackingSecs

/-- A DHT whose event loop runs: its throttler, the channels of its subscribers, and all channels there have been. -/
structure EventLoop (σ : Type) where
  dht : DHT σ
  throttler : Throttler 32
  subscribers : List ChannelId
  channels : List (Channel DHTEvent)

/-- What happens to an event loop. -/
inductive EventLoopEvent where
  /-- An event of the DHT other than the receipt of a message. -/
  | dht (e : DHT.Event)
  /-- The loop receives the next message. -/
  | accept (clock now : Nat → Instant) (shuffle : PartialShuffle)
  /-- The application subscribes. -/
  | subscribe
  /-- A subscriber takes an event from its channel. -/
  | recv (i : ChannelId)
  /-- A subscriber drops its channel. -/
  | close (i : ChannelId)

namespace EventLoop

/-- The loop at its start. -/
def start (dht : DHT σ) (settings : ThrottleSettings) (now : Instant) : EventLoop σ :=
  { dht, throttler := .new 32 settings.throttler now, subscribers := [], channels := [] }

/-- The capacity of the channels that `DHT::subscribe` makes. -/
def capacity : Nat := 32

/-- The channel of a subscriber. -/
def channel (self : EventLoop σ) (i : ChannelId) : Channel DHTEvent := Channel.nth self.channels i

/-- `DHT::subscribe`: the receiver, and the loop with its sender. -/
def subscribe (self : EventLoop σ) : ChannelId × EventLoop σ :=
  (self.channels.length,
    { self with channels := self.channels ++ [.new], subscribers := self.subscribers ++ [self.channels.length] })

/-- The event that tells of a message. -/
def eventOf (msg : Message) : DHTEvent := { eventType := .messageReceived { message := msg } }

/-- `DHT::send_packet_to_subscribers`. A sender whose channel is full stays among the subscribers, one whose receiver is gone does
not. -/
def sendPacketToSubscribers (self : EventLoop σ) (msg : Message) : EventLoop σ :=
  let (subscribers, channels) := Vec.retain (Channel.offerTo capacity (eventOf msg)) self.subscribers self.channels
  { self with subscribers, channels }

/-- Whether the body of the loop comes to its end with a message: it drops no packet and returns no error before that. -/
def reachesSubscribers (env : Env σ) (s : DHT σ) (msg : Message) (addr : SocketAddr) (throttled : Bool) (now : Nat → Instant)
    (shuffle : PartialShuffle) : Bool :=
  !throttled && addr.port != 0 &&
    match ((DHT.acceptIncomingPacket env msg addr throttled now shuffle).run.run s).1 with
    | .ok _ => true
    | .error _ => false

/-- A turn of the loop of `DHT::accept_incoming_packets`, whose throttler reads a clock of its own. -/
def accept (env : Env σ) (self : EventLoop σ) (clock now : Nat → Instant) (shuffle : PartialShuffle) : EventLoop σ :=
  match self.dht.socket.received with
  | (msg, addr) :: received =>
    if self.dht.running then
      let popped := { self.dht with socket := { self.dht.socket with received } }
      -- Drop the packet if the IP has been throttled.
      match self.throttler.checkThrottle addr.ip none none clock with
      | .ok (throttled, throttler) =>
        let self' := { self with dht := DHT.step env self.dht (.accept throttled now shuffle), throttler }
        if reachesSubscribers env popped msg addr throttled now shuffle then self'.sendPacketToSubscribers msg else self'
      | .error _ => { self with dht := { popped with running := false } }
    else self
  | [] => self

/-- The loop after an event. -/
def step (env : Env σ) (self : EventLoop σ) : EventLoopEvent → EventLoop σ
  | .dht (.accept _ _ _) => self
  | .dht e => { self with dht := DHT.step env self.dht e }
  | .accept clock now shuffle => self.accept env clock now shuffle
  | .subscribe => self.subscribe.2
  | .recv i => { self with channels := self.channels.set i (self.channel i).recv.2 }
  | .close i => { self with channels := self.channels.set i (self.channel i).close }

end EventLoop

end RustyDht
