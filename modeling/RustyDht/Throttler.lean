import RustyDht.Common

/-!
# The throttler

`Throttler` (`src/storage/throttler.rs`): a fixed number of records of who sent how many packets. The clock is read when a throttler
is made and when a record is cleared, and for a packet whose time is not given; what it reads are arguments. Counts are of 64 bits.
-/

namespace RustyDht

/-- `Instant::checked_duration_since`. -/
def Instant.checkedDurationSince (now earlier : Instant) : Option Duration :=
  if earlier ≤ now then some (now - earlier) else none

/-- The last instant the clock represents: its seconds are a signed 64-bit integer. -/
def Instant.max : Instant := 2 ^ 64 * 1000000000 - 1

/-- `Instant + Duration`, which panics where there is no such instant. -/
def Instant.add (now : Instant) (d : Duration) : Except Panic Instant :=
  if now + d ≤ Instant.max then .ok (now + d) else .error ⟨"overflow when adding duration to instant"⟩

/-- `PacketCount`, a `usize`. -/
abbrev PacketCount : Type := Nat

/-- `PacketCount::MAX`. -/
def PacketCount.max : PacketCount := 2 ^ 64 - 1

/-- `checked_add`, or else `PacketCount::MAX`. -/
def PacketCount.addOrMax (a b : PacketCount) : PacketCount := if a + b ≤ max then a + b else max

/-- The address of a blank record: 127.0.0.1. -/
def blankIp : IpAddr := .v4 ⟨127, 0, 0, 1⟩

/-- `ThrottlerRecord`. -/
structure ThrottlerRecord where
  ip : IpAddr
  packets : PacketCount
  expiration : Instant
  creationTime : Instant
  deriving DecidableEq, Repr

/-- `ThrottlerRecord::default`, and what `ThrottlerRecord::clear` leaves. -/
def ThrottlerRecord.blank (now : Instant) : ThrottlerRecord :=
  { ip := blankIp, packets := 0, expiration := now, creationTime := now }

/-- The settings of a throttler. -/
structure ThrottlerSettings where
  rateLimit : PacketCount
  period : Duration
  naughtyTimeout : Duration
  maxTracking : Duration
  deriving DecidableEq, Repr

/-- `Throttler`. -/
structure Throttler (n : Nat) extends ThrottlerSettings where
  records : List ThrottlerRecord
  size : records.length = n

namespace ThrottlerSettings

/-- Whether a record has been around for longer than the maximal tracking time. -/
def trackedTooLong (self : ThrottlerSettings) (found : ThrottlerRecord) (now : Instant) : Bool :=
  match Instant.checkedDurationSince now found.creationTime with
  | some sinceCreation => sinceCreation > self.maxTracking
  | none => false

/-- The end of `check_throttle`: a record with more packets than the limit is blocked, until the timeout. -/
def judge (self : ThrottlerSettings) (record : ThrottlerRecord) (now : Instant) : Except Panic (Bool × ThrottlerRecord) :=
  if record.packets > self.rateLimit then do
    let expiration ← Instant.add now self.naughtyTimeout
    return (true, { record with expiration })
  else return (false, record)

/-- A packet counted on a record that was found. -/
def useFound (self : ThrottlerSettings) (found : ThrottlerRecord) (now : Instant) (count : Option PacketCount) :
    Except Panic (Bool × ThrottlerRecord) :=
  if now < found.expiration then self.judge { found with packets := PacketCount.addOrMax found.packets (count.getD 1) } now
  else do
    let expiration ← Instant.add now self.period
    self.judge { found with packets := count.getD 1, expiration } now

/-- A packet counted on the lamest record, which becomes one of its address. -/
def useLamest (self : ThrottlerSettings) (ip : IpAddr) (now : Instant) (count : Option PacketCount) :
    Except Panic (Bool × ThrottlerRecord) := do
  let expiration ← Instant.add now self.period
  self.judge { ip, packets := count.getD 1, expiration, creationTime := now } now

end ThrottlerSettings

/-- Whether a record is lamer than the lamest so far: it has fewer packets, or as many and expires earlier. -/
def ThrottlerRecord.lamer (record lame : ThrottlerRecord) : Bool :=
  record.packets < lame.packets || (record.packets == lame.packets && record.expiration < lame.expiration)

/-- What the loop over the records comes to: the place of a record, found or the lamest. -/
inductive Scanned where
  | found (i : Nat) (record : ThrottlerRecord)
  | lamest (i : Nat) (record : ThrottlerRecord)
  | nothing
  deriving DecidableEq, Repr

/-- The loop over the records, from place `i` on, with the lamest one before it. -/
def scan (ip : IpAddr) : List ThrottlerRecord → Nat → Option (Nat × ThrottlerRecord) → Scanned
  | [], _, some (j, lame) => .lamest j lame
  | [], _, none => .nothing
  | record :: rest, i, lamest =>
    -- If record exists for this IP, use it
    if record.ip = ip then .found i record
    else
      match lamest with
      | some (j, lame) => scan ip rest (i + 1) (if record.lamer lame then some (i, record) else some (j, lame))
      | none => scan ip rest (i + 1) (some (i, record))

namespace Throttler

variable {n : Nat}

/-- `Throttler::new`. -/
def new (n : Nat) (settings : ThrottlerSettings) (now : Instant) : Throttler n :=
  { settings with records := List.replicate n (.blank now), size := List.length_replicate }

/-- A record is written in its place. -/
def write (self : Throttler n) (i : Nat) (record : ThrottlerRecord) : Throttler n :=
  { self with records := self.records.set i record, size := by rw [List.length_set, self.size] }

/-- `Throttler::check_throttle`: whether the packet is throttled. `clock` is what the clock reads, for the time of the packet if it is
not given, and then for a record that is cleared. What a panic leaves of the records is not used. -/
def checkThrottle (self : Throttler n) (ip : IpAddr) (now : Option Instant) (count : Option PacketCount) (clock : Nat → Instant) :
    Except Panic (Bool × Throttler n) :=
  let time := now.getD (clock 0)
  match scan ip self.records 0 none with
  | .found i found =>
    -- If this record has been around for longer than the max tracking time, don't use it and reset to blank
    if self.trackedTooLong found time then return (false, self.write i (.blank (clock 1)))
    else do
      let (throttled, record) ← self.useFound found time count
      return (throttled, self.write i record)
  | .lamest i _ => do
    let (throttled, record) ← self.useLamest ip time count
    return (throttled, self.write i record)
  | .nothing => throw ⟨"This should never happen ;)"⟩

end Throttler

/-- A packet to check: where it comes from, its time, and what the clock reads meanwhile. -/
structure ThrottleCall where
  ip : IpAddr
  now : Instant
  clock : Nat → Instant

/-- The times of the calls do not decrease. -/
def NonDecreasing (calls : List ThrottleCall) : Prop := calls.Pairwise (fun call later => call.now ≤ later.now)

instance (calls : List ThrottleCall) : Decidable (NonDecreasing calls) :=
  inferInstanceAs (Decidable (calls.Pairwise (fun call later => call.now ≤ later.now)))

/-- What `check_throttle` answers to calls with a time and no count, one after the other. -/
def Throttler.answers {n : Nat} (self : Throttler n) : List ThrottleCall → Except Panic (List Bool)
  | [] => .ok []
  | call :: calls => do
    let (throttled, self) ← self.checkThrottle call.ip (some call.now) none call.clock
    let rest ← self.answers calls
    return throttled :: rest

end RustyDht
