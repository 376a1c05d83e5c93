import RustyDht.Buckets

/-!
# Node storage

`NodeWrapper` and `NodeBucketStorage` (`src/storage/node_wrapper.rs`, `src/storage/node_bucket_storage.rs`): a table of verified
nodes and one of unverified nodes, both around our own id. Each reading of the clock is an argument.
-/

namespace RustyDht

/-- A node with the times it was first seen, last seen and last verified. -/
structure NodeWrapper where
  node : Node
  firstSeen : Instant
  lastSeen : Instant
  lastVerified : Option Instant
  deriving DecidableEq

/-- `NodeWrapper::new`. -/
def NodeWrapper.new (node : Node) (now : Instant) : NodeWrapper :=
  { node, firstSeen := now, lastSeen := now, lastVerified := none }

instance : Bucketable NodeWrapper where
  getId w := w.node.id
  getFirstSeen w := w.firstSeen

/-- `NodeBucketStorage`. -/
structure NodeBucketStorage where
  verified : Buckets NodeWrapper
  unverified : Buckets NodeWrapper
  deriving DecidableEq

namespace NodeBucketStorage

/-- `NodeBucketStorage::new`. -/
def new (ourId : Id) (k : Nat) : NodeBucketStorage := { verified := Buckets.new ourId k, unverified := Buckets.new ourId k }

/-- `NodeBucketStorage::add_or_update_last_seen`. -/
def addOrUpdateLastSeen (S : UnstableSort) (self : NodeBucketStorage) (node : Node) (now : Instant) : NodeBucketStorage :=
  match self.verified.getMut node.id with
  | some (existing, write) => { self with verified := write { existing with lastSeen := now } }
  | none =>
    match self.unverified.getMut node.id with
    | some (existing, write) => { self with unverified := write { existing with lastSeen := now } }
    | none => { self with unverified := (self.unverified.add S (NodeWrapper.new node now) none).1 }

/-- Put an item in the verified table, and what overflows from it back in the unverified one, if it fits. -/
def addVerified (S : UnstableSort) (self : NodeBucketStorage) (item : NodeWrapper) : NodeBucketStorage :=
  let (verified, chumpList) := self.verified.add S item (some [])
  { verified, unverified := (chumpList.getD []).foldl (fun unverified item => (unverified.add S item none).1) self.unverified }

/-- `NodeBucketStorage::add_or_update_verified`; `nowNew` is what the clock reads in `NodeWrapper::new`. -/
def addOrUpdateVerified (S : UnstableSort) (self : NodeBucketStorage) (node : Node) (now nowNew : Instant) :
    NodeBucketStorage :=
  match self.unverified.remove node.id with
  -- Already exists in unverified: the record itself moves, under the address it has.
  | some (item, unverified) =>
    { self with unverified }.addVerified S { item with lastSeen := now, lastVerified := some now }
  | none =>
    match self.verified.getMut node.id with
    | some (wrapper, write) => { self with verified := write { wrapper with lastSeen := now, lastVerified := some now } }
    | none => self.addVerified S { NodeWrapper.new node nowNew with lastSeen := now, lastVerified := some now }

/-- `NodeBucketStorage::add_or_update`. -/
def addOrUpdate (S : UnstableSort) (self : NodeBucketStorage) (node : Node) (verified : Bool) (now nowNew : Instant) :
    NodeBucketStorage :=
  if verified then self.addOrUpdateVerified S node now nowNew else self.addOrUpdateLastSeen S node now

/-- `NodeBucketStorage::clear`. -/
def clear (self : NodeBucketStorage) : NodeBucketStorage :=
  { verified := self.verified.clear, unverified := self.unverified.clear }

/-- `NodeBucketStorage::count`: unverified, then verified. -/
def count (self : NodeBucketStorage) : Nat × Nat := (self.unverified.count, self.verified.count)

/-- `NodeBucketStorage::get_all_unverified`. -/
def getAllUnverified (self : NodeBucketStorage) : List NodeWrapper := self.unverified.values

/-- `NodeBucketStorage::get_all_verified`. -/
def getAllVerified (self : NodeBucketStorage) : List NodeWrapper := self.verified.values

/-- `NodeBucketStorage::get_nearest_nodes`. -/
def getNearestNodes (S : UnstableSort) (self : NodeBucketStorage) (id : Id) (exclude : Option Id) : List Node :=
  (self.verified.getNearestNodes S id exclude).map (·.node)

/-- The test of `prune` on a record of the verified table. -/
def keepVerified (time : Instant) (nw : NodeWrapper) : Bool :=
  match nw.lastVerified with
  | some lastVerified => lastVerified ≥ time
  | none => false

/-- The test of `prune` on a record of the unverified table. -/
def keepUnverified (time unverifiedTime : Instant) (nw : NodeWrapper) : Bool :=
  (match nw.lastVerified with
    | some lastVerified => decide (lastVerified ≥ time)
    | none => false) ||
  (decide (nw.lastSeen ≥ time) && decide (nw.lastSeen ≥ unverifiedTime))

/-- `NodeBucketStorage::prune`; the clock is read once for each cutoff. -/
def prune (self : NodeBucketStorage) (gracePeriod unverifiedGracePeriod : Duration) (now now' : Instant) :
    NodeBucketStorage :=
  match Instant.checkedSub now gracePeriod with
  | none => self
  | some time =>
    match Instant.checkedSub now' unverifiedGracePeriod with
    | none => self
    | some unverifiedTime =>
      { verified := self.verified.retain (fun nw s => (keepVerified time nw, s)) ()
        unverified := self.unverified.retain (fun nw s => (keepUnverified time unverifiedTime nw, s)) () }

/-- `NodeBucketStorage::set_id`. -/
def setId (self : NodeBucketStorage) (newId : Id) : NodeBucketStorage :=
  { verified := self.verified.setId newId, unverified := self.unverified.setId newId }

end NodeBucketStorage

/-- A call that changes a node storage, with its arguments and what the clock reads during it. -/
inductive NodeStorageOp where
  | addOrUpdate (node : Node) (verified : Bool) (now nowNew : Instant)
  | prune (gracePeriod unverifiedGracePeriod : Duration) (now now' : Instant)
  | clear
  | setId (newId : Id)

/-- The storage after a call. -/
def NodeStorageOp.apply (S : UnstableSort) (self : NodeBucketStorage) : NodeStorageOp → NodeBucketStorage
  | .addOrUpdate node verified now nowNew => self.addOrUpdate S node verified now nowNew
  | .prune gracePeriod unverifiedGracePeriod now now' => self.prune gracePeriod unverifiedGracePeriod now now'
  | .clear => self.clear
  | .setId newId => self.setId newId

end RustyDht
