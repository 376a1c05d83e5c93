import RustyDht.Common
import RustyDht.Lib.Vec
import RustyDht.Lib.UnstableSort

/-!
# Buckets

The bucket table of `src/storage/buckets.rs`: a vector of buckets, the bucket of an item chosen by how many leading bits its id
has in common with `ourId`, the last bucket holding every longer prefix. A bucket that overflows is split when it is the last one,
and then cut down to the `k` items first seen earliest. The standard library's `sort_unstable` is the parameter `S`.

A reference handed out by `getMut` is the value it refers to together with the write through it. Indexing a bucket that does not
exist, which panics in Rust, reads an empty bucket here and writes nothing: `Buckets.getDestBucketIdx_lt` says no index computed from an
id is out of range, because there is always a bucket.
-/

namespace RustyDht

/-- What can be stored in `Buckets`. -/
class Bucketable (T : Type) where
  getId : T → Id
  getFirstSeen : T → Instant

open Bucketable (getId getFirstSeen)

/-- The bucket table. -/
structure Buckets (T : Type) where
  ourId : Id
  buckets : List (List T)
  k : Nat
  deriving DecidableEq

namespace Buckets

variable {T : Type}

/-- `Buckets::new`. -/
def new (ourId : Id) (k : Nat) : Buckets T := { ourId, buckets := [[]], k }

/-- The bucket at an index. -/
def bucket (b : Buckets T) (i : Nat) : List T := b.buckets.getD i []

/-- Replace the bucket at an index. -/
def setBucket (b : Buckets T) (i : Nat) (l : List T) : Buckets T := { b with buckets := b.buckets.set i l }

/-- Push an item to the bucket at an index. -/
def pushTo (b : Buckets T) (i : Nat) (item : T) : Buckets T := b.setBucket i (b.bucket i ++ [item])

/-- `Buckets::get_dest_bucket_idx_for_id`. -/
def getDestBucketIdxForId (b : Buckets T) (id : Id) : Nat :=
  min (b.buckets.length - 1) (b.ourId.matchingPrefixBits id)

/-- `Buckets::values`. -/
def values (b : Buckets T) : List T := b.buckets.flatten

/-- `Buckets::count`. -/
def count (b : Buckets T) : Nat := b.buckets.foldl (fun count bucket => count + bucket.length) 0

/-- `Buckets::count_buckets`. -/
def countBuckets (b : Buckets T) : Nat := b.buckets.length

/-- `Buckets::clear`. -/
def clear (b : Buckets T) : Buckets T := { b with buckets := [[]] }

/-- `Buckets::set_id`. -/
def setId (b : Buckets T) (newId : Id) : Buckets T := { b.clear with ourId := newId }

/-- The loop of `Buckets::retain` over the buckets, the closure carrying its state along. -/
def retainBuckets {σ : Type} (f : T → σ → Bool × σ) : List (List T) → σ → List (List T)
  | [], _ => []
  | bucket :: rest, s =>
    let (kept, s) := Vec.retain f bucket s
    kept :: retainBuckets f rest s

/-- `Buckets::retain`, with a closure that may keep a state. -/
def retain {σ : Type} (b : Buckets T) (f : T → σ → Bool × σ) (s : σ) : Buckets T :=
  { b with buckets := retainBuckets f b.buckets s }

variable [Bucketable T]

/-- `Buckets::get_dest_bucket_idx`. -/
def getDestBucketIdx (b : Buckets T) (item : T) : Nat := b.getDestBucketIdxForId (getId item)

/-- `Buckets::contains`. -/
def contains (b : Buckets T) (id : Id) : Bool :=
  (b.bucket (b.getDestBucketIdxForId id)).any (fun item => getId item == id)

/-- `Buckets::get_mut`: the item found and the write through the reference to it. -/
def getMut (b : Buckets T) (id : Id) : Option (T × (T → Buckets T)) :=
  let destBucketIdx := b.getDestBucketIdxForId id
  let bucket := b.bucket destBucketIdx
  match bucket.findIdx? (fun item => getId item == id) with
  | none => none
  | some i => bucket[i]?.map (fun item => (item, fun item' => b.setBucket destBucketIdx (bucket.set i item')))

/-- `Buckets::remove`: the item taken out, and the table it leaves. -/
def remove (b : Buckets T) (id : Id) : Option (T × Buckets T) :=
  let destBucketIdx := b.getDestBucketIdxForId id
  let bucket := b.bucket destBucketIdx
  match bucket.findIdx? (fun item => getId item == id) with
  | none => none
  | some i => bucket[i]?.map (fun item => (item, b.setBucket destBucketIdx (Vec.swapRemove bucket i)))

/-- The comparator of `Buckets::get_nearest_nodes`. -/
def cmpDistance (id : Id) (x y : T) : Ordering := ((getId x).xor id).cmpUnwrap ((getId y).xor id)

/-- `Buckets::get_nearest_nodes`. -/
def getNearestNodes (S : UnstableSort) (b : Buckets T) (id : Id) (exclude : Option Id) : List T :=
  let all := b.values.filter (fun item => exclude.isNone || exclude != some (getId item))
  (S.sort (cmpDistance id) all).take b.k

/-! ## Overflow -/

/-- The inner loop of `handle_bucket_overflow`, over the indices below its argument from the highest down: an item whose bucket is
another one is moved there. -/
def moveMisplaced (bucketIndex : Nat) : Nat → Buckets T → Buckets T
  | 0, b => b
  | i + 1, b =>
    match (b.bucket bucketIndex)[i]? with
    | none => moveMisplaced bucketIndex i b
    | some node =>
      let idealBucketIdx := b.getDestBucketIdx node
      if idealBucketIdx ≠ bucketIndex then
        let b := b.setBucket bucketIndex (Vec.swapRemove (b.bucket bucketIndex) i)
        moveMisplaced bucketIndex i (b.pushTo idealBucketIdx node)
      else moveMisplaced bucketIndex i b

/-- Push a new empty bucket when the index is that of the deepest one. -/
def splitDeepest (b : Buckets T) (bucketIndex : Nat) : Buckets T :=
  if bucketIndex = b.buckets.length - 1 then { b with buckets := b.buckets ++ [[]] } else b

/-- Keep the `k` items of a bucket that were first seen earliest, and append the others to the chump list, if there is one. -/
def dropNewest (S : UnstableSort) (b : Buckets T) (bucketIndex : Nat) (chumpList : Option (List T)) :
    Buckets T × Option (List T) :=
  if (b.bucket bucketIndex).length > b.k then
    let sorted := S.sortByKey getFirstSeen (b.bucket bucketIndex)
    (b.setBucket bucketIndex (sorted.take b.k), chumpList.map (· ++ sorted.drop b.k))
  else (b, chumpList)

/-- One iteration of the loop of `handle_bucket_overflow`, before the index is advanced. -/
def overflowPass (S : UnstableSort) (b : Buckets T) (bucketIndex : Nat) (chumpList : Option (List T)) :
    Buckets T × Option (List T) :=
  if (b.bucket bucketIndex).length > b.k then
    let b := b.splitDeepest bucketIndex
    let b := moveMisplaced bucketIndex (b.bucket bucketIndex).length b
    b.dropNewest S bucketIndex chumpList
  else (b, chumpList)

/-- The loop of `handle_bucket_overflow` on fuel: the index it stops at, the table and the chump list. -/
def overflowLoop (S : UnstableSort) : Nat → Nat → Buckets T → Option (List T) → Nat × Buckets T × Option (List T)
  | 0, bucketIndex, b, chumpList => (bucketIndex, b, chumpList)
  | fuel + 1, bucketIndex, b, chumpList =>
    if bucketIndex < b.buckets.length then
      let (b, chumpList) := b.overflowPass S bucketIndex chumpList
      overflowLoop S fuel (bucketIndex + 1) b chumpList
    else (bucketIndex, b, chumpList)

/-- Fuel on which the loop of `handle_bucket_overflow` runs to its end: ids have 160 bits, so at most 161 buckets are pushed before
one stays empty. -/
def overflowFuel (b : Buckets T) : Nat := b.buckets.length + 161

/-- `Buckets::handle_bucket_overflow`. -/
def handleBucketOverflow (S : UnstableSort) (b : Buckets T) (bucketIndex : Nat) (chumpList : Option (List T)) :
    Buckets T × Option (List T) :=
  (overflowLoop S b.overflowFuel bucketIndex b chumpList).2

/-- `Buckets::add`. -/
def add (S : UnstableSort) (b : Buckets T) (item : T) (chumpList : Option (List T)) : Buckets T × Option (List T) :=
  -- Never add our own node!
  if getId item = b.ourId then (b, chumpList)
  else
    let destBucketIdx := b.getDestBucketIdx item
    (b.pushTo destBucketIdx item).handleBucketOverflow S destBucketIdx chumpList

end Buckets

end RustyDht
