import RustyDht.Common
import Mathlib.Data.List.Sort

/-!
# Votes on our IPv4 address

`IPV4Consensus` (`src/common/ipv4_addr_src.rs`). A count of votes is an `i32`, an integer whose conversions and sums are checked: out
of range they panic, as they do in Rust for `try_into().unwrap()`, and for arithmetic where overflow is checked.
-/

namespace RustyDht

/-- `usize::try_into::<i32>().unwrap()`. -/
def i32OfUsize (n : Nat) : Except Panic Int :=
  if n < 2 ^ 31 then .ok n else .error ⟨"called `Result::unwrap()` on an `Err` value: TryFromIntError(())"⟩

/-- The result of an operation on `i32`s, where overflow is checked. -/
def i32Checked (text : String) (x : Int) : Except Panic Int :=
  if -2 ^ 31 ≤ x ∧ x < 2 ^ 31 then .ok x else .error ⟨text⟩

/-- `IPV4Vote`. -/
structure IPV4Vote where
  ip : Ipv4Addr
  votes : Int
  deriving DecidableEq, Repr

/-- `IPV4Consensus`. -/
structure IPV4Consensus where
  minVotes : Nat
  maxVotes : Nat
  votes : List IPV4Vote
  deriving DecidableEq, Repr

namespace IPV4Consensus

/-- `IPV4Consensus::new`. -/
def new (minVotes maxVotes : Nat) : IPV4Consensus := { minVotes, maxVotes, votes := [] }

/-- `IPV4Consensus::get_best_ipv4`: only the first entry counts. -/
def getBestIpv4 (self : IPV4Consensus) : Except Panic (Option Ipv4Addr) :=
  match self.votes.head? with
  | some voteInfo => do
    let minVotes ← i32OfUsize self.minVotes
    return if voteInfo.votes ≥ minVotes then some voteInfo.ip else none
  | none => .ok none

/-- The loop of `add_vote`: the first entry for the address gets one vote more, up to the most; and whether there is one. -/
def addVoteLoop (maxVotes : Nat) (proposedAddr : Ipv4Addr) : List IPV4Vote → Except Panic (List IPV4Vote × Bool)
  | [] => .ok ([], false)
  | vote :: rest =>
    if vote.ip = proposedAddr then do
      let most ← i32OfUsize maxVotes
      let more ← i32Checked "attempt to add with overflow" (vote.votes + 1)
      return ({ vote with votes := min most more } :: rest, true)
    else do
      let (rest, doSort) ← addVoteLoop maxVotes proposedAddr rest
      return (vote :: rest, doSort)

/-- `sort_by` with the counts compared the other way round, which is stable. -/
def sortByVotes (votes : List IPV4Vote) : List IPV4Vote := votes.insertionSort (fun a b => b.votes ≤ a.votes)

/-- `IPV4Consensus::add_vote`: who votes makes no difference. -/
def addVote (self : IPV4Consensus) (_theirAddr proposedAddr : Ipv4Addr) : Except Panic IPV4Consensus := do
  let (votes, doSort) ← addVoteLoop self.maxVotes proposedAddr self.votes
  if doSort then return { self with votes := sortByVotes votes }
  else return { self with votes := votes ++ [{ ip := proposedAddr, votes := 1 }] }

/-- One entry in the loop of `decay`. -/
def decayVote (vote : IPV4Vote) : Except Panic IPV4Vote := do
  let fewer ← i32Checked "attempt to subtract with overflow" (vote.votes - 1)
  return { vote with votes := max 0 fewer }

/-- `IPV4Consensus::decay`. -/
def decay (self : IPV4Consensus) : Except Panic IPV4Consensus := do
  let votes ← self.votes.mapM decayVote
  return { self with votes := votes.filter (fun a => a.votes > 0) }

end IPV4Consensus

/-- A call that changes the votes. -/
inductive VoteOp where
  | addVote (theirAddr proposedAddr : Ipv4Addr)
  | decay

/-- A call on the consensus. -/
def VoteOp.apply (s : IPV4Consensus) : VoteOp → Except Panic IPV4Consensus
  | .addVote theirAddr proposedAddr => s.addVote theirAddr proposedAddr
  | .decay => s.decay

/-- Calls on the consensus, up to the first that panics. -/
def IPV4Consensus.run (s : IPV4Consensus) (ops : List VoteOp) : Except Panic IPV4Consensus := ops.foldlM VoteOp.apply s

end RustyDht
