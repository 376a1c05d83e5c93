import RustyDht.Ipv4AddrSrc
import RustyDht.Lib.Machine
import Mathlib.Logic.Function.Basic

/-!
# Lemmas about the votes on our address

A tally gives every address a number of votes. `Counts` says that a list has one entry for each address with votes, `Represents` that a
consensus does so with the entries in the order of their votes, from the most to the fewest. A call on a consensus that represents a
tally does not panic and leaves one that represents the tally after the call; and an address that is first stays so while no other has
more votes.
-/

namespace RustyDht

/-- What a call does to a tally: a vote counts for one more, up to the most, and a decay takes one from every address that has one. -/
def VoteOp.tally (maxVotes : Nat) (f : Ipv4Addr → Nat) : VoteOp → Ipv4Addr → Nat
  | .addVote _ proposedAddr => Function.update f proposedAddr (min maxVotes (f proposedAddr + 1))
  | .decay => fun a => f a - 1

namespace IPV4Consensus

/-- How many votes the list has for an address. -/
def votesOf (self : IPV4Consensus) (a : Ipv4Addr) : Int := ((self.votes.find? (fun v => v.ip = a)).map (·.votes)).getD 0

/-- The address of the first entry. -/
def first (self : IPV4Consensus) : Option Ipv4Addr := self.votes.head?.map (·.ip)

/-- A list has one entry for each address with votes. -/
structure Counts (f : Ipv4Addr → Nat) (l : List IPV4Vote) : Prop where
  nodup : (l.map (·.ip)).Nodup
  value : ∀ v ∈ l, v.votes = f v.ip
  mem : ∀ a, a ∈ l.map (·.ip) ↔ 0 < f a

/-- A consensus has one entry for each address with votes, those with more of them first, and neither its settings nor the votes are
out of the range of what they are computed with. -/
structure Represents (s : IPV4Consensus) (f : Ipv4Addr → Nat) : Prop extends Counts f s.votes where
  ranked : s.votes.Pairwise (fun v w => w.votes ≤ v.votes)
  most : ∀ a, f a ≤ s.maxVotes
  minVotes : s.minVotes < 2 ^ 31
  maxVotes_pos : 1 ≤ s.maxVotes
  maxVotes : s.maxVotes ≤ 2 ^ 31 - 2

variable {s : IPV4Consensus} {f : Ipv4Addr → Nat} {l l' : List IPV4Vote} {a p : Ipv4Addr}

/-! ## Lists of votes -/

namespace Counts

/-- The order of the entries makes no difference. -/
theorem perm (h : Counts f l) (hp : l'.Perm l) : Counts f l' where
  nodup := (hp.map _).nodup_iff.mpr h.nodup
  value v hv := h.value v (hp.mem_iff.mp hv)
  mem a := (hp.map _).mem_iff.trans (h.mem a)

/-- The entry of an address has its votes, and none has an address without votes. -/
theorem find (h : Counts f l) (a : Ipv4Addr) : ((l.find? (fun v => v.ip = a)).map (·.votes)).getD 0 = (f a : Int) := by
  cases hfind : l.find? (fun v => v.ip = a) with
  | some v =>
    have hv : v.ip = a := by simpa using List.find?_some hfind
    rw [Option.map_some, Option.getD_some, h.value v (List.mem_of_find?_eq_some hfind), hv]
  | none =>
    have hnot : a ∉ l.map (·.ip) := by
      intro hmem
      obtain ⟨v, hv, rfl⟩ := List.mem_map.mp hmem
      exact List.find?_eq_none.mp hfind v hv (decide_eq_true rfl)
    have hzero : ¬ 0 < f a := fun hpos => hnot ((h.mem a).mpr hpos)
    simp only [Option.map_none, Option.getD_none]
    omega

/-- Every entry has a vote. -/
theorem pos (h : Counts f l) {v : IPV4Vote} (hv : v ∈ l) : 0 < f v.ip := (h.mem v.ip).mp (List.mem_map.mpr ⟨v, hv, rfl⟩)

end Counts

/-- An entry with one vote more, up to the most, if it is for the address proposed. -/
def bump (maxVotes : Nat) (proposedAddr : Ipv4Addr) (v : IPV4Vote) : IPV4Vote :=
  if v.ip = proposedAddr then { v with votes := min maxVotes (v.votes + 1) } else v

@[simp] theorem bump_ip (maxVotes : Nat) (p : Ipv4Addr) (v : IPV4Vote) : (bump maxVotes p v).ip = v.ip := by
  unfold bump
  split <;> rfl

theorem bump_of_ne {maxVotes : Nat} {v : IPV4Vote} (h : v.ip ≠ p) : bump maxVotes p v = v := if_neg h

/-- No entry loses its address. -/
theorem map_bump_ip (maxVotes : Nat) (p : Ipv4Addr) (l : List IPV4Vote) :
    (l.map (bump maxVotes p)).map (·.ip) = l.map (·.ip) := by
  rw [List.map_map]
  exact List.map_congr_left (fun v _ => bump_ip maxVotes p v)

/-- Where no address occurs twice, the loop of `add_vote` bumps the entry of the address proposed, and says whether there is one. -/
theorem addVoteLoop_eq {maxVotes : Nat} (hmax : maxVotes ≤ 2 ^ 31 - 2) (p : Ipv4Addr) (l : List IPV4Vote)
    (hnodup : (l.map (·.ip)).Nodup) (hl : ∀ v ∈ l, 0 ≤ v.votes ∧ v.votes ≤ maxVotes) :
    addVoteLoop maxVotes p l = .ok (l.map (bump maxVotes p), decide (p ∈ l.map (·.ip))) := by
  induction l with
  | nil => rfl
  | cons v rest ih =>
    rw [List.map_cons, List.nodup_cons] at hnodup
    by_cases hv : v.ip = p
    · have hbound := hl v List.mem_cons_self
      have hmost : i32OfUsize maxVotes = .ok (maxVotes : Int) := if_pos (by omega)
      have hmore : i32Checked "attempt to add with overflow" (v.votes + 1) = .ok (v.votes + 1) := if_pos (by omega)
      have hrest : rest.map (bump maxVotes p) = rest := by
        conv_rhs => rw [← List.map_id rest]
        refine List.map_congr_left (fun w hw => bump_of_ne ?_)
        rintro rfl
        exact hnodup.1 (List.mem_map.mpr ⟨w, hw, hv.symm⟩)
      simp only [addVoteLoop, hmost, hmore, bind, Except.bind, pure, Except.pure, List.map_cons, hrest, bump, hv, List.mem_cons,
        true_or, decide_true, if_true]
    · have hmem : p ∈ v.ip :: rest.map (·.ip) ↔ p ∈ rest.map (·.ip) := List.mem_cons.trans (or_iff_right (fun h => hv h.symm))
      simp only [addVoteLoop, if_neg hv, ih hnodup.2 (fun w hw => hl w (List.mem_cons_of_mem _ hw)), bind, Except.bind, pure,
        Except.pure, List.map_cons, bump_of_ne hv, decide_eq_decide.mpr hmem]

/-- A vote for an address that has an entry. -/
theorem Counts.bump (h : Counts f l) (maxVotes : Nat) (hmax : 1 ≤ maxVotes) (hp : p ∈ l.map (·.ip)) (theirAddr : Ipv4Addr) :
    Counts ((VoteOp.addVote theirAddr p).tally maxVotes f) (l.map (IPV4Consensus.bump maxVotes p)) where
  nodup := by
    rw [map_bump_ip]
    exact h.nodup
  value v hv := by
    obtain ⟨w, hw, rfl⟩ := List.mem_map.mp hv
    rw [bump_ip, VoteOp.tally]
    by_cases hwp : w.ip = p
    · rw [IPV4Consensus.bump, if_pos hwp, hwp, Function.update_self, h.value w hw, hwp]
      dsimp only
      omega
    · rw [bump_of_ne hwp, Function.update_of_ne hwp, h.value w hw]
  mem b := by
    rw [map_bump_ip, h.mem b, VoteOp.tally]
    by_cases hbp : b = p
    · subst hbp
      have hpos := (h.mem b).mp hp
      rw [Function.update_self]
      exact iff_of_true hpos (by omega)
    · rw [Function.update_of_ne hbp]

/-- A vote for an address that has no entry. -/
theorem Counts.append (h : Counts f l) (maxVotes : Nat) (hmax : 1 ≤ maxVotes) (hp : p ∉ l.map (·.ip)) (theirAddr : Ipv4Addr) :
    Counts ((VoteOp.addVote theirAddr p).tally maxVotes f) (l ++ [{ ip := p, votes := 1 }]) := by
  have hzero : f p = 0 := Nat.eq_zero_of_not_pos (fun hpos => hp ((h.mem p).mpr hpos))
  have hone : (VoteOp.addVote theirAddr p).tally maxVotes f p = 1 := by
    rw [VoteOp.tally, Function.update_self, hzero]
    omega
  have hother : ∀ b, b ≠ p → (VoteOp.addVote theirAddr p).tally maxVotes f b = f b := fun b hb => Function.update_of_ne hb _ _
  refine ⟨?_, fun v hv => ?_, fun b => ?_⟩
  · rw [List.map_append, List.nodup_append]
    refine ⟨h.nodup, List.nodup_singleton _, fun b hb c hc hbc => hp ?_⟩
    obtain rfl : c = p := List.mem_singleton.mp hc
    exact hbc ▸ hb
  · rcases List.mem_append.mp hv with hv | hv
    · have hne : v.ip ≠ p := fun he => hp (he ▸ List.mem_map.mpr ⟨v, hv, rfl⟩)
      rw [hother _ hne, h.value v hv]
    · rw [List.mem_singleton.mp hv, hone]
      rfl
  · rw [List.map_append, List.mem_append, h.mem b, List.map_singleton, List.mem_singleton]
    by_cases hb : b = p
    · subst hb
      rw [hone]
      simp
    · rw [hother b hb]
      simp [hb]

/-! ## Calls -/

namespace Represents

/-- The first entry wins if it has as many votes as it takes. -/
theorem getBestIpv4 (h : s.Represents f) :
    s.getBestIpv4 = .ok (s.first.filter (fun a => s.minVotes ≤ f a)) := by
  have hmin : i32OfUsize s.minVotes = .ok (s.minVotes : Int) := if_pos h.minVotes
  rw [IPV4Consensus.getBestIpv4, first]
  cases hvotes : s.votes with
  | nil => rfl
  | cons v rest =>
    have hvalue := h.value v (hvotes ▸ List.mem_cons_self)
    simp only [List.head?_cons, hmin, bind, Except.bind, pure, Except.pure, Option.map_some, hvalue, Option.filter_some, ge_iff_le,
      Nat.cast_le, decide_eq_true_eq]

/-- No address has more votes than the first. -/
theorem le_of_first (h : s.Represents f) (hfirst : s.first = some a) (b : Ipv4Addr) : f b ≤ f a := by
  unfold first at hfirst
  cases hvotes : s.votes with
  | nil =>
    rw [hvotes] at hfirst
    cases hfirst
  | cons v rest =>
    rw [hvotes] at hfirst
    obtain rfl : v.ip = a := Option.some.inj hfirst
    by_cases hb : 0 < f b
    · obtain ⟨w, hw, rfl⟩ := List.mem_map.mp ((h.mem b).mpr hb)
      have hle : w.votes ≤ v.votes := by
        rw [hvotes] at hw
        rcases List.mem_cons.mp hw with rfl | hw
        · exact Int.le_refl _
        · have hranked := h.ranked
          rw [hvotes] at hranked
          exact (List.pairwise_cons.mp hranked).1 w hw
      rw [h.value w hw, h.value v (hvotes ▸ List.mem_cons_self)] at hle
      omega
    · omega

/-- An address is first while there are votes at all. -/
theorem first_isSome (h : s.Represents f) : s.first.isSome = true ↔ ∃ a, 0 < f a := by
  rw [first, Option.isSome_map, List.isSome_head?]
  constructor
  · intro hne
    obtain ⟨v, rest, hvotes⟩ := List.exists_cons_of_ne_nil hne
    exact ⟨v.ip, h.toCounts.pos (hvotes ▸ List.mem_cons_self)⟩
  · rintro ⟨a, ha⟩ hnil
    have hmem := (h.mem a).mpr ha
    rw [hnil] at hmem
    exact absurd hmem List.not_mem_nil

/-- The first address has votes. -/
theorem first_pos (h : s.Represents f) (hfirst : s.first = some a) : 0 < f a := by
  rw [first] at hfirst
  obtain ⟨v, hv, rfl⟩ := Option.map_eq_some_iff.mp hfirst
  exact h.toCounts.pos (List.mem_of_head? hv)

end Represents

/-- Sorting puts no entry in front of the first one, if none has more votes. -/
theorem sortByVotes_head {v : IPV4Vote} (h : ∀ w ∈ l, w.votes ≤ v.votes) : sortByVotes (v :: l) = v :: sortByVotes l :=
  List.insertionSort_cons_of_forall_rel (fun a b : IPV4Vote => b.votes ≤ a.votes) h

/-- What a call leaves of a consensus that represents a tally. -/
structure Next (s : IPV4Consensus) (f f' : Ipv4Addr → Nat) (s' : IPV4Consensus) : Prop where
  represents : s'.Represents f'
  minVotes : s'.minVotes = s.minVotes
  maxVotes : s'.maxVotes = s.maxVotes
  /-- An address that is first stays so while it has votes and no other has more. -/
  first : ∀ a, s.first = some a → (∀ b, f' b ≤ f' a) → 0 < f' a → s'.first = some a

/-- A list of votes whose first entry is for an address that has votes, no other having more, keeps it first when it is sorted. -/
theorem Counts.first_sortByVotes (h : Counts f l) (hfirst : l.head?.map (·.ip) = some a) (ha : ∀ b, f b ≤ f a) :
    (sortByVotes l).head?.map (·.ip) = some a := by
  obtain ⟨v, hv, rfl⟩ := Option.map_eq_some_iff.mp hfirst
  obtain ⟨rest, rfl⟩ := List.head?_eq_some_iff.mp hv
  rw [sortByVotes_head, List.head?_cons, Option.map_some]
  intro w hw
  have hle := ha w.ip
  rw [h.value w (List.mem_cons_of_mem _ hw), h.value v List.mem_cons_self]
  omega

theorem Represents.tally_le (h : s.Represents f) (op : VoteOp) (a : Ipv4Addr) : op.tally s.maxVotes f a ≤ s.maxVotes := by
  have hle := h.most a
  cases op with
  | addVote theirAddr p =>
    rw [VoteOp.tally]
    by_cases ha : a = p
    · subst ha
      rw [Function.update_self]
      exact Nat.min_le_left _ _
    · rw [Function.update_of_ne ha]
      exact hle
  | decay =>
    dsimp only [VoteOp.tally]
    omega

/-- A vote does not panic, and counts. -/
theorem Represents.addVote (h : s.Represents f) (theirAddr p : Ipv4Addr) :
    ∃ s', s.addVote theirAddr p = .ok s' ∧ s.Next f ((VoteOp.addVote theirAddr p).tally s.maxVotes f) s' := by
  have hbound : ∀ v ∈ s.votes, 0 ≤ v.votes ∧ v.votes ≤ s.maxVotes := by
    intro v hv
    have hle := h.most v.ip
    rw [h.value v hv]
    omega
  have hloop := addVoteLoop_eq h.maxVotes p s.votes h.nodup hbound
  by_cases hp : p ∈ s.votes.map (·.ip)
  · have hcounts := h.toCounts.bump s.maxVotes h.maxVotes_pos hp theirAddr
    refine ⟨{ s with votes := sortByVotes (s.votes.map (bump s.maxVotes p)) }, ?_, ⟨?_, ?_, h.tally_le _, h.minVotes, h.maxVotes_pos,
      h.maxVotes⟩, rfl, rfl, fun a hfirst hle _ => ?_⟩
    · simp only [IPV4Consensus.addVote, hloop, hp, decide_true, bind, Except.bind, if_true, pure, Except.pure]
    · exact hcounts.perm (List.perm_insertionSort _ _)
    · exact List.pairwise_insertionSort (r := fun v w : IPV4Vote => w.votes ≤ v.votes) _
    · refine hcounts.first_sortByVotes ?_ hle
      rw [← List.head?_map, map_bump_ip, List.head?_map]
      exact hfirst
  · have hcounts := h.toCounts.append s.maxVotes h.maxVotes_pos hp theirAddr
    refine ⟨{ s with votes := s.votes ++ [{ ip := p, votes := 1 }] }, ?_, ⟨hcounts, ?_, h.tally_le _, h.minVotes, h.maxVotes_pos,
      h.maxVotes⟩, rfl, rfl, fun a hfirst _ _ => ?_⟩
    · simp only [IPV4Consensus.addVote, hloop, hp, decide_false, bind, Except.bind, pure, Except.pure, Bool.false_eq_true, if_false]
      -- Nothing was bumped.
      have hsame : s.votes.map (bump s.maxVotes p) = s.votes := by
        conv_rhs => rw [← List.map_id s.votes]
        refine List.map_congr_left (fun v hv => bump_of_ne ?_)
        rintro rfl
        exact hp (List.mem_map.mpr ⟨v, hv, rfl⟩)
      rw [hsame]
    · refine List.pairwise_append.mpr ⟨h.ranked, List.pairwise_singleton _ _, fun v hv w hw => ?_⟩
      have hpos := h.toCounts.pos hv
      rw [List.mem_singleton.mp hw, h.value v hv]
      dsimp only
      omega
    · obtain ⟨v, hv, rfl⟩ := Option.map_eq_some_iff.mp hfirst
      obtain ⟨rest, hvotes⟩ := List.head?_eq_some_iff.mp hv
      simp only [IPV4Consensus.first, hvotes, List.cons_append, List.head?_cons, Option.map_some]

/-- The loop of `decay` takes one vote from every entry. -/
theorem mapM_decayVote (l : List IPV4Vote) (hl : ∀ v ∈ l, 1 ≤ v.votes ∧ v.votes < 2 ^ 31) :
    l.mapM decayVote = .ok (l.map (fun v => { v with votes := v.votes - 1 })) := by
  induction l with
  | nil => rfl
  | cons v rest ih =>
    have hv := hl v List.mem_cons_self
    have hfewer : i32Checked "attempt to subtract with overflow" (v.votes - 1) = .ok (v.votes - 1) := if_pos (by omega)
    have hmax : max 0 (v.votes - 1) = v.votes - 1 := by omega
    simp only [List.mapM_cons, decayVote, hfewer, bind, Except.bind, pure, Except.pure,
      ih (fun w hw => hl w (List.mem_cons_of_mem _ hw)), List.map_cons, hmax]

/-- The entries that a decay leaves. -/
def decayed (l : List IPV4Vote) : List IPV4Vote :=
  (l.map (fun v => { v with votes := v.votes - 1 })).filter (fun v => v.votes > 0)

theorem mem_decayed {v : IPV4Vote} : v ∈ decayed l ↔ ∃ w ∈ l, 1 < w.votes ∧ v = { w with votes := w.votes - 1 } := by
  rw [decayed, List.mem_filter, List.mem_map, decide_eq_true_eq]
  constructor
  · rintro ⟨⟨w, hw, rfl⟩, hpos⟩
    dsimp only at hpos
    exact ⟨w, hw, by omega, rfl⟩
  · rintro ⟨w, hw, hlt, rfl⟩
    exact ⟨⟨w, hw, rfl⟩, by dsimp only; omega⟩

/-- A decay of the votes is one of the tally. -/
theorem Counts.decayed (h : Counts f l) (maxVotes : Nat) : Counts (VoteOp.decay.tally maxVotes f) (decayed l) where
  nodup := by
    have hsub : ((IPV4Consensus.decayed l).map (·.ip)).Sublist (l.map (·.ip)) := by
      refine (List.filter_sublist.map _).trans ?_
      rw [List.map_map]
      exact List.Sublist.refl _
    exact h.nodup.sublist hsub
  value v hv := by
    obtain ⟨w, hw, hlt, rfl⟩ := mem_decayed.mp hv
    have hvalue := h.value w hw
    dsimp only [VoteOp.tally]
    omega
  mem a := by
    rw [List.mem_map]
    constructor
    · rintro ⟨v, hv, rfl⟩
      obtain ⟨w, hw, hlt, rfl⟩ := mem_decayed.mp hv
      have hvalue := h.value w hw
      dsimp only [VoteOp.tally]
      omega
    · intro hpos
      dsimp only [VoteOp.tally] at hpos
      obtain ⟨w, hw, rfl⟩ := List.mem_map.mp ((h.mem a).mpr (by omega))
      have hvalue := h.value w hw
      exact ⟨_, mem_decayed.mpr ⟨w, hw, by omega, rfl⟩, rfl⟩

/-- A decay keeps the order of the entries. -/
theorem decayed_ranked (h : l.Pairwise (fun v w => w.votes ≤ v.votes)) :
    (decayed l).Pairwise (fun v w => w.votes ≤ v.votes) := by
  refine List.Pairwise.sublist List.filter_sublist ?_
  refine List.pairwise_map.mpr (h.imp (fun hle => ?_))
  dsimp only
  omega

/-- A decay does not panic, and takes a vote from every address. -/
theorem Represents.decay (h : s.Represents f) :
    ∃ s', s.decay = .ok s' ∧ s.Next f (VoteOp.decay.tally s.maxVotes f) s' := by
  have hbound : ∀ v ∈ s.votes, 1 ≤ v.votes ∧ v.votes < 2 ^ 31 := by
    intro v hv
    have hle := h.most v.ip
    have hmax := h.maxVotes
    have hpos := h.toCounts.pos hv
    rw [h.value v hv]
    omega
  refine ⟨{ s with votes := decayed s.votes }, ?_, ⟨h.toCounts.decayed _, decayed_ranked h.ranked, h.tally_le _, h.minVotes,
    h.maxVotes_pos, h.maxVotes⟩, rfl, rfl, fun a hfirst _ hpos => ?_⟩
  · simp only [IPV4Consensus.decay, mapM_decayVote s.votes hbound, bind, Except.bind, pure, Except.pure, decayed]
  · obtain ⟨v, hv, rfl⟩ := Option.map_eq_some_iff.mp hfirst
    obtain ⟨rest, hvotes⟩ := List.head?_eq_some_iff.mp hv
    have hvalue := h.value v (hvotes ▸ List.mem_cons_self)
    dsimp only [VoteOp.tally] at hpos
    have hstays : v.votes - 1 > 0 := by omega
    simp only [first, decayed, hvotes, List.map_cons, List.filter_cons, hstays, decide_true, if_true, List.head?_cons,
      Option.map_some]

/-- A call on a consensus that represents a tally does not panic, and leaves one that represents the tally after it. -/
theorem Represents.apply (h : s.Represents f) (op : VoteOp) :
    ∃ s', op.apply s = .ok s' ∧ s.Next f (op.tally s.maxVotes f) s' := by
  cases op with
  | addVote theirAddr p => exact h.addVote theirAddr p
  | decay => exact h.decay

end IPV4Consensus

end RustyDht
