import RustyDht.Dht
import RustyDht.Lemmas.Ipv4AddrSrc
import Mathlib.Order.Bounds.Basic

/-!
# The consensus on our address

After every sequence of votes and decays, the consensus holds what a counter for each address would, with the address that has the most
votes first. So it can be the address source of a DHT, whose calls never panic.
-/

namespace RustyDht

/-- A counter for one address: a vote for it raises the count by one, up to the most, and a decay lowers it by one, down to zero. -/
def VoteOp.count (maxVotes : Nat) (a : Ipv4Addr) (count : Nat) : VoteOp → Nat
  | .addVote _ proposedAddr => if proposedAddr = a then min maxVotes (count + 1) else count
  | .decay => count - 1

namespace IPV4Consensus

variable {s : IPV4Consensus} {f : Ipv4Addr → Nat} {a : Ipv4Addr}

/-! ## Runs -/

/-- An address leads a tally: no other has more votes, and it has enough of them, and any. -/
structure Leads (minVotes : Nat) (f : Ipv4Addr → Nat) (a : Ipv4Addr) : Prop where
  most : ∀ b, f b ≤ f a
  enough : minVotes ≤ f a
  pos : 0 < f a

/-- A new consensus has no votes. -/
theorem new_represents {minVotes maxVotes : Nat} (hmin : minVotes < 2 ^ 31) (hpos : 1 ≤ maxVotes) (hmax : maxVotes ≤ 2 ^ 31 - 2) :
    (new minVotes maxVotes).Represents (fun _ => 0) where
  nodup := List.nodup_nil
  value _ hv := absurd hv List.not_mem_nil
  mem _ := iff_of_false List.not_mem_nil (Nat.lt_irrefl 0)
  ranked := List.Pairwise.nil
  most _ := Nat.zero_le _
  minVotes := hmin
  maxVotes_pos := hpos
  maxVotes := hmax

/-- No sequence of calls panics; the consensus represents the tally of the calls; and an address that is first stays so while it
leads. -/
theorem Represents.run (ops : List VoteOp) : ∀ {s : IPV4Consensus} {f : Ipv4Addr → Nat}, s.Represents f →
    ∃ s', s.run ops = .ok s' ∧ s'.minVotes = s.minVotes ∧ s'.maxVotes = s.maxVotes ∧
      s'.Represents (Machine.run (VoteOp.tally s.maxVotes) f ops) ∧
      ∀ a, s.first = some a → (∀ gs, gs <+: ops → Leads s.minVotes (Machine.run (VoteOp.tally s.maxVotes) f gs) a) →
        s'.first = some a := by
  induction ops with
  | nil => exact fun {s f} h => ⟨s, rfl, rfl, rfl, h, fun a hfirst _ => hfirst⟩
  | cons op ops ih =>
    intro s f h
    obtain ⟨s1, hs1, hnext⟩ := h.apply op
    obtain ⟨s', hs', hmin, hmax, hrep, hfirst⟩ := ih hnext.represents
    rw [hnext.minVotes] at hmin hfirst
    rw [hnext.maxVotes] at hmax hrep hfirst
    refine ⟨s', ?_, hmin, hmax, hrep, fun a ha hleads => hfirst a ?_ (fun gs hgs => ?_)⟩
    · rw [IPV4Consensus.run, List.foldlM_cons, hs1]
      exact hs'
    · -- The call itself: the address leads after it.
      have hlead := hleads [op] (List.cons_prefix_cons.mpr ⟨rfl, List.nil_prefix⟩)
      exact hnext.first a ha hlead.most hlead.pos
    · exact hleads (op :: gs) (List.cons_prefix_cons.mpr ⟨rfl, hgs⟩)

/-- The tally of an address is its counter. -/
theorem run_tally (maxVotes : Nat) (ops : List VoteOp) (a : Ipv4Addr) :
    Machine.run (VoteOp.tally maxVotes) (fun _ => 0) ops a = Machine.run (VoteOp.count maxVotes a) 0 ops := by
  refine Machine.run_map (VoteOp.tally maxVotes) (fun f : Ipv4Addr → Nat => f a) (fun f op => ?_) ops (fun _ => 0)
  cases op with
  | addVote theirAddr p =>
    dsimp only [VoteOp.tally, VoteOp.count]
    by_cases hp : p = a
    · subst hp
      rw [Function.update_self, if_pos rfl]
    · rw [Function.update_of_ne (Ne.symm hp), if_neg hp]
  | decay => rfl

/-! ## The address with the most votes -/

/-- The best address is the first, if it has enough votes. -/
theorem Represents.best_eq_some_iff (h : s.Represents f) :
    s.getBestIpv4 = .ok (some a) ↔ s.first = some a ∧ s.minVotes ≤ f a := by
  rw [h.getBestIpv4, Except.ok.injEq, Option.filter_eq_some_iff, decide_eq_true_eq]

/-- There is a largest count; there is a best address exactly when it is enough, and a vote, and the best address has it. -/
theorem Represents.largest (h : s.Represents f) : ∃ best m, s.getBestIpv4 = .ok best ∧ IsGreatest (Set.range f) m ∧
    (best.isSome = true ↔ max 1 s.minVotes ≤ m) ∧ ∀ a, best = some a → f a = m := by
  cases hfirst : s.first with
  | some a =>
    have hpos := h.first_pos hfirst
    refine ⟨_, f a, h.getBestIpv4, ⟨⟨a, rfl⟩, ?_⟩, ?_, fun b hb => ?_⟩
    · rintro _ ⟨b, rfl⟩
      exact h.le_of_first hfirst b
    · simp only [hfirst, Option.filter_some, decide_eq_true_eq]
      split
      · exact iff_of_true rfl (by omega)
      · exact iff_of_false Bool.false_ne_true (by omega)
    · rw [hfirst] at hb
      rw [Option.mem_some.mp (Option.filter_eq_some_iff.mp hb).1]
  | none =>
    have hzero : ∀ b, f b = 0 := by
      intro b
      refine Nat.eq_zero_of_not_pos (fun hb => ?_)
      have hsome := h.first_isSome.mpr ⟨b, hb⟩
      rw [hfirst] at hsome
      exact Bool.false_ne_true hsome
    refine ⟨none, 0, ?_, ⟨⟨⟨0, 0, 0, 0⟩, hzero _⟩, ?_⟩, iff_of_false Bool.false_ne_true (by omega), fun b hb => nomatch hb⟩
    · rw [h.getBestIpv4, hfirst]
      rfl
    · rintro _ ⟨b, rfl⟩
      exact Nat.le_of_eq (hzero b)

/-- After every sequence of votes and decays, none of which panics, no address is listed twice, every count is between one and the most,
and the counts do not increase along the list; the count of each address is that of its counter; there is a best address exactly when
the largest count is enough, and a vote, and it is one with the largest count; and the best address stays it while no other has more
votes and its own are enough, and any. -/
theorem run_electsMostVotes (minVotes maxVotes : Nat) (hmin : minVotes < 2 ^ 31) (hpos : 1 ≤ maxVotes) (hmax : maxVotes ≤ 2 ^ 31 - 2)
    (ops : List VoteOp) :
    ∃ s best largest, (new minVotes maxVotes).run ops = .ok s ∧ s.getBestIpv4 = .ok best ∧
      (s.votes.map (·.ip)).Nodup ∧
      (∀ v ∈ s.votes, 1 ≤ v.votes ∧ v.votes ≤ maxVotes) ∧
      s.votes.Pairwise (fun v w => w.votes ≤ v.votes) ∧
      (∀ a, s.votesOf a = Machine.run (VoteOp.count maxVotes a) 0 ops) ∧
      IsGreatest (Set.range (fun a => Machine.run (VoteOp.count maxVotes a) 0 ops)) largest ∧
      (best.isSome = true ↔ max 1 minVotes ≤ largest) ∧
      (∀ a, best = some a → Machine.run (VoteOp.count maxVotes a) 0 ops = largest) ∧
      ∀ a more, best = some a →
        (∀ gs, gs <+: more → Leads minVotes (fun b => Machine.run (VoteOp.count maxVotes b) 0 (ops ++ gs)) a) →
        ∃ s', s.run more = .ok s' ∧ s'.getBestIpv4 = .ok (some a) := by
  obtain ⟨s, hs, hsmin, hsmax, hrep, -⟩ := (new_represents hmin hpos hmax).run ops
  have hsmin : s.minVotes = minVotes := hsmin
  have hsmax : s.maxVotes = maxVotes := hsmax
  have htally : ∀ es, Machine.run (VoteOp.tally maxVotes) (fun _ => 0) es =
      fun a => Machine.run (VoteOp.count maxVotes a) 0 es := fun es => funext (run_tally maxVotes es)
  have hrep : s.Represents (fun a => Machine.run (VoteOp.count maxVotes a) 0 ops) := htally ops ▸ hrep
  obtain ⟨best, largest, hbest, hgreatest, hiff, hlargest⟩ := hrep.largest
  refine ⟨s, best, largest, hs, hbest, hrep.nodup, fun v hv => ?_, hrep.ranked, hrep.find, hgreatest, hsmin ▸ hiff, hlargest,
    fun a more ha hleads => ?_⟩
  · have hle := hrep.most v.ip
    have hvpos := hrep.toCounts.pos hv
    rw [hrep.value v hv]
    omega
  · obtain ⟨s', hs', hmin', hmax', hrep', hfirst⟩ := hrep.run more
    have hrun : ∀ gs, Machine.run (VoteOp.tally s.maxVotes) (fun b => Machine.run (VoteOp.count maxVotes b) 0 ops) gs =
        fun b => Machine.run (VoteOp.count maxVotes b) 0 (ops ++ gs) := by
      intro gs
      rw [← htally, ← htally, Machine.run_append, hsmax]
    refine ⟨s', hs', hrep'.best_eq_some_iff.mpr ⟨hfirst a ?_ (fun gs hgs => ?_), ?_⟩⟩
    · exact (hrep.best_eq_some_iff.mp (ha ▸ hbest)).1
    · rw [hrun, hsmin]
      exact hleads gs hgs
    · rw [hrun, hmin', hsmin]
      exact (hleads more (List.prefix_refl more)).enough

/-- With two of at most four votes needed, over three votes and a decay. -/
theorem run_electsMostVotes_three :
    let ops : List VoteOp := [.addVote ⟨0, 0, 0, 0⟩ ⟨1, 1, 1, 1⟩, .addVote ⟨0, 0, 0, 0⟩ ⟨2, 2, 2, 2⟩,
      .addVote ⟨0, 0, 0, 0⟩ ⟨2, 2, 2, 2⟩, .decay]
    ∃ s best largest, (new 2 4).run ops = .ok s ∧ s.getBestIpv4 = .ok best ∧
      (s.votes.map (·.ip)).Nodup ∧
      (∀ v ∈ s.votes, 1 ≤ v.votes ∧ v.votes ≤ (4 : Nat)) ∧
      s.votes.Pairwise (fun v w => w.votes ≤ v.votes) ∧
      (∀ a, s.votesOf a = Machine.run (VoteOp.count 4 a) 0 ops) ∧
      IsGreatest (Set.range (fun a => Machine.run (VoteOp.count 4 a) 0 ops)) largest ∧
      (best.isSome = true ↔ max 1 2 ≤ largest) ∧
      (∀ a, best = some a → Machine.run (VoteOp.count 4 a) 0 ops = largest) ∧
      ∀ a more, best = some a →
        (∀ gs, gs <+: more → Leads 2 (fun b => Machine.run (VoteOp.count 4 b) 0 (ops ++ gs)) a) →
        ∃ s', s.run more = .ok s' ∧ s'.getBestIpv4 = .ok (some a) :=
  run_electsMostVotes 2 4 (by decide) (by decide) (by decide) _

end IPV4Consensus

/-! ## The source of a DHT's address -/

/-- A consensus that calls have led to, with settings in range. -/
structure SoundConsensus extends IPV4Consensus where
  sound : ∃ f, toIPV4Consensus.Represents f

namespace SoundConsensus

/-- What a call that does not panic returns. -/
def returned {α : Type} : (r : Except Panic α) → (∃ a, r = .ok a) → { a // r = .ok a }
  | .ok a, _ => ⟨a, rfl⟩
  | .error _, h => (h.elim (fun _ ha => nomatch ha) : False).elim

theorem apply_ok (self : SoundConsensus) (op : VoteOp) : ∃ s, op.apply self.toIPV4Consensus = .ok s := by
  obtain ⟨f, hf⟩ := self.sound
  obtain ⟨s, hs, -⟩ := hf.apply op
  exact ⟨s, hs⟩

theorem getBestIpv4_ok (self : SoundConsensus) : ∃ best, self.toIPV4Consensus.getBestIpv4 = .ok best := by
  obtain ⟨f, hf⟩ := self.sound
  exact ⟨_, hf.getBestIpv4⟩

/-- A call on the consensus. -/
def apply (self : SoundConsensus) (op : VoteOp) : SoundConsensus where
  toIPV4Consensus := (returned _ (self.apply_ok op)).1
  sound := by
    obtain ⟨f, hf⟩ := self.sound
    obtain ⟨s, hs, hnext⟩ := hf.apply op
    have heq : s = (returned _ (self.apply_ok op)).1 := Except.ok.inj (hs.symm.trans (returned _ (self.apply_ok op)).2)
    exact ⟨_, heq ▸ hnext.represents⟩

/-- The best address. -/
def best (self : SoundConsensus) : Option Ipv4Addr := (returned _ self.getBestIpv4_ok).1

/-- A call does what the checked call does, which does not panic. -/
theorem apply_eq (self : SoundConsensus) (op : VoteOp) : op.apply self.toIPV4Consensus = .ok (self.apply op).toIPV4Consensus :=
  (returned _ (self.apply_ok op)).2

/-- The best address is what `get_best_ipv4` returns, which does not panic. -/
theorem best_eq (self : SoundConsensus) : self.toIPV4Consensus.getBestIpv4 = .ok self.best := (returned _ self.getBestIpv4_ok).2

end SoundConsensus

/-- `IPV4Consensus` as the address source of a DHT. -/
def IPV4AddrSource.consensus : IPV4AddrSource SoundConsensus where
  getBestIpv4 := SoundConsensus.best
  addVote self theirAddr proposedAddr := self.apply (.addVote theirAddr proposedAddr)
  decay self := self.apply .decay

end RustyDht
