import RustyDht.Lib.Machine
import RustyDht.Lemmas.PeerStorage
import Mathlib.Data.Nat.Basic

/-!
# Dumping info hashes

What a peer storage with dumps holds is what the one without them holds, until a torrent is evicted: a dump counts as a use of every
torrent, in reverse order. The evicted torrent is the same exactly if every other stored torrent was used since the last dump, or
before an even number of dumps. The two runs are followed side by side.
-/

namespace RustyDht

open LruCache (weave)

/-! ## Two runs -/

/-- What a DHT does with its peer storage, and a dump of it. -/
inductive PeerStorageOp where
  | announcePeer (infoHash : Id) (peerAddr : SocketAddr) (now : Instant)
  | getPeers (infoHash : Id) (newerThan : Option Instant)
  | sampleInfoHashes
  | dump (newerThan : Option Instant)

/-- The storage after a call. -/
def PeerStorageOp.apply (self : PeerStorage) : PeerStorageOp → PeerStorage
  | .announcePeer infoHash peerAddr now => self.announcePeer infoHash peerAddr now
  | .getPeers infoHash newerThan => (self.getPeers infoHash newerThan).2
  | .sampleInfoHashes => self
  | .dump newerThan => (DHT.getInfoHashes self newerThan).2

/-- A storage with dumps and one without, and how many dumps there were since each torrent was last announced or looked up. -/
structure DumpRuns where
  dumped : PeerStorage
  plain : PeerStorage
  dumps : Id → Nat

namespace DumpRuns

/-- Two runs from one storage. -/
def new (start : PeerStorage) : DumpRuns := { dumped := start, plain := start, dumps := fun _ => 0 }

/-- Both runs after a call, which the one without dumps skips if it is a dump. -/
def step (s : DumpRuns) (op : PeerStorageOp) : DumpRuns where
  dumped := op.apply s.dumped
  plain := match op with
    | .dump _ => s.plain
    | op => op.apply s.plain
  dumps := match op with
    | .announcePeer infoHash _ _ => Function.update s.dumps infoHash 0
    | .getPeers infoHash _ => Function.update s.dumps infoHash 0
    | .sampleInfoHashes => s.dumps
    | .dump _ => fun hash => s.dumps hash + 1

/-- Nothing shows the dumps: both storages hold the same torrents with the same peers, a lookup of peers gives the same in both, and
the info hashes that a sample is taken from are the same, up to order. -/
def Unobserved (s : DumpRuns) : Prop :=
  s.dumped.peers.entries.Perm s.plain.peers.entries ∧
    (∀ hash newerThan, (s.dumped.getPeers hash newerThan).1 = (s.plain.getPeers hash newerThan).1) ∧
    s.dumped.getInfoHashes.Perm s.plain.getInfoHashes

/-- The condition on a call: where an announce evicts a torrent, every stored torrent but the least recently used one was last
announced or looked up before an even number of dumps, such as none. -/
def EvictsUndumped (s : DumpRuns) : PeerStorageOp → Prop
  | .announcePeer infoHash _ _ => infoHash ∉ s.plain.peers.keys → s.plain.peers.entries.length = s.plain.peers.cap →
    ∀ e ∈ s.plain.peers.entries.dropLast, Even (s.dumps e.1)
  | _ => True

instance (s : DumpRuns) : ∀ op, Decidable (EvictsUndumped s op)
  | .announcePeer infoHash _ _ => inferInstanceAs (Decidable (infoHash ∉ s.plain.peers.keys →
      s.plain.peers.entries.length = s.plain.peers.cap → ∀ e ∈ s.plain.peers.entries.dropLast, Even (s.dumps e.1)))
  | .getPeers _ _ => inferInstanceAs (Decidable True)
  | .sampleInfoHashes => inferInstanceAs (Decidable True)
  | .dump _ => inferInstanceAs (Decidable True)

/-- The storages are in the order that the dumps since each torrent was used have left. -/
def Tracked (s : DumpRuns) : Prop := PeerStorage.Woven (fun hash => decide (Even (s.dumps hash))) s.dumped s.plain

theorem new_tracked (start : PeerStorage) : (new start).Tracked where
  entries := by
    have hall : ∀ e ∈ start.peers.entries, (fun e : Id × LruCache SocketAddr PeerInfo => decide (Even 0)) e = true :=
      fun _ _ => rfl
    exact (LruCache.weave_of_all hall).symm
  cap := rfl
  max := rfl

/-- Tracked storages are not told apart. -/
theorem Tracked.unobserved {s : DumpRuns} (h : s.Tracked) : s.Unobserved := by
  refine ⟨h.perm, fun hash newerThan => ?_, h.perm.map Prod.fst⟩
  exact congrArg (List.map (·.addr)) (h.get hash newerThan).1

/-- A call that meets the condition keeps the storages tracked. -/
theorem Tracked.step {s : DumpRuns} (h : s.Tracked) {op : PeerStorageOp} (hok : EvictsUndumped s op) : (s.step op).Tracked := by
  have hfresh : ∀ hash : Id, Function.update (fun hash => decide (Even (s.dumps hash))) hash true =
      fun hash' => decide (Even (Function.update s.dumps hash 0 hash')) := by
    intro hash
    funext hash'
    by_cases he : hash' = hash
    · subst he
      rw [Function.update_self, Function.update_self]
      rfl
    · rw [Function.update_of_ne he, Function.update_of_ne he]
  cases op with
  | announcePeer infoHash peerAddr now =>
    have hwoven := h.announcePeer infoHash peerAddr now (fun hpeek hfull e he =>
      decide_eq_true (hok ((LruCache.peek_eq_none_iff _ _).mp hpeek) hfull e he))
    rw [hfresh] at hwoven
    exact hwoven
  | getPeers infoHash newerThan =>
    have hwoven := (h.get infoHash newerThan).2
    rw [hfresh] at hwoven
    exact hwoven
  | sampleInfoHashes => exact h
  | dump newerThan =>
    obtain ⟨hentries, hcap, hmax⟩ := DHT.getInfoHashes_snd s.dumped newerThan
    refine ⟨?_, hcap.trans h.cap, hmax.trans h.max⟩
    refine hentries.trans ?_
    rw [h.entries, LruCache.reverse_weave]
    refine LruCache.weave_congr (fun e _ => ?_)
    simp only [DumpRuns.step, Nat.even_add_one, decide_not]

/-- A call that does not meet the condition tells the storages apart: they evict different torrents. -/
theorem Tracked.evictsUndumped {s : DumpRuns} (h : s.Tracked) {op : PeerStorageOp} (hun : (s.step op).Unobserved) :
    EvictsUndumped s op := by
  cases op with
  | announcePeer infoHash peerAddr now =>
    intro hnew hfull e he
    by_contra hodd
    have hpeek := (LruCache.peek_eq_none_iff _ _).mpr hnew
    have hpeek' := (h.peek infoHash).trans hpeek
    have hcap : 1 ≤ s.plain.peers.cap := hfull ▸ List.length_pos_of_mem (List.dropLast_subset _ he)
    have hperm := hun.1
    simp only [DumpRuns.step, PeerStorageOp.apply, PeerStorage.announcePeer, LruCache.getMut, hpeek, hpeek', Option.map_none,
      LruCache.put_of_none hcap hpeek, LruCache.put_of_none (h.cap ▸ hcap) hpeek', h.max] at hperm
    have hkept := (List.perm_cons _).mp hperm
    rw [LruCache.kept, LruCache.kept, h.perm.length_eq, h.cap, if_pos hfull, if_pos hfull, h.entries] at hkept
    rcases List.eq_nil_or_concat s.plain.peers.entries with hnil | ⟨l, a, hla⟩
    · rw [hnil] at he
      exact absurd he List.not_mem_nil
    · rw [List.concat_eq_append] at hla
      rw [hla, List.dropLast_concat] at he hkept
      -- The first torrent used before an odd number of dumps is the one evicted, though it is not the least recently used.
      have hevicted : ∃ y ∈ l, y ∉ (weave (fun e => decide (Even (s.dumps e.1))) (l ++ [a])).dropLast :=
        LruCache.weave_dropLast (hla ▸ s.plain.peers.nodup.of_map _) ⟨e, he, decide_eq_false hodd⟩
      obtain ⟨y, hy, hny⟩ := hevicted
      exact hny (hkept.mem_iff.mpr hy)
  | getPeers infoHash newerThan => exact trivial
  | sampleInfoHashes => exact trivial
  | dump newerThan => exact trivial

/-- From every storage and for every sequence of calls, no dump shows after any of them exactly when every eviction meets the
condition. -/
theorem run_unobserved_iff (start : PeerStorage) (ops : List PeerStorageOp) :
    (∀ pre, pre <+: ops → Unobserved (Machine.run step (new start) pre)) ↔
      Machine.StepsOk step EvictsUndumped (new start) ops := by
  have hrun : ∀ (ops : List PeerStorageOp) (s : DumpRuns), s.Tracked →
      ((∀ pre, pre <+: ops → Unobserved (Machine.run step s pre)) ↔ Machine.StepsOk step EvictsUndumped s ops) := by
    intro ops
    induction ops with
    | nil =>
      intro s h
      refine ⟨fun _ => trivial, fun _ pre hpre => ?_⟩
      rw [List.prefix_nil.mp hpre]
      exact h.unobserved
    | cons op ops ih =>
      intro s h
      constructor
      · intro hall
        have hok := h.evictsUndumped (hall [op] ⟨ops, rfl⟩)
        refine ⟨hok, (ih _ (h.step hok)).mp (fun pre hpre => hall (op :: pre) ?_)⟩
        exact (List.prefix_cons_inj op).mpr hpre
      · rintro ⟨hok, hrest⟩ pre hpre
        cases pre with
        | nil => exact h.unobserved
        | cons op' pre =>
          obtain ⟨rfl, hpre'⟩ := List.cons_prefix_cons.mp hpre
          exact (ih _ (h.step hok)).mpr hrest pre hpre'
  exact hrun ops (new start) (new_tracked start)

/-- With room for two torrents: one is announced, then another, then the hashes are dumped, and a third is announced. Without the
dump it evicts the first torrent, with it the second. -/
theorem not_unobserved_dump_before_eviction :
    ¬Unobserved (Machine.run step (new (PeerStorage.new 2 8))
      [.announcePeer (Id.startingWith 1) (.v4 ⟨1, 2, 3, 4⟩ 6881) 10, .announcePeer (Id.startingWith 2) (.v4 ⟨1, 2, 3, 4⟩ 6881) 20,
        .dump none, .announcePeer (Id.startingWith 3) (.v4 ⟨1, 2, 3, 4⟩ 6881) 30]) := by
  rintro ⟨h, -⟩
  revert h
  decide

end DumpRuns

end RustyDht
