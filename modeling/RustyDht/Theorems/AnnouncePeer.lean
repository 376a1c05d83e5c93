import RustyDht.Lemmas.Operations

/-!
# Announcing to the nearest responders

`get_peers` keeps one responder for each answer, and asks a node again in every round in which it is among the nearest.
`announce_peer` sorts the responders by distance and announces to the first eight, so a node that answered twice takes two of the
eight places, unless seven answers came from nearer nodes.
-/

namespace RustyDht

/-! ## The answers of a run -/

/-- A run of `get_peers` with the answers it got: every node that answered, as often as it did, with the token it returned. -/
structure GetPeersHistory where
  state : GetPeers
  answers : List GetPeersResponder

namespace GetPeersHistory

/-- A run before its first event. -/
def new (infoHash : Id) : GetPeersHistory := { state := GetPeers.new infoHash, answers := [] }

/-- The token of a get_peers response. -/
def token (result : Except RustyDHTError Message) : Option (List UInt8) :=
  match result with
  | .ok { messageType := .response (.getPeersResponse args), .. } => some args.token
  | _ => none

/-- The answer in an event: a get_peers response to an outstanding request. -/
def answer (todos : List RequestTo) : LookupEvent → Option GetPeersResponder
  | .round _ _ _ => none
  | .reply i result _ => todos[i]?.bind (fun todo => (token result).map (GetPeersResponder.mk todo.node))

/-- The run after an event. -/
def step (S : UnstableSort) (readOnly : Bool) (s : GetPeersHistory) (e : LookupEvent) : GetPeersHistory where
  state := GetPeers.step S readOnly s.state e
  answers := s.answers ++ (answer s.state.lookup.todos e).toList

/-- The run with the events of a list. -/
def run (S : UnstableSort) (readOnly : Bool) (infoHash : Id) (events : List LookupEvent) : GetPeersHistory :=
  Machine.run (step S readOnly) (new infoHash) events

variable {S : UnstableSort} {readOnly : Bool} {infoHash : Id}

/-- The values of a response add no responder. -/
theorem values_responders (self : GetPeers) (values : GetPeersResponseValues) (now : Nat → Instant) :
    (self.values S values now).responders = self.responders := by
  cases values <;> rfl

/-- The target of a lookup is not changed by an iteration. -/
theorem round_target (self : Lookup) (tooFew : Nat → Bool) (request : Nat → Message) (nodes : List NodeWrapper) :
    (self.round S tooFew request nodes).target = self.target := by
  unfold Lookup.round
  extract_lets self nearest bestIdsCurrent
  split
  · rfl
  · split <;> rfl

/-- The responders are the answers, after every event. -/
theorem step_responders (s : GetPeersHistory) (e : LookupEvent) (h : s.state.responders = s.answers) :
    (s.step S readOnly e).state.responders = (s.step S readOnly e).answers := by
  cases e with
  | round nodes ourId rng =>
    simp only [step, GetPeers.step, answer, Option.toList_none, List.append_nil]
    split <;> exact h
  | reply i result now =>
    simp only [step, GetPeers.step]
    cases htodo : s.state.lookup.todos[i]? with
    | none => simpa [answer, htodo] using h
    | some todo =>
      cases result with
      | error e => simpa [GetPeers.handle, answer, token, htodo] using h
      | ok message =>
        obtain ⟨_, _, _, messageType, _⟩ := message
        rcases messageType with _ | (_ | _ | args | _) | _
        case response.getPeersResponse => simp [GetPeers.handle, answer, token, values_responders, htodo, h]
        all_goals simpa [GetPeers.handle, answer, token, htodo] using h

/-- No event changes the info hash that a run looks for. -/
theorem step_target (s : GetPeersHistory) (e : LookupEvent) :
    (s.step S readOnly e).state.lookup.target = s.state.lookup.target := by
  cases e with
  | round nodes ourId rng =>
    simp only [step, GetPeers.step]
    split
    · exact round_target _ _ _ _
    · rfl
  | reply i result now =>
    simp only [step, GetPeers.step]
    cases s.state.lookup.todos[i]? with
    | none => rfl
    | some todo =>
      cases result with
      | error e => rfl
      | ok message =>
        obtain ⟨_, _, _, messageType, _⟩ := message
        rcases messageType with _ | (_ | _ | ⟨_, _, _ | _⟩ | _) | _ <;> rfl

/-- After every run the responders are the answers, and the target is the info hash. -/
theorem run_state (S : UnstableSort) (readOnly : Bool) (infoHash : Id) (events : List LookupEvent) :
    (run S readOnly infoHash events).state.responders = (run S readOnly infoHash events).answers ∧
      (run S readOnly infoHash events).state.lookup.target = infoHash :=
  Machine.run_invariant (step S readOnly)
    (P := fun s => s.state.responders = s.answers ∧ s.state.lookup.target = infoHash)
    (fun s e h => ⟨step_responders s e h.1, (step_target s e).trans h.2⟩) events (new infoHash) ⟨rfl, rfl⟩

/-- The responders of the result are the answers in the order of the sort. -/
theorem result_responders (S S' : UnstableSort) (readOnly : Bool) (infoHash : Id) (events : List LookupEvent) :
    ((run S readOnly infoHash events).state.result S').responders =
      S'.sort (GetPeersResponder.cmpDistance infoHash) (run S readOnly infoHash events).answers := by
  obtain ⟨hresponders, htarget⟩ := run_state S readOnly infoHash events
  rw [GetPeers.result, GetPeersResult.new, hresponders, htarget]

end GetPeersHistory

/-! ## The send phase -/

namespace AnnouncePeer

variable {S : UnstableSort} {readOnly : Bool} {infoHash ourId : Id} {port : Option UInt16} {rng : Nat → UInt8 × UInt8}

/-- The distance of a responder. -/
def distance (infoHash : Id) (r : GetPeersResponder) : Nat := r.node.id.dist infoHash

/-- The comparator of the responders compares their distances. -/
theorem cmpDistance_eq (infoHash : Id) : GetPeersResponder.cmpDistance infoHash = compareOn (distance infoHash) := by
  funext a b
  simp only [GetPeersResponder.cmpDistance, Id.cmpUnwrap, Id.partialCmp_eq, Option.get_some, compareOn, distance, Id.dist]

/-- The requests go to the first eight responders. -/
theorem requests_nodes (responders : List GetPeersResponder) :
    (requests readOnly ourId infoHash port rng responders).map (·.node) = (responders.take 8).map (·.node) := by
  refine List.ext_getElem? (fun i => ?_)
  rw [requests, List.getElem?_map, List.getElem?_mapIdx, List.getElem?_map, Option.map_map]
  rfl

/-- What an announce_peer request asks for. -/
theorem announcePeerRequest_messageType (token : List UInt8) (r : UInt8 × UInt8) :
    (announcePeerRequest readOnly ourId infoHash port token r).messageType = .request (.announcePeerRequest {
      requesterId := ourId, infoHash, port := port.getD 0, impliedPort := some port.isNone, token }) := by
  cases port <;> rfl

/-- Nodes are announced to once for each request to them. -/
theorem run_nodup {reqs : List RequestTo} (h : (reqs.map (·.node)).Nodup)
    (completions : List (Nat × Except RustyDHTError Message)) : (run reqs completions).Nodup := by
  have hinv : ∀ (s : AnnouncePeer) e, (s.toRet ++ s.todos.map (·.node)).Nodup →
      ((s.step e).toRet ++ (s.step e).todos.map (·.node)).Nodup := by
    intro s e hs
    unfold step
    split
    · rename_i todo htodo
      obtain ⟨hi, rfl⟩ := List.getElem?_eq_some_iff.mp htodo
      have hperm := ((List.getElem_cons_eraseIdx_perm hi).map (·.node)).append_left s.toRet
      rw [← hperm.nodup_iff, List.map_cons] at hs
      split
      · simpa using hs
      · exact hs.sublist ((List.sublist_cons_self _ _).append_left _)
    · exact hs
  have hrun := Machine.run_invariant step (P := fun s => (s.toRet ++ s.todos.map (·.node)).Nodup) hinv completions
    { todos := reqs, toRet := [] } h
  exact hrun.of_append_left

/-! ## The nearest -/

/-- The requests go to distinct nodes, the eight nearest of the distinct nodes that answered; each has a token its node returned; and
whichever requests are answered, in whatever order, no node is returned twice. -/
structure AnnouncesNearest (infoHash : Id) (answers : List GetPeersResponder) (reqs : List RequestTo) : Prop where
  nodup : (reqs.map (·.node)).Nodup
  nearest : Nearest (fun node => node.id.dist infoHash) 8 (answers.map (·.node)).dedup (reqs.map (·.node))
  token : ∀ r ∈ reqs, ∃ args, r.req.messageType = .request (.announcePeerRequest args) ∧ args.infoHash = infoHash ∧
    { node := r.node, token := args.token } ∈ answers
  returned : ∀ completions, (run reqs completions).Nodup

/-- Every node that answered more than once is farther than seven of the answers. -/
def RepeatsFar (infoHash : Id) (answers : List GetPeersResponder) : Prop :=
  ∀ a ∈ answers, 1 < answers.countP (fun b => b.node = a.node) →
    7 ≤ answers.countP (fun b => distance infoHash b < distance infoHash a)

variable {answers near : List GetPeersResponder}

/-- Where repeated answers come from far nodes, the nearest eight are of distinct nodes. -/
theorem RepeatsFar.nodup (h : RepeatsFar infoHash answers) (hnear : Nearest (distance infoHash) 8 answers near) :
    (near.map (·.node)).Nodup := by
  refine List.nodup_iff_count_le_one.mpr (fun node => ?_)
  by_contra hlt
  have htwice : 1 < near.countP (fun b => b.node = node) := by
    have := not_le.mp hlt
    rwa [List.count, List.countP_map] at this
  obtain ⟨a, ha, hnode⟩ := List.countP_pos_iff.mp (lt_trans Nat.one_pos htwice)
  obtain rfl := of_decide_eq_true hnode
  obtain ⟨rest, hperm, -⟩ := hnear.rest
  have hmore := h a (hnear.subset a ha) (by
    rw [← hperm.countP_eq, List.countP_append]
    omega)
  -- Seven of the eight are nearer, so there is room for one answer of the node.
  have hnearer := hnear.countP_of_lower (p := fun b => distance infoHash b < distance infoHash a) (fun x y hxy hy => by
    rw [decide_eq_true_eq] at hy ⊢
    exact lt_of_le_of_lt hxy hy)
  have hdisjoint : near.countP (fun b => b.node = a.node) ≤
      near.countP (fun b => ¬distance infoHash b < distance infoHash a) := by
    refine List.countP_mono_left (fun b _ hb => ?_)
    rw [decide_eq_true_eq] at hb ⊢
    rw [distance, distance, hb]
    exact lt_irrefl _
  have hsplit := List.length_eq_countP_add_countP (fun b => decide (distance infoHash b < distance infoHash a)) (l := near)
  have hlen := hnear.length
  simp only [decide_eq_true_eq, decide_not] at hsplit hdisjoint
  omega

/-- A key by which the answers of one node come before the others of the same distance. -/
def promote (infoHash : Id) (node : Node) (r : GetPeersResponder) : Nat :=
  2 * distance infoHash r + if r.node = node then 0 else 1

/-- Up to the key of its answers come the nearer answers and those of the node. -/
theorem countP_promote (infoHash : Id) (a : GetPeersResponder) (l : List GetPeersResponder) :
    l.countP (fun b => promote infoHash a.node b ≤ promote infoHash a.node a) =
      l.countP (fun b => distance infoHash b < distance infoHash a) + l.countP (fun b => b.node = a.node) := by
  induction l with
  | nil => rfl
  | cons b l ih =>
    rw [List.countP_cons, List.countP_cons, List.countP_cons, ih]
    by_cases hb : b.node = a.node
    · have hdist : distance infoHash b = distance infoHash a := by rw [distance, distance, hb]
      simp only [promote, hb, hdist, if_true, le_refl, lt_irrefl, decide_true, decide_false, Bool.false_eq_true, if_false]
      omega
    · have hkey : promote infoHash a.node b ≤ promote infoHash a.node a ↔ distance infoHash b < distance infoHash a := by
        rw [promote, promote, if_neg hb, if_pos rfl]
        omega
      simp only [hkey, hb, decide_false, Bool.false_eq_true, if_false]
      omega

/-- A node near enough that answered twice takes two of the first eight places in some order that a sort may give. -/
theorem exists_not_nodup {a : GetPeersResponder} (htwice : 1 < answers.countP (fun b => b.node = a.node))
    (hfew : answers.countP (fun b => distance infoHash b < distance infoHash a) < 7) :
    ∃ S : UnstableSort, ¬(((S.sort (GetPeersResponder.cmpDistance infoHash) answers).take 8).map (·.node)).Nodup := by
  have hperm := UnstableSort.insertion.sortByKey_perm (promote infoHash a.node) answers
  obtain ⟨S, hS⟩ := UnstableSort.exists_sort_eq (GetPeersResponder.cmpDistance infoHash) hperm.symm (by
    refine (UnstableSort.insertion.sortByKey_sorted (promote infoHash a.node) answers).imp (fun {x y} hxy => ?_)
    rw [cmpDistance_eq, UnstableSort.compareOn_isLE]
    simp only [promote] at hxy
    split at hxy <;> split at hxy <;> omega)
  refine ⟨S, fun hnodup => ?_⟩
  rw [hS] at hnodup
  have hnear := Nearest.of_sort UnstableSort.insertion (promote infoHash a.node) 8 answers
  have hcount := hnear.countP_of_lower (p := fun b => promote infoHash a.node b ≤ promote infoHash a.node a) (fun x y hxy hy => by
    rw [decide_eq_true_eq] at hy ⊢
    exact le_trans hxy hy)
  rw [countP_promote, countP_promote] at hcount
  generalize (UnstableSort.insertion.sortByKey (promote infoHash a.node) answers).take 8 = near at hnear hcount hnodup
  have hnearer : near.countP (fun b => distance infoHash b < distance infoHash a) ≤
      answers.countP (fun b => distance infoHash b < distance infoHash a) := by
    obtain ⟨rest, hp, -⟩ := hnear.rest
    rw [← hp.countP_eq, List.countP_append]
    exact Nat.le_add_right _ _
  have honce := List.nodup_iff_count_le_one.mp hnodup a.node
  rw [List.count, List.countP_map] at honce
  have honce' : near.countP (fun b => b.node = a.node) ≤ 1 := honce
  omega

/-- When the first eight responders are distinct nodes, they are announced to as they should be. -/
theorem announcesNearest_of_nodup {responders : List GetPeersResponder}
    (hnear : Nearest (distance infoHash) 8 answers (responders.take 8)) (hnodup : ((responders.take 8).map (·.node)).Nodup) :
    AnnouncesNearest infoHash answers (requests readOnly ourId infoHash port rng responders) where
  nodup := by
    rw [requests_nodes]
    exact hnodup
  nearest := by
    rw [requests_nodes]
    have hmap : Nearest (fun r : GetPeersResponder => r.node.id.dist infoHash) 8 answers (responders.take 8) := hnear
    exact (Nearest.map (f := fun node : Node => node.id.dist infoHash) hmap).dedup hnodup
  token r hr := by
    obtain ⟨i, hi⟩ := List.mem_iff_getElem?.mp hr
    rw [requests, List.getElem?_mapIdx, Option.map_eq_some_iff] at hi
    obtain ⟨a, ha, rfl⟩ := hi
    exact ⟨_, announcePeerRequest_messageType a.token (rng i), rfl, hnear.subset a (List.mem_of_getElem? ha)⟩
  returned := run_nodup (by rw [requests_nodes]; exact hnodup)

end AnnouncePeer

/-- Whatever order a sort gives to answers of the same distance, the announcements of a run of `get_peers` go to the nearest of the
distinct nodes that answered, and return none twice, exactly when every node that answered more than once is farther than seven of
the answers. -/
theorem GetPeersHistory.run_announcesNearest_iff (S : UnstableSort) (readOnly : Bool) (infoHash ourId : Id)
    (port : Option UInt16) (rng : Nat → UInt8 × UInt8) (events : List LookupEvent) :
    let history := run S readOnly infoHash events
    (∀ S' : UnstableSort, AnnouncePeer.AnnouncesNearest infoHash history.answers
        (AnnouncePeer.requests readOnly ourId infoHash port rng (history.state.result S').responders)) ↔
      AnnouncePeer.RepeatsFar infoHash history.answers := by
  intro history
  constructor
  · intro hall a ha htwice
    by_contra hfew
    obtain ⟨S', hS'⟩ := AnnouncePeer.exists_not_nodup htwice (not_le.mp hfew)
    have hnodup := (hall S').nodup
    rw [AnnouncePeer.requests_nodes, result_responders] at hnodup
    exact hS' hnodup
  · intro hfar S'
    have hnear := Nearest.of_sort S' (AnnouncePeer.distance infoHash) 8 history.answers
    rw [result_responders, AnnouncePeer.cmpDistance_eq]
    exact AnnouncePeer.announcesNearest_of_nodup hnear (hfar.nodup hnear)

namespace GetPeersHistory

/-- A node of the main buckets whose id starts with a byte. -/
def sampleNode (b : UInt8) : NodeWrapper := NodeWrapper.new ⟨Id.startingWith b, .v4 ⟨10, 0, 0, b⟩ 6881⟩ 0

/-- A get_peers response without peers. -/
def sampleResponse : LookupEvent :=
  .reply 0 (.ok {
    transactionId := [0, 0], version := none, requesterIp := none, readOnly := none
    messageType := .response (.getPeersResponse { responderId := Id.zero, token := [7], values := .peers [] }) }) (fun _ => 0)

/-- Six nodes answer in the first round; a seventh appears, so they are asked again, and the nearest one answers again. -/
def sampleEvents : List LookupEvent :=
  .round ([1, 2, 3, 4, 5, 6].map sampleNode) Id.zero (fun _ => (0, 0)) :: List.replicate 6 sampleResponse ++
    [.round [sampleNode 7] Id.zero (fun _ => (0, 0)), sampleResponse]

/-- In this run there are seven requests to the six nodes that answered, two of them to the nearest. -/
theorem not_announcesNearest_second_round :
    ¬AnnouncePeer.AnnouncesNearest Id.zero (run UnstableSort.insertion false Id.zero sampleEvents).answers
      (AnnouncePeer.requests false Id.zero Id.zero none (fun _ => (0, 0))
        ((run UnstableSort.insertion false Id.zero sampleEvents).state.result UnstableSort.insertion).responders) := by
  intro h
  have hnodup := h.nodup
  revert hnodup
  decide +kernel

end GetPeersHistory

end RustyDht
