import RustyDht.Lemmas.Operations

/-!
# The result of find_node

Whatever the rounds and the replies, `find_node` returns the shortlist of the candidates it was offered, around its target. A bucket
table does not store the id it is around, so the target itself is never found.
-/

namespace RustyDht

/-- A run of `find_node` with the candidates offered in it: the nodes that `dht.get_nodes()` returned and those that the find_node
responses listed. -/
structure FindNodeHistory where
  lookup : Lookup
  offered : List NodeWrapper

namespace FindNodeHistory

/-- A run before its first event. -/
def new (target : Id) : FindNodeHistory := { lookup := Lookup.new target, offered := [] }

/-- The candidates of a finished request. -/
def listed (result : Except RustyDHTError Message) (now : Nat → Instant) : List NodeWrapper :=
  match result with
  | .ok { messageType := .response (.findNodeResponse args), .. } => args.nodes.mapIdx (fun i node => NodeWrapper.new node (now i))
  | _ => []

/-- The candidates of an event: an iteration that begins and a request that finishes have some, an event that cannot happen has
none. -/
def offers (self : Lookup) : LookupEvent → List NodeWrapper
  | .round nodes _ _ => if self.ready then nodes else []
  | .reply i result now => if i < self.todos.length then listed result now else []

/-- The run after an event. -/
def step (S : UnstableSort) (readOnly : Bool) (s : FindNodeHistory) (e : LookupEvent) : FindNodeHistory where
  lookup := FindNode.step S readOnly s.lookup e
  offered := s.offered ++ offers s.lookup e

/-- The run with the events of a list. -/
def run (S : UnstableSort) (readOnly : Bool) (target : Id) (events : List LookupEvent) : FindNodeHistory :=
  Machine.run (step S readOnly) (new target) events

variable {S : UnstableSort} {readOnly : Bool} {target : Id}

/-- A finished request offers the nodes listed in its response. -/
theorem handle_has {self : Lookup} {offered : List NodeWrapper} (h : self.Has S target offered)
    (result : Except RustyDHTError Message) (now : Nat → Instant) :
    (FindNode.handle S self result now).Has S target (offered ++ listed result now) := by
  cases result with
  | error e => simpa [FindNode.handle, listed] using h
  | ok message =>
    obtain ⟨_, _, _, messageType, _⟩ := message
    rcases messageType with _ | (_ | args | _ | _) | _
    case response.findNodeResponse => exact h.candidates args.nodes now
    all_goals simpa [FindNode.handle, listed] using h

/-- Every event keeps the lookup's buckets what is left of the candidates offered. -/
theorem step_has (s : FindNodeHistory) (e : LookupEvent) (h : s.lookup.Has S target s.offered) :
    (s.step S readOnly e).lookup.Has S target (s.step S readOnly e).offered := by
  cases e with
  | round nodes ourId rng =>
    simp only [step, FindNode.step, offers]
    split
    · exact h.round _ _ nodes
    · rw [List.append_nil]
      exact h
  | reply i result now =>
    simp only [step, FindNode.step, offers]
    by_cases hi : i < s.lookup.todos.length
    · rw [List.getElem?_eq_getElem hi, if_pos hi]
      exact handle_has (h.finish i) result now
    · rw [List.getElem?_eq_none (Nat.not_lt.mp hi), if_neg hi, List.append_nil]
      exact h

/-- The lookup of a run is that of the loop. -/
theorem run_lookup (S : UnstableSort) (readOnly : Bool) (target : Id) (events : List LookupEvent) :
    (run S readOnly target events).lookup = Machine.run (FindNode.step S readOnly) (Lookup.new target) events :=
  Machine.run_map (step S readOnly) lookup (fun _ _ => rfl) events (new target)

/-- `find_node` returns the shortlist of the candidates offered in its run. -/
theorem findNode_eq (S : UnstableSort) (readOnly : Bool) (target : Id) (events : List LookupEvent) :
    findNode S readOnly target events = (shortlist S target 8 (run S readOnly target events).offered).map (·.node) := by
  have h : (run S readOnly target events).lookup.Has S target (run S readOnly target events).offered :=
    Machine.run_invariant (step S readOnly) (P := fun s => s.lookup.Has S target s.offered) (fun s e => step_has s e) events _
      (Lookup.new_has S target)
  rw [findNode, ← run_lookup, h.nearest]

/-- The node looked for, if the run was offered it, is the first one returned. -/
def FindsTarget (S : UnstableSort) (readOnly : Bool) (target : Id) (events : List LookupEvent) : Prop :=
  ∀ nw ∈ (run S readOnly target events).offered, nw.node.id = target →
    (findNode S readOnly target events).head? = some nw.node

instance (S : UnstableSort) (readOnly : Bool) (target : Id) (events : List LookupEvent) :
    Decidable (FindsTarget S readOnly target events) := inferInstanceAs (Decidable (∀ nw ∈ _, _ → _))

/-- In every run `find_node` finds the node it looks for exactly when no `dht.get_nodes()` and no response had it. -/
theorem run_findsTarget_iff (S : UnstableSort) (readOnly : Bool) (target : Id) (events : List LookupEvent) :
    FindsTarget S readOnly target events ↔ ∀ nw ∈ (run S readOnly target events).offered, nw.node.id ≠ target := by
  refine ⟨fun h nw hnw hid => ?_, fun h nw hnw hid => absurd hid (h nw hnw)⟩
  have hmem := List.mem_of_mem_head? (Option.mem_def.mpr (h nw hnw hid))
  rw [findNode_eq] at hmem
  obtain ⟨found, hfound, he⟩ := List.mem_map.mp hmem
  exact ne_target_of_mem_shortlist hfound (he ▸ hid)

/-- The main buckets have one node, which lists the node looked for in its response. -/
theorem not_findsTarget_listed : ¬FindsTarget UnstableSort.insertion false (Id.startingWith 1)
    [.round [NodeWrapper.new ⟨Id.startingWith 2, .v4 ⟨1, 2, 3, 4⟩ 6881⟩ 0] Id.zero (fun _ => (0, 0)),
      .reply 0 (.ok {
        transactionId := [0, 0], version := none, requesterIp := none, readOnly := none
        messageType := .response (.findNodeResponse {
          responderId := Id.startingWith 2
          nodes := [⟨Id.startingWith 1, .v4 ⟨5, 6, 7, 8⟩ 6881⟩] }) }) (fun _ => 10)] := by
  decide

end FindNodeHistory

end RustyDht
