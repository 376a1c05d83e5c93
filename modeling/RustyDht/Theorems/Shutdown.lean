import RustyDht.Shutdown
import Mathlib.Data.List.Nodup

/-!
# A shutdown waits for everybody

`ShutdownSender::shutdown` returns only when nobody holds a receiver, and from then on nobody ever will. And it does return: once it has
been called, every task that is polled ends, whatever its future does, so that all have stopped when each task has been polled and each
receiver outside of tasks dropped, in whatever order and whoever clones and spawns in between. What it takes is what the documentation of
`watch` asks for: no task is given a receiver whose wait is over.
-/

namespace RustyDht

namespace Shutdown

variable {s : Shutdown} {e : ShutdownEvent}

/-- Who holds a receiver: whoever a receiver belongs to, or a task that watches one. -/
inductive Holder where
  | receiver (id : Nat)
  | task (id : Nat)
  deriving DecidableEq

/-- The number of a holder. -/
def Holder.id : Holder → Nat
  | .receiver id => id
  | .task id => id

/-- Those who hold a receiver. -/
def holders (s : Shutdown) : List Holder := s.receivers.map (fun r => .receiver r.id) ++ s.tasks.map (fun task => .task task.id)

/-- Who an event adds. -/
def created (s : Shutdown) : ShutdownEvent → List Holder
  | .clone id owner => if (s.receiver id).isSome && s.hasOwner owner then [.receiver s.nextId] else []
  | .spawn id => if (s.receiver id).isSome then [.task s.nextId] else []
  | _ => []

/-- Whom an event makes stop: a receiver that is dropped or handed to a task, and a task that is polled, with the receivers that its
future holds. -/
def stops (s : Shutdown) : ShutdownEvent → List Holder
  | .drop id => [.receiver id]
  | .spawn id => [.receiver id]
  | .poll id _ =>
    if s.hasOwner (some id) then .task id :: (s.receivers.filter (fun r => r.owner == some id)).map (fun r => .receiver r.id) else []
  | _ => []

/-- Whom an event makes stop of those who are there. -/
def released (s : Shutdown) (e : ShutdownEvent) : List Holder := (s.stops e).filter (· ∈ s.holders)

/-- No task is given a receiver whose wait is over. -/
def Obeys (s : Shutdown) : ShutdownEvent → Prop
  | .spawn id => ∀ r, s.receiver id = some r → r.seen = 0
  | _ => True

theorem mem_holders_receiver {id : Nat} : Holder.receiver id ∈ s.holders ↔ ∃ r ∈ s.receivers, r.id = id := by
  simp [holders]

theorem mem_holders_task {id : Nat} : Holder.task id ∈ s.holders ↔ ∃ task ∈ s.tasks, task.id = id := by
  simp [holders]

theorem allStopped_iff : s.allStopped = true ↔ s.holders = [] := by
  simp [allStopped, holders]

/-! ## What always holds -/

/-- The numbers are taken in order, one for each receiver; a shutdown that has returned found that all have stopped; and a signal that was seen was sent. -/
structure Wf (s : Shutdown) : Prop where
  lt : ∀ h ∈ s.holders, h.id < s.nextId
  nodup : (s.receivers.map (·.id)).Nodup
  stopped : s.returned = true → s.holders = []
  signalled : s.version ≠ 0 → s.signalled = true

theorem createShutdown_wf : createShutdown.Wf where
  lt := by simp [holders, createShutdown, Holder.id]
  nodup := List.nodup_singleton 0
  stopped := by simp [createShutdown]
  signalled := by simp [createShutdown]

/-- Where all have stopped nobody is added. -/
theorem created_of_stopped (h : s.holders = []) (e : ShutdownEvent) : s.created e = [] := by
  have hnone : ∀ id, s.receiver id = none := by
    intro id
    simp [holders] at h
    simp [receiver, h.1]
  cases e <;> simp [created, hnone]

/-- The receivers after an event, up to what changes of a receiver. -/
theorem mem_receivers_step {r : ShutdownReceiver} (hr : r ∈ (s.step e).receivers) :
    (∃ r' ∈ s.receivers, r'.id = r.id) ∨ ∃ id owner r', e = .clone id owner ∧ s.receiver id = some r' ∧ s.hasOwner owner = true ∧ r.id = s.nextId := by
  cases e with
  | clone id owner =>
    unfold step at hr
    dsimp only at hr
    cases hfound : s.receiver id with
    | none =>
      rw [hfound] at hr
      exact .inl ⟨r, hr, rfl⟩
    | some r' =>
      rw [hfound] at hr
      dsimp only at hr
      split at hr
      · rename_i howner
        rcases List.mem_append.mp hr with hr | hr
        · exact .inl ⟨r, hr, rfl⟩
        · obtain rfl := List.mem_singleton.mp hr
          exact .inr ⟨id, owner, r', rfl, hfound, howner, rfl⟩
      · exact .inl ⟨r, hr, rfl⟩
  | give id owner =>
    unfold step at hr
    dsimp only at hr
    split at hr
    · obtain ⟨r', hr', rfl⟩ := List.mem_map.mp hr
      refine .inl ⟨r', hr', ?_⟩
      split <;> rfl
    · exact .inl ⟨r, hr, rfl⟩
  | drop id => exact .inl ⟨r, (List.mem_filter.mp hr).1, rfl⟩
  | watch id =>
    obtain ⟨r', hr', rfl⟩ := List.mem_map.mp hr
    refine .inl ⟨r', hr', ?_⟩
    split <;> rfl
  | spawn id =>
    unfold step at hr
    dsimp only at hr
    split at hr
    · exact .inl ⟨r, (List.mem_filter.mp hr).1, rfl⟩
    · exact .inl ⟨r, hr, rfl⟩
  | poll id done =>
    unfold step at hr
    dsimp only at hr
    split at hr
    · split at hr
      · exact .inl ⟨r, (List.mem_filter.mp hr).1, rfl⟩
      · exact .inl ⟨r, hr, rfl⟩
    · exact .inl ⟨r, hr, rfl⟩
  | shutdown =>
    unfold step at hr
    dsimp only at hr
    split at hr <;> exact .inl ⟨r, hr, rfl⟩
  | confirm =>
    unfold step at hr
    dsimp only at hr
    split at hr <;> exact .inl ⟨r, hr, rfl⟩
  | dropSender => exact .inl ⟨r, hr, rfl⟩

/-- The tasks after an event. -/
theorem mem_tasks_step {task : ShutdownTask} (htask : task ∈ (s.step e).tasks) :
    task ∈ s.tasks ∨ ∃ id r, e = .spawn id ∧ s.receiver id = some r ∧ task = { id := s.nextId, seen := r.seen } := by
  cases e with
  | spawn id =>
    unfold step at htask
    dsimp only at htask
    cases hfound : s.receiver id with
    | none =>
      rw [hfound] at htask
      exact .inl htask
    | some r =>
      rw [hfound] at htask
      rcases List.mem_append.mp htask with htask | htask
      · exact .inl htask
      · exact .inr ⟨id, r, rfl, hfound, List.mem_singleton.mp htask⟩
  | poll id done =>
    unfold step at htask
    dsimp only at htask
    split at htask
    · split at htask
      · exact .inl (List.mem_filter.mp htask).1
      · exact .inl htask
    · exact .inl htask
  | clone id owner =>
    unfold step at htask
    dsimp only at htask
    split at htask
    · split at htask <;> exact .inl htask
    · exact .inl htask
  | give id owner =>
    unfold step at htask
    dsimp only at htask
    split at htask <;> exact .inl htask
  | shutdown =>
    unfold step at htask
    dsimp only at htask
    split at htask <;> exact .inl htask
  | confirm =>
    unfold step at htask
    dsimp only at htask
    split at htask <;> exact .inl htask
  | _ => exact .inl htask

/-- Who holds a receiver after an event held one before, or was added. -/
theorem mem_holders_step {h : Holder} (hh : h ∈ (s.step e).holders) : h ∈ s.holders ∨ h ∈ s.created e := by
  cases h with
  | receiver id =>
    obtain ⟨r, hr, rfl⟩ := mem_holders_receiver.mp hh
    rcases mem_receivers_step hr with ⟨r', hr', hid⟩ | ⟨id, owner, r', rfl, hfound, howner, hid⟩
    · exact .inl (mem_holders_receiver.mpr ⟨r', hr', hid⟩)
    · exact .inr (by simp [created, hfound, howner, hid])
  | task id =>
    obtain ⟨task, htask, rfl⟩ := mem_holders_task.mp hh
    rcases mem_tasks_step htask with hold | ⟨id, r, rfl, hfound, rfl⟩
    · exact .inl (mem_holders_task.mpr ⟨task, hold, rfl⟩)
    · exact .inr (by simp [created, hfound])

/-- Each holder that is added takes the next number. -/
theorem step_nextId (s : Shutdown) (e : ShutdownEvent) : (s.step e).nextId = s.nextId + (s.created e).length := by
  cases e with
  | clone id owner =>
    unfold step created
    dsimp only
    cases s.receiver id with
    | none => rfl
    | some r => cases s.hasOwner owner <;> rfl
  | spawn id =>
    unfold step created
    dsimp only
    cases s.receiver id <;> rfl
  | give id owner =>
    unfold step
    dsimp only
    split <;> rfl
  | poll id done =>
    unfold step
    dsimp only
    split
    · split <;> rfl
    · rfl
  | shutdown =>
    unfold step
    dsimp only
    split <;> rfl
  | confirm =>
    unfold step
    dsimp only
    split <;> rfl
  | _ => rfl

theorem id_of_mem_created {h : Holder} (hh : h ∈ s.created e) : h.id = s.nextId := by
  cases e with
  | clone id owner =>
    simp [created] at hh
    rw [hh.2]
    rfl
  | spawn id =>
    simp [created] at hh
    rw [hh.2]
    rfl
  | _ => cases hh

/-- Every event leaves each receiver its own number. -/
theorem Wf.step_nodup (h : s.Wf) (e : ShutdownEvent) : ((s.step e).receivers.map (·.id)).Nodup := by
  have hfilter : ∀ p, ((s.receivers.filter p).map (·.id)).Nodup := fun p => h.nodup.sublist (List.filter_sublist.map _)
  have hmap : ∀ f : ShutdownReceiver → ShutdownReceiver, (∀ r, (f r).id = r.id) → ((s.receivers.map f).map (·.id)).Nodup := by
    intro f hf
    rw [List.map_map]
    simpa [Function.comp_def, hf] using h.nodup
  cases e with
  | clone id owner =>
    unfold Shutdown.step
    dsimp only
    split
    · split
      · rw [List.map_append]
        refine List.nodup_append.mpr ⟨h.nodup, List.nodup_singleton _, fun i hi j hj => ?_⟩
        obtain ⟨r, hr, rfl⟩ := List.mem_map.mp hi
        rw [List.mem_singleton.mp hj]
        exact Nat.ne_of_lt (h.lt (.receiver r.id) (mem_holders_receiver.mpr ⟨r, hr, rfl⟩))
      · exact h.nodup
    · exact h.nodup
  | give id owner =>
    unfold Shutdown.step
    dsimp only
    split
    · exact hmap _ (fun r => by split <;> rfl)
    · exact h.nodup
  | drop id => exact hfilter _
  | watch id => exact hmap _ (fun r => by split <;> rfl)
  | spawn id =>
    unfold Shutdown.step
    dsimp only
    split
    · exact hfilter _
    · exact h.nodup
  | poll id done =>
    unfold Shutdown.step
    dsimp only
    split
    · split
      · exact hfilter _
      · exact h.nodup
    · exact h.nodup
  | shutdown =>
    unfold Shutdown.step
    dsimp only
    split <;> exact h.nodup
  | confirm =>
    unfold Shutdown.step
    dsimp only
    split <;> exact h.nodup
  | dropSender => exact h.nodup

/-- Where all have stopped they still have after every event. -/
theorem holders_step_of_stopped (h : s.holders = []) (e : ShutdownEvent) : (s.step e).holders = [] := by
  refine List.eq_nil_iff_forall_not_mem.mpr (fun holder hh => ?_)
  rcases mem_holders_step hh with hh | hh
  · simp [h] at hh
  · simp [created_of_stopped h] at hh

/-- Only the sender sends the signal, and only a shutdown that is polled returns. -/
theorem step_other (hshutdown : e ≠ .shutdown) (hconfirm : e ≠ .confirm) :
    (s.step e).version = s.version ∧ (s.step e).signalled = s.signalled ∧ (s.step e).returned = s.returned := by
  cases e with
  | shutdown => exact absurd rfl hshutdown
  | confirm => exact absurd rfl hconfirm
  | clone id owner =>
    unfold step
    dsimp only
    split
    · split <;> exact ⟨rfl, rfl, rfl⟩
    · exact ⟨rfl, rfl, rfl⟩
  | give id owner =>
    unfold step
    dsimp only
    split <;> exact ⟨rfl, rfl, rfl⟩
  | spawn id =>
    unfold step
    dsimp only
    split <;> exact ⟨rfl, rfl, rfl⟩
  | poll id done =>
    unfold step
    dsimp only
    split
    · split <;> exact ⟨rfl, rfl, rfl⟩
    · exact ⟨rfl, rfl, rfl⟩
  | _ => exact ⟨rfl, rfl, rfl⟩

/-- A shutdown returns where all have stopped, and nowhere else. -/
theorem returned_step (s : Shutdown) (e : ShutdownEvent) (h : (s.step e).returned = true) : s.returned = true ∨ s.holders = [] := by
  by_cases hshutdown : e = .shutdown
  · subst hshutdown
    unfold step at h
    dsimp only at h
    split at h <;> exact .inl h
  by_cases hconfirm : e = .confirm
  · subst hconfirm
    unfold step at h
    dsimp only at h
    split at h
    · rename_i hstopped
      exact .inr (allStopped_iff.mp (Bool.and_eq_true_iff.mp hstopped).2)
    · exact .inl h
  · exact .inl ((step_other hshutdown hconfirm).2.2 ▸ h)

/-- The version never goes back, and where it goes up the signal is sent. -/
theorem version_step (s : Shutdown) (e : ShutdownEvent) :
    s.version ≤ (s.step e).version ∧ (s.signalled = true ∨ (s.step e).version ≠ s.version → (s.step e).signalled = true) := by
  by_cases hshutdown : e = .shutdown
  · subst hshutdown
    unfold step
    dsimp only
    split
    · refine ⟨?_, fun _ => rfl⟩
      split
      · exact Nat.le_refl _
      · exact Nat.le_succ _
    · exact ⟨Nat.le_refl _, by simp⟩
  by_cases hconfirm : e = .confirm
  · subst hconfirm
    unfold step
    dsimp only
    split <;> exact ⟨Nat.le_refl _, by simp⟩
  · obtain ⟨hversion, hsignalled, -⟩ := step_other (s := s) hshutdown hconfirm
    simp [hversion, hsignalled]

theorem Wf.step (h : s.Wf) (e : ShutdownEvent) : (s.step e).Wf where
  lt holder hh := by
    rw [step_nextId]
    rcases mem_holders_step hh with hold | hnew
    · exact Nat.lt_add_right _ (h.lt holder hold)
    · rw [id_of_mem_created hnew]
      exact Nat.lt_add_of_pos_right (List.length_pos_of_mem hnew)
  nodup := h.step_nodup e
  stopped hreturned := by
    rcases returned_step s e hreturned with hbefore | hstopped
    · exact holders_step_of_stopped (h.stopped hbefore) e
    · exact holders_step_of_stopped hstopped e
  signalled hversion := by
    by_cases hsame : (s.step e).version = s.version
    · exact (version_step s e).2 (.inl (h.signalled (hsame ▸ hversion)))
    · exact (version_step s e).2 (.inr hsame)

/-- Once the signal is sent, whoever an event makes stop has stopped, if no task has seen the signal. -/
theorem Wf.not_mem_released (h : s.Wf) (hunseen : ∀ task ∈ s.tasks, task.seen = 0) (hversion : s.version ≠ 0) {holder : Holder}
    (hh : holder ∈ (s.step e).holders) : holder ∉ s.released e := by
  intro hreleased
  obtain ⟨hstops, hthere⟩ := List.mem_filter.mp hreleased
  have hthere : holder ∈ s.holders := of_decide_eq_true hthere
  cases e with
  | drop id =>
    obtain rfl := List.mem_singleton.mp hstops
    obtain ⟨r, hr, hid⟩ := mem_holders_receiver.mp hh
    simp [Shutdown.step, dropReceiver, hid] at hr
  | spawn id =>
    obtain rfl := List.mem_singleton.mp hstops
    obtain ⟨r, hr, hid⟩ := mem_holders_receiver.mp hh
    unfold Shutdown.step at hr
    dsimp only at hr
    split at hr
    · simp [dropReceiver, hid] at hr
    · rename_i hnone
      have hno := List.find?_eq_none.mp hnone r hr
      simp [hid] at hno
  | poll id done =>
    unfold stops at hstops
    dsimp only at hstops
    split at hstops
    · rename_i howner
      obtain ⟨task, htask, hid⟩ := List.any_eq_true.mp howner
      have hsome : (s.tasks.find? (fun task => task.id == id)).isSome = true := List.find?_isSome.mpr ⟨task, htask, hid⟩
      obtain ⟨found, hfound⟩ := Option.isSome_iff_exists.mp hsome
      have hends : s.step (.poll id done) = s.endTask id := by
        unfold Shutdown.step
        simp [hfound, watchReturns, hunseen found (List.mem_of_find?_eq_some hfound), Ne.symm hversion]
      rw [hends] at hh
      rcases List.mem_cons.mp hstops with rfl | hstops
      · obtain ⟨task, htask, hid⟩ := mem_holders_task.mp hh
        simp [endTask, hid] at htask
      · obtain ⟨r, hr, rfl⟩ := List.mem_map.mp hstops
        obtain ⟨r', hr', hsame⟩ := mem_holders_receiver.mp hh
        obtain ⟨hr, howned⟩ := List.mem_filter.mp hr
        obtain ⟨hr', hkept⟩ := List.mem_filter.mp hr'
        obtain rfl := List.inj_on_of_nodup_map h.nodup hr' hr hsame
        simp_all
    · cases hstops
  | _ => cases hstops

/-! ## Every run -/

/-- The signal is sent, and no task has seen it. -/
structure Stopping (s : Shutdown) : Prop where
  wf : s.Wf
  unseen : ∀ task ∈ s.tasks, task.seen = 0
  version : s.version ≠ 0

/-- No task sees the signal before it is polled. -/
theorem unseen_step (h : ∀ task ∈ s.tasks, task.seen = 0) (hobeys : s.Obeys e) : ∀ task ∈ (s.step e).tasks, task.seen = 0 := by
  intro task htask
  rcases mem_tasks_step htask with hold | ⟨id, r, rfl, hfound, rfl⟩
  · exact h task hold
  · exact hobeys r hfound

theorem Stopping.step (h : s.Stopping) (hobeys : s.Obeys e) : (s.step e).Stopping where
  wf := h.wf.step e
  unseen := unseen_step h.unseen hobeys
  version := by
    have hle := (version_step s e).1
    have hversion := h.version
    omega

/-- Who is added later takes a later number. -/
theorem nextId_le_of_mem_created (es : List ShutdownEvent) : ∀ s : Shutdown, ∀ h ∈ Machine.outputs Shutdown.step created s es, s.nextId ≤ h.id := by
  induction es with
  | nil => exact fun s h hh => by simp at hh
  | cons e es ih =>
    intro s h hh
    rcases List.mem_append.mp hh with hh | hh
    · exact Nat.le_of_eq (id_of_mem_created hh).symm
    · have hle := ih _ h hh
      rw [step_nextId] at hle
      omega

/-- Who holds a receiver after a run held one before or was added in it, and was not made to stop. -/
theorem Stopping.mem_holders_run (h : s.Stopping) (es : List ShutdownEvent) (hobeys : Machine.StepsOk Shutdown.step Obeys s es)
    {holder : Holder} (hh : holder ∈ (Machine.run Shutdown.step s es).holders) :
    (holder ∈ s.holders ∨ holder ∈ Machine.outputs Shutdown.step created s es) ∧
      holder ∉ Machine.outputs Shutdown.step released s es := by
  induction es generalizing s with
  | nil => exact ⟨.inl hh, by simp⟩
  | cons e es ih =>
    obtain ⟨hsource, hlater⟩ := ih (h.step hobeys.1) hobeys.2 hh
    simp only [Machine.outputs_cons, List.mem_append, not_or]
    refine ⟨?_, ?_, hlater⟩
    · rcases hsource with hsource | hsource
      · rcases mem_holders_step hsource with hold | hnew
        · exact .inl hold
        · exact .inr (.inl hnew)
      · exact .inr (.inr hsource)
    · rcases hsource with hsource | hsource
      · exact h.wf.not_mem_released h.unseen h.version hsource
      · intro hreleased
        have hlt := h.wf.lt holder (of_decide_eq_true (List.mem_filter.mp hreleased).2)
        have hle := nextId_le_of_mem_created es _ holder hsource
        rw [step_nextId] at hle
        omega

/-- In every run: where a shutdown has returned, nobody holds a receiver, and nobody ever will. And from the signal on, if everybody who
holds a receiver then or later is made to stop at some time (each task by being polled, whatever its future does), a shutdown that is
polled returns. -/
theorem run_shutdown (before after : List ShutdownEvent) :
    ((Machine.run step createShutdown before).returned = true → (Machine.run step createShutdown (before ++ after)).holders = []) ∧
      ((Machine.run step createShutdown before).version ≠ 0 → Machine.StepsOk step Obeys createShutdown (before ++ after) →
        (∀ h, h ∈ (Machine.run step createShutdown before).holders ∨
            h ∈ Machine.outputs step created (Machine.run step createShutdown before) after →
          h ∈ Machine.outputs step released (Machine.run step createShutdown before) after) →
        (Machine.run step createShutdown (before ++ after ++ [.confirm])).returned = true) := by
  have hwf : ∀ es, (Machine.run step createShutdown es).Wf :=
    fun es => Machine.run_invariant step (P := Wf) (fun _ e h => h.step e) es _ createShutdown_wf
  refine ⟨fun hreturned => ?_, fun hversion hobeys hall => ?_⟩
  · rw [Machine.run_append]
    exact Machine.run_invariant step (P := fun s => s.holders = []) (fun _ e h => holders_step_of_stopped h e) after _
      ((hwf before).stopped hreturned)
  · obtain ⟨hbefore, hafter⟩ := (Machine.stepsOk_append_iff step before after createShutdown).mp hobeys
    have hunseen := Machine.run_invariant_of_stepsOk step (P := fun s => ∀ task ∈ s.tasks, task.seen = 0)
      (fun _ _ h hobeys => unseen_step h hobeys) before createShutdown (by simp [createShutdown]) hbefore
    have hstopping : Stopping (Machine.run step createShutdown before) := ⟨hwf before, hunseen, hversion⟩
    have hnobody : (Machine.run step createShutdown (before ++ after)).holders = [] := by
      rw [Machine.run_append]
      refine List.eq_nil_iff_forall_not_mem.mpr (fun holder hh => ?_)
      obtain ⟨hsource, hnot⟩ := hstopping.mem_holders_run after hafter hh
      exact hnot (hall holder hsource)
    have hsignalled : (Machine.run step createShutdown (before ++ after)).signalled = true := by
      refine (hwf (before ++ after)).signalled ?_
      rw [Machine.run_append]
      exact (Machine.run_invariant_of_stepsOk step (P := Stopping) (fun _ _ h hobeys => h.step hobeys) after _ hstopping hafter).version
    rw [Machine.run_append, Machine.run_cons, Machine.run_nil]
    simp [step, hsignalled, allStopped_iff.mpr hnobody]

/-- A task is spawned, and spawns another with a clone of the receiver it holds; then the signal is sent. -/
def sampleSignalled : List ShutdownEvent := [.clone 0 none, .spawn 1, .clone 0 (some 2), .clone 3 none, .spawn 4, .shutdown]

/-- Both tasks are polled, the first before its future is done, and what is left is dropped. -/
def sampleStopped : List ShutdownEvent := [.poll 2 false, .drop 0, .poll 5 true]

/-- The shutdown returns. -/
theorem run_shutdown_two_tasks :
    (Machine.run step createShutdown (sampleSignalled ++ sampleStopped ++ [.confirm])).returned = true := by
  refine (run_shutdown sampleSignalled sampleStopped).2 (by decide) ?_ ?_
  · simp [sampleSignalled, sampleStopped, Machine.StepsOk, Obeys, step, createShutdown, receiver, hasOwner, dropReceiver]
  · have hall : ∀ h ∈ (Machine.run step createShutdown sampleSignalled).holders ++
          Machine.outputs step created (Machine.run step createShutdown sampleSignalled) sampleStopped,
        h ∈ Machine.outputs step released (Machine.run step createShutdown sampleSignalled) sampleStopped := by decide
    exact fun h hh => hall h (List.mem_append.mpr hh)

end Shutdown

end RustyDht
