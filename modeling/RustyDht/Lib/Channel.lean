import RustyDht.Lib.Machine
import RustyDht.Lib.Vec
import Mathlib.Data.List.Nodup

/-!
# Bounded channels

A channel holds what waits to be taken, up to its capacity. What is offered to it when it is full, or when its receiver is gone, is not
put on it. The record of all that was put on a channel is kept, so that what a receiver sees can be compared with what it was offered.
A sender of the same items to several channels passes over those whose receivers are gone; each channel fares as if it were the only one.
-/

/-- A bounded channel: all that was put on it, how much of that has been taken, and whether its receiver is gone. -/
structure Channel (α : Type) where
  sent : List α
  taken : Nat
  closed : Bool
  deriving DecidableEq

/-- What comes of an offer to a channel. -/
inductive TrySend where
  | ok
  | full
  | closed
  deriving DecidableEq

/-- What happens to a channel. -/
inductive ChannelEvent (α : Type) where
  | offer (a : α)
  | recv
  | close

namespace Channel

variable {α : Type} (capacity : Nat)

/-- A channel on which nothing was put. -/
def new : Channel α := { sent := [], taken := 0, closed := false }

/-- What waits to be taken. -/
def waiting (self : Channel α) : List α := self.sent.drop self.taken

/-- The receiver is there, and fewer items than the capacity wait for it. -/
def HasRoom (self : Channel α) : Prop := self.closed = false ∧ self.waiting.length < capacity

instance (self : Channel α) : Decidable (self.HasRoom capacity) := inferInstanceAs (Decidable (_ ∧ _))

/-- An item is put on the channel, if there is room. -/
def trySend (self : Channel α) (a : α) : TrySend × Channel α :=
  if self.closed then (.closed, self)
  else if self.waiting.length < capacity then (.ok, { self with sent := self.sent ++ [a] })
  else (.full, self)

/-- The receiver takes the next item, if there is one. -/
def recv (self : Channel α) : Option α × Channel α :=
  match self.waiting.head? with
  | some a => (some a, { self with taken := self.taken + 1 })
  | none => (none, self)

/-- The receiver is dropped. -/
def close (self : Channel α) : Channel α := { self with closed := true }

/-- The channel after an event. -/
def step (self : Channel α) : ChannelEvent α → Channel α
  | .offer a => (self.trySend capacity a).2
  | .recv => self.recv.2
  | .close => self.close

/-- What was offered, in order. -/
def offered (es : List (ChannelEvent α)) : List α :=
  es.filterMap (fun e => match e with
    | .offer a => some a
    | .recv => none
    | .close => none)

variable {capacity} {self : Channel α} {a : α}

@[simp] theorem offered_nil : offered ([] : List (ChannelEvent α)) = [] := rfl

@[simp] theorem offered_offer (es : List (ChannelEvent α)) : offered (.offer a :: es) = a :: offered es := rfl

@[simp] theorem offered_recv (es : List (ChannelEvent α)) : offered (.recv :: es) = offered es := rfl

@[simp] theorem offered_close (es : List (ChannelEvent α)) : offered (.close :: es) = offered es := rfl

theorem offered_append (es fs : List (ChannelEvent α)) : offered (es ++ fs) = offered es ++ offered fs := List.filterMap_append

theorem offered_map_offer {β : Type} (f : β → α) (l : List β) : offered (l.map (fun b => .offer (f b))) = l.map f := by
  induction l <;> simp_all

theorem trySend_of_hasRoom (h : self.HasRoom capacity) (a : α) :
    self.trySend capacity a = (.ok, { self with sent := self.sent ++ [a] }) := by
  simp [trySend, h.1, h.2]

theorem trySend_of_not_hasRoom (h : ¬self.HasRoom capacity) (a : α) : (self.trySend capacity a).2 = self := by
  unfold trySend
  split
  · rfl
  · rename_i hopen
    rw [if_neg (fun hlt => h ⟨by simpa using hopen, hlt⟩)]

/-- An offer is refused for good exactly where the receiver is gone. -/
theorem trySend_closed_iff (capacity : Nat) (self : Channel α) (a : α) : (self.trySend capacity a).1 = .closed ↔ self.closed = true := by
  unfold trySend
  split
  · simp_all
  · split <;> simp_all

theorem trySend_of_closed (h : self.closed = true) (a : α) : (self.trySend capacity a).2 = self :=
  trySend_of_not_hasRoom (fun hroom => by simp [hroom.1] at h) a

theorem recv_closed (self : Channel α) : self.recv.2.closed = self.closed := by
  unfold recv
  split <;> rfl

/-! ## One event -/

/-- What has been taken was put on the channel, and no more waits than the capacity. -/
structure Wf (capacity : Nat) (ch : Channel α) : Prop where
  taken : ch.taken ≤ ch.sent.length
  waiting : ch.waiting.length ≤ capacity

theorem new_wf (capacity : Nat) : Wf capacity (new : Channel α) := ⟨Nat.le_refl 0, Nat.zero_le capacity⟩

/-- Every event keeps a channel within its capacity. -/
theorem Wf.step (h : Wf capacity self) (e : ChannelEvent α) : Wf capacity (self.step capacity e) := by
  cases e with
  | offer a =>
    by_cases hroom : self.HasRoom capacity
    · have hlt : self.sent.length - self.taken < capacity := by simpa [Channel.waiting] using hroom.2
      have htaken := h.taken
      simp only [Channel.step, trySend_of_hasRoom hroom]
      refine ⟨?_, ?_⟩
      · simp
        omega
      · simp [Channel.waiting]
        omega
    · simpa only [Channel.step, trySend_of_not_hasRoom hroom] using h
  | recv =>
    simp only [Channel.step, recv]
    split
    · rename_i a hhead
      have hlt : self.taken < self.sent.length := by
        have hne : self.waiting ≠ [] := fun hnil => by simp [hnil] at hhead
        simpa [Channel.waiting] using hne
      have hwaiting : self.sent.length - self.taken ≤ capacity := by simpa [Channel.waiting] using h.waiting
      refine ⟨hlt, ?_⟩
      simp [Channel.waiting]
      omega
    · exact h
  | close => exact ⟨h.taken, h.waiting⟩

/-- An event puts what it offers on the channel, or nothing. -/
theorem step_sent (self : Channel α) (e : ChannelEvent α) :
    ∃ l, (self.step capacity e).sent = self.sent ++ l ∧ l.Sublist (offered [e]) := by
  cases e with
  | offer a =>
    by_cases hroom : self.HasRoom capacity
    · exact ⟨[a], by simp [step, trySend_of_hasRoom hroom], by simp⟩
    · exact ⟨[], by simp [step, trySend_of_not_hasRoom hroom], List.nil_sublist _⟩
  | recv =>
    refine ⟨[], ?_, List.nil_sublist _⟩
    simp only [step, recv]
    split <;> simp
  | close => exact ⟨[], by simp [step, close], List.nil_sublist _⟩

/-- An event that offers nothing, or finds room, puts what it offers on the channel. -/
theorem step_sent_of_hasRoom (e : ChannelEvent α) (h : ∀ a, e = .offer a → self.HasRoom capacity) :
    (self.step capacity e).sent = self.sent ++ offered [e] := by
  cases e with
  | offer a => simp [step, trySend_of_hasRoom (h a rfl)]
  | recv =>
    simp only [step, recv]
    split <;> simp
  | close => simp [step, close]

/-! ## Every run -/

theorem offered_cons (e : ChannelEvent α) (es : List (ChannelEvent α)) : offered (e :: es) = offered [e] ++ offered es :=
  offered_append [e] es

/-- No more waits on a channel than its capacity, after every run. -/
theorem run_wf (es : List (ChannelEvent α)) (h : Wf capacity self) : Wf capacity (Machine.run (step capacity) self es) :=
  Machine.run_invariant (step capacity) (P := Wf capacity) (fun _ e h => h.step e) es self h

/-- What is put on a channel in a run is among what was offered, in order. -/
theorem run_sent (es : List (ChannelEvent α)) :
    ∀ self : Channel α, ∃ l, (Machine.run (step capacity) self es).sent = self.sent ++ l ∧ l.Sublist (offered es) := by
  induction es with
  | nil => exact fun self => ⟨[], by simp, List.nil_sublist _⟩
  | cons e es ih =>
    intro self
    obtain ⟨first, hfirst, hsub⟩ := step_sent self e
    obtain ⟨rest, hrest, hsub'⟩ := ih (self.step capacity e)
    refine ⟨first ++ rest, ?_, ?_⟩
    · rw [Machine.run_cons, hrest, hfirst, List.append_assoc]
    · rw [offered_cons]
      exact hsub.append hsub'

/-- A receiver that is there and has room whenever something is offered is sent all of it. -/
theorem run_sent_of_hasRoom (es : List (ChannelEvent α)) :
    ∀ self : Channel α, Machine.StepsOk (step capacity) (fun ch e => ∀ a, e = .offer a → ch.HasRoom capacity) self es →
      (Machine.run (step capacity) self es).sent = self.sent ++ offered es := by
  induction es with
  | nil => exact fun self _ => by simp
  | cons e es ih =>
    intro self hok
    rw [Machine.run_cons, ih _ hok.2, step_sent_of_hasRoom e hok.1, offered_cons e es, List.append_assoc]

/-! ## Several channels -/

/-- The channel with a number. -/
def nth (channels : List (Channel α)) (i : Nat) : Channel α := channels.getD i new

/-- An item is offered to the channel with a number, and whether that channel is to be kept: its receiver is there. -/
def offerTo (capacity : Nat) (a : α) (i : Nat) (channels : List (Channel α)) : Bool × List (Channel α) :=
  let (result, ch) := (nth channels i).trySend capacity a
  (result != .closed, channels.set i ch)

theorem nth_set_self {channels : List (Channel α)} {i : Nat} (hi : i < channels.length) (ch : Channel α) :
    nth (channels.set i ch) i = ch := by
  simp [nth, List.getD_eq_getElem?_getD, hi]

theorem nth_set_of_ne {channels : List (Channel α)} {i j : Nat} (h : i ≠ j) (ch : Channel α) :
    nth (channels.set i ch) j = nth channels j := by
  simp [nth, List.getD_eq_getElem?_getD, h]

/-- A new channel at the end is one that nothing was put on, as is any that is not there. -/
theorem nth_append_new (channels : List (Channel α)) (i : Nat) : nth (channels ++ [new]) i = nth channels i := by
  unfold nth
  rcases Nat.lt_trichotomy i channels.length with h | h | h
  · simp [List.getD_eq_getElem?_getD, List.getElem?_append_left h]
  · subst h
    simp [List.getD_eq_getElem?_getD]
  · have hlonger : (channels ++ [new]).length ≤ i := by
      simp
      omega
    rw [List.getD_eq_getElem?_getD, List.getD_eq_getElem?_getD, List.getElem?_eq_none hlonger, List.getElem?_eq_none (Nat.le_of_lt h)]

theorem offerTo_fst (capacity : Nat) (a : α) (i : Nat) (channels : List (Channel α)) :
    (offerTo capacity a i channels).1 = !(nth channels i).closed := by
  have hiff := trySend_closed_iff capacity (nth channels i) a
  unfold offerTo
  cases hclosed : (nth channels i).closed <;> simp_all

/-- An item offered to channels with different numbers is offered to each of them once, and those whose receivers are there are kept. -/
theorem retain_offerTo (capacity : Nat) (a : α) (is : List Nat) :
    ∀ channels : List (Channel α), is.Nodup → (∀ i ∈ is, i < channels.length) →
      (Vec.retain (offerTo capacity a) is channels).1 = is.filter (fun i => !(nth channels i).closed) ∧
        (Vec.retain (offerTo capacity a) is channels).2.length = channels.length ∧
        ∀ j, nth (Vec.retain (offerTo capacity a) is channels).2 j =
          if j ∈ is then ((nth channels j).trySend capacity a).2 else nth channels j := by
  induction is with
  | nil => exact fun channels _ _ => ⟨rfl, rfl, fun j => by simp [Vec.retain]⟩
  | cons i is ih =>
    intro channels hnodup hlt
    obtain ⟨hi, hnodup⟩ := List.nodup_cons.mp hnodup
    have hne : ∀ j ∈ is, i ≠ j := fun j hj h => hi (h ▸ hj)
    have hset : (offerTo capacity a i channels).2 = channels.set i ((nth channels i).trySend capacity a).2 := rfl
    obtain ⟨hkept, hlength, hnth⟩ := ih (channels.set i ((nth channels i).trySend capacity a).2) hnodup (fun j hj => by
      rw [List.length_set]
      exact hlt j (List.mem_cons_of_mem i hj))
    have hopen : is.filter (fun j => !(nth (channels.set i ((nth channels i).trySend capacity a).2) j).closed) =
        is.filter (fun j => !(nth channels j).closed) :=
      List.filter_congr (fun j hj => by rw [nth_set_of_ne (hne j hj)])
    simp only [Vec.retain, hset, offerTo_fst, hkept, hopen, List.filter_cons, hlength, List.length_set, true_and]
    intro j
    rw [hnth]
    by_cases hji : i = j
    · subst hji
      simp [hi, nth_set_self (hlt i List.mem_cons_self)]
    · simp [nth_set_of_ne hji, Ne.symm hji]

end Channel
