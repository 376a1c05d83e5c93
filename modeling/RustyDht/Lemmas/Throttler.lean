import RustyDht.Lib.Checks
import RustyDht.Throttler
import Mathlib.Data.List.Basic

/-!
# Lemmas about the throttler

What one call can do to the records, said once: clear the record it finds, count a packet on it, or give the record with the fewest
packets to its address, unless an addition to its time overflows. Every other record stays as it is.
-/

namespace RustyDht

/-! ## Adding to an instant -/

namespace Instant

variable {now expiration : Instant} {d : Duration}

theorem add_of_le (h : now + d ≤ Instant.max) : Instant.add now d = .ok (now + d) := if_pos h

/-- An addition past the last instant panics. -/
theorem add_of_lt (h : Instant.max < now + d) : Instant.add now d = .error ⟨"overflow when adding duration to instant"⟩ :=
  if_neg (Nat.not_le.mpr h)

/-- An addition that does not panic is the sum. -/
theorem add_eq_ok_iff : Instant.add now d = .ok expiration ↔ now + d ≤ Instant.max ∧ expiration = now + d := by
  unfold Instant.add
  split
  · simp [*, eq_comm]
  · simp [*]

end Instant

/-! ## Counting a packet -/

namespace ThrottlerSettings

variable (self : ThrottlerSettings) {record record' found : ThrottlerRecord} {now : Instant} {throttled : Bool} {ip : IpAddr}

/-- A record within the limit is left as it is. -/
theorem judge_of_le (h : record.packets ≤ self.rateLimit) (now : Instant) : self.judge record now = .ok (false, record) :=
  if_neg (Nat.not_lt.mpr h)

/-- A record over the limit is blocked. -/
theorem judge_of_gt (h : self.rateLimit < record.packets) (hfits : now + self.naughtyTimeout ≤ Instant.max) :
    self.judge record now = .ok (true, { record with expiration := now + self.naughtyTimeout }) := by
  rw [judge, if_pos h, Instant.add_of_le hfits]
  rfl

/-- What a judgement says: a packet is throttled exactly if there are more than the limit, and the record stays of its address. -/
structure Judged (settings : ThrottlerSettings) (now : Instant) (throttled : Bool) (record : ThrottlerRecord) : Prop where
  eq_decide : throttled = decide (record.packets > settings.rateLimit)
  fits : throttled = true → now + settings.naughtyTimeout ≤ Instant.max

variable {self}

theorem of_judge (h : self.judge record now = .ok (throttled, record')) :
    self.Judged now throttled record' ∧ record'.ip = record.ip ∧ record'.packets = record.packets ∧
      record'.creationTime = record.creationTime := by
  by_cases hlimit : record.packets ≤ self.rateLimit
  · rw [judge_of_le _ hlimit] at h
    cases h
    exact ⟨⟨(decide_eq_false (Nat.not_lt.mpr hlimit)).symm, fun h => nomatch h⟩, rfl, rfl, rfl⟩
  · have hlimit := Nat.lt_of_not_le hlimit
    rw [judge, if_pos hlimit] at h
    obtain ⟨expiration, hadd, hrecord⟩ := Checks.bind_eq_ok.mp h
    cases hrecord
    exact ⟨⟨(decide_eq_true hlimit).symm, fun _ => (Instant.add_eq_ok_iff.mp hadd).1⟩, rfl, rfl, rfl⟩

/-- What counting a packet on a record that was found leaves of it. -/
theorem of_useFound (h : self.useFound found now none = .ok (throttled, record)) :
    self.Judged now throttled record ∧ record.ip = found.ip ∧ record.creationTime = found.creationTime ∧
      record.packets = if now < found.expiration then PacketCount.addOrMax found.packets 1 else 1 := by
  by_cases hnow : now < found.expiration
  · rw [useFound, if_pos hnow] at h
    obtain ⟨hjudged, hip, hpackets, hcreation⟩ := of_judge h
    exact ⟨hjudged, hip, hcreation, hpackets.trans (if_pos hnow).symm⟩
  · rw [useFound, if_neg hnow] at h
    obtain ⟨expiration, -, hjudge⟩ := Checks.bind_eq_ok.mp h
    obtain ⟨hjudged, hip, hpackets, hcreation⟩ := of_judge hjudge
    exact ⟨hjudged, hip, hcreation, hpackets.trans (if_neg hnow).symm⟩

/-- What counting a packet on the lamest record makes of it. -/
theorem of_useLamest (h : self.useLamest ip now none = .ok (throttled, record)) :
    self.Judged now throttled record ∧ record.ip = ip ∧ record.creationTime = now ∧ record.packets = 1 := by
  obtain ⟨expiration, -, hjudge⟩ := Checks.bind_eq_ok.mp h
  obtain ⟨hjudged, hip, hpackets, hcreation⟩ := of_judge hjudge
  exact ⟨hjudged, hip, hcreation, hpackets⟩

/-- A packet makes a record only where the period can be added to its time. -/
theorem fits_of_useLamest {p : Bool × ThrottlerRecord} (h : self.useLamest ip now none = .ok p) : now + self.period ≤ Instant.max := by
  obtain ⟨expiration, hadd, -⟩ := Checks.bind_eq_ok.mp h
  exact (Instant.add_eq_ok_iff.mp hadd).1

variable (self)

/-- The period and the timeout can be added to a time. -/
structure Fits (settings : ThrottlerSettings) (now : Instant) : Prop where
  period : now + settings.period ≤ Instant.max
  naughtyTimeout : now + settings.naughtyTimeout ≤ Instant.max

/-- A record is judged where the timeout can be added to the time. -/
theorem judge_ok (hfits : now + self.naughtyTimeout ≤ Instant.max) (record : ThrottlerRecord) : ∃ p, self.judge record now = .ok p := by
  by_cases hlimit : record.packets ≤ self.rateLimit
  · exact ⟨_, self.judge_of_le hlimit now⟩
  · exact ⟨_, self.judge_of_gt (Nat.lt_of_not_le hlimit) hfits⟩

/-- A packet is counted on a record that is found where the period and the timeout can be added to its time. -/
theorem useFound_ok (hfits : self.Fits now) (found : ThrottlerRecord) : ∃ p, self.useFound found now none = .ok p := by
  by_cases hnow : now < found.expiration
  · rw [useFound, if_pos hnow]
    exact self.judge_ok hfits.naughtyTimeout _
  · rw [useFound, if_neg hnow, Instant.add_of_le hfits.period]
    exact self.judge_ok hfits.naughtyTimeout _

/-- So it is on the lamest record. -/
theorem useLamest_ok (hfits : self.Fits now) (ip : IpAddr) : ∃ p, self.useLamest ip now none = .ok p := by
  rw [useLamest, Instant.add_of_le hfits.period]
  exact self.judge_ok hfits.naughtyTimeout _

/-- A packet that makes a record anew, within the limit. -/
theorem useLamest_of_le (hlimit : 1 ≤ self.rateLimit) (hfits : now + self.period ≤ Instant.max) (ip : IpAddr) :
    self.useLamest ip now none = .ok (false, { ip, packets := 1, expiration := now + self.period, creationTime := now }) := by
  rw [useLamest, Instant.add_of_le hfits]
  exact self.judge_of_le hlimit now

/-- A packet within the limit on a record that has not expired. -/
theorem useFound_of_lt (hnow : now < found.expiration) (hlimit : PacketCount.addOrMax found.packets 1 ≤ self.rateLimit) :
    self.useFound found now none = .ok (false, { found with packets := PacketCount.addOrMax found.packets 1 }) := by
  rw [useFound, if_pos hnow]
  exact self.judge_of_le hlimit now

/-- A packet within the limit on a record that has expired. -/
theorem useFound_of_le (hnow : found.expiration ≤ now) (hlimit : 1 ≤ self.rateLimit) (hfits : now + self.period ≤ Instant.max) :
    self.useFound found now none = .ok (false, { found with packets := 1, expiration := now + self.period }) := by
  rw [useFound, if_neg (Nat.not_lt.mpr hnow), Instant.add_of_le hfits]
  exact self.judge_of_le hlimit now

/-- A record has been around for too long once more than the maximal tracking time has gone by. -/
theorem trackedTooLong_eq (found : ThrottlerRecord) (now : Instant) :
    self.trackedTooLong found now = decide (found.creationTime + self.maxTracking < now) := by
  unfold trackedTooLong Instant.checkedDurationSince
  by_cases h : found.creationTime ≤ now
  · rw [if_pos h]
    exact decide_eq_decide.mpr Nat.lt_sub_iff_add_lt'
  · rw [if_neg h]
    exact (decide_eq_false (fun hlt => h (Nat.le_of_lt (Nat.lt_of_le_of_lt (Nat.le_add_right _ _) hlt)))).symm

/-- A record has not been around for too long at the time it is made. -/
theorem trackedTooLong_self {found : ThrottlerRecord} {now : Instant} (h : found.creationTime = now) :
    self.trackedTooLong found now = false := by
  rw [trackedTooLong_eq, h]
  exact decide_eq_false (Nat.not_lt.mpr (Nat.le_add_right _ _))

end ThrottlerSettings

/-- Counts stay in range. -/
theorem PacketCount.addOrMax_le (a b : PacketCount) : addOrMax a b ≤ max := by
  unfold addOrMax
  split
  · assumption
  · exact Nat.le_refl _

theorem PacketCount.addOrMax_le_add (a b : PacketCount) : addOrMax a b ≤ a + b := by
  unfold addOrMax
  split
  · exact Nat.le_refl _
  · rename_i h
    exact Nat.le_of_not_le h

theorem PacketCount.addOrMax_one_pos (a : PacketCount) : 1 ≤ addOrMax a 1 := by
  unfold addOrMax
  split
  · exact Nat.le_add_left 1 a
  · exact Nat.le_of_ble_eq_true rfl

/-- Where the sum is in range, it is the sum. -/
theorem PacketCount.addOrMax_of_le {a b : PacketCount} (h : a + b ≤ max) : addOrMax a b = a + b := if_pos h

/-! ## The loop over the records -/

/-- The first record with the address is found. -/
theorem scan_found {ip : IpAddr} {found : ThrottlerRecord} (hip : found.ip = ip) (post : List ThrottlerRecord) :
    ∀ (pre : List ThrottlerRecord) (i : Nat) (lamest : Option (Nat × ThrottlerRecord)), (∀ record ∈ pre, record.ip ≠ ip) →
      scan ip (pre ++ found :: post) i lamest = .found (i + pre.length) found := by
  intro pre
  induction pre with
  | nil =>
    intro i lamest _
    cases lamest <;> simp only [List.nil_append, scan, if_pos hip, List.length_nil, Nat.add_zero]
  | cons record pre ih =>
    intro i lamest h
    have hne := h record List.mem_cons_self
    have hrest := fun r hr => h r (List.mem_cons_of_mem _ hr)
    have hlen : i + 1 + pre.length = i + (record :: pre).length := by
      rw [List.length_cons]
      omega
    cases lamest <;> simp only [List.cons_append, scan, if_neg hne, ih _ _ hrest, hlen]

/-- The lamer of two records has no more packets. -/
theorem ThrottlerRecord.packets_le_of_lamer {record lame : ThrottlerRecord} (h : record.lamer lame = true) :
    record.packets ≤ lame.packets := by
  simp only [lamer, Bool.or_eq_true, decide_eq_true_eq, Bool.and_eq_true, beq_iff_eq] at h
  rcases h with h | ⟨h, -⟩
  · exact Nat.le_of_lt h
  · exact Nat.le_of_eq h

/-- A record that is not lamer has no fewer packets. -/
theorem ThrottlerRecord.packets_le_of_not_lamer {record lame : ThrottlerRecord} (h : ¬record.lamer lame = true) :
    lame.packets ≤ record.packets := by
  simp only [lamer, Bool.or_eq_true, decide_eq_true_eq, not_or] at h
  exact Nat.le_of_not_lt h.1

/-- Where no record has the address, the loop comes to one with the fewest packets, in its place. -/
theorem scan_lamest_some {ip : IpAddr} (records : List ThrottlerRecord) : ∀ (rest pre : List ThrottlerRecord) (j : Nat)
    (lame : ThrottlerRecord), records = pre ++ rest → (∀ record ∈ rest, record.ip ≠ ip) → records[j]? = some lame →
    (∀ record ∈ pre, lame.packets ≤ record.packets) →
    ∃ j' lame', scan ip rest pre.length (some (j, lame)) = .lamest j' lame' ∧ records[j']? = some lame' ∧
      ∀ record ∈ records, lame'.packets ≤ record.packets := by
  intro rest
  induction rest with
  | nil =>
    intro pre j lame hrecords _ hj hlame
    rw [List.append_nil] at hrecords
    exact ⟨j, lame, rfl, hj, hrecords ▸ hlame⟩
  | cons record rest ih =>
    intro pre j lame hrecords hne hj hlame
    have hrecord : records[pre.length]? = some record := by
      rw [hrecords, List.getElem?_append_right (Nat.le_refl _), Nat.sub_self, List.getElem?_cons_zero]
    have hsplit : records = (pre ++ [record]) ++ rest := by rw [hrecords, List.append_assoc, List.singleton_append]
    have hrest := fun r hr => hne r (List.mem_cons_of_mem _ hr)
    have hlen : (pre ++ [record]).length = pre.length + 1 := by rw [List.length_append, List.length_singleton]
    simp only [scan, if_neg (hne record List.mem_cons_self), ← hlen]
    by_cases h : record.lamer lame = true
    · rw [if_pos h]
      refine ih (pre ++ [record]) pre.length record hsplit hrest hrecord (fun r hr => ?_)
      rcases List.mem_append.mp hr with hr | hr
      · exact Nat.le_trans (ThrottlerRecord.packets_le_of_lamer h) (hlame r hr)
      · rw [List.mem_singleton.mp hr]
    · rw [if_neg h]
      refine ih (pre ++ [record]) j lame hsplit hrest hj (fun r hr => ?_)
      rcases List.mem_append.mp hr with hr | hr
      · exact hlame r hr
      · rw [List.mem_singleton.mp hr]
        exact ThrottlerRecord.packets_le_of_not_lamer h

/-- Where no record has the address, but there is one, the loop comes to one with the fewest packets. -/
theorem scan_lamest {ip : IpAddr} {records : List ThrottlerRecord} (hrecords : records ≠ [])
    (h : ∀ record ∈ records, record.ip ≠ ip) : ∃ pre lame post, records = pre ++ lame :: post ∧
      scan ip records 0 none = .lamest pre.length lame ∧ ∀ record ∈ records, lame.packets ≤ record.packets := by
  obtain ⟨first, rest, rfl⟩ := List.exists_cons_of_ne_nil hrecords
  have hrest := fun r hr => h r (List.mem_cons_of_mem _ hr)
  obtain ⟨j, lame, hscan, hj, hlame⟩ := scan_lamest_some (first :: rest) rest [first] 0 first rfl hrest rfl
    (fun r hr => by rw [List.mem_singleton.mp hr])
  obtain ⟨hlt, hget⟩ := List.getElem?_eq_some_iff.mp hj
  refine ⟨(first :: rest).take j, lame, (first :: rest).drop (j + 1), ?_, ?_, hlame⟩
  · rw [← hget, ← List.drop_eq_getElem_cons hlt, List.take_append_drop]
  · rw [List.length_take, Nat.min_eq_left (Nat.le_of_lt hlt)]
    simp only [scan, if_neg (h first List.mem_cons_self)]
    exact hscan

/-! ## One call -/

/-- What a call can do: the answer and the records after it, or a panic. -/
inductive Checked (settings : ThrottlerSettings) (call : ThrottleCall) :
    List ThrottlerRecord → Except Panic (Bool × List ThrottlerRecord) → Prop
  /-- The record found is too old. -/
  | cleared (pre post : List ThrottlerRecord) (found : ThrottlerRecord) (hpre : ∀ record ∈ pre, record.ip ≠ call.ip)
      (hip : found.ip = call.ip) (htracked : settings.trackedTooLong found call.now = true) :
      Checked settings call (pre ++ found :: post) (.ok (false, pre ++ .blank (call.clock 1) :: post))
  /-- The packet is counted on the record found. -/
  | used (pre post : List ThrottlerRecord) (found record : ThrottlerRecord) (throttled : Bool)
      (hpre : ∀ record ∈ pre, record.ip ≠ call.ip) (hip : found.ip = call.ip)
      (htracked : settings.trackedTooLong found call.now = false)
      (huse : settings.useFound found call.now none = .ok (throttled, record)) :
      Checked settings call (pre ++ found :: post) (.ok (throttled, pre ++ record :: post))
  /-- It cannot be counted. -/
  | notUsed (pre post : List ThrottlerRecord) (found : ThrottlerRecord) (p : Panic) (hpre : ∀ record ∈ pre, record.ip ≠ call.ip)
      (hip : found.ip = call.ip) (htracked : settings.trackedTooLong found call.now = false)
      (huse : settings.useFound found call.now none = .error p) :
      Checked settings call (pre ++ found :: post) (.error p)
  /-- No record is found: the packet is counted on one with the fewest packets. -/
  | claimed (pre post : List ThrottlerRecord) (lame record : ThrottlerRecord) (throttled : Bool)
      (hnone : ∀ record ∈ pre ++ lame :: post, record.ip ≠ call.ip)
      (hlame : ∀ record ∈ pre ++ lame :: post, lame.packets ≤ record.packets)
      (huse : settings.useLamest call.ip call.now none = .ok (throttled, record)) :
      Checked settings call (pre ++ lame :: post) (.ok (throttled, pre ++ record :: post))
  /-- It cannot be counted. -/
  | notClaimed (pre post : List ThrottlerRecord) (lame : ThrottlerRecord) (p : Panic)
      (hnone : ∀ record ∈ pre ++ lame :: post, record.ip ≠ call.ip)
      (hlame : ∀ record ∈ pre ++ lame :: post, lame.packets ≤ record.packets)
      (huse : settings.useLamest call.ip call.now none = .error p) :
      Checked settings call (pre ++ lame :: post) (.error p)

namespace Throttler

variable {n : Nat}

/-- A throttler with a record answers a call, or panics, as it can. -/
theorem checkThrottle_checked (hn : 1 ≤ n) (self : Throttler n) (call : ThrottleCall) :
    (∃ throttled self', self.checkThrottle call.ip (some call.now) none call.clock = .ok (throttled, self') ∧
      self'.toThrottlerSettings = self.toThrottlerSettings ∧
      Checked self.toThrottlerSettings call self.records (.ok (throttled, self'.records))) ∨
    ∃ p, self.checkThrottle call.ip (some call.now) none call.clock = .error p ∧
      Checked self.toThrottlerSettings call self.records (.error p) := by
  have hwrite : ∀ {pre post : List ThrottlerRecord} {r : ThrottlerRecord} (r' : ThrottlerRecord),
      self.records = pre ++ r :: post → (self.write pre.length r').records = pre ++ r' :: post := by
    intro pre post r r' hrecords
    dsimp only [write]
    rw [hrecords, List.set_append_right _ _ (Nat.le_refl _), Nat.sub_self, List.set_cons_zero]
  by_cases hfound : ∃ record ∈ self.records, record.ip = call.ip
  · obtain ⟨pre, found, post, hrecords, hip, hpre⟩ : ∃ pre found post, self.records = pre ++ found :: post ∧
        found.ip = call.ip ∧ ∀ record ∈ pre, record.ip ≠ call.ip := by
      have hsome : (self.records.find? (fun record => decide (record.ip = call.ip))).isSome = true := by
        rw [List.find?_isSome]
        simpa using hfound
      obtain ⟨found, hfind⟩ := Option.isSome_iff_exists.mp hsome
      obtain ⟨hip, pre, post, hrecords, hpre⟩ := List.find?_eq_some_iff_append.mp hfind
      exact ⟨pre, found, post, hrecords, of_decide_eq_true hip, fun r hr => by simpa using hpre r hr⟩
    have hscan : scan call.ip self.records 0 none = .found pre.length found := by
      rw [hrecords, scan_found hip post pre 0 none hpre, Nat.zero_add]
    cases htracked : self.trackedTooLong found call.now with
    | true =>
      refine .inl ⟨false, self.write pre.length (.blank (call.clock 1)), ?_, rfl, ?_⟩
      · simp only [checkThrottle, hscan, Option.getD_some, htracked, if_true]
        rfl
      · rw [hwrite _ hrecords, hrecords]
        exact .cleared pre post found hpre hip htracked
    | false =>
      have hcheck : self.checkThrottle call.ip (some call.now) none call.clock =
          (self.useFound found call.now none).bind (fun p => .ok (p.1, self.write pre.length p.2)) := by
        simp only [checkThrottle, hscan, Option.getD_some, htracked, Bool.false_eq_true, if_false]
        rfl
      cases huse : self.useFound found call.now none with
      | error p =>
        rw [hcheck, huse, hrecords]
        exact .inr ⟨p, rfl, .notUsed pre post found p hpre hip htracked huse⟩
      | ok p =>
        refine .inl ⟨p.1, self.write pre.length p.2, ?_, rfl, ?_⟩
        · rw [hcheck, huse]
          rfl
        · rw [hwrite _ hrecords, hrecords]
          exact .used pre post found p.2 p.1 hpre hip htracked huse
  · have hnone : ∀ record ∈ self.records, record.ip ≠ call.ip := fun record hr he => hfound ⟨record, hr, he⟩
    have hne : self.records ≠ [] := by
      intro hnil
      have hsize := self.size
      rw [hnil, List.length_nil] at hsize
      omega
    obtain ⟨pre, lame, post, hrecords, hscan, hlame⟩ := scan_lamest hne hnone
    have hcheck : self.checkThrottle call.ip (some call.now) none call.clock =
        (self.useLamest call.ip call.now none).bind (fun p => .ok (p.1, self.write pre.length p.2)) := by
      simp only [checkThrottle, hscan, Option.getD_some]
      rfl
    cases huse : self.useLamest call.ip call.now none with
    | error p =>
      rw [hcheck, huse, hrecords]
      exact .inr ⟨p, rfl, .notClaimed pre post lame p (hrecords ▸ hnone) (hrecords ▸ hlame) huse⟩
    | ok p =>
      refine .inl ⟨p.1, self.write pre.length p.2, ?_, rfl, ?_⟩
      · rw [hcheck, huse]
        rfl
      · rw [hwrite _ hrecords, hrecords]
        exact .claimed pre post lame p.2 p.1 (hrecords ▸ hnone) (hrecords ▸ hlame) huse

/-- What the first of some calls is answered, and the others then. -/
theorem answers_cons {self self' : Throttler n} {call : ThrottleCall} {throttled : Bool}
    (hcheck : self.checkThrottle call.ip (some call.now) none call.clock = .ok (throttled, self')) (calls : List ThrottleCall) :
    self.answers (call :: calls) = (self'.answers calls).map (throttled :: ·) := by
  rw [answers, hcheck]
  exact Checks.bind_pure_eq_map (self'.answers calls) (throttled :: ·)

/-- Where the first of some calls panics, there are no answers. -/
theorem answers_cons_error {self : Throttler n} {call : ThrottleCall} {p : Panic}
    (hcheck : self.checkThrottle call.ip (some call.now) none call.clock = .error p) (calls : List ThrottleCall) :
    self.answers (call :: calls) = .error p := by
  rw [answers, hcheck]
  rfl

/-- A throttler answers a call where the period and the timeout can be added to its time. -/
theorem checkThrottle_ok (hn : 1 ≤ n) (self : Throttler n) {call : ThrottleCall} (hfits : self.Fits call.now) :
    ∃ throttled self', self.checkThrottle call.ip (some call.now) none call.clock = .ok (throttled, self') ∧
      self'.toThrottlerSettings = self.toThrottlerSettings ∧
      Checked self.toThrottlerSettings call self.records (.ok (throttled, self'.records)) := by
  rcases checkThrottle_checked hn self call with hok | ⟨p, -, hchecked⟩
  · exact hok
  · generalize self.records = records at hchecked
    cases hchecked with
    | notUsed pre post found p hpre hip htracked huse =>
      obtain ⟨r, hr⟩ := self.useFound_ok hfits found
      cases huse.symm.trans hr
    | notClaimed pre post lame p hnone hlame huse =>
      obtain ⟨r, hr⟩ := self.useLamest_ok hfits call.ip
      cases huse.symm.trans hr

end Throttler

end RustyDht
