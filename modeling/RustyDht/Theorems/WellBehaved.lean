import RustyDht.Lemmas.Throttler
import Mathlib.Data.List.Basic
import Mathlib.Algebra.Order.Sub.Defs

/-!
# Well-behaved addresses

An address that stays within the limit in every window of the period is never throttled, whatever other addresses send and whatever
becomes of its records. The invariant: a record of the address counts no more packets than the address sent in the period before the
record expires.
-/

namespace RustyDht

/-- In every window of the period, an address sends no more packets than the limit. -/
def WellBehaved (settings : ThrottlerSettings) (a : IpAddr) (calls : List ThrottleCall) : Prop :=
  ∀ start, calls.countP (fun call => call.ip = a ∧ start ≤ call.now ∧ call.now < start + settings.period) ≤ settings.rateLimit

/-- What the clock read, when the throttler was made and when it cleared records, is never more than a period ahead of a later
packet. -/
def ClockKeepsUp (period : Duration) (start : Instant) (calls : List ThrottleCall) : Prop :=
  (∀ call ∈ calls, start ≤ call.now + period) ∧ calls.Pairwise (fun call later => call.clock 1 ≤ later.now + period)

/-- A throttler answers with no to every call of an address that it comes to; or it panics, where the period cannot be added to the time of
the call. -/
def Throttler.NeverThrottles {n : Nat} (self : Throttler n) (a : IpAddr) (calls : List ThrottleCall) : Prop :=
  ∀ before call after answers, calls = before ++ call :: after → call.ip = a → self.answers before = .ok answers →
    self.answers (before ++ [call]) = .ok (answers ++ [false]) ∨
      (Instant.max < call.now + self.period ∧
        self.answers (before ++ [call]) = .error ⟨"overflow when adding duration to instant"⟩)

/-- A throttler answers every call, and those of an address with no. -/
def Throttler.NeverBlocks {n : Nat} (self : Throttler n) (a : IpAddr) (calls : List ThrottleCall) : Prop :=
  ∃ answers, self.answers calls = .ok answers ∧
    List.Forall₂ (fun call throttled => call.ip = a → throttled = false) calls answers

/-! ## One packet -/

/-- How many packets an address sent that are in the period before an instant, or later. -/
def sentSince (period : Duration) (a : IpAddr) (calls : List ThrottleCall) (expiration : Instant) : Nat :=
  calls.countP (fun call => call.ip = a ∧ expiration ≤ call.now + period)

/-- A record of the address counts no more packets than were sent in the period before it expires, and it expires within a period of
every packet to come. -/
structure Counted (period : Duration) (a : IpAddr) (past rest : List ThrottleCall) (record : ThrottlerRecord) : Prop where
  packets : record.packets ≤ sentSince period a past record.expiration
  expiration : ∀ call ∈ rest, record.expiration ≤ call.now + period

section

variable {settings : ThrottlerSettings} {a : IpAddr} {past rest : List ThrottleCall} {call : ThrottleCall}

/-- One packet more. -/
theorem sentSince_append (period : Duration) (a : IpAddr) (past : List ThrottleCall) (call : ThrottleCall) (expiration : Instant) :
    sentSince period a (past ++ [call]) expiration =
      sentSince period a past expiration + if call.ip = a ∧ expiration ≤ call.now + period then 1 else 0 := by
  simp only [sentSince, List.countP_append, List.countP_singleton, decide_eq_true_eq]

/-- A record that is left alone stays counted. -/
theorem Counted.later {period : Duration} {record : ThrottlerRecord} (h : Counted period a past (call :: rest) record) :
    Counted period a (past ++ [call]) rest record where
  packets := by
    rw [sentSince_append]
    exact Nat.le_add_right_of_le h.packets
  expiration c hc := h.expiration c (List.mem_cons_of_mem _ hc)

/-- What is sent in the period before an instant that lies ahead is sent in one window. -/
theorem sentSince_le (hbehaved : WellBehaved settings a past) {expiration : Instant} (hpast : ∀ c ∈ past, c.now < expiration) :
    sentSince settings.period a past expiration ≤ settings.rateLimit := by
  refine Nat.le_trans (List.countP_mono_left (fun c hc hsent => ?_)) (hbehaved (expiration - settings.period))
  have hlt := hpast c hc
  simp only [decide_eq_true_eq] at hsent ⊢
  refine ⟨hsent.1, ?_, ?_⟩
  · exact Nat.sub_le_iff_le_add.mpr hsent.2
  · exact Nat.lt_of_lt_of_le hlt le_tsub_add

/-- A well-behaved address that sends a packet may send one. -/
theorem one_le_rateLimit (hbehaved : WellBehaved settings a (past ++ [call])) (hip : call.ip = a)
    (hsettings : 1 ≤ settings.rateLimit ∨ 0 < settings.period) : 1 ≤ settings.rateLimit := by
  rcases hsettings with h | h
  · exact h
  · refine Nat.le_trans (List.countP_pos_iff.mpr ⟨call, List.mem_append_right _ List.mem_cons_self, ?_⟩) (hbehaved call.now)
    simp only [decide_eq_true_eq]
    exact ⟨hip, Nat.le_refl _, Nat.lt_add_of_pos_right h⟩

/-- A record of one packet, which expires a period later, is counted. -/
theorem counted_one (hip : call.ip = a) (hrest : ∀ c ∈ rest, call.now ≤ c.now) {record : ThrottlerRecord} (hpackets : record.packets = 1)
    (hexpiration : record.expiration = call.now + settings.period) :
    Counted settings.period a (past ++ [call]) rest record where
  packets := by
    rw [sentSince_append, hpackets, hexpiration, if_pos ⟨hip, Nat.le_refl _⟩]
    exact Nat.le_add_left _ _
  expiration c hc := by
    rw [hexpiration]
    exact Nat.add_le_add_right (hrest c hc) _

/-- A packet counted on a record of its address is not throttled, and leaves the record counted; if it can be counted. -/
theorem Counted.useFound {found : ThrottlerRecord} (h : Counted settings.period a past (call :: rest) found)
    (hip : call.ip = a) (hpast : ∀ c ∈ past, c.now ≤ call.now) (hrest : ∀ c ∈ rest, call.now ≤ c.now)
    (hbehaved : WellBehaved settings a (past ++ [call])) (hsettings : 1 ≤ settings.rateLimit ∨ 0 < settings.period) :
    (∃ record, settings.useFound found call.now none = .ok (false, record) ∧
      Counted settings.period a (past ++ [call]) rest record) ∨
    (Instant.max < call.now + settings.period ∧
      settings.useFound found call.now none = .error ⟨"overflow when adding duration to instant"⟩) := by
  by_cases hnow : call.now < found.expiration
  · have hpackets : PacketCount.addOrMax found.packets 1 ≤ sentSince settings.period a (past ++ [call]) found.expiration := by
      rw [sentSince_append, if_pos ⟨hip, h.expiration call List.mem_cons_self⟩]
      exact Nat.le_trans (PacketCount.addOrMax_le_add _ _) (Nat.add_le_add_right h.packets 1)
    have hlimit : sentSince settings.period a (past ++ [call]) found.expiration ≤ settings.rateLimit := by
      refine sentSince_le hbehaved (fun c hc => ?_)
      rcases List.mem_append.mp hc with hc | hc
      · exact Nat.lt_of_le_of_lt (hpast c hc) hnow
      · exact List.mem_singleton.mp hc ▸ hnow
    refine .inl ⟨_, settings.useFound_of_lt hnow (Nat.le_trans hpackets hlimit), hpackets, fun c hc => ?_⟩
    exact h.expiration c (List.mem_cons_of_mem _ hc)
  · have hlimit := one_le_rateLimit hbehaved hip hsettings
    by_cases hfits : call.now + settings.period ≤ Instant.max
    · exact .inl ⟨_, settings.useFound_of_le (Nat.le_of_not_lt hnow) hlimit hfits, counted_one hip hrest rfl rfl⟩
    · have hoverflow := Nat.lt_of_not_le hfits
      refine .inr ⟨hoverflow, ?_⟩
      rw [ThrottlerSettings.useFound, if_neg hnow, Instant.add_of_lt hoverflow]
      rfl

/-- A packet counted on a new record of its address is not throttled, and leaves the record counted; if it can be counted. -/
theorem counted_useLamest (hip : call.ip = a) (hrest : ∀ c ∈ rest, call.now ≤ c.now)
    (hbehaved : WellBehaved settings a (past ++ [call])) (hsettings : 1 ≤ settings.rateLimit ∨ 0 < settings.period) :
    (∃ record, settings.useLamest call.ip call.now none = .ok (false, record) ∧
      Counted settings.period a (past ++ [call]) rest record) ∨
    (Instant.max < call.now + settings.period ∧
      settings.useLamest call.ip call.now none = .error ⟨"overflow when adding duration to instant"⟩) := by
  by_cases hfits : call.now + settings.period ≤ Instant.max
  · have hlimit := one_le_rateLimit hbehaved hip hsettings
    exact .inl ⟨_, settings.useLamest_of_le hlimit hfits call.ip, counted_one hip hrest rfl rfl⟩
  · have hoverflow := Nat.lt_of_not_le hfits
    refine .inr ⟨hoverflow, ?_⟩
    rw [ThrottlerSettings.useLamest, Instant.add_of_lt hoverflow]
    rfl

/-- A call keeps every record of the address counted, and is not throttled if it is of the address; and if it is, it can only panic where
the period cannot be added to its time. -/
theorem Checked.counted {records : List ThrottlerRecord} {result : Except Panic (Bool × List ThrottlerRecord)}
    (hchecked : Checked settings call records result)
    (h : ∀ record ∈ records, record.ip = a → Counted settings.period a past (call :: rest) record)
    (hpast : ∀ c ∈ past, c.now ≤ call.now) (hrest : ∀ c ∈ rest, call.now ≤ c.now)
    (hclock : a = blankIp → ∀ c ∈ rest, call.clock 1 ≤ c.now + settings.period)
    (hbehaved : WellBehaved settings a (past ++ [call])) (hsettings : 1 ≤ settings.rateLimit ∨ 0 < settings.period) :
    (∀ throttled records', result = .ok (throttled, records') → (call.ip = a → throttled = false) ∧
      ∀ record ∈ records', record.ip = a → Counted settings.period a (past ++ [call]) rest record) ∧
    ∀ p, result = .error p → call.ip = a →
      Instant.max < call.now + settings.period ∧ p = ⟨"overflow when adding duration to instant"⟩ := by
  -- The record written, and the others.
  have hothers : ∀ {pre post : List ThrottlerRecord} {r r' : ThrottlerRecord}, pre ++ r :: post = records →
      (r'.ip = a → Counted settings.period a (past ++ [call]) rest r') →
      ∀ record ∈ pre ++ r' :: post, record.ip = a → Counted settings.period a (past ++ [call]) rest record := by
    rintro pre post r r' rfl hr' record hrecord hip
    rcases List.mem_append.mp hrecord with hm | hm
    · exact (h record (List.mem_append_left _ hm) hip).later
    · rcases List.mem_cons.mp hm with rfl | hm
      · exact hr' hip
      · exact (h record (List.mem_append_right _ (List.mem_cons_of_mem _ hm)) hip).later
  cases hchecked with
  | cleared pre post found hpre hip htracked =>
    refine ⟨fun throttled records' heq => ?_, fun p heq => nomatch heq⟩
    cases heq
    exact ⟨fun _ => rfl, hothers rfl (fun hblank => ⟨Nat.zero_le _, hclock hblank.symm⟩)⟩
  | used pre post found record throttled hpre hip htracked huse =>
    refine ⟨fun throttled records' heq => ?_, fun p heq => nomatch heq⟩
    cases heq
    have hfound : call.ip = a → throttled = false ∧ Counted settings.period a (past ++ [call]) rest record := by
      intro ha
      rcases (h found (List.mem_append_right _ List.mem_cons_self) (hip.trans ha)).useFound ha hpast hrest hbehaved hsettings with
        ⟨record', hok, hcounted⟩ | ⟨-, herror⟩
      · cases huse.symm.trans hok
        exact ⟨rfl, hcounted⟩
      · cases huse.symm.trans herror
    refine ⟨fun ha => (hfound ha).1, hothers rfl (fun hr' => (hfound ?_).2)⟩
    exact hip.symm.trans ((ThrottlerSettings.of_useFound huse).2.1.symm.trans hr')
  | notUsed pre post found p hpre hip htracked huse =>
    refine ⟨fun throttled records' heq => (by cases heq), fun p heq ha => ?_⟩
    cases heq
    rcases (h found (List.mem_append_right _ List.mem_cons_self) (hip.trans ha)).useFound ha hpast hrest hbehaved hsettings with
      ⟨record', hok, -⟩ | ⟨hoverflow, herror⟩
    · cases huse.symm.trans hok
    · cases huse.symm.trans herror
      exact ⟨hoverflow, rfl⟩
  | claimed pre post lame record throttled hnone hlame huse =>
    refine ⟨fun throttled records' heq => ?_, fun p heq => nomatch heq⟩
    cases heq
    have hlamest : call.ip = a → throttled = false ∧ Counted settings.period a (past ++ [call]) rest record := by
      intro ha
      rcases counted_useLamest ha hrest hbehaved hsettings with ⟨record', hok, hcounted⟩ | ⟨-, herror⟩
      · cases huse.symm.trans hok
        exact ⟨rfl, hcounted⟩
      · cases huse.symm.trans herror
    exact ⟨fun ha => (hlamest ha).1, hothers rfl (fun hr' => (hlamest ((ThrottlerSettings.of_useLamest huse).2.1.symm.trans hr')).2)⟩
  | notClaimed pre post lame p hnone hlame huse =>
    refine ⟨fun throttled records' heq => (by cases heq), fun p heq ha => ?_⟩
    cases heq
    rcases counted_useLamest ha hrest hbehaved hsettings with ⟨record', hok, -⟩ | ⟨hoverflow, herror⟩
    · cases huse.symm.trans hok
    · cases huse.symm.trans herror
      exact ⟨hoverflow, rfl⟩

end

/-! ## Every packet -/

/-- A call before the others that is answered. -/
theorem Throttler.NeverThrottles.cons {n : Nat} {self self' : Throttler n} {a : IpAddr} {call : ThrottleCall} {rest : List ThrottleCall}
    {throttled : Bool} (hcheck : self.checkThrottle call.ip (some call.now) none call.clock = .ok (throttled, self'))
    (hsame : self'.toThrottlerSettings = self.toThrottlerSettings) (hfalse : call.ip = a → throttled = false)
    (h : self'.NeverThrottles a rest) : self.NeverThrottles a (call :: rest) := by
  intro before c after answers hsplit hip hanswers
  rcases List.cons_eq_append_iff.mp hsplit with ⟨rfl, hcons⟩ | ⟨before, rfl, hrest⟩
  · cases hcons
    cases hanswers
    refine .inl ?_
    rw [List.nil_append, answers_cons hcheck, hfalse hip]
    rfl
  · rw [answers_cons hcheck] at hanswers
    obtain ⟨answers', hanswers', rfl⟩ := Checks.map_eq_ok.mp hanswers
    rw [List.cons_append, answers_cons hcheck]
    rcases h before c after answers' hrest hip hanswers' with hok | ⟨hoverflow, herror⟩
    · refine .inl ?_
      rw [hok]
      rfl
    · refine .inr ⟨hsame ▸ hoverflow, ?_⟩
      rw [herror]
      rfl

/-- A call before the others that panics. -/
theorem Throttler.NeverThrottles.cons_error {n : Nat} {self : Throttler n} {a : IpAddr} {call : ThrottleCall} {rest : List ThrottleCall}
    {p : Panic} (hcheck : self.checkThrottle call.ip (some call.now) none call.clock = .error p)
    (hoverflow : call.ip = a → Instant.max < call.now + self.period ∧ p = ⟨"overflow when adding duration to instant"⟩) :
    self.NeverThrottles a (call :: rest) := by
  intro before c after answers hsplit hip hanswers
  rcases List.cons_eq_append_iff.mp hsplit with ⟨rfl, hcons⟩ | ⟨before, rfl, hrest⟩
  · cases hcons
    obtain ⟨hlt, rfl⟩ := hoverflow hip
    exact .inr ⟨hlt, answers_cons_error hcheck []⟩
  · rw [answers_cons_error hcheck] at hanswers
    cases hanswers

/-- A throttler whose records of an address are counted never throttles it from then on. -/
theorem Throttler.neverThrottles_of_counted {n : Nat} (hn : 1 ≤ n) {a : IpAddr} (rest : List ThrottleCall) :
    ∀ (self : Throttler n) (past : List ThrottleCall),
      (∀ record ∈ self.records, record.ip = a → Counted self.period a past rest record) →
      NonDecreasing (past ++ rest) → (a = blankIp → rest.Pairwise (fun call later => call.clock 1 ≤ later.now + self.period)) →
      WellBehaved self.toThrottlerSettings a (past ++ rest) → (1 ≤ self.rateLimit ∨ 0 < self.period) → self.NeverThrottles a rest := by
  induction rest with
  | nil => exact fun self past _ _ _ _ _ before call after answers hsplit => absurd hsplit (by simp)
  | cons call rest ih =>
    intro self past h hmono hclock hbehaved hsettings
    have happend : past ++ call :: rest = (past ++ [call]) ++ rest := by rw [List.append_assoc, List.singleton_append]
    obtain ⟨-, hmono2, hmono3⟩ := List.pairwise_append.mp hmono
    have hprefix : WellBehaved self.toThrottlerSettings a (past ++ [call]) := by
      intro start
      refine Nat.le_trans ?_ (hbehaved start)
      rw [happend]
      exact (List.sublist_append_left _ _).countP_le
    have hpast : ∀ c ∈ past, c.now ≤ call.now := fun c hc => hmono3 c hc call List.mem_cons_self
    have hrest := (List.pairwise_cons.mp hmono2).1
    have hread : a = blankIp → ∀ c ∈ rest, call.clock 1 ≤ c.now + self.period := fun ha => (List.pairwise_cons.mp (hclock ha)).1
    rcases checkThrottle_checked hn self call with ⟨throttled, self', hcheck, hsame, hchecked⟩ | ⟨p, hcheck, hchecked⟩
    · have hcounted := hchecked.counted h hpast hrest hread hprefix hsettings
      obtain ⟨hfalse, hrecords⟩ := hcounted.1 throttled self'.records rfl
      refine NeverThrottles.cons hcheck hsame hfalse (ih self' (past ++ [call]) (hsame ▸ hrecords) (happend ▸ hmono) (fun ha => ?_)
        (hsame ▸ happend ▸ hbehaved) (hsame ▸ hsettings))
      exact hsame ▸ (List.pairwise_cons.mp (hclock ha)).2
    · have hcounted := hchecked.counted h hpast hrest hread hprefix hsettings
      exact NeverThrottles.cons_error hcheck (hcounted.2 p rfl)

/-- After a call that is answered the others are not throttled. -/
theorem Throttler.NeverThrottles.tail {n : Nat} {self self' : Throttler n} {a : IpAddr} {call : ThrottleCall} {rest : List ThrottleCall}
    {throttled : Bool} (h : self.NeverThrottles a (call :: rest))
    (hcheck : self.checkThrottle call.ip (some call.now) none call.clock = .ok (throttled, self'))
    (hsame : self'.toThrottlerSettings = self.toThrottlerSettings) : self'.NeverThrottles a rest := by
  intro before c after answers hsplit hip hanswers
  have hfirst : self.answers (call :: before) = .ok (throttled :: answers) := by
    rw [answers_cons hcheck, hanswers]
    rfl
  have hall := h (call :: before) c after _ (congrArg (call :: ·) hsplit) hip hfirst
  rw [List.cons_append, answers_cons hcheck] at hall
  cases hlast : self'.answers (before ++ [c]) with
  | ok answers' =>
    rw [hlast] at hall
    rcases hall with hok | ⟨-, herror⟩
    · cases hok
      exact .inl rfl
    · cases herror
  | error p =>
    rw [hlast] at hall
    rcases hall with hok | ⟨hoverflow, herror⟩
    · cases hok
    · cases herror
      exact .inr ⟨hsame ▸ hoverflow, rfl⟩

/-- Where the period and the timeout can be added to the times of the calls, all are answered. -/
theorem Throttler.NeverThrottles.neverBlocks {n : Nat} (hn : 1 ≤ n) {a : IpAddr} (calls : List ThrottleCall) :
    ∀ self : Throttler n, self.NeverThrottles a calls → (∀ call ∈ calls, self.Fits call.now) → self.NeverBlocks a calls := by
  induction calls with
  | nil => exact fun self _ _ => ⟨[], rfl, .nil⟩
  | cons call rest ih =>
    intro self h hfits
    have hcall := hfits call List.mem_cons_self
    obtain ⟨throttled, self', hcheck, hsame, -⟩ := checkThrottle_ok hn self hcall
    obtain ⟨answers, hanswers, hall⟩ := ih self' (h.tail hcheck hsame) (fun c hc => hsame ▸ hfits c (List.mem_cons_of_mem _ hc))
    have hfalse : call.ip = a → throttled = false := by
      intro hip
      have hfirst := h [] call rest [] rfl hip rfl
      rw [List.nil_append, answers_cons hcheck] at hfirst
      rcases hfirst with hok | ⟨hoverflow, -⟩
      · cases hok
        rfl
      · exact absurd hcall.period (Nat.not_le.mpr hoverflow)
    refine ⟨throttled :: answers, ?_, .cons hfalse hall⟩
    rw [answers_cons hcheck, hanswers]
    rfl

/-- A new throttler never throttles a well-behaved address. -/
theorem Throttler.new_neverThrottles {n : Nat} (hn : 1 ≤ n) {settings : ThrottlerSettings}
    (hsettings : 1 ≤ settings.rateLimit ∨ 0 < settings.period) {start : Instant} {calls : List ThrottleCall}
    (hmono : NonDecreasing calls) {a : IpAddr} (hclock : a = blankIp → ClockKeepsUp settings.period start calls)
    (hbehaved : WellBehaved settings a calls) : (Throttler.new n settings start).NeverThrottles a calls := by
  refine neverThrottles_of_counted hn calls (.new n settings start) [] (fun record hrecord hip => ?_) hmono
    (fun ha => (hclock ha).2) hbehaved hsettings
  obtain ⟨-, rfl⟩ := List.mem_replicate.mp hrecord
  exact ⟨Nat.zero_le _, fun c hc => (hclock hip.symm).1 c hc⟩

/-- For every configuration that lets a packet through or has a period, and every sequence of calls with non-decreasing times, an
address that sends no more packets than the limit in any window of the period is never throttled: every call for it that is reached is
answered with no, or panics because the period cannot be added to its time; and where the period and the timeout can be added to the
times of all calls, all are answered. For the address of blank records this takes that what the clock read is never more than a period
ahead of a later packet. -/
theorem neverBlocks_wellBehaved {n : Nat} (hn : 1 ≤ n) (settings : ThrottlerSettings)
    (hsettings : 1 ≤ settings.rateLimit ∨ 0 < settings.period) (start : Instant) (calls : List ThrottleCall)
    (hmono : NonDecreasing calls) (a : IpAddr) (hclock : a = blankIp → ClockKeepsUp settings.period start calls)
    (hbehaved : WellBehaved settings a calls) :
    (Throttler.new n settings start).NeverThrottles a calls ∧
      ((∀ call ∈ calls, settings.Fits call.now) → (Throttler.new n settings start).NeverBlocks a calls) := by
  have h := Throttler.new_neverThrottles hn hsettings hmono hclock hbehaved
  exact ⟨h, h.neverBlocks hn calls _⟩

/-- One packet in each period, with a packet of another address in between that takes the only record. -/
theorem neverBlocks_wellBehaved_two :
    (Throttler.new 1 { rateLimit := 1, period := 5, naughtyTimeout := 10, maxTracking := 100 } 0).NeverBlocks (.v4 ⟨1, 2, 3, 4⟩)
      [⟨.v4 ⟨1, 2, 3, 4⟩, 1, fun _ => 1⟩, ⟨.v4 ⟨5, 6, 7, 8⟩, 2, fun _ => 2⟩, ⟨.v4 ⟨1, 2, 3, 4⟩, 6, fun _ => 6⟩] := by
  refine (neverBlocks_wellBehaved (Nat.le_refl 1) _ (Or.inl (Nat.le_refl 1)) 0 _ ?_ _ (fun h => ?_) (fun start => ?_)).2 ?_
  · simp [NonDecreasing]
  · exact absurd h (by decide)
  · simp [List.countP_cons]
    grind
  · simp only [List.forall_mem_cons, List.not_mem_nil, false_implies, implies_true, and_true]
    exact ⟨⟨by decide, by decide⟩, ⟨by decide, by decide⟩, by decide, by decide⟩

/-- Nothing else holds in general. A limit of zero packets in periods of no length blocks every packet, though no window holds any.
Packets from the address of blank records that are dated long before the throttler was made are counted together, though they are
further apart than the period. And a packet at a time that the period cannot be added to is not answered. -/
theorem not_neverBlocks_wellBehaved :
    (let settings : ThrottlerSettings := { rateLimit := 0, period := 0, naughtyTimeout := 0, maxTracking := 10 }
      let calls : List ThrottleCall := [⟨.v4 ⟨1, 2, 3, 4⟩, 5, fun _ => 5⟩]
      NonDecreasing calls ∧ WellBehaved settings (.v4 ⟨1, 2, 3, 4⟩) calls ∧
        ¬(Throttler.new 1 settings 0).NeverBlocks (.v4 ⟨1, 2, 3, 4⟩) calls) ∧
    (let settings : ThrottlerSettings := { rateLimit := 1, period := 5, naughtyTimeout := 0, maxTracking := 1000 }
      let calls : List ThrottleCall := [⟨blankIp, 0, fun _ => 100⟩, ⟨blankIp, 10, fun _ => 100⟩]
      NonDecreasing calls ∧ WellBehaved settings blankIp calls ∧ ¬(Throttler.new 1 settings 100).NeverBlocks blankIp calls) ∧
    (let settings : ThrottlerSettings :=
        { rateLimit := 1, period := Duration.fromSecs (2 ^ 64 - 1), naughtyTimeout := 0, maxTracking := 10 }
      let calls : List ThrottleCall := [⟨.v4 ⟨1, 2, 3, 4⟩, Duration.fromSecs 1, fun _ => 0⟩]
      NonDecreasing calls ∧ WellBehaved settings (.v4 ⟨1, 2, 3, 4⟩) calls ∧
        ¬(Throttler.new 1 settings 0).NeverBlocks (.v4 ⟨1, 2, 3, 4⟩) calls) := by
  refine ⟨⟨?_, fun start => ?_, ?_⟩, ⟨?_, fun start => ?_, ?_⟩, ?_, fun start => ?_, ?_⟩
  · simp [NonDecreasing]
  · simp
  · rintro ⟨answers, hanswers, hall⟩
    obtain rfl : [true] = answers := Except.ok.inj hanswers
    exact Bool.false_ne_true ((List.forall₂_cons.mp hall).1 rfl).symm
  · simp [NonDecreasing]
  · simp [List.countP_cons]
    grind
  · rintro ⟨answers, hanswers, hall⟩
    obtain rfl : [false, true] = answers := Except.ok.inj hanswers
    exact Bool.false_ne_true ((List.forall₂_cons.mp (List.forall₂_cons.mp hall).2).1 rfl).symm
  · simp [NonDecreasing]
  · exact List.countP_le_length
  · rintro ⟨answers, hanswers, -⟩
    cases hanswers

end RustyDht
