import RustyDht.Lemmas.Throttler
import Mathlib.Data.Finset.Card
import Mathlib.Logic.Function.Basic

/-!
# Separate records

What the throttler is for: a record for each address, on its own. While there are no more addresses than records, the throttler answers
as separate records do, for every sequence of packets, if 127.0.0.1 is not among the addresses: blank records carry that address, so
a packet from it is counted on a record that was never its own. With it among the addresses some sequence is answered otherwise, unless
the limit lets everything through, or nothing. And what is added to the time of a packet has to be an instant.
-/

namespace RustyDht

/-! ## A record for each address -/

/-- A packet of an address that has a record of its own, or none: the first packet, and the first after a reset, makes one. -/
def ThrottlerSettings.checkAlone (self : ThrottlerSettings) (record : Option ThrottlerRecord) (call : ThrottleCall) :
    Except Panic (Bool × Option ThrottlerRecord) :=
  match record with
  | none => do
    let (throttled, record) ← self.useLamest call.ip call.now none
    return (throttled, some record)
  | some found =>
    if self.trackedTooLong found call.now then return (false, none)
    else do
      let (throttled, record) ← self.useFound found call.now none
      return (throttled, some record)

/-- What separate records answer to calls, one after the other. -/
def ThrottlerSettings.answersAlone (self : ThrottlerSettings) (table : IpAddr → Option ThrottlerRecord) :
    List ThrottleCall → Except Panic (List Bool)
  | [] => .ok []
  | call :: calls => do
    let (throttled, record) ← self.checkAlone (table call.ip) call
    let rest ← self.answersAlone (Function.update table call.ip record) calls
    return throttled :: rest

/-- A throttler with `n` records treats each of some addresses on its own: whenever it was made, and whatever the clock reads, it answers
every sequence of calls with non-decreasing times from these addresses, up to the latest time, as separate records do. -/
def ThrottlerSettings.TreatsAlone (self : ThrottlerSettings) (n : Nat) (addresses : Finset IpAddr) (latest : Instant) : Prop :=
  ∀ (start : Instant) (calls : List ThrottleCall), NonDecreasing calls →
    (∀ call ∈ calls, call.ip ∈ addresses ∧ call.now ≤ latest) →
    ∃ answers, (Throttler.new n self start).answers calls = .ok answers ∧ self.answersAlone (fun _ => none) calls = .ok answers

section

variable {settings : ThrottlerSettings} {table : IpAddr → Option ThrottlerRecord} {call : ThrottleCall} {calls : List ThrottleCall}
  {throttled : Bool} {record found : ThrottlerRecord} {entry : Option ThrottlerRecord} {answers : List Bool}

/-- An address without a record gets one. -/
theorem checkAlone_none (huse : settings.useLamest call.ip call.now none = .ok (throttled, record)) :
    settings.checkAlone none call = .ok (throttled, some record) := by
  rw [ThrottlerSettings.checkAlone, huse]
  rfl

/-- A packet is counted on the record of its address. -/
theorem checkAlone_some (htracked : settings.trackedTooLong found call.now = false)
    (huse : settings.useFound found call.now none = .ok (throttled, record)) :
    settings.checkAlone (some found) call = .ok (throttled, some record) := by
  rw [ThrottlerSettings.checkAlone, if_neg (Bool.eq_false_iff.mp htracked), huse]
  rfl

/-- What the first of some calls is answered, and the others then. -/
theorem answersAlone_cons (hcheck : settings.checkAlone (table call.ip) call = .ok (throttled, entry)) (calls : List ThrottleCall) :
    settings.answersAlone table (call :: calls) =
      (settings.answersAlone (Function.update table call.ip entry) calls).map (throttled :: ·) := by
  rw [ThrottlerSettings.answersAlone, hcheck]
  exact Checks.bind_pure_eq_map (settings.answersAlone (Function.update table call.ip entry) calls) (throttled :: ·)

/-- Where the first of some calls panics, there are no answers. -/
theorem answersAlone_cons_error {p : Panic} (hcheck : settings.checkAlone (table call.ip) call = .error p) (calls : List ThrottleCall) :
    settings.answersAlone table (call :: calls) = .error p := by
  rw [ThrottlerSettings.answersAlone, hcheck]
  rfl

/-- Where some calls are answered, the first is, and the others then. -/
theorem of_answersAlone_cons (h : settings.answersAlone table (call :: calls) = .ok answers) : ∃ throttled entry rest,
    settings.checkAlone (table call.ip) call = .ok (throttled, entry) ∧
      settings.answersAlone (Function.update table call.ip entry) calls = .ok rest ∧ answers = throttled :: rest := by
  obtain ⟨⟨throttled, entry⟩, hcheck, hrest⟩ := Checks.bind_eq_ok.mp h
  obtain ⟨rest, hrest, hanswers⟩ := Checks.bind_eq_ok.mp hrest
  exact ⟨throttled, entry, rest, hcheck, hrest, (Except.ok.inj hanswers).symm⟩

/-- A packet is throttled only where the timeout can be added to its time. -/
theorem fits_of_checkAlone {entry' : Option ThrottlerRecord} (h : settings.checkAlone entry call = .ok (true, entry')) :
    call.now + settings.naughtyTimeout ≤ Instant.max := by
  cases entry with
  | none =>
    obtain ⟨⟨throttled, record⟩, huse, hok⟩ := Checks.bind_eq_ok.mp h
    cases hok
    exact (ThrottlerSettings.of_useLamest huse).1.fits rfl
  | some found =>
    by_cases htracked : settings.trackedTooLong found call.now = true
    · rw [ThrottlerSettings.checkAlone, if_pos htracked] at h
      cases h
    · rw [ThrottlerSettings.checkAlone, if_neg htracked] at h
      obtain ⟨⟨throttled, record⟩, huse, hok⟩ := Checks.bind_eq_ok.mp h
      cases hok
      exact (ThrottlerSettings.of_useFound huse).1.fits rfl

/-- Where a packet is throttled, the timeout can be added to the time of one. -/
theorem fits_of_answersAlone (calls : List ThrottleCall) : ∀ (table : IpAddr → Option ThrottlerRecord) (answers : List Bool),
    settings.answersAlone table calls = .ok answers → true ∈ answers →
      ∃ call ∈ calls, call.now + settings.naughtyTimeout ≤ Instant.max := by
  induction calls with
  | nil =>
    intro table answers h htrue
    cases h
    exact absurd htrue List.not_mem_nil
  | cons call calls ih =>
    intro table answers h htrue
    obtain ⟨throttled, entry, rest, hcheck, hrest, rfl⟩ := of_answersAlone_cons h
    rcases List.mem_cons.mp htrue with rfl | htrue
    · exact ⟨call, List.mem_cons_self, fits_of_checkAlone hcheck⟩
    · obtain ⟨c, hc, hfits⟩ := ih _ _ hrest htrue
      exact ⟨c, List.mem_cons_of_mem _ hc, hfits⟩

end

/-! ## Addresses other than that of blank records -/

/-- A record is blank, or the one of its address. -/
inductive OfAddress (addresses : Finset IpAddr) (table : IpAddr → Option ThrottlerRecord) (record : ThrottlerRecord) : Prop
  | blank (hip : record.ip = blankIp) (hpackets : record.packets = 0)
  | live (hip : record.ip ∈ addresses) (htable : table record.ip = some record) (hpackets : 1 ≤ record.packets)

/-- The records of a throttler are the separate ones of some addresses, each once, and blank ones. -/
structure Separate (addresses : Finset IpAddr) (records : List ThrottlerRecord) (table : IpAddr → Option ThrottlerRecord) : Prop where
  each : ∀ record ∈ records, OfAddress addresses table record
  all : ∀ a record, table a = some record → record ∈ records ∧ record.ip = a ∧ 1 ≤ record.packets
  once : records.Pairwise (fun record other => record.ip = other.ip → record.ip = blankIp)

section

variable {settings : ThrottlerSettings} {addresses : Finset IpAddr} {table : IpAddr → Option ThrottlerRecord} {call : ThrottleCall}
  {throttled : Bool} {pre post records : List ThrottlerRecord} {r r' : ThrottlerRecord} {a : IpAddr}

/-- While an address without a record comes in, there is a blank record. -/
theorem Separate.exists_blank (h : Separate addresses records table) (hblank : blankIp ∉ addresses)
    (hcard : addresses.card ≤ records.length) (ha : a ∈ addresses) (hnone : ∀ record ∈ records, record.ip ≠ a) :
    ∃ record ∈ records, record.packets = 0 := by
  by_contra hno
  have hlive : ∀ record ∈ records, record.ip ∈ addresses := by
    intro record hrecord
    cases h.each record hrecord with
    | blank hip hpackets => exact absurd ⟨record, hrecord, hpackets⟩ hno
    | live hip htable hpackets => exact hip
  have hnodup : (records.map (·.ip)).Nodup := by
    refine List.pairwise_map.mpr (h.once.imp_of_mem (fun hr _ himp heq => ?_))
    exact hblank (himp heq ▸ hlive _ hr)
  have hsub : (records.map (·.ip)).toFinset ⊆ addresses.erase a := by
    intro b hb
    obtain ⟨record, hrecord, rfl⟩ := List.mem_map.mp (List.mem_toFinset.mp hb)
    exact Finset.mem_erase.mpr ⟨hnone record hrecord, hlive record hrecord⟩
  have hle := Finset.card_le_card hsub
  rw [List.toFinset_card_of_nodup hnodup, List.length_map, Finset.card_erase_of_mem ha] at hle
  have hpos := Finset.card_pos.mpr ⟨a, ha⟩
  omega

/-- The records with one at its place: that one, and the others. -/
theorem mem_middle_iff {record : ThrottlerRecord} : record ∈ pre ++ r :: post ↔ record = r ∨ record ∈ pre ++ post := by
  rw [List.perm_middle.mem_iff, List.mem_cons]

/-- One record is written: the one of an address, or a blank one that becomes it, while the address has no other. -/
theorem Separate.write (h : Separate addresses (pre ++ r :: post) table) (hothers : ∀ record ∈ pre ++ post, record.ip ≠ a)
    (hr : r.ip = a ∨ r.packets = 0) {entry : Option ThrottlerRecord}
    (hr' : (entry = none ∧ r'.ip = blankIp ∧ r'.packets = 0) ∨
      (entry = some r' ∧ r'.ip = a ∧ a ∈ addresses ∧ 1 ≤ r'.packets)) :
    Separate addresses (pre ++ r' :: post) (Function.update table a entry) := by
  refine ⟨fun record hrecord => ?_, fun b record hb => ?_, ?_⟩
  · rcases mem_middle_iff.mp hrecord with rfl | hm
    · rcases hr' with ⟨-, hip, hpackets⟩ | ⟨hentry, hip, ha, hpackets⟩
      · exact .blank hip hpackets
      · exact .live (hip ▸ ha) (by rw [hip, Function.update_self, hentry]) hpackets
    · cases h.each record (mem_middle_iff.mpr (Or.inr hm)) with
      | blank hip hpackets => exact .blank hip hpackets
      | live hip htable hpackets => exact .live hip (by rw [Function.update_of_ne (hothers record hm), htable]) hpackets
  · by_cases hba : b = a
    · subst hba
      rw [Function.update_self] at hb
      rcases hr' with ⟨hentry, -, -⟩ | ⟨hentry, hip, ha, hpackets⟩
      · exact nomatch hb.symm.trans hentry
      · obtain rfl : record = r' := Option.some.inj (hb.symm.trans hentry)
        exact ⟨mem_middle_iff.mpr (Or.inl rfl), hip, hpackets⟩
    · rw [Function.update_of_ne hba] at hb
      obtain ⟨hrecord, hip, hpackets⟩ := h.all b record hb
      rcases mem_middle_iff.mp hrecord with rfl | hm
      · rcases hr with hr | hr
        · exact absurd (hip.symm.trans hr) hba
        · rw [hr] at hpackets
          exact absurd hpackets (Nat.not_succ_le_zero 0)
      · exact ⟨mem_middle_iff.mpr (Or.inr hm), hip, hpackets⟩
  · obtain ⟨hpre, hpost, hcross⟩ := List.pairwise_append.mp h.once
    have hip : r'.ip = blankIp ∨ r'.ip = a := by
      rcases hr' with ⟨-, hip, -⟩ | ⟨-, hip, -⟩
      · exact Or.inl hip
      · exact Or.inr hip
    refine List.pairwise_append.mpr ⟨hpre, List.pairwise_cons.mpr ⟨fun q hq heq => ?_, (List.pairwise_cons.mp hpost).2⟩,
      fun q hq q' hq' heq => ?_⟩
    · rcases hip with hip | hip
      · exact hip
      · exact absurd (heq.symm.trans hip) (hothers q (List.mem_append_right _ hq))
    · rcases List.mem_cons.mp hq' with rfl | hq'
      · rcases hip with hip | hip
        · exact heq.trans hip
        · exact absurd (heq.trans hip) (hothers q (List.mem_append_left _ hq))
      · exact hcross q hq q' (List.mem_cons_of_mem _ hq') heq

/-- A call is answered as by the separate record of its address, and leaves the records separate; or it panics as that does. -/
theorem Separate.checked {result : Except Panic (Bool × List ThrottlerRecord)} (h : Separate addresses records table)
    (hblank : blankIp ∉ addresses) (hcard : addresses.card ≤ records.length) (ha : call.ip ∈ addresses)
    (hchecked : Checked settings call records result) :
    (∃ throttled records' entry, result = .ok (throttled, records') ∧
      settings.checkAlone (table call.ip) call = .ok (throttled, entry) ∧
      Separate addresses records' (Function.update table call.ip entry)) ∨
    ∃ p, result = .error p ∧ settings.checkAlone (table call.ip) call = .error p := by
  have hne : call.ip ≠ blankIp := fun heq => hblank (heq ▸ ha)
  -- The record found is the only one of its address.
  have hfound : ∀ {pre post : List ThrottlerRecord} {found : ThrottlerRecord}, records = pre ++ found :: post →
      (∀ record ∈ pre, record.ip ≠ call.ip) → found.ip = call.ip →
      table call.ip = some found ∧ ∀ record ∈ pre ++ post, record.ip ≠ call.ip := by
    rintro pre post found rfl hpre hip
    constructor
    · cases h.each found (List.mem_append_right _ List.mem_cons_self) with
      | blank hip' hpackets => exact absurd (hip.symm.trans hip') hne
      | live hip' htable hpackets => exact hip ▸ htable
    · intro record hrecord heq
      rcases List.mem_append.mp hrecord with hm | hm
      · exact hpre record hm heq
      · have hpost := (List.pairwise_append.mp h.once).2.1
        exact hne (hip.symm.trans ((List.pairwise_cons.mp hpost).1 record hm (hip.trans heq.symm)))
  -- Where none is found, the address has no separate record.
  have hnot : (∀ record ∈ records, record.ip ≠ call.ip) → table call.ip = none := by
    intro hnone
    cases htable : table call.ip with
    | none => rfl
    | some found =>
      obtain ⟨hfound, hip, -⟩ := h.all _ _ htable
      exact absurd hip (hnone found hfound)
  cases hchecked with
  | cleared pre post found hpre hip htracked =>
    obtain ⟨htable, hothers⟩ := hfound rfl hpre hip
    rw [htable, ThrottlerSettings.checkAlone, if_pos htracked]
    exact .inl ⟨false, _, none, rfl, rfl, h.write hothers (Or.inl hip) (Or.inl ⟨rfl, rfl, rfl⟩)⟩
  | used pre post found record throttled hpre hip htracked huse =>
    obtain ⟨htable, hothers⟩ := hfound rfl hpre hip
    obtain ⟨-, hip', -, hpackets⟩ := ThrottlerSettings.of_useFound huse
    rw [htable, checkAlone_some htracked huse]
    refine .inl ⟨throttled, _, some record, rfl, rfl, h.write hothers (Or.inl hip) (Or.inr ⟨rfl, hip'.trans hip, ha, ?_⟩)⟩
    rw [hpackets]
    split
    · exact PacketCount.addOrMax_one_pos _
    · exact Nat.le_refl 1
  | notUsed pre post found p hpre hip htracked huse =>
    obtain ⟨htable, -⟩ := hfound rfl hpre hip
    rw [htable, ThrottlerSettings.checkAlone, if_neg (Bool.eq_false_iff.mp htracked), huse]
    exact .inr ⟨p, rfl, rfl⟩
  | claimed pre post lame record throttled hnone hlame huse =>
    obtain ⟨empty, hempty, hzero⟩ := h.exists_blank hblank hcard ha hnone
    have hlame0 : lame.packets = 0 := Nat.le_zero.mp (hzero ▸ hlame empty hempty)
    obtain ⟨-, hip', -, hpackets⟩ := ThrottlerSettings.of_useLamest huse
    have hothers : ∀ record ∈ pre ++ post, record.ip ≠ call.ip := fun record hm => hnone record (mem_middle_iff.mpr (Or.inr hm))
    rw [hnot hnone, checkAlone_none huse]
    exact .inl ⟨throttled, _, some record, rfl, rfl,
      h.write hothers (Or.inr hlame0) (Or.inr ⟨rfl, hip', ha, Nat.le_of_eq hpackets.symm⟩)⟩
  | notClaimed pre post lame p hnone hlame huse =>
    rw [hnot hnone, ThrottlerSettings.checkAlone, huse]
    exact .inr ⟨p, rfl, rfl⟩

/-- From separate records on, every sequence of calls is answered as by separate records. -/
theorem Throttler.answers_of_separate {n : Nat} (hn : 1 ≤ n) (hblank : blankIp ∉ addresses) (hcard : addresses.card ≤ n)
    (calls : List ThrottleCall) : ∀ (self : Throttler n) (table : IpAddr → Option ThrottlerRecord),
      Separate addresses self.records table → (∀ call ∈ calls, call.ip ∈ addresses) →
      self.answers calls = self.answersAlone table calls := by
  induction calls with
  | nil => exact fun self table _ _ => rfl
  | cons call calls ih =>
    intro self table h hcalls
    have hrest := fun c hc => hcalls c (List.mem_cons_of_mem _ hc)
    rcases checkThrottle_checked hn self call with ⟨throttled, self', hcheck, hsame, hchecked⟩ | ⟨p, hcheck, hchecked⟩
    · rcases h.checked hblank (self.size.symm ▸ hcard) (hcalls call List.mem_cons_self) hchecked with
        ⟨throttled', records', entry, heq, halone, hseparate⟩ | ⟨p, heq, -⟩
      · cases heq
        rw [answers_cons hcheck, answersAlone_cons halone, ih self' _ hseparate hrest, hsame]
      · cases heq
    · rcases h.checked hblank (self.size.symm ▸ hcard) (hcalls call List.mem_cons_self) hchecked with
        ⟨throttled', records', entry, heq, -, -⟩ | ⟨p', heq, halone⟩
      · cases heq
      · cases heq
        rw [answers_cons_error hcheck, answersAlone_cons_error halone]

/-- The records of a new throttler are blank. -/
theorem new_separate (n : Nat) (settings : ThrottlerSettings) (start : Instant) :
    Separate addresses (Throttler.new n settings start).records (fun _ => none) where
  each record hrecord := by
    obtain ⟨-, rfl⟩ := List.mem_replicate.mp hrecord
    exact .blank rfl rfl
  all _ _ h := nomatch h
  once := List.pairwise_replicate.mpr (Or.inr (fun _ => rfl))

/-! ## Where separate records do not panic -/

/-- Where what is added to the time of a packet is in range, it is answered. -/
theorem checkAlone_ok (hfits : settings.Fits call.now) (entry : Option ThrottlerRecord) :
    ∃ throttled entry', settings.checkAlone entry call = .ok (throttled, entry') := by
  cases entry with
  | none =>
    obtain ⟨p, huse⟩ := settings.useLamest_ok hfits call.ip
    exact ⟨p.1, some p.2, checkAlone_none huse⟩
  | some found =>
    cases htracked : settings.trackedTooLong found call.now with
    | true => exact ⟨false, none, if_pos htracked⟩
    | false =>
      obtain ⟨p, huse⟩ := settings.useFound_ok hfits found
      exact ⟨p.1, some p.2, checkAlone_some htracked huse⟩

/-- Then every sequence of packets is answered. -/
theorem answersAlone_ok (calls : List ThrottleCall) : ∀ table : IpAddr → Option ThrottlerRecord,
    (∀ call ∈ calls, settings.Fits call.now) → ∃ answers, settings.answersAlone table calls = .ok answers := by
  induction calls with
  | nil => exact fun _ _ => ⟨[], rfl⟩
  | cons call calls ih =>
    intro table hfits
    obtain ⟨throttled, entry, hcheck⟩ := checkAlone_ok (hfits call List.mem_cons_self) (table call.ip)
    obtain ⟨answers, hanswers⟩ := ih (Function.update table call.ip entry) (fun c hc => hfits c (List.mem_cons_of_mem _ hc))
    exact ⟨throttled :: answers, by rw [answersAlone_cons hcheck, hanswers]; rfl⟩

/-- With periods of no length a record that has expired at the time of a packet has expired again after it. -/
theorem checkAlone_of_period (hperiod : settings.period = 0) (hlimit : 1 ≤ settings.rateLimit) (hnow : call.now ≤ Instant.max)
    {entry : Option ThrottlerRecord} (hentry : ∀ found, entry = some found → found.expiration ≤ call.now) :
    ∃ entry', settings.checkAlone entry call = .ok (false, entry') ∧ ∀ record, entry' = some record → record.expiration ≤ call.now := by
  have hfits : call.now + settings.period ≤ Instant.max := by rw [hperiod, Nat.add_zero]; exact hnow
  have hexpired : call.now + settings.period ≤ call.now := Nat.le_of_eq (by rw [hperiod, Nat.add_zero])
  cases entry with
  | none =>
    refine ⟨_, checkAlone_none (settings.useLamest_of_le hlimit hfits call.ip), fun record hrecord => ?_⟩
    cases hrecord
    exact hexpired
  | some found =>
    cases htracked : settings.trackedTooLong found call.now with
    | true => exact ⟨none, if_pos htracked, fun _ h => nomatch h⟩
    | false =>
      refine ⟨_, checkAlone_some htracked (settings.useFound_of_le (hentry found rfl) hlimit hfits), fun record hrecord => ?_⟩
      cases hrecord
      exact hexpired

/-- Then no sequence of packets is throttled. -/
theorem answersAlone_of_period (hperiod : settings.period = 0) (hlimit : 1 ≤ settings.rateLimit) (calls : List ThrottleCall) :
    ∀ table : IpAddr → Option ThrottlerRecord, NonDecreasing calls → (∀ call ∈ calls, call.now ≤ Instant.max) →
      (∀ a record, table a = some record → ∀ call ∈ calls, record.expiration ≤ call.now) →
      settings.answersAlone table calls = .ok (List.replicate calls.length false) := by
  induction calls with
  | nil => exact fun _ _ _ _ => rfl
  | cons call calls ih =>
    intro table hmono hmax htable
    obtain ⟨hcall, hmono⟩ := List.pairwise_cons.mp hmono
    obtain ⟨entry, hcheck, hentry⟩ := checkAlone_of_period hperiod hlimit (hmax call List.mem_cons_self)
      (fun found hfound => htable call.ip found hfound call List.mem_cons_self)
    rw [answersAlone_cons hcheck, ih _ hmono (fun c hc => hmax c (List.mem_cons_of_mem _ hc)) (fun a record hrecord c hc => ?_)]
    · rfl
    · by_cases ha : a = call.ip
      · subst ha
        rw [Function.update_self] at hrecord
        exact Nat.le_trans (hentry record hrecord) (hcall c hc)
      · rw [Function.update_of_ne ha] at hrecord
        exact htable a record hrecord c (List.mem_cons_of_mem _ hc)

/-! ## Packets that are all answered alike -/

/-- A packet is answered the same way, whatever record it is counted on; and it is counted, if it is throttled. -/
structure Decided (settings : ThrottlerSettings) (call : ThrottleCall) (throttled : Bool) : Prop where
  found : ∀ found, ∃ record, settings.useFound found call.now none = .ok (throttled, record)
  lamest : ∃ record, settings.useLamest call.ip call.now none = .ok (throttled, record)
  tracked : throttled = true → ∀ record, settings.trackedTooLong record call.now = false

/-- Where the limit is the maximal count, no packet is throttled. -/
theorem decided_of_max (hmax : PacketCount.max ≤ settings.rateLimit) (hfits : call.now + settings.period ≤ Instant.max) :
    Decided settings call false where
  found found := by
    by_cases hnow : call.now < found.expiration
    · exact ⟨_, settings.useFound_of_lt hnow (Nat.le_trans (PacketCount.addOrMax_le _ _) hmax)⟩
    · exact ⟨_, settings.useFound_of_le (Nat.le_of_not_lt hnow) (Nat.le_trans (Nat.le_of_ble_eq_true rfl) hmax) hfits⟩
  lamest := ⟨_, settings.useLamest_of_le (Nat.le_trans (Nat.le_of_ble_eq_true rfl) hmax) hfits call.ip⟩
  tracked h := nomatch h

/-- Where the limit is no packet, and no record can be tracked too long yet, every packet is throttled. -/
theorem decided_of_zero (hlimit : settings.rateLimit = 0) (htracked : call.now ≤ settings.maxTracking)
    (hfits : settings.Fits call.now) : Decided settings call true where
  found found := by
    obtain ⟨⟨throttled, record⟩, huse⟩ := settings.useFound_ok hfits found
    obtain ⟨hjudged, -, -, hpackets⟩ := ThrottlerSettings.of_useFound huse
    have hpos : record.packets > settings.rateLimit := by
      rw [hlimit, hpackets]
      split
      · exact PacketCount.addOrMax_one_pos _
      · exact Nat.zero_lt_one
    exact ⟨record, by rw [huse, hjudged.eq_decide, decide_eq_true hpos]⟩
  lamest := by
    obtain ⟨⟨throttled, record⟩, huse⟩ := settings.useLamest_ok hfits call.ip
    obtain ⟨hjudged, -, -, hpackets⟩ := ThrottlerSettings.of_useLamest huse
    have hpos : record.packets > settings.rateLimit := by
      rw [hlimit, hpackets]
      exact Nat.zero_lt_one
    exact ⟨record, by rw [huse, hjudged.eq_decide, decide_eq_true hpos]⟩
  tracked _ record := by
    rw [ThrottlerSettings.trackedTooLong_eq]
    exact decide_eq_false (Nat.not_lt.mpr (Nat.le_trans htracked (Nat.le_add_left _ _)))

/-- A separate record answers so. -/
theorem Decided.checkAlone (h : Decided settings call throttled) (entry : Option ThrottlerRecord) :
    ∃ entry', settings.checkAlone entry call = .ok (throttled, entry') := by
  cases entry with
  | none =>
    obtain ⟨record, huse⟩ := h.lamest
    exact ⟨some record, checkAlone_none huse⟩
  | some found =>
    cases htracked : settings.trackedTooLong found call.now with
    | true =>
      cases throttled with
      | true => exact absurd htracked (Bool.eq_false_iff.mp (h.tracked rfl found))
      | false => exact ⟨none, if_pos htracked⟩
    | false =>
      obtain ⟨record, huse⟩ := h.found found
      exact ⟨some record, checkAlone_some htracked huse⟩

/-- So do the records of a throttler. -/
theorem Decided.checked (h : Decided settings call throttled) {result : Except Panic (Bool × List ThrottlerRecord)}
    (hchecked : Checked settings call records result) : ∃ records', result = .ok (throttled, records') := by
  cases hchecked with
  | cleared pre post found hpre hip htracked =>
    cases throttled with
    | true => exact absurd htracked (Bool.eq_false_iff.mp (h.tracked rfl found))
    | false => exact ⟨_, rfl⟩
  | used pre post found record throttled' hpre hip htracked huse =>
    obtain ⟨record', huse'⟩ := h.found found
    cases huse.symm.trans huse'
    exact ⟨_, rfl⟩
  | notUsed pre post found p hpre hip htracked huse =>
    obtain ⟨record', huse'⟩ := h.found found
    cases huse.symm.trans huse'
  | claimed pre post lame record throttled' hnone hlame huse =>
    obtain ⟨record', huse'⟩ := h.lamest
    cases huse.symm.trans huse'
    exact ⟨_, rfl⟩
  | notClaimed pre post lame p hnone hlame huse =>
    obtain ⟨record', huse'⟩ := h.lamest
    cases huse.symm.trans huse'

theorem answersAlone_of_decided (calls : List ThrottleCall) : ∀ table : IpAddr → Option ThrottlerRecord,
    (∀ call ∈ calls, Decided settings call throttled) →
      settings.answersAlone table calls = .ok (List.replicate calls.length throttled) := by
  induction calls with
  | nil => exact fun _ _ => rfl
  | cons call calls ih =>
    intro table h
    obtain ⟨entry, hcheck⟩ := (h call List.mem_cons_self).checkAlone (table call.ip)
    rw [answersAlone_cons hcheck, ih _ (fun c hc => h c (List.mem_cons_of_mem _ hc))]
    rfl

theorem Throttler.answers_of_decided {n : Nat} (hn : 1 ≤ n) (calls : List ThrottleCall) : ∀ self : Throttler n,
    (∀ call ∈ calls, Decided self.toThrottlerSettings call throttled) →
      self.answers calls = .ok (List.replicate calls.length throttled) := by
  induction calls with
  | nil => exact fun _ _ => rfl
  | cons call calls ih =>
    intro self h
    have hcall := h call List.mem_cons_self
    rcases checkThrottle_checked hn self call with ⟨throttled', self', hcheck, hsame, hchecked⟩ | ⟨p, -, hchecked⟩
    · obtain ⟨records', heq⟩ := hcall.checked hchecked
      cases heq
      rw [answers_cons hcheck, ih self' (fun c hc => hsame ▸ h c (List.mem_cons_of_mem _ hc))]
      rfl
    · obtain ⟨records', heq⟩ := hcall.checked hchecked
      cases heq

end

/-! ## The address of blank records -/

section

variable {settings : ThrottlerSettings} {addresses : Finset IpAddr} {latest now : Instant} {call : ThrottleCall} {throttled : Bool}
  {found record : ThrottlerRecord} {answers : List Bool}

/-- What a record that is found answers to packets at one time. -/
def ThrottlerSettings.answersFound (self : ThrottlerSettings) (now : Instant) : ThrottlerRecord → Nat → Except Panic (List Bool)
  | _, 0 => .ok []
  | found, m + 1 => do
    let (throttled, record) ← self.useFound found now none
    let rest ← self.answersFound now record m
    return throttled :: rest

theorem answersFound_succ (huse : settings.useFound found now none = .ok (throttled, record)) (m : Nat) :
    settings.answersFound now found (m + 1) = (settings.answersFound now record m).map (throttled :: ·) := by
  rw [ThrottlerSettings.answersFound, huse]
  exact Checks.bind_pure_eq_map (settings.answersFound now record m) (throttled :: ·)

theorem answersFound_succ_error {p : Panic} (huse : settings.useFound found now none = .error p) (m : Nat) :
    settings.answersFound now found (m + 1) = .error p := by
  rw [ThrottlerSettings.answersFound, huse]
  rfl

/-- Counting a packet does not change whether a record is tracked too long. -/
theorem trackedTooLong_of_useFound (huse : settings.useFound found now none = .ok (throttled, record)) :
    settings.trackedTooLong record now = settings.trackedTooLong found now := by
  rw [ThrottlerSettings.trackedTooLong_eq, ThrottlerSettings.trackedTooLong_eq, (ThrottlerSettings.of_useFound huse).2.2.1]

/-- A throttler whose first record has the address counts a packet on it. -/
theorem Throttler.checkThrottle_found {n : Nat} {self : Throttler n} {rest : List ThrottlerRecord}
    (hrecords : self.records = found :: rest) (hip : found.ip = call.ip) (htracked : self.trackedTooLong found call.now = false) :
    self.checkThrottle call.ip (some call.now) none call.clock =
        (self.useFound found call.now none).bind (fun p => .ok (p.1, self.write 0 p.2)) ∧
      ∀ record, (self.write 0 record).records = record :: rest := by
  have hscan : scan call.ip self.records 0 none = .found 0 found := by
    rw [hrecords]
    exact scan_found hip rest [] 0 none (fun _ h => absurd h List.not_mem_nil)
  refine ⟨?_, fun record => ?_⟩
  · simp only [checkThrottle, hscan, Option.getD_some, htracked, Bool.false_eq_true, if_false]
    rfl
  · dsimp only [write]
    rw [hrecords, List.set_cons_zero]

/-- It answers with that record. -/
theorem Throttler.answers_found {n : Nat} (call : ThrottleCall) (m : Nat) : ∀ (self : Throttler n) (found : ThrottlerRecord)
    (rest : List ThrottlerRecord), self.records = found :: rest → found.ip = call.ip →
      self.trackedTooLong found call.now = false →
      self.answers (List.replicate m call) = self.answersFound call.now found m := by
  induction m with
  | zero => exact fun _ _ _ _ _ _ => rfl
  | succ m ih =>
    intro self found rest hrecords hip htracked
    obtain ⟨hcheck, hwritten⟩ := checkThrottle_found hrecords hip htracked
    cases huse : self.useFound found call.now none with
    | error p =>
      rw [huse] at hcheck
      rw [List.replicate_succ, answers_cons_error hcheck, answersFound_succ_error huse]
    | ok p =>
      rw [huse] at hcheck
      rw [List.replicate_succ, answers_cons hcheck, answersFound_succ huse]
      refine congrArg _ (ih _ _ rest (hwritten p.2) ?_ ?_)
      · exact (ThrottlerSettings.of_useFound huse).2.1.trans hip
      · exact (trackedTooLong_of_useFound huse).trans htracked

/-- So does the separate record of the address. -/
theorem answersAlone_found (call : ThrottleCall) (m : Nat) : ∀ (table : IpAddr → Option ThrottlerRecord) (found : ThrottlerRecord),
    table call.ip = some found → settings.trackedTooLong found call.now = false →
      settings.answersAlone table (List.replicate m call) = settings.answersFound call.now found m := by
  induction m with
  | zero => exact fun _ _ _ _ => rfl
  | succ m ih =>
    intro table found htable htracked
    cases huse : settings.useFound found call.now none with
    | error p =>
      have hcheck : settings.checkAlone (table call.ip) call = .error p := by
        rw [htable, ThrottlerSettings.checkAlone, if_neg (Bool.eq_false_iff.mp htracked), huse]
        rfl
      rw [List.replicate_succ, answersAlone_cons_error hcheck, answersFound_succ_error huse]
    | ok p =>
      have hcheck : settings.checkAlone (table call.ip) call = .ok (p.1, some p.2) := by
        rw [htable, checkAlone_some htracked huse]
      rw [List.replicate_succ, answersAlone_cons hcheck, answersFound_succ huse]
      exact congrArg _ (ih _ _ (Function.update_self _ _ _) ((trackedTooLong_of_useFound huse).trans htracked))

/-- A record that has counted no more than so many packets throttles none while the limit is not reached. -/
theorem answersFound_of_le (hfits : now + settings.period ≤ Instant.max) (m : Nat) : ∀ (k : Nat) (found : ThrottlerRecord),
    (now < found.expiration → found.packets ≤ k) → k + m ≤ settings.rateLimit →
      settings.answersFound now found m = .ok (List.replicate m false) := by
  induction m with
  | zero => exact fun _ _ _ _ => rfl
  | succ m ih =>
    intro k found hk hlimit
    have hrest : k + 1 + m ≤ settings.rateLimit := by omega
    by_cases hnow : now < found.expiration
    · have hpackets : PacketCount.addOrMax found.packets 1 ≤ k + 1 :=
        Nat.le_trans (PacketCount.addOrMax_le_add _ _) (Nat.add_le_add_right (hk hnow) 1)
      have huse := settings.useFound_of_lt hnow (Nat.le_trans hpackets (by omega))
      rw [answersFound_succ huse, ih (k + 1) _ (fun _ => hpackets) hrest]
      rfl
    · have huse := settings.useFound_of_le (Nat.le_of_not_lt hnow) (Nat.le_trans (Nat.le_add_left 1 (k + m)) hlimit) hfits
      rw [answersFound_succ huse, ih (k + 1) _ (fun _ => Nat.le_add_left 1 k) hrest]
      rfl

/-- A record that does not expire throttles the packet that goes beyond the limit. -/
theorem true_mem_answersFound (hmax : settings.rateLimit < PacketCount.max) (m : Nat) :
    ∀ (found : ThrottlerRecord) (answers : List Bool), now < found.expiration → found.packets + (m + 1) = settings.rateLimit + 1 →
      settings.answersFound now found (m + 1) = .ok answers → true ∈ answers := by
  induction m with
  | zero =>
    intro found answers hnow hk h
    obtain ⟨⟨throttled, record⟩, huse, hrest⟩ := Checks.bind_eq_ok.mp h
    obtain ⟨rest, -, hanswers⟩ := Checks.bind_eq_ok.mp hrest
    obtain ⟨hjudged, -, -, hpackets⟩ := ThrottlerSettings.of_useFound huse
    have hover : record.packets > settings.rateLimit := by
      rw [hpackets, if_pos hnow, PacketCount.addOrMax_of_le (hk ▸ hmax), hk]
      exact Nat.lt_succ_self _
    cases hanswers
    rw [hjudged.eq_decide, decide_eq_true hover]
    exact List.mem_cons_self
  | succ m ih =>
    intro found answers hnow hk h
    have hle : found.packets + 1 ≤ settings.rateLimit := by grind
    have hpackets : PacketCount.addOrMax found.packets 1 = found.packets + 1 :=
      PacketCount.addOrMax_of_le (Nat.le_trans hle (Nat.le_of_lt hmax))
    have huse := settings.useFound_of_lt hnow (hpackets.symm ▸ hle)
    rw [answersFound_succ huse] at h
    obtain ⟨rest, hrest, rfl⟩ := Checks.map_eq_ok.mp h
    have hcount : PacketCount.addOrMax found.packets 1 + (m + 1) = settings.rateLimit + 1 := by grind
    exact List.mem_cons_of_mem _ (ih { found with packets := PacketCount.addOrMax found.packets 1 } rest hnow hcount hrest)

/-- The first packet makes a separate record, which answers the others. -/
theorem answersAlone_first {first : ThrottleCall} (hlimit : 1 ≤ settings.rateLimit) (hfits : first.now + settings.period ≤ Instant.max)
    (hip : first.ip = call.ip) (htracked : call.now ≤ first.now + settings.maxTracking) (m : Nat) :
    settings.answersAlone (fun _ => none) (first :: List.replicate m call) = (settings.answersFound call.now
      { ip := first.ip, packets := 1, expiration := first.now + settings.period, creationTime := first.now } m).map (false :: ·) := by
  rw [answersAlone_cons (checkAlone_none (settings.useLamest_of_le hlimit hfits first.ip))]
  refine congrArg _ (answersAlone_found call m _ _ ?_ ?_)
  · rw [← hip, Function.update_self]
  · rw [ThrottlerSettings.trackedTooLong_eq]
    exact decide_eq_false (Nat.not_lt.mpr htracked)

/-- A packet makes a separate record only where the period can be added to its time. -/
theorem fits_of_checkAlone_none {p : Bool × Option ThrottlerRecord} (h : settings.checkAlone none call = .ok p) :
    call.now + settings.period ≤ Instant.max := by
  obtain ⟨p, huse, -⟩ := Checks.bind_eq_ok.mp h
  exact ThrottlerSettings.fits_of_useLamest huse

/-- Separate records throttle one packet more than the limit in a period. -/
theorem true_mem_answersAlone (hmax : settings.rateLimit < PacketCount.max) (hperiod : settings.rateLimit = 0 ∨ 0 < settings.period)
    (h : settings.answersAlone (fun _ => none) (List.replicate (settings.rateLimit + 1) call) = .ok answers) : true ∈ answers := by
  rw [List.replicate_succ] at h
  obtain ⟨throttled, entry, rest, hcheck, -, hanswers⟩ := of_answersAlone_cons h
  have hfits := fits_of_checkAlone_none hcheck
  by_cases hlimit : settings.rateLimit = 0
  · obtain ⟨⟨throttled', record⟩, huse, hok⟩ := Checks.bind_eq_ok.mp hcheck
    obtain ⟨hjudged, -, -, hpackets⟩ := ThrottlerSettings.of_useLamest huse
    cases hok
    rw [hanswers, hjudged.eq_decide, hpackets, hlimit]
    exact List.mem_cons_self
  · obtain ⟨m, hm⟩ : ∃ m, settings.rateLimit = m + 1 := ⟨settings.rateLimit - 1, (Nat.succ_pred hlimit).symm⟩
    rw [answersAlone_first (Nat.pos_of_ne_zero hlimit) hfits rfl (Nat.le_add_right _ _)] at h
    obtain ⟨rest', hfound, hcons⟩ := Checks.map_eq_ok.mp h
    rw [← hcons]
    refine List.mem_cons_of_mem _ (true_mem_answersFound hmax m _ rest' ?_ ?_ (hm ▸ hfound))
    · exact Nat.lt_add_of_pos_right (hperiod.resolve_left hlimit)
    · rw [hm, Nat.add_comm]

/-- A packet from the address of blank records, at a time that the clock reads then. -/
def blankCall (now : Instant) : ThrottleCall := ⟨blankIp, now, fun _ => now⟩

/-- The first packet of a sequence clears the blank record it finds, and is forgotten; one packet more than the limit is let through. -/
theorem Throttler.answers_swallowed {n : Nat} (hn : 1 ≤ n) (settings : ThrottlerSettings) (htracked : settings.maxTracking < now)
    (hfits : now + settings.period ≤ Instant.max) :
    (Throttler.new n settings 0).answers (List.replicate (settings.rateLimit + 1) (blankCall now)) =
      .ok (List.replicate (settings.rateLimit + 1) false) := by
  obtain ⟨n, rfl⟩ : ∃ m, n = m + 1 := ⟨n - 1, by omega⟩
  have hscan : scan blankIp (Throttler.new (n + 1) settings 0).records 0 none = .found 0 (.blank 0) :=
    scan_found rfl (List.replicate n (.blank 0)) [] 0 none (fun _ h => absurd h List.not_mem_nil)
  have htooLong : settings.trackedTooLong (.blank 0) now = true := by
    rw [ThrottlerSettings.trackedTooLong_eq]
    exact decide_eq_true (Nat.lt_of_le_of_lt (Nat.le_of_eq (Nat.zero_add _)) htracked)
  have hcheck : (Throttler.new (n + 1) settings 0).checkThrottle (blankCall now).ip (some (blankCall now).now) none
      (blankCall now).clock = .ok (false, (Throttler.new (n + 1) settings 0).write 0 (.blank now)) := by
    simp only [checkThrottle, blankCall, hscan, Option.getD_some]
    exact if_pos htooLong
  rw [List.replicate_succ, List.replicate_succ, answers_cons hcheck,
    answers_found _ _ _ (.blank now) (List.replicate n (.blank 0)) rfl rfl (ThrottlerSettings.trackedTooLong_self _ rfl)]
  exact congrArg _ (answersFound_of_le hfits _ 0 _ (fun h => absurd h (Nat.lt_irrefl _)) (Nat.le_of_eq (Nat.zero_add _)))

/-- A packet dated before the throttler was made is counted on a blank record, which expires when that was. -/
theorem Throttler.answers_ahead {n : Nat} (hn : 1 ≤ n) (settings : ThrottlerSettings) (hlimit : 1 ≤ settings.rateLimit) {start : Instant}
    (hstart : 0 < start) (m : Nat) :
    (Throttler.new n settings start).answers (blankCall 0 :: List.replicate m (blankCall 1)) =
      (settings.answersFound 1 { ThrottlerRecord.blank start with packets := 1 } m).map (false :: ·) := by
  obtain ⟨n, rfl⟩ : ∃ m, n = m + 1 := ⟨n - 1, by omega⟩
  have htracked : ∀ now, now ≤ 1 → ∀ record : ThrottlerRecord, record.creationTime = start →
      settings.trackedTooLong record now = false := by
    intro now hnow record hrecord
    rw [ThrottlerSettings.trackedTooLong_eq, hrecord]
    exact decide_eq_false (Nat.not_lt.mpr (Nat.le_trans hnow (Nat.le_trans hstart (Nat.le_add_right _ _))))
  have hblank : (Throttler.new (n + 1) settings start).records = .blank start :: List.replicate n (.blank start) := rfl
  have huse : settings.useFound (.blank start) 0 none = .ok (false, { ThrottlerRecord.blank start with packets := 1 }) :=
    settings.useFound_of_lt hstart hlimit
  have hip : (ThrottlerRecord.blank start).ip = (blankCall 0).ip := rfl
  have hnow : settings.trackedTooLong (.blank start) (blankCall 0).now = false := htracked 0 (Nat.zero_le 1) _ rfl
  obtain ⟨hcheck, hwritten⟩ := checkThrottle_found hblank hip hnow
  have hcheck : (Throttler.new (n + 1) settings start).checkThrottle (blankCall 0).ip (some (blankCall 0).now) none
      (blankCall 0).clock =
        .ok (false, (Throttler.new (n + 1) settings start).write 0 { ThrottlerRecord.blank start with packets := 1 }) := by
    rw [hcheck]
    exact congrArg (fun r : Except Panic (Bool × ThrottlerRecord) => r.bind _) huse
  rw [answers_cons hcheck]
  exact congrArg _ (answers_found (blankCall 1) m _ _ _ (hwritten _) rfl (htracked 1 (Nat.le_refl 1) _ rfl))

/-! ## What it takes -/

/-- Answers that are all no do not contain a yes. -/
theorem true_not_mem_replicate {m : Nat} (h : true ∈ List.replicate m false) : False :=
  Bool.false_ne_true (List.mem_replicate.mp h).2.symm

theorem nonDecreasing_replicate (m : Nat) (call : ThrottleCall) : NonDecreasing (List.replicate m call) :=
  List.pairwise_replicate.mpr (Or.inr (Nat.le_refl _))

/-- The period can be added to the latest time: a packet then is answered. -/
theorem treatsAlone_period {n : Nat} (h : settings.TreatsAlone n addresses latest) {a : IpAddr} (ha : a ∈ addresses) :
    latest + settings.period ≤ Instant.max := by
  obtain ⟨answers, -, halone⟩ := h 0 [⟨a, latest, fun _ => latest⟩] (List.pairwise_singleton _ _)
    (fun c hc => by rw [List.mem_singleton.mp hc]; exact ⟨ha, Nat.le_refl _⟩)
  obtain ⟨throttled, entry, rest, hcheck, -, -⟩ := of_answersAlone_cons halone
  exact fits_of_checkAlone_none hcheck

/-- The timeout can be added to the latest time, unless nothing is ever blocked: more packets than the limit are answered. -/
theorem treatsAlone_naughty {n : Nat} (h : settings.TreatsAlone n addresses latest) {a : IpAddr} (ha : a ∈ addresses)
    (hmax : settings.rateLimit < PacketCount.max) (hperiod : settings.rateLimit = 0 ∨ 0 < settings.period) :
    latest + settings.naughtyTimeout ≤ Instant.max := by
  obtain ⟨answers, -, halone⟩ := h 0 (List.replicate (settings.rateLimit + 1) ⟨a, latest, fun _ => latest⟩) (nonDecreasing_replicate _ _)
    (fun c hc => by rw [(List.mem_replicate.mp hc).2]; exact ⟨ha, Nat.le_refl _⟩)
  obtain ⟨c, hc, hfits⟩ := fits_of_answersAlone _ _ _ halone (true_mem_answersAlone hmax hperiod halone)
  rw [(List.mem_replicate.mp hc).2] at hfits
  exact hfits

/-- No record is tracked too long at the latest time, unless nothing is ever blocked: a packet that clears the blank record it finds is
not counted. -/
theorem treatsAlone_tracked {n : Nat} (hn : 1 ≤ n) (h : settings.TreatsAlone n addresses latest) (hblank : blankIp ∈ addresses)
    (hmax : settings.rateLimit < PacketCount.max) (hperiod : settings.rateLimit = 0 ∨ 0 < settings.period) :
    latest ≤ settings.maxTracking := by
  by_contra htracked
  obtain ⟨answers, hanswers, halone⟩ := h 0 _ (nonDecreasing_replicate (settings.rateLimit + 1) (blankCall latest))
    (fun c hc => by rw [(List.mem_replicate.mp hc).2]; exact ⟨hblank, Nat.le_refl _⟩)
  rw [Throttler.answers_swallowed hn settings (Nat.lt_of_not_le htracked) (treatsAlone_period h hblank)] at hanswers
  cases hanswers
  exact true_not_mem_replicate (true_mem_answersAlone hmax hperiod halone)

/-- With periods of no length the limit is zero, or nothing is ever blocked: packets dated before the throttler was made are counted
together. -/
theorem treatsAlone_of_period {n : Nat} (hn : 1 ≤ n) (h : settings.TreatsAlone n addresses latest) (hblank : blankIp ∈ addresses)
    (hmax : settings.rateLimit < PacketCount.max) (hperiod : settings.period = 0) : settings.rateLimit = 0 := by
  by_contra hlimit
  obtain ⟨n, rfl⟩ : ∃ m, n = m + 1 := ⟨n - 1, by omega⟩
  obtain ⟨answers, hanswers, halone⟩ := h 1 _ (nonDecreasing_replicate (settings.rateLimit + 1) (blankCall 0))
    (fun c hc => by rw [(List.mem_replicate.mp hc).2]; exact ⟨hblank, Nat.zero_le _⟩)
  rw [answersAlone_of_period hperiod (Nat.pos_of_ne_zero hlimit) _ _ (nonDecreasing_replicate _ _)
    (fun c hc => by rw [(List.mem_replicate.mp hc).2]; exact Nat.zero_le _) (fun _ _ h => by cases h)] at halone
  rw [Throttler.answers_found (blankCall 0) _ (.new (n + 1) settings 1) (.blank 1) (List.replicate n (.blank 1)) rfl rfl rfl] at hanswers
  cases halone
  exact true_not_mem_replicate (true_mem_answersFound hmax _ (.blank 1) _ Nat.zero_lt_one (Nat.zero_add _) hanswers)

/-- While no record is tracked too long, it is the same with any period: the blank record expires before the first period is over, or
after it. -/
theorem treatsAlone_of_tracked {n : Nat} (hn : 1 ≤ n) (h : settings.TreatsAlone n addresses latest) (hblank : blankIp ∈ addresses)
    (hlatest : 0 < latest) (hmax : settings.rateLimit < PacketCount.max) (htracked : latest ≤ settings.maxTracking) :
    settings.rateLimit = 0 := by
  by_contra hlimit
  have hlimit1 := Nat.pos_of_ne_zero hlimit
  have hfits : 1 + settings.period ≤ Instant.max := Nat.le_trans (Nat.add_le_add_right hlatest _) (treatsAlone_period h hblank)
  obtain ⟨m, hm⟩ : ∃ m, settings.rateLimit = m + 1 := ⟨settings.rateLimit - 1, (Nat.succ_pred hlimit).symm⟩
  have hcount : 1 + (m + 1) = settings.rateLimit + 1 := by rw [hm, Nat.add_comm]
  have hip : (blankCall 0).ip = (blankCall 1).ip := rfl
  have hfirst : (blankCall 0).now + settings.period ≤ Instant.max := Nat.le_trans (Nat.add_le_add_right (Nat.zero_le 1) _) hfits
  have hnow : (blankCall 1).now ≤ (blankCall 0).now + settings.maxTracking :=
    Nat.le_trans (Nat.le_trans hlatest htracked) (Nat.le_add_left _ _)
  -- The first packet at time 0, and as many as the limit at time 1.
  have hsame : ∀ start, 0 < start → ∃ answers,
      (settings.answersFound 1 { ThrottlerRecord.blank start with packets := 1 } (m + 1)).map (false :: ·) = .ok answers ∧
      (settings.answersFound 1 { ip := blankIp, packets := 1, expiration := 0 + settings.period, creationTime := 0 } (m + 1)).map
        (false :: ·) = .ok answers := by
    intro start hstart
    have hmem : ∀ c ∈ List.replicate (m + 1) (blankCall 1), c.ip ∈ addresses ∧ c.now ≤ latest := by
      intro c hc
      rw [(List.mem_replicate.mp hc).2]
      exact ⟨hblank, hlatest⟩
    obtain ⟨answers, hanswers, halone⟩ := h start (blankCall 0 :: List.replicate (m + 1) (blankCall 1))
      (List.pairwise_cons.mpr ⟨fun _ _ => Nat.zero_le _, nonDecreasing_replicate _ _⟩)
      (List.forall_mem_cons.mpr ⟨⟨hblank, Nat.zero_le _⟩, hmem⟩)
    rw [Throttler.answers_ahead hn settings hlimit1 hstart] at hanswers
    rw [answersAlone_first hlimit1 hfirst hip hnow] at halone
    exact ⟨answers, hanswers, halone⟩
  by_cases hlong : 1 < settings.period
  · obtain ⟨answers, hanswers, halone⟩ := hsame 1 Nat.zero_lt_one
    obtain ⟨rest, hrest, rfl⟩ := Checks.map_eq_ok.mp hanswers
    obtain ⟨rest', hrest', heq⟩ := Checks.map_eq_ok.mp halone
    obtain rfl := (List.cons.inj heq).2
    rw [answersFound_of_le hfits _ 0 _ (fun hlt => absurd hlt (Nat.lt_irrefl 1)) (Nat.le_of_eq ((Nat.zero_add _).trans hm.symm))] at hrest
    cases hrest
    exact true_not_mem_replicate (true_mem_answersFound hmax m _ _ (Nat.lt_of_lt_of_eq hlong (Nat.zero_add _).symm) hcount hrest')
  · obtain ⟨answers, hanswers, halone⟩ := hsame 2 Nat.zero_lt_two
    obtain ⟨rest, hrest, rfl⟩ := Checks.map_eq_ok.mp hanswers
    obtain ⟨rest', hrest', heq⟩ := Checks.map_eq_ok.mp halone
    obtain rfl := (List.cons.inj heq).2
    rw [answersFound_of_le hfits _ 0 _ (fun hlt => absurd hlt (by rw [Nat.zero_add]; exact hlong))
      (Nat.le_of_eq ((Nat.zero_add _).trans hm.symm))] at hrest'
    cases hrest'
    exact true_not_mem_replicate (true_mem_answersFound hmax m _ _ Nat.one_lt_two hcount hrest)

/-- With the address of blank records among the addresses, some sequence is answered otherwise, unless nothing is throttled, or
everything. -/
theorem treatsAlone_blank {n : Nat} (hn : 1 ≤ n) (h : settings.TreatsAlone n addresses latest) (hblank : blankIp ∈ addresses)
    (hlatest : 0 < latest) (hmax : settings.rateLimit < PacketCount.max) :
    settings.rateLimit = 0 ∧ latest ≤ settings.maxTracking := by
  rcases Nat.eq_zero_or_pos settings.period with hperiod | hperiod
  · have hlimit := treatsAlone_of_period hn h hblank hmax hperiod
    exact ⟨hlimit, treatsAlone_tracked hn h hblank hmax (Or.inl hlimit)⟩
  · have htracked := treatsAlone_tracked hn h hblank hmax (Or.inr hperiod)
    exact ⟨treatsAlone_of_tracked hn h hblank hlatest hmax htracked, htracked⟩

end

/-! ## Exactly when -/

/-- For every configuration, every latest time, and every set of addresses no larger than the number of records: every sequence of packets
from them up to that time is answered, and as by separate records, exactly if there is no address, or
- the period can be added to the latest time, and the timeout too, unless nothing is ever blocked, and
- 127.0.0.1, the address of blank records, is not among them; or the limit is the maximal count, and nothing is throttled; or it is zero,
  everything is throttled, and no record is tracked too long yet. -/
theorem treatsAlone_iff {n : Nat} (hn : 1 ≤ n) (settings : ThrottlerSettings) (addresses : Finset IpAddr)
    (hcard : addresses.card ≤ n) (latest : Instant) (hlatest : 0 < latest) :
    settings.TreatsAlone n addresses latest ↔ addresses = ∅ ∨
      (latest + settings.period ≤ Instant.max ∧
        (latest + settings.naughtyTimeout ≤ Instant.max ∨ PacketCount.max ≤ settings.rateLimit ∨
          (settings.period = 0 ∧ 1 ≤ settings.rateLimit)) ∧
        (blankIp ∉ addresses ∨ PacketCount.max ≤ settings.rateLimit ∨
          (settings.rateLimit = 0 ∧ latest ≤ settings.maxTracking))) := by
  constructor
  · intro h
    rcases addresses.eq_empty_or_nonempty with hempty | ⟨a, ha⟩
    · exact Or.inl hempty
    · refine Or.inr ⟨treatsAlone_period h ha, ?_, ?_⟩
      · by_contra hno
        obtain ⟨hnaughty, hmax, hperiod⟩ : ¬latest + settings.naughtyTimeout ≤ Instant.max ∧ ¬PacketCount.max ≤ settings.rateLimit ∧
            ¬(settings.period = 0 ∧ 1 ≤ settings.rateLimit) := by simpa only [not_or] using hno
        exact hnaughty (treatsAlone_naughty h ha (Nat.lt_of_not_le hmax) (by grind))
      · by_contra hno
        obtain ⟨hblank, hmax, hzero⟩ : ¬blankIp ∉ addresses ∧ ¬PacketCount.max ≤ settings.rateLimit ∧
            ¬(settings.rateLimit = 0 ∧ latest ≤ settings.maxTracking) := by simpa only [not_or] using hno
        exact hzero (treatsAlone_blank hn h (not_not.mp hblank) hlatest (Nat.lt_of_not_le hmax))
  · rintro (rfl | ⟨hperiod, hnaughty, hblank⟩) start calls hmono hcalls
    · obtain rfl : calls = [] := List.eq_nil_iff_forall_not_mem.mpr (fun c hc => absurd (hcalls c hc).1 (Finset.notMem_empty _))
      exact ⟨[], rfl, rfl⟩
    · have hfits : ∀ c ∈ calls, c.now + settings.period ≤ Instant.max :=
        fun c hc => Nat.le_trans (Nat.add_le_add_right (hcalls c hc).2 _) hperiod
      by_cases hmax : PacketCount.max ≤ settings.rateLimit
      · have hdecided : ∀ c ∈ calls, Decided settings c false := fun c hc => decided_of_max hmax (hfits c hc)
        exact ⟨_, Throttler.answers_of_decided hn calls _ hdecided, answersAlone_of_decided calls _ hdecided⟩
      · rcases hblank with hblank | hmax' | ⟨hlimit, htracked⟩
        · obtain ⟨answers, hanswers⟩ : ∃ answers, settings.answersAlone (fun _ => none) calls = .ok answers := by
            rcases hnaughty with hnaughty | hmax' | ⟨hzero, hlimit⟩
            · exact answersAlone_ok calls _
                (fun c hc => ⟨hfits c hc, Nat.le_trans (Nat.add_le_add_right (hcalls c hc).2 _) hnaughty⟩)
            · exact absurd hmax' hmax
            · exact ⟨_, answersAlone_of_period hzero hlimit calls _ hmono
                (fun c hc => Nat.le_trans (Nat.le_add_right _ _) (hfits c hc)) (fun _ _ h => by cases h)⟩
          have hseparate := Throttler.answers_of_separate hn hblank hcard calls _ _ (new_separate n settings start)
            (fun c hc => (hcalls c hc).1)
          exact ⟨answers, hseparate.trans hanswers, hanswers⟩
        · exact absurd hmax' hmax
        · have hnaughty : latest + settings.naughtyTimeout ≤ Instant.max := by
            rcases hnaughty with hnaughty | hmax' | ⟨-, hlimit'⟩
            · exact hnaughty
            · exact absurd hmax' hmax
            · rw [hlimit] at hlimit'
              exact absurd hlimit' (Nat.not_succ_le_zero 0)
          have hdecided : ∀ c ∈ calls, Decided settings c true := fun c hc => by
            have hle := (hcalls c hc).2
            exact decided_of_zero hlimit (Nat.le_trans hle htracked) ⟨hfits c hc, Nat.le_trans (Nat.add_le_add_right hle _) hnaughty⟩
          exact ⟨_, Throttler.answers_of_decided hn calls _ hdecided, answersAlone_of_decided calls _ hdecided⟩

/-- Two addresses, neither of them that of blank records, in the first minute. -/
theorem treatsAlone_iff_two :
    let settings : ThrottlerSettings := { rateLimit := 1, period := 5, naughtyTimeout := 1, maxTracking := 10 }
    settings.TreatsAlone 32 {.v4 ⟨5, 6, 7, 8⟩, .v4 ⟨1, 2, 3, 4⟩} (Duration.fromSecs 60) := by
  exact (treatsAlone_iff (by decide) _ _ (by decide) _ (by decide)).mpr (Or.inr ⟨by decide, Or.inl (by decide), Or.inl (by decide)⟩)

/-- The first packet from 127.0.0.1 comes when the blank records are tracked too long: it clears one of them, and is not counted. So the
second, at the same time, is let through, though the limit is one. And a packet at a time that the period cannot be added to is not
answered at all. -/
theorem answers_ne_answersAlone :
    (let settings : ThrottlerSettings := { rateLimit := 1, period := 5, naughtyTimeout := 1, maxTracking := 10 }
      let calls : List ThrottleCall := [⟨blankIp, 11, fun _ => 11⟩, ⟨blankIp, 11, fun _ => 11⟩]
      NonDecreasing calls ∧ (Throttler.new 32 settings 0).answers calls = .ok [false, false] ∧
        settings.answersAlone (fun _ => none) calls = .ok [false, true] ∧
        (Throttler.new 32 settings 0).answers calls ≠ settings.answersAlone (fun _ => none) calls) ∧
    (let settings : ThrottlerSettings :=
        { rateLimit := 1, period := Duration.fromSecs (2 ^ 64 - 1), naughtyTimeout := 1, maxTracking := 10 }
      let calls : List ThrottleCall := [⟨.v4 ⟨1, 2, 3, 4⟩, Duration.fromSecs 1, fun _ => 0⟩]
      (Throttler.new 32 settings 0).answers calls = .error ⟨"overflow when adding duration to instant"⟩) := by
  decide

end RustyDht
