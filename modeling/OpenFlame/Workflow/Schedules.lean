import Mathlib.Algebra.Ring.Nat
import Mathlib.Data.Nat.Find
import OpenFlame.Workflow.Presets

/-!
# Publish times that are relative to a moment

`ChangesOnce`    a local time whose offset changes at most once, by at most an hour
`Admissible`     a whole minute, for Tencent one that begins an hour of the local time
`Schedules`      a delay gives the first admissible time, and it is accepted until its lead begins
`HasRoom`        some admissible time is not behind the horizon

* `wholeHour_eq_ok`     the search finds the first whole hour among its minutes;
* `wholeHour_found`     with one change of the offset there is one among the first 120;
* `schedules_iff`       **an accepted policy schedules iff it has room.**
-/

set_option linter.all false

namespace OpenFlame.Workflow.Presets
open Guard Text Json Editing
open Upload (Mode Platform)

section
variable (cal : Calendar)

/-- from `first` to `last` the offset is one, and then another at most an hour away -/
def ChangesOnce (first last : Int) : Prop :=
  ∃ before after change : Int, (-60 ≤ after - before ∧ after - before ≤ 60) ∧
    ∀ x, first ≤ x → x ≤ last → cal.utcoffset x = some (60 * (if x < change then before else after))

/-- a whole minute that is not too early, and begins an hour of the local time if it must -/
def Admissible (platform : Platform) (earliest x : Int) : Prop :=
  earliest ≤ x ∧ x % 60 = 0 ∧ (platform = .tencent → ∃ s ∈ cal.utcoffset x, (x + s) % 3600 = 0)

/-- a delay is turned into the first admissible time, which is accepted from the moment itself until its lead begins -/
def Schedules (platform : Platform) (delay base : Int) : Prop := ∃ publish_at offset,
  relativePublishSchedule cal platform delay base = .ok (publish_at, offset) ∧
    cal.utcoffset publish_at = some (60 * offset) ∧
    (Admissible cal platform (base + delay) publish_at ∧
      ∀ x, Admissible cal platform (base + delay) x → publish_at ≤ x) ∧
    (platform ≠ .tencent → publish_at < base + delay + 60) ∧
    base < publish_at - Upload.SCHEDULE_LEAD_SECONDS platform ∧
    ∀ now, base ≤ now → now < publish_at - Upload.SCHEDULE_LEAD_SECONDS platform →
      Upload.validatePublishSchedule platform (.int publish_at) (.int offset) now true = .ok (some publish_at, some offset)

/-- an admissible time within the horizon, and no offset of more than 14 hours up to it -/
def HasRoom (platform : Platform) (delay base : Int) : Prop := ∃ x, Admissible cal platform (base + delay) x ∧
  (platform = .tencent → x ≤ base + Upload.TENCENT_SCHEDULE_MAX_SECONDS) ∧
    ∀ y, base + delay ≤ y → y ≤ x → y % 60 = 0 → ∀ s ∈ cal.utcoffset y, -50400 ≤ s ∧ s ≤ 50400

end

/-! ## policies -/

section
variable {F : Type} {value : Value F} {profile : Members F} {policies : List SchedulePolicy}

/-- a delay of whole hours, within the limits of its platform -/
def SchedulePolicy.Fits (p : SchedulePolicy) : Prop :=
  p.delay_seconds % 3600 = 0 ∧ MIN_DELAY_SECONDS p.platform ≤ p.delay_seconds ∧
    p.delay_seconds ≤ MAX_DELAY_SECONDS p.platform

theorem policyStep_fits {account_ids targets : List (Value F)} {mode raw : Value F} {policies' : List SchedulePolicy}
    (h : policyStep account_ids targets mode policies raw = .ok policies') (hall : ∀ p ∈ policies, p.Fits) :
    ∀ p ∈ policies', p.Fits := by
  simp only [policyStep, bind_eq_ok, fetch_eq_ok, require_eq_ok, pure_eq_ok] at h
  obtain ⟨_, -, _, -, _, -, _, -, platform, -, delay, -, _, hdelay, _, -, rfl⟩ := h
  intro p hp
  rcases List.mem_append.mp hp with hp | hp
  · exact hall p hp
  · rw [List.mem_singleton.mp hp]
    exact hdelay

/-- an accepted policy has a delay of whole hours, within its limits -/
theorem schedulePolicies_fits (h : schedulePolicies value profile = .ok policies) : ∀ p ∈ policies, p.Fits := by
  simp only [schedulePolicies, bind_eq_ok, fetch_eq_ok, require_eq_ok, pure_eq_ok] at h
  obtain ⟨_, -, _, -, _, -, _, -, _, -, found, hfound, rfl⟩ := h
  have hall : ∀ p ∈ found, p.Fits :=
    thread_induct (fun ps : List SchedulePolicy => ∀ p ∈ ps, SchedulePolicy.Fits p)
      (fun _ _ _ _ hstep hps => policyStep_fits hstep hps) hfound (fun _ hp => absurd hp List.not_mem_nil)
  intro p hp
  obtain ⟨id, -, hid⟩ := List.mem_filterMap.mp hp
  exact hall p (List.mem_of_find?_eq_some hid)

end

/-! ## the search for an hour -/

section
variable {cal : Calendar}

theorem localOffsetMinutes_eq_ok {x offset : Int} : localOffsetMinutes cal x = .ok offset ↔
    cal.utcoffset x = some (60 * offset) ∧ -840 ≤ offset ∧ offset ≤ 840 := by
  simp only [localOffsetMinutes, bind_eq_ok, fetch_eq_ok, require_eq_ok, pure_eq_ok]
  constructor
  · rintro ⟨s, hs, _, hwhole, _, hrange, rfl⟩
    refine ⟨?_, hrange⟩
    rw [hs]
    congr 1
    omega
  · rintro ⟨hs, hrange⟩
    refine ⟨_, hs, PUnit.unit, by omega, PUnit.unit, ?_, by omega⟩
    omega

/-- the minute begins an hour of the local time -/
def IsWholeHour (cal : Calendar) (x : Int) : Prop := ∃ s ∈ cal.utcoffset x, (x + s) % 3600 = 0

private theorem minute_zero (c : Int) : c + 60 * ((0 : Nat) : Int) = c := by omega

private theorem minute_succ (c : Int) (i : Nat) : c + 60 * ((i + 1 : Nat) : Int) = c + 60 + 60 * (i : Int) := by omega

/-- **The search returns the first whole hour, if no offset on the way is out of range.** -/
theorem wholeHour_eq_ok {n : Nat} {c t : Int} : wholeHour cal n c = .ok t ↔
    ∃ k : Nat, k < n ∧ t = c + 60 * k ∧ IsWholeHour cal t ∧ (∀ i : Nat, i < k → ¬ IsWholeHour cal (c + 60 * i)) ∧
      ∀ i : Nat, i ≤ k → ∃ offset, localOffsetMinutes cal (c + 60 * i) = .ok offset := by
  induction n generalizing c with
  | zero =>
    constructor
    · intro h
      cases h
    · rintro ⟨k, hk, -⟩
      exact absurd hk (Nat.not_lt_zero k)
  | succ n ih =>
    have hstep : wholeHour cal (n + 1) c = localOffsetMinutes cal c >>= fun offset =>
        if (c + offset * 60) % (60 * 60) = 0 then pure c else wholeHour cal n (c + 60) := rfl
    rw [hstep, bind_eq_ok]
    constructor
    · rintro ⟨offset, hoffset, h⟩
      have hsome := (localOffsetMinutes_eq_ok.mp hoffset).1
      by_cases hzero : (c + offset * 60) % (60 * 60) = 0
      · rw [if_pos hzero] at h
        obtain rfl := pure_eq_ok.mp h
        refine ⟨0, by omega, by omega, ⟨_, hsome, by omega⟩, fun i hi => absurd hi (Nat.not_lt_zero i), fun i hi => ?_⟩
        obtain rfl : i = 0 := by omega
        exact ⟨offset, by rw [minute_zero]; exact hoffset⟩
      · rw [if_neg hzero] at h
        obtain ⟨k, hk, ht, hwhole, hbefore, hdefined⟩ := ih.mp h
        refine ⟨k + 1, by omega, by omega, hwhole, fun i hi => ?_, fun i hi => ?_⟩
        · cases i with
          | zero =>
            rintro ⟨s, hs, hmod⟩
            rw [minute_zero] at hs hmod
            rw [hsome] at hs
            obtain rfl := Option.some.inj hs
            omega
          | succ i =>
            rw [minute_succ]
            exact hbefore i (by omega)
        · cases i with
          | zero => exact ⟨offset, by rw [minute_zero]; exact hoffset⟩
          | succ i =>
            rw [minute_succ]
            exact hdefined i (by omega)
    · rintro ⟨k, hk, ht, hwhole, hbefore, hdefined⟩
      obtain ⟨offset, hoffset⟩ := hdefined 0 (Nat.zero_le k)
      rw [minute_zero] at hoffset
      have hsome := (localOffsetMinutes_eq_ok.mp hoffset).1
      refine ⟨offset, hoffset, ?_⟩
      cases k with
      | zero =>
        obtain rfl : t = c := by omega
        obtain ⟨s, hs, hmod⟩ := hwhole
        rw [hsome] at hs
        obtain rfl := Option.some.inj hs
        rw [if_pos (by omega)]
        rfl
      | succ k =>
        have hzero : ¬ (c + offset * 60) % (60 * 60) = 0 := by
          intro hmod
          refine hbefore 0 (Nat.succ_pos k) ?_
          rw [minute_zero]
          exact ⟨_, hsome, by omega⟩
        rw [if_neg hzero]
        refine ih.mpr ⟨k, by omega, by omega, hwhole, fun i hi => ?_, fun i hi => ?_⟩
        · have := hbefore (i + 1) (by omega)
          rwa [minute_succ] at this
        · have := hdefined (i + 1) (by omega)
          rwa [minute_succ] at this

/-- the times the search can come to -/
theorem wholeHour_found {first minute : Int} (h : ChangesOnce cal first (first + 10800)) (hfirst : first ≤ minute)
    (hminute : minute ≤ first + 59) (hwhole : minute % 60 = 0) :
    ∃ k : Nat, k < 120 ∧ IsWholeHour cal (minute + 60 * k) ∧ ∀ i : Nat, i < k → ¬ IsWholeHour cal (minute + 60 * i) := by
  classical
  obtain ⟨before, after, change, -, hoffset⟩ := h
  have hexists : ∃ k : Nat, k < 120 ∧ IsWholeHour cal (minute + 60 * k) := by
    -- with the offset before the change, one of the first sixty minutes begins an hour
    obtain ⟨k₁, hk₁, hmod₁⟩ : ∃ k : Nat, k < 60 ∧ (minute + 60 * k + 60 * before) % 3600 = 0 :=
      ⟨((-(minute / 60 + before)) % 60).toNat, by omega, by omega⟩
    by_cases hchange : minute + 60 * k₁ < change
    · refine ⟨k₁, by omega, 60 * before, ?_, hmod₁⟩
      rw [hoffset _ (by omega) (by omega), if_pos hchange]
      rfl
    · -- it is over by then, and one of the next sixty begins one with the offset after it
      obtain ⟨k₂, hk₂, hmod₂⟩ : ∃ k : Nat, k < 60 ∧ (minute + 60 * (60 + k : Nat) + 60 * after) % 3600 = 0 :=
        ⟨((-(minute / 60 + after)) % 60).toNat, by omega, by omega⟩
      refine ⟨60 + k₂, by omega, 60 * after, ?_, hmod₂⟩
      rw [hoffset _ (by omega) (by omega), if_neg (by omega)]
      rfl
  obtain ⟨hlt, hfound⟩ := Nat.find_spec hexists
  refine ⟨Nat.find hexists, hlt, hfound, fun i hi hhour => ?_⟩
  exact Nat.find_min hexists hi ⟨by omega, hhour⟩

end

/-! ## one schedule -/

section
variable {cal : Calendar} {platform : Platform} {delay base : Int}

/-- what is asked of a publish time -/
def Accepted (platform : Platform) (publish_at offset now : Int) : Prop :=
  (1700000000 ≤ publish_at ∧ publish_at ≤ 4102444800 ∧ -840 ≤ offset ∧ offset ≤ 840) ∧
    now + Upload.SCHEDULE_LEAD_SECONDS platform < publish_at ∧ publish_at % 60 = 0 ∧
    (platform = .tencent → (publish_at + offset * 60) % 3600 = 0) ∧
    (platform = .tencent → publish_at ≤ now + Upload.TENCENT_SCHEDULE_MAX_SECONDS)

theorem validatePublishSchedule_eq_ok {publish_at offset now : Int} {r : Option Int × Option Int} :
    Upload.validatePublishSchedule platform (.int publish_at) (.int offset) now true = .ok r ↔
      Accepted platform publish_at offset now ∧ (some publish_at, some offset) = r := by
  unfold Upload.validatePublishSchedule Upload.checkPublishTime Accepted
  simp only [bind_eq_ok, require_eq_ok, pure_eq_ok]
  constructor
  · rintro ⟨_, ⟨_, h1, _, h2, _, h3, _, h4, h5⟩, rfl⟩
    exact ⟨⟨h1, h2, h3, h4, fun hp => h5 hp trivial⟩, rfl⟩
  · rintro ⟨⟨h1, h2, h3, h4, h5⟩, rfl⟩
    exact ⟨PUnit.unit, ⟨PUnit.unit, h1, PUnit.unit, h2, PUnit.unit, h3, PUnit.unit, h4, fun hp _ => h5 hp⟩, rfl⟩

/-- the first whole minute that is not too early -/
def firstMinute (earliest : Int) : Int := (earliest + 59) / 60 * 60

theorem firstMinute_spec (earliest : Int) :
    firstMinute earliest % 60 = 0 ∧ earliest ≤ firstMinute earliest ∧ firstMinute earliest ≤ earliest + 59 := by
  unfold firstMinute
  omega

theorem firstMinute_le {earliest x : Int} (h : earliest ≤ x) (hx : x % 60 = 0) :
    ∃ i : Nat, x = firstMinute earliest + 60 * i := by
  unfold firstMinute
  exact ⟨((x - (earliest + 59) / 60 * 60) / 60).toNat, by omega⟩

theorem relativePublishSchedule_eq_ok {t o : Int} : relativePublishSchedule cal platform delay base = .ok (t, o) ↔
    (if platform = .tencent then wholeHour cal 181 (firstMinute (base + delay)) = .ok t
      else firstMinute (base + delay) = t) ∧ localOffsetMinutes cal t = .ok o ∧ Accepted platform t o base := by
  have hrest : ∀ publish_at : Int, (localOffsetMinutes cal publish_at >>= fun offset =>
      uploadChecked (Upload.validatePublishSchedule platform (.int publish_at) (.int offset) base true) >>= fun _ =>
        (pure (publish_at, offset) : Except PresetErr (Int × Int))) = .ok (t, o) ↔
      publish_at = t ∧ localOffsetMinutes cal t = .ok o ∧ Accepted platform t o base := by
    intro publish_at
    simp only [bind_eq_ok, uploadChecked, mapError_eq_ok, validatePublishSchedule_eq_ok, pure_eq_ok, Prod.mk.injEq]
    constructor
    · rintro ⟨o', ho, _, ⟨haccept, -⟩, rfl, rfl⟩
      exact ⟨rfl, ho, haccept⟩
    · rintro ⟨rfl, ho, haccept⟩
      exact ⟨o, ho, _, ⟨haccept, rfl⟩, rfl, rfl⟩
  unfold relativePublishSchedule
  dsimp only
  by_cases hp : platform = .tencent
  · rw [if_pos hp, if_pos hp]
    change (wholeHour cal 181 (firstMinute (base + delay)) >>= _) = _ ↔ _
    rw [bind_eq_ok]
    constructor
    · rintro ⟨t', ht, h⟩
      obtain ⟨rfl, h⟩ := (hrest t').mp h
      exact ⟨ht, h⟩
    · rintro ⟨ht, h⟩
      exact ⟨t, ht, (hrest t).mpr ⟨rfl, h⟩⟩
  · rw [if_neg hp, if_neg hp]
    exact hrest (firstMinute (base + delay))

/-- the delay of an accepted policy is longer than the lead -/
theorem lead_lt_delay (h : MIN_DELAY_SECONDS platform ≤ delay) : Upload.SCHEDULE_LEAD_SECONDS platform < delay := by
  cases platform with
  | bilibili =>
    have : (25200 : Int) ≤ delay := h
    show (21900 : Int) < delay
    omega
  | douyin =>
    have : (18000 : Int) ≤ delay := h
    show (14700 : Int) < delay
    omega
  | tencent =>
    have : (18000 : Int) ≤ delay := h
    show (14700 : Int) < delay
    omega

theorem lead_nonneg (platform : Platform) : 0 ≤ Upload.SCHEDULE_LEAD_SECONDS platform := by
  cases platform <;> decide

/-- a schedule that is made leaves room -/
theorem Schedules.hasRoom (h : Schedules cal platform delay base) : HasRoom cal platform delay base := by
  obtain ⟨t, o, hrun, -, ⟨hadmissible, hleast⟩, -⟩ := h
  obtain ⟨hsearch, hoffset, haccept⟩ := relativePublishSchedule_eq_ok.mp hrun
  refine ⟨t, hadmissible, haccept.2.2.2.2, fun y hy hyt hmod s hs => ?_⟩
  have hrange : ∃ offset, localOffsetMinutes cal y = .ok offset := by
    by_cases hp : platform = .tencent
    · rw [if_pos hp] at hsearch
      obtain ⟨k, -, ht, -, -, hdefined⟩ := wholeHour_eq_ok.mp hsearch
      obtain ⟨i, hi⟩ := firstMinute_le hy hmod
      rw [hi]
      exact hdefined i (by omega)
    · have hty : t ≤ y := hleast y ⟨hy, hmod, fun h => absurd h hp⟩
      obtain rfl : t = y := by omega
      exact ⟨o, hoffset⟩
  obtain ⟨offset, hlocal⟩ := hrange
  obtain ⟨hsome, hmin, hmax⟩ := localOffsetMinutes_eq_ok.mp hlocal
  rw [hsome] at hs
  obtain rfl := Option.some.inj hs
  omega

/-- **Where there is room, the first admissible time is found and accepted.** -/
theorem HasRoom.schedules (h : HasRoom cal platform delay base) (hmin : MIN_DELAY_SECONDS platform ≤ delay)
    (hbase : 1700000000 ≤ base) (hlast : base + delay + 10800 ≤ 4102444800)
    (hchange : ChangesOnce cal (base + delay) (base + delay + 10800)) : Schedules cal platform delay base := by
  obtain ⟨x, ⟨hx, hxmod, hxhour⟩, hhorizon, hrange⟩ := h
  obtain ⟨hmod, hfirst, hminute⟩ := firstMinute_spec (base + delay)
  obtain ⟨j, hj⟩ := firstMinute_le hx hxmod
  have hlead := lead_lt_delay hmin
  have hlead₀ := lead_nonneg platform
  -- the local offset at a minute of the window that is not behind `x`
  have hlocal : ∀ i : Nat, i < 120 → i ≤ j → ∃ offset,
      localOffsetMinutes cal (firstMinute (base + delay) + 60 * i) = .ok offset := by
    intro i hi hij
    obtain ⟨before, after, change, -, hoffset⟩ := hchange
    have hsome := hoffset (firstMinute (base + delay) + 60 * i) (by omega) (by omega)
    have := hrange _ (by omega) (by omega) (by omega) _ hsome
    exact ⟨_, localOffsetMinutes_eq_ok.mpr ⟨hsome, by omega⟩⟩
  -- the time that is found
  obtain ⟨k, hk, hkj, hsearch, hhour, hleast⟩ : ∃ k : Nat, k < 120 ∧ k ≤ j ∧
      (if platform = .tencent then
        wholeHour cal 181 (firstMinute (base + delay)) = .ok (firstMinute (base + delay) + 60 * k)
        else firstMinute (base + delay) = firstMinute (base + delay) + 60 * k) ∧
      (platform = .tencent → IsWholeHour cal (firstMinute (base + delay) + 60 * k)) ∧
      (platform = .tencent → ∀ i : Nat, i < k → ¬ IsWholeHour cal (firstMinute (base + delay) + 60 * i)) ∧
      (platform ≠ .tencent → k = 0) := by
    by_cases hp : platform = .tencent
    · obtain ⟨k, hk, hhour, hbefore⟩ := wholeHour_found hchange hfirst hminute hmod
      have hkj : k ≤ j := by
        by_contra hlt
        refine hbefore j (by omega) ?_
        rw [← hj]
        exact hxhour hp
      refine ⟨k, hk, hkj, ?_, fun _ => hhour, fun _ => hbefore, fun hne => absurd hp hne⟩
      rw [if_pos hp]
      exact wholeHour_eq_ok.mpr ⟨k, by omega, rfl, hhour, hbefore, fun i hi => hlocal i (by omega) (by omega)⟩
    · refine ⟨0, by omega, Nat.zero_le j, ?_, fun h => absurd h hp, fun h => absurd h hp, fun _ => rfl⟩
      rw [if_neg hp]
      omega
  generalize ht : firstMinute (base + delay) + 60 * (k : Int) = t at hsearch hhour
  obtain ⟨o, ho⟩ : ∃ o, localOffsetMinutes cal t = .ok o := by
    rw [← ht]
    exact hlocal k hk hkj
  obtain ⟨hsome, homin, homax⟩ := localOffsetMinutes_eq_ok.mp ho
  have hwhole : platform = .tencent → (t + o * 60) % 3600 = 0 := by
    intro hp
    obtain ⟨s, hs, hsmod⟩ := hhour hp
    rw [hsome] at hs
    obtain rfl := Option.some.inj hs
    omega
  have haccept : ∀ now, base ≤ now → now < t - Upload.SCHEDULE_LEAD_SECONDS platform → Accepted platform t o now := by
    intro now hnow hbefore
    refine ⟨⟨by omega, by omega, homin, homax⟩, by omega, by omega, hwhole, fun hp => ?_⟩
    have := hhorizon hp
    omega
  have hnow : base < t - Upload.SCHEDULE_LEAD_SECONDS platform := by omega
  refine ⟨t, o, relativePublishSchedule_eq_ok.mpr ⟨hsearch, ho, haccept base (Int.le_refl base) hnow⟩, hsome,
    ⟨⟨by omega, by omega, hhour⟩, ?_⟩, ?_, hnow, ?_⟩
  · rintro y ⟨hy, hymod, hyhour⟩
    obtain ⟨i, hi⟩ := firstMinute_le hy hymod
    by_contra hlt
    by_cases hp : platform = .tencent
    · refine hleast.1 hp i (by omega) ?_
      rw [← hi]
      exact hyhour hp
    · have := hleast.2 hp
      omega
  · intro hp
    have := hleast.2 hp
    omega
  · intro now hge hlt
    exact validatePublishSchedule_eq_ok.mpr ⟨haccept now hge hlt, rfl⟩

/-- **An accepted policy schedules iff it has room.** -/
theorem schedules_iff {F : Type} {value : Value F} {profile : Members F} {policies : List SchedulePolicy}
    (cal : Calendar) (hpolicies : schedulePolicies value profile = .ok policies) {p : SchedulePolicy} (hp : p ∈ policies)
    {base : Int} (hbase : 1700000000 ≤ base) (hlast : base + p.delay_seconds + 10800 ≤ 4102444800)
    (hchange : ChangesOnce cal (base + p.delay_seconds) (base + p.delay_seconds + 10800)) :
    Schedules cal p.platform p.delay_seconds base ↔ HasRoom cal p.platform p.delay_seconds base :=
  ⟨Schedules.hasRoom, fun h => h.schedules (schedulePolicies_fits hpolicies p hp).2.1 hbase hlast hchange⟩

end

/-! ## a change of half an hour -/

def oneAccount : HexIdentifier := ⟨List.replicate 32 '0', by decide⟩

/-- the longest delay of a video for Tencent -/
def longestDelay : SchedulePolicy := ⟨oneAccount, .tencent, 2415600⟩

def longestValue : Value Unit := .arr [longestDelay.toDict]

/-- a profile that publishes for one account -/
def oneAccountProfile : Members Unit :=
  record [("upload", .obj (record [("account_ids", .arr [.str oneAccount.1]), ("mode", .str "publish".toList),
    ("target_overrides", .arr [])]))]

theorem longestDelay_accepted : schedulePolicies longestValue oneAccountProfile = .ok [longestDelay] := by
  rfl

/-- a clock that is put forward by half an hour, at 15:30 UTC, from an offset of ten and a half hours -/
def halfHourCalendar : Calendar where
  instant _ := none
  utcoffset x := some (60 * if x < 1791041400 then 630 else 660)

theorem halfHourCalendar_changesOnce (first last : Int) : ChangesOnce halfHourCalendar first last :=
  ⟨630, 660, 1791041400, by decide, fun _ _ _ => rfl⟩

theorem schedules_iff_halfHour : Schedules halfHourCalendar .tencent 2415600 1788622260 ↔
    HasRoom halfHourCalendar .tencent 2415600 1788622260 :=
  schedules_iff halfHourCalendar longestDelay_accepted (List.mem_singleton_self longestDelay) (by decide) (by decide)
    (halfHourCalendar_changesOnce _ _)

/-- the hour that began before the change is over an hour away from the next one, behind the horizon -/
theorem halfHour_unscheduled : schedulePolicies longestValue oneAccountProfile = .ok [longestDelay] ∧
    ChangesOnce halfHourCalendar (1788622260 + 2415600) (1788622260 + 2415600 + 10800) ∧
    ¬ Schedules halfHourCalendar .tencent 2415600 1788622260 := by
  refine ⟨longestDelay_accepted, halfHourCalendar_changesOnce _ _, ?_⟩
  have hrun : (relativePublishSchedule halfHourCalendar .tencent 2415600 1788622260).isOk = false := by decide +kernel
  rintro ⟨t, o, h, -⟩
  rw [h] at hrun
  cases hrun

end OpenFlame.Workflow.Presets
