import OpenFlame.Upload.Ledger

/-!
# What normalizing a target amounts to

`Normalizes u env db account base o checks t`: `t` is the result of `normalizeTarget`, field by field.

* `normalizeTarget_eq_ok`        the two say the same;
* `normalizeTarget_unverified`   a target that passed every check is what a replay computes, which
                                 checks neither covers nor the clock, in any store and environment;
* `createTarget_spec`            a created target names its account, and covers that exist.
-/

set_option linter.all false

namespace OpenFlame.Upload
open Guard

structure Normalizes (u : Unicode) (env : Env) (db : DB) (account : Account) (base : RawTarget) (o : TargetOverride)
    (checks : Checks) (t : Target) : Prop where
  account_id : t.account_id = account.id
  platform : t.platform = account.platform
  rightsField : account.platform = .bilibili ∨
    (o.category_id.isSome || o.copyright.isSome || o.source_credit.isSome) = false
  title : normalizeUploadText (base.merge o).title 100 true = .ok t.title
  limit : t.title.length ≤ TITLE_LIMITS account.platform
  description : normalizeUploadText (base.merge o).description 2000 false = .ok t.description
  tags : normalizeUploadTags (base.merge o).tags = .ok t.tags
  mode : parseMode (base.merge o).mode = .ok t.mode
  draftMode : t.mode = .draft → account.platform = .tencent
  rights : ∃ credit category copy, normalizeUploadText (base.merge o).source_credit 200 false = .ok credit ∧
    parseCategory (base.merge o).category_id = .ok category ∧ parseCopyright (base.merge o).copyright = .ok copy ∧
    platformRights account.platform t.tags category copy credit = .ok (t.category_id, t.copyright, t.source_credit)
  landscape : parseCover (base.merge o).cover_landscape_asset_id = .ok t.cover_landscape_asset_id
  portrait : parseCover (base.merge o).cover_portrait_asset_id = .ok t.cover_portrait_asset_id
  covers : checkCovers env db account.platform t.cover_landscape_asset_id t.cover_portrait_asset_id
    checks.verify_assets = .ok ⟨⟩
  schedule : validatePublishSchedule account.platform (base.merge o).publish_at_unix
    (base.merge o).publish_timezone_offset_minutes (if checks.enforce_schedule then env.now else 0)
    checks.enforce_schedule = .ok (t.publish_at_unix, t.publish_timezone_offset_minutes)
  draftSchedule : t.mode = .draft → t.publish_at_unix = none
  options : ∃ options, normalizePlatformOptions account.platform (base.merge o).platform_options = .ok options ∧
    t.platform_options = settleShortTitle u checks.accept_normalized_short_title t.title options

section
variable {u : Unicode} {env env' : Env} {db db' : DB} {account account' : Account} {base : RawTarget}
  {o : TargetOverride} {checks : Checks} {t : Target}

theorem normalizeTarget_eq_ok :
    normalizeTarget u env db account base o checks = .ok t ↔ Normalizes u env db account base o checks t := by
  constructor
  · intro h
    simp only [normalizeTarget, bind_eq_ok, require_eq_ok, pure_eq_ok] at h
    obtain ⟨-, hfields, title, htitle, -, hlimit, description, hdescription, tags, htags, mode, hmode, -, hdraft,
      credit, hcredit, category, hcategory, copy, hcopy, rights, hrights, landscape, hlandscape, portrait, hportrait,
      _, hcovers, schedule, hschedule, -, hds, options, hoptions, rfl⟩ := h
    exact ⟨rfl, rfl, hfields, htitle, hlimit, hdescription, htags, hmode, hdraft,
      ⟨credit, category, copy, hcredit, hcategory, hcopy, hrights⟩, hlandscape, hportrait, hcovers, hschedule, hds,
      options, hoptions, rfl⟩
  · intro h
    obtain ⟨credit, category, copy, hcredit, hcategory, hcopy, hrights⟩ := h.rights
    obtain ⟨options, hoptions, ho⟩ := h.options
    simp only [normalizeTarget, bind_eq_ok, require_eq_ok, pure_eq_ok]
    refine ⟨⟨⟩, h.rightsField, _, h.title, ⟨⟩, h.limit, _, h.description, _, h.tags, _, h.mode, ⟨⟩, h.draftMode, _,
      hcredit, _, hcategory, _, hcopy, _, hrights, _, h.landscape, _, h.portrait, ⟨⟩, h.covers, _, h.schedule, ⟨⟩,
      h.draftSchedule, _, hoptions, ?_⟩
    have hacc := h.account_id
    have hpl := h.platform
    obtain ⟨⟨_, _, _, _, _, _, _, _, _, _, _, _, _⟩, _⟩ := t
    simp only at hacc hpl ho ⊢
    rw [hacc, hpl, ho]

/-! ## replaying a target -/

/-- every lead time ends before the first publication time that is in range -/
theorem SCHEDULE_LEAD_SECONDS_lt (platform : Platform) : SCHEDULE_LEAD_SECONDS platform < 1700000000 := by
  cases platform <;> decide

/-- with the clock at zero and no horizon, what any clock accepts is accepted -/
theorem validatePublishSchedule_relax {platform : Platform} {publish_at offset : Raw} {now : Int} {horizon : Bool}
    {s : Option Int × Option Int}
    (h : validatePublishSchedule platform publish_at offset now horizon = .ok s) :
    validatePublishSchedule platform publish_at offset 0 false = .ok s := by
  unfold validatePublishSchedule at h ⊢
  split at h
  · exact h
  · cases h
  · simp only [checkPublishTime, bind_eq_ok, require_eq_ok, pure_eq_ok] at h ⊢
    obtain ⟨-, ⟨-, hrange, -, -, -, hmin, -, hhour, -⟩, hs⟩ := h
    refine ⟨⟨⟩, ⟨⟨⟩, hrange, ⟨⟩, ?_, ⟨⟩, hmin, ⟨⟩, hhour, ?_⟩, hs⟩
    · have := SCHEDULE_LEAD_SECONDS_lt platform
      omega
    · intro _ hfalse
      cases hfalse
  · cases h

theorem checkCovers_relax {platform : Platform} {landscape portrait : Option Ident} {verify : Bool}
    (h : checkCovers env db platform landscape portrait verify = .ok ⟨⟩) :
    checkCovers env' db' platform landscape portrait false = .ok ⟨⟩ := by
  unfold checkCovers at h ⊢
  cases verify with
  | false => exact h
  | true =>
    simp only [if_true, bind_eq_ok, verifiedJobCoverRows, require_eq_ok, pure_eq_ok] at h
    obtain ⟨_, ⟨-, h1, -, h2, -⟩, -⟩ := h
    simp only [Bool.false_eq_true, if_false, bind_eq_ok, require_eq_ok]
    exact ⟨⟨⟩, h1, h2⟩

/-- **A target that passed every check is what a replay computes.** -/
theorem normalizeTarget_unverified (hid : account'.id = account.id)
    (hpl : account'.platform = account.platform) (haccept : checks.accept_normalized_short_title = false)
    (h : normalizeTarget u env db account base o checks = .ok t) :
    normalizeTarget u env' db' account' base o unverified = .ok t := by
  rw [normalizeTarget_eq_ok] at h ⊢
  constructor
  case account_id => rw [h.account_id, hid]
  case platform => rw [h.platform, hpl]
  case rightsField => rw [hpl]; exact h.rightsField
  case title => exact h.title
  case limit => rw [hpl]; exact h.limit
  case description => exact h.description
  case tags => exact h.tags
  case mode => exact h.mode
  case draftMode => rw [hpl]; exact h.draftMode
  case rights => rw [hpl]; exact h.rights
  case landscape => exact h.landscape
  case portrait => exact h.portrait
  case covers =>
    rw [hpl]
    exact checkCovers_relax h.covers
  case schedule =>
    have hs := h.schedule
    rw [hpl]
    cases he : checks.enforce_schedule with
    | true =>
      rw [he, if_pos rfl] at hs
      exact validatePublishSchedule_relax hs
    | false =>
      rw [he] at hs
      exact hs
  case draftSchedule => exact h.draftSchedule
  case options =>
    obtain ⟨options, hoptions, ho⟩ := h.options
    rw [haccept] at ho
    rw [hpl]
    exact ⟨options, hoptions, ho⟩

/-- the cover of a slot that was verified exists -/
theorem verifiedCoverRow_mem {id : Option Ident} {x : Option Asset} (h : verifiedCoverRow env db id = .ok x)
    {i : Ident} (hi : id = some i) : ∃ a ∈ db.assets, a.id = i := by
  subst hi
  simp only [verifiedCoverRow, bind_eq_ok, fetch_eq_ok, Table.get_eq_some] at h
  obtain ⟨a, ⟨ha, hai⟩, -⟩ := h
  exact ⟨a, ha, hai⟩

variable {host : Host}

theorem createTarget_spec {overrides : List (Ident × TargetOverride)}
    (h : createTarget host env db base overrides account = .ok t) :
    t.account_id = account.id ∧ t.platform = account.platform ∧
      normalizeTarget host.unicode env db account base (overrideFor overrides account.id) {} = .ok t ∧
      ∀ i, (t.cover_landscape_asset_id = some i ∨ t.cover_portrait_asset_id = some i) → ∃ a ∈ db.assets, a.id = i := by
  simp only [createTarget, bind_eq_ok, require_eq_ok] at h
  obtain ⟨-, -, h⟩ := h
  have hn := normalizeTarget_eq_ok.mp h
  refine ⟨hn.account_id, hn.platform, h, fun i hi => ?_⟩
  have hc := hn.covers
  simp only [checkCovers, if_true, verifiedJobCoverRows, bind_eq_ok, require_eq_ok, pure_eq_ok] at hc
  obtain ⟨_, ⟨-, -, -, -, l, hl, p, hp, -⟩, -⟩ := hc
  rcases hi with hi | hi
  · exact verifiedCoverRow_mem hl hi
  · exact verifiedCoverRow_mem hp hi

end
end OpenFlame.Upload
