import Mathlib.Algebra.Ring.Nat
import OpenFlame.Workflow.Canonical
import Mathlib.Data.List.Nodup

/-!
# Titles from the download

A profile in source-title mode leaves the title open.  Once the download is there, `resolveUpload` gives the upload and
every target a title: the title of the source, cut to what the platform takes.

`resolveUpload`              the concrete upload
`resolveUpload_toDict`       **it is an upload of its own**, with a title where there was none
`checkOverride_titled`       a titled override is accepted beside the one it comes from
-/

set_option linter.all false

namespace OpenFlame.Workflow
open Guard Text Json Editing
open Upload (Mode Platform)

/-- `StepStatus` -/
inductive StepStatus where
  | waiting | ready | failed | attention
  deriving DecidableEq, Repr

structure DownloadSnapshot where
  status : StepStatus
  asset_id : Option Text
  code : Text
  source_title : Option Text

/-- `_ellipsis_title` -/
def ellipsisTitle (value : Text) (maximum : Nat) : Text :=
  if value.length ≤ maximum then value
  else if maximum = 1 then ['…']
  else value.take (maximum - 1) ++ ['…']

/-- what `_download_source_text` takes, once it is stripped -/
def IsSourceText (maximum : Nat) (s : Text) : Prop :=
  s ≠ [] ∧ s.length ≤ maximum ∧ s.all (fun c => decide (32 ≤ c.toNat)) = true ∧ '\x7f' ∉ s

instance (maximum : Nat) (s : Text) : Decidable (IsSourceText maximum s) := inferInstanceAs (Decidable (_ ∧ _ ∧ _ ∧ _))

/-- `_download_source_text` -/
def downloadSourceText (value : Option Text) (maximum : Nat) : Option Text :=
  value.bind (fun s => if IsSourceText maximum (strip s) then some (strip s) else none)

section
variable {F : Type}

/-- one capability of the upload domain, for the platforms that are asked for -/
def titleLimitStep (platforms : List Text) (limits : List (Text × Nat)) (capability : Value F) :
    Except WorkflowErr (List (Text × Nat)) :=
  match object? capability with
  | none => .ok limits
  | some ms =>
    match get ms "id" with
    -- neither can be asked for in a set
    | .arr _ => .error .typeError
    | .obj _ => .error .typeError
    | .str platform =>
      if platform ∈ platforms then do
        let limit ← fetch (int? (get ms "title_limit")) .workflow_source_metadata_unavailable
        require (platform ∉ limits.map Prod.fst ∧ 1 ≤ limit ∧ limit ≤ 100) .workflow_source_metadata_unavailable
        return limits ++ [(platform, limit.toNat)]
      else .ok limits
    | _ => .ok limits

/-- `_upload_title_limits`, of the status of the upload domain if it has one -/
def uploadTitleLimits (status : Option (Value F)) (platforms : List Text) : Except WorkflowErr (List (Text × Nat)) := do
  let ms ← fetch (status.bind object?) .workflow_source_metadata_unavailable
  let capabilities ← fetch (array? (get ms "platforms")) .workflow_source_metadata_unavailable
  let limits ← thread (titleLimitStep platforms) [] capabilities
  require ((∀ l ∈ limits, l.1 ∈ platforms) ∧ ∀ p ∈ platforms, p ∈ limits.map Prod.fst)
    .workflow_source_metadata_unavailable
  return limits

/-- the limit of the platform of an account -/
def titleLimit (bindings : List AccountBinding) (limits : List (Text × Nat)) (account_id : HexIdentifier) : Nat :=
  (((bindings.find? (fun b => b.account_id == account_id)).bind (fun b => limits.lookup (platformName b.platform)))).getD 0

/-- one of the overrides of a profile, under its account -/
def overrideOf (account_ids : List HexIdentifier) (raw : Value F) :
    Except WorkflowErr (HexIdentifier × List (Text × Value F)) := do
  let ms ← fetch (object? raw) .workflow_source_metadata_unavailable
  let account_id ← hexIdentifier .workflow_source_metadata_unavailable (get ms "account_id")
  require (account_id ∈ account_ids) .workflow_source_metadata_unavailable
  return (account_id, ms)

/-- the override of an account, with a title -/
def titledOverride (overrides : List (HexIdentifier × List (Text × Value F))) (title : Text) (account_id : HexIdentifier) :
    List (Text × Value F) :=
  let override := (overrides.lookup account_id).getD [("account_id".toList, .str account_id.1)]
  if "title".toList ∈ keys override then override else Json.insert "title".toList (.str title) override

/-- `concrete`, without the mode of its title -/
def withoutTitleMode (ms : List (Text × Value F)) : List (Text × Value F) :=
  ms.filter (fun m => m.1 != "title_mode".toList)

/-- `resolve_upload` -/
def resolveUpload (status : Option (Value F)) (upload : Value F) (download : DownloadSnapshot) :
    Except WorkflowErr (Value F) := do
  let e := WorkflowErr.workflow_source_metadata_unavailable
  let ms ← fetch (object? upload) e
  require (HasKeys ms (expectedUpload true) (expectedUpload true ++ ["title_mode", "prefer_download_cover"])) e
  let title_mode ← fetch (text? (getOr ms "title_mode" (.str TitleMode.explicit.name))) e
  require ("prefer_download_cover".toList ∈ keys ms → bool? (get ms "prefer_download_cover") = some true) e
  if title_mode = TitleMode.explicit.name then return .obj (withoutTitleMode ms)
  else do
    require (title_mode = TitleMode.source.name) e
    require (download.status = .ready ∧ download.asset_id.isSome = true) e
    let source_title ← fetch (downloadSourceText download.source_title 1024) e
    let raw_accounts ← fetch (array? (get ms "account_ids")) e
    require (1 ≤ raw_accounts.length ∧ raw_accounts.length ≤ MAX_WORKFLOW_ACCOUNTS) e
    let raw_bindings ← fetch (array? (get ms "account_bindings")) e
    require (raw_bindings.length = raw_accounts.length) e
    let raw_overrides ← fetch (array? (get ms "target_overrides")) e
    let account_ids ← each (hexIdentifier e) raw_accounts
    require account_ids.Nodup e
    let bindings ← normalizeAccountBindings e (.arr raw_bindings)
    require ((∀ b ∈ bindings, b.account_id ∈ account_ids) ∧ ∀ id ∈ account_ids, id ∈ bindings.map (·.account_id)) e
    let limits ← uploadTitleLimits status (bindings.map (fun b => platformName b.platform))
    let overrides ← each (overrideOf account_ids) raw_overrides
    require (overrides.map Prod.fst).Nodup e
    let resolved := account_ids.map (fun id =>
      titledOverride overrides (ellipsisTitle source_title (titleLimit bindings limits id)) id)
    return .obj (Json.insert "target_overrides".toList (.arr (resolved.map .obj))
      (Json.insert "title".toList (.str (ellipsisTitle source_title 100)) (withoutTitleMode ms)))

end

/-! ## titles -/

/-- what an ellipsis leaves of a source text is a title -/
theorem ellipsisTitle_plain {s : Text} (h : IsSourceText 1024 s) (hs : strip s = s) {n : Nat} (hn : n ≤ 100) :
    IsPlain 100 (ellipsisTitle s n) ∧ strip (ellipsisTitle s n) = ellipsisTitle s n ∧ ellipsisTitle s n ≠ [] := by
  obtain ⟨hne, -, hplain, -⟩ := h
  have hchars : ∀ c ∈ s, isPlain c = true := by
    intro c hc
    have := List.all_eq_true.mp hplain c hc
    unfold isPlain
    rw [this]
    rfl
  have hdots : Sharp ['…'] := sharp_iff.mpr ⟨List.cons_ne_nil _ _, by decide⟩
  have hsharp : Sharp (ellipsisTitle s n) := by
    unfold ellipsisTitle
    split
    · exact sharp_iff.mpr ⟨hne, hs⟩
    · split
      · exact hdots
      · obtain ⟨⟨c, t, hct, hc⟩, -⟩ := sharp_iff.mpr ⟨hne, hs⟩
        cases hn1 : n - 1 with
        | zero => exact hdots
        | succ k =>
          refine Sharp.append ⟨c, t.take k, ?_, hc⟩ hdots
          rw [hct, List.take_succ_cons]
  obtain ⟨hnonempty, hstrip⟩ := sharp_iff.mp hsharp
  refine ⟨⟨?_, ?_⟩, hstrip, hnonempty⟩
  · unfold ellipsisTitle
    split
    · omega
    · split
      · decide
      · rw [List.length_append, List.length_take, List.length_singleton]
        omega
  · refine List.all_eq_true.mpr (fun c hc => ?_)
    unfold ellipsisTitle at hc
    split at hc
    · exact hchars c hc
    · split at hc
      · rw [List.mem_singleton.mp hc]
        decide
      · rcases List.mem_append.mp hc with hc | hc
        · exact hchars c (List.mem_of_mem_take hc)
        · rw [List.mem_singleton.mp hc]
          decide

/-- the title that a limit leaves -/
def plainTitle {s : Text} (h : IsSourceText 1024 s) (hs : strip s = s) {n : Nat} (hn : n ≤ 100) : PlainText 100 true :=
  ⟨ellipsisTitle s n, (ellipsisTitle_plain h hs hn).1, (ellipsisTitle_plain h hs hn).2.1,
    fun _ => (ellipsisTitle_plain h hs hn).2.2⟩

theorem downloadSourceText_eq_some {o : Option Text} {s : Text} (h : downloadSourceText o 1024 = some s) :
    IsSourceText 1024 s ∧ strip s = s := by
  unfold downloadSourceText at h
  obtain ⟨t, -, ht⟩ := Option.bind_eq_some_iff.mp h
  split at ht
  · next hsource =>
    cases ht
    exact ⟨hsource, strip_strip t⟩
  · cases ht

section
variable {F : Type}

/-- limits are at most a hundred -/
theorem uploadTitleLimits_le {status : Option (Value F)} {platforms : List Text} {limits : List (Text × Nat)}
    (h : uploadTitleLimits status platforms = .ok limits) : ∀ l ∈ limits, l.2 ≤ 100 := by
  simp only [uploadTitleLimits, bind_eq_ok, fetch_eq_ok, require_eq_ok, pure_eq_ok] at h
  obtain ⟨ms, -, capabilities, -, found, hthread, _, -, rfl⟩ := h
  refine thread_induct (fun done : List (Text × Nat) => ∀ l ∈ done, l.2 ≤ 100) ?_ hthread
    (fun _ hl => absurd hl List.not_mem_nil)
  intro done capability done' _ hstep hdone
  unfold titleLimitStep at hstep
  split at hstep
  · cases hstep
    exact hdone
  · split at hstep
    · cases hstep
    · cases hstep
    · split at hstep
      · simp only [bind_eq_ok, require_eq_ok, pure_eq_ok] at hstep
        obtain ⟨limit, -, _, ⟨-, hlimit⟩, rfl⟩ := hstep
        intro l hl
        rcases List.mem_append.mp hl with hl | hl
        · exact hdone l hl
        · rw [List.mem_singleton.mp hl]
          show limit.toNat ≤ 100
          omega
      · cases hstep
        exact hdone
    · cases hstep
      exact hdone

theorem titleLimit_le {bindings : List AccountBinding} {limits : List (Text × Nat)} (h : ∀ l ∈ limits, l.2 ≤ 100)
    (id : HexIdentifier) : titleLimit bindings limits id ≤ 100 := by
  unfold titleLimit
  cases hb : (bindings.find? (fun b => b.account_id == id)).bind (fun b => limits.lookup (platformName b.platform)) with
  | none => exact Nat.zero_le _
  | some n =>
    obtain ⟨b, -, hl⟩ := Option.bind_eq_some_iff.mp hb
    obtain ⟨front, rest, rfl, -⟩ := List.lookup_eq_some_iff.mp hl
    exact h (platformName b.platform, n) (List.mem_append_right _ List.mem_cons_self)

/-! ## overrides -/

variable {cover : Bool} {u : UploadProfile F true cover}
  {found : List (HexIdentifier × List (Text × Value F))} {titles : HexIdentifier → PlainText 100 true}

/-- the overrides of an upload, under their accounts -/
structure Found (u : UploadProfile F true cover) (found : List (HexIdentifier × List (Text × Value F))) : Prop where
  values : found.map Prod.snd = u.target_overrides
  accounts : ∀ o ∈ found, overrideAccount o.2 = some o.1.1
  nodup : (found.map Prod.fst).Nodup

theorem overrideOf_obj {ids : List HexIdentifier} {ms : List (Text × Value F)} {o : HexIdentifier × List (Text × Value F)}
    (h : overrideOf ids (.obj ms) = .ok o) : overrideAccount o.2 = some o.1.1 ∧ o.2 = ms := by
  simp only [overrideOf, object?, hexIdentifier, bind_eq_ok, fetch_eq_ok, Option.some.injEq, exists_eq_left',
    ensure_eq_ok, require_eq_ok, pure_eq_ok] at h
  obtain ⟨id, ⟨s, hs, rfl⟩, _, -, rfl⟩ := h
  exact ⟨hs, rfl⟩

theorem found_of_each (h : each (overrideOf u.account_ids) (u.target_overrides.map .obj) = .ok found)
    (hnodup : (found.map Prod.fst).Nodup) : Found u found := by
  suffices hboth : found.map Prod.snd = u.target_overrides ∧ ∀ o ∈ found, overrideAccount o.2 = some o.1.1 from
    ⟨hboth.1, hboth.2, hnodup⟩
  clear hnodup
  generalize u.target_overrides = l at h
  induction l generalizing found with
  | nil =>
    cases h
    exact ⟨rfl, fun o ho => nomatch ho⟩
  | cons ms l ih =>
    obtain ⟨o, rest, ho, hrest, rfl⟩ := each_cons_eq_ok.mp h
    obtain ⟨hvalues, haccounts⟩ := ih hrest
    obtain ⟨haccount, rfl⟩ := overrideOf_obj ho
    exact ⟨congrArg (o.2 :: ·) hvalues, List.forall_mem_cons.mpr ⟨haccount, haccounts⟩⟩

/-- the override that an account has, or would have -/
def sourceOverride (found : List (HexIdentifier × List (Text × Value F))) (id : HexIdentifier) : List (Text × Value F) :=
  (found.lookup id).getD [("account_id".toList, .str id.1)]

theorem titledOverride_eq (title : Text) (id : HexIdentifier) : titledOverride found title id =
    if "title".toList ∈ keys (sourceOverride found id) then sourceOverride found id
    else Json.insert "title".toList (.str title) (sourceOverride found id) := rfl

theorem sourceOverride_cases (hf : Found u found) (id : HexIdentifier) :
    sourceOverride found id ∈ u.target_overrides ∧ (id, sourceOverride found id) ∈ found ∨
      sourceOverride found id = [("account_id".toList, .str id.1)] ∧ id ∉ found.map Prod.fst := by
  unfold sourceOverride
  cases h : found.lookup id with
  | none =>
    refine .inr ⟨rfl, fun hmem => ?_⟩
    obtain ⟨o, ho, rfl⟩ := List.mem_map.mp hmem
    exact absurd (List.lookup_eq_none_iff.mp h o ho) (by simp)
  | some ms =>
    have hmem : (id, ms) ∈ found := by
      obtain ⟨front, rest, rfl, -⟩ := List.lookup_eq_some_iff.mp h
      exact List.mem_append_right _ List.mem_cons_self
    refine .inl ⟨?_, hmem⟩
    rw [← hf.values]
    exact List.mem_map.mpr ⟨_, hmem, rfl⟩

theorem overrideAccount_source (hf : Found u found) (id : HexIdentifier) :
    overrideAccount (sourceOverride found id) = some id.1 := by
  rcases sourceOverride_cases hf id with ⟨-, hmem⟩ | ⟨heq, -⟩
  · exact hf.accounts _ hmem
  · rw [heq]
    unfold overrideAccount Json.get Json.getOr
    rw [List.lookup_cons_self]
    rfl

theorem get_titled (hf : Found u found) (title : Text) (id : HexIdentifier) :
    overrideAccount (titledOverride found title id) = some id.1 := by
  rw [titledOverride_eq]
  split
  · exact overrideAccount_source hf id
  · have hget := overrideAccount_source hf id
    unfold overrideAccount Json.get Json.getOr at hget ⊢
    rw [lookup_insert_ne (by decide)]
    exact hget

/-- the overrides with titles fit an upload with a title -/
theorem Found.fits (hf : Found u found) (titles : HexIdentifier → PlainText 100 true) :
    OverridesFit u.account_ids .explicit (u.account_ids.map (fun id => titledOverride found (titles id).1 id)) := by
  refine ⟨Nat.le_of_eq (List.length_map _), fun ms hms => ?_, ?_⟩
  · obtain ⟨id, hid, rfl⟩ := List.mem_map.mp hms
    exact ⟨⟨id, hid, get_titled hf _ _⟩, nofun⟩
  · have haccounts : (u.account_ids.map (fun id => titledOverride found (titles id).1 id)).map overrideAccount =
        u.account_ids.map (fun id => some id.1) := by
      rw [List.map_map]
      exact List.map_congr_left (fun id _ => get_titled hf _ _)
    rw [haccounts]
    refine List.Nodup.map (fun a b h => Subtype.ext (Option.some.inj h)) u.valid_accounts.2.2

/-! ## the resolved upload -/

/-- an upload with a title of its own -/
def UploadProfile.resolve (u : UploadProfile F true cover) (title : PlainText 100 true)
    (overrides : List (List (Text × Value F))) (h : OverridesFit u.account_ids .explicit overrides) :
    UploadProfile F true cover :=
  { u with
    title_mode := .explicit
    title := title
    target_overrides := overrides
    valid_title := nofun
    valid_overrides := h }

/-- the members that come before the overrides -/
def UploadProfile.front (u : UploadProfile F true cover) : List (String × Value F) :=
  [("account_bindings", .arr (u.account_bindings.map (fun b => .obj (record b.items)))),
    ("account_ids", .arr (u.account_ids.map (fun id => .str id.1))),
    ("category_id", optionalInt (u.category_id.map Subtype.val)),
    ("copyright", optionalInt (u.copyright.map Subtype.val)), ("description", .str u.description.1),
    ("mode", .str (modeName u.mode))] ++
  ((if u.prefer_download_cover then [("prefer_download_cover", .bool true)] else []) ++
    [("source_credit", .str u.source_credit.1), ("tags", .arr (u.tags.map (fun t => .str t.1)))])

theorem UploadProfile.front_names (u : UploadProfile F true cover) : u.front.map Prod.fst =
    ["account_bindings", "account_ids", "category_id", "copyright", "description", "mode"] ++
      ((if u.prefer_download_cover then ["prefer_download_cover"] else []) ++ ["source_credit", "tags"]) := by
  unfold UploadProfile.front
  cases u.prefer_download_cover <;> rfl

theorem UploadProfile.items_eq (u : UploadProfile F true cover) : u.items =
    u.front ++ ("target_overrides", .arr (u.target_overrides.map .obj)) :: ("title", .str u.title.1) ::
      (if u.title_mode = .source then [("title_mode", .str u.title_mode.name)] else []) := by
  obtain ⟨m, p, _⟩ := u
  cases p <;> rfl

theorem front_before (u : UploadProfile F true cover) :
    ∀ n ∈ u.front.map Prod.fst, before n.toList "target_overrides".toList = true ∧ n ≠ "title_mode" ∧
      before n.toList "title".toList = true := by
  rw [u.front_names]
  cases u.prefer_download_cover <;> decide

theorem withoutTitleMode_record {ms : List (String × Value F)} (h : ∀ n ∈ ms.map Prod.fst, n ≠ "title_mode")
    (v : Value F) : withoutTitleMode (record (ms ++ [("title_mode", v)])) = record ms := by
  unfold withoutTitleMode record
  rw [List.map_append, List.filter_append]
  have hkeep : (ms.map (fun m => (m.1.toList, m.2))).filter (fun m => m.1 != "title_mode".toList) =
      ms.map (fun m => (m.1.toList, m.2)) := by
    refine List.filter_eq_self.mpr (fun m hm => ?_)
    obtain ⟨x, hx, rfl⟩ := List.mem_map.mp hm
    exact bne_iff_ne.mpr (fun e => h x.1 (List.mem_map_of_mem hx) (String.toList_inj.mp e))
  have hdrop : ([("title_mode", v)].map (fun m => (m.1.toList, m.2))).filter
      (fun m => m.1 != "title_mode".toList) = [] := by
    refine List.filter_eq_nil_iff.mpr (fun m hm => ?_)
    rw [List.mem_singleton.mp hm, bne_self_eq_false]
    exact Bool.false_ne_true
  rw [hkeep, hdrop, List.append_nil]

theorem resolve_items (hs : u.title_mode = .source) (title : PlainText 100 true)
    {overrides : List (List (Text × Value F))} (h : OverridesFit u.account_ids .explicit overrides) :
    Json.insert "target_overrides".toList (.arr (overrides.map .obj))
      (Json.insert "title".toList (.str title.1) (withoutTitleMode (record u.items))) =
      record (u.resolve title overrides h).items := by
  have hshape : u.items = (u.front ++ [("target_overrides", .arr (u.target_overrides.map .obj)),
      ("title", .str u.title.1)]) ++ [("title_mode", .str u.title_mode.name)] := by
    rw [u.items_eq, if_pos hs, List.append_assoc]
    rfl
  have hnames : ∀ n ∈ (u.front ++ [("target_overrides", Value.arr (u.target_overrides.map .obj)),
      ("title", .str u.title.1)]).map Prod.fst, n ≠ "title_mode" := by
    intro n hn
    rw [List.map_append] at hn
    rcases List.mem_append.mp hn with hn | hn
    · exact (front_before u n hn).2.1
    · have hlast : ∀ n ∈ ["target_overrides", "title"], n ≠ "title_mode" := by decide
      exact hlast n hn
  have htitle : ∀ n ∈ (u.front ++ [("target_overrides", Value.arr (u.target_overrides.map .obj))]).map Prod.fst,
      before n.toList "title".toList = true := by
    intro n hn
    rw [List.map_append] at hn
    rcases List.mem_append.mp hn with hn | hn
    · exact (front_before u n hn).2.2
    · have hlast : ∀ n ∈ ["target_overrides"], before n.toList "title".toList = true := by decide
      exact hlast n hn
  have hinner : u.front ++ [("target_overrides", Value.arr (u.target_overrides.map .obj)), ("title", .str u.title.1)] =
      (u.front ++ [("target_overrides", .arr (u.target_overrides.map .obj))]) ++ ("title", .str u.title.1) :: [] := by
    rw [List.append_assoc]
    rfl
  have houter : (u.front ++ [("target_overrides", Value.arr (u.target_overrides.map .obj))]) ++
      ("title", .str title.1) :: [] = u.front ++ ("target_overrides", .arr (u.target_overrides.map .obj)) ::
        [("title", .str title.1)] := by
    rw [List.append_assoc]
    rfl
  rw [hshape, withoutTitleMode_record hnames, hinner, insert_record htitle, houter,
    insert_record (fun n hn => (front_before u n hn).1), (u.resolve title overrides h).items_eq]
  rfl

/-- **A resolved upload is an upload of its own**: it has a title, and so has each of its overrides. -/
theorem resolveUpload_toDict {status : Option (Value F)} {download : DownloadSnapshot} {c : Value F}
    (hs : u.title_mode = .source) (h : resolveUpload status u.toDict download = .ok c) :
    ∃ (title : PlainText 100 true) (found : List (HexIdentifier × List (Text × Value F)))
      (titles : HexIdentifier → PlainText 100 true) (hf : Found u found),
      c = (u.resolve title _ (hf.fits titles)).toDict := by
  obtain ⟨hids, -, -, -, -, -, -, -, hoverrides⟩ := u.lookups
  obtain ⟨hmode, -, -⟩ := u.lookups_optional
  rw [hs, if_pos rfl] at hmode
  simp only [resolveUpload, UploadProfile.toDict, object?, bind_eq_ok, fetch_eq_ok, Option.some.injEq, exists_eq_left',
    require_eq_ok, get_record, getOr_record, hids, hoverrides, hmode, Option.getD_some, text?, array?] at h
  obtain ⟨_, -, _, -, h⟩ := h
  rw [if_neg (by decide)] at h
  simp only [bind_eq_ok, fetch_eq_ok, require_eq_ok, pure_eq_ok] at h
  obtain ⟨_, -, _, -, source, hsource, raws, hraws, _, -, _, -, _, -, _, hraw, ids, hparsed, _, -, bindings, -, _, -,
    limits, hlimits, found, hfound, _, hnodup, rfl⟩ := h
  cases hraws
  cases hraw
  rw [each_map (hexIdentifier_str _)] at hparsed
  cases hparsed
  have hf : Found u found := found_of_each hfound hnodup
  obtain ⟨htext, hstrip⟩ := downloadSourceText_eq_some hsource
  have hlimit := @titleLimit_le bindings _ (uploadTitleLimits_le hlimits)
  let titles : HexIdentifier → PlainText 100 true := fun id => plainTitle htext hstrip (hlimit id)
  exact ⟨plainTitle htext hstrip (Nat.le_refl 100), found, titles, hf,
    congrArg Value.obj (resolve_items hs (plainTitle htext hstrip (Nat.le_refl 100)) (hf.fits titles))⟩

/-- what it takes to resolve an upload -/
theorem resolveUpload_source {status : Option (Value F)} {download : DownloadSnapshot} {source : Text}
    {limits : List (Text × Nat)} (hs : u.title_mode = .source)
    (hready : download.status = .ready ∧ download.asset_id.isSome = true)
    (hsource : downloadSourceText download.source_title 1024 = some source)
    (hlimits : uploadTitleLimits status (u.account_bindings.map (fun b => platformName b.platform)) = .ok limits)
    (hfound : each (overrideOf u.account_ids) (u.target_overrides.map .obj) = .ok found)
    (hnodup : (found.map Prod.fst).Nodup) :
    resolveUpload status u.toDict download = .ok (.obj (Json.insert "target_overrides".toList
      (.arr ((u.account_ids.map (fun id => titledOverride found
        (ellipsisTitle source (titleLimit u.account_bindings limits id)) id)).map .obj))
      (Json.insert "title".toList (.str (ellipsisTitle source 100)) (withoutTitleMode (record u.items))))) := by
  obtain ⟨hids, -, -, -, -, -, -, -, hoverrides⟩ := u.lookups
  obtain ⟨hmode, hprefer, hbindings⟩ := u.lookups_optional
  have hkeys : HasKeys (record u.items) (expectedUpload true)
      (expectedUpload true ++ ["title_mode", "prefer_download_cover"]) := by
    refine (hasKeys_record _ u.names).mpr ?_
    generalize u.prefer_download_cover = b
    generalize u.title_mode = m
    cases b <;> cases m <;> decide
  have hcover : "prefer_download_cover".toList ∈ keys (record u.items) →
      bool? ((u.items.lookup "prefer_download_cover").getD .null) = some true := by
    rw [hprefer, keys_record, u.names]
    generalize u.prefer_download_cover = b
    generalize u.title_mode = m
    cases b with
    | true => exact fun _ => rfl
    | false => exact fun h => absurd h (by cases m <;> decide)
  have hfit : u.account_bindings.length = u.account_ids.length ∧ (u.account_bindings.map (·.account_id)).Nodup ∧
      (∀ b ∈ u.account_bindings, b.account_id ∈ u.account_ids) ∧
      ∀ id ∈ u.account_ids, id ∈ u.account_bindings.map (·.account_id) := u.valid_bindings
  have hparsed : normalizeAccountBindings WorkflowErr.workflow_source_metadata_unavailable
      (.arr (u.account_bindings.map (fun b => Value.obj (F := F) (record b.items)))) = .ok u.account_bindings := by
    simp only [normalizeAccountBindings, array?, bind_eq_ok, fetch_eq_ok, Option.some.injEq, exists_eq_left',
      require_eq_ok, pure_eq_ok]
    exact ⟨_, each_map (normalizeAccountBinding_items _) _, ⟨⟩, hfit.2.1, rfl⟩
  rw [hs, if_pos rfl] at hmode
  simp only [resolveUpload, UploadProfile.toDict, object?, bind_eq_ok, fetch_eq_ok, Option.some.injEq, exists_eq_left',
    require_eq_ok, get_record, getOr_record, hids, hoverrides, hmode, hbindings, Option.getD_some, text?, array?]
  refine ⟨⟨⟩, hkeys, ⟨⟩, hcover, ?_⟩
  rw [if_neg (by decide)]
  simp only [bind_eq_ok, fetch_eq_ok, require_eq_ok, pure_eq_ok]
  refine ⟨⟨⟩, trivial, ⟨⟩, hready, source, hsource, _, rfl, ⟨⟩, ?_, _, rfl, ⟨⟩, ?_, _, rfl, u.account_ids,
    each_map (hexIdentifier_str _) _, ⟨⟩, u.valid_accounts.2.2, u.account_bindings, hparsed, ⟨⟩, hfit.2.2, limits,
    hlimits, found, hfound, ⟨⟩, hnodup, rfl⟩
  · rw [List.length_map]
    exact ⟨u.valid_accounts.1, u.valid_accounts.2.1⟩
  · rw [List.length_map, List.length_map]
    exact hfit.1

end

/-! ## acceptance -/

section
variable {F : Type} {fl : Floats F}

theorem finiteMembers_iff {ms : List (Text × Value F)} : finiteMembers fl ms = true ↔ ∀ m ∈ ms, finite fl m.2 = true := by
  induction ms with
  | nil => exact ⟨fun _ m hm => (nomatch hm), fun _ => rfl⟩
  | cons m ms ih =>
    rw [finiteMembers, Bool.and_eq_true, ih, List.forall_mem_cons]

theorem finiteList_iff {vs : List (Value F)} : finiteList fl vs = true ↔ ∀ v ∈ vs, finite fl v = true := by
  induction vs with
  | nil => exact ⟨fun _ v hv => (nomatch hv), fun _ => rfl⟩
  | cons v vs ih =>
    rw [finiteList, Bool.and_eq_true, ih, List.forall_mem_cons]

theorem finite_obj {ms : List (Text × Value F)} : finite fl (.obj ms) = true ↔ ∀ m ∈ ms, finite fl m.2 = true := by
  rw [finite]
  exact finiteMembers_iff

theorem finite_arr {vs : List (Value F)} : finite fl (.arr vs) = true ↔ ∀ v ∈ vs, finite fl v = true := by
  rw [finite]
  exact finiteList_iff

theorem finite_record {ms : List (String × Value F)} :
    finite fl (.obj (record ms)) = true ↔ ∀ m ∈ ms, finite fl m.2 = true := by
  rw [finite_obj]
  constructor
  · exact fun h m hm => h (m.1.toList, m.2) (List.mem_map.mpr ⟨m, hm, rfl⟩)
  · intro h m hm
    obtain ⟨x, hx, rfl⟩ := List.mem_map.mp hm
    exact h x hx

variable {py : Python fl}

mutual

/-- a finite value equals itself -/
theorem equals_self : ∀ {v : Value F}, finite fl v = true → equals py v v = true
  | .null, _ => by rw [equals]
  | .bool b, _ => by rw [equals, beq_self_eq_true]
  | .int i, _ => by rw [equals, beq_self_eq_true]
  | .float f, h => by
    rw [finite] at h
    rw [equals]
    exact py.equal_self f h
  | .str s, _ => by rw [equals, beq_self_eq_true]
  | .arr vs, h => by
    rw [finite] at h
    rw [equals]
    exact equalsList_self h
  | .obj ms, h => by
    rw [finite] at h
    rw [equals]
    exact equalsMembers_self h

theorem equalsList_self : ∀ {vs : List (Value F)}, finiteList fl vs = true → equalsList py vs vs = true
  | [], _ => by rw [equalsList]
  | v :: vs, h => by
    rw [finiteList, Bool.and_eq_true] at h
    rw [equalsList, equals_self h.1, equalsList_self h.2]
    rfl

theorem equalsMembers_self : ∀ {ms : List (Text × Value F)}, finiteMembers fl ms = true → equalsMembers py ms ms = true
  | [], _ => by rw [equalsMembers]
  | (k, v) :: ms, h => by
    rw [finiteMembers, Bool.and_eq_true] at h
    rw [equalsMembers, beq_self_eq_true, equals_self h.1, equalsMembers_self h.2]
    rfl

end

theorem equals_str {s t : Text} : equals py (.str s) (.str t) = (s == t) := by rw [equals]

variable {cover : Bool} {u : UploadProfile F true cover}
  {found : List (HexIdentifier × List (Text × Value F))} {titles : HexIdentifier → PlainText 100 true}

/-- what is known of the overrides of a stored profile -/
structure Stored (fl : Floats F) (u : UploadProfile F true cover) : Prop where
  source : u.title_mode = .source
  sorted : ∀ ms ∈ u.target_overrides, Sorted ms
  finite : ∀ ms ∈ u.target_overrides, ∀ m ∈ ms, finite fl m.2 = true

theorem get_account {ms : List (Text × Value F)} {s : Text} (h : overrideAccount ms = some s) :
    Json.get ms "account_id" = .str s := by
  unfold overrideAccount at h
  cases hg : Json.get ms "account_id" with
  | str t =>
    rw [hg] at h
    cases h
    rfl
  | _ =>
    rw [hg] at h
    cases h

/-- the override of an account is found under its account -/
theorem find_source (hf : Found u found) (id : HexIdentifier) :
    (u.target_overrides.find? (fun ms => equals py (Json.get ms "account_id") (.str id.1))).getD
      [("account_id".toList, .str id.1)] = sourceOverride found id := by
  have haccount : ∀ o ∈ found, equals py (Json.get o.2 "account_id") (.str id.1) = (id == o.1) := by
    intro o ho
    rw [get_account (hf.accounts o ho), equals_str, Bool.eq_iff_iff, beq_iff_eq, beq_iff_eq]
    exact ⟨fun e => Subtype.ext e.symm, fun e => e ▸ rfl⟩
  unfold sourceOverride
  rw [← hf.values]
  congr 1
  clear hf
  induction found with
  | nil => rfl
  | cons o found ih =>
    rw [List.map_cons, List.find?_cons, haccount o List.mem_cons_self, List.lookup_cons,
      ih (fun x hx => haccount x (List.mem_cons_of_mem _ hx))]

/-- **A titled override is accepted** beside the override it comes from. -/
theorem checkOverride_titled (hstored : Stored fl u) (hf : Found u found) (title : PlainText 100 true) (id : HexIdentifier) :
    checkOverride py u.target_overrides (titledOverride found title.1 id) = .ok () := by
  have hsource := sourceOverride_cases hf id
  have hlookup : ∀ m ∈ sourceOverride found id, (sourceOverride found id).lookup m.1 = some m.2 ∧
      finite fl m.2 = true := by
    intro m hm
    rcases hsource with ⟨hmem, -⟩ | ⟨heq, -⟩
    · exact ⟨(hstored.sorted _ hmem).lookup hm, hstored.finite _ hmem m hm⟩
    · rw [heq] at hm ⊢
      rw [List.mem_singleton.mp hm]
      exact ⟨List.lookup_cons_self, rfl⟩
  have htitle : "title".toList ∈ keys (sourceOverride found id) →
      isFixedTitle (Json.get (sourceOverride found id) "title") = true := by
    intro hmem
    rcases hsource with ⟨hover, -⟩ | ⟨heq, -⟩
    · exact (u.valid_overrides.2.1 _ hover).2 hstored.source hmem
    · rw [heq] at hmem
      have hne : "title".toList ≠ "account_id".toList := by decide
      exact absurd (List.mem_singleton.mp hmem) hne
  unfold checkOverride
  simp only [get_account (get_titled hf title.1 id), find_source hf id]
  rw [titledOverride_eq]
  by_cases hmem : "title".toList ∈ keys (sourceOverride found id)
  · rw [if_pos hmem]
    obtain ⟨t, ht, htext⟩ : ∃ t : PlainText 100 true,
        plainText WorkflowErr.workflow_data_invalid 100 true (Json.get (sourceOverride found id) "title") = .ok t ∧
          text? (Json.get (sourceOverride found id) "title") = some t.1 := by
      have hfixed := htitle hmem
      unfold isFixedTitle at hfixed
      split at hfixed
      · next t ht =>
        have htext := beq_iff_eq.mp hfixed
        refine ⟨t, ?_, htext⟩
        cases hg : Json.get (sourceOverride found id) "title" with
        | str s =>
          rw [hg] at htext
          cases htext
          exact plainText_str _ t
        | _ =>
          rw [hg] at htext
          cases htext
      · cases hfixed
    rw [ht, ok_bind]
    refine require_pos ⟨fun k hk => List.mem_cons_of_mem _ hk, fun k hk => ?_, fun m hm => ?_, htext⟩
    · rcases List.mem_cons.mp hk with rfl | hk
      · exact hmem
      · exact hk
    · rw [(hlookup m hm).1]
      exact equals_self (hlookup m hm).2
  · rw [if_neg hmem]
    have hget : Json.get (Json.insert "title".toList (.str title.1) (sourceOverride found id)) "title" = .str title.1 := by
      unfold Json.get Json.getOr
      rw [lookup_insert_self]
      rfl
    rw [hget, plainText_str, ok_bind]
    refine require_pos ⟨fun k hk => List.mem_cons.mpr (mem_keys_insert.mp hk),
      fun k hk => mem_keys_insert.mpr (List.mem_cons.mp hk), fun m hm => ?_, rfl⟩
    have hne : m.1 ≠ "title".toList := by
      intro e
      exact hmem (e ▸ List.mem_map_of_mem hm)
    rw [lookup_insert_ne hne, (hlookup m hm).1]
    exact equals_self (hlookup m hm).2

end

end OpenFlame.Workflow
