import OpenFlame.Workflow.Titles

/-!
# Fixed points, and which resolved uploads are accepted

`checkResolved_resolve`   what a resolved upload changes is what it may change
`normalizeResolved_iff`   **a resolved upload is accepted iff the profile with it is not too large**
`profiles_canonical`      **the normal forms are fixed points**
-/

set_option linter.all false

namespace OpenFlame.Workflow
open Guard Text Json Editing
open Upload (Mode Platform)

/-! ## sizes -/

theorem utf8Size_append (s t : Text) : utf8Size (s ++ t) = utf8Size s + utf8Size t := by
  unfold utf8Size
  rw [String.toByteArray_ofList, String.toByteArray_ofList, String.toByteArray_ofList, List.utf8Encode_append,
    ByteArray.size_append]

theorem utf8Size_cons (c : Char) (s : Text) : utf8Size (c :: s) = utf8Size [c] + utf8Size s := utf8Size_append [c] s

theorem utf8Size_nil : utf8Size [] = 0 := by
  have h := utf8Size_append [] []
  rw [List.append_nil] at h
  omega

theorem utf8Size_eq_sum (s : Text) : utf8Size s = (s.map Char.utf8Size).sum := by
  have hone : ∀ c : Char, utf8Size [c] = c.utf8Size := by
    intro c
    unfold utf8Size
    rw [String.toByteArray_ofList, List.utf8Encode_singleton]
    simp
  induction s with
  | nil => exact utf8Size_nil
  | cons c s ih =>
    rw [utf8Size_cons, ih, hone]
    rfl

/-- texts with commas grow as one of them does -/
theorem commas_replace (s t : Text) (front rest : List Text) :
    utf8Size (commas (front ++ s :: rest)) + utf8Size t = utf8Size (commas (front ++ t :: rest)) + utf8Size s := by
  induction front with
  | nil =>
    cases rest with
    | nil => exact Nat.add_comm _ _
    | cons r rest =>
      show utf8Size (s ++ ',' :: commas (r :: rest)) + _ = utf8Size (t ++ ',' :: commas (r :: rest)) + _
      rw [utf8Size_append, utf8Size_append]
      omega
  | cons f front ih =>
    have hcons : ∀ x : Text, utf8Size (commas (f :: front ++ x :: rest)) =
        utf8Size f + (utf8Size [','] + utf8Size (commas (front ++ x :: rest))) := by
      intro x
      rw [← utf8Size_cons ',' (commas (front ++ x :: rest)), ← utf8Size_append]
      exact congrArg utf8Size (commas_cons f (List.append_ne_nil_of_right_ne_nil _ (List.cons_ne_nil _ _)))
    rw [hcons, hcons]
    omega

theorem commas_le {s : Text} {ss : List Text} (h : s ∈ ss) : utf8Size s ≤ utf8Size (commas ss) := by
  obtain ⟨front, rest, rfl⟩ := List.append_of_mem h
  have := commas_replace s [] front rest
  rw [utf8Size_nil] at this
  omega

section
variable {F : Type} {fl : Floats F}

/-- the text of a member -/
def memberText (fl : Floats F) (m : Text × Value F) : Text := quoted m.1 ++ ':' :: dumps fl m.2

theorem size_memberText (m : Text × Value F) :
    utf8Size (memberText fl m) = utf8Size (quoted m.1) + (utf8Size [':'] + utf8Size (dumps fl m.2)) := by
  unfold memberText
  rw [utf8Size_append, ← utf8Size_cons]

theorem size_dumps_obj (ms : List (Text × Value F)) : utf8Size (dumps fl (.obj ms)) =
    utf8Size ['\x7b'] + (utf8Size (commas (ms.map (memberText fl))) + utf8Size ['\x7d']) := by
  rw [dumps, dumpsMembers_eq, ← utf8Size_append, ← utf8Size_cons]
  rfl

theorem size_dumps_arr (vs : List (Value F)) : utf8Size (dumps fl (.arr vs)) =
    utf8Size ['['] + (utf8Size (commas (vs.map (dumps fl))) + utf8Size [']']) := by
  rw [dumps, dumpsList_eq, ← utf8Size_append, ← utf8Size_cons]

/-- an object grows as one of its members does -/
theorem size_obj (key : Text) (v w : Value F) (front rest : List (Text × Value F)) :
    utf8Size (dumps fl (.obj (front ++ (key, v) :: rest))) + utf8Size (dumps fl w) =
      utf8Size (dumps fl (.obj (front ++ (key, w) :: rest))) + utf8Size (dumps fl v) := by
  have hcommas := commas_replace (memberText fl (key, v)) (memberText fl (key, w)) (front.map (memberText fl))
    (rest.map (memberText fl))
  rw [size_memberText, size_memberText] at hcommas
  rw [size_dumps_obj, size_dumps_obj, List.map_append, List.map_cons, List.map_append, List.map_cons]
  dsimp only at hcommas
  omega

theorem size_record (key : String) (v w : Value F) (front rest : List (String × Value F)) :
    utf8Size (dumps fl (.obj (record (front ++ (key, v) :: rest)))) + utf8Size (dumps fl w) =
      utf8Size (dumps fl (.obj (record (front ++ (key, w) :: rest)))) + utf8Size (dumps fl v) := by
  unfold record
  rw [List.map_append, List.map_append, List.map_cons, List.map_cons]
  exact size_obj key.toList v w _ _

theorem size_arr (v w : Value F) : utf8Size (dumps fl (.arr [v])) + utf8Size (dumps fl w) =
    utf8Size (dumps fl (.arr [w])) + utf8Size (dumps fl v) := by
  rw [size_dumps_arr, size_dumps_arr]
  show _ + (utf8Size (dumps fl v) + _) + _ = _ + (utf8Size (dumps fl w) + _) + _
  omega

/-- the text of a note of letters -/
theorem size_letters (k : Nat) : utf8Size (dumps fl (.str (List.replicate k 'x'))) = utf8Size (dumps fl (.str [])) + k := by
  have hescape : (List.replicate k 'x').flatMap escapeChar = List.replicate k 'x' := by
    have hone : escapeChar 'x' = ['x'] := by decide
    induction k with
    | zero => rfl
    | succ k ih =>
      rw [List.replicate_succ, List.flatMap_cons, ih, hone]
      rfl
  have hsize : utf8Size (List.replicate k 'x') = k := by
    clear hescape
    induction k with
    | zero => exact utf8Size_nil
    | succ k ih =>
      have hone : utf8Size ['x'] = 1 := by
        rw [utf8Size_eq_sum]
        decide
      rw [List.replicate_succ, utf8Size_cons, ih, hone, Nat.add_comm]
  have hquoted : ∀ s : Text, utf8Size (quoted s) =
      utf8Size ['"'] + (utf8Size (s.flatMap escapeChar) + utf8Size ['"']) := by
    intro s
    rw [← utf8Size_append, ← utf8Size_cons]
    rfl
  rw [dumps, dumps, hquoted, hquoted, hescape, hsize]
  show _ + (k + _) = _ + (utf8Size [] + _) + k
  rw [utf8Size_nil]
  omega

/-- a profile grows with a note in an override of its upload -/
theorem size_note (k : Nat) (outer front rest after : List (String × Value F)) (account_id : Value F) :
    utf8Size (dumps fl (.obj (record (outer ++ ("upload", .obj (record (front ++ ("target_overrides",
      .arr [.obj (record ([("account_id", account_id)] ++ ("note", .str (List.replicate k 'x')) :: after))]) :: rest))) ::
        [])))) =
      utf8Size (dumps fl (.obj (record (outer ++ ("upload", .obj (record (front ++ ("target_overrides",
        .arr [.obj (record ([("account_id", account_id)] ++ ("note", .str []) :: after))]) :: rest))) :: [])))) + k := by
  have h1 := @size_letters F fl k
  have h2 := @size_record F fl "note" (.str (List.replicate k 'x')) (.str []) [("account_id", account_id)] after
  have h3 := @size_arr F fl
    (.obj (record ([("account_id", account_id)] ++ ("note", .str (List.replicate k 'x')) :: after)))
    (.obj (record ([("account_id", account_id)] ++ ("note", .str []) :: after)))
  have h4 := @size_record F fl "target_overrides"
    (.arr [.obj (record ([("account_id", account_id)] ++ ("note", .str (List.replicate k 'x')) :: after))])
    (.arr [.obj (record ([("account_id", account_id)] ++ ("note", .str []) :: after))]) front rest
  have h5 := @size_record F fl "upload"
    (.obj (record (front ++ ("target_overrides",
      .arr [.obj (record ([("account_id", account_id)] ++ ("note", .str (List.replicate k 'x')) :: after))]) :: rest)))
    (.obj (record (front ++ ("target_overrides",
      .arr [.obj (record ([("account_id", account_id)] ++ ("note", .str []) :: after))]) :: rest))) outer []
  omega

/-- a member is not larger than the object it is in -/
theorem size_member {m : Text × Value F} {ms : List (Text × Value F)} (h : m ∈ ms) :
    utf8Size (dumps fl m.2) ≤ utf8Size (dumps fl (.obj ms)) := by
  have hcommas := commas_le (List.mem_map_of_mem (f := memberText fl) h)
  rw [size_memberText] at hcommas
  rw [size_dumps_obj]
  omega

theorem canonicalWorkflowMapping_eq_ok {py : Python fl} {v : Value F} {e d : Text} :
    canonicalWorkflowMapping py v = .ok (e, d) ↔
      finite fl v = true ∧ utf8Size (dumps fl v) ≤ 128 * 1024 ∧ e = dumps fl v ∧ d = py.sha256 (dumps fl v) := by
  simp only [canonicalWorkflowMapping, bind_eq_ok, require_eq_ok, pure_eq_ok, Prod.mk.injEq]
  constructor
  · rintro ⟨_, hfinite, _, hsize, rfl, rfl⟩
    exact ⟨hfinite, hsize, rfl, rfl⟩
  · rintro ⟨hfinite, hsize, rfl, rfl⟩
    exact ⟨⟨⟩, hfinite, ⟨⟩, hsize, rfl, rfl⟩

theorem canonicalWorkflowMapping_ok (py : Python fl) {v : Value F} (hfinite : finite fl v = true)
    (hsize : utf8Size (dumps fl v) ≤ 128 * 1024) :
    canonicalWorkflowMapping py v = .ok (dumps fl v, py.sha256 (dumps fl v)) :=
  canonicalWorkflowMapping_eq_ok.mpr ⟨hfinite, hsize, rfl, rfl⟩

/-! ## what is accepted -/

variable {py : Python fl} {cover : Bool} {u : UploadProfile F true cover}
  {found : List (HexIdentifier × List (Text × Value F))} {titles : HexIdentifier → PlainText 100 true}

/-- the fields that stay as they are do so -/
theorem resolve_lookups (title : PlainText 100 true) {overrides : List (List (Text × Value F))}
    (h : OverridesFit u.account_ids .explicit overrides) :
    ∀ field ∈ immutableFields, (u.resolve title overrides h).items.lookup field = u.items.lookup field := by
  obtain ⟨m, p, _⟩ := u
  unfold immutableFields
  simp only [List.forall_mem_cons]
  cases p <;> cases m <;> exact ⟨rfl, rfl, rfl, rfl, rfl, rfl, rfl, rfl, rfl, fun _ hf => absurd hf List.not_mem_nil⟩

theorem finite_get {ms : List (Text × Value F)} (h : finite fl (.obj ms) = true) (key : String) :
    finite fl (Json.get ms key) = true := by
  unfold Json.get Json.getOr
  cases hl : ms.lookup key.toList with
  | none => rfl
  | some v =>
    obtain ⟨front, rest, rfl, -⟩ := List.lookup_eq_some_iff.mp hl
    exact finite_obj.mp h _ (List.mem_append_right _ List.mem_cons_self)

theorem distinct_iff {texts : List Text} :
    distinct py (texts.map (fun t => Value.str (F := F) t)) = true ↔ texts.Nodup := by
  induction texts with
  | nil => exact ⟨fun _ => List.nodup_nil, fun _ => rfl⟩
  | cons t ts ih =>
    rw [List.map_cons, distinct, Bool.and_eq_true, ih, List.nodup_cons, List.all_eq_true]
    refine and_congr_left' ⟨fun h hmem => ?_, fun h v hv => ?_⟩
    · have := h (.str t) (List.mem_map.mpr ⟨t, hmem, rfl⟩)
      rw [equals_str, beq_self_eq_true] at this
      cases this
    · obtain ⟨s, hs, rfl⟩ := List.mem_map.mp hv
      rw [equals_str, Bool.not_eq_true', beq_eq_false_iff_ne]
      rintro rfl
      exact h hs

/-- **A resolved upload changes only what it may change.** -/
theorem checkResolved_resolve {profile : List (Text × Value F)} (hprofile : Json.get profile "upload" = u.toDict)
    (hfinite : finite fl u.toDict = true) (hstored : Stored fl u) (hf : Found u found) (title : PlainText 100 true) :
    checkResolved py profile (u.resolve title _ (hf.fits titles)) = .ok () := by
  obtain ⟨-, -, -, -, -, -, -, -, hoverrides⟩ := u.lookups
  obtain ⟨hmode, -, -⟩ := u.lookups_optional
  rw [if_pos hstored.source, hstored.source] at hmode
  have hmodeEquals : equals py (Json.get (record u.items) "title_mode") (.str TitleMode.source.name) = true := by
    rw [get_record, hmode]
    show equals py (.str _) (.str _) = true
    rw [equals_str, beq_self_eq_true]
  have hfields : ∀ field ∈ immutableFields, equals py (Json.get (record (u.resolve title _ (hf.fits titles)).items) field)
      (Json.get (record u.items) field) = true := by
    intro field hfield
    rw [get_record, resolve_lookups title _ field hfield, ← get_record]
    exact equals_self (finite_get hfinite field)
  have harr : array? (Json.get (record u.items) "target_overrides") = some (u.target_overrides.map .obj) := by
    rw [get_record, hoverrides]
    rfl
  have haccounts : (u.resolve title _ (hf.fits titles)).target_overrides.map overrideAccount =
      u.account_ids.map (fun id => some id.1) := by
    show (u.account_ids.map _).map overrideAccount = _
    rw [List.map_map]
    exact List.map_congr_left (fun id _ => get_titled hf _ _)
  have hobjects : (u.target_overrides.map (Value.obj (F := F))).filterMap object? = u.target_overrides := by
    rw [List.filterMap_map]
    exact List.filterMap_some
  have hstr : ∀ ms ∈ u.target_overrides, ∃ s, overrideAccount ms = some s ∧ Json.get ms "account_id" = .str s := by
    intro ms hms
    obtain ⟨id, -, haccount⟩ := (u.valid_overrides.2.1 ms hms).1
    exact ⟨id.1, haccount, get_account haccount⟩
  have hhash : u.target_overrides.all (fun ms => isHashable (Json.get ms "account_id")) = true := by
    refine List.all_eq_true.mpr (fun ms hms => ?_)
    obtain ⟨s, -, hget⟩ := hstr ms hms
    rw [hget]
    rfl
  have hdistinct : distinct py (u.target_overrides.map (fun ms => Json.get ms "account_id")) = true := by
    have htexts : u.target_overrides.map (fun ms => Json.get ms "account_id") =
        (u.target_overrides.map (fun ms => (overrideAccount ms).getD [])).map .str := by
      rw [List.map_map]
      refine List.map_congr_left (fun ms hms => ?_)
      obtain ⟨s, haccount, hget⟩ := hstr ms hms
      show _ = Value.str ((overrideAccount ms).getD [])
      rw [hget, haccount]
      rfl
    rw [htexts, distinct_iff, List.nodup_map_iff_inj_on (List.Nodup.of_map _ u.valid_overrides.2.2)]
    intro a ha b hb e
    obtain ⟨s, hs, -⟩ := hstr a ha
    obtain ⟨t, ht, -⟩ := hstr b hb
    rw [hs, ht] at e
    have hst : s = t := e
    exact List.inj_on_of_nodup_map u.valid_overrides.2.2 ha hb (by rw [hs, ht, hst])
  obtain ⟨done, hdone⟩ : ∃ done, each (checkOverride py u.target_overrides)
      (u.resolve title _ (hf.fits titles)).target_overrides = .ok done := by
    refine each_total (fun ms hms => ⟨(), ?_⟩)
    obtain ⟨id, -, rfl⟩ := List.mem_map.mp hms
    exact checkOverride_titled hstored hf (titles id) id
  simp only [checkResolved, hprofile, UploadProfile.toDict, object?, bind_eq_ok, require_eq_ok, fetch_eq_ok,
    Option.some.injEq, exists_eq_left', harr, hobjects]
  exact ⟨⟨⟩, (fun h => by cases h), ⟨⟩, hmodeEquals, ⟨⟩, hfields, ⟨⟩, haccounts, ⟨⟩, hhash, ⟨⟩, ⟨(List.length_map _).symm, hdistinct⟩, done,
    hdone, rfl⟩

/-- a resolved upload is as finite as the upload it comes from -/
theorem finite_resolve (hfinite : finite fl u.toDict = true) (hstored : Stored fl u) (hf : Found u found)
    (title : PlainText 100 true) : finite fl (u.resolve title _ (hf.fits titles)).toDict = true := by
  have hmembers := finite_record.mp hfinite
  rw [u.items_eq, List.forall_mem_append] at hmembers
  have hoverride : ∀ id, ∀ m ∈ titledOverride found (titles id).1 id, finite fl m.2 = true := by
    intro id m hm
    have hsource : ∀ m ∈ sourceOverride found id, finite fl m.2 = true := by
      rcases sourceOverride_cases hf id with ⟨hmem, -⟩ | ⟨heq, -⟩
      · exact hstored.finite _ hmem
      · rw [heq]
        intro m hm
        rw [List.mem_singleton.mp hm]
        rfl
    rw [titledOverride_eq] at hm
    split at hm
    · exact hsource m hm
    · rcases mem_insert hm with rfl | hm
      · rfl
      · exact hsource m hm
  refine finite_record.mpr ?_
  rw [UploadProfile.items_eq, List.forall_mem_append, List.forall_mem_cons, List.forall_mem_cons]
  refine ⟨hmembers.1, finite_arr.mpr (fun v hv => ?_), rfl, fun m hm => nomatch hm⟩
  obtain ⟨ms, hms, rfl⟩ := List.mem_map.mp hv
  obtain ⟨id, -, rfl⟩ := List.mem_map.mp hms
  exact finite_obj.mpr (hoverride id)

/-- a profile with another upload -/
def WorkflowProfile.withUpload (p : WorkflowProfile py true) (u : UploadProfile F true p.edit_recipe.cover.isSome) :
    WorkflowProfile py true :=
  { p with upload := u }

theorem insert_upload (p : WorkflowProfile py true) (u : UploadProfile F true p.edit_recipe.cover.isSome) :
    Json.insert "upload".toList u.toDict (record p.items) = record (p.withUpload u).items := by
  have hshape : ∀ q : WorkflowProfile py true, q.items = q.items.take 6 ++ ("upload", q.upload.toDict) :: [] := fun q => rfl
  have hnames : ∀ n ∈ (p.items.take 6).map Prod.fst, before n.toList "upload".toList = true := by
    show ∀ n ∈ ["ai", "ai_data_egress_accepted", "auto_confirm_edit", "auto_confirm_upload", "download_credential_mode",
      "edit_recipe"], before n.toList "upload".toList = true
    decide
  rw [hshape p, insert_record hnames, hshape (p.withUpload u)]
  rfl

variable {p : WorkflowProfile py true} {required : Bool}

/-- another upload does not matter to the rest of a profile, and less may be required of it -/
theorem ProfileFits.withUpload (h : ProfileFits required p) (u : UploadProfile F true p.edit_recipe.cover.isSome) :
    ProfileFits false (p.withUpload u) := by
  refine ⟨h.segments, h.automation, h.recipe, ?_, h.egress, h.no_egress⟩
  have hai := h.ai
  by_cases he : aiEnabled p.edit_recipe = true
  · rw [if_pos he] at hai
    obtain ⟨a, ha, hfits⟩ := hai
    show if aiEnabled p.edit_recipe = true then _ else _
    rw [if_pos he]
    exact ⟨a, ha, hfits.tokens, nofun, hfits.dubbed, hfits.languages, hfits.bound, nofun⟩
  · rw [if_neg he] at hai
    show if aiEnabled p.edit_recipe = true then _ else _
    rw [if_neg he]
    exact hai

/-- what an upload goes through before it is accepted -/
theorem normalizeResolvedUpload_of {profile ms : List (Text × Value F)} {q : WorkflowProfile py true} {x : Text × Text}
    {e d : Text} (hparse : parseProfile py true false (.obj (Json.insert "upload".toList (.obj ms) profile)) = .ok q)
    (hwhole : canonicalWorkflowMapping py q.toDict = .ok x) (hcheck : checkResolved py profile q.upload = .ok ())
    (hupload : canonicalWorkflowMapping py q.upload.toDict = .ok (e, d)) :
    normalizeResolvedUpload py profile (.obj ms) = .ok (q.upload.toDict, e) := by
  simp only [normalizeResolvedUpload, object?, bind_eq_ok, fetch_eq_ok, Option.some.injEq, exists_eq_left', pure_eq_ok]
  exact ⟨q, hparse, x, hwhole, ⟨⟩, hcheck, (e, d), hupload, rfl⟩

theorem parseProfile_insert_upload (hfits : ProfileFits required p) (w : UploadProfile F true p.edit_recipe.cover.isSome) :
    parseProfile py true false (.obj (Json.insert "upload".toList w.toDict (record p.items))) = .ok (p.withUpload w) := by
  rw [insert_upload]
  exact parseProfile_toDict (hfits.withUpload w)

/-- a profile with an accepted upload is not too large -/
theorem accepted_size {w : UploadProfile F true p.edit_recipe.cover.isSome} {v : Value F} {e : Text}
    (hfits : ProfileFits required p) (h : normalizeResolvedUpload py (record p.items) w.toDict = .ok (v, e)) :
    utf8Size (dumps fl (p.withUpload w).toDict) ≤ 128 * 1024 := by
  simp only [normalizeResolvedUpload, UploadProfile.toDict, object?, bind_eq_ok, fetch_eq_ok, Option.some.injEq,
    exists_eq_left'] at h
  obtain ⟨q, hq, ⟨_, _⟩, hsize, -⟩ := h
  have hqeq : p.withUpload w = q := Except.ok.inj ((parseProfile_insert_upload hfits w).symm.trans hq)
  rw [← hqeq] at hsize
  exact (canonicalWorkflowMapping_eq_ok.mp hsize).2.1

/-- an upload that may replace the upload of a profile is accepted if the profile with it is not too large -/
theorem accepted_of_size {w : UploadProfile F true p.edit_recipe.cover.isSome} (hfits : ProfileFits required p)
    (hfinite : finite fl p.toDict = true) (hw : finite fl w.toDict = true)
    (hcheck : checkResolved py (record p.items) w = .ok ())
    (hsize : utf8Size (dumps fl (p.withUpload w).toDict) ≤ 128 * 1024) :
    ∃ v e, normalizeResolvedUpload py (record p.items) w.toDict = .ok (v, e) := by
  have hwhole : finite fl (p.withUpload w).toDict = true := by
    have hmembers := finite_record.mp hfinite
    have hfirst : ∀ m ∈ p.items.take 6, finite fl m.2 = true := fun m hm => hmembers m (List.mem_of_mem_take hm)
    refine finite_record.mpr ?_
    show ∀ m ∈ p.items.take 6 ++ [("upload", w.toDict)], finite fl m.2 = true
    rw [List.forall_mem_append]
    exact ⟨hfirst, fun m hm => by rw [List.mem_singleton.mp hm]; exact hw⟩
  have hmember : ("upload".toList, w.toDict) ∈ record (p.withUpload w).items :=
    List.mem_map.mpr ⟨("upload", w.toDict), List.mem_of_mem_getLast? rfl, rfl⟩
  have hsmaller := @size_member F fl _ _ hmember
  dsimp only at hsmaller
  have hwSize : utf8Size (dumps fl w.toDict) ≤ 128 * 1024 := hsmaller.trans hsize
  have hmapping := canonicalWorkflowMapping_ok py hwhole hsize
  have hlast := canonicalWorkflowMapping_ok py hw hwSize
  exact ⟨_, _, normalizeResolvedUpload_of (parseProfile_insert_upload hfits w) hmapping hcheck hlast⟩

/-- **A resolved upload is accepted iff the profile with it is not too large.** -/
theorem normalizeResolved_iff {found : List (HexIdentifier × List (Text × Value F))}
    {titles : HexIdentifier → PlainText 100 true} (hfits : ProfileFits required p)
    (hfinite : finite fl p.toDict = true) (hstored : Stored fl p.upload) (hf : Found p.upload found)
    (title : PlainText 100 true) {c : Value F} (hc : c = (p.upload.resolve title _ (hf.fits titles)).toDict) :
    (∃ v e, normalizeResolvedUpload py (record p.items) c = .ok (v, e)) ↔
      utf8Size (dumps fl (.obj (Json.insert "upload".toList c (record p.items)))) ≤ 128 * 1024 := by
  have hupload : finite fl p.upload.toDict = true :=
    finite_record.mp hfinite ("upload", _) (List.mem_of_mem_getLast? rfl)
  have hget : Json.get (record p.items) "upload" = p.upload.toDict := by
    rw [get_record]
    rfl
  rw [hc, insert_upload]
  constructor
  · rintro ⟨v, e, h⟩
    exact accepted_size hfits h
  · exact accepted_of_size hfits hfinite (finite_resolve hupload hstored hf title)
      (checkResolved_resolve hget hupload hstored hf title)

/-! ## normal forms -/

/-- **A recipe is a fixed point**, read back from its text as well. -/
theorem recipe_fixed {v : Value F} {r : Recipe py} (h : recipeFromMapping py.rates py.isalnum v = .ok r) :
    recipeFromMapping py.rates py.isalnum r.toDict = .ok r ∧
      (loads fl (dumps fl r.toDict)).map (recipeFromMapping py.rates py.isalnum) = some (.ok r) := by
  have hdict := recipe_toDict (recipe_length h)
  refine ⟨hdict, ?_⟩
  rw [loads_dumps r.canonical, Option.map_some, hdict]

/-- **A profile is a fixed point.** -/
theorem profile_fixed {bound : Bool} {v n : Value F} {e d : Text} (hv : Canonical v)
    (h : normalizeWorkflowProfile py bound required v = .ok (n, e, d)) :
    (loads fl e).map (normalizeWorkflowProfile py bound required) = some (.ok (n, e, d)) := by
  simp only [normalizeWorkflowProfile, bind_eq_ok, pure_eq_ok, Prod.mk.injEq] at h
  obtain ⟨q, hq, ⟨e', d'⟩, hmapping, rfl, rfl, rfl⟩ := h
  have he := (canonicalWorkflowMapping_eq_ok.mp hmapping).2.2.1
  rw [he, loads_dumps (parseProfile_canonical hv hq).2, Option.map_some, ← he]
  refine congrArg some ?_
  simp only [normalizeWorkflowProfile, bind_eq_ok, pure_eq_ok, Prod.mk.injEq]
  exact ⟨q, parseProfile_toDict (parseProfile_fits hq), (e', d'), hmapping, rfl, rfl, rfl⟩

/-- **An accepted upload is a fixed point** beside its profile. -/
theorem resolved_fixed {profile : List (Text × Value F)} {v w : Value F} {e : Text} (hv : Canonical v)
    (h : normalizeResolvedUpload py profile v = .ok (w, e)) :
    (loads fl e).map (normalizeResolvedUpload py profile) = some (.ok (w, e)) := by
  cases v with
  | obj ms =>
    simp only [normalizeResolvedUpload, object?, bind_eq_ok, fetch_eq_ok, Option.some.injEq, exists_eq_left', pure_eq_ok,
      Prod.mk.injEq] at h
    obtain ⟨q, hq, x, hwhole, _, hcheck, ⟨e', d'⟩, hupload, rfl, rfl⟩ := h
    have hcanonical : Canonical q.upload.toDict := by
      have hparsed := hq
      simp only [parseProfile, object?, bind_eq_ok, fetch_eq_ok, Option.some.injEq, exists_eq_left', pure_eq_ok] at hparsed
      obtain ⟨_, -, _, -, _, -, _, -, _, -, _, -, _, -, _, -, _, -, _, -, _, -, u, hu, rfl⟩ := hparsed
      have hget : Json.get (Json.insert "upload".toList (.obj ms) profile) "upload" = .obj ms := by
        unfold Json.get Json.getOr
        rw [lookup_insert_self]
        rfl
      rw [hget] at hu
      exact UploadProfile.canonical (parseUpload_overrides hv hu)
    have he := (canonicalWorkflowMapping_eq_ok.mp hupload).2.2.1
    rw [he, loads_dumps hcanonical, Option.map_some, ← he]
    exact congrArg some (normalizeResolvedUpload_of (parseProfile_insert hq) hwhole hcheck hupload)
  | _ => cases h

/-- **The normal forms of recipes, profiles and uploads are fixed points**, and an upload that is resolved from a stored
profile is accepted as far as the profile with it is not too large. -/
theorem profiles_canonical (py : Python fl) :
    (∀ (v : Value F) (r : Recipe py), recipeFromMapping py.rates py.isalnum v = .ok r →
      recipeFromMapping py.rates py.isalnum r.toDict = .ok r ∧
        (loads fl (dumps fl r.toDict)).map (recipeFromMapping py.rates py.isalnum) = some (.ok r)) ∧
    (∀ (bound required : Bool) (v n : Value F) (e d : Text), Canonical v →
      normalizeWorkflowProfile py bound required v = .ok (n, e, d) →
        (loads fl e).map (normalizeWorkflowProfile py bound required) = some (.ok (n, e, d))) ∧
    (∀ (profile : List (Text × Value F)) (v u : Value F) (e : Text), Canonical v →
      normalizeResolvedUpload py profile v = .ok (u, e) →
        (loads fl e).map (normalizeResolvedUpload py profile) = some (.ok (u, e))) ∧
    (∀ (required : Bool) (v : Value F) (profile upload : List (Text × Value F)) (e d : Text)
      (status : Option (Value F)) (download : DownloadSnapshot) (c : Value F), Canonical v →
      normalizeWorkflowProfile py true required v = .ok (.obj profile, e, d) →
      Json.get profile "upload" = .obj upload → Json.get upload "title_mode" = .str TitleMode.source.name →
      resolveUpload status (.obj upload) download = .ok c →
        ((∃ u encoded, normalizeResolvedUpload py profile c = .ok (u, encoded)) ↔
          utf8Size (dumps fl (.obj (Json.insert "upload".toList c profile))) ≤ 128 * 1024)) := by
  refine ⟨fun v r h => recipe_fixed h, fun bound required v n e d hv h => profile_fixed hv h,
    fun profile v u e hv h => resolved_fixed hv h, ?_⟩
  intro required v profile upload e d status download c hv h hupload hmode hresolve
  simp only [normalizeWorkflowProfile, bind_eq_ok, pure_eq_ok, Prod.mk.injEq] at h
  obtain ⟨q, hq, ⟨e', d'⟩, hmapping, hdict, rfl, rfl⟩ := h
  have hprofile : record q.items = profile := Value.obj.inj hdict
  subst hprofile
  have hitems : record q.upload.items = upload := by
    rw [get_record] at hupload
    exact Value.obj.inj hupload
  subst hitems
  have hfinite := (canonicalWorkflowMapping_eq_ok.mp hmapping).1
  have hoverrides := (parseProfile_canonical hv hq).1
  have hsource : q.upload.title_mode = .source := by
    rw [get_record, (q.upload.lookups_optional).1] at hmode
    by_cases hs : q.upload.title_mode = .source
    · exact hs
    · rw [if_neg hs] at hmode
      cases hmode
  have hstored : Stored fl q.upload := by
    refine ⟨hsource, fun ms hms => ?_, fun ms hms => ?_⟩
    · cases hoverrides ms hms with
      | obj hs _ => exact hs
    · have hu := finite_record.mp hfinite ("upload", _) (List.mem_of_mem_getLast? rfl)
      obtain ⟨-, -, -, -, -, -, -, -, hlookup⟩ := q.upload.lookups
      have harr := finite_get hu "target_overrides"
      rw [get_record, hlookup] at harr
      exact finite_obj.mp (finite_arr.mp harr _ (List.mem_map_of_mem hms))
  obtain ⟨title, found, titles, hf, hc⟩ := resolveUpload_toDict hsource hresolve
  exact normalizeResolved_iff (parseProfile_fits hq) hfinite hstored hf title hc

end

/-! ## a profile of letters -/

theorem one_isFloatText : isFloatText "1.0".toList = true := by decide

def textRates : SpeechRates Floats.texts where
  inRange f := f.1 ∈ ["0.9".toList, "1.0".toList, "1.1".toList]
  one := ⟨"1.0".toList, one_isFloatText⟩
  one_inRange := by decide
  equals_one := fun f => by
    have h : Floats.texts.equals f 1 = (f.1 == "1.0".toList) := rfl
    rw [h, beq_iff_eq]
    exact ⟨fun e => Subtype.ext e, fun e => e ▸ rfl⟩

def Python.fixed (digest : Text) : Python Floats.texts where
  rates := textRates
  isalnum := Char.isAlphanum
  casefold := List.map Char.toLower
  sha256 := fun _ => digest
  equal := fun f g => f.1 == g.1 && f.1 != "NaN".toList
  equal_self := by
    intro f hf
    have hnan := List.all_eq_true.mp hf .nan (by simp)
    rw [Bool.and_eq_true, beq_self_eq_true]
    refine ⟨rfl, ?_⟩
    rw [bne_iff_ne] at hnan ⊢
    exact hnan.symm

/-- an empty token -/
def noToken (maximum : Nat) : RecipeToken Char.isAlphanum maximum false :=
  ⟨⟨[], ⟨⟨Nat.zero_le _, rfl⟩, rfl, nofun⟩⟩, rfl⟩

theorem noSegments_ordered : ([] : List SegmentSpec).IsChain (fun a b => a.end_ms ≤ b.start_ms) := List.isChain_nil

def plainRecipe : EditRecipe textRates Char.isAlphanum where
  segments := ⟨[], noSegments_ordered⟩
  cover := none
  translation := {
    enabled := false
    source_language := ⟨⟨"auto".toList, by decide⟩, by decide⟩
    target_language := noToken 32
    provider := noToken 64
    model := noToken 120
    state := .disabled
    revision_id := none
    valid_revision := nofun
    valid_state := by decide }
  dubbing := {
    enabled := false
    language := noToken 32
    provider := noToken 64
    model := noToken 120
    voice := noToken 120
    state := .disabled
    replace_original_audio := false
    authorization := none
    rate := ⟨textRates.one, textRates.one_inRange⟩
    valid_state := by decide
    valid_authorization := nofun }

def account : HexIdentifier := ⟨List.replicate 32 'a', by decide⟩

/-- an override that says only something of its account -/
def notedOverride (note : Text) : List (Text × Value {s : List Char // isFloatText s = true}) :=
  record [("account_id", .str account.1), ("note", .str note)]

theorem notedOverride_fits (note : Text) : OverridesFit [account] .source [notedOverride note] := by
  refine ⟨Nat.le_refl 1, fun ms hms => ?_, List.pairwise_singleton _ _⟩
  rw [List.mem_singleton.mp hms]
  have htitle : "title".toList ∉ keys (notedOverride note) := by
    unfold notedOverride
    rw [keys_record]
    show "title".toList ∉ ["account_id", "note"].map String.toList
    decide
  have haccount : overrideAccount (notedOverride note) = some account.1 := by
    unfold overrideAccount notedOverride
    rw [get_record]
    rfl
  exact ⟨⟨account, List.mem_singleton_self _, haccount⟩, fun _ h => absurd h htitle⟩

def sourceUpload (note : Text) : UploadProfile {s : List Char // isFloatText s = true} true false where
  title_mode := .source
  prefer_download_cover := false
  title := ⟨[], by decide⟩
  account_ids := [account]
  tags := []
  mode := .draft
  category_id := none
  copyright := none
  target_overrides := [notedOverride note]
  account_bindings := [⟨account, .bilibili, ⟨List.replicate 32 'b', by decide⟩⟩]
  description := ⟨[], by decide⟩
  source_credit := ⟨[], by decide⟩
  valid_cover := nofun
  valid_title := fun _ => rfl
  valid_accounts := by decide
  valid_tags := by decide
  valid_overrides := notedOverride_fits note
  valid_bindings := by decide

def sourceProfile (digest note : Text) : WorkflowProfile (Python.fixed digest) true where
  edit_recipe := plainRecipe
  ai := none
  download_credential_mode := .anonymous
  auto_confirm_edit := false
  auto_confirm_upload := false
  ai_data_egress_accepted := false
  upload := sourceUpload note

theorem sourceProfile_fits (digest note : Text) : ProfileFits false (sourceProfile digest note) := by
  refine ⟨Nat.zero_le _, ?_, rfl, rfl, ?_, ?_⟩
  · exact fun h => Bool.false_ne_true h.1
  · exact fun h => Bool.false_ne_true h.1
  · exact fun h => Bool.false_ne_true h.2


/-- what the workflow is told of the platforms -/
def platformStatus : Option (Value {s : List Char // isFloatText s = true}) :=
  some (.obj (record [("platforms",
    .arr [.obj (record [("id", .str (platformName .bilibili)), ("title_limit", .int 80)])])]))

/-- a download with a title of forty letters -/
def lettersDownload : DownloadSnapshot := ⟨.ready, some (List.replicate 36 '0'), [], some (List.replicate 40 'a')⟩

theorem letters_source : IsSourceText 1024 (List.replicate 40 'a') ∧ strip (List.replicate 40 'a') = List.replicate 40 'a' := by
  decide

def lettersTitle : PlainText 100 true := plainTitle letters_source.1 letters_source.2 (Nat.le_refl 100)

/-- the override with a title -/
def titledNote (note : Text) : List (Text × Value {s : List Char // isFloatText s = true}) :=
  record [("account_id", .str account.1), ("note", .str note), ("title", .str (List.replicate 40 'a'))]

theorem titledNote_fits (note : Text) : OverridesFit [account] .explicit [titledNote note] := by
  refine ⟨Nat.le_refl 1, fun ms hms => ?_, List.pairwise_singleton _ _⟩
  rw [List.mem_singleton.mp hms]
  have haccount : overrideAccount (titledNote note) = some account.1 := by
    unfold overrideAccount titledNote
    rw [get_record]
    rfl
  exact ⟨⟨account, List.mem_singleton_self _, haccount⟩, nofun⟩

def resolvedUpload (note : Text) : UploadProfile {s : List Char // isFloatText s = true} true false :=
  (sourceUpload note).resolve lettersTitle [titledNote note] (titledNote_fits note)

theorem titled_notedOverride (note : Text) :
    titledOverride [(account, notedOverride note)] (List.replicate 40 'a') account = titledNote note := by
  have hsource : sourceOverride [(account, notedOverride note)] account = notedOverride note := by
    unfold sourceOverride
    rw [List.lookup_cons_self]
    rfl
  have hkeys : keys (notedOverride note) = ["account_id", "note"].map String.toList := keys_record _
  rw [titledOverride_eq, hsource, if_neg (by rw [hkeys]; decide), insert_last]
  · rfl
  · intro m hm
    have hmem : m.1 ∈ keys (notedOverride note) := List.mem_map_of_mem hm
    have hbefore : ∀ k ∈ ["account_id", "note"].map String.toList, before k "title".toList = true := by decide
    exact hbefore _ (hkeys ▸ hmem)

theorem resolve_sourceUpload (note : Text) :
    resolveUpload platformStatus (sourceUpload note).toDict lettersDownload = .ok (resolvedUpload note).toDict := by
  have hsource : downloadSourceText lettersDownload.source_title 1024 = some (List.replicate 40 'a') := by decide
  have hlimits : uploadTitleLimits platformStatus ((sourceUpload note).account_bindings.map
      (fun b => platformName b.platform)) = .ok [(platformName .bilibili, 80)] := by
    rfl
  have hfound : each (overrideOf (sourceUpload note).account_ids) ((sourceUpload note).target_overrides.map .obj) =
      .ok [(account, notedOverride note)] := by
    rfl
  have h := resolveUpload_source (u := sourceUpload note) rfl ⟨rfl, rfl⟩ hsource hlimits hfound (List.pairwise_singleton _ _)
  have hinsert := resolve_items (u := sourceUpload note) rfl lettersTitle (titledNote_fits note)
  have hlimit : titleLimit (sourceUpload note).account_bindings [(platformName .bilibili, 80)] account = 80 := rfl
  have htitled : (sourceUpload note).account_ids.map (fun id => titledOverride [(account, notedOverride note)]
      (ellipsisTitle (List.replicate 40 'a') (titleLimit (sourceUpload note).account_bindings
        [(platformName .bilibili, 80)] id)) id) = [titledNote note] := by
    show [titledOverride _ (ellipsisTitle _ (titleLimit _ _ account)) account] = _
    rw [hlimit]
    exact congrArg (fun ms => [ms]) (titled_notedOverride note)
  rw [h, htitled]
  exact congrArg (fun ms => Except.ok (Value.obj ms)) hinsert

theorem size_sourceProfile (digest : Text) (k : Nat) :
    utf8Size (dumps Floats.texts (sourceProfile digest (List.replicate k 'x')).toDict) = 849 + k := by
  have hbase : ((dumps Floats.texts (sourceProfile digest []).toDict).map Char.utf8Size).sum = 849 := by
    have h : ((dumps Floats.texts (sourceProfile [] []).toDict).map Char.utf8Size).sum = 849 := by decide +kernel
    exact h
  have h := @size_note _ Floats.texts k ((sourceProfile digest []).items.take 6) (sourceUpload []).front
    [("title", .str []), ("title_mode", .str TitleMode.source.name)] [] (.str account.1)
  rw [← utf8Size_eq_sum] at hbase
  rw [← hbase]
  exact h


theorem size_resolved (digest : Text) (k : Nat) :
    utf8Size (dumps Floats.texts
      ((sourceProfile digest (List.replicate k 'x')).withUpload (resolvedUpload (List.replicate k 'x'))).toDict) = 918 + k := by
  have hbase : ((dumps Floats.texts ((sourceProfile digest []).withUpload (resolvedUpload [])).toDict).map
      Char.utf8Size).sum = 918 := by
    have h : ((dumps Floats.texts ((sourceProfile [] []).withUpload (resolvedUpload [])).toDict).map
      Char.utf8Size).sum = 918 := by decide +kernel
    exact h
  have h := @size_note _ Floats.texts k ((sourceProfile digest []).items.take 6) (sourceUpload []).front
    [("title", .str (List.replicate 40 'a'))] [("title", .str (List.replicate 40 'a'))] (.str account.1)
  rw [← utf8Size_eq_sum] at hbase
  rw [← hbase]
  exact h

theorem sourceProfile_finite (digest note : Text) : finite Floats.texts (sourceProfile digest note).toDict = true := by
  rfl

theorem sourceProfile_canonical (digest note : Text) : Canonical (sourceProfile digest note).toDict := by
  refine WorkflowProfile.canonical (fun ms hms => ?_)
  rw [List.mem_singleton.mp hms]
  refine canonical_record ["account_id", "note"] rfl (by decide) ?_
  simp only [List.forall_mem_cons]
  exact ⟨.str _, .str _, fun m hm => nomatch hm⟩

theorem normalize_sourceProfile {digest note : Text}
    (h : utf8Size (dumps Floats.texts (sourceProfile digest note).toDict) ≤ 128 * 1024) :
    normalizeWorkflowProfile (Python.fixed digest) true false (sourceProfile digest note).toDict =
      .ok ((sourceProfile digest note).toDict, dumps Floats.texts (sourceProfile digest note).toDict, digest) := by
  simp only [normalizeWorkflowProfile, bind_eq_ok, pure_eq_ok]
  exact ⟨_, parseProfile_toDict (sourceProfile_fits digest note), _,
    canonicalWorkflowMapping_ok _ (sourceProfile_finite digest note) h, rfl⟩

/-- the profile of an empty note, and the upload that is resolved from it, are fixed points -/
theorem profiles_canonical_letters :
    let py := Python.fixed "01c45fa00c86976c2ed732a524cafd6c0a4f4ddff9eae0a9e6f0b53577657794".toList
    let p := sourceProfile "01c45fa00c86976c2ed732a524cafd6c0a4f4ddff9eae0a9e6f0b53577657794".toList []
    (loads Floats.texts (dumps Floats.texts plainRecipe.toDict)).map (recipeFromMapping py.rates py.isalnum) =
        some (.ok plainRecipe) ∧
      (loads Floats.texts (dumps Floats.texts p.toDict)).map (normalizeWorkflowProfile py true false) =
        some (.ok (p.toDict, dumps Floats.texts p.toDict, py.sha256 [])) ∧
      ∃ u encoded, normalizeResolvedUpload py (record p.items) (resolvedUpload []).toDict = .ok (u, encoded) ∧
        (loads Floats.texts encoded).map (normalizeResolvedUpload py (record p.items)) = some (.ok (u, encoded)) := by
  intro py p
  obtain ⟨hrecipe, hprofile, hresolved, haccepted⟩ := profiles_canonical py
  have hsize : utf8Size (dumps Floats.texts p.toDict) = 849 := size_sourceProfile _ 0
  have hcandidate : utf8Size (dumps Floats.texts (p.withUpload (resolvedUpload [])).toDict) = 918 := size_resolved _ 0
  have hnormal : normalizeWorkflowProfile py true false p.toDict =
      .ok (p.toDict, dumps Floats.texts p.toDict, py.sha256 []) :=
    normalize_sourceProfile (by rw [hsize]; decide)
  have hcanonical : Canonical p.toDict := sourceProfile_canonical _ _
  have hfit : utf8Size (dumps Floats.texts (.obj (Json.insert "upload".toList (resolvedUpload []).toDict (record p.items)))) ≤
      128 * 1024 := by
    have hinsert := congrArg (fun ms => utf8Size (dumps Floats.texts (.obj ms))) (insert_upload p (resolvedUpload []))
    exact Nat.le_trans (Nat.le_of_eq (hinsert.trans hcandidate)) (by decide)
  obtain ⟨u, encoded, hacc⟩ := (haccepted false p.toDict (record p.items) (record (sourceUpload []).items) _ _
    platformStatus lettersDownload _ hcanonical hnormal (get_record _ _) (get_record _ _) (resolve_sourceUpload [])).mpr hfit
  have hupload : Canonical (resolvedUpload []).toDict := by
    refine UploadProfile.canonical (fun ms hms => ?_)
    rw [List.mem_singleton.mp hms]
    refine canonical_record ["account_id", "note", "title"] rfl (by decide) ?_
    simp only [List.forall_mem_cons]
    exact ⟨.str _, .str _, .str _, fun m hm => nomatch hm⟩
  have hplain := parseProfile_fits (parseProfile_toDict (sourceProfile_fits (py.sha256 []) []))
  exact ⟨(hrecipe _ plainRecipe (recipe_toDict hplain.segments)).2, hprofile _ _ _ _ _ _ hcanonical hnormal,
    u, encoded, hacc, hresolved _ _ _ _ hupload hacc⟩

/-- **A resolved upload may be too large**: a profile of just 128 KiB is accepted, and with the titles it is not. -/
theorem resolved_upload_too_large :
    ¬ ∀ (v : Value {s : List Char // isFloatText s = true}) (profile upload : List (Text × Value _)) (e d : Text)
      (status : Option (Value _)) (download : DownloadSnapshot) (c : Value _), Canonical v →
      normalizeWorkflowProfile
        (Python.fixed "4276b21893f50b68274e5337956f7fb5b028f884879c2aba3f4f57ed6e884bad".toList) true false v =
          .ok (.obj profile, e, d) →
      Json.get profile "upload" = .obj upload → Json.get upload "title_mode" = .str TitleMode.source.name →
      resolveUpload status (.obj upload) download = .ok c →
        ∃ u encoded, normalizeResolvedUpload
          (Python.fixed "4276b21893f50b68274e5337956f7fb5b028f884879c2aba3f4f57ed6e884bad".toList) profile c =
            .ok (u, encoded) := by
  intro h
  generalize hdigest : "4276b21893f50b68274e5337956f7fb5b028f884879c2aba3f4f57ed6e884bad".toList = digest at h
  have hsize := size_sourceProfile digest 130223
  have hcandidate := size_resolved digest 130223
  have hnormal := @normalize_sourceProfile digest (List.replicate 130223 'x') (by rw [hsize])
  obtain ⟨u, encoded, hacc⟩ := h _ (record (sourceProfile digest (List.replicate 130223 'x')).items)
    (record (sourceUpload (List.replicate 130223 'x')).items) _ _ platformStatus lettersDownload _
    (sourceProfile_canonical digest (List.replicate 130223 'x')) hnormal (get_record _ _) (get_record _ _)
    (resolve_sourceUpload (List.replicate 130223 'x'))
  have hle := accepted_size (sourceProfile_fits digest (List.replicate 130223 'x')) hacc
  rw [hcandidate] at hle
  exact absurd hle (by decide)

end OpenFlame.Workflow
