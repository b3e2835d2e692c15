import OpenFlame.Workflow.Profile

/-!
# The normal form of a profile

`parseUpload_items`        an upload is parsed back from what it is written as
`parseAi_items`            so is an AI contract that fits its recipe
`parseProfile_toDict`      **so is a profile that fits**
`parseProfile_fits`        **and what is parsed fits**
`parseProfile_insert`      a profile stays what it is when its upload is replaced by its normal form
`parseProfile_canonical`   a profile of a canonical value is written as a canonical value
-/

set_option linter.all false

namespace OpenFlame.Workflow
open Guard Text Json Editing
open Upload (Mode Platform)

section
variable {F : Type}

/-! ## uploads -/

section
variable {bound cover : Bool} (u : UploadProfile F bound cover)

theorem UploadProfile.names : u.items.map Prod.fst =
    (if bound then ["account_bindings"] else []) ++ (["account_ids", "category_id", "copyright", "description", "mode"] ++
      ((if u.prefer_download_cover then ["prefer_download_cover"] else []) ++
      (["source_credit", "tags", "target_overrides", "title"] ++
      (if u.title_mode = .source then ["title_mode"] else [])))) := by
  obtain ⟨m, p, _⟩ := u
  cases bound <;> cases p <;> cases m <;> rfl

theorem UploadProfile.lookups :
    u.items.lookup "account_ids" = some (.arr (u.account_ids.map (fun id => .str id.1))) ∧
      u.items.lookup "title" = some (.str u.title.1) ∧
      u.items.lookup "description" = some (.str u.description.1) ∧
      u.items.lookup "tags" = some (.arr (u.tags.map (fun t => .str t.1))) ∧
      u.items.lookup "category_id" = some (optionalInt (u.category_id.map Subtype.val)) ∧
      u.items.lookup "mode" = some (.str (modeName u.mode)) ∧
      u.items.lookup "copyright" = some (optionalInt (u.copyright.map Subtype.val)) ∧
      u.items.lookup "source_credit" = some (.str u.source_credit.1) ∧
      u.items.lookup "target_overrides" = some (.arr (u.target_overrides.map .obj)) := by
  obtain ⟨m, p, _⟩ := u
  cases bound <;> cases p <;> exact ⟨rfl, rfl, rfl, rfl, rfl, rfl, rfl, rfl, rfl⟩

/-- the optional members of an upload -/
theorem UploadProfile.lookups_optional :
    u.items.lookup "title_mode" = (if u.title_mode = .source then some (.str u.title_mode.name) else none) ∧
      u.items.lookup "prefer_download_cover" = (if u.prefer_download_cover then some (.bool true) else none) ∧
      (bound = true → u.items.lookup "account_bindings" =
        some (.arr (u.account_bindings.map (fun b => .obj (record b.items))))) := by
  obtain ⟨m, p, _⟩ := u
  cases bound <;> cases p <;> cases m <;> refine ⟨rfl, rfl, fun h => ?_⟩ <;>
    first | rfl | exact absurd h Bool.false_ne_true

end

theorem hexIdentifier_str {ε : Type} (e : ε) (id : HexIdentifier) : hexIdentifier (F := F) e (.str id.1) = .ok id := by
  simp only [hexIdentifier, bind_eq_ok, fetch_eq_ok, ensure_eq_ok]
  exact ⟨id.1, rfl, rfl⟩

/-- a stripped text that is not empty is not blank -/
theorem isBlank_plain {maximum : Nat} (t : PlainText maximum true) : isBlank t.1 = false := by
  obtain ⟨s, -, hstrip, hne⟩ := t
  have hs : s ≠ [] := hne rfl
  refine List.all_eq_false.mpr ⟨s.head hs, List.head_mem hs, ?_⟩
  rw [(strip_eq_self_iff.mp hstrip hs).1]
  exact Bool.false_ne_true

theorem parseTag_str (t : PlainText 20 true) : parseTag (F := F) (.str t.1) = .ok t := by
  have hlen : t.1.length ≤ 40 := Nat.le_trans t.2.1.1 (by decide)
  simp only [parseTag, text?, bind_eq_ok, fetch_eq_ok, Option.some.injEq, exists_eq_left', require_eq_ok]
  exact ⟨⟨⟩, ⟨isBlank_plain t, hlen⟩, plainText_str _ t⟩

theorem optionalInteger_item {minimum maximum : Int} (o : Option {i : Int // minimum ≤ i ∧ i ≤ maximum}) :
    optionalInteger (F := F) minimum maximum (optionalInt (o.map Subtype.val)) = .ok o := by
  cases o with
  | none => rfl
  | some i =>
    simp only [optionalInteger, optionalInt, Option.map_some, int?, bind_eq_ok, fetch_eq_ok, Option.some.injEq,
      exists_eq_left', ensure_eq_ok, pure_eq_ok]
    exact ⟨i, rfl, rfl⟩

theorem normalizeAccountBinding_items {ε : Type} (e : ε) (b : AccountBinding) :
    normalizeAccountBinding (F := F) e (.obj (record b.items)) = .ok b := by
  have hkeys : HasKeys (record (b.items (F := F))) ["account_id", "platform", "session_revision"]
      ["account_id", "platform", "session_revision"] :=
    (hasKeys_record ["account_id", "platform", "session_revision"] rfl).mpr (by decide)
  simp only [normalizeAccountBinding, object?, bind_eq_ok, fetch_eq_ok, Option.some.injEq, exists_eq_left',
    require_eq_ok, pure_eq_ok, get_record]
  exact ⟨⟨⟩, hkeys, b.account_id, hexIdentifier_str _ _, b.session_revision, hexIdentifier_str _ _, b.platform,
    platformOfText_name _, rfl⟩

/-- values of typed parts are parsed back -/
theorem each_map {α β ε : Type} {f : β → Except ε α} {g : α → β} (h : ∀ a, f (g a) = .ok a) (l : List α) :
    each f (l.map g) = .ok l := by
  induction l with
  | nil => rfl
  | cons a l ih => exact each_cons_eq_ok.mpr ⟨a, l, h a, ih, rfl⟩

theorem parseBindings_items {bound : Bool} {ids : List HexIdentifier} {bs : List AccountBinding} {v : Value F}
    (h : BindingsFit bound ids bs) (hv : bound = true → v = .arr (bs.map (fun b => .obj (record b.items)))) :
    parseBindings bound v = .ok bs := by
  cases bound with
  | false =>
    have hnil : bs = [] := h
    rw [hnil]
    rfl
  | true =>
    have hfit : bs.length = ids.length ∧ (bs.map (·.account_id)).Nodup ∧ _ := h
    rw [hv rfl]
    show normalizeAccountBindings _ _ = _
    simp only [normalizeAccountBindings, array?, bind_eq_ok, fetch_eq_ok, Option.some.injEq, exists_eq_left',
      require_eq_ok, pure_eq_ok]
    exact ⟨bs, each_map (normalizeAccountBinding_items _) bs, ⟨⟩, hfit.2.1, rfl⟩

/-- **An upload is parsed back.** -/
theorem parseUpload_items {bound cover : Bool} (u : UploadProfile F bound cover) :
    parseUpload bound cover u.toDict = .ok u := by
  have hkeys : HasKeys (record u.items) (expectedUpload bound)
      (expectedUpload bound ++ ["title_mode", "prefer_download_cover"]) := by
    refine (hasKeys_record _ u.names).mpr ?_
    generalize u.prefer_download_cover = b
    generalize u.title_mode = m
    cases bound <;> cases b <;> cases m <;> decide
  have hcover : "prefer_download_cover".toList ∈ keys (record u.items) ↔ u.prefer_download_cover = true := by
    rw [keys_record, u.names]
    generalize u.prefer_download_cover = b
    generalize u.title_mode = m
    cases bound <;> cases b <;> cases m <;> decide
  obtain ⟨hids, htitle, hdescription, htags, hcategory, hmode, hcopyright, hcredit, hoverrides⟩ := u.lookups
  obtain ⟨htitleMode, hprefer, hbindings⟩ := u.lookups_optional
  have hmodeText : (text? ((u.items.lookup "title_mode").getD (.str TitleMode.explicit.name))).bind TitleMode.ofText =
      some u.title_mode := by
    rw [htitleMode]
    generalize u.title_mode = m
    cases m with
    | explicit => exact TitleMode.ofText_name .explicit
    | source => exact TitleMode.ofText_name .source
  have hpreferParsed : preferDownloadCover (record u.items) = .ok u.prefer_download_cover := by
    unfold preferDownloadCover
    cases hp : u.prefer_download_cover with
    | true =>
      rw [if_pos (hcover.mpr hp), get_record, hprefer, if_pos hp]
      rfl
    | false =>
      rw [if_neg (fun h => Bool.false_ne_true (hp.symm.trans (hcover.mp h)))]
  have hbindingsParsed := parseBindings_items (v := (u.items.lookup "account_bindings").getD .null) u.valid_bindings
    (fun hb => by rw [hbindings hb]; rfl)
  simp only [parseUpload, UploadProfile.toDict, object?, bind_eq_ok, fetch_eq_ok, Option.some.injEq, exists_eq_left',
    require_eq_ok, ensure_eq_ok, pure_eq_ok, get_record, getOr_record, hids, htitle, hdescription, htags, hcategory,
    hmode, hcopyright, hcredit, hoverrides, Option.getD_some, hmodeText, hpreferParsed, hbindingsParsed, array?]
  exact ⟨⟨⟩, hkeys, u.prefer_download_cover, rfl, ⟨(), u.valid_cover⟩, trivial, u.title, plainText_str _ _, ⟨(), u.valid_title⟩,
    trivial, u.account_ids, each_map (hexIdentifier_str _) _, ⟨(), u.valid_accounts⟩, trivial, u.tags,
    each_map parseTag_str _, ⟨(), u.valid_tags⟩, trivial, u.mode, member?_name (modeOfText_name _), u.category_id,
    optionalInteger_item _, u.copyright, optionalInteger_item _, u.target_overrides, each_map (g := Value.obj) (fun _ => rfl) _,
    ⟨(), u.valid_overrides⟩, trivial, u.account_bindings, rfl, ⟨(), u.valid_bindings⟩, trivial, u.description,
    plainText_str _ _, u.source_credit, plainText_str _ _, rfl⟩

end

/-! ## AI contracts -/

section
variable {F : Type} {fl : Floats F} {py : Python fl}

/-- the form that a contract is written in -/
def AiContract.form : AiContract fl → AiForm
  | .legacy => .legacy
  | .digests _ _ => .digests
  | .bound _ _ _ _ => .bound

/-- the names that a contract is written with -/
def contractNames (form : AiForm) (mode : Bool) : List String :=
  let tokens := (if mode then ["transcription_mode"] else []) ++ ["transcription_model", "transcription_provider"]
  match form with
  | .legacy => tokens
  | .digests => ["transcription_authorization_sha256"] ++ tokens ++ ["translation_authorization_sha256"]
  | .bound =>
    ["transcription_authorization", "transcription_authorization_sha256"] ++ tokens ++
      ["translation_authorization", "translation_authorization_sha256"]

theorem AiProfile.names (a : AiProfile fl) :
    a.items.map Prod.fst = contractNames a.contract.form a.transcription_mode.isSome := by
  obtain ⟨_, _, mode, contract⟩ := a
  cases contract <;> cases mode <;> rfl

theorem AiProfile.lookups (a : AiProfile fl) :
    a.items.lookup "transcription_provider" = some (.str a.transcription_provider.1) ∧
      a.items.lookup "transcription_model" = some (.str a.transcription_model.1) ∧
      a.items.lookup "transcription_mode" = a.transcription_mode.map (fun m => .str m.name) := by
  obtain ⟨_, _, mode, contract⟩ := a
  cases contract <;> cases mode <;> exact ⟨rfl, rfl, rfl⟩

theorem aiForm_record (found : List String) {ms : List (String × Value F)} (h : ms.map Prod.fst = found) :
    aiForm (record ms) = [AiForm.legacy, .digests, .bound].find? (fun f =>
      decide ((∀ n ∈ f.keys, n ∈ found) ∧ ∀ k ∈ found, k ∈ f.keys ++ ["transcription_mode"])) := by
  unfold aiForm
  congr 1
  funext f
  exact decide_eq_decide.mpr (hasKeys_record found h)

theorem aiForm_items (a : AiProfile fl) : aiForm (record a.items) = some a.contract.form := by
  rw [aiForm_record _ a.names]
  generalize a.contract.form = form
  generalize a.transcription_mode.isSome = mode
  cases form <;> cases mode <;> decide

theorem transcriptionMode_items (a : AiProfile fl) :
    transcriptionMode (record a.items) = .ok a.transcription_mode := by
  have hmem : "transcription_mode".toList ∈ keys (record a.items) ↔ a.transcription_mode.isSome = true := by
    rw [keys_record, a.names]
    generalize a.contract.form = form
    generalize a.transcription_mode.isSome = mode
    cases form <;> cases mode <;> decide
  obtain ⟨-, -, hlookup⟩ := a.lookups
  unfold transcriptionMode
  cases hm : a.transcription_mode with
  | none =>
    rw [hm] at hmem
    rw [if_neg (fun h => Bool.false_ne_true (hmem.mp h))]
  | some m =>
    rw [hm] at hmem hlookup
    rw [if_pos (hmem.mpr rfl), get_record, hlookup]
    show (do return some (← fetch (TranscriptionMode.ofText m.name) _)) = _
    rw [TranscriptionMode.ofText_name]
    rfl

/-- what is checked of an AI contract beside its recipe -/
structure AiFits (py : Python fl) (require_ai_authorization : Bool) (r : Recipe py) (a : AiProfile fl) : Prop where
  tokens : (runtimeTokens r).all (isToken "._:+/-".toList 200) = true
  form : require_ai_authorization = true → a.contract.form = .bound
  dubbed : ¬ (r.dubbing.enabled = true ∧ r.translation.enabled = false)
  languages : ¬ (py.casefold r.translation.source_language.1.1 ≠ "auto".toList ∧
    py.casefold r.translation.source_language.1.1 = py.casefold r.translation.target_language.1.1)
  bound : ∀ t s transcription translation, a.contract = .bound t s transcription translation →
    IsBoundTo py transcription .transcribe a.transcription_provider.1 a.transcription_model.1 t.1 ∧
      IsBoundTo py translation .translate r.translation.provider.1.1 r.translation.model.1.1 s.1
  authorized : require_ai_authorization = true → r.dubbing.enabled = true ∧ r.dubbing.authorization.isSome = true

variable {r : Recipe py} {a : AiProfile fl} {required : Bool} {v : Value F}

theorem boundAiAuthorization_toDict {auth : AiOperationAuthorization fl} {operation : TaskOperation}
    {provider model digest : Text} (h : IsBoundTo py auth operation provider model digest) :
    boundAiAuthorization py auth.toDict operation provider model digest = .ok auth := by
  have hparse : (parseOperationAuthorization fl auth.toDict).mapError
      (fun _ => WorkflowErr.invalid_workflow_profile) = .ok (some auth) := by
    rw [parse_toDict]
    rfl
  unfold boundAiAuthorization
  rw [hparse]
  simp only [bind_eq_ok, fetch_eq_ok, require_eq_ok, pure_eq_ok]
  exact ⟨_, rfl, auth, rfl, ⟨⟩, h, rfl⟩

theorem aiDigest_str (d : Sha256) : aiDigest (F := F) (.str d.1) = .ok d := by
  simp only [aiDigest, bind_eq_ok, fetch_eq_ok, ensure_eq_ok]
  exact ⟨d.1, rfl, rfl⟩

theorem aiToken_str (t : AiToken) : aiToken (F := F) (.str t.1) = .ok t := by
  simp only [aiToken, bind_eq_ok, fetch_eq_ok, ensure_eq_ok]
  exact ⟨t.1, rfl, rfl⟩

theorem lookups_digests {t s : Sha256} (h : a.contract = .digests t s) :
    a.items.lookup "transcription_authorization_sha256" = some (.str t.1) ∧
      a.items.lookup "translation_authorization_sha256" = some (.str s.1) := by
  obtain ⟨_, _, mode, contract⟩ := a
  have hc : contract = .digests t s := h
  subst hc
  cases mode <;> exact ⟨rfl, rfl⟩

theorem lookups_bound {t s : Sha256} {transcription translation : AiOperationAuthorization fl}
    (h : a.contract = .bound t s transcription translation) :
    a.items.lookup "transcription_authorization_sha256" = some (.str t.1) ∧
      a.items.lookup "translation_authorization_sha256" = some (.str s.1) ∧
      a.items.lookup "transcription_authorization" = some transcription.toDict ∧
      a.items.lookup "translation_authorization" = some translation.toDict := by
  obtain ⟨_, _, mode, contract⟩ := a
  have hc : contract = .bound t s transcription translation := h
  subst hc
  cases mode <;> exact ⟨rfl, rfl, rfl, rfl⟩

theorem aiContract_items (h : AiFits py required r a) :
    aiContract py r a.contract.form (record a.items) a.transcription_provider a.transcription_model =
      .ok a.contract := by
  cases hc : a.contract with
  | legacy => rfl
  | digests t s =>
    obtain ⟨ht, hs⟩ := lookups_digests hc
    simp only [aiContract, AiContract.form, get_record, ht, hs, Option.getD_some, bind_eq_ok, pure_eq_ok]
    exact ⟨t, aiDigest_str t, s, aiDigest_str s, rfl⟩
  | bound t s transcription translation =>
    obtain ⟨ht, hs, htranscription, htranslation⟩ := lookups_bound hc
    obtain ⟨h1, h2⟩ := h.bound t s transcription translation hc
    simp only [aiContract, AiContract.form, get_record, ht, hs, htranscription, htranslation, Option.getD_some,
      bind_eq_ok, pure_eq_ok]
    exact ⟨t, aiDigest_str t, s, aiDigest_str s, transcription, boundAiAuthorization_toDict h1, translation,
      boundAiAuthorization_toDict h2, rfl⟩

/-- **An AI contract that fits its recipe is parsed back.** -/
theorem parseAi_items (h : AiFits py required r a) : parseAi py required r (.obj (record a.items)) = .ok a := by
  obtain ⟨hprovider, hmodel, -⟩ := a.lookups
  simp only [parseAi, object?, bind_eq_ok, fetch_eq_ok, Option.some.injEq, exists_eq_left', require_eq_ok, pure_eq_ok,
    aiForm_items, get_record, hprovider, hmodel, Option.getD_some, transcriptionMode_items]
  exact ⟨⟨⟩, h.tokens, ⟨⟩, h.form, _, aiToken_str _, _, aiToken_str _, ⟨⟩, h.dubbed, ⟨⟩, h.languages, _, rfl, _,
    aiContract_items h, ⟨⟩, h.authorized, rfl⟩

/-- what is parsed as a contract fits -/
theorem parseAi_fits (h : parseAi py required r v = .ok a) : AiFits py required r a := by
  simp only [parseAi, bind_eq_ok, fetch_eq_ok, require_eq_ok, pure_eq_ok] at h
  obtain ⟨_, htokens, ms, -, form, -, _, hform, provider, -, model, -, _, hdubbed, _, hlanguages, mode, -, contract,
    hcontract, _, hauthorized, rfl⟩ := h
  have hdone : contract.form = form ∧ ∀ t s transcription translation,
      contract = .bound t s transcription translation →
        IsBoundTo py transcription .transcribe provider.1 model.1 t.1 ∧
          IsBoundTo py translation .translate r.translation.provider.1.1 r.translation.model.1.1 s.1 := by
    cases form with
    | legacy =>
      cases hcontract
      exact ⟨rfl, fun _ _ _ _ e => by cases e⟩
    | digests =>
      simp only [aiContract, bind_eq_ok, pure_eq_ok] at hcontract
      obtain ⟨t, -, s, -, rfl⟩ := hcontract
      exact ⟨rfl, fun _ _ _ _ e => by cases e⟩
    | bound =>
      simp only [aiContract, boundAiAuthorization, bind_eq_ok, require_eq_ok, pure_eq_ok] at hcontract
      obtain ⟨t, -, s, -, _, ⟨_, -, _, -, _, h1, rfl⟩, _, ⟨_, -, _, -, _, h2, rfl⟩, rfl⟩ := hcontract
      refine ⟨rfl, fun t s transcription translation e => ?_⟩
      cases e
      exact ⟨h1, h2⟩
  exact ⟨htokens, fun hr => hdone.1.trans (hform hr), hdubbed, hlanguages, hdone.2, hauthorized⟩

/-! ## profiles -/

/-- what is checked of a profile besides its upload -/
structure ProfileFits (required : Bool) {bound : Bool} (p : WorkflowProfile py bound) : Prop where
  segments : p.edit_recipe.segments.1.length ≤ 100
  automation : ¬ (p.auto_confirm_upload = true ∧ p.auto_confirm_edit = false)
  recipe : checkRecipe p.edit_recipe = .ok ()
  ai : if aiEnabled p.edit_recipe = true then ∃ a, p.ai = some a ∧ AiFits py required p.edit_recipe a else p.ai = none
  egress : ¬ (aiRequiresDataEgress p.edit_recipe p.ai = true ∧ p.ai_data_egress_accepted = false)
  no_egress : ¬ (aiRequiresDataEgress p.edit_recipe p.ai = false ∧ p.ai_data_egress_accepted = true)

variable {bound : Bool} {p : WorkflowProfile py bound}

theorem normalizeAi_value {o : Option (AiProfile fl)}
    (h : if aiEnabled r = true then ∃ a, o = some a ∧ AiFits py required r a else o = none) :
    normalizeAi py required r (aiValue o) = .ok o := by
  unfold normalizeAi
  by_cases he : aiEnabled r = true
  · rw [if_pos he] at h ⊢
    obtain ⟨a, rfl, ha⟩ := h
    show (parseAi py required r (.obj (record a.items))).map some = _
    rw [parseAi_items ha]
    rfl
  · rw [if_neg he] at h ⊢
    rw [h]
    rfl

theorem normalizeAi_fits {o : Option (AiProfile fl)} (h : normalizeAi py required r v = .ok o) :
    if aiEnabled r = true then ∃ a, o = some a ∧ AiFits py required r a else o = none := by
  unfold normalizeAi at h
  by_cases he : aiEnabled r = true
  · rw [if_pos he] at h ⊢
    cases ha : parseAi py required r v with
    | error e =>
      rw [ha] at h
      cases h
    | ok a =>
      rw [ha] at h
      cases h
      exact ⟨a, rfl, parseAi_fits ha⟩
  · rw [if_neg he] at h ⊢
    split at h
    · cases h
      rfl
    · cases h

/-- what is parsed fits -/
theorem parseProfile_fits (h : parseProfile py bound required v = .ok p) : ProfileFits required p := by
  simp only [parseProfile, bind_eq_ok, require_eq_ok, pure_eq_ok, mapError_eq_ok] at h
  obtain ⟨ms, -, _, -, edit, -, upload, -, _, hautomation, egress, -, mode, -, recipe, hrecipe, _, hcheck, ai, hai, _,
    hegress, _, hnone, u, -, rfl⟩ := h
  exact ⟨recipe_length hrecipe, hautomation, hcheck, normalizeAi_fits hai, hegress, hnone⟩

/-- what a profile is read from, besides its upload -/
theorem parseProfile_eq_ok {ms : List (Text × Value F)} (hf : ProfileFits required p)
    (hkeys : HasKeys ms profileKeys profileKeys)
    (hedit : bool? (get ms "auto_confirm_edit") = some p.auto_confirm_edit)
    (hupload : bool? (get ms "auto_confirm_upload") = some p.auto_confirm_upload)
    (hegress : bool? (get ms "ai_data_egress_accepted") = some p.ai_data_egress_accepted)
    (hmode : member? CredentialMode.ofText WorkflowErr.invalid_workflow_profile .typeError
      (get ms "download_credential_mode") = .ok p.download_credential_mode)
    (hrecipe : recipeFromMapping py.rates py.isalnum (get ms "edit_recipe") = .ok p.edit_recipe)
    (hai : normalizeAi py required p.edit_recipe (get ms "ai") = .ok p.ai)
    (hu : parseUpload bound p.edit_recipe.cover.isSome (get ms "upload") = .ok p.upload) :
    parseProfile py bound required (.obj ms) = .ok p := by
  simp only [parseProfile, object?, bind_eq_ok, fetch_eq_ok, Option.some.injEq, exists_eq_left', require_eq_ok,
    pure_eq_ok, mapError_eq_ok, hedit, hupload, hegress, hmode, hrecipe]
  exact ⟨⟨⟩, hkeys, ⟨⟩, hf.automation, _, rfl, _, rfl, ⟨⟩, hf.recipe, _, hai, ⟨⟩, hf.egress, ⟨⟩, hf.no_egress, _, hu, rfl⟩

theorem WorkflowProfile.names (p : WorkflowProfile py bound) : p.items.map Prod.fst =
    ["ai", "ai_data_egress_accepted", "auto_confirm_edit", "auto_confirm_upload", "download_credential_mode",
      "edit_recipe", "upload"] := rfl

/-- **A profile that fits is parsed back.** -/
theorem parseProfile_toDict (hf : ProfileFits required p) : parseProfile py bound required p.toDict = .ok p := by
  refine parseProfile_eq_ok hf ((hasKeys_record _ p.names).mpr (by decide)) ?_ ?_ ?_ ?_ ?_ ?_ ?_
  · rw [get_record]
    rfl
  · rw [get_record]
    rfl
  · rw [get_record]
    rfl
  · rw [get_record]
    exact member?_name (CredentialMode.ofText_name _)
  · rw [get_record]
    exact recipe_toDict hf.segments
  · rw [get_record]
    exact normalizeAi_value hf.ai
  · rw [get_record]
    exact parseUpload_items _

/-- **A profile keeps what it is** when the upload it is read from is replaced by the upload it has. -/
theorem parseProfile_insert {ms : List (Text × Value F)} {w : Value F}
    (h : parseProfile py bound required (.obj (Json.insert "upload".toList w ms)) = .ok p) :
    parseProfile py bound required (.obj (Json.insert "upload".toList p.upload.toDict ms)) = .ok p := by
  have hf := parseProfile_fits h
  simp only [parseProfile, object?, bind_eq_ok, fetch_eq_ok, Option.some.injEq, exists_eq_left', require_eq_ok,
    pure_eq_ok, mapError_eq_ok] at h
  obtain ⟨_, hkeys, edit, hedit, upload, hupload, _, -, egress, hegress, mode, hmode, recipe, hrecipe, _, -, ai, hai, _,
    -, _, -, u, -, rfl⟩ := h
  have hget : ∀ key : String, key.toList ≠ "upload".toList →
      get (Json.insert "upload".toList u.toDict ms) key = get (Json.insert "upload".toList w ms) key := by
    intro key hne
    unfold Json.get Json.getOr
    rw [lookup_insert_ne hne, lookup_insert_ne hne]
  have hself : get (Json.insert "upload".toList u.toDict ms) "upload" = u.toDict := by
    unfold Json.get Json.getOr
    rw [lookup_insert_self]
    rfl
  refine parseProfile_eq_ok hf ?_ ?_ ?_ ?_ ?_ ?_ ?_ ?_
  · unfold HasKeys at hkeys ⊢
    rw [keys_insert _ _ w]
    exact hkeys
  · rw [hget _ (by decide)]
    exact hedit
  · rw [hget _ (by decide)]
    exact hupload
  · rw [hget _ (by decide)]
    exact hegress
  · rw [hget _ (by decide)]
    exact hmode
  · rw [hget _ (by decide)]
    exact hrecipe
  · rw [hget _ (by decide)]
    exact hai
  · rw [hself]
    exact parseUpload_items u

/-! ## canonical values -/

theorem canonical_texts {α : Type} (text : α → Text) (l : List α) :
    Canonical (F := F) (.arr (l.map (fun a => .str (text a)))) := by
  refine .arr (fun v hv => ?_)
  obtain ⟨a, -, rfl⟩ := List.mem_map.mp hv
  exact .str _

theorem canonical_optionalInt (o : Option Int) : Canonical (F := F) (optionalInt o) := by
  cases o with
  | none => exact .null
  | some i => exact .int i

theorem UploadProfile.canonical {cover : Bool} {u : UploadProfile F bound cover}
    (h : ∀ ms ∈ u.target_overrides, Canonical (.obj ms)) : Canonical u.toDict := by
  have hoverrides : Canonical (.arr (u.target_overrides.map .obj)) := by
    refine .arr (fun v hv => ?_)
    obtain ⟨ms, hms, rfl⟩ := List.mem_map.mp hv
    exact h ms hms
  have hbindings : Canonical (F := F) (.arr (u.account_bindings.map (fun b => .obj (record b.items)))) := by
    refine .arr (fun v hv => ?_)
    obtain ⟨b, -, rfl⟩ := List.mem_map.mp hv
    refine canonical_record ["account_id", "platform", "session_revision"] rfl (by decide) ?_
    unfold AccountBinding.items
    simp only [List.forall_mem_cons]
    exact ⟨.str _, .str _, .str _, fun m hm => nomatch hm⟩
  refine canonical_record _ u.names ?_ ?_
  · generalize u.prefer_download_cover = b
    generalize u.title_mode = m
    cases bound <;> cases b <;> cases m <;> decide
  · unfold UploadProfile.items
    simp only [List.forall_mem_append, List.forall_mem_cons]
    refine ⟨?_, ⟨canonical_texts _ _, canonical_optionalInt _, canonical_optionalInt _, .str _, .str _,
      fun m hm => nomatch hm⟩, ?_, ⟨.str _, canonical_texts _ _, hoverrides, .str _, fun m hm => nomatch hm⟩, ?_⟩
    · cases bound with
      | true => exact fun m hm => by rw [List.mem_singleton.mp hm]; exact hbindings
      | false => exact fun m hm => nomatch hm
    · cases u.prefer_download_cover with
      | true => exact fun m hm => by rw [List.mem_singleton.mp hm]; exact .bool _
      | false => exact fun m hm => nomatch hm
    · split
      · exact fun m hm => by rw [List.mem_singleton.mp hm]; exact .str _
      · exact fun m hm => nomatch hm

/-- the overrides of a canonical upload are canonical -/
theorem parseUpload_overrides {cover : Bool} {u : UploadProfile F bound cover} (hv : Canonical v)
    (h : parseUpload bound cover v = .ok u) : ∀ ms ∈ u.target_overrides, Canonical (.obj ms) := by
  simp only [parseUpload, bind_eq_ok, fetch_eq_ok, require_eq_ok, pure_eq_ok] at h
  obtain ⟨ms, hms, _, -, _, -, _, -, _, -, _, -, _, -, _, -, _, -, _, -, _, -, _, -, _, -, _, -, _, -, _, -, raw, hraw,
    overrides, hoverrides, _, -, _, -, _, -, _, -, _, -, rfl⟩ := h
  intro o ho
  have hobj : Canonical (.obj ms) := by
    cases v with
    | obj ns =>
      cases hms
      exact hv
    | _ => cases hms
  have harr : Canonical (.arr raw) := by
    have hget := hobj.get "target_overrides"
    cases hg : Json.get ms "target_overrides" with
    | arr vs =>
      rw [hg] at hraw hget
      cases hraw
      exact hget
    | _ =>
      rw [hg] at hraw
      cases hraw
  obtain ⟨x, hx, hxo⟩ := each_mem hoverrides o ho
  rw [fetch_eq_ok] at hxo
  cases x with
  | obj ns =>
    cases hxo
    exact harr.of_mem hx
  | _ => cases hxo

theorem AiProfile.canonical (a : AiProfile fl) : Canonical (.obj (record a.items)) := by
  refine canonical_record _ a.names ?_ ?_
  · generalize a.contract.form = form
    generalize a.transcription_mode.isSome = mode
    cases form <;> cases mode <;> decide
  · obtain ⟨provider, model, mode, contract⟩ := a
    have hmode : ∀ m ∈ optionItem "transcription_mode" (mode.map (fun m => Value.str (F := F) m.name)), Canonical m.2 := by
      cases mode with
      | none => exact fun m hm => nomatch hm
      | some x => exact fun m hm => by rw [List.mem_singleton.mp hm]; exact .str _
    have htokens : ∀ m ∈ [("transcription_model", Value.str (F := F) model.1), ("transcription_provider", .str provider.1)],
        Canonical m.2 := by
      simp only [List.forall_mem_cons]
      exact ⟨.str _, .str _, fun m hm => nomatch hm⟩
    unfold AiProfile.items
    cases contract with
    | legacy =>
      simp only [List.forall_mem_append]
      exact ⟨hmode, htokens⟩
    | digests t s =>
      simp only [List.forall_mem_append, List.forall_mem_cons]
      exact ⟨⟨⟨⟨.str _, fun m hm => nomatch hm⟩, hmode⟩, .str _, .str _, fun m hm => nomatch hm⟩, .str _,
        fun m hm => nomatch hm⟩
    | bound t s transcription translation =>
      simp only [List.forall_mem_append, List.forall_mem_cons]
      exact ⟨⟨⟨⟨canonical_toDict _, .str _, fun m hm => nomatch hm⟩, hmode⟩, .str _, .str _, fun m hm => nomatch hm⟩,
        canonical_toDict _, .str _, fun m hm => nomatch hm⟩

/-- **What a profile is written as is canonical**, if its overrides are. -/
theorem WorkflowProfile.canonical (h : ∀ ms ∈ p.upload.target_overrides, Canonical (.obj ms)) : Canonical p.toDict := by
  have hai : Canonical (aiValue p.ai) := by
    cases p.ai with
    | none => exact .null
    | some a => exact a.canonical
  refine canonical_record _ p.names (by decide) ?_
  unfold WorkflowProfile.items
  simp only [List.forall_mem_cons]
  exact ⟨hai, .bool _, .bool _, .bool _, .str _, EditRecipe.canonical _, UploadProfile.canonical h, fun m hm => nomatch hm⟩

/-- a profile of a canonical value is written as a canonical value -/
theorem parseProfile_canonical (hv : Canonical v) (h : parseProfile py bound required v = .ok p) :
    (∀ ms ∈ p.upload.target_overrides, Canonical (.obj ms)) ∧ Canonical p.toDict := by
  have hoverrides : ∀ ms ∈ p.upload.target_overrides, Canonical (.obj ms) := by
    simp only [parseProfile, bind_eq_ok, fetch_eq_ok, pure_eq_ok] at h
    obtain ⟨ms, hms, _, -, _, -, _, -, _, -, _, -, _, -, _, -, _, -, _, -, _, -, _, -, u, hu, rfl⟩ := h
    have hobj : Canonical (.obj ms) := by
      cases v with
      | obj ns =>
        cases hms
        exact hv
      | _ => cases hms
    exact parseUpload_overrides (hobj.get "upload") hu
  exact ⟨hoverrides, WorkflowProfile.canonical hoverrides⟩

end

end OpenFlame.Workflow
