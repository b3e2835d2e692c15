import OpenFlame.Workflow.Races

/-!
# Request keys

* `same_request`          requests with one digest are the same, where no two of their texts have one digest;
* `workflow_history`      **the histories of workflows, under any interleaving of calls**.
-/

set_option linter.all false

namespace OpenFlame.Workflow
open Guard Text Json Editing TransSys Process
open Upload (Mode Platform)

section
variable {F : Type} {fl : Floats F} (py : Python fl)

/-- two requests that differ in nothing that is compared -/
def SameRequest (fl : Floats F) (i j : Intent F) : Prop :=
  i.source_url = j.source_url ∧ i.name = j.name ∧ dumps fl i.profile = dumps fl j.profile

/-- the texts that the digest of a request is made of -/
def Intent.texts (fl : Floats F) (i : Intent F) : List Text := [i.encoded, dumps fl i.profile]

/-- no two of the texts have one digest -/
def NoCollision (texts : List Text) : Prop := ∀ a ∈ texts, ∀ b ∈ texts, py.sha256 a = py.sha256 b → a = b

variable {py}

theorem intent_digest {c : CreateRequest F} {i : Intent F} (h : c.intent py = .ok i) :
    i.digest = py.sha256 i.encoded ∧
      i.encoded = dumps fl (requestPayload (F := F) i.source_url i.name (py.sha256 (dumps fl i.profile))) := by
  simp only [CreateRequest.intent, normalizeWorkflowProfile, bind_eq_ok, require_eq_ok, pure_eq_ok, mapError_eq_ok] at h
  obtain ⟨_, -, source_url, -, _, -, name, -, profile, ⟨p, -, x, hx, rfl⟩, y, hy, rfl⟩ := h
  obtain ⟨e, d⟩ := x
  obtain ⟨e', d'⟩ := y
  obtain ⟨-, -, rfl, rfl⟩ := canonicalWorkflowMapping_eq_ok.mp hx
  obtain ⟨-, -, rfl, rfl⟩ := canonicalWorkflowMapping_eq_ok.mp hy
  exact ⟨rfl, rfl⟩

theorem requestPayload_canonical (source_url name digest : Text) :
    Canonical (requestPayload (F := F) source_url name digest) := by
  refine canonical_record ["name", "profile_sha256", "source_url"] rfl (by decide) ?_
  simp only [List.forall_mem_cons]
  exact ⟨.str _, .str _, .str _, fun m hm => nomatch hm⟩

/-- **Requests with one digest are the same.** -/
theorem same_request {c c' : CreateRequest F} {i j : Intent F} (hi : c.intent py = .ok i) (hj : c'.intent py = .ok j)
    (hc : NoCollision py (i.texts fl ++ j.texts fl)) (h : i.digest = j.digest) : SameRequest fl i j := by
  obtain ⟨hid, hie⟩ := intent_digest hi
  obtain ⟨hjd, hje⟩ := intent_digest hj
  have hencoded : i.encoded = j.encoded := by
    refine hc _ (by simp [Intent.texts]) _ (by simp [Intent.texts]) ?_
    rw [← hid, ← hjd, h]
  have hpayload : requestPayload (F := F) i.source_url i.name (py.sha256 (dumps fl i.profile)) =
      requestPayload j.source_url j.name (py.sha256 (dumps fl j.profile)) := by
    have hi' : loads fl (dumps fl _) = some _ :=
      loads_dumps (requestPayload_canonical i.source_url i.name (py.sha256 (dumps fl i.profile)))
    rw [← hie, hencoded, hje, loads_dumps (requestPayload_canonical _ _ _)] at hi'
    exact (Option.some.inj hi').symm
  simp only [requestPayload, record, List.map_cons, List.map_nil, Value.obj.injEq, List.cons.injEq, Prod.mk.injEq,
    Value.str.injEq, true_and, and_true] at hpayload
  obtain ⟨hname, hprofile, hurl⟩ := hpayload
  exact ⟨hurl, hname, hc _ (by simp [Intent.texts]) _ (by simp [Intent.texts]) hprofile⟩

end

section
variable {F : Type} {fl : Floats F} {py : Python fl}

def conflict : Fault := .workflow "idempotency_conflict"

/-- both checks of a key that belongs to another request -/
theorem checks_conflict {s : Store F} (hs : Logged s) {new : NewWorkflow F} {digest id : Text}
    (h : Made new.request_key digest id s) (hd : digest ≠ new.request_digest) (m : Moment) :
    (storeMachine py).result (.findKey new.request_key new.request_digest) m s = .error conflict ∧
      (storeMachine py).result (.insert new) m s = .error conflict := by
  have hkeyed : s.keyed py new.request_key new.request_digest = .error conflict := keyed_conflict hs h hd
  constructor
  · show ((do return (← s.keyed py new.request_key new.request_digest, s)) : Except Fault _).map Prod.fst = _
    rw [hkeyed]
    rfl
  · show (execInsert py new m s).map Prod.fst = _
    unfold execInsert
    rw [hkeyed]
    rfl

theorem Made.unique {s : Store F} (hs : Logged s) {key digest digest' id id' : Text} (h : Made key digest id s)
    (h' : Made key digest' id' s) : id = id' ∧ digest = digest' := by
  obtain ⟨row, hrow, hid, hkey, hdigest⟩ := h
  obtain ⟨row', hrow', hid', hkey', hdigest'⟩ := h'
  have he := hs.keys row hrow row' hrow' (hkey.trans hkey'.symm)
  rw [← hid, ← hid', ← hdigest, ← hdigest', he]
  exact ⟨rfl, rfl⟩

/-- a call that comes in when its key belongs to another request -/
theorem later_create {w w₁ w₂ : ServiceWorld py} {c : CreateRequest F} {i : Intent F} {digest id : Text}
    {ls : List (World.Label (StoreOp py) (ServiceCall (F := F)) Moment)} {r : Except Fault (Record py)}
    (hw : ServiceReach py w) (hi : c.intent py = .ok i) (hmade : Made c.idempotency_key digest id w.store)
    (hd : digest ≠ i.digest) (hcall : ServiceStep py w (.call (.create c)) w₁) (hrun : Run (ServiceStep py) w₁ ls w₂)
    (hr : w₂.calls[w.calls.length]? = some (.create c, .done r)) : r = .error conflict := by
  cases hcall
  have hlogged := reach_logged hw
  have hn : (w.calls ++ [(ServiceCall.create c, ServiceCall.run py (.create c))])[w.calls.length]? =
      some (.create c, create py c) := by
    rw [List.getElem?_append_right (Nat.le_refl _), Nat.sub_self]
    rfl
  obtain ⟨p, hp, hends⟩ := World.run_ends (I := Logged) Kept.refl
    (fun _ _ _ => Kept.trans) (fun o x s hs => next_logged o x s hs) (fun o x s _ => next_kept o x s)
    (fun _ _ _ _ h => h) hrun hlogged hn (create_conflict c hi hd hmade)
  rw [hr] at hp
  cases hp
  exact hends

/-- **The history of a workflow is a linear log**, whatever calls run beside each other. -/
theorem workflow_history (py : Python fl) :
    (∀ w, ServiceReach py w → Logged w.store) ∧
    (∀ w l w', ServiceReach py w → ServiceStep py w l w' → w'.store = w.store ∨ ∃ id, Raised w.store w'.store id) ∧
    (∀ (w w₁ w₂ w₃ : ServiceWorld py) (β γ : Type) (o : StoreOp py β) (o' : StoreOp py γ) (i j : Nat) (m m' : Moment)
      (ls : List (World.Label (StoreOp py) (ServiceCall (F := F)) Moment)) (held : Text × Nat),
      ServiceReach py w → ServiceStep py w (.txn i o m) w₁ → Run (ServiceStep py) w₁ ls w₂ →
      ServiceStep py w₂ (.txn j o' m') w₃ → o.holds = some held → o'.holds = some held →
      w₁.store = w.store ∨ w₃.store = w₂.store) ∧
    (∀ w c c' record record', ServiceReach py w → (.create c, .done (.ok record)) ∈ w.calls →
      (.create c', .done (.ok record')) ∈ w.calls → c.idempotency_key = c'.idempotency_key →
      record.id = record'.id ∧ ∃ row ∈ w.store.workflows, row.id = record.id ∧
        ∀ row' ∈ w.store.workflows, row'.request_key = c.idempotency_key → row' = row) ∧
    (∀ w c c' i j record, ServiceReach py w → (.create c, .done (.ok record)) ∈ w.calls →
      c.idempotency_key = c'.idempotency_key → c.intent py = .ok i → c'.intent py = .ok j →
      NoCollision py (i.texts fl ++ j.texts fl) → ¬ SameRequest fl i j →
      (∀ record', (ServiceCall.create c', Process.done (Except.ok record')) ∉ w.calls) ∧
      (∀ (m : Moment) new, new.request_key = c'.idempotency_key → new.request_digest = j.digest →
        (storeMachine py).result (.findKey new.request_key new.request_digest) m w.store = .error conflict ∧
          (storeMachine py).result (.insert new) m w.store = .error conflict) ∧
      ∀ w₁ ls w₂ r, ServiceStep py w (.call (.create c')) w₁ → Run (ServiceStep py) w₁ ls w₂ →
        w₂.calls[w.calls.length]? = some (.create c', .done r) → r = .error conflict) := by
  refine ⟨fun w hw => reach_logged hw, ?_, ?_, ?_, ?_⟩
  · intro w l w' _ hs
    rcases hs.store with h | ⟨β, o, x, h⟩
    · exact .inl h
    · rw [h]
      exact (next_change o x w.store).raised
  · intro w w₁ w₂ w₃ β γ o o' i j m m' ls held _ h₁ hr h₂ ho ho'
    exact one_writer h₁ hr h₂ ho ho'
  · intro w c c' record record' hw hc hc' hkey
    have hlogged := reach_logged hw
    obtain ⟨i, -, hmade⟩ := reach_create hw hc
    obtain ⟨i', -, hmade'⟩ := reach_create hw hc'
    rw [← hkey] at hmade'
    refine ⟨(hmade.unique hlogged hmade').1, ?_⟩
    obtain ⟨row, hrow, hid, hrowkey, -⟩ := hmade
    exact ⟨row, hrow, hid, fun row' hrow' h => hlogged.keys row' hrow' row hrow (h.trans hrowkey.symm)⟩
  · intro w c c' i j record hw hc hkey hi hj hcollision hdifferent
    have hlogged := reach_logged hw
    obtain ⟨i', hi', hmade⟩ := reach_create hw hc
    rw [hi] at hi'
    cases hi'
    rw [hkey] at hmade
    have hd : i.digest ≠ j.digest := fun h => hdifferent (same_request hi hj hcollision h)
    refine ⟨?_, ?_, ?_⟩
    · intro record' hc'
      obtain ⟨j', hj', hmade'⟩ := reach_create hw hc'
      rw [hj] at hj'
      cases hj'
      exact hd (hmade.unique hlogged hmade').2
    · intro m new hnewkey hnewdigest
      rw [← hnewkey] at hmade
      exact checks_conflict hlogged hmade (by rw [hnewdigest]; exact hd) m
    · intro w₁ ls w₂ r hcall hrun hr
      exact later_create hw hj hmade hd hcall hrun hr

end

/-! ## a race -/

section
variable {F : Type} {fl : Floats F} {py : Python fl}

/-- the steps of a `create` that finds its key free -/
theorem create_steps {c : CreateRequest F} {i : Intent F} (hi : c.intent py = .ok i) :
    ∃ k, create py c = .txn (.findKey c.idempotency_key i.digest) k ∧
      ∃ k', k (.ok none) = .ask (AdapterCall.preflight i.profile none) k' ∧ (∀ e, k' (.error e) = .done (.error e)) ∧
        ∀ bindings new, newWorkflow py c.idempotency_key i bindings = .ok new →
          k' (.ok bindings) = .txn (.insert new) .done := by
  unfold create
  rw [hi]
  refine ⟨_, rfl, _, rfl, fun e => rfl, ?_⟩
  intro bindings new hnew
  show (Process.lift (newWorkflow py c.idempotency_key i bindings) >>= fun new => Process.call (StoreOp.insert new)) = _
  rw [hnew]
  rfl

/-- one request gets the key while the preflight of the other one fails -/
theorem race_reached {c c' : CreateRequest F} {i j : Intent F} {bindings : List (List (Text × Value F))}
    {new : NewWorkflow F} {m : Moment} {record : Record py} {s : Store F} (hi : c.intent py = .ok i)
    (hj : c'.intent py = .ok j) (hnew : newWorkflow py c.idempotency_key i bindings = .ok new)
    (hexec : execStore py (.insert new) m (Store.empty F) = .ok (record, s)) (e : Fault) :
    ∃ w : ServiceWorld py, ServiceReach py w ∧
      w.calls = [(.create c, .done (.ok record)), (.create c', .done (.error e))] ∧ w.store = s := by
  obtain ⟨k, hk, a, ha, -, hinsert⟩ := create_steps hi
  obtain ⟨l, hl, b, hb, hfail, -⟩ := create_steps hj
  have hfind : ∀ key digest : Text, (storeMachine py).result (.findKey key digest) m (Store.empty F) = .ok none ∧
      (storeMachine py).next (.findKey key digest) m (Store.empty F) = Store.empty F := fun _ _ => ⟨rfl, rfl⟩
  have h0 : ServiceReach py ⟨Store.empty F, []⟩ := .init ⟨rfl, rfl⟩
  have h1 := h0.step (.call _ (.create c))
  have h2 := h1.step (.call _ (.create c'))
  have e2 : ([] ++ [(ServiceCall.create c, ServiceCall.run py (.create c))]) ++
      [(ServiceCall.create c', ServiceCall.run py (.create c'))] =
        [(.create c, .txn (.findKey c.idempotency_key i.digest) k),
          (.create c', .txn (.findKey c'.idempotency_key j.digest) l)] := by
    rw [← hk, ← hl]
    rfl
  rw [e2] at h2
  have h3 := h2.step (.txn _ 0 _ _ k m rfl)
  rw [(hfind _ _).1, (hfind _ _).2, ha] at h3
  have h4 := h3.step (.txn _ 1 _ _ l m rfl)
  rw [(hfind _ _).1, (hfind _ _).2, hb] at h4
  have h5 := h4.step (.answer _ 0 _ _ a (.ok bindings) rfl)
  rw [hinsert bindings new hnew] at h5
  have h6 := h5.step (.txn _ 0 _ _ .done m rfl)
  rw [show (storeMachine py).result (.insert new) m (Store.empty F) = .ok record from Machine.result_ok hexec] at h6
  have h7 := h6.step (.answer _ 1 _ _ b (.error e) rfl)
  rw [hfail e] at h7
  exact ⟨_, h7, rfl, Machine.next_ok hexec⟩

/-- the first workflow of a store -/
theorem insert_empty {new : NewWorkflow F} {m : Moment} {record : Record py}
    (h : (new.row m.uuid).public py = .ok record) :
    ∃ s, execStore py (.insert new) m (Store.empty F) = .ok (record, s) := by
  have hkeyed : (Store.empty F).keyed py new.request_key new.request_digest = .ok none := rfl
  obtain ⟨workflows, hworkflows⟩ := Table.insert_isSome (t := (Store.empty F).workflows) (r := new.row m.uuid)
    (fun r hr => nomatch hr)
  obtain ⟨events, hevents⟩ := Table.insert_isSome (t := (Store.empty F).events)
    (r := eventFor (Store.empty F) none (new.row m.uuid)) (fun r hr => nomatch hr)
  have hevent : Store.event ⟨workflows, (Store.empty F).events⟩ m.uuid.1 none .created "" = .ok ⟨workflows, events⟩ := by
    simp only [Store.event, bind_eq_ok, fetch_eq_ok, pure_eq_ok]
    exact ⟨events, hevents, rfl⟩
  have hget : workflows.get m.uuid.1 = some (new.row m.uuid) :=
    Table.get_eq_some.mpr ⟨(Table.mem_insert hworkflows).mpr (.inr rfl), rfl⟩
  refine ⟨⟨workflows, events⟩, ?_⟩
  show execInsert py new m (Store.empty F) = _
  simp only [execInsert, bind_eq_ok]
  refine ⟨none, hkeyed, ?_⟩
  simp only [bind_eq_ok, fetch_eq_ok, pure_eq_ok]
  refine ⟨workflows, hworkflows, _, hevent, record, ?_, rfl⟩
  simp only [Store.byId, bind_eq_ok, fetch_eq_ok]
  exact ⟨_, hget, h⟩

/-! ### two requests of one key -/

/-- SHA-256 of the texts of two requests, which have different lengths -/
def digestOf (s : Text) : Text :=
  if s.length = 622 then "cf1b43af9454985edba5dea2b52aa5cd042bf7f8256a79da6e9e9c16bc5cfb63".toList
  else if s.length = 769 then "80d4511c136d2f62e43d321f00d7224f247e78c29db69582fc2eb4e4b4d756d1".toList
  else if s.length = 121 then "9bc8aab4b963c2ea524713bff19a2a0a2c4eecc7740d697efb75cb7742306394".toList
  else if s.length = 122 then "b319b47b123f1419ae6b45e75c54f84a5c557637a25395741207046ed8c8aef0".toList
  else []

/-- texts of letters, with these digests -/
def lettersPython : Python Floats.texts := { Python.fixed [] with sha256 := digestOf }

theorem noDescription_plain : IsPlain 2000 [] ∧ Text.strip [] = [] ∧ (false = true → ([] : Text) ≠ []) := by decide

theorem noCredit_plain : IsPlain 200 [] ∧ Text.strip [] = [] ∧ (false = true → ([] : Text) ≠ []) := by decide

theorem oneAccount_fits : 1 ≤ [account].length ∧ [account].length ≤ MAX_WORKFLOW_ACCOUNTS ∧ [account].Nodup := by decide

theorem noTags_fit : ([] : List (PlainText 20 true)).length ≤ 10 ∧ ([] : List (PlainText 20 true)).Nodup := by decide

theorem session_isHex : isHex 32 (List.replicate 32 'b') = true := by decide

/-- an upload to one account, bound to its session or not -/
def boundUpload (bindings : List AccountBinding) {bound : Bool} (h : BindingsFit bound [account] bindings) :
    UploadProfile {s : List Char // isFloatText s = true} bound false where
  title_mode := .explicit
  prefer_download_cover := false
  title := ⟨['t'], by decide⟩
  account_ids := [account]
  tags := []
  mode := .draft
  category_id := none
  copyright := none
  target_overrides := []
  account_bindings := bindings
  description := ⟨[], noDescription_plain⟩
  source_credit := ⟨[], noCredit_plain⟩
  valid_cover := fun h => h
  valid_title := nofun
  valid_accounts := oneAccount_fits
  valid_tags := noTags_fit
  valid_overrides := ⟨by decide, nofun, by decide⟩
  valid_bindings := h

def boundProfile (bindings : List AccountBinding) {bound : Bool} (h : BindingsFit bound [account] bindings) :
    WorkflowProfile lettersPython bound where
  edit_recipe := plainRecipe
  ai := none
  download_credential_mode := .anonymous
  auto_confirm_edit := false
  auto_confirm_upload := false
  ai_data_egress_accepted := false
  upload := boundUpload bindings h

def accountSession : AccountBinding := ⟨account, .bilibili, ⟨List.replicate 32 'b', session_isHex⟩⟩

/-- before the preflight -/
def intentProfile : WorkflowProfile lettersPython false := boundProfile [] (by decide)

/-- after it -/
def storedProfile : WorkflowProfile lettersPython true := boundProfile [accountSession] (by decide)

theorem boundProfile_fits (bindings : List AccountBinding) {bound : Bool} (h : BindingsFit bound [account] bindings)
    (required : Bool) : ProfileFits required (boundProfile bindings h) := by
  refine ⟨Nat.zero_le _, ?_, rfl, ?_, ?_, ?_⟩
  · exact fun h => Bool.false_ne_true h.1
  · rfl
  · exact fun h => Bool.false_ne_true h.1
  · exact fun h => Bool.false_ne_true h.2

theorem intentProfile_fits : ProfileFits true intentProfile := boundProfile_fits [] (by decide) true

theorem storedProfile_fits (required : Bool) : ProfileFits required storedProfile :=
  boundProfile_fits [accountSession] (by decide) required

theorem intentProfile_finite : finite Floats.texts intentProfile.toDict = true := by rfl

theorem storedProfile_finite : finite Floats.texts storedProfile.toDict = true := by rfl

theorem sizes : (dumps Floats.texts intentProfile.toDict).length = 622 ∧
    utf8Size (dumps Floats.texts intentProfile.toDict) = 622 ∧ utf8Size (dumps Floats.texts storedProfile.toDict) = 769 := by
  have hascii : (dumps Floats.texts intentProfile.toDict).map Char.utf8Size = List.replicate 622 1 := by decide +kernel
  have hlength : (dumps Floats.texts intentProfile.toDict).length = 622 := by
    simpa only [List.length_map, List.length_replicate] using congrArg List.length hascii
  rw [utf8Size_eq_sum, utf8Size_eq_sum, hascii]
  exact ⟨hlength, by decide +kernel, by decide +kernel⟩

/-- what is compared of a request with this name -/
def lettersIntent (name : Text) : Intent {s : List Char // isFloatText s = true} where
  source_url := "https://a".toList
  name := name
  profile := intentProfile.toDict
  encoded := dumps Floats.texts (requestPayload "https://a".toList name
    "cf1b43af9454985edba5dea2b52aa5cd042bf7f8256a79da6e9e9c16bc5cfb63".toList)
  digest := digestOf (dumps Floats.texts (requestPayload "https://a".toList name
    "cf1b43af9454985edba5dea2b52aa5cd042bf7f8256a79da6e9e9c16bc5cfb63".toList))

def lettersRequest (name : Text) : CreateRequest {s : List Char // isFloatText s = true} :=
  ⟨"https://a".toList, name, intentProfile.toDict, "first-key".toList⟩

theorem digestOf_intent {s : Text} (h : s.length = 622) :
    lettersPython.sha256 s = "cf1b43af9454985edba5dea2b52aa5cd042bf7f8256a79da6e9e9c16bc5cfb63".toList := if_pos h

theorem digest_intentProfile : lettersPython.sha256 (dumps Floats.texts intentProfile.toDict) =
    "cf1b43af9454985edba5dea2b52aa5cd042bf7f8256a79da6e9e9c16bc5cfb63".toList :=
  digestOf_intent sizes.1

theorem lettersRequest_intent {name : Text} (hname : normalizeWorkflowText 160 true name = .ok name)
    (hsize : utf8Size (lettersIntent name).encoded ≤ 128 * 1024) :
    (lettersRequest name).intent lettersPython = .ok (lettersIntent name) := by
  have hkey : isRequestKey "first-key".toList = true := by decide +kernel
  have hurl : normalizeWorkflowText 4096 true "https://a".toList = .ok "https://a".toList := by decide +kernel
  have hprefix : "https://".toList <+: "https://a".toList := by decide
  simp only [CreateRequest.intent, normalizeWorkflowProfile, bind_eq_ok, require_eq_ok, pure_eq_ok, mapError_eq_ok]
  refine ⟨(), hkey, _, hurl, (), .inl hprefix, _, hname, _,
    ⟨_, parseProfile_toDict intentProfile_fits, _,
      canonicalWorkflowMapping_ok _ intentProfile_finite (by rw [sizes.2.1]; decide), rfl⟩, _,
    canonicalWorkflowMapping_ok _ rfl ?_, ?_⟩
  · rw [digest_intentProfile]
    exact hsize
  · dsimp only
    rw [digest_intentProfile]
    rfl

def firstName : Text := ['a']
def secondName : Text := ['b', 'b']

theorem sizes_intent : utf8Size (lettersIntent firstName).encoded = 121 ∧ utf8Size (lettersIntent secondName).encoded = 122 ∧
    (lettersIntent firstName).encoded.length = 121 ∧ (lettersIntent secondName).encoded.length = 122 := by
  have hfirst : (lettersIntent firstName).encoded.map Char.utf8Size = List.replicate 121 1 := by decide +kernel
  have hsecond : (lettersIntent secondName).encoded.map Char.utf8Size = List.replicate 122 1 := by decide +kernel
  rw [utf8Size_eq_sum, utf8Size_eq_sum, hfirst, hsecond]
  refine ⟨by decide +kernel, by decide +kernel, ?_, ?_⟩
  · simpa only [List.length_map, List.length_replicate] using congrArg List.length hfirst
  · simpa only [List.length_map, List.length_replicate] using congrArg List.length hsecond

theorem first_intent : (lettersRequest firstName).intent lettersPython = .ok (lettersIntent firstName) :=
  lettersRequest_intent (by decide) (by rw [sizes_intent.1]; decide)

theorem second_intent : (lettersRequest secondName).intent lettersPython = .ok (lettersIntent secondName) :=
  lettersRequest_intent (by decide) (by rw [sizes_intent.2.1]; decide)

/-- no two texts of these requests have one digest -/
theorem letters_noCollision :
    NoCollision lettersPython ((lettersIntent firstName).texts Floats.texts ++ (lettersIntent secondName).texts Floats.texts) := by
  have hlengths : ∀ a ∈ (lettersIntent firstName).texts Floats.texts ++ (lettersIntent secondName).texts Floats.texts,
      ∀ b ∈ (lettersIntent firstName).texts Floats.texts ++ (lettersIntent secondName).texts Floats.texts,
        a.length = b.length → a = b := by
    obtain ⟨-, -, h1, h2⟩ := sizes_intent
    have h3 := sizes.1
    have h4 : (lettersIntent firstName).profile = intentProfile.toDict ∧
        (lettersIntent secondName).profile = intentProfile.toDict := ⟨rfl, rfl⟩
    intro a ha b hb hab
    simp only [Intent.texts, h4.1, h4.2, List.cons_append, List.nil_append, List.mem_cons, List.not_mem_nil, or_false]
      at ha hb
    rcases ha with rfl | rfl | rfl | rfl <;> rcases hb with rfl | rfl | rfl | rfl <;> first | rfl | omega
  have hlength : ∀ a ∈ (lettersIntent firstName).texts Floats.texts ++ (lettersIntent secondName).texts Floats.texts,
      a.length ∈ [121, 122, 622] := by
    obtain ⟨-, -, h1, h2⟩ := sizes_intent
    have h3 := sizes.1
    have h4 : (lettersIntent firstName).profile = intentProfile.toDict ∧
        (lettersIntent secondName).profile = intentProfile.toDict := ⟨rfl, rfl⟩
    intro a ha
    simp only [Intent.texts, h4.1, h4.2, List.cons_append, List.nil_append, List.mem_cons, List.not_mem_nil, or_false]
      at ha
    rcases ha with rfl | rfl | rfl | rfl
    · rw [h1]
      decide
    · rw [h3]
      decide
    · rw [h2]
      decide
    · rw [h3]
      decide
  intro a ha b hb h
  refine hlengths a ha b hb ?_
  have hdigest : ∀ n ∈ [121, 122, 622], ∀ k ∈ [121, 122, 622], (digestOf (List.replicate n 'x')) =
      digestOf (List.replicate k 'x') → n = k := by decide +kernel
  have hof : ∀ s : Text, digestOf s = digestOf (List.replicate s.length 'x') := by
    intro s
    unfold digestOf
    rw [List.length_replicate]
  refine hdigest _ (hlength a ha) _ (hlength b hb) ?_
  rw [← hof, ← hof]
  exact h

/-- the bindings that the preflight answers -/
def lettersBindings : List (List (Text × Value {s : List Char // isFloatText s = true})) := [record accountSession.items]

theorem bind_intentProfile : bindAccounts intentProfile.toDict lettersBindings = storedProfile.toDict := by rfl

def lettersNew : NewWorkflow {s : List Char // isFloatText s = true} where
  request_key := "first-key".toList
  request_digest := (lettersIntent firstName).digest
  source_url := "https://a".toList
  name := firstName
  profile_json := storedProfile.toDict
  profile_sha256 := lettersPython.sha256 (dumps Floats.texts storedProfile.toDict)
  auto_confirm_edit := false
  auto_confirm_upload := false

theorem new_letters :
    newWorkflow lettersPython "first-key".toList (lettersIntent firstName) lettersBindings = .ok lettersNew := by
  have hbind : bindAccounts (lettersIntent firstName).profile lettersBindings = storedProfile.toDict := bind_intentProfile
  simp only [newWorkflow, bind_eq_ok, pure_eq_ok, mapError_eq_ok, hbind]
  refine ⟨_, parseProfile_toDict (storedProfile_fits true), _,
    canonicalWorkflowMapping_ok _ storedProfile_finite (by rw [sizes.2.2]; decide), ?_⟩
  dsimp only
  unfold lettersNew
  congr 1

def lettersMoment : Moment := ⟨[], ⟨List.replicate 32 'c', by decide⟩⟩

theorem public_letters : (lettersNew.row lettersMoment.uuid).public lettersPython =
    .ok { toWorkflowRow := lettersNew.row lettersMoment.uuid, profile := storedProfile } := by
  simp only [WorkflowRow.public, bind_eq_ok, require_eq_ok, pure_eq_ok, mapError_eq_ok]
  refine ⟨_, parseProfile_toDict (storedProfile_fits false), _,
    canonicalWorkflowMapping_ok _ storedProfile_finite (by rw [sizes.2.2]; decide), (), ?_, (), rfl, [], rfl, (),
    by decide, (), by decide, rfl⟩
  dsimp only [NewWorkflow.row, lettersNew]
  exact ⟨rfl, rfl, rfl, rfl⟩


theorem letters_differ : ¬ SameRequest Floats.texts (lettersIntent firstName) (lettersIntent secondName) := by
  intro h
  exact absurd h.2.1 (by decide)

/-- another workflow for the same key -/
def secondNew (digest : Text) : NewWorkflow {s : List Char // isFloatText s = true} :=
  { lettersNew with request_key := "first-key".toList, request_digest := digest }

theorem secondNew_key (digest : Text) : (secondNew digest).request_key = "first-key".toList := rfl

theorem secondNew_digest (digest : Text) : (secondNew digest).request_digest = digest := rfl

/-- two requests with one key, of which the second one fails as its preflight does -/
theorem letters_race (e : Fault) : ∃ (w : ServiceWorld lettersPython) (record : Record lettersPython),
    ServiceReach lettersPython w ∧ w.calls =
      [(.create (lettersRequest firstName), .done (.ok record)), (.create (lettersRequest secondName), .done (.error e))] := by
  obtain ⟨s, hs⟩ := insert_empty public_letters
  obtain ⟨w, hw, hcalls, -⟩ := race_reached first_intent second_intent new_letters hs e
  exact ⟨w, _, hw, hcalls⟩

/-- a history, the row of its key, and what becomes of another request for it -/
theorem workflow_history_letters : ∃ (w : ServiceWorld lettersPython) (record : Record lettersPython),
    Logged w.store ∧ (∃ row ∈ w.store.workflows, row.id = record.id) ∧
      (storeMachine lettersPython).result (.findKey "first-key".toList (lettersIntent secondName).digest) lettersMoment
        w.store = .error conflict := by
  obtain ⟨w, record, hw, hcalls⟩ := letters_race .other
  have hc : (ServiceCall.create (lettersRequest firstName), Process.done (Except.ok record)) ∈ w.calls := by
    rw [hcalls]
    exact List.mem_cons_self
  obtain ⟨hlogged, -, -, hone, hother⟩ := workflow_history lettersPython
  obtain ⟨-, row, hrow, hid, -⟩ := hone w _ _ record record hw hc hc rfl
  obtain ⟨-, hchecks, -⟩ := hother w _ (lettersRequest secondName) _ _ record hw hc rfl first_intent second_intent
    letters_noCollision letters_differ
  have hcheck := (hchecks lettersMoment (secondNew (lettersIntent secondName).digest) rfl (secondNew_digest _)).1
  rw [secondNew_digest, secondNew_key] at hcheck
  exact ⟨w, record, hlogged w hw, ⟨row, hrow, hid⟩, hcheck⟩

/-- a request for a key of another one can fail otherwise: with the error of its own preflight -/
theorem preflight_before_conflict :
    ¬ ∀ (w : ServiceWorld lettersPython) (c c' : CreateRequest {s : List Char // isFloatText s = true})
      (i j : Intent {s : List Char // isFloatText s = true}) (record : Record lettersPython)
      (r : Except Fault (Record lettersPython)),
      ServiceReach lettersPython w → (ServiceCall.create c, Process.done (.ok record)) ∈ w.calls →
      c.idempotency_key = c'.idempotency_key → c.intent lettersPython = .ok i → c'.intent lettersPython = .ok j →
      NoCollision lettersPython (i.texts Floats.texts ++ j.texts Floats.texts) → ¬ SameRequest Floats.texts i j →
      (ServiceCall.create c', Process.done r) ∈ w.calls → r = .error conflict := by
  intro h
  obtain ⟨w, record, hw, hcalls⟩ := letters_race (.workflow "runtime_busy")
  have he := h w (lettersRequest firstName) (lettersRequest secondName) _ _ record _ hw
    (by rw [hcalls]; exact List.mem_cons_self) rfl first_intent second_intent letters_noCollision letters_differ
    (by rw [hcalls]; exact List.mem_cons_of_mem _ List.mem_cons_self)
  have hcode : Fault.workflow "runtime_busy" = conflict := Except.error.inj he
  exact absurd hcode (by decide)

end
end OpenFlame.Workflow
