import OpenFlame.Base.Guard
import OpenFlame.Base.Json

/-!
# Authorizations of optional AI calls

An `AiOperationAuthorization` carries what its constructor checks.  The data that leaves the machine, the place of
execution and the limits follow from the operation and the kind of provider.

`parse_toDict`: an authorization is parsed back from the value it is written as.
-/

set_option linter.all false

namespace OpenFlame.Editing
open Guard Text Json

abbrev Text := List Char

/-! ## tokens -/

/-- `[A-Za-z0-9][A-Za-z0-9…]{0,longest - 1}`, where `…` are the `others` -/
def isToken (others : List Char) (longest : Nat) (s : Text) : Bool :=
  match s with
  | [] => false
  | c :: t => c.isAlphanum && t.all (fun d => d.isAlphanum || others.contains d) && decide (s.length ≤ longest)

/-- `[0-9a-f]{length}` -/
def isHex (length : Nat) (s : Text) : Bool :=
  s.length == length && s.all (fun c => c.isDigit || ('a' ≤ c && c ≤ 'f'))

/-! ## operations and providers -/

/-- `TASK_OPERATIONS` -/
inductive TaskOperation where
  | transcribe | translate | synthesize
  deriving DecidableEq, Repr

def TaskOperation.name : TaskOperation → Text
  | .transcribe => "transcribe".toList
  | .translate => "translate".toList
  | .synthesize => "synthesize".toList

/-- `_PROVIDER_KINDS` -/
inductive ProviderKind where
  | http | remote_plugin | plugin
  deriving DecidableEq, Repr

def ProviderKind.name : ProviderKind → Text
  | .http => "http".toList
  | .remote_plugin => "remote_plugin".toList
  | .plugin => "plugin".toList

/-- `_REMOTE_PROVIDER_KINDS` -/
def ProviderKind.remote : ProviderKind → Bool
  | .plugin => false
  | _ => true

/-- the member that a text names -/
def named {α : Type} (name : α → Text) (all : List α) (s : Text) : Option α := all.find? (fun a => name a == s)

def TaskOperation.ofText : Text → Option TaskOperation := named TaskOperation.name [.transcribe, .translate, .synthesize]

def ProviderKind.ofText : Text → Option ProviderKind := named ProviderKind.name [.http, .remote_plugin, .plugin]

/-- `operation_data_egress` -/
def operationDataEgress : TaskOperation → List Text
  | .transcribe => ["audio".toList]
  | .translate => ["text".toList]
  | .synthesize => ["text".toList]

/-- `CORE_OPERATION_LIMITS`, sorted -/
def coreOperationLimits : TaskOperation → List (String × Int)
  | .transcribe => [("max_audio_bytes", 25 * 1024 * 1024), ("max_audio_ms", 30 * 60 * 1000), ("max_requests", 1)]
  | .translate => [("max_cues", 1000), ("max_input_characters", 60000), ("max_requests", 20)]
  | .synthesize => [("max_cues", 600), ("max_input_characters", 60000), ("max_requests", 600)]

@[simp] theorem TaskOperation.ofText_name (o : TaskOperation) : TaskOperation.ofText o.name = some o := by
  cases o <;> decide

@[simp] theorem ProviderKind.ofText_name (k : ProviderKind) : ProviderKind.ofText k.name = some k := by
  cases k <;> decide

/-! ## values -/

/-- `AiAuthorizationError` -/
inductive AuthorizationErr where
  | ai_authorization_invalid
  deriving DecidableEq, Repr

section
variable {F : Type}

def text? : Value F → Option Text
  | .str s => some s
  | _ => none

def int? : Value F → Option Int
  | .int i => some i
  | _ => none

def bool? : Value F → Option Bool
  | .bool b => some b
  | _ => none

def array? : Value F → Option (List (Value F))
  | .arr vs => some vs
  | _ => none

def object? : Value F → Option (List (Text × Value F))
  | .obj ms => some ms
  | _ => none

/-- a text, or `None` -/
def optionalText? : Value F → Option (Option Text)
  | .null => some none
  | .str s => some (some s)
  | _ => none

/-- `_exact_mapping` -/
def exactMapping (value : Value F) (keys : List String) : Except AuthorizationErr (List (Text × Value F)) := do
  let ms ← fetch (object? value) .ai_authorization_invalid
  require (HasKeys ms keys keys) .ai_authorization_invalid
  return ms

/-- `_TOKEN` -/
abbrev Token := {s : Text // isToken "._:+-".toList 160 s = true}

/-- `_SHA256` -/
abbrev Sha256 := {s : Text // isHex 64 s = true}

/-- the texts that `_bounded_text` takes -/
def IsBounded (maximum : Nat) (s : Text) : Prop :=
  s.length ≤ maximum ∧ s.all (fun c => decide (32 ≤ c.toNat) && c.toNat != 127) = true ∧ isBlank s = false

instance (maximum : Nat) (s : Text) : Decidable (IsBounded maximum s) := inferInstanceAs (Decidable (_ ∧ _))

abbrev Bounded (maximum : Nat) := {s : Text // IsBounded maximum s ∧ strip s = s}

theorem IsBounded.strip {maximum : Nat} {s : Text} (h : IsBounded maximum s) : IsBounded maximum (strip s) := by
  obtain ⟨hlen, hall, hblank⟩ := h
  refine ⟨Nat.le_trans (strip_length_le s) hlen, ?_, isBlank_strip hblank⟩
  exact List.all_eq_true.mpr (fun c hc => List.all_eq_true.mp hall c (strip_subset s hc))

/-- `_token` -/
def token (value : Value F) : Except AuthorizationErr Token := do
  ensure _ (← fetch (text? value) .ai_authorization_invalid) .ai_authorization_invalid

/-- `_bounded_text` -/
def boundedText (maximum : Nat) (value : Value F) : Except AuthorizationErr (Bounded maximum) := do
  let s ← ensure (IsBounded maximum) (← fetch (text? value) .ai_authorization_invalid) .ai_authorization_invalid
  return ⟨strip s.1, s.2.strip, strip_strip s.1⟩

/-- `optional=True`: a check that lets `None` pass -/
def optional {α : Type} (check : Value F → Except AuthorizationErr α) : Value F → Except AuthorizationErr (Option α)
  | .null => .ok none
  | v => (check v).map some

/-- `_positive_integer` -/
def positiveInteger (value : Value F) : Except AuthorizationErr {i : Int // 0 < i} := do
  ensure _ (← fetch (int? value) .ai_authorization_invalid) .ai_authorization_invalid

/-- `_validated_limits` -/
def validatedLimits (operation : TaskOperation) (value : Value F) : Except AuthorizationErr (List Int) := do
  let row ← exactMapping value ((coreOperationLimits operation).map Prod.fst)
  each (fun l : String × Int => do
    let limit ← positiveInteger (get row l.1)
    require (limit.1 = l.2) AuthorizationErr.ai_authorization_invalid
    return limit.1) (coreOperationLimits operation)

/-- `value == AUTHORIZATION_SCHEMA` -/
def isSchema (fl : Floats F) : Value F → Bool
  | .bool b => b
  | .int i => i == 1
  | .float f => fl.equals f 1
  | _ => false

/-- a text or `None` -/
def ofOption : Option Text → Value F
  | none => .null
  | some s => .str s

end

/-! ## authorizations -/

section
variable {F : Type} (fl : Floats F)

structure AiOperationAuthorization where
  schema_version : {v : Value F // isSchema fl v = true}
  runtime_id : Token
  runtime_version : Token
  protocol_schema : {i : Int // 0 < i}
  manifest_sha256 : Sha256
  operation : TaskOperation
  provider_id : Token
  provider_kind : ProviderKind
  model_id : Option Token
  model_revision : Option (Bounded 240)
  valid_model : model_id.isNone = model_revision.isNone

variable {fl}

/-- `data_egress` -/
def AiOperationAuthorization.dataEgress (a : AiOperationAuthorization fl) : List Text :=
  if a.provider_kind.remote then operationDataEgress a.operation else []

/-- `execution` -/
def AiOperationAuthorization.execution (a : AiOperationAuthorization fl) : Text :=
  if a.provider_kind.remote then "remote".toList else "local".toList

/-- the limits as a value -/
def limitsValue (operation : TaskOperation) : Value F :=
  .obj (record ((coreOperationLimits operation).map (fun l => (l.1, .int l.2))))

/-- the items of `to_dict`, sorted -/
def AiOperationAuthorization.items (a : AiOperationAuthorization fl) : List (String × Value F) :=
  [
    ("data_egress", .arr (a.dataEgress.map .str)),
    ("execution", .str a.execution),
    ("limits", limitsValue a.operation),
    ("manifest_sha256", .str a.manifest_sha256.1),
    ("model_id", ofOption (a.model_id.map Subtype.val)),
    ("model_revision", ofOption (a.model_revision.map Subtype.val)),
    ("operation", .str a.operation.name),
    ("protocol_schema", .int a.protocol_schema.1),
    ("provider_id", .str a.provider_id.1),
    ("provider_kind", .str a.provider_kind.name),
    ("runtime_id", .str a.runtime_id.1),
    ("runtime_version", .str a.runtime_version.1),
    ("schema_version", a.schema_version.1)]

def AiOperationAuthorization.toDict (a : AiOperationAuthorization fl) : Value F := .obj (record a.items)

/-- `_AUTHORIZATION_KEYS` -/
def authorizationKeys : List String :=
  ["schema_version", "runtime_id", "runtime_version", "protocol_schema", "manifest_sha256", "operation", "provider_id",
    "provider_kind", "model_id", "model_revision", "execution", "data_egress", "limits"]

variable (fl)

/-- `AiOperationAuthorization(..)` -/
def AiOperationAuthorization.make (row : List (Text × Value F)) (data_egress : List Text) :
    Except AuthorizationErr (AiOperationAuthorization fl) := do
  let invalid := AuthorizationErr.ai_authorization_invalid
  let schema_version ← ensure (fun v => isSchema fl v = true) (get row "schema_version") invalid
  let runtime_id ← token (get row "runtime_id")
  let runtime_version ← token (get row "runtime_version")
  let provider_id ← token (get row "provider_id")
  let model_id ← optional token (get row "model_id")
  let model_revision ← optional (boundedText 240) (get row "model_revision")
  let protocol_schema ← positiveInteger (get row "protocol_schema")
  let manifest_sha256 ← ensure (fun s => isHex 64 s = true) (← fetch (text? (get row "manifest_sha256")) invalid) invalid
  let operation ← fetch ((text? (get row "operation")).bind TaskOperation.ofText) invalid
  let provider_kind ← fetch ((text? (get row "provider_kind")).bind ProviderKind.ofText) invalid
  let execution ← fetch (text? (get row "execution")) invalid
  let valid_model ← ensure (fun _ => model_id.isNone = model_revision.isNone) () invalid
  let a : AiOperationAuthorization fl := {
    schema_version, runtime_id, runtime_version, protocol_schema, manifest_sha256, operation, provider_id, provider_kind
    model_id, model_revision
    valid_model := valid_model.2 }
  require (data_egress = a.dataEgress) invalid
  require (execution = a.execution) invalid
  let _ ← validatedLimits operation (get row "limits")
  return a

/-- `parse_operation_authorization` -/
def parseOperationAuthorization (value : Value F) : Except AuthorizationErr (Option (AiOperationAuthorization fl)) :=
  match value with
  | .null => .ok none
  | _ => do
    let row ← exactMapping value authorizationKeys
    let items ← fetch (array? (get row "data_egress")) .ai_authorization_invalid
    let data_egress ← each (fun v => fetch (text? v) .ai_authorization_invalid) items
    require data_egress.Nodup .ai_authorization_invalid
    return some (← AiOperationAuthorization.make fl row data_egress)

/-! ## what is written is parsed -/

variable {fl}

theorem token_str (t : Token) : token (F := F) (.str t.1) = .ok t := by
  simp only [token, bind_eq_ok, fetch_eq_ok, ensure_eq_ok]
  exact ⟨t.1, rfl, rfl⟩

theorem boundedText_str {n : Nat} (t : Bounded n) : boundedText (F := F) n (.str t.1) = .ok t := by
  simp only [boundedText, bind_eq_ok, fetch_eq_ok, ensure_eq_ok, pure_eq_ok]
  exact ⟨t.1, rfl, ⟨t.1, t.2.1⟩, rfl, Subtype.ext t.2.2⟩

theorem optional_ofOption {p : Text → Prop} {check : Value F → Except AuthorizationErr {s // p s}}
    (h : ∀ t, check (.str t.1) = .ok t) (o : Option {s // p s}) :
    optional check (ofOption (o.map Subtype.val)) = .ok o := by
  cases o with
  | none => rfl
  | some t =>
    show (check (.str t.1)).map some = _
    rw [h]
    rfl

theorem positiveInteger_int (i : {i : Int // 0 < i}) : positiveInteger (F := F) (.int i.1) = .ok i := by
  simp only [positiveInteger, bind_eq_ok, fetch_eq_ok, ensure_eq_ok]
  exact ⟨i.1, rfl, rfl⟩

theorem exactMapping_obj {ms : List (Text × Value F)} {names : List String} (h : HasKeys ms names names) :
    exactMapping (.obj ms) names = .ok ms := by
  show (require (HasKeys ms names names) AuthorizationErr.ai_authorization_invalid >>= fun _ => pure ms) = _
  rw [require_pos h]
  rfl

theorem validatedLimits_limitsValue (o : TaskOperation) : ∃ l, validatedLimits (F := F) o (limitsValue o) = .ok l := by
  have hnames : ((coreOperationLimits o).map (fun l => (l.1, Value.int (F := F) l.2))).map Prod.fst =
      (coreOperationLimits o).map Prod.fst := List.map_map
  have hrow : exactMapping (F := F) (limitsValue o) ((coreOperationLimits o).map Prod.fst) =
      .ok (record ((coreOperationLimits o).map (fun l => (l.1, .int l.2)))) :=
    exactMapping_obj ((hasKeys_record _ hnames).mpr ⟨fun _ h => h, fun _ h => h⟩)
  unfold validatedLimits
  rw [hrow, ok_bind]
  refine each_total (fun l hl => ⟨l.2, ?_⟩)
  have hget : get (record ((coreOperationLimits o).map (fun l => (l.1, Value.int (F := F) l.2)))) l.1 = .int l.2 ∧
      0 < l.2 := by
    rw [get_record]
    cases o <;> simp only [coreOperationLimits, List.mem_cons, List.not_mem_nil, or_false] at hl <;>
      rcases hl with rfl | rfl | rfl <;> exact ⟨rfl, by decide⟩
  rw [hget.1, positiveInteger_int ⟨l.2, hget.2⟩, ok_bind, require_pos rfl]
  rfl

theorem make_items (a : AiOperationAuthorization fl) :
    AiOperationAuthorization.make fl (record a.items) a.dataEgress = .ok a := by
  obtain ⟨l, hl⟩ := validatedLimits_limitsValue (F := F) a.operation
  simp only [AiOperationAuthorization.make, bind_eq_ok, ensure_eq_ok, fetch_eq_ok, require_eq_ok, pure_eq_ok, get_record]
  refine ⟨a.schema_version, rfl, a.runtime_id, token_str _, a.runtime_version, token_str _, a.provider_id, token_str _,
    a.model_id, optional_ofOption token_str _, a.model_revision, optional_ofOption boundedText_str _,
    a.protocol_schema, positiveInteger_int _, _, rfl, a.manifest_sha256, rfl, a.operation, ?_, a.provider_kind, ?_,
    a.execution, rfl, ⟨(), a.valid_model⟩, trivial, ⟨⟩, rfl, ⟨⟩, rfl, l, hl, rfl⟩
  · exact TaskOperation.ofText_name _
  · exact ProviderKind.ofText_name _

theorem items_names (a : AiOperationAuthorization fl) : a.items.map Prod.fst =
    ["data_egress", "execution", "limits", "manifest_sha256", "model_id", "model_revision", "operation",
      "protocol_schema", "provider_id", "provider_kind", "runtime_id", "runtime_version", "schema_version"] := rfl

theorem dataEgress_nodup (a : AiOperationAuthorization fl) : a.dataEgress.Nodup := by
  unfold AiOperationAuthorization.dataEgress
  cases a.provider_kind <;> cases a.operation <;> decide

/-- **An authorization is parsed back.** -/
theorem parse_toDict (a : AiOperationAuthorization fl) : parseOperationAuthorization fl a.toDict = .ok (some a) := by
  have htexts : each (fun v => fetch (text? v) AuthorizationErr.ai_authorization_invalid)
      (a.dataEgress.map (Value.str (F := F))) = .ok a.dataEgress := by
    induction a.dataEgress with
    | nil => rfl
    | cons t ts ih => exact each_cons_eq_ok.mpr ⟨t, ts, rfl, ih, rfl⟩
  have hrow : exactMapping (.obj (record a.items)) authorizationKeys = .ok (record a.items) :=
    exactMapping_obj ((hasKeys_record _ (items_names a)).mpr (by decide))
  have hitems : get (record a.items) "data_egress" = .arr (a.dataEgress.map .str) := get_record _ _
  show (do
    let row ← exactMapping (.obj (record a.items)) authorizationKeys
    let items ← fetch (array? (get row "data_egress")) .ai_authorization_invalid
    let data_egress ← each (fun v => fetch (text? v) .ai_authorization_invalid) items
    require data_egress.Nodup .ai_authorization_invalid
    return some (← AiOperationAuthorization.make fl row data_egress)) = _
  rw [hrow, ok_bind, hitems]
  show (each _ (a.dataEgress.map Value.str) >>= _) = _
  rw [htexts, ok_bind, require_pos (dataEgress_nodup a), ok_bind, make_items]
  rfl

/-- what an authorization is written as is canonical -/
theorem canonical_toDict (a : AiOperationAuthorization fl) : Canonical a.toDict := by
  have hoption : ∀ o : Option Text, Canonical (F := F) (ofOption o) := by
    intro o
    cases o with
    | none => exact .null
    | some s => exact .str s
  have hlimits : Canonical (F := F) (limitsValue a.operation) := by
    have hvalues : ∀ m ∈ (coreOperationLimits a.operation).map (fun l => (l.1, Value.int (F := F) l.2)), Canonical m.2 := by
      intro m hm
      obtain ⟨l, -, rfl⟩ := List.mem_map.mp hm
      exact .int _
    refine canonical_record ((coreOperationLimits a.operation).map Prod.fst) List.map_map ?_ hvalues
    cases a.operation <;> decide
  have hschema : Canonical a.schema_version.1 := by
    obtain ⟨v, hv⟩ := a.schema_version
    cases v with
    | null => exact .null
    | bool b => exact .bool b
    | int i => exact .int i
    | float f => exact .float f
    | str s => exact .str s
    | arr vs => cases hv
    | obj ms => cases hv
  refine canonical_record _ (items_names a) (by decide) ?_
  unfold AiOperationAuthorization.items
  simp only [List.forall_mem_cons]
  refine ⟨.arr (fun v hv => ?_), .str _, hlimits, .str _, hoption _, hoption _, .str _, .int _, .str _, .str _, .str _,
    .str _, hschema, fun m hm => nomatch hm⟩
  obtain ⟨t, -, rfl⟩ := List.mem_map.mp hv
  exact .str t

end

end OpenFlame.Editing
