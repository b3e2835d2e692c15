import OpenFlame.Base.Process
import OpenFlame.Capability.Evidence

/-!
# Evidence is imported, approved and revoked

`importCsvBundle`     what was evaluated of a bundle goes into the ledger as evidence
`approve`, `revoke`   a decision that follows the current one of its identity (`decideOn`)
`ledgerMachine`       the calls as transactions: one that raises leaves the ledger as it was

What a call sees of the build, the clock and `uuid4` comes with its `Moment`; the parsers and the evaluation of a bundle
come with `Stage0`.
-/

set_option linter.all false

namespace OpenFlame.Capability
open Guard Text Json Editing

inductive Fault where
  /-- `CapabilityGovernanceError` -/
  | governance (error_code : String) (exit_code : Nat)
  /-- `ValidationManifestError` -/
  | manifest (message : Text)
  deriving DecidableEq, Repr

/-- `ProductBuildIdentityError` -/
inductive BuildFault where
  | drift | unavailable
  deriving DecidableEq, Repr

/-- what a call meets -/
structure Moment where
  /-- `current_product_identity()` when the call asks for it first -/
  before : Except BuildFault Text
  /-- and when it asks again before it commits -/
  after : Except BuildFault Text
  uuid : Nat → Text
  now : Text

/-- `_required_current_product_identity` -/
def requiredCurrentProductIdentity : Except BuildFault Text → Except Fault Text
  | .ok identity => .ok identity
  | .error .drift => .error (.governance "product_build_drift" 6)
  | .error .unavailable => .error (.governance "product_build_unavailable" 6)

/-! ## evidence -/

/-- one cell of an evaluation -/
structure CapabilityEvidence (F : Type) extends Identity where
  positive_samples : Nat
  negative_samples : Nat
  complete_runs : Nat
  last_three_positive_rates : List F
  last_three_negative_rates : List F
  status : CapabilityStatus

/-- the parsers and the evaluation of a bundle -/
structure Stage0 (F : Type) where
  {Sample Result : Type}
  environment : Result → Text
  product_version : Result → Text
  parse_validation_manifest : ByteArray → Except Fault (List Sample)
  parse_validation_results : ByteArray → Except Fault (List Result)
  evaluate_capabilities : List Sample → List Result → Except Fault (List (CapabilityEvidence F))
  /-- `_canonical_private_bundle` -/
  canonical_private_bundle : List Sample → List Result → Value F
  /-- `_evaluated_at` -/
  evaluated_at : CapabilityEvidence F → List Sample → List Result → Except Fault Text

structure EvidenceImportResult where
  created_count : Nat
  evidence_ids : List Text
  deriving DecidableEq, Repr

/-- a payload with its digest, and the digests of the bundle that it comes from -/
structure EvidenceRecord (F : Type) extends Payload F where
  manifest_sha256 : Text
  results_sha256 : Text
  evidence_sha256 : Text

section
variable {F : Type} (p : Product F)

/-- `_evidence_payload` -/
def evidencePayload (item : CapabilityEvidence F) (bundle_sha256 evaluated_at : Text) : Payload F where
  toIdentity := item.toIdentity
  identity_key := capabilityIdentityKey p item.toIdentity
  evidence_kind := EVIDENCE_KIND
  policy_version := STAGE0_POLICY_VERSION
  bundle_sha256 := bundle_sha256
  positive_sample_count := item.positive_samples
  negative_sample_count := item.negative_samples
  complete_run_count := item.complete_runs
  positive_rates := item.last_three_positive_rates.map .float
  negative_rates := item.last_three_negative_rates.map .float
  verdict := item.status
  evaluated_at := evaluated_at

def evidenceRecord (item : CapabilityEvidence F) (manifest_sha256 results_sha256 bundle_sha256 evaluated_at : Text) :
    EvidenceRecord F where
  toPayload := evidencePayload p item bundle_sha256 evaluated_at
  manifest_sha256 := manifest_sha256
  results_sha256 := results_sha256
  evidence_sha256 := evidenceSha256FromPayload p (evidencePayload p item bundle_sha256 evaluated_at)

def EvidenceRecord.row (r : EvidenceRecord F) (evidence_id imported_at : Text) : EvidenceRow where
  toIdentity := r.toIdentity
  evidence_id := evidence_id
  identity_key := r.identity_key
  evidence_kind := r.evidence_kind
  policy_version := r.policy_version
  manifest_sha256 := r.manifest_sha256
  results_sha256 := r.results_sha256
  bundle_sha256 := r.bundle_sha256
  evidence_sha256 := r.evidence_sha256
  positive_sample_count := r.positive_sample_count
  negative_sample_count := r.negative_sample_count
  complete_run_count := r.complete_run_count
  positive_rates_json := dumps p.floats (.arr r.positive_rates)
  negative_rates_json := dumps p.floats (.arr r.negative_rates)
  verdict := r.verdict
  evaluated_at := r.evaluated_at
  imported_at := imported_at

/-- the records of a bundle, for the product it was tried with -/
def bundleRecords (stage0 : Stage0 F) (manifest_content results_content : ByteArray) (environment : Text)
    (before : Except BuildFault Text) : Except Fault (Text × List (EvidenceRecord F)) := do
  let samples ← stage0.parse_validation_manifest manifest_content
  let results ← stage0.parse_validation_results results_content
  require (results ≠ []) (.governance "validation_results_empty" 2)
  require (results.all (fun item => stage0.environment item == environment) = true) (.governance "environment_mismatch" 3)
  let product_identity ← requiredCurrentProductIdentity before
  require (results.all (fun item => stage0.product_version item == product_identity) = true)
    (.governance "product_version_mismatch" 3)
  let evaluated ← stage0.evaluate_capabilities samples results
  require (evaluated ≠ []) (.governance "evidence_bundle_empty" 3)
  let bundle_sha256 := p.sha256 (dumps p.floats (stage0.canonical_private_bundle samples results))
  let records ← each (fun item => do
    require (item.adapter ≠ "unexecuted".toList) (.governance "evidence_cell_unexecuted" 3)
    require (registeredImplementation p item.toRoute = true) (.governance "implementation_not_registered" 3)
    let evaluated_at ← stage0.evaluated_at item samples results
    return evidenceRecord p item (p.sha256_bytes manifest_content) (p.sha256_bytes results_content) bundle_sha256
      evaluated_at) evaluated
  return (product_identity, records)

/-- an import under way -/
structure Importing where
  ledger : Ledger
  created : Nat
  evidence_ids : List Text

/-- one record: it is there already, or becomes a row -/
def importRecord (m : Moment) (s : Importing) (r : EvidenceRecord F) : Except Fault Importing :=
  match s.ledger.evidence.find (fun e => e.evidence_sha256 == r.evidence_sha256) with
  | some existing => .ok { s with evidence_ids := s.evidence_ids ++ [existing.evidence_id] }
  | none => do
    let row := r.row p (m.uuid s.created) m.now
    let ledger ← (insertEvidence p row s.ledger).mapError (fun _ => Fault.governance "evidence_integrity_conflict" 6)
    return ⟨ledger, s.created + 1, s.evidence_ids ++ [row.evidence_id]⟩

/-- `import_csv_bundle` -/
def importCsvBundle (stage0 : Stage0 F) (manifest_content results_content : ByteArray) (environment : Text) (m : Moment)
    (l : Ledger) : Except Fault (EvidenceImportResult × Ledger) := do
  let (product_identity, records) ← bundleRecords p stage0 manifest_content results_content environment m.before
  let s ← thread (importRecord p m) ⟨l, 0, []⟩
    (records.mergeSort (fun a b => !before b.evidence_sha256 a.evidence_sha256))
  let again ← requiredCurrentProductIdentity m.after
  require (again = product_identity) (.governance "product_build_drift" 6)
  return (⟨s.created, s.evidence_ids.mergeSort (fun a b => !before b a)⟩, s.ledger)

end

/-! ## decisions -/

structure DecisionResult where
  decision_id : Text
  identity_key : Text
  evidence_id : Text
  action : Action
  status : CapabilityStatus
  revision : Nat
  reason_code : Text
  decided_at : Text
  created : Bool
  deriving DecidableEq, Repr

/-- `_decision_from_row` -/
def decisionFromRow (d : DecisionRow) (created : Bool) : DecisionResult :=
  ⟨d.decision_id, d.identity_key, d.evidence_id, d.action, d.status, d.revision, d.reason_code, d.decided_at, created⟩

/-- an argument that should be a number: a number or a `bool` -/
inductive Numeral where
  | int (i : Int)
  | bool (b : Bool)
  deriving DecidableEq, Repr

/-- `_canonical_uuid`: lower-case digits in groups of 8, 4, 4, 4 and 12 -/
def isCanonicalUuid (s : Text) : Bool :=
  s.length == 36 && [8, 13, 18, 23].all (fun i => s[i]? == some '-') && isHex 32 (s.filter (· != '-'))

/-- `_REASON_CODE` -/
def isReasonCode (s : Text) : Bool :=
  match s with
  | [] => false
  | c :: t => 'a' ≤ c && c ≤ 'z' && t.all (fun d => ('a' ≤ d && d ≤ 'z') || d.isDigit || d == '-') && decide (t.length ≤ 63)

def Action.reasons : Action → List String
  | .approve => ["stage0-reviewed", "replacement-reviewed"]
  | .revoke => ["regression", "superseded", "operator-withdrawn"]

/-- `_validate_reason` -/
def validateReason (raw : Text) (action : Action) : Except Fault Text := do
  require (isReasonCode raw = true ∧ raw ∈ action.reasons.map String.toList) (.governance "invalid_reason_code" 2)
  return raw

/-- the current decision of an identity -/
def Ledger.head (l : Ledger) (identity_key : Text) : Option DecisionRow :=
  l.view.find? (fun d => d.identity_key == identity_key)

/-- the head, if it approves this evidence -/
def approved (head : Option DecisionRow) (evidence_id : Text) : Option DecisionRow :=
  head.filter (fun d => d.status == .verified && d.evidence_id == evidence_id)

/-- whether an action may follow the head; the head itself where there is nothing to do -/
def ruling (action : Action) (e : EvidenceRow) (head : Option DecisionRow) (l : Ledger) :
    Except Fault (Option DecisionRow) :=
  match action with
  | .approve => do
    require (e.verdict = .verified) (.governance "evidence_not_qualified" 3)
    match approved head e.evidence_id with
    | some d => return some d
    | none => do
      require (l.decisions.any (fun d => d.evidence_id == e.evidence_id) = false)
        (.governance "evidence_replay_not_allowed" 3)
      return none
  | .revoke => do
    require ((approved head e.evidence_id).isSome = true) (.governance "invalid_decision_transition" 3)
    return none

def newDecision (action : Action) (e : EvidenceRow) (head : Option DecisionRow) (reason_code : Text) (m : Moment) :
    DecisionRow where
  toIdentity := e.toIdentity
  decision_id := m.uuid 0
  identity_key := e.identity_key
  evidence_id := e.evidence_id
  action := action
  status := if action = .approve then .verified else .candidate
  supersedes_decision_id := head.map (·.decision_id)
  revision := (head.map (·.revision)).getD 0 + 1
  reason_code := reason_code
  decided_at := m.now

/-- what becomes of an `IntegrityError` -/
def decisionConflict : Integrity → Fault
  | .unique => .governance "decision_revision_mismatch" 5
  | _ => .governance "decision_integrity_conflict" 6

section
variable {F : Type} (p : Product F)

/-- an approval is for the product that runs -/
def approvalIdentity (action : Action) (e : EvidenceRow) (m : Moment) : Except Fault (Option Text) :=
  match action with
  | .approve => do
    let identity ← requiredCurrentProductIdentity m.before
    require (e.product_version = identity) (.governance "product_version_mismatch" 3)
    return some identity
  | .revoke => .ok none

/-- the product that runs is still the one -/
def stillCurrent (approval : Option Text) (m : Moment) : Except Fault Unit :=
  match approval with
  | some identity => do
    let again ← requiredCurrentProductIdentity m.after
    require (again = identity) (.governance "product_build_drift" 6)
  | none => .ok ()

def implementationCheck (action : Action) (r : Route) : Bool :=
  match action with
  | .approve => registeredImplementation p r
  | .revoke => knownImplementation p r

/-- `expected_revision` as a number that is not negative -/
def Numeral.number : Numeral → Except Fault Int
  | .bool _ => .error (.governance "invalid_expected_revision" 2)
  | .int i => do
    require (0 ≤ i) (.governance "invalid_expected_revision" 2)
    return i

/-- `_decide` -/
def decideOn (action : Action) (evidence_id : Text) (expected_revision : Numeral) (reason_code : Text) (m : Moment)
    (l : Ledger) : Except Fault (DecisionResult × Ledger) := do
  let expected ← expected_revision.number
  let evidence ← fetch (l.evidence.get evidence_id) (.governance "evidence_not_found" 4)
  let approval ← approvalIdentity action evidence m
  require (implementationCheck p action evidence.toRoute = true) (.governance "implementation_not_registered" 3)
  let head := l.head evidence.identity_key
  require (((head.map (·.revision)).getD 0 : Nat) = expected) (.governance "decision_revision_mismatch" 5)
  match ← ruling action evidence head l with
  | some d => return (decisionFromRow d false, l)
  | none => do
    let row := newDecision action evidence head reason_code m
    let l' ← (insertDecision row l).mapError decisionConflict
    let stored ← fetch (l'.view.find? (fun d => d.decision_id == row.decision_id))
      (.governance "decision_projection_unavailable" 6)
    stillCurrent approval m
    return (decisionFromRow stored true, l')

/-- the arguments of `approve` and `revoke` are checked, then it is decided -/
def decideRaw (action : Action) (evidence_id : Text) (expected_revision : Numeral) (reason_code : Text)
    (m : Moment) (l : Ledger) : Except Fault (DecisionResult × Ledger) := do
  require (isCanonicalUuid evidence_id = true) (.governance "invalid_evidence_id" 2)
  let reason ← validateReason reason_code action
  decideOn p action evidence_id expected_revision reason m l

def approve (evidence_id : Text) (expected_revision : Numeral) (reason_code : Text) :
    Moment → Ledger → Except Fault (DecisionResult × Ledger) := decideRaw p .approve evidence_id expected_revision reason_code

def revoke (evidence_id : Text) (expected_revision : Numeral) (reason_code : Text) :
    Moment → Ledger → Except Fault (DecisionResult × Ledger) := decideRaw p .revoke evidence_id expected_revision reason_code

end

/-! ## the calls as transactions -/

/-- a call of `approve` or `revoke` -/
structure DecisionCall where
  action : Action
  evidence_id : Text
  expected_revision : Numeral
  reason_code : Text
  deriving DecidableEq, Repr

inductive LedgerOp : Type → Type where
  | importCsvBundle (manifest_content results_content : ByteArray) (environment : Text) : LedgerOp EvidenceImportResult
  | decision (c : DecisionCall) : LedgerOp DecisionResult

/-- a call, with what it meets -/
structure Call where
  {β : Type}
  op : LedgerOp β
  moment : Moment

section
variable {F : Type} (p : Product F) (stage0 : Stage0 F)

def DecisionCall.run (c : DecisionCall) : Moment → Ledger → Except Fault (DecisionResult × Ledger) :=
  match c.action with
  | .approve => approve p c.evidence_id c.expected_revision c.reason_code
  | .revoke => revoke p c.evidence_id c.expected_revision c.reason_code

def execLedger {β : Type} : LedgerOp β → Moment → Ledger → Except Fault (β × Ledger)
  | .importCsvBundle manifest results environment => importCsvBundle p stage0 manifest results environment
  | .decision c => c.run p

def ledgerMachine : Machine LedgerOp Moment Ledger Fault := ⟨execLedger p stage0⟩

/-- a call commits or raises -/
inductive LedgerStep : Ledger → Call → Ledger → Prop where
  | call (l : Ledger) (c : Call) : LedgerStep l c ((ledgerMachine p stage0).next c.op c.moment l)

abbrev LedgerReach : Ledger → Prop := TransSys.Reach (· = Ledger.empty) (LedgerStep p stage0)

end
end OpenFlame.Capability
