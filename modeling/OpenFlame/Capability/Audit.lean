import OpenFlame.Capability.Governance

/-!
# The ledger is read

`snapshot`    the current decisions and the newest evidence, with the evidence of every decision that is shown
`readiness`   what `Database.readiness` finds wrong with the ledger, digests recomputed
-/

set_option linter.all false

namespace OpenFlame.Capability
open Guard Text Json Editing

/-! ## `snapshot` -/

/-- `ORDER BY time DESC, id DESC`: `(t, i)` does not come after `(t', i')` -/
def newest (t i t' i' : Text) : Bool := before t' t || (t == t' && !before i i')

structure Snapshot where
  evidence : List EvidenceRow
  decisions : List DecisionRow
  evidence_total : Nat
  decision_total : Nat
  evidence_truncated : Bool
  decision_truncated : Bool
  deriving DecidableEq, Repr

def byImport (a b : EvidenceRow) : Bool := newest a.imported_at a.evidence_id b.imported_at b.evidence_id

def byDecision (a b : DecisionRow) : Bool := newest a.decided_at a.decision_id b.decided_at b.decision_id

/-- the evidence shown with some decisions: the newest, and what the decisions name -/
def Ledger.evidenceFor (l : Ledger) (decision_rows : List DecisionRow) (limit : Nat) : List EvidenceRow :=
  let evidence_rows := (l.evidence.rows.mergeSort byImport).take limit
  let included_ids := evidence_rows.map (·.evidence_id)
  let referenced_ids := (decision_rows.map (·.evidence_id)).filter (fun id => !included_ids.contains id)
  evidence_rows ++ l.evidence.filter (fun e => referenced_ids.contains e.evidence_id)

/-- `limit`, a number from 1 to 500 -/
def checkedLimit : Numeral → Except Fault Nat
  | .bool _ => .error (.governance "invalid_limit" 2)
  | .int i => do
    require (1 ≤ i ∧ i ≤ 500) (.governance "invalid_limit" 2)
    return i.toNat

/-- `snapshot` -/
def snapshot (limit : Numeral) (l : Ledger) : Except Fault Snapshot := do
  let limit ← checkedLimit limit
  let evidence_total := l.evidence.rows.length
  let decision_total := l.view.length
  let decision_rows := (l.view.mergeSort byDecision).take limit
  let evidence_rows := (l.evidenceFor decision_rows limit).mergeSort byImport
  return ⟨evidence_rows, decision_rows, evidence_total, decision_total, decide (evidence_rows.length < evidence_total),
    decide (decision_rows.length < decision_total)⟩

/-! ## `readiness` -/

section
variable {F : Type} (p : Product F)

/-- the payload that a row of evidence stands for -/
def publicPayload (e : EvidenceRow) (positive_rates negative_rates : List (Value F)) : Payload F where
  toIdentity := e.toIdentity
  identity_key := e.identity_key
  evidence_kind := e.evidence_kind
  policy_version := e.policy_version
  bundle_sha256 := e.bundle_sha256
  positive_sample_count := e.positive_sample_count
  negative_sample_count := e.negative_sample_count
  complete_run_count := e.complete_run_count
  positive_rates := positive_rates
  negative_rates := negative_rates
  verdict := e.verdict
  evaluated_at := e.evaluated_at

/-- `json.loads` of a column that holds a list -/
def ratesOf (s : Text) : Except String (List (Value F)) :=
  match loads p.floats s with
  | some (.arr vs) => .ok vs
  | _ => .error "invalid_capability_state:evidence_payload"

def auditEvidence (e : EvidenceRow) : Except String Unit := do
  require (e.policy_version = STAGE0_POLICY_VERSION) "invalid_capability_state:evidence_policy"
  require (knownImplementation p e.toRoute = true) "invalid_capability_state:unknown_evidence_route"
  require (capabilityIdentityKey p e.toIdentity = e.identity_key) "invalid_capability_state:evidence_identity_key"
  let positive_rates ← ratesOf p e.positive_rates_json
  let negative_rates ← ratesOf p e.negative_rates_json
  require (evidenceSha256FromPayload p (publicPayload e positive_rates negative_rates) = e.evidence_sha256)
    "invalid_capability_state:evidence_digest"

def auditDecision (d : DecisionRow) : Except String Unit := do
  require (knownImplementation p d.toRoute = true) "invalid_capability_state:unknown_decision_route"
  require (capabilityIdentityKey p d.toIdentity = d.identity_key) "invalid_capability_state:decision_identity_key"

/-- the row that a decision supersedes -/
def Ledger.previous (l : Ledger) (d : DecisionRow) : Option DecisionRow :=
  d.supersedes_decision_id.bind (fun id => l.decisions.get id)

/-- `verified_without_evidence` -/
def Ledger.verifiedWithoutEvidence (l : Ledger) : Bool :=
  l.decisions.any (fun d => d.status == .verified && !l.evidence.any d.provedBy)

/-- `invalid_revision` -/
def Ledger.invalidRevision (l : Ledger) : Bool :=
  l.decisions.any (fun d =>
    (d.supersedes_decision_id.isNone && d.revision != 1) ||
    (d.supersedes_decision_id.isSome &&
      match l.previous d with
      | none => true
      | some previous => d.revision != previous.revision + 1 || previous.identity_key != d.identity_key ||
          previous.toIdentity != d.toIdentity))

/-- `invalid_transition` -/
def Ledger.invalidTransition (l : Ledger) : Bool :=
  l.decisions.any (fun d => d.action == .revoke &&
    match l.previous d with
    | none => true
    | some previous => previous.status != .verified || previous.evidence_id != d.evidence_id ||
        previous.identity_key != d.identity_key)

/-- `expected` -/
def Ledger.expected (l : Ledger) : List DecisionRow :=
  l.decisions.filter (fun d => !l.decisions.any (fun s => s.supersedes_decision_id == some d.decision_id))

/-- `projection_mismatch` -/
def Ledger.projectionMismatch (l : Ledger) : Bool :=
  l.view.any (fun d => !l.expected.contains d) || l.expected.any (fun d => !l.view.contains d)

/-- the part of `Database.readiness` that audits the ledger -/
def readiness (l : Ledger) : Except String Unit := do
  let _ ← each (auditEvidence p) (l.evidence.rows.mergeSort (fun a b => !before b.evidence_id a.evidence_id))
  let _ ← each (auditDecision p) (l.decisions.rows.mergeSort (fun a b => !before b.decision_id a.decision_id))
  require (l.verifiedWithoutEvidence = false) "invalid_capability_state:verified_without_evidence"
  require (l.invalidRevision = false) "invalid_capability_state:revision_chain"
  require (l.invalidTransition = false) "invalid_capability_state:invalid_transition"
  require (l.projectionMismatch = false) "invalid_capability_state:current_projection"

end
end OpenFlame.Capability
