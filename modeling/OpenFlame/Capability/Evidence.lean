import Mathlib.Algebra.Ring.Nat
import Mathlib.Algebra.Order.Ring.Rat
import OpenFlame.Base.Table
import OpenFlame.Editing.Authorization

/-!
# Evidence and decisions about capabilities

An identity is a route of an adapter together with the versions and the environment it was tried in.  What was seen of it
is a row of `capability_evidence`; that it may be used is decided in the rows of `capability_decisions`.

`Payload`            what the digest of a piece of evidence is taken of
`insertEvidence`     `INSERT INTO capability_evidence`: triggers, checks and keys of the table
`insertDecision`     `INSERT INTO capability_decisions`
`Ledger.view`        `platform_capabilities`

* `insertEvidence_ok`, `insertDecision_ok`   what is known of a row that went in.
-/

set_option linter.all false

namespace OpenFlame.Capability
open Guard Text Json Editing

/-! ## identities -/

inductive CapabilityStatus where
  | disabled | candidate | verified
  deriving DecidableEq, Repr

def CapabilityStatus.value : CapabilityStatus → Text
  | .disabled => "disabled".toList
  | .candidate => "candidate".toList
  | .verified => "verified".toList

/-- a route of an adapter -/
structure Route where
  platform : Text
  source_type : Text
  job_kind : Text
  adapter : Text
  deriving DecidableEq, Repr

structure Identity extends Route where
  downloader_version : Text
  environment : Text
  product_version : Text
  deriving DecidableEq, Repr

structure DownloadCapability where
  route : Route
  status : CapabilityStatus
  deriving DecidableEq, Repr

/-- what the product computes with -/
structure Product (F : Type) where
  floats : Floats F
  /-- `sha256(text.encode()).hexdigest()` -/
  sha256 : Text → Text
  /-- `sha256(content).hexdigest()` -/
  sha256_bytes : ByteArray → Text
  /-- `DEFAULT_DOWNLOAD_CAPABILITIES.list()` -/
  capabilities : List DownloadCapability
  /-- the elements of a text that `json_valid` takes for an array, those with a number -/
  json_each : Text → Option (List (Option ℚ))

def STAGE0_POLICY_VERSION : Text := "stage0-v3".toList
def EVIDENCE_KIND : Text := "stage0_csv_v3".toList

section
variable {F : Type} (p : Product F)

/-- `_registered_implementation` -/
def registeredImplementation (r : Route) : Bool :=
  p.capabilities.any (fun item => item.route == r && item.status != .disabled)

/-- `_known_implementation` -/
def knownImplementation (r : Route) : Bool := p.capabilities.any (fun item => item.route == r)

/-- `capability_identity_key` -/
def capabilityIdentityKey (i : Identity) : Text :=
  p.sha256 (dumps p.floats (.obj (record [
    ("adapter", .str i.adapter), ("downloader_version", .str i.downloader_version), ("environment", .str i.environment),
    ("job_kind", .str i.job_kind), ("platform", .str i.platform), ("product_version", .str i.product_version),
    ("source_type", .str i.source_type)])))

/-- `_evidence_payload` -/
structure Payload (F : Type) extends Identity where
  identity_key : Text
  evidence_kind : Text
  policy_version : Text
  bundle_sha256 : Text
  positive_sample_count : Nat
  negative_sample_count : Nat
  complete_run_count : Nat
  positive_rates : List (Value F)
  negative_rates : List (Value F)
  verdict : CapabilityStatus
  evaluated_at : Text

/-- the payload as a value, its members in the order of their names -/
def Payload.toValue (a : Payload F) : Value F :=
  .obj (record [
    ("adapter", .str a.adapter), ("bundle_sha256", .str a.bundle_sha256),
    ("complete_run_count", .int a.complete_run_count), ("downloader_version", .str a.downloader_version),
    ("environment", .str a.environment), ("evaluated_at", .str a.evaluated_at), ("evidence_kind", .str a.evidence_kind),
    ("identity_key", .str a.identity_key), ("job_kind", .str a.job_kind), ("negative_rates", .arr a.negative_rates),
    ("negative_sample_count", .int a.negative_sample_count), ("platform", .str a.platform),
    ("policy_version", .str a.policy_version), ("positive_rates", .arr a.positive_rates),
    ("positive_sample_count", .int a.positive_sample_count), ("product_version", .str a.product_version),
    ("source_type", .str a.source_type), ("verdict", .str a.verdict.value)])

/-- `evidence_sha256_from_payload` -/
def evidenceSha256FromPayload (a : Payload F) : Text := p.sha256 (dumps p.floats a.toValue)

end

/-! ## rows -/

/-- a row of `capability_evidence` -/
structure EvidenceRow extends Identity where
  evidence_id : Text
  identity_key : Text
  evidence_kind : Text
  policy_version : Text
  manifest_sha256 : Text
  results_sha256 : Text
  bundle_sha256 : Text
  evidence_sha256 : Text
  positive_sample_count : Nat
  negative_sample_count : Nat
  complete_run_count : Nat
  positive_rates_json : Text
  negative_rates_json : Text
  verdict : CapabilityStatus
  evaluated_at : Text
  imported_at : Text
  deriving DecidableEq, Repr

inductive Action where
  | approve | revoke
  deriving DecidableEq, Repr

/-- a row of `capability_decisions` -/
structure DecisionRow extends Identity where
  decision_id : Text
  identity_key : Text
  evidence_id : Text
  action : Action
  status : CapabilityStatus
  supersedes_decision_id : Option Text
  revision : Nat
  reason_code : Text
  decided_at : Text
  deriving DecidableEq, Repr

/-- the tables of the ledger -/
structure Ledger where
  evidence : Table EvidenceRow (·.evidence_id)
  decisions : Table DecisionRow (·.decision_id)

/-- an empty ledger of Schema 11 -/
def Ledger.empty : Ledger where
  evidence := ∅
  decisions := ∅

/-- `platform_capabilities` -/
def Ledger.view (l : Ledger) : List DecisionRow :=
  l.decisions.filter (fun d => !l.decisions.any (fun s => s.supersedes_decision_id == some d.decision_id))

/-! ## what SQLite checks of a row -/

/-- `length(s)`, which counts up to a NUL -/
def sqlLength (s : Text) : Nat := (s.takeWhile (· != '\x00')).length

/-- `s = trim(s) AND length(s) BETWEEN least AND most` -/
def textColumn (least most : Nat) (s : Text) : Bool :=
  s.head? != some ' ' && s.getLast? != some ' ' && decide (least ≤ sqlLength s) && decide (sqlLength s ≤ most)

/-- `length(s) = 64 AND s NOT GLOB '*[^0-9a-f]*'` -/
def hexColumn (s : Text) : Bool := isHex 64 (s.takeWhile (· != '\x00'))

/-- `lower(s) NOT IN ..` -/
def outside (s : Text) (refused : List String) : Bool := refused.all (fun n => s.map Char.toLower != n.toList)

def Identity.checks (i : Identity) (key : Text) : Bool :=
  hexColumn key && textColumn 1 32 i.platform && textColumn 1 64 i.source_type &&
    ["discover", "download"].any (fun n => i.job_kind == n.toList) && textColumn 1 128 i.adapter &&
    textColumn 1 128 i.downloader_version && outside i.downloader_version ["unknown", "unexecuted", "n/a"] &&
    textColumn 1 128 i.environment && outside i.environment ["unknown", "unexecuted", "n/a"] &&
    textColumn 1 128 i.product_version && outside i.product_version ["unknown", "unexecuted", "n/a", "legacy"]

section
variable {F : Type} (p : Product F)

/-- a column of at most three rates -/
def ratesColumn (s : Text) : Bool :=
  decide (sqlLength s ≤ 4096) && (p.json_each s).any (fun rates => decide (rates.length ≤ 3))

def EvidenceRow.checks (e : EvidenceRow) : Bool :=
  textColumn 1 128 e.evidence_id && e.toIdentity.checks e.identity_key && e.evidence_kind == EVIDENCE_KIND &&
    e.policy_version == STAGE0_POLICY_VERSION && hexColumn e.manifest_sha256 && hexColumn e.results_sha256 &&
    hexColumn e.bundle_sha256 && hexColumn e.evidence_sha256 && ratesColumn p e.positive_rates_json &&
    ratesColumn p e.negative_rates_json && e.verdict != .disabled && textColumn 20 64 e.evaluated_at &&
    textColumn 20 64 e.imported_at &&
    (e.verdict != .verified ||
      (decide (10 ≤ e.positive_sample_count) && decide (1 ≤ e.negative_sample_count) &&
        decide (3 ≤ e.complete_run_count) && (p.json_each e.positive_rates_json).any (fun rates => rates.length == 3) &&
        (p.json_each e.negative_rates_json).any (fun rates => rates.length == 3)))

/-- the double `0.9` -/
def nineTenths : ℚ := 8106479329266893 / 9007199254740992

/-- `trg_capability_evidence_validate_rates` -/
def EvidenceRow.ratesValid (e : EvidenceRow) : Bool :=
  let positive := (p.json_each e.positive_rates_json).getD []
  let negative := (p.json_each e.negative_rates_json).getD []
  (positive ++ negative).all (fun v => v.any (fun q => decide (0 ≤ q) && decide (q ≤ 1))) &&
    (e.verdict != .verified ||
      (positive.all (fun v => v.all (fun q => decide (nineTenths ≤ q))) && negative.all (fun v => v.all (fun q => q == 1))))

end

def DecisionRow.checks (d : DecisionRow) : Bool :=
  textColumn 1 128 d.decision_id && d.toIdentity.checks d.identity_key && textColumn 1 128 d.evidence_id &&
    d.supersedes_decision_id.all (fun s => s != d.decision_id && textColumn 1 128 s) && decide (1 ≤ d.revision) &&
    textColumn 1 128 d.reason_code && textColumn 20 64 d.decided_at &&
    ((d.action == .approve && d.status == .verified) || (d.action == .revoke && d.status == .candidate)) &&
    ((d.supersedes_decision_id.isNone && d.revision == 1) || (d.supersedes_decision_id.isSome && decide (2 ≤ d.revision)))

/-! ## `INSERT` -/

/-- `sqlite3.IntegrityError` -/
inductive Integrity where
  | trigger (message : String) | check | unique | foreign_key
  deriving DecidableEq, Repr

/-- the columns of `idx_capability_decision_identity_revision` -/
def DecisionRow.sameRevision (a b : DecisionRow) : Bool := a.toIdentity == b.toIdentity && a.revision == b.revision

/-- `trg_capability_decisions_no_replace` -/
def DecisionRow.replaces (new existing : DecisionRow) : Bool :=
  existing.decision_id == new.decision_id ||
    (existing.identity_key == new.identity_key && existing.sameRevision new) ||
    (new.supersedes_decision_id.isSome && existing.supersedes_decision_id == new.supersedes_decision_id) ||
    (new.supersedes_decision_id.isNone && existing.supersedes_decision_id.isNone &&
      existing.identity_key == new.identity_key) ||
    (new.action == .approve && existing.action == .approve && existing.evidence_id == new.evidence_id)

/-- the entry that `trg_capability_decisions_validate_revision` looks for -/
def DecisionRow.follows (new previous : DecisionRow) : Bool :=
  some previous.decision_id == new.supersedes_decision_id && previous.identity_key == new.identity_key &&
    previous.toIdentity == new.toIdentity && new.revision == previous.revision + 1

/-- the entry that `trg_capability_decisions_validate_transition` looks for -/
def DecisionRow.withdraws (new previous : DecisionRow) : Bool :=
  some previous.decision_id == new.supersedes_decision_id && previous.identity_key == new.identity_key &&
    previous.status == .verified && previous.evidence_id == new.evidence_id

/-- the evidence that a decision refers to -/
def DecisionRow.refersTo (d : DecisionRow) (e : EvidenceRow) : Bool :=
  e.evidence_id == d.evidence_id && e.identity_key == d.identity_key && e.toIdentity == d.toIdentity

/-- the evidence that `trg_capability_decisions_verified_evidence` looks for -/
def DecisionRow.provedBy (d : DecisionRow) (e : EvidenceRow) : Bool :=
  d.refersTo e && e.evidence_kind == EVIDENCE_KIND && e.policy_version == STAGE0_POLICY_VERSION && e.verdict == .verified

/-- a row that `idx_capability_decision_one_root` or one of its sisters does not let in beside `existing` -/
def DecisionRow.clashes (new existing : DecisionRow) : Bool :=
  (new.supersedes_decision_id.isNone && existing.supersedes_decision_id.isNone &&
      existing.toIdentity == new.toIdentity) ||
    (new.supersedes_decision_id.isSome && existing.supersedes_decision_id == new.supersedes_decision_id) ||
    existing.sameRevision new ||
    (new.action == .approve && existing.action == .approve && existing.evidence_id == new.evidence_id)

section
variable {F : Type} (p : Product F)

/-- `INSERT INTO capability_evidence` -/
def insertEvidence (e : EvidenceRow) (l : Ledger) : Except Integrity Ledger := do
  require (∀ x ∈ l.evidence.rows, x.evidence_id ≠ e.evidence_id ∧ x.evidence_sha256 ≠ e.evidence_sha256)
    (.trigger "capability_evidence is append-only")
  require (e.ratesValid p = true) (.trigger "capability evidence rates are invalid")
  require (e.checks p = true) .check
  let evidence ← fetch (l.evidence.insert e) .unique
  return { l with evidence }

end

/-- `INSERT INTO capability_decisions` -/
def insertDecision (d : DecisionRow) (l : Ledger) : Except Integrity Ledger := do
  require (l.decisions.any d.replaces = false) (.trigger "capability_decisions is append-only")
  require (d.supersedes_decision_id.isSome = true → l.decisions.any d.follows = true)
    (.trigger "capability decision revision conflict")
  require (d.action = .revoke → l.decisions.any d.withdraws = true) (.trigger "capability decision transition is invalid")
  require (d.action = .approve → l.evidence.any d.provedBy = true)
    (.trigger "approved capability requires matching verified Stage 0 v3 evidence")
  require (d.checks = true) .check
  require (l.decisions.any d.clashes = false) .unique
  let decisions ← fetch (l.decisions.insert d) .unique
  require (l.evidence.any d.refersTo = true) .foreign_key
  return { l with decisions }

/-! ## what is known of a row that went in -/

section
variable {F : Type} {p : Product F} {l l' : Ledger} {e : EvidenceRow} {d : DecisionRow}

theorem insertEvidence_ok (h : insertEvidence p e l = .ok l') :
    l'.decisions = l.decisions ∧ l'.evidence.rows = l.evidence.rows ++ [e] ∧ e.policy_version = STAGE0_POLICY_VERSION ∧
      e.evidence_kind = EVIDENCE_KIND := by
  simp only [insertEvidence, bind_eq_ok, require_eq_ok, fetch_eq_ok, pure_eq_ok] at h
  obtain ⟨_, -, _, -, _, hchecks, evidence, hinsert, rfl⟩ := h
  unfold EvidenceRow.checks at hchecks
  simp only [Bool.and_eq_true, beq_iff_eq] at hchecks
  exact ⟨rfl, Table.insert_rows hinsert, hchecks.1.1.1.1.1.1.1.1.1.1.2, hchecks.1.1.1.1.1.1.1.1.1.1.1.2⟩

/-- the constraints on a new decision, as facts about the ledger it goes into -/
structure Fits (l : Ledger) (d : DecisionRow) : Prop where
  fresh : ∀ x ∈ l.decisions, x.decision_id ≠ d.decision_id
  status : d.status = if d.action = .approve then .verified else .candidate
  root : d.supersedes_decision_id = none → d.revision = 1 ∧
    ∀ x ∈ l.decisions, x.identity_key = d.identity_key → x.supersedes_decision_id ≠ none
  next : ∀ id, d.supersedes_decision_id = some id →
    (∃ x ∈ l.decisions, x.decision_id = id ∧ x.identity_key = d.identity_key ∧ x.toIdentity = d.toIdentity ∧
      d.revision = x.revision + 1) ∧ ∀ x ∈ l.decisions, x.supersedes_decision_id ≠ some id
  once : d.action = .approve → ∀ x ∈ l.decisions, x.action = .approve → x.evidence_id ≠ d.evidence_id
  proved : d.action = .approve → ∃ e ∈ l.evidence, d.provedBy e = true
  withdraws : d.action = .revoke → ∃ x ∈ l.decisions, d.withdraws x = true
  refers : ∃ e ∈ l.evidence, d.refersTo e = true

theorem insertDecision_ok (h : insertDecision d l = .ok l') :
    l'.evidence = l.evidence ∧ l'.decisions.rows = l.decisions.rows ++ [d] ∧ Fits l d := by
  simp only [insertDecision, bind_eq_ok, require_eq_ok, fetch_eq_ok, pure_eq_ok] at h
  obtain ⟨_, hreplaces, _, hfollows, _, hwithdraws, _, hproved, _, hchecks, _, -, decisions, hinsert, _, hrefers, rfl⟩ := h
  refine ⟨rfl, Table.insert_rows hinsert, ?_⟩
  rw [Table.any_eq_false] at hreplaces
  unfold DecisionRow.replaces at hreplaces
  simp only [Bool.or_eq_false_iff, Bool.and_eq_false_imp, Bool.and_eq_true, and_imp, beq_iff_eq,
    beq_eq_false_iff_ne, ne_eq] at hreplaces
  unfold DecisionRow.checks at hchecks
  simp only [Bool.and_eq_true] at hchecks
  obtain ⟨⟨-, hstatus⟩, hlink⟩ := hchecks
  refine ⟨fun x hx => (hreplaces x hx).1.1.1.1, ?_, ?_, ?_, ?_, ?_, ?_, Table.any_eq_true.mp hrefers⟩
  · cases ha : d.action with
    | approve =>
      rw [ha] at hstatus
      simpa using hstatus
    | revoke =>
      rw [ha] at hstatus
      simpa using hstatus
  · intro hnone
    rw [hnone] at hlink
    refine ⟨by simpa using hlink, fun x hx hkey hx' => ?_⟩
    exact (hreplaces x hx).1.2 (by rw [hnone]; rfl) (by rw [hx']; rfl) hkey
  · intro id hid
    constructor
    · obtain ⟨x, hx, hf⟩ := Table.any_eq_true.mp (hfollows (by rw [hid]; rfl))
      unfold DecisionRow.follows at hf
      simp only [hid, Bool.and_eq_true, beq_iff_eq, Option.some.injEq] at hf
      exact ⟨x, hx, hf.1.1.1, hf.1.1.2, hf.1.2, hf.2⟩
    · intro x hx he
      exact (hreplaces x hx).1.1.2 (by rw [hid]; rfl) (he.trans hid.symm)
  · intro ha x hx hx' he
    exact (hreplaces x hx).2 ha hx' he
  · exact fun ha => Table.any_eq_true.mp (hproved ha)
  · exact fun ha => Table.any_eq_true.mp (hwithdraws ha)

end
end OpenFlame.Capability
