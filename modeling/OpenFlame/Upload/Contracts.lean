import Mathlib.Algebra.Ring.Nat
import Mathlib.Data.List.Basic
import OpenFlame.Base.Text

/-!
# The fixed vocabulary of the upload domain

Platforms, modes, result statuses, receipt states, acknowledgement evidence and reconciliation
conclusions, with the tables that bind them:

* `uploadEvidenceIsValid`         the acknowledgement boundary of one upload result;
* `uploadAdapterIdentityMatches`  the adapters a receipt may name;
* `isSafeCode`, `isProductIdentity`, `isSafeReceiptIdentity`   the source's patterns on text.

An `UploadError` carries one code, so a failed call is `.error code`.
-/

set_option linter.all false

namespace OpenFlame.Upload

/-- `uuid4().hex`: 32 hexadecimal digits, used through equality and text order only -/
abbrev Ident := Nat

/-- `UploadError.code` -/
abbrev Code := String

inductive Platform where
  | bilibili | douyin | tencent
  deriving DecidableEq, Repr

inductive Mode where
  | publish | draft
  deriving DecidableEq, Repr

/-- `UPLOAD_RESULT_STATUSES` -/
inductive ResultStatus where
  | submitted | draftSaved | failed | unknown | canceled
  deriving DecidableEq, Repr

/-- `UPLOAD_ATTEMPT_STATES` -/
inductive AttemptState where
  | reserved | dispatchMayHaveStarted | responded | unknown | reconciled
  deriving DecidableEq, Repr

/-- `UPLOAD_EVIDENCE_KINDS` -/
inductive EvidenceKind where
  | processExitZero | uploaderReturnedAfterFinalAction | httpsErrcodeZero | postListNavigation
  deriving DecidableEq, Repr

/-- `UPLOAD_RECONCILIATIONS` -/
inductive Reconciliation where
  | notAccepted | submissionAcknowledged | draftSaved
  deriving DecidableEq, Repr

inductive JobState where
  | draft | queued | running | submitted | draftSaved | failed | unknown | canceled
  deriving DecidableEq, Repr

inductive AuthState where
  | unchecked | checking | ready | invalid
  deriving DecidableEq, Repr

inductive LifecycleState where
  | active | disconnected
  deriving DecidableEq, Repr

inductive MediaState where
  | present | missing | deleted
  deriving DecidableEq, Repr

inductive Action where
  | login | check
  deriving DecidableEq, Repr

inductive OperationState where
  | queued | running | ready | failed | canceled
  deriving DecidableEq, Repr

/-- the job state of the same name -/
def ResultStatus.jobState : ResultStatus → JobState
  | .submitted => .submitted
  | .draftSaved => .draftSaved
  | .failed => .failed
  | .unknown => .unknown
  | .canceled => .canceled

theorem ResultStatus.jobState_injective : Function.Injective ResultStatus.jobState := by
  intro a b h
  cases a <;> cases b <;> first | rfl | cases h

def ResultStatus.ofText : String → Option ResultStatus
  | "submitted" => some .submitted
  | "draft_saved" => some .draftSaved
  | "failed" => some .failed
  | "unknown" => some .unknown
  | "canceled" => some .canceled
  | _ => none

def EvidenceKind.ofText : String → Option EvidenceKind
  | "process_exit_zero" => some .processExitZero
  | "uploader_returned_after_final_action" => some .uploaderReturnedAfterFinalAction
  | "https_errcode_zero" => some .httpsErrcodeZero
  | "post_list_navigation" => some .postListNavigation
  | _ => none

/-- `UPLOAD_SUCCESS_EVIDENCE` -/
def UPLOAD_SUCCESS_EVIDENCE : Platform → Mode → ResultStatus → Option EvidenceKind
  | .bilibili, .publish, .submitted => some .processExitZero
  | .douyin, .publish, .submitted => some .uploaderReturnedAfterFinalAction
  | .tencent, .publish, .submitted => some .httpsErrcodeZero
  | .tencent, .draft, .draftSaved => some .postListNavigation
  | _, _, _ => none

def uploadEvidenceIsValid (platform : Platform) (mode : Mode) (status : Option ResultStatus)
    (evidence_kind : Option EvidenceKind) : Bool :=
  match evidence_kind with
  | some e => status.bind (UPLOAD_SUCCESS_EVIDENCE platform mode) == some e
  | none => status != some .submitted && status != some .draftSaved

theorem uploadEvidenceIsValid_none {platform : Platform} {mode : Mode} {status : Option ResultStatus}
    (h1 : status ≠ some .submitted) (h2 : status ≠ some .draftSaved) :
    uploadEvidenceIsValid platform mode status none = true := by
  simp [uploadEvidenceIsValid, h1, h2]

/-- only a success of the mode itself carries evidence -/
theorem uploadEvidenceIsValid_some {platform : Platform} {mode : Mode} {status : Option ResultStatus}
    {e : EvidenceKind} (h : uploadEvidenceIsValid platform mode status (some e) = true) :
    status = some .submitted ∧ mode = .publish ∨ status = some .draftSaved ∧ mode = .draft := by
  cases status with
  | none => simp [uploadEvidenceIsValid] at h
  | some s =>
    cases platform <;> cases mode <;> cases s <;>
      simp [uploadEvidenceIsValid, UPLOAD_SUCCESS_EVIDENCE] at h ⊢

/-! ## patterns -/

/-- `[a-z]` -/
def isLowerAscii (c : Char) : Bool := 'a' ≤ c && c ≤ 'z'

/-- `[0-9]` -/
def isDigitAscii (c : Char) : Bool := '0' ≤ c && c ≤ '9'

/-- `[A-Za-z0-9]` -/
def isAlnumAscii (c : Char) : Bool := isLowerAscii c || isDigitAscii c || ('A' ≤ c && c ≤ 'Z')

/-- `[0-9a-f]` -/
def isHexDigit (c : Char) : Bool := isDigitAscii c || ('a' ≤ c && c ≤ 'f')

/-- `^[a-z][a-z0-9_]{0,79}$` -/
def isSafeCode (code : Code) : Bool :=
  match code.toList with
  | [] => false
  | c :: cs => isLowerAscii c && cs.length ≤ 79 && cs.all (fun d => isLowerAscii d || isDigitAscii d || d == '_')

/-- `^[A-Za-z0-9_-]{8,128}$` -/
def isRequestId (key : String) : Bool :=
  8 ≤ key.toList.length && key.toList.length ≤ 128 &&
    key.toList.all (fun c => isAlnumAscii c || c == '_' || c == '-')

/-- `^[A-Za-z0-9][A-Za-z0-9._+-]{0,127}$` -/
def isSafeReceiptIdentity (name : String) : Bool :=
  match name.toList with
  | [] => false
  | c :: cs =>
    isAlnumAscii c && cs.length ≤ 127 &&
      cs.all (fun d => isAlnumAscii d || d == '.' || d == '_' || d == '+' || d == '-')

/-- `^[A-Za-z0-9][A-Za-z0-9.+_-]{0,95}\+build\.sha256\.[0-9a-f]{64}$` -/
def isProductIdentity (name : String) : Bool :=
  let s := name.toList
  let version := s.take (s.length - 78)
  let build := s.drop (s.length - 78)
  (match version with
    | [] => false
    | c :: cs =>
      isAlnumAscii c && cs.length ≤ 95 &&
        cs.all (fun d => isAlnumAscii d || d == '.' || d == '_' || d == '+' || d == '-')) &&
    build.take 14 == "+build.sha256.".toList && (build.drop 14).length == 64 && (build.drop 14).all isHexDigit

/-! ## the identity of the runtime -/

structure RuntimeIdentity where
  product_identity : String
  adapter_name : String
  adapter_revision : String
  deriving DecidableEq, Repr

/-- `UPLOAD_ADAPTER_IDENTITY_HISTORY` -/
def UPLOAD_ADAPTER_IDENTITY_HISTORY : Platform → List (String × String)
  | .bilibili => [("biliup", "v1.2.4")]
  | .douyin | .tencent => [("social-auto-upload", "0012d2c355f88f683cc38dde2a2db209e14091bc")]

def uploadAdapterIdentityMatches (platform : Platform) (adapter_name adapter_revision : String) : Bool :=
  (adapter_name, adapter_revision) ∈ UPLOAD_ADAPTER_IDENTITY_HISTORY platform

/-- the checks a receipt's runtime identity passes when it is written, and again whenever it is read -/
def RuntimeIdentity.isValid (r : RuntimeIdentity) (platform : Platform) : Bool :=
  isProductIdentity r.product_identity && isSafeReceiptIdentity r.adapter_name &&
    isSafeReceiptIdentity r.adapter_revision &&
    uploadAdapterIdentityMatches platform r.adapter_name r.adapter_revision

end OpenFlame.Upload
