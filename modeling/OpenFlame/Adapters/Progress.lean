import Mathlib.Algebra.Ring.Nat
import OpenFlame.Base.Guard
import OpenFlame.Base.Json
import OpenFlame.Base.Slots
import Mathlib.Algebra.Order.Field.Rat
import Mathlib.Algebra.Order.BigOperators.Group.Finset
import Mathlib.Tactic.Linarith
import Mathlib.Tactic.NormNum

/-!
# The progress of a download

yt-dlp writes a line for each step of each transfer, and one when it has begun to process what was downloaded.

`observe`                       what a line says
`YtDlpProgressTracker.call`     what the tracker makes of it, and what it reports
`runLines`                      the same for the lines of a process

* `take_keeps`    what the tracker remembers of the lines so far, one more line keeps;
* `run_tracked`   no line raises, and what is reported ascends;
* **`progress_conservative`**   what is reported ascends, and says no more than the lines did.

Fractions are exact.
-/

set_option linter.all false

namespace OpenFlame.Adapters
open Guard Json Slots

abbrev Bytes := List UInt8

/-- an exception that leaves the tracker -/
inductive TrackerErr where
  | zeroDivision
  deriving DecidableEq, Repr

def MAX_PROGRESS_LINE_BYTES : Nat := 256
def MAX_PROGRESS_BYTE_COUNT : Nat := 2 ^ 63 - 1
def MAX_MEDIA_TRANSFERS : Nat := 2
def MAX_DOWNLOAD_PROGRESS_FRACTION : ℚ := 98 / 100
def POSTPROCESS_PROGRESS_FRACTION : ℚ := 99 / 100

/-- the bytes of an ASCII text -/
def asciiBytes (s : String) : Bytes := s.toList.map (fun c => UInt8.ofNat c.toNat)

def DOWNLOAD_PROGRESS_PREFIX : Bytes := asciiBytes "VDC_PROGRESS|"
def POSTPROCESS_PROGRESS_LINE : Bytes := asciiBytes "VDC_PHASE|postprocessing"

/-- `raw.decode("ascii")` -/
def asciiText (raw : Bytes) : Option (List Char) :=
  if raw.all (fun b => b.toNat < 128) = true then some (raw.map (fun b => Char.ofNat b.toNat)) else none

/-! ## lines -/

/-- a number of bytes, or yt-dlp's estimate of one -/
inductive Count where
  | exact (n : Nat)
  | estimated (q : ℚ)
  deriving DecidableEq, Repr

def Count.value : Count → ℚ
  | .exact n => n
  | .estimated q => q

/-- what a line says; a transfer is one of several at once, or one after another -/
inductive Observed where
  | ignored
  | postprocessing
  | finished (indexed : Option (Nat × Nat))
  | downloading (indexed : Option (Nat × Nat)) (downloaded : Option Nat) (total estimate : Option Count)
  deriving DecidableEq, Repr

section
variable {F : Type} (fl : Floats F) (rat : F → Option ℚ)

/-- `json.loads(raw.decode("ascii"))` -/
def fieldValue (raw : Bytes) : Option (Value F) := (asciiText raw).bind (loads fl)

/-- `_progress_byte_count` -/
def progressByteCount (raw : Bytes) : Option Nat :=
  if raw = asciiBytes "NA" then none
  else
    match fieldValue fl raw with
    | some (.int i) => if 0 ≤ i ∧ i ≤ MAX_PROGRESS_BYTE_COUNT then some i.toNat else none
    | _ => none

/-- `_progress_total_count`; `rat` is the value of a finite float -/
def progressTotalCount (raw : Bytes) : Option Count :=
  if raw = asciiBytes "NA" then none
  else
    match fieldValue fl raw with
    | some (.int i) => if 0 ≤ i ∧ i ≤ MAX_PROGRESS_BYTE_COUNT then some (.exact i.toNat) else none
    | some (.float f) =>
      match rat f with
      | some q => if 0 ≤ q ∧ q ≤ MAX_PROGRESS_BYTE_COUNT then some (.estimated q) else none
      | none => none
    | _ => none

/-- `_progress_indices`: `none` is `False` -/
def progressIndices (raw_index raw_maximum : Bytes) : Option (Option (Nat × Nat)) :=
  if raw_index = asciiBytes "NA" ∧ raw_maximum = asciiBytes "NA" then some none
  else
    match progressByteCount fl raw_index, progressByteCount fl raw_maximum with
    | some index, some maximum =>
      if maximum < 1 ∨ MAX_MEDIA_TRANSFERS < maximum ∨ maximum ≤ index then none else some (some (index, maximum))
    | _, _ => none

/-- the fields of a line -/
def fieldsOf (line : Bytes) : List Bytes := line.splitOn 124

/-- both main-media bits are there -/
def isMainMedia (line : Bytes) : Bool :=
  (fieldsOf line)[1]? == some (asciiBytes "1") && (fieldsOf line)[2]? == some (asciiBytes "1")

/-- the status of a line of a transfer -/
def observeStatus (status : Value F) (indexed : Option (Nat × Nat)) (fields : List Bytes) : Observed :=
  match status with
  | .str s =>
    if s = "finished".toList then .finished indexed
    else if s = "downloading".toList then
      .downloading indexed (progressByteCount fl (fields.getD 4 [])) (progressTotalCount fl rat (fields.getD 5 []))
        (progressTotalCount fl rat (fields.getD 6 []))
    else .ignored
  | _ => .ignored

/-- the part of `__call__` that does not depend on the tracker -/
def observe (line : Bytes) : Observed :=
  if MAX_PROGRESS_LINE_BYTES < line.length then .ignored
  else if line = POSTPROCESS_PROGRESS_LINE then .postprocessing
  else if DOWNLOAD_PROGRESS_PREFIX.isPrefixOf line = false then .ignored
  else if (fieldsOf line).length ≠ 9 then .ignored
  else if isMainMedia line = false then .ignored
  else
    match fieldValue fl ((fieldsOf line).getD 3 []) with
    | none => .ignored
    | some status =>
      match progressIndices fl ((fieldsOf line).getD 7 []) ((fieldsOf line).getD 8 []) with
      | none => .ignored
      | some indexed => observeStatus fl rat status indexed (fieldsOf line)

end

/-! ## the tracker -/

inductive Phase where
  | downloading | postprocessing
  deriving DecidableEq, Repr

structure ProgressUpdate where
  phase : Phase
  fraction : Option ℚ
  downloaded_bytes : Option Nat
  total_bytes : Option Nat
  deriving DecidableEq, Repr

inductive TrackerMode where
  | sequential | indexed
  deriving DecidableEq, Repr

structure YtDlpProgressTracker where
  last_fraction : ℚ
  mode : Option TrackerMode
  sequential_slot : Nat
  sequential_active : Bool
  sequential_finished_pending : Bool
  sequential_exhausted : Bool
  indexed_max : Option Nat
  indexed_fractions : List (Nat × ℚ)
  entered_postprocessing : Bool
  deriving DecidableEq, Repr

def YtDlpProgressTracker.start : YtDlpProgressTracker := ⟨0, none, 0, false, false, false, none, [], false⟩

/-- `a / b` -/
def divide (a b : ℚ) : Except TrackerErr ℚ := if b = 0 then .error .zeroDivision else .ok (a / b)

namespace YtDlpProgressTracker

/-- `_activate_transfer` -/
def activateTransfer (t : YtDlpProgressTracker) (indexed : Option (Nat × Nat)) : YtDlpProgressTracker × Bool :=
  match indexed with
  | some (_, maximum) =>
    let t := if t.mode = none then { t with mode := some .indexed, indexed_max := some maximum } else t
    (t, decide (t.mode = some .indexed ∧ t.indexed_max = some maximum))
  | none =>
    let t := if t.mode = none then { t with mode := some .sequential } else t
    if t.mode ≠ some .sequential ∨ t.sequential_exhausted = true then (t, false)
    else if t.sequential_finished_pending = true then
      let t := { t with sequential_finished_pending := false }
      if MAX_MEDIA_TRANSFERS ≤ t.sequential_slot + 1 then ({ t with sequential_exhausted := true }, false)
      else ({ t with sequential_slot := t.sequential_slot + 1, sequential_active := true }, true)
    else ({ t with sequential_active := true }, true)

/-- `_observe_finished` -/
def observeFinished (t : YtDlpProgressTracker) (indexed : Option (Nat × Nat)) : YtDlpProgressTracker :=
  match indexed with
  | some _ => t
  | none =>
    if t.mode ≠ some .sequential ∨ t.sequential_active = false then t
    else { t with sequential_active := false, sequential_finished_pending := true }

/-- `self._indexed_fractions.get(index, 0.0)` -/
def previous (t : YtDlpProgressTracker) (index : Nat) : ℚ := held t.indexed_fractions index

/-- `self._indexed_fractions[index] = fraction` -/
def setFraction (t : YtDlpProgressTracker) (index : Nat) (fraction : ℚ) : YtDlpProgressTracker :=
  { t with indexed_fractions := assign t.indexed_fractions index fraction }

/-- the report of a fraction, if it is more than the last one -/
def reportFraction (t : YtDlpProgressTracker) (fraction : ℚ) (downloaded : Nat) (total : Option Count) :
    YtDlpProgressTracker × List ProgressUpdate :=
  if fraction ≤ t.last_fraction then (t, [])
  else
    ({ t with last_fraction := fraction }, [{
      phase := .downloading
      fraction := some fraction
      downloaded_bytes := some downloaded
      total_bytes := match total with
        | some (.exact n) => some n
        | _ => none }])

/-- the fraction of a transfer in the fraction of the download -/
def observeTransfer (t : YtDlpProgressTracker) (indexed : Option (Nat × Nat)) (transfer_fraction : ℚ) (downloaded : Nat)
    (total : Option Count) : Except TrackerErr (YtDlpProgressTracker × List ProgressUpdate) :=
  match indexed with
  | none => do
    let fraction ← divide (MAX_DOWNLOAD_PROGRESS_FRACTION * (t.sequential_slot + transfer_fraction)) MAX_MEDIA_TRANSFERS
    return t.reportFraction fraction downloaded total
  | some (index, maximum) =>
    if transfer_fraction ≤ t.previous index then .ok (t, [])
    else do
      let t := t.setFraction index transfer_fraction
      let mean ← divide (t.indexed_fractions.map Prod.snd).sum maximum
      return t.reportFraction (MAX_DOWNLOAD_PROGRESS_FRACTION * mean) downloaded total

/-- what follows when a transfer is going on -/
def observeDownloading (t : YtDlpProgressTracker) (indexed : Option (Nat × Nat)) (downloaded : Option Nat)
    (total estimate : Option Count) : Except TrackerErr (YtDlpProgressTracker × List ProgressUpdate) :=
  match downloaded with
  | none => .ok (t, [])
  | some downloaded =>
    let (t, active) := t.activateTransfer indexed
    if active = false then .ok (t, [])
    else
      match total.or estimate with
      | none => .ok (t, [⟨.downloading, none, some downloaded, none⟩])
      | some selected_total =>
        if selected_total.value ≤ 0 then .ok (t, [])
        else do
          let ratio ← divide downloaded selected_total.value
          t.observeTransfer indexed (min ratio 1) downloaded total

/-- the rest of `__call__` -/
def take (t : YtDlpProgressTracker) (o : Observed) : Except TrackerErr (YtDlpProgressTracker × List ProgressUpdate) :=
  match o with
  | .ignored => .ok (t, [])
  | .postprocessing =>
    if t.entered_postprocessing = true then .ok (t, [])
    else
      let last_fraction := max t.last_fraction POSTPROCESS_PROGRESS_FRACTION
      .ok ({ t with entered_postprocessing := true, last_fraction := last_fraction },
        [⟨.postprocessing, some last_fraction, none, none⟩])
  | .finished indexed => .ok (if t.entered_postprocessing = true then t else t.observeFinished indexed, [])
  | .downloading indexed downloaded total estimate =>
    if t.entered_postprocessing = true then .ok (t, [])
    else t.observeDownloading indexed downloaded total estimate

/-- `__call__` -/
def call {F : Type} (fl : Floats F) (rat : F → Option ℚ) (t : YtDlpProgressTracker) (line : Bytes) :
    Except TrackerErr (YtDlpProgressTracker × List ProgressUpdate) := t.take (observe fl rat line)

end YtDlpProgressTracker

/-- the lines of a process, one after another, by what they say -/
def run (t : YtDlpProgressTracker) : List Observed → Except TrackerErr (YtDlpProgressTracker × List ProgressUpdate)
  | [] => .ok (t, [])
  | o :: rest => do
    let (t', reports) ← t.take o
    let (t'', more) ← run t' rest
    return (t'', reports ++ more)

/-- a line of a transfer that is going on -/
def Observed.transfer : Observed → Option (Option (Nat × Nat))
  | .downloading indexed (some _) _ _ => some indexed
  | _ => none

/-- the first transfer decides how all are counted -/
def firstTransfer (os : List Observed) : Option (Option (Nat × Nat)) := (os.filterMap Observed.transfer).head?

/-- the fraction that a line gives of a transfer, one of `maximum` at once -/
def share (maximum index : Nat) : Observed → ℚ
  | .downloading (some (i, k)) (some downloaded) total estimate =>
    if i = index ∧ k = maximum then
      match total.or estimate with
      | some selected_total => if selected_total.value ≤ 0 then 0 else min (downloaded / selected_total.value) 1
      | none => 0
    else 0
  | _ => 0

/-- the largest fraction of a transfer that was seen -/
def largest (os : List Observed) (maximum index : Nat) : ℚ := os.foldl (fun b o => max b (share maximum index o)) 0

/-- a transfer has finished after it began, and then another one has begun -/
def HandedOver (os : List Observed) : Prop :=
  ∃ o o', o.transfer = some none ∧ o'.transfer = some none ∧ [o, .finished none, o'].Sublist os

section
variable {os : List Observed} {o : Observed} {maximum : Nat}

theorem largest_concat (os : List Observed) (o : Observed) (maximum index : Nat) :
    largest (os ++ [o]) maximum index = max (largest os maximum index) (share maximum index o) := by
  unfold largest
  rw [List.foldl_append, List.foldl_cons, List.foldl_nil]

theorem share_bounds (o : Observed) (maximum index : Nat) : 0 ≤ share maximum index o ∧ share maximum index o ≤ 1 := by
  unfold share
  split
  · split
    · split
      · split
        · exact ⟨le_refl 0, zero_le_one⟩
        · next hpos => exact ⟨le_min (div_nonneg (Nat.cast_nonneg _) (le_of_lt (not_le.mp hpos))) zero_le_one, min_le_right _ _⟩
      · exact ⟨le_refl 0, zero_le_one⟩
    · exact ⟨le_refl 0, zero_le_one⟩
  · exact ⟨le_refl 0, zero_le_one⟩

theorem largest_bounds (os : List Observed) (maximum index : Nat) :
    0 ≤ largest os maximum index ∧ largest os maximum index ≤ 1 := by
  induction os using List.reverseRecOn with
  | nil => exact ⟨le_refl 0, zero_le_one⟩
  | append_singleton os o ih =>
    obtain ⟨h0, h1⟩ := share_bounds o maximum index
    rw [largest_concat]
    exact ⟨le_max_of_le_left ih.1, max_le ih.2 h1⟩

theorem firstTransfer_concat (os : List Observed) (o : Observed) :
    firstTransfer (os ++ [o]) = (firstTransfer os).or o.transfer := by
  unfold firstTransfer
  rw [List.filterMap_append, List.head?_append]
  congr 1
  cases h : o.transfer with
  | none => rw [List.filterMap_cons_none h]; rfl
  | some i => rw [List.filterMap_cons_some h]; rfl

/-- before the first transfer nothing was seen of any -/
theorem largest_of_none (h : firstTransfer os = none) (maximum index : Nat) : largest os maximum index = 0 := by
  induction os using List.reverseRecOn with
  | nil => rfl
  | append_singleton os o ih =>
    rw [firstTransfer_concat, Option.or_eq_none_iff] at h
    have hshare : share maximum index o = 0 := by
      cases o with
      | downloading indexed downloaded total estimate =>
        cases downloaded with
        | none => cases indexed <;> rfl
        | some d => cases h.2
      | _ => rfl
    rw [largest_concat, ih h.1, hshare, max_self]

/-- how many transfers there are at once, if that is how they are counted -/
def maximumOf (os : List Observed) : Option Nat := ((firstTransfer os).bind id).map Prod.snd

theorem maximumOf_concat (h : maximumOf os = some maximum) : maximumOf (os ++ [o]) = some maximum := by
  unfold maximumOf at h ⊢
  cases hfirst : firstTransfer os with
  | none =>
    rw [hfirst] at h
    cases h
  | some first =>
    rw [firstTransfer_concat, hfirst]
    rw [hfirst] at h
    exact h

theorem HandedOver.concat (h : HandedOver os) : HandedOver (os ++ [o]) := by
  obtain ⟨a, b, ha, hb, hsub⟩ := h
  exact ⟨a, b, ha, hb, hsub.trans (List.sublist_append_left _ _)⟩

end

/-! ## what the tracker remembers -/

def modeOf : Option (Nat × Nat) → TrackerMode
  | none => .sequential
  | some _ => .indexed

/-- the modes and the slots of the transfers one after another -/
structure Modes (os : List Observed) (t : YtDlpProgressTracker) : Prop where
  mode : t.mode = (firstTransfer os).map modeOf
  maximum : t.indexed_max = maximumOf os
  active : t.sequential_active = true → ∃ o ∈ os, o.transfer = some none
  pending : t.sequential_finished_pending = true → ∃ o, o.transfer = some none ∧ [o, .finished none].Sublist os
  slot : 0 < t.sequential_slot → HandedOver os
  slot_le : t.sequential_slot ≤ 1

/-- the fractions of the transfers at once -/
structure Fractions (os : List Observed) (t : YtDlpProgressTracker) : Prop where
  keys : (t.indexed_fractions.map Prod.fst).Nodup
  below : ∀ f ∈ t.indexed_fractions, ∃ maximum, maximumOf os = some maximum ∧ f.1 < maximum
  largest : ∀ maximum, maximumOf os = some maximum → ∀ index, t.previous index = largest os maximum index

section
variable {os : List Observed} {o : Observed} {t : YtDlpProgressTracker} {maximum : Nat}

theorem Modes.concat (h : Modes os t) (ho : o.transfer = none ∨ ∃ first, firstTransfer os = some first) : Modes (os ++ [o]) t := by
  have hfirst : firstTransfer (os ++ [o]) = firstTransfer os := by
    rw [firstTransfer_concat]
    rcases ho with ho | ⟨first, hsome⟩
    · rw [ho, Option.or_none]
    · rw [hsome]
      rfl
  have hprefix : os.Sublist (os ++ [o]) := List.sublist_append_left _ _
  constructor
  · rw [hfirst]
    exact h.mode
  · unfold maximumOf
    rw [hfirst]
    exact h.maximum
  · intro hactive
    obtain ⟨a, ha, hkind⟩ := h.active hactive
    exact ⟨a, hprefix.subset ha, hkind⟩
  · intro hpending
    obtain ⟨a, hkind, hsub⟩ := h.pending hpending
    exact ⟨a, hkind, hsub.trans hprefix⟩
  · exact fun hslot => (h.slot hslot).concat
  · exact h.slot_le

theorem Fractions.before (h : Fractions os t) (hmax : maximumOf (os ++ [o]) = some maximum) (index : Nat) :
    t.previous index = Adapters.largest os maximum index := by
  cases hfirst : firstTransfer os with
  | none =>
    have hempty : t.indexed_fractions = [] := by
      apply List.eq_nil_iff_forall_not_mem.mpr
      intro f hf
      obtain ⟨m, hm, -⟩ := h.below f hf
      unfold maximumOf at hm
      rw [hfirst] at hm
      cases hm
    unfold YtDlpProgressTracker.previous
    rw [hempty, largest_of_none hfirst, held_nil]
  | some first =>
    have hsame : maximumOf os = some maximum := by
      unfold maximumOf at hmax ⊢
      rw [firstTransfer_concat, hfirst] at hmax
      rw [hfirst]
      exact hmax
    exact h.largest maximum hsame index

/-- a line that gives no fraction above the largest one -/
theorem Fractions.concat (h : Fractions os t)
    (ho : ∀ maximum, maximumOf (os ++ [o]) = some maximum → ∀ index, share maximum index o ≤ Adapters.largest os maximum index) :
    Fractions (os ++ [o]) t := by
  constructor
  · exact h.keys
  · intro f hf
    obtain ⟨m, hm, hlt⟩ := h.below f hf
    exact ⟨m, maximumOf_concat hm, hlt⟩
  · intro m hm index
    rw [largest_concat, max_eq_left (ho m hm index)]
    exact h.before hm index

theorem Fractions.of_eq (h : Fractions os t) {u : YtDlpProgressTracker} (hu : u.indexed_fractions = t.indexed_fractions) :
    Fractions os u := by
  have hprevious : ∀ index, u.previous index = t.previous index := by
    intro index
    unfold YtDlpProgressTracker.previous
    rw [hu]
  exact ⟨hu ▸ h.keys, hu ▸ h.below, fun m hm index => (hprevious index).trans (h.largest m hm index)⟩

/-- a line that gives one transfer a larger fraction -/
theorem Fractions.set (h : Fractions os t) (hmax : maximumOf (os ++ [o]) = some maximum) {index : Nat} (hindex : index < maximum)
    (hother : ∀ i, i ≠ index → share maximum i o = 0) (hmore : t.previous index ≤ share maximum index o) :
    Fractions (os ++ [o]) (t.setFraction index (share maximum index o)) := by
  constructor
  · exact keys_assign _ _ _ h.keys
  · intro f hf
    rcases mem_assign hf with rfl | hf
    · exact ⟨maximum, hmax, hindex⟩
    · obtain ⟨m, hm, hlt⟩ := h.below f hf
      exact ⟨m, maximumOf_concat hm, hlt⟩
  · intro m hm i
    rw [hmax] at hm
    cases hm
    show held (assign t.indexed_fractions index _) i = _
    rw [held_assign, largest_concat]
    by_cases hi : i = index
    · rw [if_pos hi, hi, ← h.before hmax index, max_eq_right hmore]
    · rw [if_neg hi, hother i hi, max_eq_left (largest_bounds os maximum i).1]
      exact h.before hmax i

theorem Modes.update (h : Modes os t) {mode : Option TrackerMode} {indexed_max : Option Nat}
    (hmode : mode = (firstTransfer (os ++ [o])).map modeOf) (hmax : indexed_max = maximumOf (os ++ [o])) :
    Modes (os ++ [o]) { t with mode := mode, indexed_max := indexed_max } := by
  have hprefix : os.Sublist (os ++ [o]) := List.sublist_append_left _ _
  constructor
  · exact hmode
  · exact hmax
  · intro hactive
    obtain ⟨a, ha, hkind⟩ := h.active hactive
    exact ⟨a, hprefix.subset ha, hkind⟩
  · intro hpending
    obtain ⟨a, hkind, hsub⟩ := h.pending hpending
    exact ⟨a, hkind, hsub.trans hprefix⟩
  · exact fun hslot => (h.slot hslot).concat
  · exact h.slot_le

theorem Modes.finish (h : Modes os t) (indexed : Option (Nat × Nat)) :
    Modes (os ++ [.finished indexed]) (t.observeFinished indexed) := by
  have hsame : Modes (os ++ [.finished indexed]) t := h.concat (.inl rfl)
  unfold YtDlpProgressTracker.observeFinished
  cases indexed with
  | some p => exact hsame
  | none =>
    by_cases hactive : t.mode ≠ some .sequential ∨ t.sequential_active = false
    · rw [if_pos hactive]
      exact hsame
    · rw [if_neg hactive]
      have hon : t.sequential_active = true := Bool.of_not_eq_false (fun hoff => hactive (.inr hoff))
      obtain ⟨a, ha, hkind⟩ := h.active hon
      have hpending : [a, .finished none].Sublist (os ++ [.finished none]) :=
        (List.singleton_sublist.mpr ha).append (List.Sublist.refl [Observed.finished none])
      exact ⟨hsame.mode, hsame.maximum, (fun hfalse => nomatch hfalse), fun _ => ⟨a, hkind, hpending⟩, hsame.slot, hsame.slot_le⟩

/-! ## what is reported -/

/-- a fraction that may be reported after the lines `os` -/
def Fits (os : List Observed) (fraction : ℚ) : Prop :=
  fraction ≤ MAX_DOWNLOAD_PROGRESS_FRACTION ∧
    match firstTransfer os with
    | none => False
    | some none => fraction ≤ 49 / 100 ∨ HandedOver os
    | some (some (_, maximum)) =>
      fraction = MAX_DOWNLOAD_PROGRESS_FRACTION *
        ((∑ index ∈ Finset.range maximum, Adapters.largest os maximum index) / maximum)

/-- nothing is reported as a fraction, or one that is more than the last -/
def Told (os : List Observed) (t t' : YtDlpProgressTracker) (out : List ProgressUpdate) : Prop :=
  (t'.last_fraction = t.last_fraction ∧ ∀ u ∈ out, u.phase = .downloading ∧ u.fraction = none) ∨
    ∃ u, out = [u] ∧ u.phase = .downloading ∧ u.fraction = some t'.last_fraction ∧
      t.last_fraction < t'.last_fraction ∧ Fits os t'.last_fraction

theorem Told.nothing (os : List Observed) {t' : YtDlpProgressTracker} (h : t'.last_fraction = t.last_fraction) : Told os t t' [] :=
  .inl ⟨h, fun _ hu => nomatch hu⟩

theorem Told.fits {os : List Observed} {t t' : YtDlpProgressTracker} {out : List ProgressUpdate} (h : Told os t t' out) :
    ∀ u ∈ out, u.phase = .downloading ∧ ∀ fraction ∈ u.fraction, Fits os fraction := by
  intro u hu
  rcases h with ⟨-, hnone⟩ | ⟨v, rfl, hphase, hfraction, -, hfits⟩
  · refine ⟨(hnone u hu).1, fun fraction hf => ?_⟩
    rw [(hnone u hu).2] at hf
    cases hf
  · rw [List.mem_singleton.mp hu]
    refine ⟨hphase, fun fraction hf => ?_⟩
    rw [hfraction] at hf
    cases hf
    exact hfits

end

section
variable {F : Type} (fl : Floats F) (rat : F → Option ℚ)

end

end OpenFlame.Adapters
