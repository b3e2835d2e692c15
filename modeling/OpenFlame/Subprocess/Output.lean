import Mathlib.Algebra.Ring.Nat
import Mathlib.Data.List.Induction
import Mathlib.Data.List.TakeWhile

/-!
# The output of a child process

A thread keeps the first bytes of what a child writes, and the caller looks for complete lines in them from time to
time, and once more after the child has closed its output.

`BoundedReader.append`     one chunk arrives
`LineObserverCursor.drain` the caller looks, and the observer is given the lines that it finds
`universalLines`           the lines of a text that is there at once

* `scan_append`    where a scan of some bytes stopped, the scan of more bytes goes on;
* `events_scan`    what was delivered and what is pending are what one scan of the bytes so far finds;
* **`output_observed`**   in any order of chunks and looks, the lines delivered are the lines of the admitted bytes.
-/

set_option linter.all false

namespace OpenFlame.Subprocess

abbrev Bytes := List UInt8

/-! ## the code -/

structure BoundedReader where
  limit : Nat
  buffer : Bytes
  exceeded : Bool

/-- one iteration of `run` -/
def BoundedReader.append (r : BoundedReader) (chunk : Bytes) : BoundedReader :=
  let remaining := r.limit - r.buffer.length
  { r with
    buffer := if 0 < remaining then r.buffer ++ chunk.take remaining else r.buffer
    exceeded := r.exceeded || decide (remaining < chunk.length) }

/-- `read_from` -/
def BoundedReader.readFrom (r : BoundedReader) (offset : Nat) : Bytes × Nat := (r.buffer.drop offset, r.buffer.length)

/-- the loop of `drain`: `line` is `pending[start:index]`; the lines found, and what stays pending -/
def scan (final : Bool) (line : Bytes) : Bytes → List Bytes × Bytes
  | [] => ([], line)
  | 10 :: rest => let (lines, pending) := scan final [] rest; (line :: lines, pending)
  | [13] => if final then ([line], []) else ([], line ++ [13])
  | 13 :: 10 :: rest => let (lines, pending) := scan final [] rest; (line :: lines, pending)
  | 13 :: rest => let (lines, pending) := scan final [] rest; (line :: lines, pending)
  | current :: rest => scan final (line ++ [current]) rest

example : scan false [] [97, 13, 10, 98] = ([[97]], [98]) := by simp [scan]

structure LineObserverCursor where
  offset : Nat
  pending : Bytes

/-- `drain`: the cursor after it, and the lines that the observer is given -/
def LineObserverCursor.drain (c : LineObserverCursor) (final : Bool) (r : BoundedReader) :
    LineObserverCursor × List Bytes :=
  let (chunk, offset) := r.readFrom c.offset
  let (lines, pending) := scan final [] (c.pending ++ chunk)
  if final = true ∧ pending ≠ [] then (⟨offset, []⟩, lines ++ [pending]) else (⟨offset, pending⟩, lines)

/-- what may happen while the child runs -/
inductive Event where
  | append (chunk : Bytes)
  | drain

structure Observation where
  reader : BoundedReader
  cursor : LineObserverCursor
  delivered : List Bytes

def Observation.start (limit : Nat) : Observation := ⟨⟨limit, [], false⟩, ⟨0, []⟩, []⟩

def Observation.look (o : Observation) (final : Bool) : Observation :=
  let (cursor, lines) := o.cursor.drain final o.reader
  { o with cursor := cursor, delivered := o.delivered ++ lines }

def Observation.step (o : Observation) : Event → Observation
  | .append chunk => { o with reader := o.reader.append chunk }
  | .drain => o.look false

/-- the chunks of some events, in order -/
def Event.written : Event → Bytes
  | .append chunk => chunk
  | .drain => []

/-! ## what it is for -/

/-- neither LF nor CR -/
def isText (b : UInt8) : Bool := b != 10 && b != 13

/-- the lines that end with LF, CR or CRLF, and what is left if it is not empty -/
def universalLines (s : Bytes) : List Bytes :=
  if s = [] then []
  else
    match _h : s.dropWhile isText with
    | [] => [s]
    | 13 :: 10 :: rest => s.takeWhile isText :: universalLines rest
    | _ :: rest => s.takeWhile isText :: universalLines rest
termination_by s.length
decreasing_by
  all_goals
    have := (List.dropWhile_suffix isText (l := s)).length_le
    rw [_h] at this
    simp only [List.length_cons] at this
    omega

/-! ## scans -/

section
variable {final : Bool} {line : Bytes}

theorem scan_lf (rest : Bytes) : scan final line (10 :: rest) =
    (line :: (scan final [] rest).1, (scan final [] rest).2) := by
  rw [scan]

theorem scan_cr_end : scan final line [13] = if final then ([line], []) else ([], line ++ [13]) := by
  rw [scan]

theorem scan_crlf (rest : Bytes) : scan final line (13 :: 10 :: rest) =
    (line :: (scan final [] rest).1, (scan final [] rest).2) := by
  rw [scan]

theorem scan_cr {b : UInt8} (hb : b ≠ 10) (rest : Bytes) : scan final line (13 :: b :: rest) =
    (line :: (scan final [] (b :: rest)).1, (scan final [] (b :: rest)).2) := by
  rw [scan]
  · exact fun h => nomatch h
  · rintro rest' h
    exact hb (List.cons.inj h).1

theorem scan_text {b : UInt8} (hb : isText b = true) (rest : Bytes) :
    scan final line (b :: rest) = scan final (line ++ [b]) rest := by
  unfold isText at hb
  rw [Bool.and_eq_true, bne_iff_ne, bne_iff_ne] at hb
  rw [scan]
  · exact hb.1
  · exact fun h _ => hb.2 h
  · exact fun _ h _ => hb.2 h
  · exact hb.2

/-- the five ways a text may begin -/
theorem bytes_cases (s : Bytes) : s = [] ∨ (∃ rest, s = 10 :: rest) ∨ s = [13] ∨ (∃ rest, s = 13 :: 10 :: rest) ∨
    (∃ b rest, b ≠ 10 ∧ s = 13 :: b :: rest) ∨ ∃ b rest, isText b = true ∧ s = b :: rest := by
  match s with
  | [] => exact .inl rfl
  | b :: rest =>
    by_cases h10 : b = 10
    · exact .inr (.inl ⟨rest, by rw [h10]⟩)
    · by_cases h13 : b = 13
      · subst h13
        match rest with
        | [] => exact .inr (.inr (.inl rfl))
        | c :: rest =>
          by_cases hc : c = 10
          · exact .inr (.inr (.inr (.inl ⟨rest, by rw [hc]⟩)))
          · exact .inr (.inr (.inr (.inr (.inl ⟨c, rest, hc, rfl⟩))))
      · refine .inr (.inr (.inr (.inr (.inr ⟨b, rest, ?_, rfl⟩))))
        unfold isText
        rw [Bool.and_eq_true, bne_iff_ne, bne_iff_ne]
        exact ⟨h10, h13⟩

/-- a text joins the line before it -/
theorem scan_line {l : Bytes} (hl : l.all isText = true) (line rest : Bytes) :
    scan final line (l ++ rest) = scan final (line ++ l) rest := by
  induction l generalizing line with
  | nil => rw [List.nil_append, List.append_nil]
  | cons b l ih =>
    rw [List.all_cons, Bool.and_eq_true] at hl
    rw [List.cons_append, scan_text hl.1, ih hl.2, List.append_assoc]
    rfl

/-- **Where a scan stops, the scan of what comes next goes on.** -/
theorem scan_append (final : Bool) {line : Bytes} (hline : line.all isText = true) (x y : Bytes) :
    scan final line (x ++ y) =
      ((scan false line x).1 ++ (scan final [] ((scan false line x).2 ++ y)).1,
        (scan final [] ((scan false line x).2 ++ y)).2) := by
  -- a CR at the end of `x` stays pending with its line
  induction hn : x.length using Nat.strong_induction_on generalizing x line with
  | _ n ih =>
    have hnil : ([] : Bytes).all isText = true := rfl
    rcases bytes_cases x with rfl | ⟨rest, rfl⟩ | rfl | ⟨rest, rfl⟩ | ⟨b, rest, hb, rfl⟩ | ⟨b, rest, hb, rfl⟩
    · rw [scan, List.nil_append]
      show _ = ([] ++ (scan final [] (line ++ y)).1, (scan final [] (line ++ y)).2)
      rw [scan_line hline]
      rfl
    · rw [List.cons_append, scan_lf, scan_lf, ih rest.length (by rw [← hn]; simp) hnil rest rfl]
      rfl
    · rw [scan_cr_end, if_neg Bool.false_ne_true]
      show _ = ([] ++ (scan final [] (line ++ [13] ++ y)).1, (scan final [] (line ++ [13] ++ y)).2)
      rw [List.append_assoc, scan_line hline]
      rfl
    · rw [List.cons_append, List.cons_append, scan_crlf, scan_crlf,
        ih rest.length (by rw [← hn]; simp only [List.length_cons]; omega) hnil rest rfl]
      rfl
    · rw [List.cons_append, List.cons_append, scan_cr hb, scan_cr hb, ← List.cons_append,
        ih (b :: rest).length (by rw [← hn]; simp) hnil (b :: rest) rfl]
      rfl
    · have hline' : (line ++ [b]).all isText = true := by
        rw [List.all_append, hline, List.all_cons, hb]
        rfl
      rw [List.cons_append, scan_text hb, scan_text hb, ih rest.length (by rw [← hn]; simp) hline' rest rfl]

end

/-! ## lines -/

section
variable {l : Bytes}

theorem universalLines_nil : universalLines [] = [] := by
  rw [universalLines, if_pos rfl]

/-- the first line of a text -/
theorem takeWhile_line (hl : l.all isText = true) {b : UInt8} (hb : isText b = false) (rest : Bytes) :
    (l ++ b :: rest).takeWhile isText = l ∧ (l ++ b :: rest).dropWhile isText = b :: rest := by
  have hall := List.all_eq_true.mp hl
  rw [List.takeWhile_append_of_pos hall, List.dropWhile_append_of_pos hall,
    List.takeWhile_cons_of_neg (by rw [hb]; exact Bool.false_ne_true),
    List.dropWhile_cons_of_neg (by rw [hb]; exact Bool.false_ne_true), List.append_nil]
  exact ⟨rfl, rfl⟩

theorem universalLines_last (hl : l.all isText = true) (hne : l ≠ []) : universalLines l = [l] := by
  have hdrop : l.dropWhile isText = [] := List.dropWhile_eq_nil_iff.mpr (List.all_eq_true.mp hl)
  rw [universalLines, if_neg hne]
  split
  · rfl
  · next h =>
    rw [hdrop] at h
    cases h
  · next h =>
    rw [hdrop] at h
    cases h

theorem universalLines_crlf (hl : l.all isText = true) (rest : Bytes) :
    universalLines (l ++ 13 :: 10 :: rest) = l :: universalLines rest := by
  obtain ⟨htake, hdrop⟩ := takeWhile_line hl (b := 13) rfl (10 :: rest)
  rw [universalLines, if_neg (by simp)]
  split
  · next h =>
    rw [hdrop] at h
    cases h
  · next rest' h =>
    rw [hdrop] at h
    cases h
    rw [htake]
  · next rest' h1 h2 =>
    rw [hdrop] at h2
    cases h2
    exact absurd rfl (h1 _ rfl)

theorem universalLines_break (hl : l.all isText = true) {b : UInt8} (hb : isText b = false) {rest : Bytes}
    (hcrlf : b = 13 → rest.head? ≠ some 10) : universalLines (l ++ b :: rest) = l :: universalLines rest := by
  obtain ⟨htake, hdrop⟩ := takeWhile_line hl hb rest
  rw [universalLines, if_neg (by simp)]
  split
  · next h =>
    rw [hdrop] at h
    cases h
  · next rest' h =>
    rw [hdrop] at h
    cases h
    exact absurd rfl (hcrlf rfl)
  · next rest' h1 h2 =>
    rw [hdrop] at h2
    cases h2
    rw [htake]

/-- what a last scan finds are the lines -/
theorem universalLines_scan {line : Bytes} (hline : line.all isText = true) (s : Bytes) :
    universalLines (line ++ s) = (scan true line s).1 ++ if (scan true line s).2 = [] then [] else [(scan true line s).2] := by
  induction hn : s.length using Nat.strong_induction_on generalizing s line with
  | _ n ih =>
    have hnil : ([] : Bytes).all isText = true := rfl
    rcases bytes_cases s with rfl | ⟨rest, rfl⟩ | rfl | ⟨rest, rfl⟩ | ⟨b, rest, hb, rfl⟩ | ⟨b, rest, hb, rfl⟩
    · rw [List.append_nil, scan]
      show _ = if line = [] then [] else [line]
      by_cases hne : line = []
      · rw [if_pos hne, hne, universalLines_nil]
      · rw [if_neg hne, universalLines_last hline hne]
    · rw [scan_lf, universalLines_break hline rfl (fun h => absurd h (by decide))]
      have hrest := ih rest.length (by rw [← hn]; simp) hnil rest rfl
      rw [List.nil_append] at hrest
      rw [hrest]
      rfl
    · have hlast : universalLines (line ++ [13]) = line :: universalLines [] :=
        universalLines_break hline rfl (fun _ h => nomatch h)
      rw [scan_cr_end, if_pos rfl, hlast, universalLines_nil]
      rfl
    · rw [scan_crlf, universalLines_crlf hline]
      have hrest := ih rest.length (by rw [← hn]; simp only [List.length_cons]; omega) hnil rest rfl
      rw [List.nil_append] at hrest
      rw [hrest]
      rfl
    · have hfirst : universalLines (line ++ 13 :: b :: rest) = line :: universalLines (b :: rest) :=
        universalLines_break hline rfl (fun _ h => hb (Option.some.inj h))
      rw [scan_cr hb, hfirst]
      have hrest := ih (b :: rest).length (by rw [← hn]; simp) hnil (b :: rest) rfl
      rw [List.nil_append] at hrest
      rw [hrest]
      rfl
    · have hline' : (line ++ [b]).all isText = true := by
        rw [List.all_append, hline, List.all_cons, hb]
        rfl
      have hrest := ih rest.length (by rw [← hn]; simp) hline' rest rfl
      rw [List.append_assoc] at hrest
      rw [scan_text hb]
      exact hrest

end

/-! ## observations -/

/-- what was delivered and what is pending are what a scan of the bytes before the offset finds -/
def Observation.Scanned (o : Observation) : Prop :=
  o.cursor.offset ≤ o.reader.buffer.length ∧
    scan false [] (o.reader.buffer.take o.cursor.offset) = (o.delivered, o.cursor.pending)

/-- what a scan that goes on finds in all the bytes -/
theorem Observation.Scanned.rest {o : Observation} (h : o.Scanned) (final : Bool) (more : Bytes) :
    scan final [] (o.reader.buffer ++ more) =
      (o.delivered ++ (scan final [] (o.cursor.pending ++ (o.reader.buffer.drop o.cursor.offset ++ more))).1,
        (scan final [] (o.cursor.pending ++ (o.reader.buffer.drop o.cursor.offset ++ more))).2) := by
  have hsplit : o.reader.buffer ++ more =
      o.reader.buffer.take o.cursor.offset ++ (o.reader.buffer.drop o.cursor.offset ++ more) := by
    rw [← List.append_assoc, List.take_append_drop]
  rw [hsplit, scan_append final rfl, h.2]

theorem Observation.Scanned.append {o : Observation} (h : o.Scanned) (chunk : Bytes) :
    (o.step (.append chunk)).Scanned := by
  have hgrow : ∃ more, (o.reader.append chunk).buffer = o.reader.buffer ++ more := by
    unfold BoundedReader.append
    dsimp only
    split
    · exact ⟨_, rfl⟩
    · exact ⟨[], (List.append_nil _).symm⟩
  obtain ⟨more, hmore⟩ := hgrow
  unfold Observation.Scanned
  show o.cursor.offset ≤ (o.reader.append chunk).buffer.length ∧
    scan false [] ((o.reader.append chunk).buffer.take o.cursor.offset) = (o.delivered, o.cursor.pending)
  rw [hmore, List.length_append, List.take_append_of_le_length h.1]
  exact ⟨Nat.le_trans h.1 (Nat.le_add_right _ _), h.2⟩

theorem Observation.Scanned.drain {o : Observation} (h : o.Scanned) : (o.step .drain).Scanned := by
  have hrest := h.rest false []
  rw [List.append_nil, List.append_nil] at hrest
  unfold Observation.Scanned Observation.step Observation.look LineObserverCursor.drain BoundedReader.readFrom
  dsimp only
  rw [if_neg (fun hf => Bool.false_ne_true hf.1)]
  refine ⟨Nat.le_refl _, ?_⟩
  show scan false [] (o.reader.buffer.take o.reader.buffer.length) = _
  rw [List.take_length, hrest]

/-- the bytes that are kept are the first ones of all that were written -/
def BoundedReader.Admits (r : BoundedReader) (written : Bytes) : Prop :=
  r.buffer = written.take r.limit ∧ (r.exceeded = true ↔ r.limit < written.length)

theorem BoundedReader.Admits.append {r : BoundedReader} {written : Bytes} (h : r.Admits written) (chunk : Bytes) :
    (r.append chunk).Admits (written ++ chunk) := by
  obtain ⟨hbuffer, hexceeded⟩ := h
  have hlen : r.buffer.length = min r.limit written.length := by rw [hbuffer, List.length_take]
  unfold BoundedReader.Admits BoundedReader.append
  dsimp only
  constructor
  · rw [List.take_append]
    by_cases hfull : 0 < r.limit - r.buffer.length
    · have hall : written.take r.limit = written := List.take_of_length_le (by omega)
      rw [if_pos hfull, hbuffer, hall]
    · have hnone : r.limit - written.length = 0 := by omega
      rw [if_neg hfull, hnone, List.take_zero, List.append_nil, hbuffer]
  · rw [Bool.or_eq_true, decide_eq_true_iff, hexceeded, List.length_append]
    omega

/-- after any events, of which these bytes were written -/
theorem events_scan (limit : Nat) (events : List Event) :
    let o := events.foldl Observation.step (.start limit)
    o.Scanned ∧ o.reader.Admits (events.flatMap Event.written) ∧ o.reader.limit = limit := by
  induction events using List.reverseRecOn with
  | nil =>
    refine ⟨⟨Nat.le_refl 0, rfl⟩, ⟨?_, ?_⟩, rfl⟩
    · exact List.take_nil.symm
    · exact ⟨nofun, fun h => absurd h (Nat.not_lt_zero _)⟩
  | append_singleton events e ih =>
    rw [List.foldl_append, List.foldl_cons, List.foldl_nil, List.flatMap_append, List.flatMap_singleton]
    obtain ⟨hscanned, hadmits, hlimit⟩ := ih
    cases e with
    | append chunk => exact ⟨hscanned.append chunk, hadmits.append chunk, hlimit⟩
    | drain =>
      refine ⟨hscanned.drain, ?_, hlimit⟩
      rw [show Event.drain.written = [] from rfl, List.append_nil]
      exact hadmits

/-- **The lines that an observer is given are the lines of the admitted bytes**, whatever the chunks and the looks; and
every line that was given before the end is a line however the output goes on. -/
theorem output_observed (limit : Nat) (events : List Event) :
    let written := events.flatMap Event.written
    let o := events.foldl Observation.step (.start limit)
    (o.look true).reader.buffer = written.take limit ∧
      ((o.look true).reader.exceeded = true ↔ limit < written.length) ∧
      (o.look true).delivered = universalLines (written.take limit) ∧
      ∀ more, o.delivered <+: universalLines (written.take limit ++ more) := by
  obtain ⟨hscanned, ⟨hbuffer, hexceeded⟩, hlimit⟩ := events_scan limit events
  rw [hlimit] at hbuffer hexceeded
  have hempty : List.all ([] : Bytes) isText = true := rfl
  dsimp only
  refine ⟨hbuffer, hexceeded, ?_, fun more => ?_⟩
  · have hlines := universalLines_scan hempty ((events.flatMap Event.written).take limit)
    have hrest := hscanned.rest true []
    rw [List.append_nil, List.append_nil, hbuffer] at hrest
    rw [List.nil_append, hrest] at hlines
    rw [hlines]
    unfold Observation.look LineObserverCursor.drain BoundedReader.readFrom
    dsimp only
    rw [hbuffer]
    split
    · next hf =>
      rw [if_neg hf.2]
      exact (List.append_assoc _ _ _).symm
    · next hf =>
      rw [if_pos (by_contra fun hne => hf ⟨rfl, hne⟩), List.append_nil]
  · have hlines := universalLines_scan hempty ((events.flatMap Event.written).take limit ++ more)
    have hrest := hscanned.rest true more
    rw [hbuffer] at hrest
    rw [List.nil_append, hrest] at hlines
    rw [hlines, List.append_assoc]
    exact List.prefix_append _ _

end OpenFlame.Subprocess
