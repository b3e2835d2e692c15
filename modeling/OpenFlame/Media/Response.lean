import OpenFlame.Base.Guard
import OpenFlame.Base.Slices

/-!
# Responses from verified media files

A response reads a file that is already open.  With a manifest, each chunk of the file is compared with its digest
before any byte of it is sent.

`Handle`                 an open file: its reads may be short, change, end or raise
`VerifiedOpenFileResponse`   what the constructor accepts
`sendSpan`               the messages that one span of the file is sent as, and how the sending ended

* `readLoop_serves`      what the reads of a file of a known content give;
* `sendChunks_messages`  the messages of any handle, in a closed form;
* **`sendSpan_exact`**   a span is sent completely and once, or the bytes before the first chunk that is not what the
                         manifest says; no byte differs from what was verified.
-/

set_option linter.all false

namespace OpenFlame.Media
open Guard Slices

abbrev Bytes := List UInt8

/-- why a response is broken off -/
inductive StreamErr where
  /-- `verified original handle ended unexpectedly` -/
  | ended
  /-- `verified original chunk changed before response` -/
  | changed
  /-- an exception of the handle -/
  | handle
  deriving DecidableEq, Repr

/-- an open file, read at a position for so many bytes at most -/
structure Handle (σ : Type) where
  read : σ → Nat → Nat → Except StreamErr (Bytes × σ)
  bounded : ∀ s p n chunk s', read s p n = .ok (chunk, s') → chunk.length ≤ n

/-- `verified_chunk_sha256` and `verification_chunk_size` -/
structure Manifest (size_bytes : Nat) where
  verified_chunk_sha256 : List Bytes
  verification_chunk_size : Nat
  valid_size : 1 ≤ verification_chunk_size
  valid_length : verified_chunk_sha256.length = (size_bytes + verification_chunk_size - 1) / verification_chunk_size
  valid_items : ∀ item ∈ verified_chunk_sha256, item.length = 32

structure VerifiedOpenFileResponse where
  size_bytes : Nat
  manifest : Option (Manifest size_bytes)
  /-- `FileResponse.chunk_size` -/
  chunk_size : {n : Nat // 1 ≤ n}

/-- the checks of the constructor -/
def makeManifest (size_bytes : Nat) (verified_chunk_sha256 : Option (List Bytes)) (verification_chunk_size : Nat) :
    Except String (Option (Manifest size_bytes)) :=
  match verified_chunk_sha256 with
  | none => .ok none
  | some items =>
    if h : 1 ≤ verification_chunk_size ∧
        items.length = (size_bytes + verification_chunk_size - 1) / verification_chunk_size ∧
        ∀ item ∈ items, item.length = 32 then
      .ok (some ⟨items, verification_chunk_size, h.1, h.2.1, h.2.2⟩)
    else .error "verified chunk manifest is invalid"

/-- `http.response.body` -/
structure BodyMessage where
  body : Bytes
  more_body : Bool
  deriving DecidableEq, Repr

/-- what was sent, and how the sending ended -/
structure Sent (σ : Type) where
  messages : List BodyMessage
  outcome : Except StreamErr σ

section
variable {σ : Type} (h : Handle σ)

/-- `while remaining` -/
def readLoop (s : σ) (position remaining : Nat) : Except StreamErr (Bytes × σ) :=
  if remaining = 0 then .ok ([], s)
  else
    match h.read s position remaining with
    | .error e => .error e
    | .ok (chunk, s') =>
      if chunk = [] then .error .ended
      else
        match readLoop s' (position + chunk.length) (remaining - chunk.length) with
        | .error e => .error e
        | .ok (rest, s'') => .ok (chunk ++ rest, s'')
termination_by remaining
decreasing_by
  next hr hc =>
    have := List.length_pos_iff.mpr hc
    omega

variable (sha256 : Bytes → Bytes)

/-- `_read_verified_chunk` -/
def readVerifiedChunk {size_bytes : Nat} (m : Manifest size_bytes) (s : σ) (index : Nat) :
    Except StreamErr (Bytes × σ) :=
  let start := index * m.verification_chunk_size
  let expected_size := min m.verification_chunk_size (size_bytes - start)
  match readLoop h s start expected_size with
  | .error e => .error e
  | .ok (payload, s') =>
    if m.verified_chunk_sha256[index]? = some (sha256 payload) then .ok (payload, s') else .error .changed

/-- the loop over the chunks of a span -/
def sendChunks {size_bytes : Nat} (m : Manifest size_bytes) (start stop : Nat) (more_after : Bool) :
    List Nat → Nat → σ → Sent σ
  | [], _, s => ⟨[], .ok s⟩
  | index :: rest, position, s =>
    match readVerifiedChunk h sha256 m s index with
    | .error e => ⟨[], .error e⟩
    | .ok (whole, s') =>
      let chunk_start := index * m.verification_chunk_size
      let lower := start - chunk_start
      let upper := min (stop - chunk_start) whole.length
      let payload := slice whole lower upper
      let position := position + payload.length
      let sent := sendChunks m start stop more_after rest position s'
      ⟨⟨payload, decide (position < stop) || more_after⟩ :: sent.messages, sent.outcome⟩

/-- `while position < end`, without a manifest -/
def sendPlain (chunk_size : {n : Nat // 1 ≤ n}) (stop : Nat) (more_after : Bool) (position : Nat) (s : σ) : Sent σ :=
  if position < stop then
    match h.read s position (min chunk_size.1 (stop - position)) with
    | .error e => ⟨[], .error e⟩
    | .ok (chunk, s') =>
      if chunk = [] then ⟨[], .error .ended⟩
      else
        let sent := sendPlain chunk_size stop more_after (position + chunk.length) s'
        ⟨⟨chunk, decide (position + chunk.length < stop) || more_after⟩ :: sent.messages, sent.outcome⟩
  else ⟨[], .ok s⟩
termination_by stop - position
decreasing_by
  next hp hc =>
    have := List.length_pos_iff.mpr hc
    omega

/-- `_send_span` -/
def sendSpan (r : VerifiedOpenFileResponse) (start stop : Nat) (more_after : Bool) (s : σ) : Sent σ :=
  if start = stop then ⟨[⟨[], more_after⟩], .ok s⟩
  else
    match r.manifest with
    | some m =>
      let first := start / m.verification_chunk_size
      let last := (stop - 1) / m.verification_chunk_size
      sendChunks h sha256 m start stop more_after (List.range' first (last + 1 - first)) start s
    | none => sendPlain h r.chunk_size stop more_after start s

end

/-! ## reads -/

section
variable {σ : Type} {h : Handle σ}

theorem readLoop_zero (s : σ) (position : Nat) : readLoop h s position 0 = .ok ([], s) := by
  rw [readLoop, if_pos rfl]

theorem readLoop_step {s s' : σ} {position remaining : Nat} {chunk : Bytes} (hr : remaining ≠ 0) (hc : chunk ≠ [])
    (hread : h.read s position remaining = .ok (chunk, s')) :
    readLoop h s position remaining =
      match readLoop h s' (position + chunk.length) (remaining - chunk.length) with
      | .error e => .error e
      | .ok (rest, s'') => .ok (chunk ++ rest, s'') := by
  rw [readLoop, if_neg hr, hread]
  dsimp only
  rw [if_neg hc]

/-- a read that returns has all the bytes that it was asked for -/
theorem readLoop_length {remaining : Nat} : ∀ {s s' : σ} {position : Nat} {payload : Bytes},
    readLoop h s position remaining = .ok (payload, s') → payload.length = remaining := by
  induction remaining using Nat.strong_induction_on with
  | _ remaining ih =>
    intro s s' position payload hok
    by_cases hr : remaining = 0
    · subst hr
      rw [readLoop_zero] at hok
      cases hok
      rfl
    · rw [readLoop, if_neg hr] at hok
      cases hread : h.read s position remaining with
      | error e =>
        rw [hread] at hok
        cases hok
      | ok x =>
        obtain ⟨chunk, s1⟩ := x
        rw [hread] at hok
        dsimp only at hok
        by_cases hc : chunk = []
        · rw [if_pos hc] at hok
          cases hok
        · rw [if_neg hc] at hok
          have hpos := List.length_pos_iff.mpr hc
          have hle := h.bounded _ _ _ _ _ hread
          cases hrest : readLoop h s1 (position + chunk.length) (remaining - chunk.length) with
          | error e =>
            rw [hrest] at hok
            cases hok
          | ok y =>
            obtain ⟨rest, s2⟩ := y
            rw [hrest] at hok
            cases hok
            rw [List.length_append, ih _ (by omega) hrest]
            omega

/-- the reads of a file with this content: each gives some of it, unless there is no more -/
def Handle.Serves (h : Handle σ) (content : Bytes) : Prop :=
  ∀ s p n, 0 < n → ∃ chunk s', h.read s p n = .ok (chunk, s') ∧ chunk <+: content.drop p ∧
    (chunk = [] → content.length ≤ p)

/-- what was read and what is read next -/
theorem prefix_slice {content chunk : Bytes} {p n : Nat} (hc : chunk <+: content.drop p) (hn : chunk.length ≤ n) :
    chunk ++ slice content (p + chunk.length) (p + n) = slice content p (p + n) := by
  have hchunk : chunk = slice content p (p + chunk.length) := by
    unfold slice
    rw [← List.take_drop]
    exact (List.prefix_iff_eq_take.mp hc)
  calc chunk ++ slice content (p + chunk.length) (p + n)
      = slice content p (p + chunk.length) ++ slice content (p + chunk.length) (p + n) := congrArg (· ++ _) hchunk
    _ = slice content p (p + n) := slice_append (Nat.le_add_right p _) (Nat.add_le_add_left hn p)

/-- **A file of a known content is read exactly**, if it is long enough. -/
theorem readLoop_serves {content : Bytes} (hs : h.Serves content) {n : Nat} : ∀ (s : σ) (p : Nat),
    (p + n ≤ content.length → ∃ s', readLoop h s p n = .ok (slice content p (p + n), s')) ∧
      (0 < n → content.length < p + n → readLoop h s p n = .error .ended) := by
  induction n using Nat.strong_induction_on with
  | _ n ih =>
    intro s p
    by_cases hn : n = 0
    · subst hn
      refine ⟨fun _ => ⟨s, ?_⟩, fun h0 => absurd h0 (Nat.lt_irrefl 0)⟩
      rw [readLoop_zero, Nat.add_zero, slice_self]
    · obtain ⟨chunk, s1, hread, hprefix, hend⟩ := hs s p n (by omega)
      have hle := h.bounded _ _ _ _ _ hread
      have hlen := hprefix.length_le
      rw [List.length_drop] at hlen
      by_cases hc : chunk = []
      · have hp := hend hc
        refine ⟨fun hfit => absurd hfit (by omega), fun _ _ => ?_⟩
        rw [readLoop, if_neg hn, hread]
        dsimp only
        rw [if_pos hc]
      · have hpos := List.length_pos_iff.mpr hc
        obtain ⟨hfits, hshort⟩ := ih (n - chunk.length) (by omega) s1 (p + chunk.length)
        have hsum : p + chunk.length + (n - chunk.length) = p + n := by omega
        rw [hsum] at hfits hshort
        rw [readLoop_step hn hc hread]
        constructor
        · intro hfit
          obtain ⟨s2, hrest⟩ := hfits hfit
          refine ⟨s2, ?_⟩
          rw [hrest]
          show Except.ok (chunk ++ _, s2) = _
          rw [prefix_slice hprefix hle]
        · intro _ hlt
          rw [hshort (by omega) hlt]

end

/-! ## chunks -/

section
variable {σ : Type} {h : Handle σ} {sha256 : Bytes → Bytes} {size_bytes : Nat}

/-- the bytes of a content that a chunk has -/
def Manifest.chunkOf (m : Manifest size_bytes) (content : Bytes) (index : Nat) : Bytes :=
  slice content (index * m.verification_chunk_size)
    (index * m.verification_chunk_size + min m.verification_chunk_size (size_bytes - index * m.verification_chunk_size))

/-- a chunk of a content is complete, and is what the manifest says -/
def Manifest.Matches (m : Manifest size_bytes) (sha256 : Bytes → Bytes) (content : Bytes) (index : Nat) : Prop :=
  (m.chunkOf content index).length = min m.verification_chunk_size (size_bytes - index * m.verification_chunk_size) ∧
    m.verified_chunk_sha256[index]? = some (sha256 (m.chunkOf content index))

/-- a chunk has some byte of a span -/
def Manifest.Overlaps (m : Manifest size_bytes) (start stop index : Nat) : Prop :=
  max start (index * m.verification_chunk_size) < min stop ((index + 1) * m.verification_chunk_size)

variable {m : Manifest size_bytes}

theorem readVerifiedChunk_eq_ok {s s' : σ} {index : Nat} {whole : Bytes} :
    readVerifiedChunk h sha256 m s index = .ok (whole, s') ↔
      readLoop h s (index * m.verification_chunk_size)
        (min m.verification_chunk_size (size_bytes - index * m.verification_chunk_size)) = .ok (whole, s') ∧
      m.verified_chunk_sha256[index]? = some (sha256 whole) := by
  unfold readVerifiedChunk
  dsimp only
  cases hread : readLoop h s (index * m.verification_chunk_size)
      (min m.verification_chunk_size (size_bytes - index * m.verification_chunk_size)) with
  | error e => exact ⟨nofun, fun hx => nomatch hx.1⟩
  | ok x =>
    obtain ⟨payload, s1⟩ := x
    dsimp only
    by_cases hsha : m.verified_chunk_sha256[index]? = some (sha256 payload)
    · rw [if_pos hsha]
      refine ⟨fun hx => ⟨hx, ?_⟩, fun hx => hx.1⟩
      cases hx
      exact hsha
    · rw [if_neg hsha]
      refine ⟨nofun, fun hx => ?_⟩
      obtain ⟨hx, hw⟩ := hx
      cases hx
      exact absurd hw hsha

theorem readVerifiedChunk_length {s s' : σ} {index : Nat} {whole : Bytes}
    (hok : readVerifiedChunk h sha256 m s index = .ok (whole, s')) :
    whole.length = min m.verification_chunk_size (size_bytes - index * m.verification_chunk_size) :=
  readLoop_length (readVerifiedChunk_eq_ok.mp hok).1

/-- **A chunk is read if and only if it is what the manifest says.** -/
theorem readVerifiedChunk_serves {content : Bytes} (hs : h.Serves content) {index : Nat}
    (hi : index * m.verification_chunk_size < size_bytes) (s : σ) :
    (m.Matches sha256 content index → ∃ s', readVerifiedChunk h sha256 m s index = .ok (m.chunkOf content index, s')) ∧
      ∀ whole s', readVerifiedChunk h sha256 m s index = .ok (whole, s') →
        whole = m.chunkOf content index ∧ m.Matches sha256 content index := by
  have hk := m.valid_size
  obtain ⟨hfits, hshort⟩ := readLoop_serves hs
    s
    (index * m.verification_chunk_size)
  constructor
  · rintro ⟨hlen, hsha⟩
    have hle : index * m.verification_chunk_size +
        min m.verification_chunk_size (size_bytes - index * m.verification_chunk_size) ≤ content.length := by
      unfold Manifest.chunkOf slice at hlen
      rw [List.length_drop, List.length_take] at hlen
      omega
    obtain ⟨s', hread⟩ := hfits hle
    exact ⟨s', readVerifiedChunk_eq_ok.mpr ⟨hread, hsha⟩⟩
  · intro whole s' hok
    have hlen := readVerifiedChunk_length hok
    obtain ⟨hread, hsha⟩ := readVerifiedChunk_eq_ok.mp hok
    by_cases hle : index * m.verification_chunk_size +
        min m.verification_chunk_size (size_bytes - index * m.verification_chunk_size) ≤ content.length
    · obtain ⟨s1, hread'⟩ := hfits hle
      rw [hread'] at hread
      cases hread
      exact ⟨rfl, hlen, hsha⟩
    · rw [hshort (by omega) (by omega)] at hread
      cases hread

/-- the message with the part of a span that a chunk has -/
def Manifest.partOf (m : Manifest size_bytes) (content : Bytes) (start stop : Nat) (more_after : Bool) (index : Nat) :
    BodyMessage :=
  ⟨slice content (clamp start stop (index * m.verification_chunk_size))
      (clamp start stop ((index + 1) * m.verification_chunk_size)),
    decide (clamp start stop ((index + 1) * m.verification_chunk_size) < stop) || more_after⟩

/-- what is cut out of a chunk is its part of the span -/
theorem slice_chunkOf {content : Bytes} {start stop index : Nat} (hstop : stop ≤ size_bytes)
    (ho : m.Overlaps start stop index)
    (hlen : (m.chunkOf content index).length =
      min m.verification_chunk_size (size_bytes - index * m.verification_chunk_size)) :
    slice (m.chunkOf content index) (start - index * m.verification_chunk_size)
        (min (stop - index * m.verification_chunk_size) (m.chunkOf content index).length) =
      slice content (clamp start stop (index * m.verification_chunk_size))
        (clamp start stop ((index + 1) * m.verification_chunk_size)) := by
  have hnext : (index + 1) * m.verification_chunk_size =
      index * m.verification_chunk_size + m.verification_chunk_size := Nat.succ_mul _ _
  unfold Manifest.Overlaps at ho
  rw [hnext] at ho ⊢
  rw [hlen]
  have hchunk : m.chunkOf content index = (content.drop (index * m.verification_chunk_size)).take
      (min m.verification_chunk_size (size_bytes - index * m.verification_chunk_size)) := by
    unfold Manifest.chunkOf slice
    rw [List.take_drop]
  rw [hchunk, slice_drop_take]
  unfold clamp
  congr 1 <;> omega

/-- **The messages of any handle**: the parts of the chunks that were read, up to the first that was not. -/
theorem sendChunks_messages {content : Bytes} {start stop : Nat} (more_after : Bool) (hstop : stop ≤ size_bytes)
    (hread : ∀ index s whole s', readVerifiedChunk h sha256 m s index = .ok (whole, s') →
      whole = m.chunkOf content index) (n first : Nat)
    (ho : ∀ i, first ≤ i → i < first + n → m.Overlaps start stop i) (s : σ) :
    let sent := sendChunks h sha256 m start stop more_after (List.range' first n)
      (clamp start stop (first * m.verification_chunk_size)) s
    ∃ j ≤ n, sent.messages = (List.range' first j).map (m.partOf content start stop more_after) ∧
      (∀ i, first ≤ i → i < first + j → ∃ s1 x, readVerifiedChunk h sha256 m s1 i = .ok x) ∧
      (((∃ s', sent.outcome = .ok s') ∧ j = n) ∨
        ∃ e s', sent.outcome = .error e ∧ j < n ∧ readVerifiedChunk h sha256 m s' (first + j) = .error e) := by
  induction n generalizing first s with
  | zero => exact ⟨0, Nat.le_refl 0, rfl, fun i h1 h2 => absurd h1 (by omega), .inl ⟨⟨s, rfl⟩, rfl⟩⟩
  | succ n ih =>
    have hfirst := ho first (Nat.le_refl _) (by omega)
    rw [List.range'_succ]
    dsimp only
    rw [sendChunks]
    cases hc : readVerifiedChunk h sha256 m s first with
    | error e =>
      exact ⟨0, Nat.zero_le _, rfl, fun i h1 h2 => absurd h1 (by omega), .inr ⟨e, s, rfl, Nat.succ_pos n, hc⟩⟩
    | ok x =>
      obtain ⟨whole, s1⟩ := x
      dsimp only
      have hwhole := hread _ _ _ _ hc
      have hlen := readVerifiedChunk_length hc
      rw [hwhole] at hlen
      have hpayload := slice_chunkOf hstop hfirst hlen
      have hnext : (first + 1) * m.verification_chunk_size =
          first * m.verification_chunk_size + m.verification_chunk_size := Nat.succ_mul _ _
      have hposition : clamp start stop (first * m.verification_chunk_size) +
          (slice content (clamp start stop (first * m.verification_chunk_size))
            (clamp start stop ((first + 1) * m.verification_chunk_size))).length =
          clamp start stop ((first + 1) * m.verification_chunk_size) := by
        have hfull : (slice (m.chunkOf content first) (start - first * m.verification_chunk_size)
            (min (stop - first * m.verification_chunk_size) (m.chunkOf content first).length)).length =
            min (stop - first * m.verification_chunk_size) (m.chunkOf content first).length -
              (start - first * m.verification_chunk_size) := length_slice (Nat.min_le_right _ _)
        rw [hpayload, hlen] at hfull
        unfold Manifest.Overlaps at hfirst
        rw [hfull]
        unfold clamp
        omega
      rw [hwhole, hpayload, hposition]
      obtain ⟨j, hj, hmessages, hreads, hend⟩ := ih (first + 1) (fun i h1 h2 => ho i (by omega) (by omega)) s1
      refine ⟨j + 1, Nat.succ_le_succ hj, ?_, fun i h1 h2 => ?_, ?_⟩
      · rw [List.range'_succ, List.map_cons, hmessages]
        rfl
      · by_cases hi : i = first
        · exact ⟨s, (whole, s1), hi ▸ hc⟩
        · exact hreads i (by omega) (by omega)
      · rcases hend with ⟨hok, hjn⟩ | ⟨e, s', he, hlt, hc'⟩
        · exact .inl ⟨hok, by omega⟩
        · refine .inr ⟨e, s', he, by omega, ?_⟩
          rw [show first + (j + 1) = first + 1 + j by omega]
          exact hc'

/-- the bytes that were sent -/
def Sent.bytes (sent : Sent σ) : Bytes := sent.messages.flatMap BodyMessage.body

theorem bytes_parts (content : Bytes) (start stop : Nat) (more_after : Bool) (first j : Nat) :
    ((List.range' first j).map (m.partOf content start stop more_after)).flatMap BodyMessage.body =
      slice content (clamp start stop (first * m.verification_chunk_size))
        (clamp start stop ((first + j) * m.verification_chunk_size)) := by
  rw [List.flatMap_map]
  exact flatMap_clamped _ first j

/-- the chunks of a span -/
theorem overlaps_iff (m : Manifest size_bytes) {start stop : Nat} (hlt : start < stop) (i : Nat) :
    m.Overlaps start stop i ↔
      start / m.verification_chunk_size ≤ i ∧ i < (stop - 1) / m.verification_chunk_size + 1 := by
  have hk := m.valid_size
  have hnext : (i + 1) * m.verification_chunk_size = i * m.verification_chunk_size + m.verification_chunk_size :=
    Nat.succ_mul _ _
  unfold Manifest.Overlaps
  rw [Nat.lt_succ_iff, Nat.le_div_iff_mul_le hk, ← Nat.lt_succ_iff , Nat.div_lt_iff_lt_mul hk]
  show _ ↔ start < (i + 1) * m.verification_chunk_size ∧ _
  omega

/-- the span of a response with a manifest, as its chunks -/
theorem sendSpan_chunks {r : VerifiedOpenFileResponse} {m : Manifest r.size_bytes} (hm : r.manifest = some m)
    {content : Bytes} {start stop : Nat} (more_after : Bool) (hlt : start < stop) (hstop : stop ≤ r.size_bytes)
    (hread : ∀ index s whole s', readVerifiedChunk h sha256 m s index = .ok (whole, s') →
      whole = m.chunkOf content index) (s : σ) :
    let sent := sendSpan h sha256 r start stop more_after s
    let first := start / m.verification_chunk_size
    let last := (stop - 1) / m.verification_chunk_size
    ∃ j ≤ last + 1 - first, sent.messages = (List.range' first j).map (m.partOf content start stop more_after) ∧
      (∀ i, first ≤ i → i < first + j → ∃ s1 x, readVerifiedChunk h sha256 m s1 i = .ok x) ∧
      (((∃ s', sent.outcome = .ok s') ∧ j = last + 1 - first) ∨
        ∃ e s', sent.outcome = .error e ∧ j < last + 1 - first ∧
          readVerifiedChunk h sha256 m s' (first + j) = .error e) := by
  dsimp only
  have hclamp : clamp start stop (start / m.verification_chunk_size * m.verification_chunk_size) = start :=
    clamp_of_le (Nat.div_mul_le_self _ _)
  unfold sendSpan
  rw [if_neg (Nat.ne_of_lt hlt), hm]
  dsimp only
  have hmain := sendChunks_messages more_after hstop hread
    ((stop - 1) / m.verification_chunk_size + 1 - start / m.verification_chunk_size)
    (start / m.verification_chunk_size)
    (fun i h1 h2 => (overlaps_iff m hlt i).mpr ⟨h1, by omega⟩) s
  rw [hclamp] at hmain
  exact hmain

/-- the manifest has no digest after the end of the file -/
theorem readVerifiedChunk_index {s : σ} {index : Nat} {x : Bytes × σ}
    (hok : readVerifiedChunk h sha256 m s index = .ok x) : index * m.verification_chunk_size < size_bytes := by
  obtain ⟨hlt, -⟩ := List.getElem?_eq_some_iff.mp (readVerifiedChunk_eq_ok.mp hok).2
  rw [m.valid_length] at hlt
  have hk := m.valid_size
  have hmul := (Nat.le_div_iff_mul_le hk).mp hlt
  rw [Nat.succ_mul] at hmul
  omega

theorem Manifest.Overlaps.lt {start stop index : Nat} (ho : m.Overlaps start stop index) :
    start < stop ∧ index * m.verification_chunk_size < stop := by
  unfold Manifest.Overlaps at ho
  omega

/-- only the last message says that it is the last one, unless more comes after the span -/
def LastOnly (more_after : Bool) (messages : List BodyMessage) : Prop :=
  ∃ front last, messages = front ++ [last] ∧ last.more_body = more_after ∧ ∀ x ∈ front, x.more_body = true

theorem lastOnly_parts {content : Bytes} {start stop : Nat} (more_after : Bool) (hlt : start < stop) :
    LastOnly more_after ((List.range' (start / m.verification_chunk_size)
      ((stop - 1) / m.verification_chunk_size + 1 - start / m.verification_chunk_size)).map
        (m.partOf content start stop more_after)) := by
  have hk := m.valid_size
  have hle : start / m.verification_chunk_size ≤ (stop - 1) / m.verification_chunk_size :=
    Nat.div_le_div_right (by omega)
  have hcount : (stop - 1) / m.verification_chunk_size + 1 - start / m.verification_chunk_size =
      ((stop - 1) / m.verification_chunk_size - start / m.verification_chunk_size) + 1 := by omega
  have hlast : start / m.verification_chunk_size +
      ((stop - 1) / m.verification_chunk_size - start / m.verification_chunk_size) =
      (stop - 1) / m.verification_chunk_size := by omega
  have hend : stop ≤ ((stop - 1) / m.verification_chunk_size + 1) * m.verification_chunk_size := by
    have := Nat.lt_add_one ((stop - 1) / m.verification_chunk_size)
    rw [Nat.div_lt_iff_lt_mul hk] at this
    omega
  rw [hcount, List.range'_concat, List.map_append, Nat.one_mul, hlast]
  refine ⟨_, _, rfl, ?_, fun x hx => ?_⟩
  · show (decide (clamp start stop _ < stop) || more_after) = more_after
    rw [clamp_of_ge (Nat.le_of_lt hlt) hend, decide_eq_false (Nat.lt_irrefl stop), Bool.false_or]
  · obtain ⟨i, hi, rfl⟩ := List.mem_map.mp hx
    rw [List.mem_range'_1] at hi
    have hmul : (i + 1) * m.verification_chunk_size ≤ stop - 1 :=
      (Nat.le_div_iff_mul_le hk).mp (by omega)
    have hlt' : clamp start stop ((i + 1) * m.verification_chunk_size) < stop := by
      unfold clamp
      omega
    show (decide (clamp start stop _ < stop) || more_after) = true
    rw [decide_eq_true hlt', Bool.true_or]

/-- the digests of a manifest are those of a content -/
def Manifest.Describes (m : Manifest size_bytes) (sha256 : Bytes → Bytes) (verified : Bytes) : Prop :=
  verified.length = size_bytes ∧ ∀ i, i * m.verification_chunk_size < size_bytes →
    m.verified_chunk_sha256[i]? = some (sha256 (m.chunkOf verified i))

/-- **A span is sent exactly.**  If all its chunks are what the manifest says, all its bytes are sent, and only the last
message ends the response.  Otherwise the call raises, and what was sent are the bytes before the first chunk that is
not.  Whatever the file gives, no byte is sent that was not verified. -/
theorem sendSpan_exact (h : Handle σ) (sha256 : Bytes → Bytes) (r : VerifiedOpenFileResponse)
    (m : Manifest r.size_bytes) (hm : r.manifest = some m) (start stop : Nat) (hle : start ≤ stop)
    (hstop : stop ≤ r.size_bytes) (more_after : Bool) (s : σ) :
    let sent := sendSpan h sha256 r start stop more_after s
    (∀ content, h.Serves content → (∀ i, m.Overlaps start stop i → m.Matches sha256 content i) →
      (∃ s', sent.outcome = .ok s') ∧ sent.bytes = slice content start stop ∧ LastOnly more_after sent.messages) ∧
    (∀ content, h.Serves content → ∀ bad, m.Overlaps start stop bad → ¬ m.Matches sha256 content bad →
      (∃ e, sent.outcome = .error e) ∧ ∃ i, m.Overlaps start stop i ∧ ¬ m.Matches sha256 content i ∧
        (∀ j, j < i → m.Overlaps start stop j → m.Matches sha256 content j) ∧
        sent.bytes = slice content start (clamp start stop (i * m.verification_chunk_size))) ∧
    (Function.Injective sha256 → ∀ verified, m.Describes sha256 verified →
      sent.bytes <+: slice verified start stop) := by
  have hk := m.valid_size
  rcases Nat.eq_or_lt_of_le hle with rfl | hlt
  · -- an empty span is one empty message
    have hsent : sendSpan h sha256 r start start more_after s = ⟨[⟨[], more_after⟩], .ok s⟩ := if_pos rfl
    dsimp only
    rw [hsent]
    refine ⟨fun content _ _ => ⟨⟨s, rfl⟩, ?_, [], _, rfl, rfl, fun x hx => nomatch hx⟩, fun content _ bad ho => ?_,
      fun _ verified _ => List.nil_prefix⟩
    · rw [slice_self]
      rfl
    · exact absurd ho.lt.1 (Nat.lt_irrefl start)
  · have hfirst : clamp start stop (start / m.verification_chunk_size * m.verification_chunk_size) = start :=
      clamp_of_le (Nat.div_mul_le_self _ _)
    have hserved : ∀ content, h.Serves content → ∀ index s whole s',
        readVerifiedChunk h sha256 m s index = .ok (whole, s') →
          whole = m.chunkOf content index ∧ m.Matches sha256 content index :=
      fun content hs index s whole s' hok => (readVerifiedChunk_serves hs (readVerifiedChunk_index hok) s).2 whole s' hok
    refine ⟨fun content hs hall => ?_, fun content hs bad hbad hnot => ?_, fun hsha verified hd => ?_⟩
    · obtain ⟨j, -, hmessages, -, hend⟩ := sendSpan_chunks hm more_after hlt hstop
        (fun index s whole s' hok => (hserved content hs index s whole s' hok).1) s
      rcases hend with ⟨hok, rfl⟩ | ⟨e, s', -, hj, he⟩
      · refine ⟨hok, ?_, ?_⟩
        · have hlast := Nat.lt_add_one ((stop - 1) / m.verification_chunk_size)
          rw [Nat.div_lt_iff_lt_mul hk] at hlast
          have hsum : start / m.verification_chunk_size +
              ((stop - 1) / m.verification_chunk_size + 1 - start / m.verification_chunk_size) =
              (stop - 1) / m.verification_chunk_size + 1 := by
            have : start / m.verification_chunk_size ≤ (stop - 1) / m.verification_chunk_size :=
              Nat.div_le_div_right (by omega)
            omega
          unfold Sent.bytes
          rw [hmessages, bytes_parts, hfirst, hsum, clamp_of_ge hle (by omega)]
        · rw [hmessages]
          exact lastOnly_parts more_after hlt
      · -- a chunk of the span that matches is read
        have ho := (overlaps_iff m hlt (start / m.verification_chunk_size + j)).mpr ⟨by omega, by omega⟩
        have hi : (start / m.verification_chunk_size + j) * m.verification_chunk_size < r.size_bytes :=
          Nat.lt_of_lt_of_le ho.lt.2 hstop
        obtain ⟨s1, hok⟩ := (readVerifiedChunk_serves hs hi s').1 (hall _ ho)
        rw [hok] at he
        cases he
    · obtain ⟨j, hj, hmessages, hreads, hend⟩ := sendSpan_chunks hm more_after hlt hstop
        (fun index s whole s' hok => (hserved content hs index s whole s' hok).1) s
      have hmatch : ∀ i, start / m.verification_chunk_size ≤ i → i < start / m.verification_chunk_size + j →
          m.Matches sha256 content i := by
        intro i h1 h2
        obtain ⟨s1, x, hok⟩ := hreads i h1 h2
        exact (hserved content hs i s1 x.1 x.2 hok).2
      have hb := (overlaps_iff m hlt bad).mp hbad
      rcases hend with ⟨-, rfl⟩ | ⟨e, s', he, hjn, hread⟩
      · exact absurd (hmatch bad hb.1 (by omega)) hnot
      · have ho := (overlaps_iff m hlt (start / m.verification_chunk_size + j)).mpr ⟨by omega, by omega⟩
        have hi : (start / m.verification_chunk_size + j) * m.verification_chunk_size < r.size_bytes :=
          Nat.lt_of_lt_of_le ho.lt.2 hstop
        refine ⟨⟨e, he⟩, start / m.verification_chunk_size + j, ho, fun hmatches => ?_, fun i h1 h2 => ?_, ?_⟩
        · obtain ⟨s1, hok⟩ := (readVerifiedChunk_serves hs hi s').1 hmatches
          rw [hok] at hread
          cases hread
        · exact hmatch i ((overlaps_iff m hlt i).mp h2).1 h1
        · unfold Sent.bytes
          rw [hmessages, bytes_parts, hfirst]
    · -- what is read of a chunk is the only thing with its digest
      have hverified : ∀ index s whole s', readVerifiedChunk h sha256 m s index = .ok (whole, s') →
          whole = m.chunkOf verified index := by
        intro index s whole s' hok
        have hdigest := (readVerifiedChunk_eq_ok.mp hok).2
        rw [hd.2 index (readVerifiedChunk_index hok)] at hdigest
        exact (hsha (Option.some.inj hdigest)).symm
      obtain ⟨j, -, hmessages, -, -⟩ := sendSpan_chunks hm more_after hlt hstop hverified s
      unfold Sent.bytes
      rw [hmessages, bytes_parts, hfirst]
      refine ⟨slice verified (clamp start stop ((start / m.verification_chunk_size + j) * m.verification_chunk_size))
        stop, ?_⟩
      exact slice_append (Nat.le_max_left _ _) (clamp_le hle _)

end

/-! ## a file of three bytes -/

/-- a file that nobody changes -/
def Handle.ofContent (content : Bytes) : Handle Unit where
  read s p n := .ok (slice content p (p + n), s)
  bounded := by
    intro s p n chunk s' hread
    cases hread
    unfold slice
    rw [List.length_drop, List.length_take]
    omega

theorem Handle.serves_ofContent (content : Bytes) : (Handle.ofContent content).Serves content := by
  intro s p n hn
  refine ⟨_, s, rfl, ?_, fun he => ?_⟩
  · unfold slice
    rw [← List.take_drop]
    exact List.take_prefix _ _
  · have hlen := congrArg List.length he
    unfold slice at hlen
    rw [List.length_drop, List.length_take, List.length_nil] at hlen
    omega

/-- the digest of `ab` -/
def digestAb : Bytes :=
  [251, 142, 32, 252, 46, 76, 63, 36, 140, 96, 195, 155, 214, 82, 243, 193, 52, 114, 152, 187, 151, 123, 139, 77, 89, 3, 184, 80, 85, 98, 6, 3]

/-- the digest of `c` -/
def digestC : Bytes :=
  [46, 125, 44, 3, 169, 80, 122, 226, 101, 236, 245, 181, 53, 104, 133, 165, 51, 147, 162, 2, 157, 36, 19, 148, 153, 114, 101, 161, 162, 90, 239, 198]

/-- a digest that is right for two texts, and another one for each other text -/
def abcSha256 (s : Bytes) : Bytes :=
  if s = [97, 98] then digestAb else if s = [99] then digestC else List.replicate 33 0 ++ s

def abcManifest : Manifest 3 where
  verified_chunk_sha256 := [digestAb, digestC]
  verification_chunk_size := 2
  valid_size := by decide
  valid_length := by decide
  valid_items := by decide

def abcResponse : VerifiedOpenFileResponse where
  size_bytes := 3
  manifest := some abcManifest
  chunk_size := ⟨64 * 1024, by decide⟩

theorem abcSha256_injective : Function.Injective abcSha256 := by
  have hlong : ∀ s d : Bytes, d.length = 32 → List.replicate 33 0 ++ s ≠ d := by
    intro s d hd he
    have hlen := congrArg List.length he
    rw [List.length_append, List.length_replicate, hd] at hlen
    omega
  have hne : digestAb ≠ digestC := by decide
  have hcases : ∀ s, (s = [97, 98] ∧ abcSha256 s = digestAb) ∨ (s = [99] ∧ abcSha256 s = digestC) ∨
      abcSha256 s = List.replicate 33 0 ++ s := by
    intro s
    unfold abcSha256
    by_cases h1 : s = [97, 98]
    · exact .inl ⟨h1, if_pos h1⟩
    · by_cases h2 : s = [99]
      · exact .inr (.inl ⟨h2, by rw [if_neg h1, if_pos h2]⟩)
      · exact .inr (.inr (by rw [if_neg h1, if_neg h2]))
  intro s t he
  rcases hcases s with ⟨hs, es⟩ | ⟨hs, es⟩ | es <;> rcases hcases t with ⟨ht, et⟩ | ⟨ht, et⟩ | et <;>
    rw [es, et] at he
  · rw [hs, ht]
  · exact absurd he hne
  · exact absurd he.symm (hlong t _ rfl)
  · exact absurd he.symm hne
  · rw [hs, ht]
  · exact absurd he.symm (hlong t _ rfl)
  · exact absurd he (hlong s _ rfl)
  · exact absurd he (hlong s _ rfl)
  · exact List.append_cancel_left he

theorem sendSpan_exact_abc :
    ((∃ s', (sendSpan (Handle.ofContent [97, 98, 99]) abcSha256 abcResponse 1 3 false ()).outcome = .ok s') ∧
      (sendSpan (Handle.ofContent [97, 98, 99]) abcSha256 abcResponse 1 3 false ()).bytes = [98, 99] ∧
      LastOnly false (sendSpan (Handle.ofContent [97, 98, 99]) abcSha256 abcResponse 1 3 false ()).messages) ∧
    (∃ e, (sendSpan (Handle.ofContent [97, 98, 100]) abcSha256 abcResponse 1 3 false ()).outcome = .error e) ∧
    (sendSpan (Handle.ofContent [97, 98, 100]) abcSha256 abcResponse 1 3 false ()).bytes <+: [98, 99] := by
  obtain ⟨hall, -, -⟩ := sendSpan_exact (Handle.ofContent [97, 98, 99]) abcSha256 abcResponse abcManifest rfl 1 3
    (by decide) (Nat.le_refl 3) false ()
  obtain ⟨-, hbad, hsha⟩ := sendSpan_exact (Handle.ofContent [97, 98, 100]) abcSha256 abcResponse abcManifest rfl 1 3
    (by decide) (Nat.le_refl 3) false ()
  have hsmall : ∀ i, i * abcManifest.verification_chunk_size < 3 → i = 0 ∨ i = 1 := by
    intro i hi
    have : i * 2 < 3 := hi
    omega
  have hmatch : ∀ i, i * abcManifest.verification_chunk_size < 3 → abcManifest.Matches abcSha256 [97, 98, 99] i := by
    intro i hi
    rcases hsmall i hi with rfl | rfl
    · exact ⟨by decide, by decide⟩
    · exact ⟨by decide, by decide⟩
  refine ⟨hall _ (Handle.serves_ofContent _) (fun i ho => hmatch i ho.lt.2), ?_, ?_⟩
  · refine (hbad _ (Handle.serves_ofContent _) 1 (show 2 < 3 by decide) ?_).1
    exact fun hm => absurd hm.2 (by decide)
  · exact hsha abcSha256_injective [97, 98, 99] ⟨rfl, fun i hi => (hmatch i hi).2⟩

end OpenFlame.Media
