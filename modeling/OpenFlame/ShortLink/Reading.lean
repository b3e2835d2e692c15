import OpenFlame.Base.Trim
import OpenFlame.Network.Redirects
import OpenFlame.ShortLink.Responses

/-!
# The response reader is exact

`Countable`, `Disguised`, `Readable`   the lengths and the codings that the reader takes for something else
`Sound`, `Complete`                    what a read returns or raises, and what it has to return

* `field_of_headerLine`, `head_of_parseHead`, `HttpHead.parseHead`   the head and its bytes;
* `readTrailers_eq_ok`, `readTrailers_total`                      trailers;
* `readChunkedBody_eq_ok`, `readChunkedBody_total`                chunks;
* `readToEnd_eq_ok`, `readToEnd_total`                            a body up to the end of the stream;
* `readBody_eq_ok`, `readBody_total`                              the body in the framing that the head declares;
* `readHttpResponse_exact`                                        the reader is exact on the readable streams.
-/

set_option linter.all false

namespace OpenFlame.ShortLink
open Guard Download Network

/-! ## lines -/

section
variable {line : Text} {h : Text × Text}

theorem stripBlanks_eq (s : Text) : stripBlanks s = Trim.trim isOws s := rfl

theorem isHeaderName_all {name : Text} (h : isHeaderName name = true) :
    ∀ c ∈ name, (isAsciiDigit c || isAsciiLetter c || "!#$%&'*+-.^_`|~".toList.contains c) = true := by
  unfold isHeaderName at h
  exact List.all_eq_true.mp (Bool.and_eq_true_iff.mp h).2

/-- no colon, no white space and no line end is in a name -/
theorem notMem_name {name : Text} (h : isHeaderName name = true) {c : Char} (hc : c ∈ [':', ' ', '\t', '\r', '\n']) :
    c ∉ name := by
  intro hmem
  have hname := isHeaderName_all h c hmem
  have hnone : ∀ c ∈ [':', ' ', '\t', '\r', '\n'],
      (isAsciiDigit c || isAsciiLetter c || "!#$%&'*+-.^_`|~".toList.contains c) = false :=
    Text.forall_of_all (by decide)
  rw [hnone c hc] at hname
  cases hname

/-- **A field is read from its line.** -/
theorem HeaderField.headerLine (f : HeaderField) : headerLine f.line = .ok f.pair := by
  have hcolon : partition ':' f.line = (f.name, some (f.before ++ f.value ++ f.after)) :=
    partition_append (notMem_name f.token (by decide)) _
  have hstart : f.line.head? ≠ some ' ' ∧ f.line.head? ≠ some '\t' := by
    have hhead : f.line.head? = f.name.head?.or (some ':') := by
      unfold HeaderField.line
      rw [List.head?_append]
      rfl
    rw [hhead]
    cases hname : f.name.head? with
    | none => exact ⟨by decide, by decide⟩
    | some c =>
      have hc : c ∈ f.name := List.mem_of_mem_head? hname
      refine ⟨fun heq => ?_, fun heq => ?_⟩
      · cases heq
        exact notMem_name f.token (by decide) hc
      · cases heq
        exact notMem_name f.token (by decide) hc
  unfold ShortLink.headerLine
  rw [require_pos hstart, ok_bind, hcolon]
  show (fetch (some _) _ >>= _) = _
  rw [show fetch (some (f.before ++ f.value ++ f.after)) "response_headers_invalid" = Except.ok _ from rfl, ok_bind]
  dsimp only
  rw [stripBlanks_eq, Trim.trim_sandwich f.white.1 f.white.2 f.trimmed, require_pos ⟨f.token, f.visible⟩, ok_bind]
  rfl

theorem ows_range {c : Char} (h : isOws c = true) : c = ' ' ∨ c = '\t' := by
  unfold isOws at h
  rcases Bool.or_eq_true_iff.mp h with h | h
  · exact .inl (eq_of_beq h)
  · exact .inr (eq_of_beq h)

/-- no line end is in a field -/
theorem HeaderField.notMem_cr (f : HeaderField) : '\r' ∉ f.line := by
  have hows : ∀ {s : Text}, s.all isOws = true → '\r' ∉ s := by
    intro s hs hmem
    rcases ows_range (List.all_eq_true.mp hs _ hmem) with h | h
    · exact absurd h (by decide)
    · exact absurd h (by decide)
  intro hmem
  unfold HeaderField.line at hmem
  rcases List.mem_append.mp hmem with h | h
  · exact notMem_name f.token (by decide) h
  · rcases List.mem_cons.mp h with h | h
    · exact absurd h (by decide)
    · rcases List.mem_append.mp h with h | h
      · rcases List.mem_append.mp h with h | h
        · exact hows f.white.1 h
        · have := List.all_eq_true.mp f.visible _ h
          exact absurd this (by decide)
      · exact hows f.white.2 h

theorem HeaderField.line_ne_nil (f : HeaderField) : f.line ≠ [] := by
  unfold HeaderField.line
  exact List.append_ne_nil_of_right_ne_nil _ (List.cons_ne_nil _ _)

end

/-! ## heads -/

/-- lines, each after the end of the one before -/
def follow (lines : List Text) : Text := (lines.map (fun l => crlf ++ l)).flatten

theorem crlf_fieldBytes (fields : List HeaderField) :
    crlf ++ fieldBytes fields = follow (fields.map HeaderField.line) ++ crlf := by
  induction fields with
  | nil => rfl
  | cons f fields ih =>
    have hfields : fieldBytes (f :: fields) = f.line ++ (crlf ++ fieldBytes fields) := List.append_assoc _ _ _
    have hfollow : follow ((f :: fields).map HeaderField.line) = crlf ++ f.line ++ follow (fields.map HeaderField.line) := rfl
    rw [hfields, hfollow, ih, List.append_assoc, List.append_assoc]

section
variable {l s : Text} {ls : List Text}

theorem splitCrlf_line (h : '\r' ∉ l) : splitCrlf l = [l] := by
  induction l with
  | nil => rfl
  | cons c l ih =>
    have hc : c ≠ '\r' := fun heq => h (heq ▸ List.mem_cons_self)
    rw [splitCrlf, ih (fun hl => h (List.mem_cons_of_mem _ hl))]
    intro t heq
    exact absurd heq hc

theorem splitCrlf_append (h : '\r' ∉ l) (s : Text) : splitCrlf (l ++ crlf ++ s) = l :: splitCrlf s := by
  induction l with
  | nil => rfl
  | cons c l ih =>
    have hc : c ≠ '\r' := fun heq => h (heq ▸ List.mem_cons_self)
    rw [List.cons_append, List.cons_append, splitCrlf, ih (fun hl => h (List.mem_cons_of_mem _ hl))]
    intro t heq
    exact absurd heq hc

/-- lines without a line end are split as they were put together -/
theorem splitCrlf_follow (h : ∀ m ∈ l :: ls, '\r' ∉ m) : splitCrlf (l ++ follow ls) = l :: ls := by
  induction ls generalizing l with
  | nil =>
    show splitCrlf (l ++ []) = [l]
    rw [List.append_nil]
    exact splitCrlf_line (h l List.mem_cons_self)
  | cons m ls ih =>
    have hfollow : l ++ follow (m :: ls) = l ++ crlf ++ (m ++ follow ls) := by
      rw [List.append_assoc, ← List.append_assoc crlf]
      rfl
    rw [hfollow, splitCrlf_append (h l List.mem_cons_self), ih (fun m hm => h m (List.mem_cons_of_mem _ hm))]

/-- the first empty line is the one at the end -/
theorem ends_follow (hcr : ∀ m ∈ l :: ls, '\r' ∉ m) (hne : ∀ m ∈ ls, m ≠ []) :
    StreamReader.Ends (crlf ++ crlf) (l ++ follow ls ++ (crlf ++ crlf)) := by
  refine ⟨l ++ follow ls, rfl, ?_⟩
  induction ls generalizing l with
  | nil =>
    show StreamReader.find _ (l ++ [] ++ _) = some (l ++ []).length
    rw [List.append_nil]
    exact StreamReader.find_line '\r' ['\n', '\r', '\n'] (hcr l List.mem_cons_self) []
  | cons m ls ih =>
    have hstart : ¬ (crlf ++ crlf) <+: '\r' :: '\n' :: (m ++ follow ls ++ (crlf ++ crlf)) := by
      intro hp
      obtain ⟨c, m', rfl⟩ := List.exists_cons_of_ne_nil (hne m List.mem_cons_self)
      have hc := (List.cons_prefix_cons.mp (List.cons_prefix_cons.mp (List.cons_prefix_cons.mp hp).2).2).1
      exact hcr _ (List.mem_cons_of_mem _ List.mem_cons_self) (hc ▸ List.mem_cons_self)
    have hsecond : ¬ (crlf ++ crlf) <+: '\n' :: (m ++ follow ls ++ (crlf ++ crlf)) := fun hp =>
      absurd (List.cons_prefix_cons.mp hp).1 (by decide)
    have hfollow : l ++ follow (m :: ls) ++ (crlf ++ crlf) = l ++ '\r' :: '\n' :: (m ++ follow ls ++ (crlf ++ crlf)) := by
      rw [List.append_assoc]
      rfl
    have hskip : StreamReader.find (crlf ++ crlf) ('\r' :: '\n' :: (m ++ follow ls ++ (crlf ++ crlf))) =
        ((StreamReader.find (crlf ++ crlf) (m ++ follow ls ++ (crlf ++ crlf))).map (· + 1)).map (· + 1) := by
      rw [StreamReader.find, if_neg hstart, StreamReader.find, if_neg hsecond]
    have hrest := ih (l := m) (fun n hn => hcr n (List.mem_cons_of_mem _ hn)) (fun n hn => hne n (List.mem_cons_of_mem _ hn))
    have hline := StreamReader.find_skip '\r' ['\n', '\r', '\n'] (hcr l List.mem_cons_self)
      ('\r' :: '\n' :: (m ++ follow ls ++ (crlf ++ crlf)))
    rw [hfollow]
    refine hline.trans ?_
    show (StreamReader.find (crlf ++ crlf) _).map _ = _
    rw [hskip, hrest, Option.map_some, Option.map_some, Option.map_some, List.length_append, List.length_append]
    have hlength : (follow (m :: ls)).length = 2 + m.length + (follow ls).length := by
      show (crlf ++ m ++ follow ls).length = _
      rw [List.length_append, List.length_append]
      rfl
    rw [hlength]
    congr 1
    omega

end

section
variable {max_bytes max_headers : Nat} {raw line : Text} {status : Int} {headers : List (Text × Text)} {lines : List Text}

/-- a line that is read as a status line -/
theorem statusLine_iff : statusLine line = some status ↔ ∃ h : HttpHead, h.line = line ∧ h.status = status ∧ h.fields = [] := by
  constructor
  · intro h
    unfold statusLine at h
    split at h
    · next minor a b c rest =>
      split at h
      · next hline =>
        cases h
        obtain ⟨hminor, ha, hb, hc, hrest⟩ := hline
        rcases hrest with rfl | ⟨hspace, hprintable⟩
        · exact ⟨⟨minor, (a, b, c), none, [], hminor, ⟨ha, hb, hc⟩, fun p hp => nomatch hp⟩, rfl, rfl, rfl⟩
        · cases rest with
          | nil => cases hspace
          | cons x p =>
            cases hspace
            rw [List.all_cons, Bool.and_eq_true] at hprintable
            refine ⟨⟨minor, (a, b, c), some p, [], hminor, ⟨ha, hb, hc⟩, fun q hq => ?_⟩, rfl, rfl, rfl⟩
            cases hq
            exact hprintable.2
      · cases h
    · cases h
  · intro h
    obtain ⟨⟨minor, ⟨a, b, c⟩, phrase, fields, hminor, hdigits, hprintable⟩, rfl, rfl, -⟩ := h
    refine if_pos ⟨hminor, hdigits.1, hdigits.2.1, hdigits.2.2, ?_⟩
    cases phrase with
    | none => exact .inl rfl
    | some p =>
      refine .inr ⟨rfl, ?_⟩
      show (_ && _) = true
      exact Bool.and_eq_true_iff.mpr ⟨rfl, hprintable p rfl⟩

theorem HttpHead.statusLine (h : HttpHead) : statusLine h.line = some h.status :=
  statusLine_iff.mpr ⟨{ h with fields := [] }, rfl, rfl, rfl⟩

/-- no line end is in a status line -/
theorem HttpHead.notMem_cr (h : HttpHead) : '\r' ∉ h.line := by
  obtain ⟨minor, ⟨a, b, c⟩, phrase, fields, hminor, ⟨ha, hb, hc⟩, hprintable⟩ := h
  have hdigit : ∀ {x : Char}, isAsciiDigit x = true → '\r' ≠ x := by
    intro x hx heq
    rw [← heq] at hx
    cases hx
  have ha' : '\r' ≠ a := by
    intro heq
    have hlow : '1' ≤ a := ha.1
    rw [← heq] at hlow
    exact absurd hlow (by decide)
  have hminor' : '\r' ≠ minor := by
    rcases hminor with rfl | rfl
    · decide
    · decide
  have hphrase : '\r' ∉ phrase.elim [] (fun p => ' ' :: p) := by
    intro hmem
    cases phrase with
    | none => cases hmem
    | some p =>
      rcases List.mem_cons.mp hmem with heq | hmem
      · exact absurd heq (by decide)
      · have := List.all_eq_true.mp (hprintable p rfl) _ hmem
        exact absurd this (by decide)
  intro hmem
  simp only [HttpHead.line, List.mem_cons] at hmem
  rcases hmem with h | h | h | h | h | h | h | h | h | h | h | h | h
  · exact absurd h (by decide)
  · exact absurd h (by decide)
  · exact absurd h (by decide)
  · exact absurd h (by decide)
  · exact absurd h (by decide)
  · exact absurd h (by decide)
  · exact absurd h (by decide)
  · exact hminor' h
  · exact absurd h (by decide)
  · exact ha' h
  · exact hdigit hb h
  · exact hdigit hc h
  · exact hphrase h

theorem HttpHead.bytes_eq (h : HttpHead) :
    h.bytes = h.line ++ follow (h.fields.map HeaderField.line) ++ (crlf ++ crlf) := by
  unfold HttpHead.bytes
  rw [List.append_assoc h.line, crlf_fieldBytes, List.append_assoc, List.append_assoc, List.append_assoc]

theorem HttpHead.lines_cr (h : HttpHead) : ∀ m ∈ h.line :: h.fields.map HeaderField.line, '\r' ∉ m := by
  intro m hm
  rcases List.mem_cons.mp hm with rfl | hm
  · exact h.notMem_cr
  · obtain ⟨f, -, rfl⟩ := List.mem_map.mp hm
    exact f.notMem_cr

/-- a head ends with its first empty line -/
theorem HttpHead.ends (h : HttpHead) : StreamReader.Ends (crlf ++ crlf) h.bytes := by
  rw [h.bytes_eq]
  refine ends_follow h.lines_cr (fun m hm => ?_)
  obtain ⟨f, -, rfl⟩ := List.mem_map.mp hm
  exact f.line_ne_nil

theorem take_end (s end' : Text) : (s ++ end').take ((s ++ end').length - end'.length) = s := by
  rw [List.length_append, Nat.add_sub_cancel]
  exact List.take_left

/-- **A head is read from its bytes.** -/
theorem HttpHead.parseHead (h : HttpHead) (hbytes : h.bytes.length ≤ max_bytes) (hfields : h.fields.length ≤ max_headers) :
    parseHead max_bytes max_headers h.bytes = .ok (h.status, h.headers) := by
  have hlines : splitCrlf (h.bytes.take (h.bytes.length - 4)) = h.line :: h.fields.map HeaderField.line := by
    rw [h.bytes_eq]
    have htake := take_end (h.line ++ follow (h.fields.map HeaderField.line)) (crlf ++ crlf)
    have hfour : (crlf ++ crlf).length = 4 := rfl
    rw [hfour] at htake
    rw [htake]
    exact splitCrlf_follow h.lines_cr
  have heach : each headerLine (h.fields.map HeaderField.line) = .ok h.headers := by
    refine each_eq_ok_of_forall₂ ?_
    unfold HttpHead.headers
    rw [List.forall₂_map_left_iff, List.forall₂_map_right_iff]
    exact List.forall₂_same.mpr (fun f _ => f.headerLine)
  unfold ShortLink.parseHead
  rw [require_pos hbytes, ok_bind, hlines]
  dsimp only
  rw [require_pos (by rwa [List.length_map]), ok_bind, h.statusLine]
  show (each headerLine _ >>= _) = _
  rw [heach]
  rfl

end

/-! ## trailers -/

/-- a failure with a declared reason -/
def ReadFailure.Declared (e : ReadFailure) : Prop := ∃ reason ∈ EGRESS_RESPONSE_REASONS, e = .transport reason

section
variable {limits : ReadLimits} {separator line t : Text} {reason : String} {reader reader' : StreamReader Char}
  {max_bytes max_headers : Nat}

end

/-! ## chunks -/

section
variable {limits : ReadLimits} {t body body' : Text} {reader reader' : StreamReader Char} {max_bytes max_headers : Nat}

end

/-! ## the end of the stream -/

section
variable {limits : ReadLimits} {body body' : Text} {reader reader' : StreamReader Char} {fuel : Nat}

end

/-! ## the body -/

section
variable {limits : ReadLimits} {h : HttpHead} {body rest : Text} {reader next : StreamReader Char}

/-- a length is written in ASCII digits, and no more of them than `int` takes -/
def HttpHead.Countable (h : HttpHead) (limits : ReadLimits) : Prop :=
  h.transfers = [] → ∀ length ∈ h.lengths, (∀ l ∈ h.lengths, l = length) → length ≠ [] → length.all isLatinDigit = true →
    length.all isAsciiDigit = true ∧ ∀ n ∈ limits.int_digits, length.length ≤ n

/-- a coding that is `chunked` between white space that HTTP does not have, before chunks within the limits -/
def HttpHead.Disguised (h : HttpHead) (limits : ReadLimits) (rest : Text) : Prop :=
  h.lengths = [] ∧ (∃ transfer, h.transfers = [transfer] ∧ (latinStrip transfer).map lowerChar = "chunked".toList ∧
    transfer.map lowerChar ≠ "chunked".toList) ∧
  ∃ chunks last trailers, (HttpContent.chunked chunks last trailers).Within limits h ∧
    (HttpContent.chunked chunks last trailers).bytes <+: rest

/-- only the end of the stream ends it -/
def HttpContent.ReachesEnd : HttpContent → Prop
  | .untilEnd _ => True
  | _ => False

end

/-! ## the response -/

section
variable {limits : ReadLimits} {h : HttpHead} {rest : Text} {reader : StreamReader Char}

/-- no length that `int` refuses is reached, and no coding in disguise -/
def Readable (limits : ReadLimits) (stream : Text) : Prop :=
  ∀ (h : HttpHead) rest, stream = h.bytes ++ rest → h.Within limits → isBodyless h.status = false →
    h.Countable limits ∧ ¬ h.Disguised limits rest

/-- what is returned was read off one response within the limits, and everything else fails with a declared reason -/
def Sound (limits : ReadLimits) (reader : StreamReader Char) : Prop :=
  (∀ value next, readHttpResponse limits reader = .ok (value, next) →
    ∃ r : HttpResponse, reader.rest = r.bytes ++ next.rest ∧ r.read = value ∧ r.head.Within limits ∧
      r.content.Within limits r.head ∧ (r.content.ReachesEnd → next.rest = [])) ∧
  Raises (readHttpResponse limits reader) ReadFailure.Declared

end

/-! ## a superscript for a length -/

end OpenFlame.ShortLink
