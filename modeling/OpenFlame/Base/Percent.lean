import Mathlib.Algebra.Ring.Nat
import Mathlib.Data.List.SplitBy
import OpenFlame.Base.Text

/-!
# Percent encoding

`quotePlus`        the UTF-8 bytes of a text, those that are not safe as `%XX`, a space as `+`
`unquoteToBytes`   the bytes of an ASCII text
`decodeReplace`    UTF-8 with the replacement character for what is no character
`unquote`          each ASCII run of a text decoded on its own

* `quotePlus_safe`      a quoted text has safe characters, `+` and `%` only;
* `quotePlus_plain`     safe characters stay as they are;
* `unquote_quotePlus`   **a text is read back from its quoted form.**
-/

set_option linter.all false

namespace Percent

/-- `_ALWAYS_SAFE` -/
def isSafe (c : Char) : Bool :=
  ('a' ≤ c && c ≤ 'z') || ('A' ≤ c && c ≤ 'Z') || ('0' ≤ c && c ≤ '9') || "_.-~".toList.contains c

def hexDigit (n : Nat) : Char := Char.ofNat (if n < 10 then 48 + n else 55 + n)

/-- the value of a hexadecimal digit of either case -/
def hexValue (c : Char) : Option Nat :=
  if '0' ≤ c && c ≤ '9' then some (c.toNat - 48)
  else if 'A' ≤ c && c ≤ 'F' then some (c.toNat - 55)
  else if 'a' ≤ c && c ≤ 'f' then some (c.toNat - 87)
  else none

/-- one byte of a quoted text -/
def quoteByte (b : UInt8) : List Char :=
  if b = 0x20 then ['+']
  else if isSafe (Char.ofNat b.toNat) then [Char.ofNat b.toNat]
  else ['%', hexDigit (b.toNat / 16), hexDigit (b.toNat % 16)]

def encode (s : List Char) : List UInt8 := s.flatMap String.utf8EncodeChar

/-- `quote_plus` -/
def quotePlus (s : List Char) : List Char := (encode s).flatMap quoteByte

/-- `unquote_to_bytes` of an ASCII text -/
def unquoteToBytes : List Char → List UInt8
  | [] => []
  | '%' :: a :: b :: rest =>
    match hexValue a, hexValue b with
    | some hi, some lo => UInt8.ofNat (16 * hi + lo) :: unquoteToBytes rest
    | _, _ => 0x25 :: unquoteToBytes (a :: b :: rest)
  | c :: rest => UInt8.ofNat c.toNat :: unquoteToBytes rest

/-- a second byte that may follow a first one -/
def isSecond (first second : UInt8) : Bool :=
  if first = 0xE0 then 0xA0 ≤ second && second ≤ 0xBF
  else if first = 0xED then 0x80 ≤ second && second ≤ 0x9F
  else if first = 0xF0 then 0x90 ≤ second && second ≤ 0xBF
  else if first = 0xF4 then 0x80 ≤ second && second ≤ 0x8F
  else 0x80 ≤ second && second ≤ 0xBF

/-- how many bytes one replacement character stands for -/
def malformed : List UInt8 → Nat
  | b :: c :: rest =>
    if 0xE0 ≤ b && b ≤ 0xF4 && isSecond b c then
      match rest with
      | d :: _ => if 0xF0 ≤ b && 0x80 ≤ d && d ≤ 0xBF then 3 else 2
      | [] => 2
    else 1
  | _ => 1

/-- `bytes.decode('utf-8', 'replace')`, the next `skip` bytes being part of the last character -/
def decodeReplace (skip : Nat) : List UInt8 → List Char
  | [] => []
  | b :: bs =>
    match skip with
    | skip + 1 => decodeReplace skip bs
    | 0 =>
      match (b :: bs).toByteArray.utf8DecodeChar? 0 with
      | some c => c :: decodeReplace (c.utf8Size - 1) bs
      | none => Char.ofNat 0xFFFD :: decodeReplace (malformed (b :: bs) - 1) bs

def isAscii (c : Char) : Bool := c.toNat < 128

/-- `unquote` -/
def unquote (s : List Char) : List Char :=
  (s.splitBy (fun a b => isAscii a == isAscii b)).flatMap (fun run =>
    if run.all isAscii then decodeReplace 0 (unquoteToBytes run) else run)

/-- what `parse_qs` does before it unquotes -/
def plusToSpace (s : List Char) : List Char := s.map (fun c => if c = '+' then ' ' else c)

/-! ## what is quoted -/

theorem hexDigit_spec : ∀ n < 16, hexValue (hexDigit n) = some n ∧ isSafe (hexDigit n) = true := by decide

theorem hexDigit_ne_plus : ∀ n < 16, hexDigit n ≠ '+' := by decide

theorem isAscii_of_isSafe {c : Char} (h : isSafe c = true) : isAscii c = true := by
  unfold isSafe at h
  simp only [Bool.or_eq_true, Bool.and_eq_true, decide_eq_true_eq] at h
  unfold isAscii
  have hle {d : Char} (hd : c ≤ d) (hlt : d.toNat < 128) : decide (c.toNat < 128) = true :=
    decide_eq_true (Nat.lt_of_le_of_lt (UInt32.le_iff_toNat_le.mp hd) hlt)
  rcases h with ((h | h) | h) | h
  · exact hle h.2 (by decide)
  · exact hle h.2 (by decide)
  · exact hle h.2 (by decide)
  · have hall : ∀ d ∈ "_.-~".toList, decide (d.toNat < 128) = true := Text.forall_of_all (by decide)
    exact hall c (List.contains_iff_mem.mp h)

theorem quotePlus_safe {s : List Char} {c : Char} (h : c ∈ quotePlus s) : isSafe c = true ∨ c = '+' ∨ c = '%' := by
  obtain ⟨b, -, hc⟩ := List.mem_flatMap.mp h
  unfold quoteByte at hc
  split at hc
  · exact .inr (.inl (List.mem_singleton.mp hc))
  · split at hc
    · next hsafe =>
      rw [List.mem_singleton.mp hc]
      exact .inl hsafe
    · have hb : b.toNat < 256 := UInt8.toNat_lt b
      rcases List.mem_cons.mp hc with rfl | hc
      · exact .inr (.inr rfl)
      · rcases List.mem_cons.mp hc with rfl | hc
        · exact .inl (hexDigit_spec _ (by omega)).2
        · rw [List.mem_singleton.mp hc]
          exact .inl (hexDigit_spec _ (by omega)).2

/-- safe characters stay as they are -/
theorem quotePlus_plain {s : List Char} (h : ∀ c ∈ s, isSafe c = true) : quotePlus s = s := by
  have hchar : ∀ n : Fin 128, isSafe (Char.ofNat n.val) = true →
      (String.utf8EncodeChar (Char.ofNat n.val)).flatMap quoteByte = [Char.ofNat n.val] := by
    decide +kernel
  induction s with
  | nil => rfl
  | cons c s ih =>
    have hsplit : quotePlus (c :: s) = (String.utf8EncodeChar c).flatMap quoteByte ++ quotePlus s := List.flatMap_append
    have hc := h c List.mem_cons_self
    have hone := hchar ⟨c.toNat, of_decide_eq_true (isAscii_of_isSafe hc)⟩
    rw [Char.ofNat_toNat] at hone
    rw [hsplit, hone hc, ih (fun d hd => h d (List.mem_cons_of_mem _ hd)), List.singleton_append]

/-! ## reading it back -/

theorem unquoteToBytes_cons {c : Char} (h : c ≠ '%') (rest : List Char) :
    unquoteToBytes (c :: rest) = UInt8.ofNat c.toNat :: unquoteToBytes rest := by
  rw [unquoteToBytes]
  intro _ _ _ hc
  exact absurd hc h

theorem unquoteToBytes_percent {a b : Char} {hi lo : Nat} (ha : hexValue a = some hi) (hb : hexValue b = some lo)
    (rest : List Char) :
    unquoteToBytes ('%' :: a :: b :: rest) = UInt8.ofNat (16 * hi + lo) :: unquoteToBytes rest := by
  rw [unquoteToBytes, ha, hb]

theorem unquoteToBytes_byte {b : UInt8} (rest : List Char) :
    unquoteToBytes (plusToSpace (quoteByte b) ++ rest) = b :: unquoteToBytes rest := by
  have hb : b.toNat < 256 := UInt8.toNat_lt b
  unfold quoteByte
  split
  · next hspace =>
    rw [hspace]
    rfl
  · split
    · next hsafe =>
      have hplain : Char.ofNat b.toNat ≠ '%' ∧ Char.ofNat b.toNat ≠ '+' := by
        constructor
        · intro h
          rw [h] at hsafe
          cases hsafe
        · intro h
          rw [h] at hsafe
          cases hsafe
      have hback : (Char.ofNat b.toNat).toNat = b.toNat := by
        unfold Char.ofNat
        rw [dif_pos (.inl (by omega))]
        rfl
      unfold plusToSpace
      rw [List.map_singleton, if_neg hplain.2, List.singleton_append, unquoteToBytes_cons hplain.1, hback,
        UInt8.ofNat_toNat]
    · obtain ⟨hhi, -⟩ := hexDigit_spec (b.toNat / 16) (by omega)
      obtain ⟨hlo, -⟩ := hexDigit_spec (b.toNat % 16) (by omega)
      have hmap : plusToSpace ['%', hexDigit (b.toNat / 16), hexDigit (b.toNat % 16)] =
          ['%', hexDigit (b.toNat / 16), hexDigit (b.toNat % 16)] := by
        unfold plusToSpace
        rw [List.map_cons, List.map_cons, List.map_singleton, if_neg (by decide),
          if_neg (hexDigit_ne_plus _ (by omega)), if_neg (hexDigit_ne_plus _ (by omega))]
      rw [hmap]
      show unquoteToBytes ('%' :: hexDigit (b.toNat / 16) :: hexDigit (b.toNat % 16) :: rest) = _
      rw [unquoteToBytes_percent hhi hlo, Nat.div_add_mod, UInt8.ofNat_toNat]

theorem unquoteToBytes_quoted (bs : List UInt8) : unquoteToBytes (plusToSpace (bs.flatMap quoteByte)) = bs := by
  induction bs with
  | nil => rfl
  | cons b bs ih =>
    have hmap : plusToSpace ((b :: bs).flatMap quoteByte) =
        plusToSpace (quoteByte b) ++ plusToSpace (bs.flatMap quoteByte) := List.map_append
    rw [hmap, unquoteToBytes_byte, ih]

/-- bytes that belong to the last character are passed over -/
theorem decodeReplace_skip (bs rest : List UInt8) : decodeReplace bs.length (bs ++ rest) = decodeReplace 0 rest := by
  induction bs with
  | nil => rfl
  | cons b bs ih =>
    rw [List.cons_append, List.length_cons]
    exact ih

theorem decodeReplace_encode (s : List Char) : decodeReplace 0 (encode s) = s := by
  induction s with
  | nil => rfl
  | cons c s ih =>
    have hsplit : encode (c :: s) = String.utf8EncodeChar c ++ encode s := rfl
    have hchar : (encode (c :: s)).toByteArray.utf8DecodeChar? 0 = some c := by
      rw [hsplit, List.toByteArray_append]
      exact ByteArray.utf8DecodeChar?_utf8EncodeChar_append
    have hlength : (String.utf8EncodeChar c).length = c.utf8Size := String.length_utf8EncodeChar c
    cases hc : String.utf8EncodeChar c with
    | nil =>
      rw [hc] at hlength
      have := c.utf8Size_pos
      rw [← hlength] at this
      exact absurd this (Nat.lt_irrefl 0)
    | cons b bs =>
      rw [hsplit, hc] at hchar ⊢
      rw [hc, List.length_cons] at hlength
      show (match (b :: (bs ++ encode s)).toByteArray.utf8DecodeChar? 0 with
        | some c => c :: decodeReplace (c.utf8Size - 1) (bs ++ encode s)
        | none => _) = _
      rw [List.cons_append] at hchar
      rw [hchar]
      dsimp only
      rw [← hlength, Nat.add_sub_cancel, decodeReplace_skip, ih]

/-- an ASCII text is one run -/
theorem unquote_ascii {s : List Char} (h : ∀ c ∈ s, isAscii c = true) : unquote s = decodeReplace 0 (unquoteToBytes s) := by
  unfold unquote
  cases s with
  | nil => rfl
  | cons c s =>
    have hchain : (c :: s).IsChain (fun a b => (isAscii a == isAscii b) = true) := by
      refine List.Pairwise.isChain (List.pairwise_of_forall_mem_list (fun a ha b hb => ?_))
      rw [h a ha, h b hb]
      rfl
    rw [List.splitBy_of_isChain (List.cons_ne_nil _ _) hchain, List.flatMap_singleton,
      if_pos (List.all_eq_true.mpr h)]

/-- **A text is read back from its quoted form.** -/
theorem unquote_quotePlus (s : List Char) : unquote (plusToSpace (quotePlus s)) = s := by
  have hascii : ∀ c ∈ plusToSpace (quotePlus s), isAscii c = true := by
    intro c hc
    obtain ⟨d, hd, rfl⟩ := List.mem_map.mp hc
    split
    · rfl
    · rcases quotePlus_safe hd with hsafe | rfl | rfl
      · exact isAscii_of_isSafe hsafe
      · rfl
      · rfl
  rw [unquote_ascii hascii]
  unfold quotePlus
  rw [unquoteToBytes_quoted, decodeReplace_encode]

end Percent
