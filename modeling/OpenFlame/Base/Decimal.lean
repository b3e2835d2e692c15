import OpenFlame.Base.Text

/-!
# Decimal numerals

`padded width n`: `f"{n:0{width}d}"`.  A `Digits` is what the character database says of `\d` and
`str.isdigit`; of it only the ASCII digits are known.

`Digits.int_padded`: reading a numeral gives the number back.
-/

set_option linter.all false

namespace Text

/-- at least `width` digits -/
def padded (width n : Nat) : List Char :=
  List.replicate (width - (Nat.toDigits 10 n).length) '0' ++ Nat.toDigits 10 n

structure Digits where
  /-- the value of a character that `\d` matches -/
  value : Char → Option Nat
  /-- `str.isdigit` of one character -/
  isdigit : Char → Bool
  value_ascii : ∀ c, c.isDigit = true → value c = some (c.toNat - 48)
  isdigit_ascii : ∀ c, c.isDigit = true → isdigit c = true

/-- a database of ASCII -/
def Digits.ascii : Digits where
  value c := if c.isDigit then some (c.toNat - 48) else none
  isdigit c := c.isDigit
  value_ascii _ h := if_pos h
  isdigit_ascii _ h := h

section
variable (d : Digits) {n width : Nat} {s : List Char}

/-- every character matches `\d` -/
def Digits.all (s : List Char) : Bool := s.all (fun c => (d.value c).isSome)

/-- `int(s)` of such a text -/
def Digits.int (s : List Char) : Nat := s.foldl (fun n c => 10 * n + (d.value c).getD 0) 0

theorem padded_isDigit {c : Char} (h : c ∈ padded width n) : c.isDigit = true := by
  rcases List.mem_append.mp h with h | h
  · rw [List.eq_of_mem_replicate h]
    decide
  · exact Nat.isDigit_of_mem_toDigits (by decide) (by decide) h

theorem length_padded (hw : 0 < width) (h : n < 10 ^ width) : (padded width n).length = width := by
  have hle := (Nat.length_toDigits_le_iff (by decide) hw).mpr h
  unfold padded
  rw [List.length_append, List.length_replicate]
  omega

theorem length_padded_le {k : Nat} (hw : 0 < width) (hk : width ≤ k) (h : n < 10 ^ k) :
    width ≤ (padded width n).length ∧ (padded width n).length ≤ k := by
  have hle := (Nat.length_toDigits_le_iff (n := n) (by decide) (Nat.lt_of_lt_of_le hw hk)).mpr h
  unfold padded
  rw [List.length_append, List.length_replicate]
  omega

theorem padded_ne_nil (width n : Nat) : padded width n ≠ [] := by
  intro h
  exact Nat.toDigits_ne_nil (List.append_eq_nil_iff.mp h).2

theorem ofDigitChars_padded (width n : Nat) : Nat.ofDigitChars 10 (padded width n) 0 = n := by
  unfold padded
  rw [Nat.ofDigitChars_append, Nat.ofDigitChars_replicate_zero, Nat.mul_zero, Nat.ofDigitChars_ten_toDigits]

variable {d}

theorem Digits.all_of_isDigit (h : ∀ c ∈ s, c.isDigit = true) : d.all s = true := by
  refine List.all_eq_true.mpr (fun c hc => ?_)
  rw [d.value_ascii c (h c hc)]
  rfl

theorem Digits.int_of_isDigit (h : ∀ c ∈ s, c.isDigit = true) : d.int s = Nat.ofDigitChars 10 s 0 := by
  have hfold : ∀ k, s.foldl (fun n c => 10 * n + (d.value c).getD 0) k = Nat.ofDigitChars 10 s k := by
    induction s with
    | nil => exact fun _ => rfl
    | cons c s ih =>
      intro k
      rw [List.foldl_cons, Nat.ofDigitChars_cons, d.value_ascii c (h c List.mem_cons_self)]
      exact ih (fun c hc => h c (List.mem_cons_of_mem _ hc)) _
  exact hfold 0

theorem Digits.all_padded : d.all (padded width n) = true := Digits.all_of_isDigit (fun _ => padded_isDigit)

/-- **A numeral is read back.** -/
theorem Digits.int_padded : d.int (padded width n) = n := by
  rw [Digits.int_of_isDigit (fun _ => padded_isDigit), ofDigitChars_padded]

end

end Text
