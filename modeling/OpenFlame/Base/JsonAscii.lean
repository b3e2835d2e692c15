import OpenFlame.Base.Json

/-!
# JSON texts in ASCII

The compact writer that `ensure_ascii=True` gives: a character outside the printable ASCII ones is its `\u` escape, and
one beyond the first plane a pair of them.

`dumpsAscii v`       the text of a value
`asciiBody_length`   how long the body of a string becomes
`dumpsAscii_obj_length`  and how long the text of an object

`loads_dumpsAscii`: **a canonical value is read back from its text**; `dumpsAscii_printable`: its text is ASCII.
-/

set_option linter.all false

namespace Json

/-- `\u` and four hexadecimal digits -/
def unicodeEscaped (n : Nat) : List Char :=
  ['\\', 'u', Nat.digitChar (n / 4096 % 16), Nat.digitChar (n / 256 % 16), Nat.digitChar (n / 16 % 16),
    Nat.digitChar (n % 16)]

def asciiChar (c : Char) : List Char :=
  match escapes.lookup c with
  | some e => ['\\', e]
  | none =>
    let n := c.toNat
    if 32 ≤ n ∧ n ≤ 126 then [c]
    else if n < 0x10000 then unicodeEscaped n
    else unicodeEscaped (0xD800 + (n - 0x10000) / 0x400) ++ unicodeEscaped (0xDC00 + (n - 0x10000) % 0x400)

def asciiBody (s : List Char) : List Char := s.flatMap asciiChar

section
variable {F : Type} (fl : Floats F)

mutual

/-- `json.dumps(v, ensure_ascii=True, separators=(",", ":"), sort_keys=True)` -/
def dumpsAscii : Value F → List Char
  | .null => "null".toList
  | .bool true => "true".toList
  | .bool false => "false".toList
  | .int i => intText i
  | .float f => fl.repr f
  | .str s => '"' :: (asciiBody s ++ ['"'])
  | .arr vs => '[' :: (commas (dumpsAsciiList vs) ++ [']'])
  | .obj ms => '\x7b' :: (commas (dumpsAsciiMembers ms) ++ ['\x7d'])

def dumpsAsciiList : List (Value F) → List (List Char)
  | [] => []
  | v :: vs => dumpsAscii v :: dumpsAsciiList vs

def dumpsAsciiMembers : List (List Char × Value F) → List (List Char)
  | [] => []
  | (k, v) :: ms => ('"' :: (asciiBody k ++ '"' :: ':' :: dumpsAscii v)) :: dumpsAsciiMembers ms

end

mutual

/-- no NaN and no infinity, which `allow_nan=False` and `parse_constant` refuse -/
def noConstant : Value F → Bool
  | .float f => !([Constant.nan, .infinity, .negInfinity] : List Constant).any (fun k => k.name == fl.repr f)
  | .arr vs => noConstantList vs
  | .obj ms => noConstantMembers ms
  | .null | .bool _ | .int _ | .str _ => true

def noConstantList : List (Value F) → Bool
  | [] => true
  | v :: vs => noConstant v && noConstantList vs

def noConstantMembers : List (List Char × Value F) → Bool
  | [] => true
  | (_, v) :: ms => noConstant v && noConstantMembers ms

end

mutual

/-- a value without floats -/
def plain : Value F → Bool
  | .float _ => false
  | .arr vs => plainList vs
  | .obj ms => plainMembers ms
  | .null | .bool _ | .int _ | .str _ => true

def plainList : List (Value F) → Bool
  | [] => true
  | v :: vs => plain v && plainList vs

def plainMembers : List (List Char × Value F) → Bool
  | [] => true
  | (_, v) :: ms => plain v && plainMembers ms

end

variable {fl}

theorem plainList_eq (vs : List (Value F)) : plainList vs = vs.all plain := by
  induction vs with
  | nil => rw [plainList, List.all_nil]
  | cons v vs ih => rw [plainList, List.all_cons, ih]

theorem plainMembers_eq (ms : List (List Char × Value F)) : plainMembers ms = ms.all (fun m => plain m.2) := by
  induction ms with
  | nil => rw [plainMembers, List.all_nil]
  | cons m ms ih =>
    obtain ⟨k, v⟩ := m
    rw [plainMembers, List.all_cons, ih]

theorem noConstantList_eq (vs : List (Value F)) : noConstantList fl vs = vs.all (noConstant fl) := by
  induction vs with
  | nil => rw [noConstantList, List.all_nil]
  | cons v vs ih => rw [noConstantList, List.all_cons, ih]

theorem noConstantMembers_eq (ms : List (List Char × Value F)) :
    noConstantMembers fl ms = ms.all (fun m => noConstant fl m.2) := by
  induction ms with
  | nil => rw [noConstantMembers, List.all_nil]
  | cons m ms ih =>
    obtain ⟨k, v⟩ := m
    rw [noConstantMembers, List.all_cons, ih]

theorem dumpsAsciiList_eq (vs : List (Value F)) : dumpsAsciiList fl vs = vs.map (dumpsAscii fl) := by
  induction vs with
  | nil => rw [dumpsAsciiList, List.map_nil]
  | cons v vs ih => rw [dumpsAsciiList, List.map_cons, ih]

theorem dumpsAsciiMembers_eq (ms : List (List Char × Value F)) :
    dumpsAsciiMembers fl ms = ms.map (fun m => '"' :: (asciiBody m.1 ++ '"' :: ':' :: dumpsAscii fl m.2)) := by
  induction ms with
  | nil => rw [dumpsAsciiMembers, List.map_nil]
  | cons m ms ih =>
    obtain ⟨k, v⟩ := m
    rw [dumpsAsciiMembers, List.map_cons, ih]

end

/-! ## escapes are read back -/

theorem hexDigit_digitChar : ∀ d < 16, hexDigit (Nat.digitChar d) = some d := by decide

theorem hex4_unicodeEscaped {n : Nat} (h : n < 0x10000) (r : List Char) :
    hex4 ((unicodeEscaped n).drop 2 ++ r) = some (n, r) := by
  have hcons : ∀ a b c d : Char, hex4 (a :: b :: c :: d :: r) =
      (do return (16 * (16 * (16 * (← hexDigit a) + (← hexDigit b)) + (← hexDigit c)) + (← hexDigit d), r)) :=
    fun _ _ _ _ => rfl
  have hn : 16 * (16 * (16 * (n / 4096 % 16) + n / 256 % 16) + n / 16 % 16) + n % 16 = n := by omega
  show hex4 (Nat.digitChar _ :: Nat.digitChar _ :: Nat.digitChar _ :: Nat.digitChar _ :: r) = _
  rw [hcons, hexDigit_digitChar _ (Nat.mod_lt _ (by decide)), hexDigit_digitChar _ (Nat.mod_lt _ (by decide)),
    hexDigit_digitChar _ (Nat.mod_lt _ (by decide)), hexDigit_digitChar _ (Nat.mod_lt _ (by decide))]
  show some (16 * (16 * (16 * (n / 4096 % 16) + n / 256 % 16) + n / 16 % 16) + n % 16, r) = _
  rw [hn]

/-- a code point is no half of a surrogate pair -/
theorem toNat_cases (c : Char) : c.toNat < 0xD800 ∨ 0xE000 ≤ c.toNat ∧ c.toNat < 0x110000 := by
  rcases c.valid with h | ⟨h1, h2⟩
  · exact .inl h
  · exact .inr ⟨by have : 0xDFFF < c.toNat := h1; omega, h2⟩

theorem escape_unicode {c : Char} (h : c.toNat < 0x10000) (r : List Char) :
    escape ((unicodeEscaped c.toNat).drop 1 ++ r) = some (c, r) := by
  show unicodeEscape ((unicodeEscaped c.toNat).drop 2 ++ r) = _
  unfold unicodeEscape
  rw [hex4_unicodeEscaped h]
  show (if c.toNat < 0xD800 ∨ 0xE000 ≤ c.toNat then some (Char.ofNat c.toNat, r) else _) = _
  rw [if_pos (by have := toNat_cases c; omega), Char.ofNat_toNat]

theorem unicodeEscape_pair {u v : Nat} {t s r : List Char} (h1 : hex4 t = some (u, '\\' :: 'u' :: s))
    (h2 : hex4 s = some (v, r)) (hu : 0xD800 ≤ u ∧ u < 0xDC00) (hv : 0xDC00 ≤ v ∧ v < 0xE000) :
    unicodeEscape t = some (Char.ofNat (0x10000 + (u - 0xD800) * 0x400 + (v - 0xDC00)), r) := by
  have hsingle : ¬ (u < 0xD800 ∨ 0xE000 ≤ u) := by omega
  have hpair : u < 0xDC00 ∧ 0xDC00 ≤ v ∧ v < 0xE000 := ⟨hu.2, hv⟩
  simp only [unicodeEscape, h1, h2, Option.bind_eq_bind, Option.bind_some, if_neg hsingle, if_pos hpair]
  rfl

theorem escape_pair {c : Char} (h : 0x10000 ≤ c.toNat) (r : List Char) :
    escape ((unicodeEscaped (0xD800 + (c.toNat - 0x10000) / 0x400)).drop 1 ++
      (unicodeEscaped (0xDC00 + (c.toNat - 0x10000) % 0x400) ++ r)) = some (c, r) := by
  have hlt : c.toNat < 0x110000 := by
    have := toNat_cases c
    omega
  generalize hu : 0xD800 + (c.toNat - 0x10000) / 0x400 = u
  generalize hv : 0xDC00 + (c.toNat - 0x10000) % 0x400 = v
  have h1 : hex4 ((unicodeEscaped u).drop 2 ++ (unicodeEscaped v ++ r)) = some (u, unicodeEscaped v ++ r) :=
    hex4_unicodeEscaped (by omega) _
  have h2 : hex4 ((unicodeEscaped v).drop 2 ++ r) = some (v, r) := hex4_unicodeEscaped (by omega) r
  have hn : 0x10000 + (u - 0xD800) * 0x400 + (v - 0xDC00) = c.toNat := by omega
  show unicodeEscape ((unicodeEscaped u).drop 2 ++ (unicodeEscaped v ++ r)) = _
  rw [unicodeEscape_pair h1 h2 (by omega) (by omega), hn, Char.ofNat_toNat]

/-- an escape of any kind is read back as one character -/
theorem stringBody_escape {c : Char} {e r : List Char} (n : Nat) (h : escape (e ++ r) = some (c, r)) :
    stringBody (n + 1) ('\\' :: e ++ r) = (stringBody n r).map (fun x => (c :: x.1, x.2)) := by
  show ((escape (e ++ r)).bind fun x => (stringBody n x.2).bind fun y => some (x.1 :: y.1, y.2)) = _
  rw [h]
  show ((stringBody n r).bind fun y => some (c :: y.1, y.2)) = _
  cases stringBody n r <;> rfl

theorem stringBody_asciiChar (c : Char) (n : Nat) (r : List Char) :
    stringBody (n + 1) (asciiChar c ++ r) = (stringBody n r).map (fun x => (c :: x.1, x.2)) := by
  unfold asciiChar
  split
  · next e he =>
    have hc : asciiChar c = escapeChar c := by
      unfold asciiChar escapeChar
      rw [he]
    have := stringBody_escapeChar c n r
    rw [← hc] at this
    unfold asciiChar at this
    rw [he] at this
    exact this
  · next he =>
    have hne : c ≠ '"' ∧ c ≠ '\\' := by
      constructor <;> (rintro rfl; cases he)
    show stringBody (n + 1) ((if 32 ≤ c.toNat ∧ c.toNat ≤ 126 then [c] else if c.toNat < 0x10000 then _ else _) ++ r) = _
    split
    · next hprint =>
      show (if c = '"' then _ else if c = '\\' then _ else if c.toNat < 32 then _ else _) = _
      rw [if_neg hne.1, if_neg hne.2, if_neg (by omega)]
      show ((stringBody n r).bind fun y => some (c :: y.1, y.2)) = _
      cases stringBody n r <;> rfl
    · split
      · next hlt => exact stringBody_escape n (escape_unicode hlt r)
      · next hge =>
        rw [List.append_assoc]
        exact stringBody_escape (e := (unicodeEscaped _).drop 1 ++ unicodeEscaped _) n
          (by rw [List.append_assoc]; exact escape_pair (by omega) r)

theorem stringBody_asciiBody (s r : List Char) {n : Nat} (h : s.length < n) :
    stringBody n (asciiBody s ++ '"' :: r) = some (s, r) := by
  unfold asciiBody
  induction s generalizing n with
  | nil =>
    obtain ⟨k, rfl⟩ : ∃ k, n = k + 1 := ⟨n - 1, by simp at h; omega⟩
    rfl
  | cons c s ih =>
    obtain ⟨k, rfl⟩ : ∃ k, n = k + 1 := ⟨n - 1, by simp at h; omega⟩
    rw [List.flatMap_cons, List.append_assoc, stringBody_asciiChar, ih (by simpa using h)]
    rfl

/-! ## lengths -/

/-- how many characters a character becomes -/
def asciiWidth (c : Char) : Nat :=
  if (escapes.lookup c).isSome then 2 else if 32 ≤ c.toNat ∧ c.toNat ≤ 126 then 1 else if c.toNat < 0x10000 then 6 else 12

theorem asciiChar_length (c : Char) : (asciiChar c).length = asciiWidth c := by
  unfold asciiChar asciiWidth
  cases he : escapes.lookup c with
  | some e => rfl
  | none =>
    show (if 32 ≤ c.toNat ∧ c.toNat ≤ 126 then [c] else if c.toNat < 0x10000 then _ else _ : List Char).length =
      if 32 ≤ c.toNat ∧ c.toNat ≤ 126 then 1 else if c.toNat < 0x10000 then 6 else 12
    split
    · rfl
    · split <;> rfl

theorem asciiWidth_pos (c : Char) : 1 ≤ asciiWidth c := by
  unfold asciiWidth
  split
  · decide
  · split
    · decide
    · split <;> decide

theorem asciiBody_length (s : List Char) : (asciiBody s).length = (s.map asciiWidth).sum := by
  unfold asciiBody
  induction s with
  | nil => rfl
  | cons c s ih => rw [List.flatMap_cons, List.length_append, ih, asciiChar_length, List.map_cons, List.sum_cons]

theorem length_asciiBody (s : List Char) : s.length ≤ (asciiBody s).length := by
  rw [asciiBody_length]
  induction s with
  | nil => exact Nat.le_refl 0
  | cons c s ih =>
    rw [List.map_cons, List.sum_cons, List.length_cons]
    have := asciiWidth_pos c
    omega

section
variable {F : Type} {fl : Floats F}

/-- the length of the body of a string -/
def escapedLength (s : List Char) : Nat := (s.map asciiWidth).sum

theorem commas_length (ss : List (List Char)) : (commas ss).length = (ss.map List.length).sum + (ss.length - 1) := by
  fun_induction commas ss with
  | case1 => rfl
  | case2 s => rfl
  | case3 s t ss ih =>
    rw [List.length_append, List.length_cons, ih]
    simp only [List.map_cons, List.sum_cons, List.length_cons]
    omega

theorem dumpsAscii_str_length (s : List Char) : (dumpsAscii fl (.str s)).length = escapedLength s + 2 := by
  show ('"' :: (asciiBody s ++ ['"'])).length = _
  rw [List.length_cons, List.length_append, asciiBody_length]
  rfl

theorem dumpsAscii_arr_length (vs : List (Value F)) :
    (dumpsAscii fl (.arr vs)).length = (vs.map (fun v => (dumpsAscii fl v).length)).sum + (vs.length - 1) + 2 := by
  show ('[' :: (commas (dumpsAsciiList fl vs) ++ [']'])).length = _
  rw [List.length_cons, List.length_append, commas_length, dumpsAsciiList_eq, List.map_map, List.length_map]
  rfl

theorem dumpsAscii_obj_length (ms : List (List Char × Value F)) :
    (dumpsAscii fl (.obj ms)).length =
      (ms.map (fun m => escapedLength m.1 + 3 + (dumpsAscii fl m.2).length)).sum + (ms.length - 1) + 2 := by
  have hmember : ∀ m : List Char × Value F, ('"' :: (asciiBody m.1 ++ '"' :: ':' :: dumpsAscii fl m.2)).length =
      escapedLength m.1 + 3 + (dumpsAscii fl m.2).length := by
    intro m
    rw [List.length_cons, List.length_append, asciiBody_length, List.length_cons, List.length_cons]
    unfold escapedLength
    omega
  show ('\x7b' :: (commas (dumpsAsciiMembers fl ms) ++ ['\x7d'])).length = _
  rw [List.length_cons, List.length_append, commas_length, dumpsAsciiMembers_eq, List.map_map, List.length_map]
  have hmap : (List.length ∘ fun m : List Char × Value F => '"' :: (asciiBody m.1 ++ '"' :: ':' :: dumpsAscii fl m.2)) =
      fun m => escapedLength m.1 + 3 + (dumpsAscii fl m.2).length := funext hmember
  rw [hmap]
  rfl

end

/-! ## what the text is made of -/

/-- a printable ASCII character -/
def isPrintable (c : Char) : Bool := decide (32 ≤ c.toNat ∧ c.toNat ≤ 126)

theorem digitChar_printable : ∀ d < 16, isPrintable (Nat.digitChar d) = true := by decide

theorem unicodeEscaped_printable (n : Nat) : (unicodeEscaped n).all isPrintable = true := by
  have h : ∀ m : Nat, isPrintable (Nat.digitChar (m % 16)) = true := fun m => digitChar_printable _ (Nat.mod_lt _ (by decide))
  simp only [unicodeEscaped, List.all_cons, List.all_nil, h, Bool.and_true]
  decide

theorem asciiChar_printable (c : Char) : (asciiChar c).all isPrintable = true := by
  unfold asciiChar
  split
  · next e he =>
    obtain ⟨l₁, l₂, hl, -⟩ := List.lookup_eq_some_iff.mp he
    have hall : ∀ x ∈ escapes, isPrintable x.2 = true := by decide
    have he : isPrintable e = true := hall (c, e) (by rw [hl]; exact List.mem_append_right _ List.mem_cons_self)
    simp only [List.all_cons, List.all_nil, he, Bool.and_true]
    decide
  · show (if 32 ≤ c.toNat ∧ c.toNat ≤ 126 then [c] else if c.toNat < 0x10000 then _ else _ : List Char).all _ = true
    split
    · next h => simp only [List.all_cons, List.all_nil, isPrintable, decide_eq_true h, Bool.and_true]
    · split
      · exact unicodeEscaped_printable _
      · rw [List.all_append, unicodeEscaped_printable, unicodeEscaped_printable]
        rfl

theorem asciiBody_printable (s : List Char) : (asciiBody s).all isPrintable = true := by
  unfold asciiBody
  induction s with
  | nil => rfl
  | cons c s ih => rw [List.flatMap_cons, List.all_append, ih, asciiChar_printable, Bool.and_true]

theorem intText_printable (i : Int) : (intText i).all isPrintable = true := by
  have hdigits : ∀ n : Nat, (Nat.toDigits 10 n).all isPrintable = true := by
    intro n
    refine List.all_eq_true.mpr (fun c hc => ?_)
    have hd := digits_isDigit c hc
    simp only [Char.isDigit, Bool.and_eq_true, decide_eq_true_eq] at hd
    have h1 : 48 ≤ c.toNat := hd.1
    have h2 : c.toNat ≤ 57 := hd.2
    exact decide_eq_true ⟨by omega, by omega⟩
  cases i with
  | ofNat n => exact hdigits n
  | negSucc n =>
    show ('-' :: Nat.toDigits 10 (n + 1)).all isPrintable = true
    rw [List.all_cons, hdigits]
    decide

theorem commas_printable {ss : List (List Char)} (h : ∀ s ∈ ss, s.all isPrintable = true) :
    (commas ss).all isPrintable = true := by
  induction ss with
  | nil => rfl
  | cons s ss ih =>
    have hs := h s List.mem_cons_self
    have hss := ih (fun t ht => h t (List.mem_cons_of_mem _ ht))
    by_cases hne : ss = []
    · rw [hne]
      exact hs
    · rw [commas_cons s hne, List.all_append, hs, List.all_cons, hss]
      decide

section
variable {F : Type} (fl : Floats F)

/-- the text of a value without floats is printable ASCII -/
theorem dumpsAscii_printable {v : Value F} (hv : Canonical v) (hp : plain v = true) :
    (dumpsAscii fl v).all isPrintable = true := by
  induction hv with
  | null => rfl
  | bool b => cases b <;> rfl
  | int i =>
    rw [dumpsAscii]
    exact intText_printable i
  | float f => cases hp
  | str s =>
    rw [dumpsAscii, List.all_cons, List.all_append, asciiBody_printable]
    decide
  | @arr vs h ih =>
    rw [plain, plainList_eq] at hp
    have hall := List.all_eq_true.mp hp
    rw [dumpsAscii, dumpsAsciiList_eq, List.all_cons, List.all_append, commas_printable (fun s hs => ?_)]
    · decide
    · obtain ⟨v, hv, rfl⟩ := List.mem_map.mp hs
      exact ih v hv (hall v hv)
  | @obj ms hs h ih =>
    rw [plain, plainMembers_eq] at hp
    have hall := List.all_eq_true.mp hp
    rw [dumpsAscii, dumpsAsciiMembers_eq, List.all_cons, List.all_append, commas_printable (fun s hs => ?_)]
    · decide
    · obtain ⟨m, hm, rfl⟩ := List.mem_map.mp hs
      rw [List.all_cons, List.all_append, asciiBody_printable, List.all_cons, List.all_cons, ih m hm (hall m hm)]
      decide

/-- a value without floats has no constant -/
theorem noConstant_of_plain {v : Value F} (hv : Canonical v) (hp : plain v = true) : noConstant fl v = true := by
  induction hv with
  | null => rfl
  | bool b => rfl
  | int i => rfl
  | float f => cases hp
  | str s => rfl
  | @arr vs h ih =>
    rw [plain, plainList_eq] at hp
    rw [noConstant, noConstantList_eq]
    exact List.all_eq_true.mpr (fun v hv => ih v hv (List.all_eq_true.mp hp v hv))
  | @obj ms hs h ih =>
    rw [plain, plainMembers_eq] at hp
    rw [noConstant, noConstantMembers_eq]
    exact List.all_eq_true.mpr (fun m hm => ih m hm (List.all_eq_true.mp hp m hm))

end

/-! ## the whole -/

section
variable {F : Type} (fl : Floats F)

theorem writes_dumpsAscii : Writes fl (dumpsAscii fl) asciiBody where
  scalar v hv := by
    cases v with
    | null => rfl
    | bool b => cases b <;> rfl
    | int i => rfl
    | float f => rfl
    | str s => cases hv
    | arr vs => cases hv
    | obj ms => cases hv
  str s := by rw [dumpsAscii]
  arr vs := by rw [dumpsAscii, dumpsAsciiList_eq]
  obj ms := by rw [dumpsAscii, dumpsAsciiMembers_eq]
  read s r _ h := stringBody_asciiBody s r h
  length := length_asciiBody

/-- **A canonical value is the value of its ASCII text.** -/
theorem loads_dumpsAscii {v : Value F} (hv : Canonical v) : loads fl (dumpsAscii fl v) = some v :=
  (writes_dumpsAscii fl).loads hv

/-- different values have different texts -/
theorem dumpsAscii_inj {v w : Value F} (hv : Canonical v) (hw : Canonical w) (h : dumpsAscii fl v = dumpsAscii fl w) :
    v = w := by
  have := loads_dumpsAscii fl hv
  rw [h, loads_dumpsAscii fl hw] at this
  exact (Option.some.inj this).symm

end

end Json

