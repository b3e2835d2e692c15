import OpenFlame.Base.Text

/-!
# JSON texts

Values with key-sorted objects, the compact writer that `sort_keys=True` and `ensure_ascii=False` give, and a
reader of the whole grammar.  Floats come with a `Floats`; a `\u` escape of half a surrogate pair is not read.

`dumps v`   the text of a value
`loads s`   the value of a text; a key that comes twice keeps its last value

`loads_dumps`: **a canonical value is read back from its text.**
-/

set_option linter.all false

namespace Json

/-! ## values -/

inductive Value (F : Type) where
  | null
  | bool (b : Bool)
  | int (i : Int)
  | float (f : F)
  | str (s : List Char)
  | arr (vs : List (Value F))
  | obj (members : List (List Char × Value F))

/-- the order of keys, by code points -/
def before : List Char → List Char → Bool
  | _, [] => false
  | [], _ :: _ => true
  | a :: s, b :: t => decide (a.toNat < b.toNat) || (a == b && before s t)

section
variable {F : Type}

/-- `members[key] = v` -/
def insert (key : List Char) (v : Value F) : List (List Char × Value F) → List (List Char × Value F)
  | [] => [(key, v)]
  | (k, w) :: ms =>
    if key = k then (key, v) :: ms
    else if before key k = true then (key, v) :: (k, w) :: ms
    else (k, w) :: insert key v ms

/-- an object of members in any order -/
def dict (ms : List (List Char × Value F)) : List (List Char × Value F) :=
  ms.foldl (fun done m => insert m.1 m.2 done) []

/-- keys of an object are in order, none twice -/
def Sorted (ms : List (List Char × Value F)) : Prop := ms.Pairwise (fun a b => before a.1 b.1 = true)

/-- `members.get(key, default)` -/
def getOr (ms : List (List Char × Value F)) (key : String) (default : Value F) : Value F :=
  (ms.lookup key.toList).getD default

/-- `members.get(key)` -/
def get (ms : List (List Char × Value F)) (key : String) : Value F := getOr ms key .null

def keys (ms : List (List Char × Value F)) : List (List Char) := ms.map Prod.fst

/-- every required name is a key, and every key an allowed name -/
def HasKeys (ms : List (List Char × Value F)) (required allowed : List String) : Prop :=
  (∀ n ∈ required, n.toList ∈ keys ms) ∧ ∀ k ∈ keys ms, k ∈ allowed.map String.toList

instance (ms : List (List Char × Value F)) (required allowed : List String) : Decidable (HasKeys ms required allowed) :=
  inferInstanceAs (Decidable (_ ∧ _))

/-- members under names -/
def record (ms : List (String × Value F)) : List (List Char × Value F) := ms.map (fun m => (m.1.toList, m.2))

/-- a value whose objects are all sorted -/
inductive Canonical : Value F → Prop where
  | null : Canonical .null
  | bool (b : Bool) : Canonical (.bool b)
  | int (i : Int) : Canonical (.int i)
  | float (f : F) : Canonical (.float f)
  | str (s : List Char) : Canonical (.str s)
  | arr {vs : List (Value F)} (h : ∀ v ∈ vs, Canonical v) : Canonical (.arr vs)
  | obj {ms : List (List Char × Value F)} (hs : Sorted ms) (h : ∀ m ∈ ms, Canonical m.2) : Canonical (.obj ms)

/-- whether an object is sorted is told by its keys -/
theorem sorted_iff {ms : List (List Char × Value F)} :
    Sorted ms ↔ (keys ms).Pairwise (fun a b => before a b = true) := by
  unfold Sorted keys
  rw [List.pairwise_map]

theorem getOr_record (ms : List (String × Value F)) (key : String) (default : Value F) :
    getOr (record ms) key default = (ms.lookup key).getD default := by
  have hlookup : (record ms).lookup key.toList = ms.lookup key := by
    induction ms with
    | nil => rfl
    | cons m ms ih =>
      show List.lookup key.toList ((m.1.toList, m.2) :: record ms) = _
      rw [List.lookup_cons, List.lookup_cons, ih]
      by_cases hk : key = m.1
      · subst hk
        rw [beq_self_eq_true, beq_self_eq_true]
      · have hne : key.toList ≠ m.1.toList := fun e => hk (String.toList_inj.mp e)
        rw [beq_eq_false_iff_ne.mpr hk, beq_eq_false_iff_ne.mpr hne]
  unfold getOr
  rw [hlookup]

theorem get_record (ms : List (String × Value F)) (key : String) :
    get (record ms) key = (ms.lookup key).getD .null := getOr_record ms key .null

theorem keys_record (ms : List (String × Value F)) : keys (record ms) = (ms.map Prod.fst).map String.toList := by
  unfold keys record
  rw [List.map_map, List.map_map]
  rfl

theorem hasKeys_record (found : List String) {ms : List (String × Value F)} {required allowed : List String}
    (h : ms.map Prod.fst = found) :
    HasKeys (record ms) required allowed ↔ (∀ n ∈ required, n ∈ found) ∧ ∀ k ∈ found, k ∈ allowed := by
  have hmem : ∀ (k : String) (ks : List String), k.toList ∈ ks.map String.toList ↔ k ∈ ks := by
    intro k ks
    constructor
    · intro h
      obtain ⟨k', hk', e⟩ := List.mem_map.mp h
      rwa [← String.toList_inj.mp e]
    · exact List.mem_map_of_mem
  unfold HasKeys
  rw [keys_record, h]
  constructor
  · rintro ⟨h1, h2⟩
    exact ⟨fun n hn => (hmem n _).mp (h1 n hn), fun k hk => (hmem k _).mp (h2 _ (List.mem_map_of_mem hk))⟩
  · rintro ⟨h1, h2⟩
    refine ⟨fun n hn => (hmem n _).mpr (h1 n hn), fun k hk => ?_⟩
    obtain ⟨k', hk', rfl⟩ := List.mem_map.mp hk
    exact (hmem k' _).mpr (h2 k' hk')

/-- a record is canonical when its names are in order and its values canonical -/
theorem canonical_record (found : List String) {ms : List (String × Value F)} (hf : ms.map Prod.fst = found)
    (hs : (found.map String.toList).Pairwise (fun a b => before a b = true)) (h : ∀ m ∈ ms, Canonical m.2) :
    Canonical (.obj (record ms)) := by
  refine .obj ?_ (fun m hm => ?_)
  · rw [sorted_iff, keys_record, hf]
    exact hs
  · obtain ⟨x, hx, rfl⟩ := List.mem_map.mp hm
    exact h x hx

/-- what an object has under a key is canonical -/
theorem Canonical.get {ms : List (List Char × Value F)} (h : Canonical (.obj ms)) (key : String) : Canonical (get ms key) := by
  unfold Json.get getOr
  cases hl : ms.lookup key.toList with
  | none => exact .null
  | some v =>
    have hmem : (key.toList, v) ∈ ms := by
      obtain ⟨before, after, rfl, -⟩ := List.lookup_eq_some_iff.mp hl
      exact List.mem_append_right _ List.mem_cons_self
    cases h with
    | obj _ hms => exact hms _ hmem

/-- the elements of a canonical array -/
theorem Canonical.of_mem {vs : List (Value F)} (h : Canonical (.arr vs)) {v : Value F} (hv : v ∈ vs) : Canonical v := by
  cases h with
  | arr hvs => exact hvs v hv

theorem before_asymm {s t : List Char} (h : before s t = true) : before t s = false ∧ s ≠ t := by
  induction s generalizing t with
  | nil =>
    cases t with
    | nil => cases h
    | cons b t => exact ⟨rfl, nofun⟩
  | cons a s ih =>
    cases t with
    | nil => cases h
    | cons b t =>
      simp only [before, Bool.or_eq_true, decide_eq_true_eq, Bool.and_eq_true, beq_iff_eq] at h
      rcases h with h | ⟨rfl, h⟩
      · have hne : a ≠ b := by
          rintro rfl
          omega
        refine ⟨?_, fun e => hne (List.cons.inj e).1⟩
        simp only [before, Bool.or_eq_false_iff, decide_eq_false_iff_not, Bool.and_eq_false_iff,
          beq_eq_false_iff_ne]
        exact ⟨by omega, .inl hne.symm⟩
      · obtain ⟨h1, h2⟩ := ih h
        refine ⟨?_, fun e => h2 (List.cons.inj e).2⟩
        simp only [before, Bool.or_eq_false_iff, decide_eq_false_iff_not, Bool.and_eq_false_iff]
        exact ⟨by omega, .inr h1⟩

/-- a key after all others comes last -/
theorem insert_last {key : List Char} {v : Value F} {ms : List (List Char × Value F)}
    (h : ∀ m ∈ ms, before m.1 key = true) : insert key v ms = ms ++ [(key, v)] := by
  induction ms with
  | nil => rfl
  | cons m ms ih =>
    obtain ⟨h1, h2⟩ := before_asymm (h m List.mem_cons_self)
    obtain ⟨k, w⟩ := m
    show insert key v ((k, w) :: ms) = _
    rw [insert, if_neg h2.symm, if_neg (by rw [h1]; exact Bool.false_ne_true),
      ih (fun m hm => h m (List.mem_cons_of_mem _ hm))]
    rfl

/-- the keys do not tell what is stored under them -/
theorem keys_insert (key : List Char) (v w : Value F) (ms : List (List Char × Value F)) :
    keys (insert key v ms) = keys (insert key w ms) := by
  induction ms with
  | nil => rfl
  | cons m ms ih =>
    obtain ⟨k, x⟩ := m
    by_cases hk : key = k
    · rw [insert, insert, if_pos hk, if_pos hk]
      rfl
    · rw [insert, insert, if_neg hk, if_neg hk]
      by_cases hb : before key k = true
      · rw [if_pos hb, if_pos hb]
        rfl
      · rw [if_neg hb, if_neg hb]
        exact congrArg (k :: ·) ih

theorem lookup_insert_self (key : List Char) (v : Value F) (ms : List (List Char × Value F)) :
    (insert key v ms).lookup key = some v := by
  induction ms with
  | nil => rw [insert, List.lookup_cons_self]
  | cons m ms ih =>
    obtain ⟨k, x⟩ := m
    rw [insert]
    by_cases hk : key = k
    · rw [if_pos hk, List.lookup_cons_self]
    · rw [if_neg hk]
      by_cases hb : before key k = true
      · rw [if_pos hb, List.lookup_cons_self]
      · rw [if_neg hb, List.lookup_cons, beq_eq_false_iff_ne.mpr hk]
        exact ih

theorem lookup_insert_ne {key other : List Char} (h : other ≠ key) (v : Value F) (ms : List (List Char × Value F)) :
    (insert key v ms).lookup other = ms.lookup other := by
  have hskip : ∀ rest : List (List Char × Value F), ((key, v) :: rest).lookup other = rest.lookup other := by
    intro rest
    rw [List.lookup_cons, beq_eq_false_iff_ne.mpr h]
  induction ms with
  | nil => exact hskip []
  | cons m ms ih =>
    obtain ⟨k, x⟩ := m
    rw [insert]
    by_cases hk : key = k
    · rw [if_pos hk, hskip, List.lookup_cons, beq_eq_false_iff_ne.mpr (hk ▸ h)]
    · rw [if_neg hk]
      by_cases hb : before key k = true
      · rw [if_pos hb, hskip]
      · rw [if_neg hb, List.lookup_cons, List.lookup_cons, ih]

theorem mem_keys_insert {key k : List Char} {v : Value F} {ms : List (List Char × Value F)} :
    k ∈ keys (insert key v ms) ↔ k = key ∨ k ∈ keys ms := by
  induction ms with
  | nil => exact List.mem_cons
  | cons m ms ih =>
    obtain ⟨l, x⟩ := m
    rw [insert]
    by_cases hk : key = l
    · rw [if_pos hk, hk]
      show k ∈ l :: keys ms ↔ k = l ∨ k ∈ l :: keys ms
      rw [List.mem_cons]
      exact ⟨.inr, fun h => h.elim .inl id⟩
    · rw [if_neg hk]
      by_cases hb : before key l = true
      · rw [if_pos hb]
        exact List.mem_cons
      · rw [if_neg hb]
        show k ∈ l :: keys (insert key v ms) ↔ k = key ∨ k ∈ l :: keys ms
        rw [List.mem_cons, ih, List.mem_cons]
        exact or_left_comm

theorem mem_insert {key : List Char} {v : Value F} {ms : List (List Char × Value F)} {m : List Char × Value F}
    (h : m ∈ insert key v ms) : m = (key, v) ∨ m ∈ ms := by
  induction ms with
  | nil => exact .inl (List.mem_singleton.mp h)
  | cons x ms ih =>
    obtain ⟨l, w⟩ := x
    rw [insert] at h
    split at h
    · exact (List.mem_cons.mp h).imp id (List.mem_cons_of_mem _)
    · split at h
      · exact List.mem_cons.mp h
      · rcases List.mem_cons.mp h with h | h
        · exact .inr (h ▸ List.mem_cons_self)
        · exact (ih h).imp id (List.mem_cons_of_mem _)

/-- a key that is there, after smaller ones, gets the new value -/
theorem insert_record {key : String} {v w : Value F} {front rest : List (String × Value F)}
    (h : ∀ n ∈ front.map Prod.fst, before n.toList key.toList = true) :
    insert key.toList v (record (front ++ (key, w) :: rest)) = record (front ++ (key, v) :: rest) := by
  induction front with
  | nil =>
    show insert key.toList v ((key.toList, w) :: record rest) = _
    rw [insert, if_pos rfl]
    rfl
  | cons m front ih =>
    obtain ⟨h1, h2⟩ := before_asymm (h m.1 List.mem_cons_self)
    show insert key.toList v ((m.1.toList, m.2) :: record (front ++ (key, w) :: rest)) = _
    rw [insert, if_neg h2.symm, if_neg (by rw [h1]; exact Bool.false_ne_true),
      ih (fun n hn => h n (List.mem_cons_of_mem _ hn))]
    rfl

/-- the value under a key of a sorted object -/
theorem Sorted.lookup {ms : List (List Char × Value F)} (h : Sorted ms) {m : List Char × Value F} (hm : m ∈ ms) :
    ms.lookup m.1 = some m.2 := by
  induction ms with
  | nil => cases hm
  | cons x ms ih =>
    obtain ⟨hx, hrest⟩ := List.pairwise_cons.mp h
    rcases List.mem_cons.mp hm with rfl | hm
    · exact List.lookup_cons_self
    · have hne : m.1 ≠ x.1 := (before_asymm (hx m hm)).2.symm
      rw [List.lookup_cons, beq_eq_false_iff_ne.mpr hne]
      exact ih hrest hm

theorem dict_of_sorted {ms : List (List Char × Value F)} (h : Sorted ms) : dict ms = ms := by
  have hfold : ∀ done, Sorted (done ++ ms) → ms.foldl (fun done m => insert m.1 m.2 done) done = done ++ ms := by
    clear h
    induction ms with
    | nil => exact fun done _ => (List.append_nil done).symm
    | cons m ms ih =>
      intro done hs
      rw [List.foldl_cons, insert_last (fun x hx => ?_)]
      · rw [ih _ (by rw [List.append_assoc]; exact hs), List.append_assoc]
        rfl
      · exact (List.pairwise_append.mp hs).2.2 x hx m List.mem_cons_self
  exact hfold [] h

end

/-! ## numbers -/

/-- the names of the floats that are no numbers -/
inductive Constant where
  | nan | infinity | negInfinity

def Constant.name : Constant → List Char
  | .nan => "NaN".toList
  | .infinity => "Infinity".toList
  | .negInfinity => "-Infinity".toList

/-- one of the characters at the start of a text -/
def sign (signs : List Char) : List Char → List Char × List Char
  | [] => ([], [])
  | c :: s => if c ∈ signs then ([c], s) else ([], c :: s)

/-- `-?(?:0|[1-9]\d*)` -/
def integerPart (s : List Char) : Option (List Char × List Char) :=
  let (m, t) := sign ['-'] s
  if t.head? = some '0' then some (m ++ ['0'], t.tail)
  else if t.takeWhile Char.isDigit = [] then none
  else some (m ++ t.takeWhile Char.isDigit, t.dropWhile Char.isDigit)

/-- `(\.\d+)?` -/
def fraction (s : List Char) : List Char × List Char :=
  let (p, t) := sign ['.'] s
  if p ≠ [] ∧ t.takeWhile Char.isDigit ≠ [] then (p ++ t.takeWhile Char.isDigit, t.dropWhile Char.isDigit)
  else ([], s)

/-- `([eE][-+]?\d+)?` -/
def exponent (s : List Char) : List Char × List Char :=
  let (e, t) := sign ['e', 'E'] s
  let (m, t) := sign ['-', '+'] t
  if e ≠ [] ∧ t.takeWhile Char.isDigit ≠ [] then (e ++ m ++ t.takeWhile Char.isDigit, t.dropWhile Char.isDigit)
  else ([], s)

/-- the integer part of a number, what follows in it, and the rest of the text -/
def number (s : List Char) : Option (List Char × List Char × List Char) := do
  let (i, s) ← integerPart s
  let (f, s) := fraction s
  let (e, s) := exponent s
  return (i, f ++ e, s)

/-- `float` and `repr` -/
structure Floats (F : Type) where
  parse : List Char → F
  repr : F → List Char
  constant : Constant → F
  /-- `f == n` -/
  equals : F → Int → Bool
  reads : ∀ f, (∃ k, f = constant k ∧ repr f = k.name) ∨
    ∃ i e, number (repr f) = some (i, e, []) ∧ e ≠ [] ∧ repr f = i ++ e ∧ parse (repr f) = f

/-- one float, which is written as `NaN`, is read back -/
theorem reads_nan (f : Unit) : (∃ k : Constant, f = () ∧ "NaN".toList = k.name) ∨
    ∃ i e, number "NaN".toList = some (i, e, []) ∧ e ≠ [] ∧ "NaN".toList = i ++ e ∧ () = f :=
  .inl ⟨.nan, rfl, rfl⟩

def intText : Int → List Char
  | .ofNat n => Nat.toDigits 10 n
  | .negSucc n => '-' :: Nat.toDigits 10 (n + 1)

def intOf (s : List Char) : Int :=
  match sign ['-'] s with
  | ([], t) => Nat.ofDigitChars 10 t 0
  | (_, t) => -(Nat.ofDigitChars 10 t 0 : Int)

/-! ## writing -/

/-- characters with an escape of their own -/
def escapes : List (Char × Char) :=
  [('"', '"'), ('\\', '\\'), ('\x08', 'b'), ('\x0c', 'f'), ('\n', 'n'), ('\r', 'r'), ('\t', 't')]

def escapeChar (c : Char) : List Char :=
  match escapes.lookup c with
  | some e => ['\\', e]
  | none =>
    if c.toNat < 32 then ['\\', 'u', '0', '0', Nat.digitChar (c.toNat / 16), Nat.digitChar (c.toNat % 16)] else [c]

def quoted (s : List Char) : List Char := '"' :: (s.flatMap escapeChar ++ ['"'])

def commas : List (List Char) → List Char
  | [] => []
  | [s] => s
  | s :: t :: ss => s ++ ',' :: commas (t :: ss)

section
variable {F : Type} (fl : Floats F)

mutual

/-- `json.dumps(v, ensure_ascii=False, separators=(",", ":"), sort_keys=True)` -/
def dumps : Value F → List Char
  | .null => "null".toList
  | .bool true => "true".toList
  | .bool false => "false".toList
  | .int i => intText i
  | .float f => fl.repr f
  | .str s => quoted s
  | .arr vs => '[' :: (commas (dumpsList vs) ++ [']'])
  | .obj ms => '\x7b' :: (commas (dumpsMembers ms) ++ ['\x7d'])

def dumpsList : List (Value F) → List (List Char)
  | [] => []
  | v :: vs => dumps v :: dumpsList vs

def dumpsMembers : List (List Char × Value F) → List (List Char)
  | [] => []
  | (k, v) :: ms => (quoted k ++ ':' :: dumps v) :: dumpsMembers ms

end

/-! ## reading -/

/-- white space between tokens -/
def isWs (c : Char) : Bool := c == ' ' || c == '\t' || c == '\n' || c == '\r'

def skip (s : List Char) : List Char := s.dropWhile isWs

def hexDigit (c : Char) : Option Nat :=
  if '0' ≤ c ∧ c ≤ '9' then some (c.toNat - 48)
  else if 'a' ≤ c ∧ c ≤ 'f' then some (c.toNat - 87)
  else if 'A' ≤ c ∧ c ≤ 'F' then some (c.toNat - 55)
  else none

def hex4 : List Char → Option (Nat × List Char)
  | a :: b :: c :: d :: s => do
    return (16 * (16 * (16 * (← hexDigit a) + (← hexDigit b)) + (← hexDigit c)) + (← hexDigit d), s)
  | _ => none

/-- after `\u` -/
def unicodeEscape (s : List Char) : Option (Char × List Char) := do
  let (u, s) ← hex4 s
  if u < 0xD800 ∨ 0xE000 ≤ u then return (Char.ofNat u, s)
  else
    match s with
    | '\\' :: 'u' :: s => do
      let (v, s) ← hex4 s
      if u < 0xDC00 ∧ 0xDC00 ≤ v ∧ v < 0xE000 then
        return (Char.ofNat (0x10000 + (u - 0xD800) * 0x400 + (v - 0xDC00)), s)
      else none
    | _ => none

/-- after a backslash -/
def escape : List Char → Option (Char × List Char)
  | [] => none
  | c :: s =>
    if c = 'u' then unicodeEscape s
    else (('/', '/') :: escapes.map Prod.swap).lookup c |>.map (fun d => (d, s))

/-- after the opening quote -/
def stringBody : Nat → List Char → Option (List Char × List Char)
  | 0, _ => none
  | _ + 1, [] => none
  | n + 1, c :: s =>
    if c = '"' then some ([], s)
    else if c = '\\' then do
      let (d, s) ← escape s
      let (t, s) ← stringBody n s
      return (d :: t, s)
    else if c.toNat < 32 then none
    else do
      let (t, s) ← stringBody n s
      return (c :: t, s)

def keywords : List (List Char × Value F) :=
  [("null".toList, .null), ("true".toList, .bool true), ("false".toList, .bool false)] ++
    [Constant.nan, .infinity, .negInfinity].map (fun k => (k.name, .float (fl.constant k)))

def scalar (s : List Char) : Option (Value F × List Char) :=
  match number s with
  | some (i, [], s) => some (.int (intOf i), s)
  | some (i, e, s) => some (.float (fl.parse (i ++ e)), s)
  | none =>
    (keywords fl).findSome? (fun k => if k.1.isPrefixOf s then some (k.2, s.drop k.1.length) else none)

/-- what stands between a bracket that is open and `close`, when something does -/
def items {α : Type} (item : List Char → Option (α × List Char)) (close : Char) :
    Nat → List Char → Option (List α × List Char)
  | 0, _ => none
  | n + 1, s => do
    let (x, s) ← item s
    match skip s with
    | [] => none
    | c :: s =>
      if c = ',' then do
        let (xs, s) ← items item close n s
        return (x :: xs, s)
      else if c = close then return ([x], s)
      else none

/-- what stands between a bracket that is open and `close` -/
def sequence {α : Type} (item : List Char → Option (α × List Char)) (close : Char) (s : List Char) :
    Option (List α × List Char) :=
  if (skip s).head? = some close then some ([], (skip s).tail) else items item close ((skip s).length + 1) (skip s)

/-- a key and its value -/
def member (value : List Char → Option (Value F × List Char)) (s : List Char) :
    Option ((List Char × Value F) × List Char) :=
  match skip s with
  | '"' :: s => do
    let (k, s) ← stringBody (s.length + 1) s
    match skip s with
    | ':' :: s => do
      let (v, s) ← value s
      return ((k, v), s)
    | _ => none
  | _ => none

/-- the value at the start of a text, nested less than `n` deep -/
def value : Nat → List Char → Option (Value F × List Char)
  | 0, _ => none
  | n + 1, s =>
    match skip s with
    | '"' :: s => (stringBody (s.length + 1) s).map (fun x => (.str x.1, x.2))
    | '[' :: s => (sequence (value n) ']' s).map (fun x => (.arr x.1, x.2))
    | '\x7b' :: s => (sequence (member (value n)) '\x7d' s).map (fun x => (.obj (dict x.1), x.2))
    | s => scalar fl s

/-- `json.loads` -/
def loads (s : List Char) : Option (Value F) := do
  let (v, s) ← value fl (s.length + 1) s
  if skip s = [] then return v else none

/-- the value at the start of a text, nested less than `n` deep, whose objects are what `hook` makes of their members -/
def valueWith (hook : List (List Char × Value F) → Option (List (List Char × Value F))) :
    Nat → List Char → Option (Value F × List Char)
  | 0, _ => none
  | n + 1, s =>
    match skip s with
    | '"' :: s => (stringBody (s.length + 1) s).map (fun x => (.str x.1, x.2))
    | '[' :: s => (sequence (valueWith hook n) ']' s).map (fun x => (.arr x.1, x.2))
    | '\x7b' :: s =>
      (sequence (member (valueWith hook n)) '\x7d' s).bind (fun x => (hook x.1).map (fun ms => (.obj ms, x.2)))
    | s => scalar fl s

/-- `json.loads` with an `object_pairs_hook` -/
def loadsWith (hook : List (List Char × Value F) → Option (List (List Char × Value F))) (s : List Char) :
    Option (Value F) := do
  let (v, s) ← valueWith fl hook (s.length + 1) s
  if skip s = [] then return v else none

end

/-! ## what is written is read: numbers -/

/-- what may come after a value -/
def Stop (r : List Char) : Prop := ∀ c ∈ r.head?, c = ',' ∨ c = ']' ∨ c = '\x7d'

section
variable {s i e t r : List Char}

theorem stop_nil : Stop [] := fun _ h => nomatch h

theorem stop_cases (h : Stop r) : r = [] ∨ ∃ c r', r = c :: r' ∧ (c = ',' ∨ c = ']' ∨ c = '\x7d') := by
  cases r with
  | nil => exact .inl rfl
  | cons c r => exact .inr ⟨c, r, rfl, h c rfl⟩

theorem stop_digit (h : Stop r) (s : List Char) :
    (s ++ r).takeWhile Char.isDigit = s.takeWhile Char.isDigit ∧
      (s ++ r).dropWhile Char.isDigit = s.dropWhile Char.isDigit ++ r := by
  have hr : r.takeWhile Char.isDigit = [] ∧ r.dropWhile Char.isDigit = r := by
    rcases stop_cases h with rfl | ⟨c, r', rfl, rfl | rfl | rfl⟩
    · exact ⟨rfl, rfl⟩
    · exact ⟨rfl, rfl⟩
    · exact ⟨rfl, rfl⟩
    · exact ⟨rfl, rfl⟩
  induction s with
  | nil => exact hr
  | cons c s ih =>
    rw [List.cons_append]
    cases hc : c.isDigit with
    | true =>
      rw [List.takeWhile_cons_of_pos hc, List.dropWhile_cons_of_pos hc, List.takeWhile_cons_of_pos hc,
        List.dropWhile_cons_of_pos hc, ih.1, ih.2]
      exact ⟨rfl, rfl⟩
    | false =>
      have hc' : ¬ c.isDigit = true := by rw [hc]; exact Bool.false_ne_true
      rw [List.takeWhile_cons_of_neg hc', List.dropWhile_cons_of_neg hc', List.takeWhile_cons_of_neg hc',
        List.dropWhile_cons_of_neg hc']
      exact ⟨rfl, rfl⟩

/-- a sign is not what may come after a value -/
theorem sign_append {signs : List Char} (h : Stop r) (hs : ',' ∉ signs ∧ ']' ∉ signs ∧ '\x7d' ∉ signs) (s : List Char) :
    sign signs (s ++ r) = ((sign signs s).1, (sign signs s).2 ++ r) := by
  cases s with
  | nil =>
    rcases stop_cases h with rfl | ⟨c, r', rfl, rfl | rfl | rfl⟩
    · rfl
    · exact if_neg hs.1
    · exact if_neg hs.2.1
    · exact if_neg hs.2.2
  | cons c s =>
    show (if c ∈ signs then ([c], s ++ r) else ([], c :: s ++ r)) =
      ((if c ∈ signs then ([c], s) else ([], c :: s)).1, (if c ∈ signs then ([c], s) else ([], c :: s)).2 ++ r)
    split <;> rfl

theorem integerPart_append (h : Stop r) (hi : integerPart s = some (i, t)) : integerPart (s ++ r) = some (i, t ++ r) := by
  unfold integerPart at hi ⊢
  rw [sign_append h (by decide)]
  generalize sign ['-'] s = x at hi ⊢
  obtain ⟨m, u⟩ := x
  dsimp only at hi ⊢
  rw [(stop_digit h u).1, (stop_digit h u).2]
  cases u with
  | nil => cases hi
  | cons c u =>
    show (if some c = some '0' then _ else _) = _
    change (if some c = some '0' then _ else _) = _ at hi
    split at hi
    · next hc =>
      rw [if_pos hc]
      cases hi
      rfl
    · next hc =>
      rw [if_neg hc]
      split at hi
      · cases hi
      · next hd =>
        rw [if_neg hd]
        cases hi
        rfl

theorem fraction_append (h : Stop r) (s : List Char) : fraction (s ++ r) = ((fraction s).1, (fraction s).2 ++ r) := by
  unfold fraction
  rw [sign_append h (by decide)]
  obtain ⟨p, u⟩ := sign ['.'] s
  dsimp only
  rw [(stop_digit h u).1, (stop_digit h u).2]
  split <;> rfl

theorem exponent_append (h : Stop r) (s : List Char) : exponent (s ++ r) = ((exponent s).1, (exponent s).2 ++ r) := by
  unfold exponent
  rw [sign_append h (by decide)]
  obtain ⟨c, u⟩ := sign ['e', 'E'] s
  dsimp only
  rw [sign_append h (by decide)]
  obtain ⟨m, u⟩ := sign ['-', '+'] u
  dsimp only
  rw [(stop_digit h u).1, (stop_digit h u).2]
  split <;> rfl

theorem number_append (h : Stop r) (hn : number s = some (i, e, t)) : number (s ++ r) = some (i, e, t ++ r) := by
  unfold number at hn ⊢
  cases hi : integerPart s with
  | none =>
    rw [hi] at hn
    cases hn
  | some x =>
    obtain ⟨j, u⟩ := x
    rw [hi] at hn
    rw [integerPart_append h hi]
    change some (j, (fraction u).1 ++ (exponent (fraction u).2).1, (exponent (fraction u).2).2) = _ at hn
    show some (j, (fraction (u ++ r)).1 ++ (exponent (fraction (u ++ r)).2).1, (exponent (fraction (u ++ r)).2).2) = _
    rw [fraction_append h]
    dsimp only
    rw [exponent_append h]
    cases hn
    rfl

theorem digits_isDigit {n : Nat} : ∀ c ∈ Nat.toDigits 10 n, c.isDigit = true :=
  fun _ hc => Nat.isDigit_of_mem_toDigits (by decide) (by decide) hc

theorem sign_digits (signs : List Char) (hs : ∀ c ∈ signs, c.isDigit = false) (n : Nat) :
    sign signs (Nat.toDigits 10 n) = ([], Nat.toDigits 10 n) := by
  obtain ⟨c, t, hc⟩ := List.exists_cons_of_ne_nil (Nat.toDigits_ne_nil (n := n) (b := 10))
  have hd : c.isDigit = true := digits_isDigit c (by rw [hc]; exact List.mem_cons_self)
  rw [hc]
  refine if_neg (fun hmem => ?_)
  rw [hs c hmem] at hd
  cases hd

/-- no numeral but zero begins with a zero -/
theorem head_digits {n : Nat} (h : (Nat.toDigits 10 n).head? = some '0') : Nat.toDigits 10 n = ['0'] := by
  induction n using Nat.strongRecOn with
  | _ n ih =>
    by_cases hn : n < 10
    · rw [Nat.toDigits_of_lt_base hn] at h ⊢
      have hc : n.digitChar = '0' := Option.some.inj h
      rw [hc]
    · rw [Nat.toDigits_of_base_le (by decide) (by omega)] at h
      have hhead : (Nat.toDigits 10 (n / 10)).head? = some '0' := by
        obtain ⟨c, t, hc⟩ := List.exists_cons_of_ne_nil (Nat.toDigits_ne_nil (n := n / 10) (b := 10))
        rw [hc] at h ⊢
        exact h
      have hzero := ih (n / 10) (by omega) hhead
      have hval := congrArg (fun s => Nat.ofDigitChars 10 s 0) hzero
      simp only [Nat.ofDigitChars_ten_toDigits] at hval
      have : Nat.ofDigitChars 10 ['0'] 0 = 0 := by decide
      omega

theorem takeWhile_digits (n : Nat) :
    (Nat.toDigits 10 n).takeWhile Char.isDigit = Nat.toDigits 10 n ∧ (Nat.toDigits 10 n).dropWhile Char.isDigit = [] :=
  ⟨List.takeWhile_eq_self_iff.mpr digits_isDigit, List.dropWhile_eq_nil_iff.mpr digits_isDigit⟩

/-- the integer part of a numeral with its sign is the whole of it -/
theorem integerPart_digits {m : List Char} {n : Nat} (h : sign ['-'] s = (m, Nat.toDigits 10 n)) :
    integerPart s = some (m ++ Nat.toDigits 10 n, []) := by
  unfold integerPart
  rw [h]
  dsimp only
  split
  · next hz =>
    rw [head_digits hz]
    rfl
  · rw [(takeWhile_digits n).1, (takeWhile_digits n).2, if_neg Nat.toDigits_ne_nil]

theorem sign_intText (i : Int) : ∃ m n, sign ['-'] (intText i) = (m, Nat.toDigits 10 n) ∧
    m ++ Nat.toDigits 10 n = intText i ∧ intOf (intText i) = i := by
  cases i with
  | ofNat n =>
    have hs := sign_digits ['-'] (fun c hc => by rw [List.mem_singleton.mp hc]; rfl) n
    refine ⟨[], n, hs, rfl, ?_⟩
    unfold intOf
    show (match sign ['-'] (Nat.toDigits 10 n) with | ([], t) => _ | (_, t) => _) = _
    rw [hs]
    show (Nat.ofDigitChars 10 (Nat.toDigits 10 n) 0 : Int) = _
    rw [Nat.ofDigitChars_ten_toDigits]
    rfl
  | negSucc n =>
    refine ⟨['-'], n + 1, rfl, rfl, ?_⟩
    show -(Nat.ofDigitChars 10 (Nat.toDigits 10 (n + 1)) 0 : Int) = _
    rw [Nat.ofDigitChars_ten_toDigits]
    rfl

theorem number_intText (i : Int) : number (intText i) = some (intText i, [], []) := by
  obtain ⟨m, n, hs, hi, -⟩ := sign_intText i
  unfold number
  rw [integerPart_digits hs, hi]
  rfl

/-- a number begins with a digit or a minus -/
theorem number_head (h : number s = some (i, e, t)) : ∃ c u, s = c :: u ∧ (c.isDigit = true ∨ c = '-') := by
  cases s with
  | nil => cases h
  | cons c u =>
    refine ⟨c, u, rfl, ?_⟩
    by_cases hc : c = '-'
    · exact .inr hc
    · refine .inl ?_
      have hsign : sign ['-'] (c :: u) = ([], c :: u) := if_neg (by simpa using hc)
      cases hi : integerPart (c :: u) with
      | none =>
        unfold number at h
        rw [hi] at h
        cases h
      | some x =>
        unfold integerPart at hi
        rw [hsign] at hi
        dsimp only at hi
        split at hi
        · next hz =>
          obtain rfl : c = '0' := Option.some.inj hz
          decide
        · split at hi
          · cases hi
          · next hd =>
            by_contra hdig
            exact hd (List.takeWhile_cons_of_neg hdig)

end

/-! ## what is written is read: strings -/

theorem hex_escape : ∀ m < 32, hex4 ['0', '0', Nat.digitChar (m / 16), Nat.digitChar (m % 16)] = some (m, []) := by
  decide

theorem hex4_append {a b c d : Char} {n : Nat} (h : hex4 [a, b, c, d] = some (n, [])) (r : List Char) :
    hex4 (a :: b :: c :: d :: r) = some (n, r) := by
  unfold hex4 at h ⊢
  cases ha : hexDigit a <;> cases hb : hexDigit b <;> cases hc : hexDigit c <;> cases hd : hexDigit d <;>
    simp_all

/-- an escaped character is read back -/
theorem stringBody_escapeChar (c : Char) (n : Nat) (r : List Char) :
    stringBody (n + 1) (escapeChar c ++ r) = (stringBody n r).map (fun x => (c :: x.1, x.2)) := by
  have hstep : ∀ x : Option (List Char × List Char),
      (do let (t, s) ← x; return (c :: t, s)) = x.map (fun x => (c :: x.1, x.2)) := by
    intro x
    cases x <;> rfl
  unfold escapeChar
  split
  · next e he =>
    have hmem : (c, e) ∈ escapes := by
      have hfind := List.lookup_eq_some_iff.mp he
      obtain ⟨l₁, l₂, hl, -⟩ := hfind
      rw [hl]
      exact List.mem_append_right _ List.mem_cons_self
    have hunescape : ∀ x ∈ escapes, escape (x.2 :: r) = some (x.1, r) := by
      unfold escapes
      simp only [List.forall_mem_cons]
      exact ⟨rfl, rfl, rfl, rfl, rfl, rfl, rfl, fun x hx => nomatch hx⟩
    show (do let (d, s) ← escape (e :: r); let (t, s) ← stringBody n s; return (d :: t, s)) = _
    rw [hunescape _ hmem]
    exact hstep _
  · next he =>
    have hne : c ≠ '"' ∧ c ≠ '\\' := by
      constructor <;> (rintro rfl; cases he)
    split
    · next hlt =>
      have hhex := hex4_append (hex_escape c.toNat hlt) r
      have hescape : escape ('u' :: '0' :: '0' :: Nat.digitChar (c.toNat / 16) :: Nat.digitChar (c.toNat % 16) :: r) =
          some (c, r) := by
        show unicodeEscape _ = _
        unfold unicodeEscape
        rw [hhex]
        show (if c.toNat < 0xD800 ∨ 0xE000 ≤ c.toNat then some (Char.ofNat c.toNat, r) else _) = _
        rw [if_pos (.inl (by omega)), Char.ofNat_toNat]
      show (do let (d, s) ← escape ('u' :: '0' :: '0' :: _ :: _ :: r); let (t, s) ← stringBody n s; return (d :: t, s)) = _
      rw [hescape]
      exact hstep _
    · next hlt =>
      show (if c = '"' then _ else if c = '\\' then _ else if c.toNat < 32 then _ else _) = _
      rw [if_neg hne.1, if_neg hne.2, if_neg hlt]
      exact hstep _

theorem stringBody_quoted (s r : List Char) {n : Nat} (h : s.length < n) :
    stringBody n (s.flatMap escapeChar ++ '"' :: r) = some (s, r) := by
  induction s generalizing n with
  | nil =>
    obtain ⟨k, rfl⟩ : ∃ k, n = k + 1 := ⟨n - 1, by simp at h; omega⟩
    rfl
  | cons c s ih =>
    obtain ⟨k, rfl⟩ : ∃ k, n = k + 1 := ⟨n - 1, by simp at h; omega⟩
    rw [List.flatMap_cons, List.append_assoc, stringBody_escapeChar, ih (by simpa using h)]
    rfl

theorem length_escapes (s : List Char) : s.length ≤ (s.flatMap escapeChar).length := by
  induction s with
  | nil => exact Nat.le_refl 0
  | cons c s ih =>
    have hc : 1 ≤ (escapeChar c).length := by
      unfold escapeChar
      split
      · exact Nat.le_add_left 1 1
      · split <;> exact Nat.le_add_left 1 _
    rw [List.flatMap_cons, List.length_append, List.length_cons]
    omega

/-! ## what is written is read: values -/

section
variable {F : Type} {fl : Floats F} {r : List Char}

theorem dumpsList_eq (vs : List (Value F)) : dumpsList fl vs = vs.map (dumps fl) := by
  induction vs with
  | nil => rw [dumpsList, List.map_nil]
  | cons v vs ih => rw [dumpsList, List.map_cons, ih]

theorem dumpsMembers_eq (ms : List (List Char × Value F)) :
    dumpsMembers fl ms = ms.map (fun m => quoted m.1 ++ ':' :: dumps fl m.2) := by
  induction ms with
  | nil => rw [dumpsMembers, List.map_nil]
  | cons m ms ih =>
    obtain ⟨k, v⟩ := m
    rw [dumpsMembers, List.map_cons, ih]

/-- the values that are one token -/
def IsScalar : Value F → Prop
  | .null | .bool _ | .int _ | .float _ => True
  | _ => False

/-- a character that starts a scalar -/
def StartsScalar (c : Char) : Prop := c.isDigit = true ∨ c ∈ ['-', 'n', 't', 'f', 'N', 'I']

theorem startsScalar_iff {c : Char} (h : StartsScalar c) :
    isWs c = false ∧ c ≠ '"' ∧ c ≠ '[' ∧ c ≠ '\x7b' ∧ c ≠ ']' ∧ c ≠ '\x7d' := by
  have hne : ∀ d : Char, d.isDigit = false → d ∉ ['-', 'n', 't', 'f', 'N', 'I'] → c ≠ d := by
    rintro d h1 h2 rfl
    rcases h with h | h
    · rw [h1] at h
      cases h
    · exact h2 h
  refine ⟨?_, hne _ rfl (by decide), hne _ rfl (by decide), hne _ rfl (by decide), hne _ rfl (by decide),
    hne _ rfl (by decide)⟩
  simp only [isWs, Bool.or_eq_false_iff, beq_eq_false_iff_ne]
  exact ⟨⟨⟨hne _ rfl (by decide), hne _ rfl (by decide)⟩, hne _ rfl (by decide)⟩, hne _ rfl (by decide)⟩

theorem scalar_number {i e : List Char} {s : List Char} (h : number s = some (i, e, [])) (hr : Stop r) :
    scalar fl (s ++ r) = some (if e = [] then .int (intOf i) else .float (fl.parse (i ++ e)), r) := by
  unfold scalar
  rw [number_append hr h, List.nil_append]
  cases e with
  | nil => rfl
  | cons c e => rfl

/-- a scalar is read back -/
theorem scalar_dumps (fl : Floats F) {v : Value F} (hv : IsScalar v) (hr : Stop r) :
    scalar fl (dumps fl v ++ r) = some (v, r) ∧ ∃ c t, dumps fl v = c :: t ∧ StartsScalar c := by
  have hnumber : ∀ {s i e}, number s = some (i, e, []) → ∃ c t, s = c :: t ∧ StartsScalar c := by
    intro s i e h
    obtain ⟨c, u, hs, hc⟩ := number_head h
    refine ⟨c, u, hs, hc.imp_right ?_⟩
    rintro rfl
    exact List.mem_cons_self
  cases v with
  | null => exact ⟨rfl, 'n', _, rfl, .inr (by decide)⟩
  | bool b =>
    cases b with
    | true => exact ⟨rfl, 't', _, rfl, .inr (by decide)⟩
    | false => exact ⟨rfl, 'f', _, rfl, .inr (by decide)⟩
  | int i =>
    have hi := number_intText i
    obtain ⟨-, -, -, -, hof⟩ := sign_intText i
    refine ⟨?_, hnumber hi⟩
    show scalar fl (intText i ++ r) = _
    rw [scalar_number hi hr, if_pos rfl, hof]
  | float f =>
    show scalar fl (fl.repr f ++ r) = _ ∧ ∃ c t, fl.repr f = c :: t ∧ _
    rcases fl.reads f with ⟨k, rfl, hname⟩ | ⟨i, e, hn, he, hrepr, hparse⟩
    · rw [hname]
      cases k with
      | nan => exact ⟨rfl, 'N', _, rfl, .inr (by decide)⟩
      | infinity => exact ⟨rfl, 'I', _, rfl, .inr (by decide)⟩
      | negInfinity => exact ⟨rfl, '-', _, rfl, .inr (by decide)⟩
    · refine ⟨?_, hnumber hn⟩
      rw [scalar_number hn hr, if_neg he, ← hrepr, hparse]
  | str s => cases hv
  | arr vs => cases hv
  | obj ms => cases hv

theorem skip_of_head {c : Char} (h : isWs c = false) (t : List Char) : skip (c :: t) = c :: t :=
  List.dropWhile_cons_of_neg (by rw [h]; exact Bool.false_ne_true)

/-- a plain reader makes dictionaries of members -/
theorem value_eq_valueWith (n : Nat) : value fl n = valueWith fl (fun ms => some (dict ms)) n := by
  induction n with
  | zero => rfl
  | succ n ih =>
    funext s
    rw [value, valueWith, ih]
    split
    · rfl
    · rfl
    · next s _ => cases sequence (member (valueWith fl (fun ms => some (dict ms)) n)) '\x7d' s <;> rfl
    · rfl

theorem loads_eq_loadsWith (s : List Char) : loads fl s = loadsWith fl (fun ms => some (dict ms)) s := by
  unfold loads loadsWith
  rw [value_eq_valueWith]

theorem valueWith_scalar (hook : List (List Char × Value F) → Option (List (List Char × Value F))) {c : Char}
    (h : StartsScalar c) (n : Nat) (t : List Char) : valueWith fl hook (n + 1) (c :: t) = scalar fl (c :: t) := by
  obtain ⟨hws, h1, h2, h3, -, -⟩ := startsScalar_iff h
  rw [valueWith, skip_of_head hws]
  split
  · next heq => exact absurd (List.cons.inj heq).1 h1
  · next heq => exact absurd (List.cons.inj heq).1 h2
  · next heq => exact absurd (List.cons.inj heq).1 h3
  · rfl

/-! ### sequences -/

theorem commas_cons (s : List Char) {ss : List (List Char)} (h : ss ≠ []) : commas (s :: ss) = s ++ ',' :: commas ss := by
  cases ss with
  | nil => exact absurd rfl h
  | cons t ss => rfl

theorem commas_head (s : List Char) (ss : List (List Char)) : ∃ t, commas (s :: ss) = s ++ t := by
  cases ss with
  | nil => exact ⟨[], (List.append_nil s).symm⟩
  | cons t ss => exact ⟨_, rfl⟩

theorem length_commas {s : List Char} {ss : List (List Char)} (h : s ∈ ss) : s.length ≤ (commas ss).length := by
  induction ss with
  | nil => cases h
  | cons t ss ih =>
    rcases List.mem_cons.mp h with rfl | h
    · obtain ⟨u, hu⟩ := commas_head s ss
      rw [hu, List.length_append]
      omega
    · rw [commas_cons t (List.ne_nil_of_mem h), List.length_append, List.length_cons]
      have := ih h
      omega

theorem count_commas {ss : List (List Char)} (h : ∀ s ∈ ss, s ≠ []) : ss.length ≤ (commas ss).length := by
  induction ss with
  | nil => exact Nat.le_refl 0
  | cons s ss ih =>
    have hs : 0 < s.length := List.length_pos_iff.mpr (h s List.mem_cons_self)
    by_cases hne : ss = []
    · subst hne
      exact hs
    · rw [commas_cons s hne, List.length_append, List.length_cons, List.length_cons]
      have := ih (fun x hx => h x (List.mem_cons_of_mem _ hx))
      omega

theorem stop_cons {c : Char} (h : c = ',' ∨ c = ']' ∨ c = '\x7d') (t : List Char) : Stop (c :: t) := by
  intro d hd
  cases hd
  exact h

/-- written items are read back by what reads each -/
theorem items_commas {α : Type} {item : List Char → Option (α × List Char)} {text : α → List Char} {close : Char}
    {xs : List α} (hne : xs ≠ []) (hclose : close = ']' ∨ close = '\x7d')
    (hitem : ∀ x ∈ xs, ∀ r, Stop r → item (text x ++ r) = some (x, r)) {n : Nat} (hn : xs.length ≤ n) (r : List Char) :
    items item close n (commas (xs.map text) ++ close :: r) = some (xs, r) := by
  have hskip : ∀ c t, c = ',' ∨ c = close → skip (c :: t) = c :: t := by
    intro c t hc
    refine skip_of_head ?_ t
    rcases hc with rfl | rfl
    · decide
    · rcases hclose with rfl | rfl <;> decide
  have hcomma : close ≠ ',' := by
    rcases hclose with rfl | rfl <;> decide
  induction xs generalizing n with
  | nil => exact absurd rfl hne
  | cons x xs ih =>
    obtain ⟨k, rfl⟩ : ∃ k, n = k + 1 := ⟨n - 1, by simp at hn; omega⟩
    have hx := hitem x List.mem_cons_self
    by_cases hxs : xs = []
    · subst hxs
      rw [items]
      show (do let (y, s) ← item (text x ++ close :: r); _) = _
      rw [hx _ (stop_cons (.inr hclose) r)]
      show (match skip (close :: r) with | [] => _ | c :: s => _) = _
      rw [hskip _ _ (.inr rfl)]
      show (if close = ',' then _ else if close = close then _ else _) = _
      rw [if_neg hcomma, if_pos rfl]
      rfl
    · have hrest := ih hxs (fun w hw => hitem w (List.mem_cons_of_mem _ hw)) (n := k) (by simpa using hn)
      rw [List.map_cons, commas_cons _ (by simpa using hxs), List.append_assoc, List.cons_append, items,
        hx _ (stop_cons (.inl rfl) _)]
      show (do let (ys, s) ← items item close k (commas (xs.map text) ++ close :: r); return (x :: ys, s)) = _
      rw [hrest]
      rfl

/-- a written sequence is read back by what reads each item -/
theorem sequence_commas {α : Type} {item : List Char → Option (α × List Char)} {text : α → List Char} {close : Char}
    {xs : List α} (hclose : close = ']' ∨ close = '\x7d')
    (hitem : ∀ x ∈ xs, ∀ r, Stop r → item (text x ++ r) = some (x, r))
    (hhead : ∀ x ∈ xs, ∃ c t, text x = c :: t ∧ isWs c = false ∧ c ≠ ']' ∧ c ≠ '\x7d') (r : List Char) :
    sequence item close (commas (xs.map text) ++ close :: r) = some (xs, r) := by
  unfold sequence
  cases xs with
  | nil =>
    have hskip : skip (close :: r) = close :: r := by
      refine skip_of_head ?_ r
      rcases hclose with rfl | rfl <;> decide
    have hhead : (skip (commas ([].map text) ++ close :: r)).head? = some close := by
      show (skip (close :: r)).head? = _
      rw [hskip]
      rfl
    rw [if_pos hhead]
    show some ([], (skip (close :: r)).tail) = _
    rw [hskip]
    rfl
  | cons x xs =>
    obtain ⟨c, t, hc, hws, h1, h2⟩ := hhead x List.mem_cons_self
    obtain ⟨u, hu⟩ := commas_head (text x) (xs.map text)
    have hcons : commas ((x :: xs).map text) ++ close :: r = c :: (t ++ u ++ close :: r) := by
      rw [List.map_cons, hu, hc]
      rfl
    have hskip : skip (commas ((x :: xs).map text) ++ close :: r) = commas ((x :: xs).map text) ++ close :: r := by
      rw [hcons]
      exact skip_of_head hws _
    have hcount : (x :: xs).length ≤ (commas ((x :: xs).map text) ++ close :: r).length + 1 := by
      have hle : ((x :: xs).map text).length ≤ (commas ((x :: xs).map text)).length := by
        refine count_commas (fun s hs => ?_)
        obtain ⟨y, hy, rfl⟩ := List.mem_map.mp hs
        obtain ⟨c, t, hd, -⟩ := hhead y hy
        rw [hd]
        exact List.cons_ne_nil _ _
      rw [List.length_map] at hle
      rw [List.length_append]
      omega
    rw [hskip, if_neg, items_commas (List.cons_ne_nil _ _) hclose hitem hcount r]
    rw [hcons]
    intro e
    have hcc : c = close := Option.some.inj e
    rcases hclose with rfl | rfl
    · exact h1 hcc
    · exact h2 hcc

/-! ### the whole -/

/-- a writer of values: it differs from `dumps` in the bodies of strings only -/
structure Writes (fl : Floats F) (text : Value F → List Char) (body : List Char → List Char) : Prop where
  scalar : ∀ v, IsScalar v → text v = dumps fl v
  str : ∀ s, text (.str s) = '"' :: (body s ++ ['"'])
  arr : ∀ vs, text (.arr vs) = '[' :: (commas (vs.map text) ++ [']'])
  obj : ∀ ms, text (.obj ms) =
    '\x7b' :: (commas (ms.map (fun m => '"' :: (body m.1 ++ '"' :: ':' :: text m.2))) ++ ['\x7d'])
  read : ∀ s r n, s.length < n → stringBody n (body s ++ '"' :: r) = some (s, r)
  length : ∀ s, s.length ≤ (body s).length

section
variable {text : Value F → List Char} {body : List Char → List Char}

/-- a value begins with a character of its own -/
theorem Writes.head (w : Writes fl text body) (v : Value F) :
    ∃ c t, text v = c :: t ∧ isWs c = false ∧ c ≠ ']' ∧ c ≠ '\x7d' := by
  have hscalar : IsScalar v → ∃ c t, text v = c :: t ∧ isWs c = false ∧ c ≠ ']' ∧ c ≠ '\x7d' := by
    intro hv
    obtain ⟨-, c, t, hd, hc⟩ := scalar_dumps fl hv stop_nil
    obtain ⟨hws, -, -, -, h4, h5⟩ := startsScalar_iff hc
    exact ⟨c, t, (w.scalar v hv).trans hd, hws, h4, h5⟩
  cases v with
  | null => exact hscalar trivial
  | bool b => exact hscalar trivial
  | int i => exact hscalar trivial
  | float f => exact hscalar trivial
  | str s => exact ⟨'"', _, w.str s, by decide, by decide, by decide⟩
  | arr vs => exact ⟨'[', _, w.arr vs, by decide, by decide, by decide⟩
  | obj ms => exact ⟨'\x7b', _, w.obj ms, by decide, by decide, by decide⟩

/-- a written string is read back -/
theorem Writes.string (w : Writes fl text body) (s r : List Char) :
    stringBody ((body s ++ '"' :: r).length + 1) (body s ++ '"' :: r) = some (s, r) := by
  refine w.read s r _ ?_
  have := w.length s
  rw [List.length_append]
  omega

/-- a written member is read back by what reads its value -/
theorem Writes.member (w : Writes fl text body) {p : List Char → Option (Value F × List Char)} {m : List Char × Value F}
    (h : ∀ r, Stop r → p (text m.2 ++ r) = some (m.2, r)) (hr : Stop r) :
    Json.member p (('"' :: (body m.1 ++ '"' :: ':' :: text m.2)) ++ r) = some (m, r) := by
  obtain ⟨k, v⟩ := m
  have htext : ('"' :: (body k ++ '"' :: ':' :: text v)) ++ r = '"' :: (body k ++ '"' :: (':' :: (text v ++ r))) := by
    simp
  rw [htext, Json.member, skip_of_head (by decide)]
  show (stringBody (_ + 1) (body k ++ '"' :: (':' :: (text v ++ r))) >>= _) = _
  rw [w.string]
  show (p (text v ++ r) >>= fun x => some ((k, x.1), x.2)) = _
  rw [h r hr]
  rfl

section
variable {hook : List (List Char × Value F) → Option (List (List Char × Value F))}

/-- **A canonical value is read back**, whatever may come after it, if sorted members are kept as they are. -/
theorem Writes.valueWith (w : Writes fl text body) (hhook : ∀ ms, Sorted ms → hook ms = some ms) {n : Nat} {v : Value F}
    (hv : Canonical v) (hn : (text v).length ≤ n) (hr : Stop r) :
    Json.valueWith fl hook n (text v ++ r) = some (v, r) := by
  induction n generalizing v r with
  | zero =>
    obtain ⟨c, t, hd, -⟩ := w.head v
    rw [hd] at hn
    exact absurd hn (by simp)
  | succ n ih =>
    have hscalar : IsScalar v → Json.valueWith fl hook (n + 1) (text v ++ r) = some (v, r) := by
      intro h
      obtain ⟨hs, c, t, hd, hc⟩ := scalar_dumps fl h hr
      rw [w.scalar v h, ← hs, hd]
      exact valueWith_scalar hook hc n (t ++ r)
    cases hv with
    | null => exact hscalar trivial
    | bool b => exact hscalar trivial
    | int i => exact hscalar trivial
    | float f => exact hscalar trivial
    | str s =>
      have htext : text (.str s) ++ r = '"' :: (body s ++ '"' :: r) := by
        rw [w.str]
        simp
      rw [htext, Json.valueWith, skip_of_head (by decide)]
      show (stringBody (_ + 1) (body s ++ '"' :: r)).map _ = _
      rw [w.string]
      rfl
    | @arr vs h =>
      have htext : text (.arr vs) ++ r = '[' :: (commas (vs.map text) ++ ']' :: r) := by
        rw [w.arr]
        simp
      have hlen : (commas (vs.map text)).length ≤ n := by
        rw [w.arr] at hn
        simp only [List.length_cons, List.length_append, List.length_nil] at hn
        omega
      have hseq : sequence (Json.valueWith fl hook n) ']' (commas (vs.map text) ++ ']' :: r) = some (vs, r) :=
        sequence_commas (.inl rfl)
          (fun x hx r hr => ih (h x hx) (Nat.le_trans (length_commas (List.mem_map_of_mem hx)) hlen) hr)
          (fun x _ => w.head x) r
      rw [htext, Json.valueWith, skip_of_head (by decide)]
      show (sequence (Json.valueWith fl hook n) ']' _).map _ = _
      rw [hseq]
      rfl
    | @obj ms hs h =>
      have htext : text (.obj ms) ++ r =
          '\x7b' :: (commas (ms.map (fun m => '"' :: (body m.1 ++ '"' :: ':' :: text m.2))) ++ '\x7d' :: r) := by
        rw [w.obj]
        simp
      have hlen : ∀ m ∈ ms, (text m.2).length ≤ n := by
        intro m hm
        have hle := length_commas (List.mem_map_of_mem
          (f := fun m : List Char × Value F => '"' :: (body m.1 ++ '"' :: ':' :: text m.2)) hm)
        rw [w.obj] at hn
        simp only [List.length_cons, List.length_append, List.length_nil] at hn hle
        omega
      have hseq : sequence (Json.member (Json.valueWith fl hook n)) '\x7d'
          (commas (ms.map (fun m => '"' :: (body m.1 ++ '"' :: ':' :: text m.2))) ++ '\x7d' :: r) = some (ms, r) :=
        sequence_commas (.inr rfl) (fun m hm r hr => w.member (fun r hr => ih (h m hm) (hlen m hm) hr) hr)
          (fun m _ => ⟨'"', _, rfl, by decide, by decide, by decide⟩) r
      rw [htext, Json.valueWith, skip_of_head (by decide)]
      show (sequence (Json.member (Json.valueWith fl hook n)) '\x7d' _).bind _ = _
      rw [hseq]
      show (hook ms).map _ = _
      rw [hhook ms hs]
      rfl

/-- **A canonical value is the value of its text.** -/
theorem Writes.loadsWith (w : Writes fl text body) (hhook : ∀ ms, Sorted ms → hook ms = some ms) {v : Value F}
    (hv : Canonical v) : Json.loadsWith fl hook (text v) = some v := by
  have h : Json.valueWith fl hook ((text v).length + 1) (text v ++ []) = some (v, []) :=
    w.valueWith hhook hv (by omega) stop_nil
  rw [List.append_nil] at h
  unfold Json.loadsWith
  rw [h]
  rfl

end

theorem Writes.loads (w : Writes fl text body) {v : Value F} (hv : Canonical v) : Json.loads fl (text v) = some v := by
  rw [loads_eq_loadsWith]
  exact w.loadsWith (fun ms hs => congrArg some (dict_of_sorted hs)) hv

end

theorem writes_dumps (fl : Floats F) : Writes fl (dumps fl) (fun s => s.flatMap escapeChar) where
  scalar _ _ := rfl
  str s := by rw [dumps, quoted]
  arr vs := by rw [dumps, dumpsList_eq]
  obj ms := by
    rw [dumps, dumpsMembers_eq]
    simp [quoted]
  read s r _ h := stringBody_quoted s r h
  length := length_escapes

theorem loads_dumps {v : Value F} (hv : Canonical v) : loads fl (dumps fl v) = some v := (writes_dumps fl).loads hv

theorem loadsWith_dumps {hook : List (List Char × Value F) → Option (List (List Char × Value F))}
    (hhook : ∀ ms, Sorted ms → hook ms = some ms) {v : Value F} (hv : Canonical v) :
    loadsWith fl hook (dumps fl v) = some v :=
  (writes_dumps fl).loadsWith hhook hv

end

/-! ## what is read is canonical -/

section
variable {F : Type} {fl : Floats F}

theorem before_trans {s t u : List Char} (h : before s t = true) (h' : before t u = true) : before s u = true := by
  induction s generalizing t u with
  | nil =>
    cases u with
    | nil => cases t <;> cases h'
    | cons c u => rfl
  | cons a s ih =>
    cases t with
    | nil => cases h
    | cons b t =>
      cases u with
      | nil => cases h'
      | cons c u =>
        simp only [before, Bool.or_eq_true, decide_eq_true_eq, Bool.and_eq_true, beq_iff_eq] at h h' ⊢
        rcases h with h | ⟨rfl, h⟩
        · rcases h' with h' | ⟨rfl, h'⟩
          · exact .inl (by omega)
          · exact .inl h
        · rcases h' with h' | ⟨rfl, h'⟩
          · exact .inl h'
          · exact .inr ⟨rfl, ih h h'⟩

theorem before_total (s t : List Char) : before s t = true ∨ s = t ∨ before t s = true := by
  induction s generalizing t with
  | nil =>
    cases t with
    | nil => exact .inr (.inl rfl)
    | cons b t => exact .inl rfl
  | cons a s ih =>
    cases t with
    | nil => exact .inr (.inr rfl)
    | cons b t =>
      simp only [before, Bool.or_eq_true, decide_eq_true_eq, Bool.and_eq_true, beq_iff_eq]
      rcases Nat.lt_trichotomy a.toNat b.toNat with h | h | h
      · exact .inl (.inl h)
      · have hab : a = b := Char.toNat_inj.mp h
        rcases ih t with h | rfl | h
        · exact .inl (.inr ⟨hab, h⟩)
        · exact .inr (.inl (by rw [hab]))
        · exact .inr (.inr (.inr ⟨hab.symm, h⟩))
      · exact .inr (.inr (.inl h))

theorem Sorted.insert {key : List Char} {v : Value F} {ms : List (List Char × Value F)} (h : Sorted ms) :
    Sorted (insert key v ms) := by
  induction ms with
  | nil => exact List.pairwise_singleton _ _
  | cons m ms ih =>
    obtain ⟨k, w⟩ := m
    obtain ⟨hk, hrest⟩ := List.pairwise_cons.mp h
    rw [Json.insert]
    split
    · next he =>
      subst he
      exact List.pairwise_cons.mpr ⟨hk, hrest⟩
    · next hne =>
      split
      · next hlt =>
        refine List.pairwise_cons.mpr ⟨fun x hx => ?_, h⟩
        rcases List.mem_cons.mp hx with rfl | hx
        · exact hlt
        · exact before_trans hlt (hk x hx)
      · next hlt =>
        refine List.pairwise_cons.mpr ⟨fun x hx => ?_, ih hrest⟩
        rcases mem_insert hx with rfl | hx
        · rcases before_total key k with h1 | h1 | h1
          · exact absurd h1 hlt
          · exact absurd h1 hne
          · exact h1
        · exact hk x hx

/-- an object of canonical members is canonical -/
theorem dict_canonical {ms : List (List Char × Value F)} (h : ∀ m ∈ ms, Canonical m.2) : Canonical (.obj (dict ms)) := by
  have hfold : ∀ done, Canonical (.obj done) →
      Canonical (.obj (ms.foldl (fun done m => insert m.1 m.2 done) done)) := by
    induction ms with
    | nil => exact fun done hd => hd
    | cons m ms ih =>
      intro done hd
      rw [List.foldl_cons]
      refine ih (fun x hx => h x (List.mem_cons_of_mem _ hx)) _ ?_
      cases hd with
      | obj hs hms =>
        refine .obj hs.insert (fun x hx => ?_)
        rcases mem_insert hx with rfl | hx
        · exact h m List.mem_cons_self
        · exact hms x hx
  exact hfold [] (.obj List.Pairwise.nil (fun m hm => (nomatch hm)))

section
variable {α : Type} {item : List Char → Option (α × List Char)} {close : Char} {P : α → Prop} {xs : List α}
  {s r : List Char}

theorem items_forall (h : ∀ s x r, item s = some (x, r) → P x) :
    ∀ {n : Nat} {s : List Char} {xs : List α}, items item close n s = some (xs, r) → ∀ x ∈ xs, P x := by
  intro n
  induction n with
  | zero => exact fun h => nomatch h
  | succ n ih =>
    intro s xs hitems
    simp only [items, Option.bind_eq_bind, Option.bind_eq_some_iff] at hitems
    obtain ⟨⟨x, s'⟩, hx, hrest⟩ := hitems
    dsimp only at hrest
    split at hrest
    · cases hrest
    · split at hrest
      · simp only [Option.bind_eq_some_iff] at hrest
        obtain ⟨⟨ys, s''⟩, hys, hrest⟩ := hrest
        cases hrest
        intro y hy
        rcases List.mem_cons.mp hy with rfl | hy
        · exact h _ _ _ hx
        · exact ih hys y hy
      · split at hrest
        · cases hrest
          intro y hy
          rw [List.mem_singleton.mp hy]
          exact h _ _ _ hx
        · cases hrest

theorem sequence_forall (h : ∀ s x r, item s = some (x, r) → P x) (hs : sequence item close s = some (xs, r)) :
    ∀ x ∈ xs, P x := by
  unfold sequence at hs
  split at hs
  · cases hs
    exact fun x hx => nomatch hx
  · exact items_forall h hs

end

theorem scalar_canonical {s r : List Char} {v : Value F} (h : scalar fl s = some (v, r)) : Canonical v := by
  unfold scalar at h
  split at h
  · cases h
    exact .int _
  · cases h
    exact .float _
  · obtain ⟨k, hk, h⟩ := List.exists_of_findSome?_eq_some h
    split at h
    · cases h
      have hkeywords : ∀ k ∈ keywords fl, Canonical k.2 := by
        simp only [keywords, List.map_cons, List.map_nil, List.cons_append, List.nil_append, List.forall_mem_cons]
        exact ⟨.null, .bool _, .bool _, .float _, .float _, .float _, fun k hk => nomatch hk⟩
      exact hkeywords k hk
    · cases h

theorem valueWith_canonical {hook : List (List Char × Value F) → Option (List (List Char × Value F))}
    (hhook : ∀ ms r, hook ms = some r → r = dict ms) {n : Nat} :
    ∀ {s r : List Char} {v : Value F}, valueWith fl hook n s = some (v, r) → Canonical v := by
  induction n with
  | zero => exact fun h => nomatch h
  | succ n ih =>
    intro s r v h
    rw [valueWith] at h
    split at h
    · simp only [Option.map_eq_some_iff] at h
      obtain ⟨x, -, h⟩ := h
      cases h
      exact .str _
    · simp only [Option.map_eq_some_iff] at h
      obtain ⟨⟨xs, r'⟩, hxs, h⟩ := h
      cases h
      exact .arr (sequence_forall (P := Canonical) (fun s x r hx => ih hx) hxs)
    · simp only [Option.bind_eq_some_iff, Option.map_eq_some_iff] at h
      obtain ⟨⟨xs, r'⟩, hxs, ms, hms, h⟩ := h
      cases h
      rw [hhook _ _ hms]
      refine dict_canonical (sequence_forall (P := fun m => Canonical m.2) (fun s x r hx => ?_) hxs)
      unfold member at hx
      split at hx
      · simp only [Option.bind_eq_bind, Option.bind_eq_some_iff] at hx
        obtain ⟨⟨k, s'⟩, -, hx⟩ := hx
        dsimp only at hx
        split at hx
        · simp only [Option.bind_eq_some_iff] at hx
          obtain ⟨⟨w, s''⟩, hw, hx⟩ := hx
          cases hx
          exact ih hw
        · cases hx
      · cases hx
    · exact scalar_canonical h

/-- **What is read is canonical.** -/
theorem loadsWith_canonical {hook : List (List Char × Value F) → Option (List (List Char × Value F))}
    (hhook : ∀ ms r, hook ms = some r → r = dict ms) {s : List Char} {v : Value F}
    (h : loadsWith fl hook s = some v) : Canonical v := by
  simp only [loadsWith, Option.bind_eq_bind, Option.bind_eq_some_iff] at h
  obtain ⟨⟨w, r⟩, hw, h⟩ := h
  dsimp only at h
  split at h
  · cases h
    exact valueWith_canonical hhook hw
  · cases h

theorem loads_canonical {s : List Char} {v : Value F} (h : loads fl s = some v) : Canonical v :=
  loadsWith_canonical (fun _ _ e => (Option.some.inj e).symm) ((loads_eq_loadsWith s).symm.trans h)

end

/-! ## floats as their texts -/

/-- a text that `repr` may give -/
def isFloatText (s : List Char) : Bool :=
  [Constant.nan, .infinity, .negInfinity].any (fun k => k.name == s) ||
    match number s with
    | some (i, e, []) => e != [] && s == i ++ e
    | _ => false

/-- floats of which only the text matters -/
def Floats.texts : Floats {s : List Char // isFloatText s = true} where
  parse s := if h : isFloatText s = true then ⟨s, h⟩ else ⟨"NaN".toList, by decide⟩
  repr f := f.1
  constant k := ⟨k.name, by cases k <;> decide⟩
  equals f n := f.1 == intText n ++ ".0".toList
  reads := by
    rintro ⟨s, h⟩
    have hcases := h
    unfold isFloatText at hcases
    rw [Bool.or_eq_true] at hcases
    rcases hcases with hname | hnumber
    · obtain ⟨k, -, hk⟩ := List.any_eq_true.mp hname
      have hs : k.name = s := beq_iff_eq.mp hk
      exact .inl ⟨k, Subtype.ext hs.symm, hs.symm⟩
    · split at hnumber
      · next i e hn =>
        rw [Bool.and_eq_true, bne_iff_ne, beq_iff_eq] at hnumber
        exact .inr ⟨i, e, hn, hnumber.1, hnumber.2, dif_pos h⟩
      · cases hnumber

end Json
