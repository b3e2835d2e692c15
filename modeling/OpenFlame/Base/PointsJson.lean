import OpenFlame.Base.Points

/-!
# JSON texts, read with all their escapes

`Limits`   the limits of the interpreter that a reader may run into
`loads`    the value of a text, or what keeps it from being read
`ofJson`   a value whose texts have no surrogates

* `loads_ofJson`     what `Json.loads` reads, `loads` reads;
* `dumps_ofJson`     what `Json.dumps` writes, `dumps` writes;
* **`loads_dumps`**  a canonical value without surrogates is read back from its text.
-/

set_option linter.all false

namespace Points
open Json (Floats hex4 skip)

/-! ## values without surrogates -/

section
variable {F : Type}

mutual

/-- a value whose texts have no surrogates -/
def ofJson : Json.Value F → Value F
  | .null => .null
  | .bool b => .bool b
  | .int i => .int i
  | .float f => .float f
  | .str s => .str (ofChars s)
  | .arr vs => .arr (ofJsonList vs)
  | .obj ms => .obj (ofJsonMembers ms)

def ofJsonList : List (Json.Value F) → List (Value F)
  | [] => []
  | v :: vs => ofJson v :: ofJsonList vs

def ofJsonMembers : List (List Char × Json.Value F) → List (Text × Value F)
  | [] => []
  | (k, v) :: ms => (ofChars k, ofJson v) :: ofJsonMembers ms

end

end

/-! ## reading -/

/-- why a text is not read -/
inductive LoadErr where
  /-- `JSONDecodeError` -/
  | decode
  /-- `RecursionError` -/
  | recursion
  /-- the `ValueError` of a number with too many digits -/
  | value
  deriving DecidableEq, Repr

/-- how many digits a number may have, and how deep a value may be nested; `none` is no limit -/
structure Limits where
  digits : Option Nat
  depth : Option Nat

def Limits.unbounded : Limits := ⟨none, none⟩

/-- half of a surrogate pair, by its code point -/
def half (u : Nat) : Point := .surrogate (Fin.ofNat 2048 (u - 0xD800))

/-- after `\u`: two escapes of a pair are one character -/
def unicodePoint (s : List Char) : Option (Point × List Char) := do
  let (u, s) ← hex4 s
  if u < 0xD800 ∨ 0xE000 ≤ u then return (.scalar (Char.ofNat u), s)
  else
    match s with
    | '\\' :: 'u' :: t =>
      match hex4 t with
      | some (v, t) =>
        if u < 0xDC00 ∧ 0xDC00 ≤ v ∧ v < 0xE000 then
          return (.scalar (Char.ofNat (0x10000 + (u - 0xD800) * 0x400 + (v - 0xDC00))), t)
        else return (half u, s)
      | none => return (half u, s)
    | _ => return (half u, s)

/-- after a backslash -/
def escape : List Char → Option (Point × List Char)
  | [] => none
  | c :: s =>
    if c = 'u' then unicodePoint s
    else (('/', '/') :: Json.escapes.map Prod.swap).lookup c |>.map (fun d => (.scalar d, s))

/-- after the opening quote -/
def stringBody : Nat → List Char → Option (Text × List Char)
  | 0, _ => none
  | _ + 1, [] => none
  | n + 1, c :: s =>
    if c = '"' then some ([], s)
    else if c = '\\' then do
      let (d, s) ← escape s
      let (t, s) ← stringBody n s
      return (d :: t, s)
    else if c.toNat < 32 then none
    else do
      let (t, s) ← stringBody n s
      return (.scalar c :: t, s)

/-- what reads the start of a text -/
abbrev Reader (α : Type) : Type := List Char → Except LoadErr (α × List Char)

/-- the text after an opening quote -/
def string : Reader Text := fun s => (stringBody (s.length + 1) s).elim (.error .decode) .ok

/-- what stands between a bracket that is open and `close`, when something does -/
def items {α : Type} (item : Reader α) (close : Char) : Nat → Reader (List α)
  | 0, _ => .error .decode
  | n + 1, s => do
    let (x, s) ← item s
    match skip s with
    | [] => .error .decode
    | c :: s =>
      if c = ',' then do
        let (xs, s) ← items item close n s
        return (x :: xs, s)
      else if c = close then return ([x], s)
      else .error .decode

/-- what stands between a bracket that is open and `close` -/
def sequence {α : Type} (item : Reader α) (close : Char) : Reader (List α) := fun s =>
  if (skip s).head? = some close then .ok ([], (skip s).tail) else items item close ((skip s).length + 1) (skip s)

section
variable {F : Type} (fl : Floats F)

/-- whether the number at the start of a text is a whole one of too many digits -/
def tooLong (limits : Limits) (s : List Char) : Bool :=
  match Json.number s with
  | some (i, [], _) => limits.digits.any (fun n => decide (n < (Json.sign ['-'] i).2.length))
  | _ => false

/-- a number or a keyword -/
def scalar (limits : Limits) : Reader (Value F) := fun s =>
  if tooLong limits s = true then .error .value
  else (Json.scalar fl s).elim (.error .decode) (fun x => .ok (ofJson x.1, x.2))

/-- a key and its value -/
def member (value : Reader (Value F)) : Reader (Text × Value F) := fun s =>
  match skip s with
  | '"' :: s => do
    let (k, s) ← string s
    match skip s with
    | ':' :: s => do
      let (v, s) ← value s
      return ((k, v), s)
    | _ => .error .decode
  | _ => .error .decode

/-- `members[key] = v`, the members by their keys -/
def insert (key : Text) (v : Value F) : List (Text × Value F) → List (Text × Value F)
  | [] => [(key, v)]
  | (k, w) :: ms =>
    if key = k then (key, v) :: ms
    else if before key k = true then (key, v) :: (k, w) :: ms
    else (k, w) :: insert key v ms

/-- an object of members in any order -/
def dict (ms : List (Text × Value F)) : List (Text × Value F) := ms.foldl (fun done m => insert m.1 m.2 done) []

/-- the value at the start of a text, whose elements `inner` reads -/
def valueWith (limits : Limits) (inner : Option (Reader (Value F))) : Reader (Value F) := fun s =>
  match skip s with
  | '"' :: s => (string s).map (fun x => (.str x.1, x.2))
  | '[' :: s =>
    match inner with
    | none => .error .recursion
    | some value => (sequence value ']' s).map (fun x => (.arr x.1, x.2))
  | '\x7b' :: s =>
    match inner with
    | none => .error .recursion
    | some value => (sequence (member value) '\x7d' s).map (fun x => (.obj (dict x.1), x.2))
  | s => scalar fl limits s

/-- the value at the start of a text, nested at most `n` deep -/
def value (limits : Limits) : Nat → Reader (Value F)
  | 0 => valueWith fl limits none
  | n + 1 => valueWith fl limits (some (value limits n))

/-- `json.loads` of a text without surrogates -/
def loads (limits : Limits) (s : List Char) : Except LoadErr (Value F) := do
  let (v, s) ← value fl limits (limits.depth.getD (s.length + 1)) s
  if skip s = [] then return v else .error .decode

end

section
variable {F : Type}

theorem ofJsonList_eq (vs : List (Json.Value F)) : ofJsonList vs = vs.map ofJson := by
  induction vs with
  | nil => rfl
  | cons v vs ih =>
    show ofJson v :: ofJsonList vs = _
    rw [ih, List.map_cons]

theorem ofJsonMembers_eq (ms : List (List Char × Json.Value F)) :
    ofJsonMembers ms = ms.map (fun m => (ofChars m.1, ofJson m.2)) := by
  induction ms with
  | nil => rfl
  | cons m ms ih =>
    show (ofChars m.1, ofJson m.2) :: ofJsonMembers ms = _
    rw [ih, List.map_cons]

theorem ofChars_injective {s t : List Char} (h : ofChars s = ofChars t) : s = t :=
  List.map_injective_iff.mpr (fun _ _ he => Point.scalar.inj he) h

theorem before_ofChars (s t : List Char) : before (ofChars s) (ofChars t) = Json.before s t := by
  induction s generalizing t with
  | nil => cases t <;> rfl
  | cons a s ih =>
    cases t with
    | nil => rfl
    | cons b t =>
      have heq : ((Point.scalar a == Point.scalar b) : Bool) = (a == b) := by
        rw [Bool.eq_iff_iff, beq_iff_eq, beq_iff_eq]
        exact ⟨Point.scalar.inj, congrArg Point.scalar⟩
      show (decide (a.toNat < b.toNat) || ((Point.scalar a == Point.scalar b) && before (ofChars s) (ofChars t))) = _
      rw [heq, ih t]
      rfl

end

/-! ## what is read of a text without surrogates -/

section
variable {s r t : List Char}

theorem unicodePoint_ofJson {c : Char} (h : Json.unicodeEscape s = some (c, r)) : unicodePoint s = some (.scalar c, r) := by
  unfold Json.unicodeEscape at h
  unfold unicodePoint
  cases hu : hex4 s with
  | none =>
    rw [hu] at h
    cases h
  | some x =>
    obtain ⟨u, t⟩ := x
    rw [hu] at h
    simp only [Option.bind_eq_bind, Option.bind_some] at h ⊢
    by_cases hscalar : u < 0xD800 ∨ 0xE000 ≤ u
    · rw [if_pos hscalar] at h ⊢
      cases h
      rfl
    · rw [if_neg hscalar] at h ⊢
      split at h
      · next t =>
        cases hv : hex4 t with
        | none =>
          rw [hv] at h
          cases h
        | some y =>
          obtain ⟨v, t'⟩ := y
          rw [hv] at h
          simp only [Option.bind_some] at h
          simp only [hv]
          by_cases hpair : u < 0xDC00 ∧ 0xDC00 ≤ v ∧ v < 0xE000
          · rw [if_pos hpair] at h ⊢
            obtain ⟨hc, ht⟩ := Prod.mk.inj (Option.some.inj h)
            rw [← hc, ← ht]
            rfl
          · rw [if_neg hpair] at h
            cases h
      · cases h

theorem escape_ofJson {c : Char} (h : Json.escape s = some (c, r)) : escape s = some (.scalar c, r) := by
  cases s with
  | nil => cases h
  | cons d s =>
    unfold Json.escape at h
    unfold escape
    dsimp only at h ⊢
    by_cases hd : d = 'u'
    · rw [if_pos hd] at h ⊢
      exact unicodePoint_ofJson h
    · rw [if_neg hd] at h ⊢
      obtain ⟨e, he, hr⟩ := Option.map_eq_some_iff.mp h
      cases hr
      rw [he]
      rfl

theorem stringBody_ofJson {n : Nat} (h : Json.stringBody n s = some (t, r)) : stringBody n s = some (ofChars t, r) := by
  induction n generalizing s t r with
  | zero => cases h
  | succ n ih =>
    cases s with
    | nil => cases h
    | cons c s =>
      unfold Json.stringBody at h
      unfold stringBody
      by_cases hquote : c = '"'
      · rw [if_pos hquote] at h ⊢
        cases h
        rfl
      rw [if_neg hquote] at h ⊢
      by_cases hback : c = '\\'
      · rw [if_pos hback] at h ⊢
        obtain ⟨⟨d, s'⟩, hd, h⟩ := Option.bind_eq_some_iff.mp h
        obtain ⟨⟨t', s''⟩, ht, h⟩ := Option.bind_eq_some_iff.mp h
        cases h
        rw [escape_ofJson hd]
        simp only [Option.bind_eq_bind, Option.bind_some, ih ht]
        rfl
      rw [if_neg hback] at h ⊢
      by_cases hcontrol : c.toNat < 32
      · rw [if_pos hcontrol] at h
        cases h
      · rw [if_neg hcontrol] at h ⊢
        obtain ⟨⟨t', s'⟩, ht, h⟩ := Option.bind_eq_some_iff.mp h
        cases h
        simp only [Option.bind_eq_bind, ih ht]
        rfl

theorem string_ofJson (h : Json.stringBody (s.length + 1) s = some (t, r)) : string s = .ok (ofChars t, r) := by
  unfold string
  rw [stringBody_ofJson h]
  rfl

theorem items_ofJson {α β : Type} {f : α → β} {item : List Char → Option (α × List Char)} {item' : Reader β} {close : Char}
    (hitem : ∀ s x r, item s = some (x, r) → item' s = .ok (f x, r)) {n : Nat} {xs : List α}
    (h : Json.items item close n s = some (xs, r)) : items item' close n s = .ok (xs.map f, r) := by
  induction n generalizing s xs r with
  | zero => cases h
  | succ n ih =>
    unfold Json.items at h
    unfold items
    obtain ⟨⟨x, s'⟩, hx, h⟩ := Option.bind_eq_some_iff.mp h
    rw [hitem s x s' hx]
    show (match skip s' with | [] => _ | c :: s => _) = _
    dsimp only at h
    cases hs : skip s' with
    | nil =>
      rw [hs] at h
      cases h
    | cons c u =>
      rw [hs] at h
      dsimp only at h ⊢
      by_cases hcomma : c = ','
      · rw [if_pos hcomma] at h ⊢
        obtain ⟨⟨ys, s''⟩, hys, h⟩ := Option.bind_eq_some_iff.mp h
        cases h
        rw [ih hys]
        rfl
      · rw [if_neg hcomma] at h ⊢
        by_cases hclose : c = close
        · rw [if_pos hclose] at h ⊢
          cases h
          rfl
        · rw [if_neg hclose] at h
          cases h

theorem sequence_ofJson {α β : Type} {f : α → β} {item : List Char → Option (α × List Char)} {item' : Reader β} {close : Char}
    (hitem : ∀ s x r, item s = some (x, r) → item' s = .ok (f x, r)) {xs : List α}
    (h : Json.sequence item close s = some (xs, r)) : sequence item' close s = .ok (xs.map f, r) := by
  unfold Json.sequence at h
  unfold sequence
  by_cases hclose : (skip s).head? = some close
  · rw [if_pos hclose] at h ⊢
    cases h
    rfl
  · rw [if_neg hclose] at h ⊢
    exact items_ofJson hitem h

end

section
variable {F : Type} {fl : Floats F} {s r : List Char} {w : Json.Value F}

theorem insert_ofJson (key : List Char) (v : Json.Value F) (ms : List (List Char × Json.Value F)) :
    insert (ofChars key) (ofJson v) (ofJsonMembers ms) = ofJsonMembers (Json.insert key v ms) := by
  induction ms with
  | nil => rfl
  | cons m ms ih =>
    obtain ⟨k, x⟩ := m
    show insert (ofChars key) (ofJson v) ((ofChars k, ofJson x) :: ofJsonMembers ms) = _
    unfold insert Json.insert
    by_cases hkey : key = k
    · rw [if_pos (congrArg ofChars hkey), if_pos hkey]
      rfl
    · rw [if_neg (fun he => hkey (ofChars_injective he)), if_neg hkey, before_ofChars]
      by_cases hbefore : Json.before key k = true
      · rw [if_pos hbefore, if_pos hbefore]
        rfl
      · rw [if_neg hbefore, if_neg hbefore, ih]
        rfl

theorem dict_ofJson (ms : List (List Char × Json.Value F)) :
    dict (ms.map (fun m => (ofChars m.1, ofJson m.2))) = ofJsonMembers (Json.dict ms) := by
  have hfold : ∀ done : List (List Char × Json.Value F),
      (ms.map (fun m => (ofChars m.1, ofJson m.2))).foldl (fun done m => insert m.1 m.2 done) (ofJsonMembers done) =
        ofJsonMembers (ms.foldl (fun done m => Json.insert m.1 m.2 done) done) := by
    induction ms with
    | nil => exact fun _ => rfl
    | cons m ms ih =>
      intro done
      rw [List.map_cons, List.foldl_cons, List.foldl_cons, insert_ofJson]
      exact ih _
  exact hfold []

theorem scalar_ofJson (h : Json.scalar fl s = some (w, r)) : scalar fl .unbounded s = .ok (ofJson w, r) := by
  have hlong : tooLong .unbounded s = false := by
    unfold tooLong
    split <;> rfl
  unfold scalar
  rw [hlong, if_neg Bool.false_ne_true, h]
  rfl

theorem member_ofJson {value : List Char → Option (Json.Value F × List Char)} {value' : Reader (Value F)}
    (hvalue : ∀ s x r, value s = some (x, r) → value' s = .ok (ofJson x, r)) {m : List Char × Json.Value F}
    (h : Json.member value s = some (m, r)) : member value' s = .ok ((ofChars m.1, ofJson m.2), r) := by
  unfold Json.member at h
  split at h
  · next s' hs =>
    unfold member
    rw [hs]
    obtain ⟨⟨k, t⟩, hk, h⟩ := Option.bind_eq_some_iff.mp h
    dsimp only at h
    split at h
    · next u hu =>
      obtain ⟨⟨v, t'⟩, hv, h⟩ := Option.bind_eq_some_iff.mp h
      cases h
      show (string s' >>= fun x => match skip x.2 with | ':' :: s => _ | _ => _) = _
      rw [string_ofJson hk]
      show (match skip t with | ':' :: s => _ | _ => _) = _
      rw [hu]
      show (value' u >>= fun x => _) = _
      rw [hvalue _ _ _ hv]
      rfl
    · cases h
  · cases h

theorem value_ofJson {n : Nat} (h : Json.value fl n s = some (w, r)) : value fl .unbounded n s = .ok (ofJson w, r) := by
  induction n generalizing s w r with
  | zero => cases h
  | succ n ih =>
    unfold Json.value at h
    show valueWith fl .unbounded (some (value fl .unbounded n)) s = _
    split at h
    · next s' hs =>
      unfold valueWith
      rw [hs]
      obtain ⟨⟨t, r'⟩, ht, hr⟩ := Option.map_eq_some_iff.mp h
      cases hr
      show (string s').map _ = _
      rw [string_ofJson ht]
      rfl
    · next s' hs =>
      unfold valueWith
      rw [hs]
      obtain ⟨⟨vs, r'⟩, hvs, hr⟩ := Option.map_eq_some_iff.mp h
      cases hr
      show (sequence (value fl .unbounded n) ']' s').map _ = _
      rw [sequence_ofJson (fun s x r => ih) hvs]
      show Except.ok (Value.arr (vs.map ofJson), r') = .ok (.arr (ofJsonList vs), r')
      rw [ofJsonList_eq]
    · next s' hs =>
      unfold valueWith
      rw [hs]
      obtain ⟨⟨ms, r'⟩, hms, hr⟩ := Option.map_eq_some_iff.mp h
      cases hr
      show (sequence (member (value fl .unbounded n)) '\x7d' s').map _ = _
      rw [sequence_ofJson (f := fun m => (ofChars m.1, ofJson m.2)) (fun s x r => member_ofJson (fun s x r => ih)) hms]
      show Except.ok (Value.obj (dict (ms.map (fun m => (ofChars m.1, ofJson m.2)))), r') = .ok (.obj (ofJsonMembers (Json.dict ms)), r')
      rw [dict_ofJson]
    · next hquote hbracket hbrace =>
      unfold valueWith
      split
      · next s' hs => exact absurd hs (hquote s')
      · next s' hs => exact absurd hs (hbracket s')
      · next s' hs => exact absurd hs (hbrace s')
      · exact scalar_ofJson h

/-- what `Json.loads` reads, `loads` reads -/
theorem loads_ofJson (h : Json.loads fl s = some w) : loads fl .unbounded s = .ok (ofJson w) := by
  unfold Json.loads at h
  obtain ⟨⟨v, t⟩, hv, h⟩ := Option.bind_eq_some_iff.mp h
  unfold loads
  show (value fl .unbounded (s.length + 1) s >>= fun x => if skip x.2 = [] then pure x.1 else .error .decode) = _
  rw [value_ofJson hv]
  dsimp only at h
  by_cases hend : skip t = []
  · rw [if_pos hend] at h
    cases h
    exact if_pos hend
  · rw [if_neg hend] at h
    cases h

end

/-! ## what is written of a value without surrogates -/

/-- a value whose objects are sorted -/
inductive Canonical {F : Type} : Value F → Prop where
  | null : Canonical .null
  | bool (b : Bool) : Canonical (.bool b)
  | int (i : Int) : Canonical (.int i)
  | float (f : F) : Canonical (.float f)
  | str (s : Text) : Canonical (.str s)
  | arr {vs : List (Value F)} (h : ∀ v ∈ vs, Canonical v) : Canonical (.arr vs)
  | obj {ms : List (Text × Value F)} (hs : ms.Pairwise (fun a b => before a.1 b.1 = true)) (h : ∀ m ∈ ms, Canonical m.2) :
    Canonical (.obj ms)

section
variable {F : Type}

theorem exists_ofChars {s : Text} (h : surrogate s = false) : ∃ cs, s = ofChars cs ∧ scalars? s = some cs := by
  have hsome := scalars?_isSome s
  rw [h] at hsome
  obtain ⟨cs, hcs⟩ := Option.isSome_iff_exists.mp hsome
  refine ⟨cs, ?_, hcs⟩
  induction s generalizing cs with
  | nil =>
    cases hcs
    rfl
  | cons p s ih =>
    unfold scalars? at hcs
    rw [List.mapM_cons] at hcs
    obtain ⟨c, hc, hcs⟩ := Option.bind_eq_some_iff.mp hcs
    obtain ⟨ds, hds, hcs⟩ := Option.bind_eq_some_iff.mp hcs
    cases hcs
    cases p with
    | surrogate n => cases hc
    | scalar d =>
      cases hc
      rw [ih h (by rw [show scalars? s = some ds from hds]; rfl) ds hds]
      rfl

theorem Canonical.ofJson {v : Value F} (h : Canonical v) (hs : surrogates v = false) :
    ∃ w, v = ofJson w ∧ Json.Canonical w := by
  induction h with
  | null => exact ⟨.null, rfl, .null⟩
  | bool b => exact ⟨.bool b, rfl, .bool b⟩
  | int i => exact ⟨.int i, rfl, .int i⟩
  | float f => exact ⟨.float f, rfl, .float f⟩
  | str s =>
    obtain ⟨cs, hcs, -⟩ := exists_ofChars hs
    exact ⟨.str cs, by rw [hcs]; rfl, .str cs⟩
  | @arr vs hvs ih =>
    rw [surrogates_arr] at hs
    have hws : ∃ ws, vs = ofJsonList ws ∧ ∀ w ∈ ws, Json.Canonical w := by
      clear hvs
      induction vs with
      | nil => exact ⟨[], rfl, fun w hw => nomatch hw⟩
      | cons v vs ihvs =>
        rw [List.any_cons, Bool.or_eq_false_iff] at hs
        obtain ⟨w, hw, hcanonical⟩ := ih v List.mem_cons_self hs.1
        obtain ⟨ws, hws, hall⟩ := ihvs (fun u hu => ih u (List.mem_cons_of_mem _ hu)) hs.2
        refine ⟨w :: ws, by rw [hw, hws]; rfl, fun u hu => ?_⟩
        rcases List.mem_cons.mp hu with rfl | hu
        · exact hcanonical
        · exact hall u hu
    obtain ⟨ws, hws, hall⟩ := hws
    exact ⟨.arr ws, by rw [hws]; rfl, .arr hall⟩
  | @obj ms hsorted hms ih =>
    have hmembers : surrogatesMembers ms = false := hs
    rw [surrogatesMembers_eq] at hmembers
    have hws : ∃ ws, ms = ofJsonMembers ws ∧ Json.Sorted ws ∧ ∀ w ∈ ws, Json.Canonical w.2 := by
      clear hms hs
      induction ms with
      | nil => exact ⟨[], rfl, List.Pairwise.nil, fun w hw => nomatch hw⟩
      | cons m ms ihms =>
        obtain ⟨k, v⟩ := m
        rw [List.any_cons, Bool.or_eq_false_iff, Bool.or_eq_false_iff] at hmembers
        rw [List.pairwise_cons] at hsorted
        obtain ⟨⟨hk, hv⟩, hrest⟩ := hmembers
        obtain ⟨cs, hcs, -⟩ := exists_ofChars hk
        obtain ⟨w, hw, hcanonical⟩ := ih (k, v) List.mem_cons_self hv
        dsimp only at hcs hw
        obtain ⟨ws, hws, hwsorted, hall⟩ := ihms hsorted.2 (fun u hu => ih u (List.mem_cons_of_mem _ hu)) hrest
        refine ⟨(cs, w) :: ws, by rw [hcs, hw, hws]; rfl, ?_, ?_⟩
        · refine List.pairwise_cons.mpr ⟨fun u hu => ?_, hwsorted⟩
          have hmem : (ofChars u.1, Points.ofJson u.2) ∈ ms := by
            rw [hws, ofJsonMembers_eq]
            exact List.mem_map_of_mem hu
          have hbefore := hsorted.1 _ hmem
          rw [hcs] at hbefore
          rw [← before_ofChars]
          exact hbefore
        · intro u hu
          rcases List.mem_cons.mp hu with rfl | hu
          · exact hcanonical
          · exact hall u hu
    obtain ⟨ws, hws, hwsorted, hall⟩ := hws
    exact ⟨.obj ws, by rw [hws]; rfl, .obj hwsorted hall⟩

theorem ofChars_append (s t : List Char) : ofChars (s ++ t) = ofChars s ++ ofChars t := List.map_append

theorem quoted_ofChars (s : List Char) : quoted (ofChars s) = ofChars (Json.quoted s) := by
  have hbody : (ofChars s).flatMap escapePoint = ofChars (s.flatMap Json.escapeChar) := by
    induction s with
    | nil => rfl
    | cons c s ih =>
      show ofChars (Json.escapeChar c) ++ (ofChars s).flatMap escapePoint = _
      rw [ih, List.flatMap_cons, ofChars_append]
  show Point.scalar '"' :: ((ofChars s).flatMap escapePoint ++ [.scalar '"']) = _
  rw [hbody]
  show _ = ofChars ('"' :: (s.flatMap Json.escapeChar ++ ['"']))
  show _ = Point.scalar '"' :: ofChars (s.flatMap Json.escapeChar ++ ['"'])
  rw [ofChars_append]
  rfl

theorem commas_ofChars (ss : List (List Char)) : commas (ss.map ofChars) = ofChars (Json.commas ss) := by
  induction ss with
  | nil => rfl
  | cons s ss ih =>
    cases ss with
    | nil => rfl
    | cons t ss =>
      show ofChars s ++ .scalar ',' :: commas ((t :: ss).map ofChars) = ofChars (s ++ ',' :: Json.commas (t :: ss))
      rw [ih, ofChars_append]
      rfl

/-- members that are sorted stay as they are -/
theorem sortMembers_of_sorted {ms : List (Text × Text)} (h : ms.Pairwise (fun m n => before m.1 n.1 = true))
    (hasymm : ∀ m ∈ ms, ∀ n ∈ ms, before m.1 n.1 = true → before n.1 m.1 = false) : sortMembers ms = ms := by
  unfold sortMembers
  refine List.Pairwise.insertionSort_eq ?_
  exact h.imp_of_mem (fun hm hn hbefore => hasymm _ hm _ hn hbefore)

theorem dumps_ofJson (fl : Floats F) {w : Json.Value F} (h : Json.Canonical w) :
    dumps fl.repr (ofJson w) = ofChars (Json.dumps fl w) := by
  induction h with
  | null => rfl
  | bool b => cases b <;> rfl
  | int i => rfl
  | float f => rfl
  | str s => exact quoted_ofChars s
  | @arr vs hvs ih =>
    have hlist : dumpsList fl.repr (ofJsonList vs) = (Json.dumpsList fl vs).map ofChars := by
      clear hvs
      induction vs with
      | nil => rfl
      | cons v vs ihvs =>
        show dumps fl.repr (ofJson v) :: dumpsList fl.repr (ofJsonList vs) = ofChars (Json.dumps fl v) :: (Json.dumpsList fl vs).map ofChars
        rw [ih v List.mem_cons_self, ihvs (fun u hu => ih u (List.mem_cons_of_mem _ hu))]
    show .scalar '[' :: (commas (dumpsList fl.repr (ofJsonList vs)) ++ [.scalar ']']) = _
    rw [hlist, commas_ofChars]
    show _ = Point.scalar '[' :: ofChars (Json.commas (Json.dumpsList fl vs) ++ [']'])
    rw [ofChars_append]
    rfl
  | @obj ms hsorted hms ih =>
    have hmembers : dumpsMembers fl.repr (ofJsonMembers ms) =
        ms.map (fun m => (ofChars m.1, ofChars (Json.quoted m.1 ++ ':' :: Json.dumps fl m.2))) := by
      clear hms hsorted
      induction ms with
      | nil => rfl
      | cons m ms ihms =>
        obtain ⟨k, v⟩ := m
        show (ofChars k, quoted (ofChars k) ++ .scalar ':' :: dumps fl.repr (ofJson v)) :: dumpsMembers fl.repr (ofJsonMembers ms) = _
        rw [ih (k, v) List.mem_cons_self, ihms (fun u hu => ih u (List.mem_cons_of_mem _ hu)), quoted_ofChars, List.map_cons,
          ofChars_append]
        rfl
    have hsort : sortMembers (dumpsMembers fl.repr (ofJsonMembers ms)) = dumpsMembers fl.repr (ofJsonMembers ms) := by
      rw [hmembers]
      refine sortMembers_of_sorted ?_ ?_
      · refine List.pairwise_map.mpr (hsorted.imp (fun hbefore => ?_))
        rw [before_ofChars]
        exact hbefore
      · intro m hm n hn hbefore
        obtain ⟨a, -, rfl⟩ := List.mem_map.mp hm
        obtain ⟨b, -, rfl⟩ := List.mem_map.mp hn
        rw [before_ofChars] at hbefore ⊢
        exact (Json.before_asymm hbefore).1
    show .scalar '\x7b' :: (commas ((sortMembers (dumpsMembers fl.repr (ofJsonMembers ms))).map Prod.snd) ++ [.scalar '\x7d']) = _
    rw [hsort, hmembers, List.map_map]
    have hsnd : ms.map (Prod.snd ∘ fun m => (ofChars m.1, ofChars (Json.quoted m.1 ++ ':' :: Json.dumps fl m.2))) =
        (Json.dumpsMembers fl ms).map ofChars := by
      rw [Json.dumpsMembers_eq, List.map_map]
      rfl
    rw [hsnd, commas_ofChars]
    show _ = Point.scalar '\x7b' :: ofChars (Json.commas (Json.dumpsMembers fl ms) ++ ['\x7d'])
    rw [ofChars_append]
    rfl

/-- **A canonical value without surrogates is read back from its text.** -/
theorem loads_dumps (fl : Floats F) {v : Value F} (h : Canonical v) {s : List Char} (hs : scalars? (dumps fl.repr v) = some s) :
    loads fl .unbounded s = .ok v := by
  have hnone : surrogates v = false := by
    have hsome := scalars?_isSome (dumps fl.repr v)
    rw [hs, dumps_surrogates] at hsome
    exact (Bool.not_eq_true' _).mp hsome.symm
  obtain ⟨w, rfl, hw⟩ := h.ofJson hnone
  rw [dumps_ofJson fl hw, scalars?_ofChars] at hs
  cases hs
  exact loads_ofJson (Json.loads_dumps hw)

end

end Points
