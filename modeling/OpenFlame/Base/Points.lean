import Mathlib.Algebra.Ring.Nat
import OpenFlame.Base.Json
import Mathlib.Data.List.Sort

/-!
# Texts of code points

A text of Python may hold halves of surrogate pairs, which no character of `Char` is and no encoding has bytes for.
JSON values over such texts, in the order in which their members came.

`Point`           a character, or half of a surrogate pair
`Value`           a JSON value; `surrogates` tells whether one of its texts has such a half
`scalars? s`      the characters of a text, if that is all it has
`dumps repr v`    the text of a value, its members sorted

`dumps_surrogates`: **the text of a value has a surrogate iff one of its texts or keys has.**
-/

set_option linter.all false

namespace Points

/-! ## code points -/

/-- a code point -/
inductive Point where
  | scalar (c : Char)
  | surrogate (n : Fin 2048)
  deriving DecidableEq

abbrev Text := List Point

instance lawfulBEq_text : LawfulBEq Text := inferInstance

instance neZero_surrogates : NeZero 2048 := ⟨by decide⟩

/-- a text of characters -/
def ofChars (s : List Char) : Text := s.map .scalar

/-- a literal -/
def text (s : String) : Text := ofChars s.toList

/-- `ord` -/
def Point.toNat : Point → Nat
  | .scalar c => c.toNat
  | .surrogate n => 0xD800 + n.1

def Point.isSurrogate : Point → Bool
  | .scalar _ => false
  | .surrogate _ => true

def Point.scalar? : Point → Option Char
  | .scalar c => some c
  | .surrogate _ => none

/-- whether a text has half of a surrogate pair -/
def surrogate (s : Text) : Bool := s.any Point.isSurrogate

/-- the characters of a text that has nothing else -/
def scalars? (s : Text) : Option (List Char) := s.mapM Point.scalar?

/-- `str.isspace` of one code point -/
def Point.isSpace : Point → Bool
  | .scalar c => Text.isSpace c
  | .surrogate _ => false

/-- `str.strip()` -/
def strip (s : Text) : Text := (s.dropWhile Point.isSpace).rdropWhile Point.isSpace

@[simp] theorem surrogate_ofChars (s : List Char) : surrogate (ofChars s) = false := by
  unfold surrogate ofChars
  rw [List.any_map]
  exact List.any_eq_false.mpr (fun _ _ => Bool.false_ne_true)

@[simp] theorem surrogate_text (s : String) : surrogate (text s) = false := surrogate_ofChars _

theorem surrogate_append (s t : Text) : surrogate (s ++ t) = (surrogate s || surrogate t) := List.any_append

/-- a text has its characters iff it has no surrogate -/
theorem scalars?_isSome (s : Text) : (scalars? s).isSome = !surrogate s := by
  induction s with
  | nil => rfl
  | cons p s ih =>
    unfold scalars? at ih ⊢
    rw [List.mapM_cons]
    cases p with
    | surrogate n => rfl
    | scalar c =>
      show (Option.isSome ((s.mapM Point.scalar?).bind fun t => some (c :: t))) = !(false || surrogate s)
      rw [Bool.false_or, ← ih]
      cases s.mapM Point.scalar? <;> rfl

theorem scalars?_ofChars (s : List Char) : scalars? (ofChars s) = some s := by
  induction s with
  | nil => rfl
  | cons c s ih =>
    unfold scalars? ofChars at ih ⊢
    rw [List.map_cons, List.mapM_cons, ih]
    rfl

private theorem any_dropWhile {α : Type} {p q : α → Bool} (h : ∀ a, q a = true → p a = false) (s : List α) :
    (s.dropWhile q).any p = s.any p := by
  induction s with
  | nil => rfl
  | cons a s ih =>
    rw [List.dropWhile_cons]
    by_cases hq : q a = true
    · rw [if_pos hq, ih, List.any_cons, h a hq, Bool.false_or]
    · rw [if_neg hq]

/-- what is stripped are no surrogates -/
theorem surrogate_strip (s : Text) : surrogate (strip s) = surrogate s := by
  have hspace : ∀ p : Point, p.isSpace = true → p.isSurrogate = false := by
    intro p hp
    cases p with
    | scalar c => rfl
    | surrogate n => cases hp
  unfold surrogate strip List.rdropWhile
  rw [List.any_reverse, any_dropWhile hspace, List.any_reverse, any_dropWhile hspace]

/-- what is stripped is a part of the text -/
theorem strip_isInfix (s : Text) : strip s <:+: s :=
  (List.rdropWhile_prefix _ _).isInfix.trans (List.dropWhile_suffix _).isInfix

@[simp] theorem strip_strip (s : Text) : strip (strip s) = strip s := by
  have hdrop : (strip s).dropWhile Point.isSpace = strip s := by
    cases h : strip s with
    | nil => rfl
    | cons p t =>
      have hprefix : strip s <+: s.dropWhile Point.isSpace := List.rdropWhile_prefix _ _
      rw [h] at hprefix
      obtain ⟨u, hu⟩ := hprefix
      have hhead : (s.dropWhile Point.isSpace).head? = some p := by rw [← hu]; rfl
      have hp := List.head?_dropWhile_not Point.isSpace s
      rw [hhead] at hp
      exact List.dropWhile_cons_of_neg (by rw [hp]; exact Bool.false_ne_true)
  show ((strip s).dropWhile Point.isSpace).rdropWhile Point.isSpace = _
  rw [hdrop]
  exact List.rdropWhile_idempotent _ _

/-! ## values -/

inductive Value (F : Type) where
  | null
  | bool (b : Bool)
  | int (i : Int)
  | float (f : F)
  | str (s : Text)
  | arr (vs : List (Value F))
  | obj (members : List (Text × Value F))

section
variable {F : Type}

def text? : Value F → Option Text
  | .str s => some s
  | _ => none

def int? : Value F → Option Int
  | .int i => some i
  | _ => none

def bool? : Value F → Option Bool
  | .bool b => some b
  | _ => none

def array? : Value F → Option (List (Value F))
  | .arr vs => some vs
  | _ => none

def object? : Value F → Option (List (Text × Value F))
  | .obj ms => some ms
  | _ => none

/-- whether a value can be an element of a `set` -/
def isHashable : Value F → Bool
  | .arr _ => false
  | .obj _ => false
  | _ => true

/-- `members.get(key, default)` -/
def getOr (ms : List (Text × Value F)) (key : String) (default : Value F) : Value F :=
  (ms.lookup (text key)).getD default

/-- `members.get(key)` -/
def get (ms : List (Text × Value F)) (key : String) : Value F := getOr ms key .null

def keys (ms : List (Text × Value F)) : List Text := ms.map Prod.fst

/-- every required name is a key, and every key an allowed name -/
def HasKeys (ms : List (Text × Value F)) (required allowed : List String) : Prop :=
  (∀ n ∈ required, text n ∈ keys ms) ∧ ∀ k ∈ keys ms, k ∈ allowed.map text

instance (ms : List (Text × Value F)) (required allowed : List String) : Decidable (HasKeys ms required allowed) :=
  inferInstanceAs (Decidable (_ ∧ _))

/-- members under names -/
def record (ms : List (String × Value F)) : List (Text × Value F) := ms.map (fun m => (text m.1, m.2))

mutual

/-- whether a text or a key in a value has a surrogate -/
def surrogates : Value F → Bool
  | .str s => surrogate s
  | .arr vs => surrogatesList vs
  | .obj ms => surrogatesMembers ms
  | _ => false

def surrogatesList : List (Value F) → Bool
  | [] => false
  | v :: vs => surrogates v || surrogatesList vs

def surrogatesMembers : List (Text × Value F) → Bool
  | [] => false
  | (k, v) :: ms => surrogate k || surrogates v || surrogatesMembers ms

/-- `allow_nan=False`: every float in a value is finite -/
def finite (isfinite : F → Bool) : Value F → Bool
  | .float f => isfinite f
  | .arr vs => finiteList isfinite vs
  | .obj ms => finiteMembers isfinite ms
  | _ => true

def finiteList (isfinite : F → Bool) : List (Value F) → Bool
  | [] => true
  | v :: vs => finite isfinite v && finiteList isfinite vs

def finiteMembers (isfinite : F → Bool) : List (Text × Value F) → Bool
  | [] => true
  | (_, v) :: ms => finite isfinite v && finiteMembers isfinite ms

end

@[simp] theorem surrogates_null : surrogates (.null : Value F) = false := rfl
@[simp] theorem surrogates_int (i : Int) : surrogates (.int i : Value F) = false := rfl
@[simp] theorem surrogates_float (f : F) : surrogates (.float f) = false := rfl
@[simp] theorem surrogates_str (s : Text) : surrogates (.str s : Value F) = surrogate s := rfl

theorem surrogatesList_eq (vs : List (Value F)) : surrogatesList vs = vs.any surrogates := by
  induction vs with
  | nil => rfl
  | cons v vs ih =>
    show (surrogates v || surrogatesList vs) = _
    rw [ih, List.any_cons]

theorem surrogatesMembers_eq (ms : List (Text × Value F)) :
    surrogatesMembers ms = ms.any (fun m => surrogate m.1 || surrogates m.2) := by
  induction ms with
  | nil => rfl
  | cons m ms ih =>
    show (surrogate m.1 || surrogates m.2 || surrogatesMembers ms) = _
    rw [ih, List.any_cons]

theorem surrogates_arr (vs : List (Value F)) : surrogates (.arr vs) = vs.any surrogates := surrogatesList_eq vs

/-- names have no surrogates -/
theorem surrogates_record (ms : List (String × Value F)) :
    surrogates (.obj (record ms)) = ms.any (fun m => surrogates m.2) := by
  show surrogatesMembers (record ms) = _
  rw [surrogatesMembers_eq, record, List.any_map]
  refine congrArg (List.any ms) (funext fun m => ?_)
  show (surrogate (text m.1) || surrogates m.2) = _
  rw [surrogate_text, Bool.false_or]

section
variable (isfinite : F → Bool)

@[simp] theorem finite_null : finite isfinite .null = true := rfl
@[simp] theorem finite_int (i : Int) : finite isfinite (.int i) = true := rfl
@[simp] theorem finite_float (f : F) : finite isfinite (.float f) = isfinite f := rfl
@[simp] theorem finite_str (s : Text) : finite isfinite (.str s) = true := rfl

theorem finite_arr (vs : List (Value F)) : finite isfinite (.arr vs) = vs.all (finite isfinite) := by
  show finiteList isfinite vs = _
  induction vs with
  | nil => rfl
  | cons v vs ih =>
    show (finite isfinite v && finiteList isfinite vs) = _
    rw [ih, List.all_cons]

theorem finite_record (ms : List (String × Value F)) :
    finite isfinite (.obj (record ms)) = ms.all (fun m => finite isfinite m.2) := by
  show finiteMembers isfinite (record ms) = _
  induction ms with
  | nil => rfl
  | cons m ms ih =>
    show (finite isfinite m.2 && finiteMembers isfinite (record ms)) = _
    rw [ih, List.all_cons]

end

/-! ## writing -/

def escapePoint : Point → Text
  | .scalar c => ofChars (Json.escapeChar c)
  | .surrogate n => [.surrogate n]

def quoted (s : Text) : Text := .scalar '"' :: (s.flatMap escapePoint ++ [.scalar '"'])

def commas : List Text → Text
  | [] => []
  | [s] => s
  | s :: t :: ss => s ++ .scalar ',' :: commas (t :: ss)

/-- the order of texts, by code points -/
def before : Text → Text → Bool
  | _, [] => false
  | [], _ :: _ => true
  | a :: s, b :: t => decide (a.toNat < b.toNat) || (a == b && before s t)

/-- members, each with its text, by their keys -/
def sortMembers (ms : List (Text × Text)) : List (Text × Text) :=
  ms.insertionSort (fun m n => before n.1 m.1 = false)

variable (repr : F → List Char)

mutual

/-- `json.dumps(v, ensure_ascii=False, separators=(",", ":"), sort_keys=True)` -/
def dumps : Value F → Text
  | .null => text "null"
  | .bool true => text "true"
  | .bool false => text "false"
  | .int i => ofChars (Json.intText i)
  | .float f => ofChars (repr f)
  | .str s => quoted s
  | .arr vs => .scalar '[' :: (commas (dumpsList vs) ++ [.scalar ']'])
  | .obj ms => .scalar '\x7b' :: (commas ((sortMembers (dumpsMembers ms)).map Prod.snd) ++ [.scalar '\x7d'])

def dumpsList : List (Value F) → List Text
  | [] => []
  | v :: vs => dumps v :: dumpsList vs

/-- the keys, each with the text of its member -/
def dumpsMembers : List (Text × Value F) → List (Text × Text)
  | [] => []
  | (k, v) :: ms => (k, quoted k ++ .scalar ':' :: dumps v) :: dumpsMembers ms

end

theorem surrogate_escapePoint (p : Point) : surrogate (escapePoint p) = p.isSurrogate := by
  cases p with
  | scalar c => exact surrogate_ofChars _
  | surrogate n => rfl

theorem surrogate_quoted (s : Text) : surrogate (quoted s) = surrogate s := by
  have hbody : surrogate (s.flatMap escapePoint) = surrogate s := by
    induction s with
    | nil => rfl
    | cons p s ih =>
      rw [List.flatMap_cons, surrogate_append, surrogate_escapePoint, ih]
      rfl
  show (false || surrogate (s.flatMap escapePoint ++ [.scalar '"'])) = _
  rw [Bool.false_or, surrogate_append, hbody]
  exact Bool.or_false _

theorem surrogate_commas (ss : List Text) : surrogate (commas ss) = ss.any surrogate := by
  induction ss with
  | nil => rfl
  | cons s ss ih =>
    cases ss with
    | nil => exact (Bool.or_false _).symm
    | cons t ss =>
      show surrogate (s ++ .scalar ',' :: commas (t :: ss)) = _
      rw [surrogate_append, List.any_cons, ← ih]
      rfl

/-- what stands between two brackets -/
theorem surrogate_bracketed (a b : Char) (s : Text) : surrogate (.scalar a :: (s ++ [.scalar b])) = surrogate s := by
  show (false || surrogate (s ++ [.scalar b])) = _
  rw [Bool.false_or, surrogate_append]
  exact Bool.or_false _

theorem any_sortMembers (ms : List (Text × Text)) :
    ((sortMembers ms).map Prod.snd).any surrogate = (ms.map Prod.snd).any surrogate :=
  ((List.perm_insertionSort _ ms).map Prod.snd).any_eq

mutual

/-- **The text of a value has a surrogate iff one of its texts or keys has.** -/
theorem dumps_surrogates : ∀ v : Value F, surrogate (dumps repr v) = surrogates v
  | .null => rfl
  | .bool true => rfl
  | .bool false => rfl
  | .int i => surrogate_ofChars _
  | .float f => surrogate_ofChars _
  | .str s => surrogate_quoted s
  | .arr vs => by
    show surrogate (.scalar '[' :: (commas (dumpsList repr vs) ++ [.scalar ']'])) = surrogatesList vs
    rw [surrogate_bracketed, surrogate_commas, dumpsList_surrogates vs]
  | .obj ms => by
    show surrogate (.scalar '\x7b' :: (commas ((sortMembers (dumpsMembers repr ms)).map Prod.snd) ++ [.scalar '\x7d'])) =
      surrogatesMembers ms
    rw [surrogate_bracketed, surrogate_commas, any_sortMembers, dumpsMembers_surrogates ms]

theorem dumpsList_surrogates : ∀ vs : List (Value F), (dumpsList repr vs).any surrogate = surrogatesList vs
  | [] => rfl
  | v :: vs => by
    show (surrogate (dumps repr v) || (dumpsList repr vs).any surrogate) = (surrogates v || surrogatesList vs)
    rw [dumps_surrogates v, dumpsList_surrogates vs]

theorem dumpsMembers_surrogates : ∀ ms : List (Text × Value F),
    ((dumpsMembers repr ms).map Prod.snd).any surrogate = surrogatesMembers ms
  | [] => rfl
  | (k, v) :: ms => by
    show (surrogate (quoted k ++ .scalar ':' :: dumps repr v) || ((dumpsMembers repr ms).map Prod.snd).any surrogate) =
      (surrogate k || surrogates v || surrogatesMembers ms)
    have hcolon : surrogate (.scalar ':' :: dumps repr v) = surrogate (dumps repr v) := rfl
    rw [surrogate_append, surrogate_quoted, hcolon, dumps_surrogates v, dumpsMembers_surrogates ms]

end

end

end Points
