import OpenFlame.Base.Text

/-!
# Texts cut into pieces

* `splitOn c s`      `s.split(c)`
* `splitSub sep s`   `s.split(sep)` for a separator of several characters
* `splitLines s`     `s.splitlines()`, for a text without carriage returns; `joinLines` is `"\n".join`
* `splitBlocks s`    `re.split(r"\n{2,}", s)`
* `joinBlocks bs`    the blocks with a blank line between each two
* `unixLines s`      carriage returns made newlines

`splitBlocks_eq_self_iff`: a text is one block iff it has no blank line.
`splitBlocks_append`: two texts with a blank line between them are cut apart there, and further only
where each of them is.  `splitBlocks_singleton`, `splitBlocks_shorter`: a text is one block, or its
first block is shorter than it.
`joinLines_splitLines`: a text whose only line breaks are newlines is its lines, joined.
-/

set_option linter.all false

namespace Text

/-- a piece put in front of the first of several pieces -/
def consHead (p : List Char) : List (List Char) → List (List Char)
  | [] => [p]
  | b :: bs => (p ++ b) :: bs

@[simp] theorem consHead_nil (p : List Char) : consHead p [] = [p] := rfl
@[simp] theorem consHead_cons (p b : List Char) (bs : List (List Char)) : consHead p (b :: bs) = (p ++ b) :: bs := rfl

theorem consHead_ne_nil (p : List Char) (bs : List (List Char)) : consHead p bs ≠ [] := by
  cases bs <;> exact List.cons_ne_nil _ _

theorem consHead_empty {bs : List (List Char)} (h : bs ≠ []) : consHead [] bs = bs := by
  cases bs with
  | nil => exact absurd rfl h
  | cons b bs => rfl

theorem consHead_consHead (p q : List Char) (bs : List (List Char)) :
    consHead p (consHead q bs) = consHead (p ++ q) bs := by
  cases bs with
  | nil => rfl
  | cons b bs => simp

theorem consHead_append {bs cs : List (List Char)} (p : List Char) (h : bs ≠ []) :
    consHead p (bs ++ cs) = consHead p bs ++ cs := by
  cases bs with
  | nil => exact absurd rfl h
  | cons b bs => rfl

/-! ## one separator -/

def splitOn (c : Char) : List Char → List (List Char)
  | [] => [[]]
  | x :: xs => if x = c then [] :: splitOn c xs else consHead [x] (splitOn c xs)

theorem splitOn_ne_nil (c : Char) (s : List Char) : splitOn c s ≠ [] := by
  cases s with
  | nil => exact List.cons_ne_nil _ _
  | cons x xs =>
    unfold splitOn
    split
    · exact List.cons_ne_nil _ _
    · exact consHead_ne_nil _ _

theorem splitOn_append {c : Char} {a : List Char} (h : c ∉ a) (b : List Char) :
    splitOn c (a ++ c :: b) = a :: splitOn c b := by
  induction a with
  | nil => simp [splitOn]
  | cons x a ih =>
    have hx : x ≠ c := fun e => h (e ▸ List.mem_cons_self)
    rw [List.cons_append, splitOn, if_neg hx, ih (fun hc => h (List.mem_cons_of_mem _ hc))]
    rfl

theorem splitOn_eq_self {c : Char} {a : List Char} (h : c ∉ a) : splitOn c a = [a] := by
  induction a with
  | nil => rfl
  | cons x a ih =>
    have hx : x ≠ c := fun e => h (e ▸ List.mem_cons_self)
    rw [splitOn, if_neg hx, ih (fun hc => h (List.mem_cons_of_mem _ hc))]
    rfl

/-- a text cut at a separator in it -/
theorem splitOn_at (c : Char) (a b : List Char) : splitOn c (a ++ c :: b) = splitOn c a ++ splitOn c b := by
  induction a with
  | nil =>
    show (if c = c then [] :: splitOn c b else _) = _
    exact if_pos rfl
  | cons x a ih =>
    rw [List.cons_append, splitOn, splitOn, ih]
    split
    · rfl
    · rw [consHead_append _ (splitOn_ne_nil c a)]

theorem mem_splitOn {c : Char} {s l : List Char} (h : l ∈ splitOn c s) : c ∉ l ∧ ∀ x ∈ l, x ∈ s := by
  induction s generalizing l with
  | nil =>
    rw [List.mem_singleton.mp h]
    exact ⟨nofun, nofun⟩
  | cons x s ih =>
    unfold splitOn at h
    split at h
    · rcases List.mem_cons.mp h with rfl | h
      · exact ⟨nofun, nofun⟩
      · exact ⟨(ih h).1, fun y hy => List.mem_cons_of_mem _ ((ih h).2 y hy)⟩
    · next hx =>
      rcases hs : splitOn c s with _ | ⟨m, ms⟩
      · exact absurd hs (splitOn_ne_nil c s)
      · rw [hs, consHead_cons] at h
        rw [hs] at ih
        rcases List.mem_cons.mp h with rfl | h
        · obtain ⟨hc, hin⟩ := ih List.mem_cons_self
          refine ⟨fun hmem => ?_, fun y hy => ?_⟩
          · rcases List.mem_cons.mp hmem with hmem | hmem
            · exact hx hmem.symm
            · exact hc hmem
          · rcases List.mem_cons.mp hy with rfl | hy
            · exact List.mem_cons_self
            · exact List.mem_cons_of_mem _ (hin y hy)
        · obtain ⟨hc, hin⟩ := ih (List.mem_cons_of_mem _ h)
          exact ⟨hc, fun y hy => List.mem_cons_of_mem _ (hin y hy)⟩

/-- the pieces of a part between separators are pieces of the text -/
theorem mem_splitOn_between {c : Char} {a s b l : List Char} (ha : a.all (· == c) = true) (hb : b.all (· == c) = true)
    (h : l ∈ splitOn c s) : l ∈ splitOn c (a ++ s ++ b) := by
  have hafter : l ∈ splitOn c (s ++ b) := by
    cases b with
    | nil => rwa [List.append_nil]
    | cons x b =>
      rw [List.all_cons, Bool.and_eq_true, beq_iff_eq] at hb
      rw [hb.1, splitOn_at]
      exact List.mem_append_left _ h
  rw [List.append_assoc]
  induction a with
  | nil => exact hafter
  | cons x a ih =>
    rw [List.all_cons, Bool.and_eq_true, beq_iff_eq] at ha
    rw [List.cons_append, splitOn, if_pos ha.1]
    exact List.mem_cons_of_mem _ (ih ha.2)

/-- a text behind separators -/
theorem splitOn_replicate (c : Char) (n : Nat) (s : List Char) :
    splitOn c (List.replicate n c ++ s) = List.replicate n [] ++ splitOn c s := by
  induction n with
  | zero => rfl
  | succ n ih =>
    rw [List.replicate_succ, List.replicate_succ, List.cons_append, List.cons_append, ← ih]
    exact splitOn_at c [] _

/-- a text before separators -/
theorem splitOn_append_replicate (c : Char) (n : Nat) (s : List Char) :
    splitOn c (s ++ List.replicate n c) = splitOn c s ++ List.replicate n [] := by
  induction n generalizing s with
  | zero => rw [List.replicate_zero, List.replicate_zero, List.append_nil, List.append_nil]
  | succ n ih =>
    have hnil : splitOn c ([] : List Char) = [[]] := rfl
    have hrest := ih []
    rw [List.nil_append, hnil] at hrest
    rw [List.replicate_succ, splitOn_at, hrest, List.replicate_succ, List.singleton_append]

theorem mem_splitOn_of_mem {c x : Char} {s : List Char} (hx : x ∈ s) (hne : x ≠ c) : ∃ l ∈ splitOn c s, x ∈ l := by
  induction s with
  | nil => cases hx
  | cons d s ih =>
    unfold splitOn
    split
    · next hd =>
      rcases List.mem_cons.mp hx with rfl | hx
      · exact absurd hd hne
      · obtain ⟨l, hl, hin⟩ := ih hx
        exact ⟨l, List.mem_cons_of_mem _ hl, hin⟩
    · rcases hs : splitOn c s with _ | ⟨m, ms⟩
      · exact absurd hs (splitOn_ne_nil c s)
      · rw [consHead_cons]
        rcases List.mem_cons.mp hx with rfl | hx
        · exact ⟨_, List.mem_cons_self, List.mem_cons_self⟩
        · obtain ⟨l, hl, hin⟩ := ih hx
          rw [hs] at hl
          rcases List.mem_cons.mp hl with rfl | hl
          · exact ⟨_, List.mem_cons_self, List.mem_append_right _ hin⟩
          · exact ⟨l, List.mem_cons_of_mem _ hl, hin⟩

/-- the next `skip` characters are what is left of the last separator found -/
def splitSub (sep : List Char) (skip : Nat) : List Char → List (List Char)
  | [] => [[]]
  | c :: cs =>
    match skip with
    | skip + 1 => splitSub sep skip cs
    | 0 =>
      if sep.isPrefixOf (c :: cs) then [] :: splitSub sep (sep.length - 1) cs
      else consHead [c] (splitSub sep 0 cs)

section
variable {x : Char} {sep a b : List Char}

theorem splitSub_skip (sep r b : List Char) : splitSub sep r.length (r ++ b) = splitSub sep 0 b := by
  induction r with
  | nil => rfl
  | cons c r ih => exact ih

theorem splitSub_step (h : x ∉ a) (b : List Char) :
    splitSub (x :: sep) 0 (a ++ b) = consHead a (splitSub (x :: sep) 0 b) := by
  have hne : splitSub (x :: sep) 0 b ≠ [] := by
    cases b with
    | nil => exact List.cons_ne_nil _ _
    | cons c b =>
      unfold splitSub
      dsimp only
      split
      · exact List.cons_ne_nil _ _
      · exact consHead_ne_nil _ _
  induction a with
  | nil => rw [consHead_empty hne]; rfl
  | cons c a ih =>
    have hx : c ≠ x := fun e => h (e ▸ List.mem_cons_self)
    have hp : (x :: sep).isPrefixOf (c :: (a ++ b)) = false := by
      simp [List.isPrefixOf, hx.symm]
    rw [List.cons_append, splitSub]
    rw [if_neg (by rw [hp]; exact Bool.false_ne_true), ih (fun hc => h (List.mem_cons_of_mem _ hc)), consHead_consHead]
    rfl

/-- a separator between two texts without its first character -/
theorem splitSub_pair (ha : x ∉ a) (hb : x ∉ b) : splitSub (x :: sep) 0 (a ++ (x :: sep) ++ b) = [a, b] := by
  have hsep : splitSub (x :: sep) 0 (x :: sep ++ b) = [] :: splitSub (x :: sep) 0 b := by
    have hp : (x :: sep).isPrefixOf (x :: (sep ++ b)) = true := by
      rw [List.isPrefixOf_iff_prefix]
      exact List.prefix_append (x :: sep) b
    rw [List.cons_append, splitSub]
    rw [if_pos hp]
    exact congrArg _ (splitSub_skip (x :: sep) sep b)
  have hlast : splitSub (x :: sep) 0 b = [b] := by
    have hstep : splitSub (x :: sep) 0 (b ++ []) = consHead b (splitSub (x :: sep) 0 []) := splitSub_step hb []
    rw [List.append_nil] at hstep
    rw [hstep]
    simp [splitSub]
  rw [List.append_assoc, splitSub_step ha, hsep, hlast]
  simp

end

/-! ## lines -/

/-- where `str.splitlines` breaks a line, `\r` apart -/
def isBreak (c : Char) : Bool :=
  let n := c.toNat
  (10 ≤ n && n ≤ 12) || (28 ≤ n && n ≤ 30) || n == 0x85 || n == 0x2028 || n == 0x2029

def splitLines : List Char → List (List Char)
  | [] => []
  | c :: cs => if isBreak c then [] :: splitLines cs else consHead [c] (splitLines cs)

def joinLines : List (List Char) → List Char
  | [] => []
  | [l] => l
  | l :: m :: ls => l ++ '\n' :: joinLines (m :: ls)

section
variable {s l t : List Char}

theorem splitLines_append (h : l.all (fun c => !isBreak c) = true) (t : List Char) :
    splitLines (l ++ '\n' :: t) = l :: splitLines t := by
  induction l with
  | nil =>
    show splitLines ('\n' :: t) = _
    rw [splitLines, if_pos (by decide)]
  | cons c l ih =>
    rw [List.all_cons, Bool.and_eq_true] at h
    have hc : isBreak c = false := by simpa using h.1
    rw [List.cons_append, splitLines, if_neg (by rw [hc]; exact Bool.false_ne_true), ih h.2]
    rfl

theorem splitLines_ne_nil (h : s ≠ []) : splitLines s ≠ [] := by
  cases s with
  | nil => exact absurd rfl h
  | cons c s =>
    unfold splitLines
    split
    · exact List.cons_ne_nil _ _
    · exact consHead_ne_nil _ _

theorem joinLines_consHead (p : List Char) (ls : List (List Char)) :
    joinLines (consHead p ls) = p ++ joinLines ls := by
  match ls with
  | [] => simp [joinLines]
  | [l] => rfl
  | l :: m :: ls => simp [joinLines]

theorem joinLines_append {ls ms : List (List Char)} (hl : ls ≠ []) (hm : ms ≠ []) :
    joinLines (ls ++ ms) = joinLines ls ++ '\n' :: joinLines ms := by
  induction ls with
  | nil => exact absurd rfl hl
  | cons l ls ih =>
    cases ls with
    | nil =>
      cases ms with
      | nil => exact absurd rfl hm
      | cons m ms => rfl
    | cons k ls =>
      show l ++ '\n' :: joinLines (k :: ls ++ ms) = (l ++ '\n' :: joinLines (k :: ls)) ++ _
      rw [ih (List.cons_ne_nil _ _), List.append_assoc]
      rfl

/-- a text is joined from its lines -/
theorem joinLines_splitOn (s : List Char) : joinLines (splitOn '\n' s) = s := by
  induction s with
  | nil => rfl
  | cons c s ih =>
    unfold splitOn
    split
    · next hc =>
      have hne := splitOn_ne_nil '\n' s
      cases hsplit : splitOn '\n' s with
      | nil => exact absurd hsplit hne
      | cons l ls =>
        show '\n' :: joinLines (l :: ls) = c :: s
        rw [← hsplit, ih, hc]
    · rw [joinLines_consHead, ih]
      rfl

/-- lines that are no longer are no longer when they are joined -/
theorem length_joinLines_le {ls ms : List (List Char)} (h : List.Forall₂ (fun l m => l.length ≤ m.length) ls ms) :
    (joinLines ls).length ≤ (joinLines ms).length := by
  induction h with
  | nil => exact Nat.le_refl _
  | @cons l m ls ms hlm hrest ih =>
    cases hrest with
    | nil => exact hlm
    | @cons l' m' ls ms hlm' hrest =>
      show (l ++ '\n' :: joinLines (l' :: ls)).length ≤ (m ++ '\n' :: joinLines (m' :: ms)).length
      rw [List.length_append, List.length_append, List.length_cons, List.length_cons]
      omega

/-- lines that are joined are split again -/
theorem splitOn_joinLines {ls : List (List Char)} (hne : ls ≠ []) (h : ∀ l ∈ ls, '\n' ∉ l) :
    splitOn '\n' (joinLines ls) = ls := by
  induction ls with
  | nil => exact absurd rfl hne
  | cons l ls ih =>
    cases ls with
    | nil => exact splitOn_eq_self (h l List.mem_cons_self)
    | cons m ls =>
      show splitOn '\n' (l ++ '\n' :: joinLines (m :: ls)) = _
      rw [splitOn_append (h l List.mem_cons_self),
        ih (List.cons_ne_nil _ _) (fun k hk => h k (List.mem_cons_of_mem _ hk))]

theorem joinLines_nil_cons {ls : List (List Char)} (h : ls ≠ []) : joinLines ([] :: ls) = '\n' :: joinLines ls := by
  cases ls with
  | nil => exact absurd rfl h
  | cons l ls => rfl

/-- joined again, a text has lost no more than its last newline -/
theorem joinLines_splitLines (h : s.all (fun c => c == '\n' || !isBreak c) = true) :
    s = joinLines (splitLines s) ∨ s = joinLines (splitLines s) ++ ['\n'] := by
  induction s with
  | nil => exact .inl rfl
  | cons c s ih =>
    rw [List.all_cons, Bool.and_eq_true] at h
    have ih := ih h.2
    by_cases hc : isBreak c = true
    · have hn : c = '\n' := by simpa [hc] using h.1
      rw [splitLines, if_pos hc, hn]
      by_cases hs : s = []
      · rw [hs]
        exact .inr rfl
      · rw [joinLines_nil_cons (splitLines_ne_nil hs)]
        rcases ih with ih | ih
        · exact .inl (congrArg _ ih)
        · exact .inr (congrArg _ ih)
    · rw [splitLines, if_neg hc, joinLines_consHead]
      rcases ih with ih | ih
      · exact .inl (congrArg _ ih)
      · exact .inr (congrArg _ ih)

theorem joinLines_splitLines_of_last (h : s.all (fun c => c == '\n' || !isBreak c) = true)
    (hlast : ∀ t, s ≠ t ++ ['\n']) : joinLines (splitLines s) = s := by
  rcases joinLines_splitLines h with e | e
  · exact e.symm
  · exact absurd e (hlast _)

theorem length_joinLines_splitLines_le (s : List Char) : (joinLines (splitLines s)).length ≤ s.length := by
  induction s with
  | nil => exact Nat.le_refl 0
  | cons c s ih =>
    unfold splitLines
    split
    · by_cases hs : splitLines s = []
      · rw [hs]
        exact Nat.zero_le _
      · rw [joinLines_nil_cons hs]
        exact Nat.succ_le_succ ih
    · rw [joinLines_consHead]
      show (c :: joinLines (splitLines s)).length ≤ _
      exact Nat.succ_le_succ ih

/-- no line of a text holds a line break -/
theorem splitLines_breaks {s : List Char} : ∀ l ∈ splitLines s, ∀ c ∈ l, isBreak c = false := by
  induction s with
  | nil =>
    intro l hl
    cases hl
  | cons x s ih =>
    intro l hl
    unfold splitLines at hl
    split at hl
    · rcases List.mem_cons.mp hl with rfl | hl
      · intro c hc
        cases hc
      · exact ih l hl
    · next hx =>
      rw [Bool.not_eq_true] at hx
      rcases hs : splitLines s with _ | ⟨m, ms⟩
      · rw [hs] at hl
        obtain rfl := List.mem_singleton.mp hl
        intro c hc
        rw [List.mem_singleton.mp hc]
        exact hx
      · rw [hs] at hl
        rcases List.mem_cons.mp hl with rfl | hl
        · intro c hc
          rcases List.mem_cons.mp hc with rfl | hc
          · exact hx
          · exact ih m (by rw [hs]; exact List.mem_cons_self) c hc
        · exact ih l (by rw [hs]; exact List.mem_cons_of_mem _ hl)

/-- what joined lines consist of -/
theorem mem_joinLines {ls : List (List Char)} {c : Char} (h : c ∈ joinLines ls) : c = '\n' ∨ ∃ l ∈ ls, c ∈ l := by
  induction ls with
  | nil => cases h
  | cons l ls ih =>
    cases ls with
    | nil => exact .inr ⟨l, List.mem_singleton_self l, h⟩
    | cons m ls =>
      rcases List.mem_append.mp h with h | h
      · exact .inr ⟨l, List.mem_cons_self, h⟩
      · rcases List.mem_cons.mp h with rfl | h
        · exact .inl rfl
        · rcases ih h with hc | ⟨k, hk, hc⟩
          · exact .inl hc
          · exact .inr ⟨k, List.mem_cons_of_mem _ hk, hc⟩

/-- newlines for `\r\n` and for the other carriage returns; `cr`: the last character was one -/
def unixFrom (cr : Bool) : List Char → List Char
  | [] => []
  | c :: cs =>
    if c = '\r' then '\n' :: unixFrom true cs
    else if c = '\n' ∧ cr = true then unixFrom false cs
    else c :: unixFrom false cs

/-- `s.replace("\r\n", "\n").replace("\r", "\n")` -/
def unixLines (s : List Char) : List Char := unixFrom false s

theorem unixLines_eq_self (h : '\r' ∉ s) : unixLines s = s := by
  induction s with
  | nil => rfl
  | cons c s ih =>
    have hc : c ≠ '\r' := fun e => h (e ▸ List.mem_cons_self)
    show unixFrom false (c :: s) = _
    rw [unixFrom, if_neg hc, if_neg (fun e => Bool.false_ne_true e.2)]
    exact congrArg _ (ih (fun hs => h (List.mem_cons_of_mem _ hs)))

theorem unixLines_noReturn (s : List Char) : '\r' ∉ unixLines s := by
  have h (cr : Bool) : '\r' ∉ unixFrom cr s := by
    induction s generalizing cr with
    | nil => exact nofun
    | cons c s ih =>
      unfold unixFrom
      intro hmem
      split at hmem
      · rcases List.mem_cons.mp hmem with hmem | hmem
        · exact absurd hmem (by decide)
        · exact ih true hmem
      · split at hmem
        · exact ih false hmem
        · next hc _ =>
          rcases List.mem_cons.mp hmem with hmem | hmem
          · exact hc hmem.symm
          · exact ih false hmem
  exact h false

theorem length_unixLines_le (s : List Char) : (unixLines s).length ≤ s.length := by
  have h (cr : Bool) : (unixFrom cr s).length ≤ s.length := by
    induction s generalizing cr with
    | nil => exact Nat.le_refl _
    | cons c s ih =>
      have hnewline := ih true
      have hother := ih false
      unfold unixFrom
      split
      · rw [List.length_cons, List.length_cons]
        omega
      · split
        · rw [List.length_cons]
          omega
        · rw [List.length_cons, List.length_cons]
          omega
  exact h false

/-- what is neither a newline nor a carriage return stays -/
theorem mem_unixLines {c : Char} {s : List Char} (hc : c ∈ s) (hnewline : c ≠ '\n') (hreturn : c ≠ '\r') :
    c ∈ unixLines s := by
  have h (cr : Bool) : c ∈ unixFrom cr s := by
    induction s generalizing cr with
    | nil => cases hc
    | cons d s ih =>
      unfold unixFrom
      rcases List.mem_cons.mp hc with rfl | hc
      · rw [if_neg hreturn, if_neg (fun h => hnewline h.1)]
        exact List.mem_cons_self
      · split
        · exact List.mem_cons_of_mem _ (ih hc true)
        · split
          · exact ih hc false
          · exact List.mem_cons_of_mem _ (ih hc false)
  exact h false

end

/-! ## blocks -/

/-- `newlines` newlines in front of blocks: a separator from two on -/
def gap (newlines : Nat) (bs : List (List Char)) : List (List Char) :=
  if newlines < 2 then consHead (List.replicate newlines '\n') bs else [] :: bs

/-- the blocks of a text that `newlines` newlines come before -/
def blocksFrom (newlines : Nat) : List Char → List (List Char)
  | [] => gap newlines [[]]
  | c :: cs => if c = '\n' then blocksFrom (newlines + 1) cs else gap newlines (consHead [c] (blocksFrom 0 cs))

def splitBlocks (s : List Char) : List (List Char) := blocksFrom 0 s

section
variable {s t l a b p q : List Char} {bs : List (List Char)} {n : Nat}

theorem gap_ne_nil (n : Nat) (bs : List (List Char)) : gap n bs ≠ [] := by
  unfold gap
  split
  · exact consHead_ne_nil _ _
  · exact List.cons_ne_nil _ _

theorem blocksFrom_ne_nil (n : Nat) (s : List Char) : blocksFrom n s ≠ [] := by
  induction s generalizing n with
  | nil => exact gap_ne_nil _ _
  | cons c s ih =>
    unfold blocksFrom
    split
    · exact ih _
    · exact gap_ne_nil _ _

theorem gap_append (h : bs ≠ []) (cs : List (List Char)) : gap n (bs ++ cs) = gap n bs ++ cs := by
  unfold gap
  split
  · exact consHead_append _ h
  · rfl

theorem gap_zero (h : bs ≠ []) : gap 0 bs = bs := consHead_empty h

/-- newlines in front of a text that does not begin with one -/
theorem blocksFrom_cons {c : Char} (hc : c ≠ '\n') (n : Nat) (s : List Char) :
    blocksFrom n (c :: s) = gap n (splitBlocks (c :: s)) := by
  have h0 : splitBlocks (c :: s) = consHead [c] (blocksFrom 0 s) := by
    show blocksFrom 0 (c :: s) = _
    rw [blocksFrom, if_neg hc, gap_zero (consHead_ne_nil _ _)]
  rw [h0, blocksFrom, if_neg hc]

/-- the text does not begin with a newline, and is not empty -/
def Opens (s : List Char) : Prop := ∃ c t, s = c :: t ∧ c ≠ '\n'

/-- the text does not end with a newline, and is not empty -/
def Closes (s : List Char) : Prop := ∃ t c, s = t ++ [c] ∧ c ≠ '\n'

theorem blocksFrom_append (ha : Closes a) (hb : Opens b) (n : Nat) :
    blocksFrom n (a ++ '\n' :: '\n' :: b) = blocksFrom n a ++ splitBlocks b := by
  obtain ⟨t, c, rfl, hc⟩ := ha
  obtain ⟨d, b, rfl, hd⟩ := hb
  have htwo : blocksFrom 0 ('\n' :: '\n' :: d :: b) = [] :: splitBlocks (d :: b) := by
    rw [blocksFrom, if_pos rfl, blocksFrom, if_pos rfl, blocksFrom_cons hd]
    rfl
  induction t generalizing n with
  | nil =>
    show blocksFrom n (c :: '\n' :: '\n' :: d :: b) = blocksFrom n [c] ++ _
    rw [blocksFrom, if_neg hc, htwo, blocksFrom, if_neg hc, ← gap_append (consHead_ne_nil _ _)]
    rfl
  | cons e t ih =>
    rw [List.cons_append, List.cons_append, blocksFrom, blocksFrom]
    by_cases he : e = '\n'
    · rw [if_pos he, if_pos he]
      exact ih _
    · rw [if_neg he, if_neg he, ih, consHead_append _ (blocksFrom_ne_nil _ _), gap_append (consHead_ne_nil _ _)]

/-- **A blank line cuts.** -/
theorem splitBlocks_append (ha : Closes a) (hb : Opens b) :
    splitBlocks (a ++ '\n' :: '\n' :: b) = splitBlocks a ++ splitBlocks b := blocksFrom_append ha hb 0

/-- a line in front of a text belongs to its first block -/
theorem splitBlocks_line (hl : '\n' ∉ l) (ht : Opens t) :
    splitBlocks (l ++ '\n' :: t) = consHead (l ++ ['\n']) (splitBlocks t) := by
  obtain ⟨d, t, rfl, hd⟩ := ht
  induction l with
  | nil =>
    show blocksFrom 0 ('\n' :: d :: t) = _
    rw [blocksFrom, if_pos rfl, blocksFrom_cons hd]
    rfl
  | cons c l ih =>
    have hc : c ≠ '\n' := fun e => hl (e ▸ List.mem_cons_self)
    have ih := ih (fun h => hl (List.mem_cons_of_mem _ h))
    show blocksFrom 0 (c :: (l ++ '\n' :: d :: t)) = _
    rw [blocksFrom, if_neg hc, gap_zero (consHead_ne_nil _ _)]
    show consHead [c] (splitBlocks (l ++ '\n' :: d :: t)) = _
    rw [ih, consHead_consHead]
    rfl

/-- texts with a blank line between each two -/
def joinBlocks : List (List Char) → List Char
  | [] => []
  | [b] => b
  | b :: c :: bs => b ++ '\n' :: '\n' :: joinBlocks (c :: bs)

theorem joinBlocks_cons (b : List Char) (bs : List (List Char)) : ∃ rest, joinBlocks (b :: bs) = b ++ rest := by
  cases bs with
  | nil => exact ⟨[], (List.append_nil _).symm⟩
  | cons c bs => exact ⟨_, rfl⟩

theorem mem_joinBlocks {c : Char} (h : c ∈ joinBlocks bs) : c = '\n' ∨ ∃ b ∈ bs, c ∈ b := by
  induction bs with
  | nil => cases h
  | cons b bs ih =>
    cases bs with
    | nil => exact .inr ⟨b, List.mem_singleton_self b, h⟩
    | cons d bs =>
      simp only [joinBlocks, List.mem_append, List.mem_cons] at h
      rcases h with h | h | h | h
      · exact .inr ⟨b, List.mem_cons_self, h⟩
      · exact .inl h
      · exact .inl h
      · rcases ih h with hc | ⟨k, hk, hc⟩
        · exact .inl hc
        · exact .inr ⟨k, List.mem_cons_of_mem _ hk, hc⟩

theorem Sharp.opens (h : Sharp s) : Opens s ∧ Closes s := by
  have hspace : ∀ {c : Char}, isSpace c = false → c ≠ '\n' := by
    rintro c hc rfl
    exact absurd hc (by decide)
  obtain ⟨⟨c, t, hs, hc⟩, t', c', hs', hc'⟩ := h
  exact ⟨⟨c, t, hs, hspace hc⟩, ⟨t', c', hs', hspace hc'⟩⟩

/-- joined blocks begin as the first does and end as the last does -/
theorem sharp_joinBlocks (hbs : bs ≠ []) (h : ∀ b ∈ bs, Sharp b) : Sharp (joinBlocks bs) := by
  induction bs with
  | nil => exact absurd rfl hbs
  | cons b bs ih =>
    have hb := h b List.mem_cons_self
    cases bs with
    | nil => exact hb
    | cons c bs =>
      have hrest := ih (List.cons_ne_nil _ _) (fun x hx => h x (List.mem_cons_of_mem _ hx))
      obtain ⟨d, t, hd, hspace⟩ := hb.1
      have hsplit : joinBlocks (b :: c :: bs) = (b ++ ['\n', '\n']) ++ joinBlocks (c :: bs) := by
        simp [joinBlocks]
      rw [hsplit]
      exact Sharp.append ⟨d, t ++ ['\n', '\n'], by rw [hd]; rfl, hspace⟩ hrest

theorem opens_append (h : Opens a) (b : List Char) : Opens (a ++ b) := by
  obtain ⟨c, t, rfl, hc⟩ := h
  exact ⟨c, t ++ b, rfl, hc⟩

theorem closes_append (a : List Char) (h : Closes b) : Closes (a ++ b) := by
  obtain ⟨t, c, rfl, hc⟩ := h
  exact ⟨a ++ t, c, (List.append_assoc ..).symm, hc⟩

theorem opens_joinBlocks (hbs : bs ≠ []) (h : ∀ b ∈ bs, Opens b) : Opens (joinBlocks bs) := by
  match bs, hbs with
  | [b], _ => exact h b (List.mem_singleton_self b)
  | b :: c :: bs, _ => exact opens_append (h b List.mem_cons_self) _

/-- **The blocks of joined texts are the blocks of each.** -/
theorem splitBlocks_joinBlocks (hbs : bs ≠ []) (ho : ∀ b ∈ bs, Opens b) (hc : ∀ b ∈ bs, Closes b) :
    splitBlocks (joinBlocks bs) = bs.flatMap splitBlocks := by
  induction bs with
  | nil => exact absurd rfl hbs
  | cons b bs ih =>
    cases bs with
    | nil => simp [joinBlocks]
    | cons c bs =>
      have ho' : ∀ x ∈ c :: bs, Opens x := fun x hx => ho x (List.mem_cons_of_mem _ hx)
      show splitBlocks (b ++ '\n' :: '\n' :: joinBlocks (c :: bs)) = _
      rw [splitBlocks_append (hc b List.mem_cons_self) (opens_joinBlocks (List.cons_ne_nil _ _) ho'),
        ih (List.cons_ne_nil _ _) ho' (fun x hx => hc x (List.mem_cons_of_mem _ hx))]
      exact List.flatMap_cons.symm

/-- rows of lines, an empty line after each -/
theorem joinLines_rows {rows : List (List (List Char))} (hrows : rows ≠ []) (h : ∀ r ∈ rows, r ≠ []) :
    joinLines (rows.flatMap (fun r => r ++ [[]])) = joinBlocks (rows.map joinLines) ++ ['\n'] := by
  induction rows with
  | nil => exact absurd rfl hrows
  | cons r rows ih =>
    have hr := h r List.mem_cons_self
    cases rows with
    | nil =>
      show joinLines ((r ++ [[]]) ++ []) = joinLines r ++ ['\n']
      rw [List.append_nil, joinLines_append hr (List.cons_ne_nil _ _)]
      rfl
    | cons r' rows =>
      have hrest := ih (List.cons_ne_nil _ _) (fun x hx => h x (List.mem_cons_of_mem _ hx))
      have hne : (r' :: rows).flatMap (fun r => r ++ [[]]) ≠ [] := by
        intro e
        rw [List.flatMap_cons] at e
        exact List.append_ne_nil_of_right_ne_nil r' (List.cons_ne_nil _ _) (List.append_eq_nil_iff.mp e).1
      rw [List.flatMap_cons, List.append_assoc, List.singleton_append,
        joinLines_append hr (List.cons_ne_nil _ _), joinLines_nil_cons hne, hrest]
      show _ = (joinLines r ++ '\n' :: '\n' :: joinBlocks ((r' :: rows).map joinLines)) ++ _
      rw [List.append_assoc]
      rfl

theorem consHead_singleton (hbs : bs ≠ []) (h : consHead q bs = [p]) : ∃ r, bs = [r] ∧ p = q ++ r := by
  match bs, hbs with
  | [r], _ =>
    cases h
    exact ⟨r, rfl, rfl⟩

theorem gap_singleton (hbs : bs ≠ []) (h : gap n bs = [p]) : ∃ r, bs = [r] ∧ p = List.replicate n '\n' ++ r := by
  unfold gap at h
  split at h
  · exact consHead_singleton hbs h
  · cases h
    exact absurd rfl hbs

theorem blocksFrom_singleton (h : blocksFrom n s = [p]) : p = List.replicate n '\n' ++ s := by
  induction s generalizing n p with
  | nil =>
    obtain ⟨q, hq, rfl⟩ := gap_singleton (List.cons_ne_nil _ _) h
    cases hq
    rfl
  | cons c s ih =>
    rw [blocksFrom] at h
    split at h
    · next hc =>
      rw [ih h, hc, List.replicate_succ', List.append_assoc]
      rfl
    · obtain ⟨q, hq, rfl⟩ := gap_singleton (consHead_ne_nil _ _) h
      obtain ⟨r, hr, rfl⟩ := consHead_singleton (blocksFrom_ne_nil _ _) hq
      rw [ih hr]
      rfl

/-- **A text that is one block is that block.** -/
theorem splitBlocks_singleton (h : splitBlocks s = [p]) : p = s := blocksFrom_singleton h

/-- two newlines in a row -/
def blankLine : List Char := ['\n', '\n']

theorem infix_cons_of_ne {c : Char} (hc : c ≠ '\n') : blankLine <:+: c :: s ↔ blankLine <:+: s := by
  rw [List.infix_cons_iff]
  constructor
  · rintro (h | h)
    · exact absurd (List.cons_prefix_cons.mp h).1.symm hc
    · exact h
  · exact .inr

theorem blocksFrom_singleton_iff (n : Nat) :
    (∃ p, blocksFrom n s = [p]) ↔ ¬ blankLine <:+: List.replicate n '\n' ++ s := by
  have htwo : ∀ (m : Nat) (t : List Char), blankLine <:+: List.replicate (m + 2) '\n' ++ t :=
    fun m t => ⟨[], List.replicate m '\n' ++ t, rfl⟩
  induction s generalizing n with
  | nil =>
    match n with
    | 0 => exact ⟨fun _ => by decide, fun _ => ⟨_, rfl⟩⟩
    | 1 => exact ⟨fun _ => by decide, fun _ => ⟨_, rfl⟩⟩
    | m + 2 =>
      constructor
      · rintro ⟨p, h⟩
        cases h
      · exact fun h => absurd (htwo m []) h
  | cons c s ih =>
    by_cases hc : c = '\n'
    · have ih := ih (n + 1)
      rw [List.replicate_succ', List.append_assoc] at ih
      rw [blocksFrom, if_pos hc, hc]
      exact ih
    · have hrest : (∃ p, blocksFrom n (c :: s) = [p]) ↔ n < 2 ∧ ∃ p, blocksFrom 0 s = [p] := by
        rw [blocksFrom, if_neg hc]
        constructor
        · rintro ⟨p, h⟩
          obtain ⟨q, hq, -⟩ := gap_singleton (consHead_ne_nil _ _) h
          obtain ⟨r, hr, -⟩ := consHead_singleton (blocksFrom_ne_nil _ _) hq
          refine ⟨?_, r, hr⟩
          by_contra hn
          rw [gap, if_neg hn] at h
          exact consHead_ne_nil _ _ (List.cons.inj h).2
        · rintro ⟨hn, p, h⟩
          rw [h, gap, if_pos hn]
          exact ⟨_, rfl⟩
      have ih : (∃ p, blocksFrom 0 s = [p]) ↔ ¬ blankLine <:+: s := ih 0
      refine hrest.trans ((and_congr_right fun _ => ih).trans ?_)
      match n with
      | 0 =>
        show _ ↔ ¬ blankLine <:+: c :: s
        rw [infix_cons_of_ne hc]
        exact ⟨fun h => h.2, fun h => ⟨by decide, h⟩⟩
      | 1 =>
        show _ ↔ ¬ blankLine <:+: '\n' :: c :: s
        rw [List.infix_cons_iff, infix_cons_of_ne hc]
        constructor
        · rintro ⟨-, h⟩ (hp | hp)
          · exact hc (List.cons_prefix_cons.mp (List.cons_prefix_cons.mp hp).2).1.symm
          · exact h hp
        · exact fun h => ⟨by decide, fun hs => h (.inr hs)⟩
      | m + 2 => exact ⟨fun h => absurd h.1 (by omega), fun h => absurd (htwo m (c :: s)) h⟩

/-- **A text is one block iff it has no blank line.** -/
theorem splitBlocks_eq_self_iff : splitBlocks s = [s] ↔ ¬ blankLine <:+: s := by
  have h := blocksFrom_singleton_iff (s := s) 0
  rw [List.replicate_zero, List.nil_append] at h
  refine Iff.trans ⟨fun e => ⟨s, e⟩, ?_⟩ h
  rintro ⟨p, e⟩
  have hp : p = s := blocksFrom_singleton e
  rw [hp] at e
  exact e

theorem blocksFrom_shorter (h : blocksFrom n s = p :: q :: bs) : p.length < n + s.length := by
  induction s generalizing n p q bs with
  | nil =>
    unfold blocksFrom gap at h
    split at h
    · cases h
    · next hn =>
      cases h
      show 0 < n + 0
      omega
  | cons c s ih =>
    rw [List.length_cons]
    rw [blocksFrom] at h
    split at h
    · have := ih h
      omega
    · unfold gap at h
      split at h
      · rw [consHead_consHead] at h
        rcases hb : blocksFrom 0 s with _ | ⟨r, _ | ⟨r', rest⟩⟩
        · exact absurd hb (blocksFrom_ne_nil _ _)
        · rw [hb] at h
          cases h
        · have := ih hb
          rw [hb] at h
          cases h
          rw [List.length_append, List.length_append, List.length_replicate, List.length_singleton]
          omega
      · obtain ⟨rfl, -⟩ := List.cons.inj h
        show 0 < _
        omega

/-- **The first of several blocks is shorter than the text.** -/
theorem splitBlocks_shorter (h : splitBlocks s = p :: q :: bs) : p.length < s.length := by
  have := blocksFrom_shorter h
  omega

end

end Text
