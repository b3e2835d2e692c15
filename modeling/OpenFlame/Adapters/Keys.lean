import OpenFlame.Adapters.Probe
import OpenFlame.Base.Trim

/-!
# What a probe returns can be downloaded

`Whole`, `Encodable`     what is asked of the id of an entry, and of its texts
`Plain`                  an entry that has both
`PayloadFits`                   the payloads whose accepted entries have distinct keys only if they are plain
`Downloadable`           what is asked of an outcome

* `safeText_mediaKey`         a key is its own cleaned text iff its id is not cut after a space;
* `collectItems_eq_ok`        the items are made iff their keys are distinct;
* `discoveryHash_isSome`      they are hashed iff every text kept of an entry is encodable;
* `parseProbeResult_exact`    **the outcome is downloadable or an adapter failure iff the payload fits.**
-/

set_option linter.all false

namespace OpenFlame.Adapters
open Guard Points

def IsAdapterFailure (e : ProbeFailure) : Prop := ∃ code message, e = .adapter code message

theorem isAdapterFailure_broken (message : String) : IsAdapterFailure (extractorBroken message) := ⟨_, _, rfl⟩

theorem isAdapterFailure_validation (message : String) : IsAdapterFailure (validationFailed message) := ⟨_, _, rfl⟩

/-! ## texts -/

/-- the text that is cut to its first characters -/
def cleaned (s : Text) : Text := strip (s.map cleanPoint)

section
variable {F : Type} {n : Nat} {s t : Text}

theorem safeText_str : safeText n (.str s : Value F) = if cleaned s = [] then none else some ((cleaned s).take n) := rfl

@[simp] theorem cleanPoint_cleanPoint (p : Point) : cleanPoint (cleanPoint p) = cleanPoint p := by
  unfold cleanPoint
  by_cases h : 0x20 ≤ p.toNat ∧ p.toNat ≠ 0x7F
  · rw [if_pos h, if_pos h]
  · rw [if_neg h]
    rfl

/-- a part of a cleaned text has nothing left to clean -/
theorem map_cleanPoint_take : ((cleaned s).take n).map cleanPoint = (cleaned s).take n := by
  have hmem : ∀ p ∈ (cleaned s).take n, cleanPoint p = p := by
    intro p hp
    have hp' : p ∈ s.map cleanPoint := (strip_isInfix _).subset (List.mem_of_mem_take hp)
    obtain ⟨q, -, rfl⟩ := List.mem_map.mp hp'
    exact cleanPoint_cleanPoint q
  calc ((cleaned s).take n).map cleanPoint = ((cleaned s).take n).map id := List.map_congr_left hmem
    _ = (cleaned s).take n := List.map_id _

theorem surrogate_cleaned : surrogate (cleaned s) = surrogate s := by
  unfold cleaned
  rw [surrogate_strip]
  unfold surrogate
  rw [List.any_map]
  refine congrArg (List.any s) (funext fun p => ?_)
  show (cleanPoint p).isSurrogate = p.isSurrogate
  unfold cleanPoint
  by_cases h : 0x20 ≤ p.toNat ∧ p.toNat ≠ 0x7F
  · rw [if_pos h]
  · rw [if_neg h]
    cases p with
    | scalar c => rfl
    | surrogate u =>
      have : (Point.surrogate u).toNat = 0xD800 + u.1 := rfl
      omega

theorem trimmed_strip (s : Text) : Trim.Trimmed Point.isSpace (strip s) := by
  obtain ⟨_, _, -, -, -, h⟩ := Trim.exists_trim Point.isSpace s
  exact h

/-- a text that is stripped is no longer -/
theorem length_strip_le (s : Text) : (strip s).length ≤ s.length := (strip_isInfix s).length_le

/-- a cut text is its own stripped text iff it is not cut after a space -/
theorem strip_take_iff (ht : Trim.Trimmed Point.isSpace t) (hn : 0 < n) :
    strip (t.take n) = t.take n ↔ ∀ p ∈ t[n - 1]?, p.isSpace = false := by
  have hlast : t[n - 1]? = none ∨ (t.take n).getLast? = t[n - 1]? := by
    by_cases h : n ≤ t.length
    · right
      rw [List.getLast?_eq_getElem?, List.length_take, Nat.min_eq_left h, List.getElem?_take_of_lt (by omega)]
    · left
      rw [List.getElem?_eq_none_iff]
      omega
  constructor
  · intro h p hp
    rcases hlast with hnone | hlast
    · rw [hnone] at hp
      cases hp
    · rw [← hlast, ← h] at hp
      exact (trimmed_strip _).2 p hp
  · intro h
    refine Trim.trim_self ⟨fun p hp => ?_, fun p hp => ?_⟩
    · refine ht.1 p ?_
      cases t with
      | nil => rw [List.take_nil] at hp; exact hp
      | cons q t =>
        obtain ⟨m, rfl⟩ : ∃ m, n = m + 1 := ⟨n - 1, by omega⟩
        exact hp
    · rcases hlast with hnone | hlast
      · have hshort : t.length ≤ n := by
          rw [List.getElem?_eq_none_iff] at hnone
          omega
        rw [List.take_of_length_le hshort] at hp
        exact ht.2 p hp
      · rw [hlast] at hp
        exact h p hp

/-- what is kept of a cut text is that text iff it is not cut after a space -/
theorem safeText_cut (hs : cleaned s ≠ []) (hn : 0 < n) :
    safeText n (.str ((cleaned s).take n) : Value F) = some ((cleaned s).take n) ↔
      ∀ p ∈ (cleaned s)[n - 1]?, p.isSpace = false := by
  rw [← strip_take_iff (t := cleaned s) (trimmed_strip _) hn, safeText_str]
  have hcleaned : cleaned ((cleaned s).take n) = strip ((cleaned s).take n) := by
    show strip (((cleaned s).take n).map cleanPoint) = _
    rw [map_cleanPoint_take]
  rw [hcleaned]
  have hne : (cleaned s).take n ≠ [] := by
    intro h
    rcases List.take_eq_nil_iff.mp h with h | h
    · omega
    · exact hs h
  constructor
  · intro h
    by_cases hnil : strip ((cleaned s).take n) = []
    · rw [if_pos hnil] at h
      cases h
    · rw [if_neg hnil] at h
      -- nothing is cut a second time, so nothing was stripped
      have heq : (strip ((cleaned s).take n)).take n = (cleaned s).take n := Option.some.inj h
      have hlength := congrArg List.length heq
      rw [List.length_take] at hlength
      have hle := length_strip_le ((cleaned s).take n)
      rw [List.take_of_length_le (by rw [List.length_take] at hle; omega)] at heq
      exact heq
  · intro h
    change strip ((cleaned s).take n) = (cleaned s).take n at h
    rw [h, if_neg hne, List.take_take, Nat.min_self]

/-- a text of characters that are neither controls nor spaces is kept -/
theorem safeText_dense (h : ∀ p ∈ s, cleanPoint p = p ∧ p.isSpace = false) (hs : s ≠ []) (hlength : s.length ≤ n) :
    safeText n (.str s : Value F) = some s := by
  have hmap : s.map cleanPoint = s := by
    calc s.map cleanPoint = s.map id := List.map_congr_left (fun p hp => (h p hp).1)
      _ = s := List.map_id s
  have hcleaned : cleaned s = s := by
    unfold cleaned
    rw [hmap]
    exact Trim.trim_self ⟨fun p hp => (h p (List.mem_of_mem_head? hp)).2, fun p hp => (h p (List.mem_of_mem_getLast? hp)).2⟩
  rw [safeText_str, hcleaned, if_neg hs, List.take_of_length_le hlength]

end

/-! ## entries -/

section
variable {F : Type}

/-- an id that is not cut after a space -/
def Whole (v : Value F) : Prop := ∀ s, text? v = some s → ∀ p ∈ (cleaned s)[255]?, p.isSpace = false

/-- a text whose first characters are no surrogates -/
def Encodable (n : Nat) (v : Value F) : Prop := ∀ s, text? v = some s → surrogate ((cleaned s).take n) = false

def metadataTexts : List String := ["uploader", "uploader_id", "channel", "channel_id", "extractor_key", "live_status", "ext"]

/-- an entry whose id is whole and whose kept texts can be encoded -/
structure Plain (entry : List (Text × Value F)) : Prop where
  whole : Whole (get entry "id")
  id : Encodable 256 (get entry "id")
  title : Encodable 512 (get entry "title")
  metadata : ∀ name ∈ metadataTexts, Encodable 256 (get entry name)

theorem encodable_iff {n : Nat} {v : Value F} : Encodable n v ↔ ∀ t ∈ safeText n v, surrogate t = false := by
  unfold Encodable safeText
  cases htext : text? v with
  | none => exact ⟨fun _ t ht => (nomatch ht), fun _ s hs => (nomatch hs)⟩
  | some s =>
    show (∀ s', some s = some s' → _) ↔ ∀ t ∈ (if cleaned s = [] then none else some ((cleaned s).take n)), _
    by_cases hnil : cleaned s = []
    · rw [if_pos hnil]
      refine ⟨fun _ t ht => (nomatch ht), fun _ s' hs => ?_⟩
      obtain rfl := Option.some.inj hs
      rw [hnil, List.take_nil]
      rfl
    · rw [if_neg hnil]
      constructor
      · intro h t ht
        obtain rfl := Option.some.inj ht
        exact h s rfl
      · intro h s' hs
        obtain rfl := Option.some.inj hs
        exact h _ rfl

variable (lib : ProbeLib F) (request : ProbeRequest)

/-- a derived key has neither controls nor spaces -/
theorem derivedMediaKey_dense {canonical_url : List Char} {ordinal : Nat} :
    ∀ p ∈ derivedMediaKey lib canonical_url ordinal, cleanPoint p = p ∧ p.isSpace = false := by
  have hhex : ∀ c : Char, (c.isDigit || ('a' ≤ c && c ≤ 'f')) = true →
      cleanPoint (.scalar c) = .scalar c ∧ (Point.scalar c).isSpace = false := by
    intro c hc
    have hrange : 0x30 ≤ c.toNat ∧ c.toNat ≤ 0x66 := by
      rw [Bool.or_eq_true, Bool.and_eq_true, decide_eq_true_eq, decide_eq_true_eq] at hc
      rcases hc with hdigit | ⟨ha, hf⟩
      · unfold Char.isDigit at hdigit
        rw [Bool.and_eq_true, decide_eq_true_eq, decide_eq_true_eq] at hdigit
        have h1 : (48 : UInt32).toNat ≤ c.val.toNat := hdigit.1
        have h2 : c.val.toNat ≤ (57 : UInt32).toNat := hdigit.2
        show 0x30 ≤ c.val.toNat ∧ c.val.toNat ≤ 0x66
        exact ⟨h1, h2.trans (by decide)⟩
      · have h1 : ('a' : Char).toNat ≤ c.toNat := ha
        have h2 : c.toNat ≤ ('f' : Char).toNat := hf
        exact ⟨le_trans (by decide) h1, h2.trans (by decide)⟩
    constructor
    · unfold cleanPoint
      rw [if_pos]
      show 0x20 ≤ c.toNat ∧ c.toNat ≠ 0x7F
      omega
    · show Text.isSpace c = false
      unfold Text.isSpace
      simp only [Bool.or_eq_false_iff, Bool.and_eq_false_iff, decide_eq_false_iff_not, beq_eq_false_iff_ne]
      omega
  intro p hp
  unfold derivedMediaKey at hp
  rcases List.mem_append.mp hp with hp | hp
  · have hprefix : ∀ p ∈ Points.text "derived-", cleanPoint p = p ∧ p.isSpace = false := by decide
    exact hprefix p hp
  · obtain ⟨c, hc, rfl⟩ := List.mem_map.mp hp
    exact hhex c (List.all_eq_true.mp (lib.hex_sha256 _).2 c (List.mem_of_mem_take hc))

theorem derivedMediaKey_surrogate {canonical_url : List Char} {ordinal : Nat} :
    surrogate (derivedMediaKey lib canonical_url ordinal) = false := by
  unfold derivedMediaKey
  rw [surrogate_append, surrogate_text, surrogate_ofChars]
  rfl

/-- a derived key is its own cleaned text -/
theorem safeText_derivedMediaKey {canonical_url : List Char} {ordinal : Nat} :
    safeText 256 (.str (derivedMediaKey lib canonical_url ordinal) : Value Unit) =
      some (derivedMediaKey lib canonical_url ordinal) := by
  refine safeText_dense (derivedMediaKey_dense lib) (fun h => nomatch h) ?_
  unfold derivedMediaKey ofChars
  rw [List.length_append, List.length_map, List.length_take]
  have : (Points.text "derived-").length = 8 := by decide
  omega

/-- **A key is its own cleaned text iff its id is whole.** -/
theorem safeText_mediaKey {ordinal : Nat} {entry : List (Text × Value F)} :
    safeText 256 (.str (mediaKey lib request ordinal entry) : Value Unit) = some (mediaKey lib request ordinal entry) ↔
      Whole (get entry "id") := by
  unfold mediaKey Whole
  generalize get entry "id" = v
  unfold safeText
  cases htext : text? v with
  | none => exact iff_of_true (safeText_derivedMediaKey lib) (fun s hs => nomatch hs)
  | some s =>
    show safeText 256 (.str (Option.getD (if cleaned s = [] then none else some ((cleaned s).take 256)) _) : Value Unit) =
      some (Option.getD (if cleaned s = [] then none else some ((cleaned s).take 256)) _) ↔ _
    by_cases hnil : cleaned s = []
    · rw [if_pos hnil]
      refine iff_of_true (safeText_derivedMediaKey lib) (fun s' hs => ?_)
      obtain rfl := Option.some.inj hs
      rw [hnil]
      exact fun p hp => nomatch hp
    · rw [if_neg hnil]
      refine (safeText_cut hnil (by decide)).trans ⟨fun h s' hs => ?_, fun h => h s rfl⟩
      obtain rfl := Option.some.inj hs
      exact h

/-- a key has a surrogate iff its id has one in what is kept of it -/
theorem surrogate_mediaKey (ordinal : Nat) {entry : List (Text × Value F)} :
    surrogate (mediaKey lib request ordinal entry) = false ↔ Encodable 256 (get entry "id") := by
  rw [encodable_iff]
  unfold mediaKey
  cases safeText 256 (get entry "id") with
  | none => exact iff_of_true (derivedMediaKey_surrogate lib) (fun t ht => nomatch ht)
  | some s =>
    refine ⟨fun h t ht => ?_, fun h => h s rfl⟩
    obtain rfl := Option.some.inj ht
    exact h

/-! ## items -/

/-- the keys of entries from the `ordinal`-th on -/
def keysFrom (ordinal : Nat) (entries : List (List (Text × Value F))) : List Text :=
  (entries.zipIdx ordinal).map (fun e => mediaKey lib request e.2 e.1)

def itemsFrom (ordinal : Nat) (entries : List (List (Text × Value F))) : List (ProbeItem F) :=
  (entries.zipIdx ordinal).map (fun e => probeItem lib request e.2 e.1)

theorem itemsFrom_keys {ordinal : Nat} {entries : List (List (Text × Value F))} :
    (itemsFrom lib request ordinal entries).map ProbeItem.media_key = keysFrom lib request ordinal entries := by
  unfold itemsFrom keysFrom
  rw [List.map_map]
  rfl

/-- **The items are made iff no key comes twice, or is one of those before.** -/
theorem collectItems_eq_ok {ordinal : Nat} {media_keys : List Text} {entries : List (List (Text × Value F))}
    {items : List (ProbeItem F)} :
    collectItems lib request ordinal media_keys entries = .ok items ↔
      ((keysFrom lib request ordinal entries).Nodup ∧ ∀ k ∈ keysFrom lib request ordinal entries, k ∉ media_keys) ∧
        itemsFrom lib request ordinal entries = items := by
  induction entries generalizing ordinal media_keys items with
  | nil =>
    have hrun : collectItems lib request ordinal media_keys [] = .ok [] := rfl
    rw [hrun]
    constructor
    · intro h
      exact ⟨⟨List.nodup_nil, fun k hk => nomatch hk⟩, Except.ok.inj h⟩
    · intro h
      exact congrArg Except.ok h.2
  | cons entry entries ih =>
    have hkeys : keysFrom lib request ordinal (entry :: entries) =
      mediaKey lib request ordinal entry :: keysFrom lib request (ordinal + 1) entries := rfl
    have hitems : itemsFrom lib request ordinal (entry :: entries) =
      probeItem lib request ordinal entry :: itemsFrom lib request (ordinal + 1) entries := rfl
    rw [hkeys, hitems]
    unfold collectItems
    simp only [bind_eq_ok, require_eq_ok, pure_eq_ok, ih]
    rw [List.nodup_cons]
    constructor
    · rintro ⟨_, hnew, _, ⟨⟨hnodup, hrest⟩, rfl⟩, rfl⟩
      refine ⟨⟨⟨fun hmem => hrest _ hmem List.mem_cons_self, hnodup⟩, fun k hk => ?_⟩, rfl⟩
      rcases List.mem_cons.mp hk with rfl | hk
      · exact hnew
      · exact fun hmem => hrest k hk (List.mem_cons_of_mem _ hmem)
    · rintro ⟨⟨⟨hfirst, hnodup⟩, hrest⟩, rfl⟩
      refine ⟨PUnit.unit, hrest _ List.mem_cons_self, _, ⟨⟨hnodup, fun k hk hmem => ?_⟩, rfl⟩, rfl⟩
      rcases List.mem_cons.mp hmem with rfl | hmem
      · exact hfirst hk
      · exact hrest k (List.mem_cons_of_mem _ hk) hmem

theorem collectItems_raises {ordinal : Nat} {media_keys : List Text} {entries : List (List (Text × Value F))} :
    Raises (collectItems lib request ordinal media_keys entries) IsAdapterFailure := by
  induction entries generalizing ordinal media_keys with
  | nil => exact raises_ok
  | cons entry entries ih =>
    unfold collectItems
    simp only [raises_bind]
    exact ⟨raises_require (isAdapterFailure_validation _), fun _ _ => ⟨ih, fun _ _ => raises_pure⟩⟩

/-! ## the snapshot -/

theorem surrogates_ofOption (o : Option Text) : surrogates (ofOption o : Value F) = false ↔ ∀ t ∈ o, surrogate t = false := by
  cases o with
  | none => exact iff_of_true rfl (fun t ht => nomatch ht)
  | some s =>
    refine ⟨fun h t ht => ?_, fun h => h s rfl⟩
    obtain rfl := Option.some.inj ht
    exact h

/-- a number has no text -/
theorem surrogates_safeNumber {v w : Value F} (h : safeNumber lib v = some w) : surrogates w = false := by
  unfold safeNumber at h
  cases v with
  | int i =>
    obtain ⟨-, rfl⟩ : _ ∧ Value.int i = w := by simpa using h
    rfl
  | float f =>
    obtain ⟨-, rfl⟩ : _ ∧ Value.float f = w := by simpa using h
    rfl
  | null => cases h
  | bool b => cases h
  | str s => cases h
  | arr vs => cases h
  | obj ms => cases h

theorem surrogates_metadata {entry : List (Text × Value F)} :
    surrogates (.obj (record (safeProbeMetadata lib entry))) = false ↔
      ∀ name ∈ metadataTexts, Encodable 256 (get entry name) := by
  rw [surrogates_record, List.any_eq_false]
  constructor
  · intro h name hname
    rw [encodable_iff]
    intro t ht
    have hmem : (name, Value.str t) ∈ safeProbeMetadata lib entry := by
      refine List.mem_append_left _ (List.mem_filterMap.mpr ⟨name, hname, ?_⟩)
      unfold keptText
      rw [Option.mem_def.mp ht]
      rfl
    exact Bool.eq_false_iff.mpr (h _ hmem)
  · intro h m hm
    rw [Bool.not_eq_true]
    rcases List.mem_append.mp hm with hm | hm
    · obtain ⟨name, hname, heq⟩ := List.mem_filterMap.mp hm
      obtain ⟨v, hv, rfl⟩ := Option.map_eq_some_iff.mp heq
      obtain ⟨t, ht, rfl⟩ := Option.map_eq_some_iff.mp hv
      exact encodable_iff.mp (h name hname) t ht
    · obtain ⟨name, -, heq⟩ := List.mem_filterMap.mp hm
      obtain ⟨v, hv, rfl⟩ := Option.map_eq_some_iff.mp heq
      exact surrogates_safeNumber lib hv

/-- the texts of an item are those kept of its entry -/
theorem surrogates_item {ordinal : Nat} {entry : List (Text × Value F)} :
    surrogates (probeItem lib request ordinal entry).snapshot = false ↔
      Encodable 256 (get entry "id") ∧ Encodable 512 (get entry "title") ∧
        ∀ name ∈ metadataTexts, Encodable 256 (get entry name) := by
  rw [← surrogate_mediaKey lib request ordinal, ← surrogates_metadata lib, encodable_iff (n := 512),
    ← surrogates_ofOption (F := F)]
  show surrogates (.obj (record _)) = false ↔ _
  rw [surrogates_record]
  simp only [List.any_cons, List.any_nil, Bool.or_eq_false_iff, surrogates_str, surrogate_text]
  exact ⟨fun h => ⟨h.1, h.2.2.2.2.1, h.2.2.1⟩, fun h => ⟨h.1, trivial, h.2.2, h.1, h.2.1, trivial⟩⟩

/-- **A snapshot is hashed iff the texts kept of its entries can be encoded.** -/
theorem discoveryHash_isSome {ordinal : Nat} {entries : List (List (Text × Value F))} :
    (discoveryHash lib request.canonical_url (itemsFrom lib request ordinal entries)).isSome = true ↔
      ∀ entry ∈ entries, Encodable 256 (get entry "id") ∧ Encodable 512 (get entry "title") ∧
        ∀ name ∈ metadataTexts, Encodable 256 (get entry name) := by
  unfold discoveryHash
  rw [Option.isSome_map, scalars?_isSome, dumps_surrogates, Bool.not_eq_true', snapshot, surrogates_record]
  simp only [List.any_cons, List.any_nil, Bool.or_false, surrogates_str, surrogate_ofChars, Bool.false_or]
  rw [surrogates_arr, List.any_map, List.any_eq_false]
  unfold itemsFrom
  simp only [List.forall_mem_map, Function.comp_apply, Bool.not_eq_true, surrogates_item]
  constructor
  · intro h entry hentry
    obtain ⟨i, hi, rfl⟩ := List.mem_iff_getElem.mp hentry
    exact h (entries[i], ordinal + i) (List.mem_iff_getElem?.mpr ⟨i, by
      rw [List.getElem?_zipIdx, List.getElem?_eq_getElem hi]
      rfl⟩)
  · intro h e he
    exact h e.1 (List.fst_mem_of_mem_zipIdx he)

/-! ## the outcome -/

/-- the hash of items, whose address is that of the first -/
def itemsHash (items : List (ProbeItem F)) : Option (List Char) :=
  items.head?.bind (fun item => discoveryHash lib item.canonical_url items)

/-- from 1 to `max_items` items with distinct keys that a download takes, and a hash that comes from them -/
def Kept (result : ProbeResult F) : Prop :=
  (1 ≤ result.items.length ∧ (result.items.length : Int) ≤ request.max_items) ∧
    (result.items.map ProbeItem.media_key).Nodup ∧
    itemsHash lib result.items = some result.discovery_snapshot_hash ∧
    validateExpectedMediaKeys (result.items.map ProbeItem.media_key) = .ok PUnit.unit

/-- an outcome that is kept, or an adapter failure -/
def Downloadable (outcome : Except ProbeFailure (ProbeResult F)) : Prop :=
  Raises outcome IsAdapterFailure ∧ ∀ result, outcome = .ok result → Kept lib request result

theorem downloadable_bind {α : Type} {x : Except ProbeFailure α} {f : α → Except ProbeFailure (ProbeResult F)} :
    Downloadable lib request (x >>= f) ↔
      Raises x IsAdapterFailure ∧ ∀ a, x = .ok a → Downloadable lib request (f a) := by
  unfold Downloadable
  rw [raises_bind]
  simp only [bind_eq_ok]
  constructor
  · rintro ⟨⟨hx, hf⟩, hkept⟩
    exact ⟨hx, fun a ha => ⟨hf a ha, fun result hresult => hkept result ⟨a, ha, hresult⟩⟩⟩
  · rintro ⟨hx, h⟩
    refine ⟨⟨hx, fun a ha => (h a ha).1⟩, ?_⟩
    rintro result ⟨a, ha, hresult⟩
    exact (h a ha).2 result hresult

theorem downloadable_pure {result : ProbeResult F} :
    Downloadable lib request (pure result) ↔ Kept lib request result := by
  unfold Downloadable
  constructor
  · exact fun h => h.2 result rfl
  · intro h
    refine ⟨raises_pure, fun r hr => ?_⟩
    obtain rfl := pure_eq_ok.mp hr
    exact h

theorem raises_fetch_iff {α ε : Type} {P : ε → Prop} {o : Option α} {e : ε} (he : ¬ P e) :
    Raises (fetch o e) P ↔ o.isSome = true := by
  cases o with
  | some a => exact iff_of_true raises_ok rfl
  | none => exact iff_of_false (fun h => he (h e rfl)) (fun h => nomatch h)

section
variable {limits : Limits} {max_bytes : Nat} {payload : ByteArray} {raw : List (Text × Value F)}
  {entries : List (List (Text × Value F))}

theorem loadRoot_eq_ok : loadRoot lib limits payload = .ok raw ↔
    ∃ decoded, payload.utf8Decode? = some decoded ∧ loads lib.toFloats limits decoded.toList = .ok (.obj raw) := by
  unfold loadRoot
  simp only [bind_eq_ok, fetch_eq_ok, mapError_eq_ok]
  constructor
  · rintro ⟨decoded, hdecode, v, hload, hobject⟩
    cases v with
    | obj ms =>
      obtain rfl := Option.some.inj hobject
      exact ⟨decoded, hdecode, hload⟩
    | null => cases hobject
    | bool b => cases hobject
    | int i => cases hobject
    | float f => cases hobject
    | str s => cases hobject
    | arr vs => cases hobject
  · rintro ⟨decoded, hdecode, hload⟩
    exact ⟨decoded, hdecode, _, hload, rfl⟩

/-- the one error that is not caught is that of a number with too many digits -/
theorem loadRoot_raises : Raises (loadRoot lib limits payload) IsAdapterFailure ↔
    ∀ decoded, payload.utf8Decode? = some decoded → loads lib.toFloats limits decoded.toList ≠ .error .value := by
  unfold loadRoot
  rw [raises_bind]
  refine ⟨fun h decoded hdecode hvalue => ?_, fun h => ⟨raises_fetch (isAdapterFailure_broken _), fun decoded hdecode => ?_⟩⟩
  · have hraise := (raises_bind.mp (h.2 decoded (fetch_eq_ok.mpr hdecode))).1
    rw [hvalue] at hraise
    obtain ⟨code, message, he⟩ := hraise .valueError rfl
    cases he
  · have hvalue := h decoded (fetch_eq_ok.mp hdecode)
    refine raises_bind.mpr ⟨raises_mapError (fun e he => ?_), fun _ _ => raises_fetch (isAdapterFailure_broken _)⟩
    cases e with
    | decode => exact isAdapterFailure_broken _
    | recursion => exact isAdapterFailure_broken _
    | value => exact absurd he hvalue

theorem entriesOf_raises : Raises (entriesOf raw) IsAdapterFailure := by
  unfold entriesOf
  cases get raw "entries" with
  | null => exact raises_ok
  | arr vs => exact raises_fetch (isAdapterFailure_broken _)
  | bool b => exact raises_throw.mpr (isAdapterFailure_broken _)
  | int i => exact raises_throw.mpr (isAdapterFailure_broken _)
  | float f => exact raises_throw.mpr (isAdapterFailure_broken _)
  | str s => exact raises_throw.mpr (isAdapterFailure_broken _)
  | obj ms => exact raises_throw.mpr (isAdapterFailure_broken _)

theorem acceptedEntries_raises : Raises (acceptedEntries request raw) IsAdapterFailure := by
  unfold acceptedEntries
  simp only [raises_bind]
  exact ⟨entriesOf_raises, fun _ _ => ⟨raises_require ⟨_, _, rfl⟩, fun _ _ =>
    ⟨raises_require (isAdapterFailure_validation _), fun _ _ => raises_pure⟩⟩⟩

theorem acceptedEntries_length (h : acceptedEntries request raw = .ok entries) :
    1 ≤ entries.length ∧ (entries.length : Int) ≤ request.max_items := by
  unfold acceptedEntries at h
  simp only [bind_eq_ok, require_eq_ok, pure_eq_ok] at h
  obtain ⟨es, -, _, hne, _, hle, rfl⟩ := h
  exact ⟨List.length_pos_iff.mpr hne, hle⟩

/-- the keys of items are accepted iff the ids of their entries are whole -/
theorem validateExpectedMediaKeys_eq_ok (hlength : 1 ≤ entries.length ∧ entries.length ≤ MAX_DOWNLOAD_ITEMS)
    (hnodup : (keysFrom lib request 0 entries).Nodup) :
    validateExpectedMediaKeys (keysFrom lib request 0 entries) = .ok PUnit.unit ↔
      ∀ entry ∈ entries, Whole (get entry "id") := by
  have hkeys : (keysFrom lib request 0 entries).length = entries.length := by
    unfold keysFrom
    rw [List.length_map, List.length_zipIdx]
  unfold validateExpectedMediaKeys
  rw [require_eq_ok, hkeys]
  unfold keysFrom at hnodup ⊢
  simp only [List.forall_mem_map, safeText_mediaKey]
  constructor
  · rintro ⟨-, h, -⟩ entry hentry
    obtain ⟨i, hi, rfl⟩ := List.mem_iff_getElem.mp hentry
    exact h (entries[i], i) (List.mem_iff_getElem?.mpr ⟨i, by
      rw [List.getElem?_zipIdx, List.getElem?_eq_getElem hi, Nat.zero_add]
      rfl⟩)
  · intro h
    exact ⟨hlength, fun e he => h e.1 (List.fst_mem_of_mem_zipIdx he), hnodup⟩

theorem itemsHash_itemsFrom (h : 1 ≤ entries.length) :
    itemsHash lib (itemsFrom lib request 0 entries) =
      discoveryHash lib request.canonical_url (itemsFrom lib request 0 entries) := by
  cases entries with
  | nil => exact absurd h (Nat.not_succ_le_zero 0)
  | cons entry entries => rfl

end

/-- a payload without a number of too many digits, whose accepted entries have distinct keys only if all are plain -/
def PayloadFits (limits : Limits) (max_bytes : Nat) (payload : ByteArray) : Prop :=
  payload.size ≤ max_bytes → ∀ decoded, payload.utf8Decode? = some decoded →
    loads lib.toFloats limits decoded.toList ≠ .error .value ∧
    ∀ raw entries, loads lib.toFloats limits decoded.toList = .ok (.obj raw) →
      acceptedEntries request raw = .ok entries → (keysFrom lib request 0 entries).Nodup → ∀ entry ∈ entries, Plain entry

/-- **The outcome of a payload is kept or an adapter failure iff the payload fits.** -/
theorem parseProbeResult_exact (limits : Limits) (max_bytes : Nat) (payload : ByteArray)
    (hitems : request.max_items ≤ 50) :
    Downloadable lib request (parseProbeResult lib request limits max_bytes payload) ↔
      PayloadFits lib request limits max_bytes payload := by
  unfold parseProbeResult PayloadFits
  have hencode : ¬ IsAdapterFailure .unicodeEncode := by
    rintro ⟨_, _, h⟩
    cases h
  simp only [downloadable_bind, downloadable_pure, require_eq_ok, loadRoot_eq_ok, loadRoot_raises, collectItems_eq_ok,
    fetch_eq_ok, raises_fetch_iff hencode]
  constructor
  · rintro ⟨-, h⟩ hsize decoded hdecode
    obtain ⟨hload, hroot⟩ := h PUnit.unit hsize
    refine ⟨hload decoded hdecode, fun raw entries hraw haccept hnodup entry hentry => ?_⟩
    have hlength := acceptedEntries_length request haccept
    have hmax : (MAX_DOWNLOAD_ITEMS : Int) = 50 := rfl
    obtain ⟨hsome, hkept⟩ := ((hroot raw ⟨decoded, hdecode, hraw⟩).2 entries haccept).2 _
      ⟨⟨hnodup, fun _ _ hk => absurd hk List.not_mem_nil⟩, rfl⟩
    obtain ⟨hid, htitle, hmetadata⟩ := (discoveryHash_isSome lib request).mp hsome entry hentry
    obtain ⟨hash, hhash⟩ := Option.isSome_iff_exists.mp hsome
    have hkeys := (hkept hash hhash).2.2.2
    rw [itemsFrom_keys, validateExpectedMediaKeys_eq_ok lib request ⟨hlength.1, by omega⟩ hnodup] at hkeys
    exact ⟨hkeys entry hentry, hid, htitle, hmetadata⟩
  · intro h
    refine ⟨raises_require (isAdapterFailure_broken _), fun _ hsize => ⟨fun decoded hdecode => (h hsize decoded hdecode).1, ?_⟩⟩
    rintro raw ⟨decoded, hdecode, hraw⟩
    refine ⟨acceptedEntries_raises request, fun entries haccept => ⟨collectItems_raises lib request, ?_⟩⟩
    rintro items ⟨⟨hnodup, -⟩, rfl⟩
    have hplain := (h hsize decoded hdecode).2 raw entries hraw haccept hnodup
    have hlength := acceptedEntries_length request haccept
    have hmax : (MAX_DOWNLOAD_ITEMS : Int) = 50 := rfl
    have hcount : (itemsFrom lib request 0 entries).length = entries.length := by
      unfold itemsFrom
      rw [List.length_map, List.length_zipIdx]
    refine ⟨(discoveryHash_isSome lib request).mpr
      (fun entry hentry => ⟨(hplain entry hentry).id, (hplain entry hentry).title, (hplain entry hentry).metadata⟩), ?_⟩
    intro hash hhash
    refine ⟨?_, ?_, ?_, ?_⟩
    · show 1 ≤ (itemsFrom lib request 0 entries).length ∧ ((itemsFrom lib request 0 entries).length : Int) ≤ _
      rw [hcount]
      exact hlength
    · rw [itemsFrom_keys]
      exact hnodup
    · rw [itemsHash_itemsFrom lib request hlength.1]
      exact hhash
    · rw [itemsFrom_keys, validateExpectedMediaKeys_eq_ok lib request ⟨hlength.1, by omega⟩ hnodup]
      exact fun entry hentry => (hplain entry hentry).whole

end

/-! ## half of a surrogate pair -/

/-- floats are never read, and every digest is the same -/
def plainLib : ProbeLib Unit where
  parse _ := ()
  repr _ := "NaN".toList
  constant _ := ()
  equals _ _ := false
  reads := Json.reads_nan
  isfinite _ := false
  inRange _ := false
  lower s := s
  fromtimestamp _ := none
  strptime _ := none
  sha256 _ := List.replicate 64 '0'
  hex_sha256 _ := by decide

def oneVideo : ProbeRequest := ⟨"https://example.com/".toList, Points.text "youtube", Points.text "video", 1⟩

/-- an object whose id is the escape of half of a surrogate pair -/
def halfId : List Char := "\x7b\"id\":\"\\ud800\"\x7d".toList

/-- the default limits of the interpreter -/
def interpreterLimits : Limits := ⟨some 4300, some 1000⟩

theorem parseProbeResult_exact_oneVideo :
    Downloadable plainLib oneVideo (parseProbeResult plainLib oneVideo interpreterLimits 2097152 halfId.utf8Encode) ↔
      PayloadFits plainLib oneVideo interpreterLimits 2097152 halfId.utf8Encode :=
  parseProbeResult_exact plainLib oneVideo interpreterLimits 2097152 halfId.utf8Encode (by decide)

/-- whether a value is an object whose only member is half of a surrogate pair under `id` -/
def isHalf : Except LoadErr (Value Unit) → Bool
  | .ok (.obj [(k, .str s)]) => k == Points.text "id" && s == [.surrogate 0]
  | _ => false

theorem isHalf_eq {v : Except LoadErr (Value Unit)} (h : isHalf v = true) :
    v = .ok (.obj [(Points.text "id", .str [.surrogate 0])]) := by
  unfold isHalf at h
  split at h
  · rename_i k s
    rw [Bool.and_eq_true, beq_iff_eq, beq_iff_eq] at h
    rw [h.1, h.2]
  · cases h

/-- its snapshot has no UTF-8 -/
theorem halfId_escapes : ¬ Downloadable plainLib oneVideo
    (parseProbeResult plainLib oneVideo interpreterLimits 2097152 halfId.utf8Encode) := by
  have hdecode : halfId.utf8Encode.utf8Decode? = some halfId.toArray := List.utf8Decode?_utf8Encode
  have hloads : isHalf (loads plainLib.toFloats interpreterLimits halfId) = true := by decide +kernel
  have hroot : loadRoot plainLib interpreterLimits halfId.utf8Encode =
      .ok [(Points.text "id", .str [.surrogate 0])] := (loadRoot_eq_ok plainLib).mpr ⟨_, hdecode, isHalf_eq hloads⟩
  have hlength : halfId.utf8Encode.size = 15 := by rfl
  have hsize : halfId.utf8Encode.size ≤ 2097152 := by omega
  have hrun : parseProbeResult plainLib oneVideo interpreterLimits 2097152 halfId.utf8Encode = .error .unicodeEncode := by
    unfold parseProbeResult
    rw [require_pos hsize, ok_bind, hroot]
    rfl
  rw [hrun]
  intro h
  obtain ⟨_, _, he⟩ := h.1 _ rfl
  cases he

end OpenFlame.Adapters
