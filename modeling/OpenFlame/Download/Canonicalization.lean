import Mathlib.Algebra.Ring.Nat
import Mathlib.Data.List.TakeDrop
import OpenFlame.Base.Percent
import OpenFlame.Download.Segments

/-!
# Normalization is a canonicalization

`UrlLib.Lawful`   what the library documents of ASCII texts, of quoting and of plain hosts
`Site`            the hosts of canonical URLs
`Form`            what stands behind the host of a canonical URL, with the source it names
`Site.url`        the normalized URL of a form

* `normalizeUrl_form`    a normalized URL has a form;
* `Form.unique`          a form names one source;
* `normalizeUrl_site`    a canonical URL is cut into its host, path and query again;
* `Form.normalize`       the form of a canonical URL is its own normal form;
* `canonicalization`     **normalizing twice is normalizing once, and a canonical URL names one source.**
-/

set_option linter.all false

namespace OpenFlame.Download
open Guard

/-- what the library documents; of anything but ASCII nothing is asked -/
structure UrlLib.Lawful (lib : UrlLib) : Prop where
  lower_ascii : ∀ s : Text, (∀ c ∈ s, c.toNat < 128) → lib.lower s = s.map Char.toLower
  lower_prefix : ∀ s t : Text, (∀ c ∈ s, c.toNat < 128) → s.map Char.toLower <+: lib.lower (s ++ t)
  quotePlus_safe : ∀ s, ∀ c ∈ lib.quotePlus s, Percent.isSafe c = true ∨ c = '+' ∨ c = '%'
  quotePlus_plain : ∀ s, (∀ c ∈ s, Percent.isSafe c = true) → lib.quotePlus s = s
  unquote_quotePlus : ∀ s, lib.unquote (Percent.plusToSpace (lib.quotePlus s)) = s
  netloc_plain : ∀ s, (∀ c ∈ s, Percent.isSafe c = true) → lib.netlocValid s = true

/-! ## the forms -/

/-- the hosts of canonical URLs -/
inductive Site where
  | x | tco | youtube | bilibili | b23 | douyin | vDouyin | vmTiktok | vtTiktok | tiktok | instagram
  deriving DecidableEq

namespace Site

def host : Site → Text
  | .x => "x.com".toList
  | .tco => "t.co".toList
  | .youtube => "www.youtube.com".toList
  | .bilibili => "www.bilibili.com".toList
  | .b23 => "b23.tv".toList
  | .douyin => "www.douyin.com".toList
  | .vDouyin => "v.douyin.com".toList
  | .vmTiktok => "vm.tiktok.com".toList
  | .vtTiktok => "vt.tiktok.com".toList
  | .tiktok => "www.tiktok.com".toList
  | .instagram => "www.instagram.com".toList

def platform : Site → Platform
  | .x | .tco => .x
  | .youtube => .youtube
  | .bilibili | .b23 => .bilibili
  | .douyin | .vDouyin => .douyin
  | .vmTiktok | .vtTiktok | .tiktok => .tiktok
  | .instagram => .instagram

def isShort : Site → Bool
  | .tco | .b23 | .vDouyin | .vmTiktok | .vtTiktok => true
  | _ => false

/-- the canonical URL with `rest` behind its host -/
def address (s : Site) (rest : Text) : Text := "https://".toList ++ s.host ++ rest

def url (s : Site) (rest : Text) (source_type : SourceType) (source_id : Option Text) : NormalizedURL :=
  ⟨String.ofList (s.address rest), s.platform, source_type, source_id.map String.ofList⟩

end Site

/-- a decimal number without leading zeros -/
structure IsDecimal (low : Nat) (d : Text) : Prop where
  digits : ∀ c ∈ d, isAsciiDigit c = true
  low : low ≤ d.length
  high : d.length ≤ 32
  head : d.head? ≠ some '0'

def isHandleChar (c : Char) : Bool := ('a' ≤ c && c ≤ 'z') || isAsciiDigit c || c == '.' || c == '_'

def isReelChar (c : Char) : Bool := isAsciiLetter c || isAsciiDigit c || c == '_' || c == '-'

/-- neither a query nor a fragment starts in a path -/
def IsPath (path : Text) : Prop := ∀ c ∈ path, c ≠ '?' ∧ c ≠ '#'

inductive Form (lib : UrlLib) : Site → Text → SourceType → Option Text → Prop where
  | post (d : Text) (h : IsDecimal 1 d) : Form lib .x (joinPath ["i".toList, "status".toList, d]) .xPost (some d)
  | short (s : Site) (t : Text) (hs : s.isShort = true) (hclean : Clean ('/' :: t)) (hpath : IsPath ('/' :: t)) :
      Form lib s ('/' :: t) .shortLink none
  | watch (id : Text) (h : id ≠ []) :
      Form lib .youtube ("/watch?".toList ++ lib.quotePlus ['v'] ++ '=' :: lib.quotePlus id) .youtubeVideo (some id)
  | shorts (id : Text) (h : IsSegment id) (hpath : IsPath id) :
      Form lib .youtube (joinPath ["shorts".toList, id]) .youtubeShort (some id)
  | bv (id : Text) (hne : id ≠ []) (h : ∀ c ∈ id, (isAsciiDigit c || isAsciiLetter c || foldsToLetter c) = true) :
      Form lib .bilibili (joinPath ["video".toList, 'B' :: 'V' :: id]) .bilibiliVideo (some ('B' :: 'V' :: id))
  | av (d : Text) (h : IsDecimal 1 d) :
      Form lib .bilibili (joinPath ["video".toList, 'a' :: 'v' :: d]) .bilibiliVideo (some ('a' :: 'v' :: d))
  | douyin (d : Text) (h : IsDecimal 1 d) : Form lib .douyin (joinPath ["video".toList, d]) .douyinVideo (some d)
  | tiktok (handle d : Text) (hne : handle ≠ [] ∧ handle.length ≤ 32) (hhandle : ∀ c ∈ handle, isHandleChar c = true)
      (h : IsDecimal 5 d) :
      Form lib .tiktok (joinPath ['@' :: handle, "video".toList, d]) .tiktokVideo (some d)
  | reel (id : Text) (hlen : 5 ≤ id.length ∧ id.length ≤ 64) (h : ∀ c ∈ id, isReelChar c = true) :
      Form lib .instagram (joinPath ["reel".toList, id]) .instagramReel (some id)

/-! ## characters -/

/-- a property of the ASCII characters and of those that fold to letters holds of all characters of a URL -/
theorem isUrlChar_cases {P : Char → Prop} (hascii : ∀ n : Fin 128, isUrlChar (Char.ofNat n.val) = true → P (Char.ofNat n.val))
    (hfold : ∀ n ∈ [0x130, 0x131, 0x17F, 0x212A], P (Char.ofNat n)) {c : Char} (h : isUrlChar c = true) : P c := by
  by_cases hc : c.toNat < 128
  · have hplain := hascii ⟨c.toNat, hc⟩
    rw [Char.ofNat_toNat] at hplain
    exact hplain h
  · have hbig {d : Char} (hd : c ≤ d) (hlt : d.toNat < 128) : False :=
      hc (Nat.lt_of_le_of_lt (UInt32.le_iff_toNat_le.mp hd) hlt)
    unfold isUrlChar isAsciiLetter isAsciiDigit at h
    simp only [Bool.or_eq_true, Bool.and_eq_true, decide_eq_true_eq] at h
    rcases h with (((h | h) | h) | h) | h
    · exact (hbig h.2 (by decide)).elim
    · exact (hbig h.2 (by decide)).elim
    · exact (hbig h.2 (by decide)).elim
    · have hfolded := hfold c.toNat (List.contains_iff_mem.mp h)
      rwa [Char.ofNat_toNat] at hfolded
    · have hall : ∀ d ∈ "._~:/?#[]@!$&()*+,;=%-".toList, d.toNat < 128 := Text.forall_of_all (by decide)
      exact (hc (hall c (List.contains_iff_mem.mp h))).elim

theorem isUrlChar_plain {c : Char} (h : isUrlChar c = true) : Text.isSpace c = false ∧ 32 < c.toNat := by
  refine isUrlChar_cases (P := fun c => Text.isSpace c = false ∧ 32 < c.toNat) ?_ (by decide) h
  decide +kernel

theorem isUrlChar_of_isSafe {c : Char} (h : Percent.isSafe c = true) : isUrlChar c = true := by
  have hascii : ∀ n : Fin 128, Percent.isSafe (Char.ofNat n.val) = true → isUrlChar (Char.ofNat n.val) = true := by
    decide +kernel
  have hc := hascii ⟨c.toNat, of_decide_eq_true (Percent.isAscii_of_isSafe h)⟩
  rw [Char.ofNat_toNat] at hc
  exact hc h

/-! ## cutting a canonical URL -/

section
variable {lib : UrlLib} {s : Site} {rest path : Text} {query : Option Text}

theorem host_safe (s : Site) : ∀ c ∈ s.host, Percent.isSafe c = true ∧ c.toLower = c := by
  cases s <;> exact Text.forall_of_all (by decide)

theorem address_chars (h : ∀ c ∈ rest, isUrlChar c = true) : ∀ c ∈ s.address rest, isUrlChar c = true := by
  have hscheme : ∀ c ∈ "https://".toList, isUrlChar c = true := Text.forall_of_all (by decide)
  intro c hc
  rcases List.mem_append.mp hc with hc | hc
  · rcases List.mem_append.mp hc with hc | hc
    · exact hscheme c hc
    · exact isUrlChar_of_isSafe (host_safe s c hc).1
  · exact h c hc

theorem strip_url {url : Text} (h : ∀ c ∈ url, isUrlChar c = true) : Text.strip url = url :=
  Text.strip_eq_self_iff.mpr (fun hne =>
    ⟨(isUrlChar_plain (h _ (List.head_mem hne))).1, (isUrlChar_plain (h _ (List.getLast_mem hne))).1⟩)

/-- **A canonical URL is cut into its host, path and query again.** -/
theorem urlsplit_address (hlib : lib.Lawful) (hchars : ∀ c ∈ rest, isUrlChar c = true) (hroot : ∃ t, rest = '/' :: t)
    (hfragment : '#' ∉ rest) (hquery : partition '?' rest = (path, query)) :
    urlsplit lib (Text.strip (s.address rest)) = .ok ⟨"https".toList, s.host, path, query.getD []⟩ := by
  have hall := address_chars (s := s) hchars
  have hdrop : (s.address rest).dropWhile (fun c => decide (c.toNat ≤ 32)) = s.address rest :=
    List.dropWhile_cons_of_neg (by decide)
  have hfilter : (s.address rest).filter (fun c => !"\t\r\n".toList.contains c) = s.address rest := by
    refine List.filter_eq_self.mpr (fun c hc => ?_)
    have hbig := (isUrlChar_plain (hall c hc)).2
    have hsmall : ∀ d ∈ "\t\r\n".toList, d.toNat ≤ 32 := Text.forall_of_all (by decide)
    rw [Bool.not_eq_true', List.contains_eq_mem, decide_eq_false_iff_not]
    exact fun hm => absurd (hsmall c hm) (Nat.not_le_of_lt hbig)
  have hscheme : splitScheme (s.address rest) = ("https".toList, '/' :: '/' :: (s.host ++ rest)) := by
    have hcut : partition ':' (s.address rest) = ("https".toList, some ('/' :: '/' :: (s.host ++ rest))) :=
      partition_at (s := "https".toList) (by decide) _
    unfold splitScheme
    rw [hcut]
    rfl
  have hspan : (s.host ++ rest).span (fun c => !"/?#".toList.contains c) = (s.host, rest) := by
    obtain ⟨t, rfl⟩ := hroot
    have hhost : ∀ c ∈ s.host, (!"/?#".toList.contains c) = true := by
      cases s <;> exact Text.forall_of_all (by decide)
    rw [List.span_eq_takeWhile_dropWhile, List.takeWhile_append_of_pos hhost, List.dropWhile_append_of_pos hhost]
    rw [List.takeWhile_cons_of_neg (by decide), List.dropWhile_cons_of_neg (by decide), List.append_nil]
  rw [strip_url hall]
  unfold urlsplit
  rw [hdrop, hfilter]
  dsimp only
  simp only [hscheme, hspan]
  rw [require_pos (.inr (hlib.netloc_plain _ (fun c hc => (host_safe s c hc).1))), ok_bind, partition_whole hfragment]
  dsimp only
  rw [hquery]
  rfl

/-- the checks of the common parts give back the host -/
theorem validateCommon_host (hlib : lib.Lawful) (path query : Text) :
    validateCommon lib ⟨"https".toList, s.host, path, query⟩ = .ok s.host := by
  have hinfo : (⟨"https".toList, s.host, path, query⟩ : SplitResult).hostinfo = (s.host, []) := by
    cases s <;> rfl
  have huser : (⟨"https".toList, s.host, path, query⟩ : SplitResult).hasUserinfo = false := by
    cases s <;> rfl
  have hzone : partition '%' s.host = (s.host, none) := partition_whole (by cases s <;> decide)
  have hdots : s.host.rdropWhile (· == '.') = s.host := by cases s <;> decide
  have hne : s.host ≠ [] := by cases s <;> decide
  have hlower : lib.lower s.host = s.host := by
    rw [hlib.lower_ascii s.host (fun c hc => of_decide_eq_true (Percent.isAscii_of_isSafe (host_safe s c hc).1))]
    exact (List.map_congr_left (fun c hc => (host_safe s c hc).2)).trans (List.map_id _)
  have hport : (⟨"https".toList, s.host, path, query⟩ : SplitResult).port = .ok none := by
    unfold SplitResult.port
    rw [hinfo]
    rfl
  have hname : (⟨"https".toList, s.host, path, query⟩ : SplitResult).hostname lib = s.host := by
    unfold SplitResult.hostname
    rw [hinfo, hzone]
    exact hlower
  unfold validateCommon
  rw [require_pos (.inr rfl), ok_bind, require_pos huser, ok_bind, hport]
  dsimp only [recast]
  rw [ok_bind, require_pos (.inl rfl), ok_bind, hinfo, require_pos hne, ok_bind, hname, hdots, hlower]
  rfl

end

/-! ## normalizing a canonical URL -/

/-- the branch of `normalize_url` for a host -/
def Site.branch (lib : UrlLib) (s : Site) (path query : Text) : Except UrlErr NormalizedURL :=
  match s with
  | .x => normalizeX path
  | .tco => shortLink s.host .x path "X 短链缺少标识"
  | .youtube => normalizeYoutube lib path query
  | .bilibili => normalizeBilibili lib path query
  | .b23 => shortLink s.host .bilibili path "Bilibili 短链缺少标识"
  | .douyin => normalizeDouyin path
  | .vDouyin => shortLink s.host .douyin path "抖音短链缺少标识"
  | .vmTiktok | .vtTiktok => shortLink s.host .tiktok path "TikTok 短链缺少标识"
  | .tiktok => normalizeTiktok lib path
  | .instagram => normalizeInstagram path

section
variable {lib : UrlLib} {s : Site} {rest path d : Text} {query : Option Text}

/-- which branch a host takes -/
theorem host_branch (s : Site) :
    (s.host ∈ xHosts ↔ s = .x) ∧ (s.host = "t.co".toList ↔ s = .tco) ∧ (s.host ∈ youtubeHosts ↔ s = .youtube) ∧
      s.host ≠ "youtu.be".toList ∧ (s.host ∈ bilibiliHosts ↔ s = .bilibili) ∧ (s.host = "b23.tv".toList ↔ s = .b23) ∧
      (s.host ∈ douyinHosts ↔ s = .douyin) ∧ (s.host = "v.douyin.com".toList ↔ s = .vDouyin) ∧
      (s.host ∈ tiktokShortHosts ↔ s = .vmTiktok ∨ s = .vtTiktok) ∧ (s.host ∈ tiktokHosts ↔ s = .tiktok) ∧
      (s.host ∈ instagramHosts ↔ s = .instagram) := by
  cases s <;> decide

theorem normalizeUrl_site (hlib : lib.Lawful) (s : Site) (hchars : ∀ c ∈ rest, isUrlChar c = true) (hroot : ∃ t, rest = '/' :: t)
    (hfragment : '#' ∉ rest) (hquery : partition '?' rest = (path, query)) (hclean : Clean path) :
    normalizeUrl lib (s.address rest) = s.branch lib path (query.getD []) := by
  obtain ⟨hx, ht, hy, hbe, hb, hb23, hd, hvd, hvm, htk, hi⟩ := host_branch s
  unfold normalizeUrl
  rw [urlsplit_address hlib hchars hroot hfragment hquery]
  dsimp only [recast]
  rw [ok_bind, validateCommon_host hlib, ok_bind, hclean.cleanPath]
  simp only [hx, ht, hy, hbe, hb, hb23, hd, hvd, hvm, htk, hi, if_false]
  cases s <;> rfl

/-- a canonical URL without a query -/
theorem normalizeUrl_path (hlib : lib.Lawful) (hchars : ∀ c ∈ rest, isUrlChar c = true) (hroot : ∃ t, rest = '/' :: t)
    (hpath : IsPath rest) (hclean : Clean rest) : normalizeUrl lib (s.address rest) = s.branch lib rest [] :=
  normalizeUrl_site hlib s hchars hroot (fun h => (hpath _ h).2 rfl) (partition_whole (fun h => (hpath _ h).1 rfl)) hclean

theorem canonicalDecimalId_decimal {low : Nat} (h : IsDecimal low d) (hlow : 1 ≤ low) (platform_name : String) :
    canonicalDecimalId d platform_name low = .ok d := by
  have hdrop : d.dropWhile (· == '0') = d := by
    cases d with
    | nil => rfl
    | cons c d => exact List.dropWhile_cons_of_neg (fun hc => h.head (congrArg some (beq_iff_eq.mp hc)))
  have hne : d ≠ [] := List.ne_nil_of_length_pos (Nat.lt_of_lt_of_le hlow h.low)
  unfold canonicalDecimalId
  dsimp only
  rw [hdrop, require_pos ⟨hne, h.low⟩]
  rfl

theorem isDigits_decimal {low : Nat} (h : IsDecimal low d) : isDigits low 32 d = true := by
  unfold isDigits
  rw [List.all_eq_true.mpr h.digits, decide_eq_true ⟨h.low, h.high⟩]
  rfl

theorem joinPath_two (a b : Text) : joinPath [a, b] = '/' :: (a ++ '/' :: b) := by
  rw [joinPath_cons, joinPath_cons]
  show '/' :: (a ++ '/' :: (b ++ [])) = _
  rw [List.append_nil]

theorem joinPath_three (a b c : Text) : joinPath [a, b, c] = '/' :: (a ++ '/' :: (b ++ '/' :: c)) := by
  rw [joinPath_cons, joinPath_two]

theorem digits_slash (h : ∀ c ∈ d, isAsciiDigit c = true) : '/' ∉ d := fun hm => nomatch h '/' hm

theorem splitAll_two {a b : Text} (ha : '/' ∉ a) (hb : '/' ∉ b) : splitAll '/' (joinPath [a, b]) = [[], a, b] :=
  splitAll_joinPath (List.forall_mem_cons.mpr ⟨ha, List.forall_mem_singleton.mpr hb⟩)

theorem splitAll_three {a b c : Text} (ha : '/' ∉ a) (hb : '/' ∉ b) (hc : '/' ∉ c) :
    splitAll '/' (joinPath [a, b, c]) = [[], a, b, c] :=
  splitAll_joinPath (List.forall_mem_cons.mpr ⟨ha, List.forall_mem_cons.mpr ⟨hb, List.forall_mem_singleton.mpr hc⟩⟩)

theorem normalizeX_post (h : IsDecimal 1 d) : normalizeX (joinPath ["i".toList, "status".toList, d]) =
    .ok (Site.x.url (joinPath ["i".toList, "status".toList, d]) .xPost (some d)) := by
  unfold normalizeX xStatusId
  rw [splitAll_three (by decide) (by decide) (digits_slash h.digits)]
  dsimp only
  rw [if_pos ⟨by decide, rfl, isDigits_decimal h, Nat.zero_le 1⟩]
  show canonicalDecimalId d "X" 1 >>= _ = _
  rw [canonicalDecimalId_decimal h (Nat.le_refl 1), joinPath_three]
  rfl

/-- a short link is its own normal form -/
theorem shortLink_clean {t : Text} (hclean : Clean ('/' :: t)) (s : Site) (message : String) :
    shortLink s.host s.platform ('/' :: t) message = .ok (s.url ('/' :: t) .shortLink none) := by
  have hne : '/' :: t ≠ ['/'] := by
    intro h
    have hlast := hclean.last
    rw [h] at hlast
    cases hlast
  unfold shortLink
  rw [require_pos hne]
  rfl

theorem notMem_quotePlus (hlib : lib.Lawful) (t : Text) {c : Char} (hc : Percent.isSafe c = false) (hplus : c ≠ '+')
    (hpercent : c ≠ '%') : c ∉ lib.quotePlus t := by
  intro hmem
  rcases hlib.quotePlus_safe t c hmem with hsafe | h | h
  · rw [hc] at hsafe
    cases hsafe
  · exact hplus h
  · exact hpercent h

theorem quotePlus_ne (hlib : lib.Lawful) {id : Text} (h : id ≠ []) : lib.quotePlus id ≠ [] := by
  intro hnil
  have hempty := hlib.unquote_quotePlus []
  rw [hlib.quotePlus_plain [] (fun c hc => nomatch hc)] at hempty
  have hid := hlib.unquote_quotePlus id
  rw [hnil, hempty] at hid
  exact h hid.symm

/-- the query of a watch URL gives back the video -/
theorem parseQs_watch (hlib : lib.Lawful) {id : Text} (h : id ≠ []) :
    parseQs lib (lib.quotePlus ['v'] ++ '=' :: lib.quotePlus id) false ['v'] = [id] := by
  have hand : '&' ∉ lib.quotePlus ['v'] ++ '=' :: lib.quotePlus id := by
    rw [List.mem_append, List.mem_cons, not_or, not_or]
    exact ⟨notMem_quotePlus hlib _ rfl (by decide) (by decide), by decide,
      notMem_quotePlus hlib _ rfl (by decide) (by decide)⟩
  have hkey : lib.unquote ((lib.quotePlus ['v']).map (fun c => if c = '+' then ' ' else c)) = ['v'] :=
    hlib.unquote_quotePlus ['v']
  have hvalue : lib.unquote ((lib.quotePlus id).map (fun c => if c = '+' then ' ' else c)) = id :=
    hlib.unquote_quotePlus id
  have hcut : partition '=' (lib.quotePlus ['v'] ++ '=' :: lib.quotePlus id) =
      (lib.quotePlus ['v'], some (lib.quotePlus id)) :=
    partition_at (notMem_quotePlus hlib ['v'] rfl (by decide) (by decide)) _
  unfold parseQs
  rw [splitAll_whole hand]
  simp only [List.filterMap_cons, List.filterMap_nil, hcut, hkey, hvalue]
  rw [bne_iff_ne.mpr (quotePlus_ne hlib h)]
  rfl

theorem normalizeYoutube_watch (hlib : lib.Lawful) {id : Text} (h : id ≠ []) :
    normalizeYoutube lib "/watch".toList (lib.quotePlus ['v'] ++ '=' :: lib.quotePlus id) =
      .ok (Site.youtube.url ("/watch?".toList ++ lib.quotePlus ['v'] ++ '=' :: lib.quotePlus id) .youtubeVideo
        (some id)) := by
  unfold normalizeYoutube
  rw [if_pos rfl, parseQs_watch hlib h]
  show require (id ≠ []) _ >>= _ = _
  rw [require_pos h, ok_bind]
  show Except.ok (watchUrl lib id) = _
  unfold watchUrl sourceUrl Site.url Site.address
  rw [List.append_assoc, List.append_assoc, List.append_assoc]
  rfl

theorem normalizeYoutube_shorts {id : Text} (h : IsSegment id) :
    normalizeYoutube lib (joinPath ["shorts".toList, id]) [] =
      .ok (Site.youtube.url (joinPath ["shorts".toList, id]) .youtubeShort (some id)) := by
  have hwatch : joinPath ["shorts".toList, id] ≠ "/watch".toList := by
    intro he
    cases he
  unfold normalizeYoutube
  rw [if_neg hwatch, splitAll_two (by decide) h.2]
  dsimp only
  rw [if_pos ⟨rfl, h.1⟩, joinPath_two]
  rfl

theorem alnum_slash {id : Text} (h : ∀ c ∈ id, (isAsciiDigit c || isAsciiLetter c || foldsToLetter c) = true) :
    '/' ∉ id := fun hm => nomatch h '/' hm

theorem normalizeBilibili_bv (hlib : lib.Lawful) {id : Text} (hne : id ≠ [])
    (h : ∀ c ∈ id, (isAsciiDigit c || isAsciiLetter c || foldsToLetter c) = true) :
    normalizeBilibili lib (joinPath ["video".toList, 'B' :: 'V' :: id]) [] =
      .ok (Site.bilibili.url (joinPath ["video".toList, 'B' :: 'V' :: id]) .bilibiliVideo (some ('B' :: 'V' :: id))) := by
  have hslash : '/' ∉ 'B' :: 'V' :: id := by
    rw [List.mem_cons, List.mem_cons, not_or, not_or]
    exact ⟨by decide, by decide, alnum_slash h⟩
  have hid : bilibiliId (joinPath ["video".toList, 'B' :: 'V' :: id]) = some ('B' :: 'V' :: id) := by
    unfold bilibiliId
    rw [splitAll_two (by decide) hslash]
    dsimp only
    rw [bne_iff_ne.mpr hne, List.all_eq_true.mpr h]
    rfl
  have hcase : bilibiliCase lib ('B' :: 'V' :: id) = .ok ('B' :: 'V' :: id) := by
    have hbv : (lib.lower ('B' :: 'V' :: id)).take 2 = "bv".toList :=
      (List.prefix_iff_eq_take.mp (hlib.lower_prefix ['B', 'V'] id (Text.forall_of_all (by decide)))).symm
    unfold bilibiliCase
    rw [if_pos hbv]
    rfl
  unfold normalizeBilibili
  rw [hid]
  show bilibiliCase lib ('B' :: 'V' :: id) >>= _ = _
  rw [hcase, joinPath_two]
  rfl

theorem normalizeBilibili_av (hlib : lib.Lawful) (h : IsDecimal 1 d) :
    normalizeBilibili lib (joinPath ["video".toList, 'a' :: 'v' :: d]) [] =
      .ok (Site.bilibili.url (joinPath ["video".toList, 'a' :: 'v' :: d]) .bilibiliVideo (some ('a' :: 'v' :: d))) := by
  have hslash : '/' ∉ 'a' :: 'v' :: d := by
    rw [List.mem_cons, List.mem_cons, not_or, not_or]
    exact ⟨by decide, by decide, digits_slash h.digits⟩
  have hid : bilibiliId (joinPath ["video".toList, 'a' :: 'v' :: d]) = some ('a' :: 'v' :: d) := by
    unfold bilibiliId
    rw [splitAll_two (by decide) hslash]
    dsimp only
    rw [isDigits_decimal h]
    rfl
  have hcase : bilibiliCase lib ('a' :: 'v' :: d) = .ok ('a' :: 'v' :: d) := by
    have hav : (lib.lower ('a' :: 'v' :: d)).take 2 = "av".toList :=
      (List.prefix_iff_eq_take.mp (hlib.lower_prefix ['a', 'v'] d (Text.forall_of_all (by decide)))).symm
    unfold bilibiliCase
    rw [hav, if_neg (by decide)]
    show canonicalDecimalId d "Bilibili av" 1 >>= _ = _
    rw [canonicalDecimalId_decimal h (Nat.le_refl 1)]
    rfl
  unfold normalizeBilibili
  rw [hid]
  show bilibiliCase lib ('a' :: 'v' :: d) >>= _ = _
  rw [hcase, joinPath_two]
  rfl

theorem normalizeDouyin_video (h : IsDecimal 1 d) : normalizeDouyin (joinPath ["video".toList, d]) =
    .ok (Site.douyin.url (joinPath ["video".toList, d]) .douyinVideo (some d)) := by
  unfold normalizeDouyin
  rw [splitAll_two (by decide) (digits_slash h.digits)]
  dsimp only
  rw [require_pos ⟨rfl, isDigits_decimal h⟩, ok_bind, canonicalDecimalId_decimal h (Nat.le_refl 1), joinPath_two]
  rfl

theorem handle_plain {c : Char} (h : isHandleChar c = true) : isUrlChar c = true ∧ c ≠ '/' ∧ c.toNat < 128 ∧
    c.toLower = c ∧ (isAsciiLetter c || isAsciiDigit c || c == '.' || c == '_') = true ∧ c ≠ '?' ∧ c ≠ '#' := by
  have hsafe : Percent.isSafe c = true := by
    unfold isHandleChar isAsciiDigit at h
    unfold Percent.isSafe
    simp only [Bool.or_eq_true, Bool.and_eq_true, decide_eq_true_eq, beq_iff_eq] at h ⊢
    rcases h with ((h | h) | rfl) | rfl
    · exact .inl (.inl (.inl h))
    · exact .inl (.inr h)
    · exact .inr (by decide)
    · exact .inr (by decide)
  have hascii : ∀ n : Fin 128, isHandleChar (Char.ofNat n.val) = true → isUrlChar (Char.ofNat n.val) = true ∧
      Char.ofNat n.val ≠ '/' ∧ (Char.ofNat n.val).toNat < 128 ∧ (Char.ofNat n.val).toLower = Char.ofNat n.val ∧
      (isAsciiLetter (Char.ofNat n.val) || isAsciiDigit (Char.ofNat n.val) || Char.ofNat n.val == '.' ||
        Char.ofNat n.val == '_') = true ∧ Char.ofNat n.val ≠ '?' ∧ Char.ofNat n.val ≠ '#' := by
    decide +kernel
  have hc := hascii ⟨c.toNat, of_decide_eq_true (Percent.isAscii_of_isSafe hsafe)⟩
  rw [Char.ofNat_toNat] at hc
  exact hc h

theorem normalizeTiktok_video (hlib : lib.Lawful) {handle : Text} (hne : handle ≠ [] ∧ handle.length ≤ 32)
    (hhandle : ∀ c ∈ handle, isHandleChar c = true) (h : IsDecimal 5 d) :
    normalizeTiktok lib (joinPath ['@' :: handle, "video".toList, d]) =
      .ok (Site.tiktok.url (joinPath ['@' :: handle, "video".toList, d]) .tiktokVideo (some d)) := by
  have hslash : '/' ∉ '@' :: handle := by
    rw [List.mem_cons, not_or]
    exact ⟨by decide, fun hm => (handle_plain (hhandle _ hm)).2.1 rfl⟩
  have hlower : lib.lower handle = handle := by
    rw [hlib.lower_ascii handle (fun c hc => (handle_plain (hhandle c hc)).2.2.1)]
    exact (List.map_congr_left (fun c hc => (handle_plain (hhandle c hc)).2.2.2.1)).trans (List.map_id _)
  have hchars : handle.all (fun c => isAsciiLetter c || isAsciiDigit c || c == '.' || c == '_') = true :=
    List.all_eq_true.mpr (fun c hc => (handle_plain (hhandle c hc)).2.2.2.2.1)
  unfold normalizeTiktok
  rw [splitAll_three hslash (by decide) (digits_slash h.digits)]
  show require _ _ >>= _ = _
  rw [require_pos ⟨isDigits_decimal h, rfl, hne.1, hne.2, hchars⟩, ok_bind, canonicalDecimalId_decimal h (by decide), hlower,
    joinPath_three]
  show Except.ok (tiktokUrl handle d) = _
  unfold tiktokUrl sourceUrl Site.url Site.address
  rw [List.append_assoc, List.append_assoc]
  rfl

theorem normalizeInstagram_reel {id : Text} (hlen : 5 ≤ id.length ∧ id.length ≤ 64)
    (h : ∀ c ∈ id, isReelChar c = true) :
    normalizeInstagram (joinPath ["reel".toList, id]) =
      .ok (Site.instagram.url (joinPath ["reel".toList, id]) .instagramReel (some id)) := by
  unfold normalizeInstagram
  rw [splitAll_two (by decide) (fun hm => nomatch h '/' hm)]
  show require _ _ >>= _ = _
  rw [require_pos ⟨.inl rfl, hlen.1, hlen.2, List.all_eq_true.mpr h⟩, ok_bind, joinPath_two]
  rfl

theorem joinPath_isPath {segments : List Text} (h : ∀ t ∈ segments, IsPath t) : IsPath (joinPath segments) := by
  intro c hc
  obtain ⟨t, ht, hc⟩ := List.mem_flatMap.mp hc
  rcases List.mem_cons.mp hc with rfl | hc
  · decide
  · exact h t ht c hc

theorem digits_segment {low : Nat} (h : IsDecimal low d) (hlow : 1 ≤ low) : IsSegment d ∧ IsPath d := by
  refine ⟨⟨List.ne_nil_of_length_pos (Nat.lt_of_lt_of_le hlow h.low), digits_slash h.digits⟩, fun c hc => ⟨?_, ?_⟩⟩
  · rintro rfl
    exact nomatch h.digits _ hc
  · rintro rfl
    exact nomatch h.digits _ hc

/-- the parts of a path of a form without a query -/
theorem normalizeUrl_segments (hlib : lib.Lawful) {segments : List Text} (hne : segments ≠ [])
    (hchars : ∀ c ∈ joinPath segments, isUrlChar c = true) (h : ∀ t ∈ segments, IsSegment t ∧ IsPath t) :
    normalizeUrl lib (s.address (joinPath segments)) = s.branch lib (joinPath segments) [] := by
  have hroot : ∃ t, joinPath segments = '/' :: t := by
    cases segments with
    | nil => exact absurd rfl hne
    | cons t segments => exact ⟨_, rfl⟩
  exact normalizeUrl_path hlib hchars hroot (joinPath_isPath (fun t ht => (h t ht).2))
    (joinPath_clean hne (fun t ht => (h t ht).1))

theorem literal_segment : ∀ t ∈ ["i".toList, "status".toList, "shorts".toList, "video".toList, "reel".toList, "watch".toList],
    IsSegment t ∧ ∀ c ∈ t, c ≠ '?' ∧ c ≠ '#' := by
  have hall : ∀ t ∈ ["i".toList, "status".toList, "shorts".toList, "video".toList, "reel".toList, "watch".toList],
      (t ≠ [] ∧ '/' ∉ t) ∧ '?' ∉ t ∧ '#' ∉ t := by decide
  intro t ht
  obtain ⟨hsegment, hquery, hfragment⟩ := hall t ht
  exact ⟨hsegment, fun c hc => ⟨fun he => hquery (he ▸ hc), fun he => hfragment (he ▸ hc)⟩⟩

/-- **The form of a canonical URL is its own normal form.** -/
theorem Form.normalize (hlib : lib.Lawful) {t : SourceType} {id : Option Text} (h : Form lib s rest t id)
    (hchars : ∀ c ∈ rest, isUrlChar c = true) : normalizeUrl lib (s.address rest) = .ok (s.url rest t id) := by
  cases h with
  | post d h =>
    rw [normalizeUrl_segments hlib (List.cons_ne_nil _ _) hchars (List.forall_mem_cons.mpr ⟨literal_segment _ (by decide),
      List.forall_mem_cons.mpr ⟨literal_segment _ (by decide),
        List.forall_mem_singleton.mpr (digits_segment h (Nat.le_refl 1))⟩⟩)]
    exact normalizeX_post h
  | short s t hs hclean hpath =>
    rw [normalizeUrl_path hlib hchars ⟨t, rfl⟩ hpath hclean]
    cases s with
    | tco => exact shortLink_clean hclean .tco _
    | b23 => exact shortLink_clean hclean .b23 _
    | vDouyin => exact shortLink_clean hclean .vDouyin _
    | vmTiktok => exact shortLink_clean hclean .vmTiktok _
    | vtTiktok => exact shortLink_clean hclean .vtTiktok _
    | x => cases hs
    | youtube => cases hs
    | bilibili => cases hs
    | douyin => cases hs
    | tiktok => cases hs
    | instagram => cases hs
  | watch id h =>
    have hjoin : Clean (joinPath ["watch".toList]) :=
      joinPath_clean (List.cons_ne_nil _ _) (List.forall_mem_singleton.mpr (literal_segment _ (by decide)).1)
    have hwatch : Clean "/watch".toList := hjoin
    have hshape : "/watch?".toList ++ lib.quotePlus ['v'] ++ '=' :: lib.quotePlus id =
        "/watch".toList ++ '?' :: (lib.quotePlus ['v'] ++ '=' :: lib.quotePlus id) := by
      rw [List.append_assoc]
      rfl
    have hfragment : '#' ∉ "/watch?".toList ++ lib.quotePlus ['v'] ++ '=' :: lib.quotePlus id := by
      rw [List.mem_append, List.mem_append, List.mem_cons, not_or, not_or, not_or]
      exact ⟨⟨by decide, notMem_quotePlus hlib _ rfl (by decide) (by decide)⟩, by decide,
        notMem_quotePlus hlib _ rfl (by decide) (by decide)⟩
    have hquery : partition '?' ("/watch?".toList ++ lib.quotePlus ['v'] ++ '=' :: lib.quotePlus id) =
        ("/watch".toList, some (lib.quotePlus ['v'] ++ '=' :: lib.quotePlus id)) := by
      rw [hshape]
      exact partition_at (by decide) _
    rw [normalizeUrl_site hlib .youtube hchars ⟨_, rfl⟩ hfragment hquery hwatch]
    exact normalizeYoutube_watch hlib h
  | shorts id h hpath =>
    rw [normalizeUrl_segments hlib (List.cons_ne_nil _ _) hchars (List.forall_mem_cons.mpr ⟨literal_segment _ (by decide),
      List.forall_mem_singleton.mpr ⟨h, hpath⟩⟩)]
    exact normalizeYoutube_shorts h
  | bv id hne h =>
    have hid : IsSegment ('B' :: 'V' :: id) ∧ IsPath ('B' :: 'V' :: id) := by
      refine ⟨⟨List.cons_ne_nil _ _, ?_⟩, List.forall_mem_cons.mpr ⟨by decide, List.forall_mem_cons.mpr ⟨by decide, ?_⟩⟩⟩
      · rw [List.mem_cons, List.mem_cons, not_or, not_or]
        exact ⟨by decide, by decide, alnum_slash h⟩
      · refine fun c hc => ⟨?_, ?_⟩
        · rintro rfl
          exact nomatch h _ hc
        · rintro rfl
          exact nomatch h _ hc
    rw [normalizeUrl_segments hlib (List.cons_ne_nil _ _) hchars (List.forall_mem_cons.mpr ⟨literal_segment _ (by decide),
      List.forall_mem_singleton.mpr hid⟩)]
    exact normalizeBilibili_bv hlib hne h
  | av d h =>
    obtain ⟨⟨-, hslash⟩, hpath⟩ := digits_segment h (Nat.le_refl 1)
    have hid : IsSegment ('a' :: 'v' :: d) ∧ IsPath ('a' :: 'v' :: d) := by
      refine ⟨⟨List.cons_ne_nil _ _, ?_⟩, List.forall_mem_cons.mpr ⟨by decide, List.forall_mem_cons.mpr ⟨by decide, hpath⟩⟩⟩
      rw [List.mem_cons, List.mem_cons, not_or, not_or]
      exact ⟨by decide, by decide, hslash⟩
    rw [normalizeUrl_segments hlib (List.cons_ne_nil _ _) hchars (List.forall_mem_cons.mpr ⟨literal_segment _ (by decide),
      List.forall_mem_singleton.mpr hid⟩)]
    exact normalizeBilibili_av hlib h
  | douyin d h =>
    rw [normalizeUrl_segments hlib (List.cons_ne_nil _ _) hchars (List.forall_mem_cons.mpr ⟨literal_segment _ (by decide),
      List.forall_mem_singleton.mpr (digits_segment h (Nat.le_refl 1))⟩)]
    exact normalizeDouyin_video h
  | tiktok handle d hne hhandle h =>
    have hname : IsSegment ('@' :: handle) ∧ IsPath ('@' :: handle) := by
      refine ⟨⟨List.cons_ne_nil _ _, ?_⟩,
        List.forall_mem_cons.mpr ⟨by decide, fun c hc => (handle_plain (hhandle c hc)).2.2.2.2.2⟩⟩
      rw [List.mem_cons, not_or]
      exact ⟨by decide, fun hm => (handle_plain (hhandle _ hm)).2.1 rfl⟩
    rw [normalizeUrl_segments hlib (List.cons_ne_nil _ _) hchars (List.forall_mem_cons.mpr ⟨hname,
      List.forall_mem_cons.mpr ⟨literal_segment _ (by decide),
        List.forall_mem_singleton.mpr (digits_segment h (by decide))⟩⟩)]
    exact normalizeTiktok_video hlib hne hhandle h
  | reel id hlen h =>
    have hid : IsSegment id ∧ IsPath id := by
      refine ⟨⟨List.ne_nil_of_length_pos (Nat.lt_of_lt_of_le (by decide) hlen.1), fun hm => nomatch h _ hm⟩,
        fun c hc => ⟨?_, ?_⟩⟩
      · rintro rfl
        exact nomatch h _ hc
      · rintro rfl
        exact nomatch h _ hc
    rw [normalizeUrl_segments hlib (List.cons_ne_nil _ _) hchars (List.forall_mem_cons.mpr ⟨literal_segment _ (by decide),
      List.forall_mem_singleton.mpr hid⟩)]
    exact normalizeInstagram_reel hlen h

/-! ## one source for one URL -/

theorem address_cut (s : Site) {t : Text} :
    ((s.address ('/' :: t)).drop 8).span (fun c => c != '/') = (s.host, '/' :: t) := by
  have hhost : ∀ c ∈ s.host, (c != '/') = true := by cases s <;> exact Text.forall_of_all (by decide)
  have hdrop : (s.address ('/' :: t)).drop 8 = s.host ++ '/' :: t := rfl
  rw [hdrop, List.span_eq_takeWhile_dropWhile, List.takeWhile_append_of_pos hhost, List.dropWhile_append_of_pos hhost,
    List.takeWhile_cons_of_neg (by decide), List.dropWhile_cons_of_neg (by decide), List.append_nil]

theorem host_inj {s s' : Site} (h : s.host = s'.host) : s = s' := by
  have hbranch : ∀ s s' : Site, s.host = s'.host → s = s' := by
    intro s s'
    cases s <;> cases s' <;> decide
  exact hbranch s s' h

theorem Form.rooted {t : SourceType} {id : Option Text} (h : Form lib s rest t id) : ∃ u, rest = '/' :: u := by
  cases h <;> exact ⟨_, rfl⟩

theorem quotePlus_inj (hlib : lib.Lawful) {a b : Text} (h : lib.quotePlus a = lib.quotePlus b) : a = b := by
  rw [← hlib.unquote_quotePlus a, h, hlib.unquote_quotePlus]

/-- **What stands behind a host names one source.** -/
theorem Form.unique (hlib : lib.Lawful) {t t' : SourceType} {id id' : Option Text} {rest' : Text}
    (h : Form lib s rest t id) (h' : Form lib s rest' t' id') (heq : rest = rest') : t = t' ∧ id = id' := by
  have hsplit := congrArg (splitAll '/') heq
  cases h with
  | post d h =>
    cases h' with
    | post d' h' =>
      rw [splitAll_three (by decide) (by decide) (digits_slash h.digits),
        splitAll_three (by decide) (by decide) (digits_slash h'.digits)] at hsplit
      simp only [List.cons.injEq, true_and, and_true] at hsplit
      rw [hsplit]
      exact ⟨rfl, rfl⟩
    | short _ _ hs => cases hs
  | short s t hs =>
    cases h' with
    | short => exact ⟨rfl, rfl⟩
    | _ => cases hs
  | watch id h =>
    cases h' with
    | watch id' h' =>
      have hquoted : lib.quotePlus id = lib.quotePlus id' := (List.cons.inj (List.append_cancel_left heq)).2
      rw [quotePlus_inj hlib hquoted]
      exact ⟨rfl, rfl⟩
    | shorts id' h' =>
      have hletter : some 'w' = some 's' := congrArg (fun r : Text => r[1]?) heq
      exact absurd hletter (by decide)
    | short _ _ hs => cases hs
  | shorts id h =>
    cases h' with
    | watch id' h' =>
      have hletter : some 's' = some 'w' := congrArg (fun r : Text => r[1]?) heq
      exact absurd hletter (by decide)
    | shorts id' h' =>
      rw [splitAll_two (by decide) h.2, splitAll_two (by decide) h'.2] at hsplit
      simp only [List.cons.injEq, true_and, and_true] at hsplit
      rw [hsplit]
      exact ⟨rfl, rfl⟩
    | short _ _ hs => cases hs
  | bv id hne h =>
    cases h' with
    | bv id' hne' h' =>
      rw [joinPath_two, joinPath_two] at heq
      have hid : '/' :: 'B' :: 'V' :: id = '/' :: 'B' :: 'V' :: id' := List.append_cancel_left (List.cons.inj heq).2
      rw [(List.cons.inj hid).2]
      exact ⟨rfl, rfl⟩
    | av d' h' =>
      have hletter : some 'B' = some 'a' := congrArg (fun r : Text => r[7]?) heq
      exact absurd hletter (by decide)
    | short _ _ hs => cases hs
  | av d h =>
    cases h' with
    | bv id' hne' h' =>
      have hletter : some 'a' = some 'B' := congrArg (fun r : Text => r[7]?) heq
      exact absurd hletter (by decide)
    | av d' h' =>
      rw [joinPath_two, joinPath_two] at heq
      have hid : '/' :: 'a' :: 'v' :: d = '/' :: 'a' :: 'v' :: d' := List.append_cancel_left (List.cons.inj heq).2
      rw [(List.cons.inj hid).2]
      exact ⟨rfl, rfl⟩
    | short _ _ hs => cases hs
  | douyin d h =>
    cases h' with
    | douyin d' h' =>
      rw [splitAll_two (by decide) (digits_slash h.digits), splitAll_two (by decide) (digits_slash h'.digits)] at hsplit
      simp only [List.cons.injEq, true_and, and_true] at hsplit
      rw [hsplit]
      exact ⟨rfl, rfl⟩
    | short _ _ hs => cases hs
  | tiktok handle d hne hhandle h =>
    cases h' with
    | tiktok handle' d' hne' hhandle' h' =>
      have hslash : ∀ name : Text, (∀ c ∈ name, isHandleChar c = true) → '/' ∉ '@' :: name := by
        intro name hname
        rw [List.mem_cons, not_or]
        exact ⟨by decide, fun hm => (handle_plain (hname _ hm)).2.1 rfl⟩
      rw [splitAll_three (hslash _ hhandle) (by decide) (digits_slash h.digits),
        splitAll_three (hslash _ hhandle') (by decide) (digits_slash h'.digits)] at hsplit
      simp only [List.cons.injEq, true_and, and_true] at hsplit
      rw [hsplit.2]
      exact ⟨rfl, rfl⟩
    | short _ _ hs => cases hs
  | reel id hlen h =>
    cases h' with
    | reel id' hlen' h' =>
      rw [splitAll_two (by decide) (fun hm => nomatch h _ hm), splitAll_two (by decide) (fun hm => nomatch h' _ hm)] at hsplit
      simp only [List.cons.injEq, true_and, and_true] at hsplit
      rw [hsplit]
      exact ⟨rfl, rfl⟩
    | short _ _ hs => cases hs

/-! ## every normalized URL has a form -/

theorem urlsplit_path {url : Text} {parts : SplitResult} (h : urlsplit lib url = .ok parts) (hnet : parts.netloc ≠ []) :
    (parts.path = [] ∨ ∃ t, parts.path = '/' :: t) ∧ IsPath parts.path ∧ parts.path ⊆ url := by
  unfold urlsplit at h
  have hread : (url.dropWhile (fun c => decide (c.toNat ≤ 32))).filter (fun c => !"\t\r\n".toList.contains c) ⊆ url :=
    fun c hc => (List.dropWhile_suffix _).subset (List.mem_of_mem_filter hc)
  generalize (url.dropWhile (fun c => decide (c.toNat ≤ 32))).filter (fun c => !"\t\r\n".toList.contains c) = read at h hread
  have hscheme : (splitScheme read).2 ⊆ read := by
    unfold splitScheme
    split
    · next c cs rest hcut =>
      split
      · rw [partition_join hcut]
        exact fun d hd => List.mem_append_right _ (List.mem_cons_of_mem _ hd)
      · exact List.Subset.refl _
    · exact List.Subset.refl _
  simp only [bind_eq_ok, require_eq_ok, pure_eq_ok] at h
  obtain ⟨-, -, rfl⟩ := h
  dsimp only at hnet ⊢
  split at hnet
  · next rest hrest =>
    simp only [List.span_eq_takeWhile_dropWhile, partition_fst]
    have htail : rest.dropWhile (fun c => !"/?#".toList.contains c) ⊆ url := by
      rw [hrest] at hscheme
      exact fun c hc => hread (hscheme (List.mem_cons_of_mem _ (List.mem_cons_of_mem _
        ((List.dropWhile_suffix _).subset hc))))
    have hstart := List.head?_dropWhile_not (fun c => !"/?#".toList.contains c) rest
    generalize rest.dropWhile (fun c => !"/?#".toList.contains c) = tail at htail hstart
    refine ⟨?_, fun c hc => ⟨?_, ?_⟩, fun c hc => ?_⟩
    · cases tail with
      | nil => exact .inl rfl
      | cons c t =>
        have hc : c ∈ "/?#".toList := by
          rw [List.head?_cons] at hstart
          exact List.contains_iff_mem.mp (Bool.not_eq_eq_eq_not.mp hstart)
        rcases List.mem_cons.mp hc with rfl | hc
        · exact .inr ⟨_, rfl⟩
        · left
          rcases List.mem_cons.mp hc with rfl | hc
          · rfl
          · rw [List.mem_singleton.mp hc]
            rfl
    · have hquery : (c != '?') = true := List.mem_takeWhile_imp (p := fun d => d != '?') hc
      exact bne_iff_ne.mp hquery
    · have hfragment : (c != '#') = true :=
        List.mem_takeWhile_imp (p := fun d => d != '#') ((List.takeWhile_prefix _).subset hc)
      exact bne_iff_ne.mp hfragment
    · exact htail ((List.takeWhile_prefix _).subset ((List.takeWhile_prefix _).subset hc))
  · exact absurd rfl hnet

theorem validateCommon_netloc {parts : SplitResult} {host : Text} (h : validateCommon lib parts = .ok host) :
    parts.netloc ≠ [] := by
  intro hnil
  simp only [validateCommon, bind_eq_ok, require_eq_ok, pure_eq_ok] at h
  obtain ⟨-, -, -, -, -, -, -, -, -, hhost, -⟩ := h
  have hinfo : parts.hostinfo = ([], []) := by
    unfold SplitResult.hostinfo
    rw [hnil]
    rfl
  rw [hinfo] at hhost
  exact hhost rfl

/-- an identifier that is accepted is a decimal number -/
theorem canonicalDecimalId_form {value : Text} {low k : Nat} {name : String} (h : canonicalDecimalId value name k = .ok d)
    (hdigits : isDigits low 32 value = true) : IsDecimal k d := by
  simp only [canonicalDecimalId, bind_eq_ok, require_eq_ok, pure_eq_ok] at h
  obtain ⟨-, ⟨-, hlow⟩, rfl⟩ := h
  obtain ⟨hall, hlen⟩ := Bool.and_eq_true_iff.mp hdigits
  have hsuffix := List.dropWhile_suffix (l := value) (· == '0')
  refine ⟨fun c hc => List.all_eq_true.mp hall c (hsuffix.subset hc), hlow,
    Nat.le_trans hsuffix.length_le (of_decide_eq_true hlen).2, fun hzero => ?_⟩
  have hhead := List.head?_dropWhile_not (· == '0') value
  rw [hzero] at hhead
  cases hhead

/-- what a branch gives -/
def Accepted (lib : UrlLib) (path : Text) (n : NormalizedURL) : Prop :=
  ∃ s rest t id, Form lib s rest t id ∧ n = s.url rest t id ∧
    (t = .shortLink ∨ t = .youtubeShort → ∀ c ∈ rest, c = '/' ∨ c ∈ "shorts".toList ∨ c ∈ path)

variable {n : NormalizedURL} {q : Text}

theorem normalizeX_form (h : normalizeX path = .ok n) : Accepted lib path n := by
  simp only [normalizeX, bind_eq_ok, fetch_eq_ok, pure_eq_ok] at h
  obtain ⟨value, hvalue, d, hd, rfl⟩ := h
  unfold xStatusId at hvalue
  split at hvalue
  · split at hvalue
    · next hcond =>
      cases hvalue
      refine ⟨.x, _, _, _, .post d (canonicalDecimalId_form hd hcond.2.2.1), ?_, fun h => absurd h (by decide)⟩
      rw [joinPath_three]
      rfl
    · cases hvalue
  · cases hvalue

theorem shortLink_form {message : String} (s : Site) (hs : s.isShort = true) (hclean : path = ['/'] ∨ Clean path)
    (hroot : ∃ t, path = '/' :: t) (hpath : IsPath path) (h : shortLink s.host s.platform path message = .ok n) :
    Accepted lib path n := by
  simp only [shortLink, bind_eq_ok, require_eq_ok, pure_eq_ok] at h
  obtain ⟨-, hne, rfl⟩ := h
  obtain ⟨t, rfl⟩ := hroot
  exact ⟨s, _, _, _, .short s t hs (hclean.resolve_left hne) hpath, rfl, fun _ c hc => .inr (.inr hc)⟩

theorem normalizeYoutube_form (hpath : IsPath path) (h : normalizeYoutube lib path q = .ok n) : Accepted lib path n := by
  unfold normalizeYoutube at h
  split at h
  · simp only [bind_eq_ok, require_eq_ok, pure_eq_ok] at h
    obtain ⟨-, hne, rfl⟩ := h
    refine ⟨.youtube, _, _, _, .watch _ hne, ?_, fun h => absurd h (by decide)⟩
    unfold watchUrl sourceUrl Site.url Site.address
    rw [List.append_assoc, List.append_assoc, List.append_assoc]
    rfl
  · split at h
    · next shorts video_id hsplit =>
      split at h
      · next hcond =>
        cases h
        have hmem : video_id ∈ splitAll '/' path := by
          rw [hsplit]
          exact List.mem_cons_of_mem _ (List.mem_cons_of_mem _ List.mem_cons_self)
        obtain ⟨hslash, hsub⟩ := splitAll_parts hmem
        refine ⟨.youtube, _, _, _, .shorts video_id ⟨hcond.2, hslash⟩ (fun c hc => hpath c (hsub hc)), ?_, fun _ c hc => ?_⟩
        · rw [joinPath_two]
          rfl
        · rw [joinPath_two] at hc
          rcases List.mem_cons.mp hc with rfl | hc
          · exact .inl rfl
          rcases List.mem_append.mp hc with hc | hc
          · exact .inr (.inl hc)
          rcases List.mem_cons.mp hc with rfl | hc
          · exact .inl rfl
          · exact .inr (.inr (hsub hc))
      · cases h
    · cases h

theorem normalizeYoutuBe_form (h : normalizeYoutuBe lib path = .ok n) : Accepted lib path n := by
  simp only [normalizeYoutuBe, bind_eq_ok, require_eq_ok, pure_eq_ok] at h
  obtain ⟨-, hne, rfl⟩ := h
  refine ⟨.youtube, _, _, _, .watch _ hne, ?_, fun h => absurd h (by decide)⟩
  unfold watchUrl sourceUrl Site.url Site.address
  rw [List.append_assoc, List.append_assoc, List.append_assoc]
  rfl

theorem matchesLetter_plain {letter c : Char} (hi : letter ≠ 'i') (hs : letter ≠ 's') (hk : letter ≠ 'k')
    (h : matchesLetter letter c = true) : c.toLower = letter := by
  unfold matchesLetter at h
  rw [beq_eq_false_iff_ne.mpr hi, beq_eq_false_iff_ne.mpr hs, beq_eq_false_iff_ne.mpr hk] at h
  simpa using h

theorem ascii_of_toLower {c : Char} (h : c.toLower.toNat < 128) : c.toNat < 128 := by
  unfold Char.toLower at h
  split at h
  · next hupper => exact Nat.lt_of_le_of_lt (UInt32.le_iff_toNat_le.mp hupper.2) (by decide)
  · exact h

/-- the first two letters of an identifier that is accepted -/
theorem lower_two (hlib : lib.Lawful) {x v a : Char} {id : Text} (ha : a = 'a' ∨ a = 'b') (hx : matchesLetter a x = true)
    (hv : matchesLetter 'v' v = true) : (lib.lower (x :: v :: id)).take 2 = [a, 'v'] := by
  have hax : x.toLower = a := by
    rcases ha with rfl | rfl
    · exact matchesLetter_plain (by decide) (by decide) (by decide) hx
    · exact matchesLetter_plain (by decide) (by decide) (by decide) hx
  have hvv : v.toLower = 'v' := matchesLetter_plain (by decide) (by decide) (by decide) hv
  have hascii : ∀ c ∈ [x, v], c.toNat < 128 := by
    refine List.forall_mem_cons.mpr ⟨ascii_of_toLower ?_, List.forall_mem_singleton.mpr (ascii_of_toLower ?_)⟩
    · rw [hax]
      rcases ha with rfl | rfl <;> decide
    · rw [hvv]
      decide
  have hprefix := List.prefix_iff_eq_take.mp (hlib.lower_prefix [x, v] id hascii)
  rw [List.map_cons, List.map_singleton, hax, hvv] at hprefix
  exact hprefix.symm

theorem normalizeBilibili_form (hlib : lib.Lawful) (h : normalizeBilibili lib path q = .ok n) : Accepted lib path n := by
  simp only [normalizeBilibili, bind_eq_ok, fetch_eq_ok, pure_eq_ok] at h
  obtain ⟨source_id, hid, -, -, id, hcase, rfl⟩ := h
  unfold bilibiliId at hid
  split at hid
  · next video x v rest hsplit =>
    dsimp only at hid
    split at hid
    · next hcond =>
      cases hid
      unfold bilibiliCase at hcase
      obtain ⟨-, hkind⟩ := Bool.and_eq_true_iff.mp hcond
      rcases Bool.or_eq_true_iff.mp hkind with hbv | hav
      · obtain ⟨hbv, hall⟩ := Bool.and_eq_true_iff.mp hbv
        obtain ⟨hbv, hne⟩ := Bool.and_eq_true_iff.mp hbv
        obtain ⟨hb, hv⟩ := Bool.and_eq_true_iff.mp hbv
        rw [lower_two hlib (.inr rfl) hb hv, if_pos (show ['b', 'v'] = "bv".toList from rfl)] at hcase
        cases hcase
        refine ⟨.bilibili, _, _, _, .bv rest (bne_iff_ne.mp hne) (List.all_eq_true.mp hall), ?_, fun h => absurd h (by decide)⟩
        rw [joinPath_two]
        rfl
      · obtain ⟨hav, hdigits⟩ := Bool.and_eq_true_iff.mp hav
        obtain ⟨ha, hv⟩ := Bool.and_eq_true_iff.mp hav
        rw [lower_two hlib (.inl rfl) ha hv, if_neg (by decide)] at hcase
        simp only [bind_eq_ok, pure_eq_ok] at hcase
        obtain ⟨d, hd, rfl⟩ := hcase
        refine ⟨.bilibili, _, _, _, .av d (canonicalDecimalId_form hd hdigits), ?_, fun h => absurd h (by decide)⟩
        rw [joinPath_two]
        rfl
    · cases hid
  · cases hid

theorem normalizeDouyin_form (h : normalizeDouyin path = .ok n) : Accepted lib path n := by
  unfold normalizeDouyin at h
  split at h
  · simp only [bind_eq_ok, require_eq_ok, pure_eq_ok] at h
    obtain ⟨-, hcond, d, hd, rfl⟩ := h
    refine ⟨.douyin, _, _, _, .douyin d (canonicalDecimalId_form hd hcond.2), ?_, fun h => absurd h (by decide)⟩
    rw [joinPath_two]
    rfl
  · cases h

theorem handle_lower : ∀ {c : Char}, (isAsciiLetter c || isAsciiDigit c || c == '.' || c == '_') = true →
    isHandleChar c.toLower = true ∧ c.toNat < 128 := by
  intro c h
  have hsafe : Percent.isSafe c = true := by
    unfold isAsciiLetter isAsciiDigit at h
    unfold Percent.isSafe
    simp only [Bool.or_eq_true, Bool.and_eq_true, decide_eq_true_eq, beq_iff_eq] at h ⊢
    rcases h with (((h | h) | h) | rfl) | rfl
    · exact .inl (.inl (.inl h))
    · exact .inl (.inl (.inr h))
    · exact .inl (.inr h)
    · exact .inr (by decide)
    · exact .inr (by decide)
  have hascii : ∀ n : Fin 128, (isAsciiLetter (Char.ofNat n.val) || isAsciiDigit (Char.ofNat n.val) ||
      Char.ofNat n.val == '.' || Char.ofNat n.val == '_') = true → isHandleChar (Char.ofNat n.val).toLower = true := by
    decide +kernel
  have hlt := of_decide_eq_true (Percent.isAscii_of_isSafe hsafe)
  have hc := hascii ⟨c.toNat, hlt⟩
  rw [Char.ofNat_toNat] at hc
  exact ⟨hc h, hlt⟩

theorem normalizeTiktok_form (hlib : lib.Lawful) (h : normalizeTiktok lib path = .ok n) : Accepted lib path n := by
  unfold normalizeTiktok at h
  split at h
  · next handle video id hsplit =>
    simp only [bind_eq_ok, require_eq_ok, pure_eq_ok] at h
    obtain ⟨-, ⟨hdigits, -, hne, hlen, hchars⟩, d, hd, rfl⟩ := h
    have hall := fun c hc => handle_lower (List.all_eq_true.mp hchars c hc)
    have hlower : lib.lower handle = handle.map Char.toLower := hlib.lower_ascii handle (fun c hc => (hall c hc).2)
    have hhandle : ∀ c ∈ handle.map Char.toLower, isHandleChar c = true := by
      intro c hc
      obtain ⟨d, hd, rfl⟩ := List.mem_map.mp hc
      exact (hall d hd).1
    rw [hlower]
    refine ⟨.tiktok, _, _, _, .tiktok (handle.map Char.toLower) d ⟨?_, ?_⟩ hhandle (canonicalDecimalId_form hd hdigits), ?_,
      fun h => absurd h (by decide)⟩
    · exact fun he => hne (List.map_eq_nil_iff.mp he)
    · rwa [List.length_map]
    · unfold tiktokUrl sourceUrl Site.url Site.address
      rw [joinPath_three, List.append_assoc, List.append_assoc]
      rfl
  · cases h

theorem normalizeInstagram_form (h : normalizeInstagram path = .ok n) : Accepted lib path n := by
  unfold normalizeInstagram at h
  split at h
  · next reel source_id hsplit =>
    simp only [bind_eq_ok, require_eq_ok, pure_eq_ok] at h
    obtain ⟨-, ⟨-, hlow, hhigh, hchars⟩, rfl⟩ := h
    refine ⟨.instagram, _, _, _, .reel source_id ⟨hlow, hhigh⟩ (List.all_eq_true.mp hchars), ?_, fun h => absurd h (by decide)⟩
    rw [joinPath_two]
    rfl
  · cases h

/-- **Every normalized URL has a form, whose free characters are those of the URL.** -/
theorem normalizeUrl_form (hlib : lib.Lawful) {url : Text} (h : normalizeUrl lib url = .ok n) :
    ∃ s rest t id, Form lib s rest t id ∧ n = s.url rest t id ∧
      (t = .shortLink ∨ t = .youtubeShort → ∀ c ∈ rest, c = '/' ∨ c ∈ "shorts".toList ∨ c ∈ url) := by
  simp only [normalizeUrl, bind_eq_ok, recast_eq_ok] at h
  obtain ⟨parts, hparts, host, hhost, h⟩ := h
  obtain ⟨hstart, hpath, hsub⟩ := urlsplit_path hparts (validateCommon_netloc hhost)
  obtain ⟨hroot, hclean⟩ := cleanPath_rooted hstart
  have hcleanPath : IsPath (cleanPath parts.path) := by
    intro c hc
    rcases hclean c hc with rfl | hc
    · decide
    · exact hpath c hc
  have hshort (s : Site) (message : String) (hs : s.isShort = true)
      (hlink : shortLink s.host s.platform (cleanPath parts.path) message = .ok n) :
      Accepted lib (cleanPath parts.path) n :=
    shortLink_form s hs (cleanPath_clean _) hroot hcleanPath hlink
  have haccepted : Accepted lib (cleanPath parts.path) n := by
    by_cases hx : host ∈ xHosts
    · rw [if_pos hx] at h
      exact normalizeX_form h
    rw [if_neg hx] at h
    by_cases ht : host = "t.co".toList
    · rw [if_pos ht, ht] at h
      exact hshort .tco _ rfl h
    rw [if_neg ht] at h
    by_cases hy : host ∈ youtubeHosts
    · rw [if_pos hy] at h
      exact normalizeYoutube_form hcleanPath h
    rw [if_neg hy] at h
    by_cases hbe : host = "youtu.be".toList
    · rw [if_pos hbe] at h
      exact normalizeYoutuBe_form h
    rw [if_neg hbe] at h
    by_cases hb : host ∈ bilibiliHosts
    · rw [if_pos hb] at h
      exact normalizeBilibili_form hlib h
    rw [if_neg hb] at h
    by_cases hb23 : host = "b23.tv".toList
    · rw [if_pos hb23, hb23] at h
      exact hshort .b23 _ rfl h
    rw [if_neg hb23] at h
    by_cases hd : host ∈ douyinHosts
    · rw [if_pos hd] at h
      exact normalizeDouyin_form h
    rw [if_neg hd] at h
    by_cases hvd : host = "v.douyin.com".toList
    · rw [if_pos hvd, hvd] at h
      exact hshort .vDouyin _ rfl h
    rw [if_neg hvd] at h
    by_cases hvm : host ∈ tiktokShortHosts
    · rw [if_pos hvm] at h
      rcases List.mem_cons.mp hvm with hh | hh
      · rw [hh] at h
        exact hshort .vmTiktok _ rfl h
      · rw [List.mem_singleton.mp hh] at h
        exact hshort .vtTiktok _ rfl h
    rw [if_neg hvm] at h
    by_cases htk : host ∈ tiktokHosts
    · rw [if_pos htk] at h
      exact normalizeTiktok_form hlib h
    rw [if_neg htk] at h
    by_cases hi : host ∈ instagramHosts
    · rw [if_pos hi] at h
      exact normalizeInstagram_form h
    rw [if_neg hi] at h
    cases h
  obtain ⟨s, rest, t, id, hform, hn, hraw⟩ := haccepted
  refine ⟨s, rest, t, id, hform, hn, fun ht c hc => ?_⟩
  rcases hraw ht c hc with hc | hc | hc
  · exact .inl hc
  · exact .inr (.inl hc)
  · rcases hclean c hc with hc | hc
    · exact .inl hc
    · exact .inr (.inr ((Text.strip_subset url) (hsub hc)))

/-- all but the paths that are kept have characters of a URL anyway -/
theorem Form.chars (hlib : lib.Lawful) {t : SourceType} {id : Option Text} (h : Form lib s rest t id)
    (hraw : t = .shortLink ∨ t = .youtubeShort → ∀ c ∈ rest, isUrlChar c = true) : ∀ c ∈ rest, isUrlChar c = true := by
  have hjoin {segments : List Text} (hall : ∀ u ∈ segments, ∀ c ∈ u, isUrlChar c = true) :
      ∀ c ∈ joinPath segments, isUrlChar c = true := by
    intro c hc
    obtain ⟨u, hu, hc⟩ := List.mem_flatMap.mp hc
    rcases List.mem_cons.mp hc with rfl | hc
    · rfl
    · exact hall u hu c hc
  have hliteral : ∀ u ∈ ["i".toList, "status".toList, "video".toList, "reel".toList], ∀ c ∈ u, isUrlChar c = true := by
    have hall : ["i".toList, "status".toList, "video".toList, "reel".toList].all (fun u => u.all isUrlChar) = true := by decide
    exact fun u hu => List.all_eq_true.mp (List.all_eq_true.mp hall u hu)
  have hdigit {c : Char} (hc : isAsciiDigit c = true) : isUrlChar c = true := by
    unfold isUrlChar
    rw [hc, Bool.or_true]
    rfl
  have hquoted (u : Text) : ∀ c ∈ lib.quotePlus u, isUrlChar c = true := by
    intro c hc
    rcases hlib.quotePlus_safe u c hc with hsafe | rfl | rfl
    · exact isUrlChar_of_isSafe hsafe
    · rfl
    · rfl
  cases h with
  | post d h =>
    exact hjoin (List.forall_mem_cons.mpr ⟨hliteral _ (by decide), List.forall_mem_cons.mpr ⟨hliteral _ (by decide),
      List.forall_mem_singleton.mpr (fun c hc => hdigit (h.digits c hc))⟩⟩)
  | short => exact hraw (.inl rfl)
  | watch id =>
    have hwatch : ∀ c ∈ "/watch?".toList, isUrlChar c = true := Text.forall_of_all (by decide)
    intro c hc
    rcases List.mem_append.mp hc with hc | hc
    · rcases List.mem_append.mp hc with hc | hc
      · exact hwatch c hc
      · exact hquoted _ c hc
    · rcases List.mem_cons.mp hc with rfl | hc
      · rfl
      · exact hquoted _ c hc
  | shorts => exact hraw (.inr rfl)
  | bv id hne h =>
    refine hjoin (List.forall_mem_cons.mpr ⟨hliteral _ (by decide), List.forall_mem_singleton.mpr ?_⟩)
    refine List.forall_mem_cons.mpr ⟨rfl, List.forall_mem_cons.mpr ⟨rfl, fun c hc => ?_⟩⟩
    unfold isUrlChar
    have hc := h c hc
    simp only [Bool.or_eq_true] at hc ⊢
    rcases hc with (hc | hc) | hc
    · exact .inl (.inl (.inr hc))
    · exact .inl (.inl (.inl hc))
    · exact .inl (.inr hc)
  | av d h =>
    refine hjoin (List.forall_mem_cons.mpr ⟨hliteral _ (by decide), List.forall_mem_singleton.mpr ?_⟩)
    exact List.forall_mem_cons.mpr ⟨rfl, List.forall_mem_cons.mpr ⟨rfl, fun c hc => hdigit (h.digits c hc)⟩⟩
  | douyin d h =>
    exact hjoin (List.forall_mem_cons.mpr ⟨hliteral _ (by decide),
      List.forall_mem_singleton.mpr (fun c hc => hdigit (h.digits c hc))⟩)
  | tiktok handle d hne hhandle h =>
    exact hjoin (List.forall_mem_cons.mpr ⟨List.forall_mem_cons.mpr ⟨rfl, fun c hc => (handle_plain (hhandle c hc)).1⟩,
      List.forall_mem_cons.mpr ⟨hliteral _ (by decide),
        List.forall_mem_singleton.mpr (fun c hc => hdigit (h.digits c hc))⟩⟩)
  | reel id hlen h =>
    refine hjoin (List.forall_mem_cons.mpr ⟨hliteral _ (by decide), List.forall_mem_singleton.mpr (fun c hc => ?_)⟩)
    have hc := h c hc
    unfold isReelChar at hc
    unfold isUrlChar
    simp only [Bool.or_eq_true, beq_iff_eq] at hc ⊢
    rcases hc with ((hc | hc) | rfl) | rfl
    · exact .inl (.inl (.inl hc))
    · exact .inl (.inl (.inr hc))
    · exact .inr (by decide)
    · exact .inr (by decide)

/-! ## the URLs of a share text -/

theorem matchesLetter_url {letter c : Char} (hletter : letter ∈ "htps".toList) (h : matchesLetter letter c = true) :
    isUrlChar c = true := by
  have hfolds (hc : foldsToLetter c = true) : isUrlChar c = true := by
    unfold isUrlChar
    rw [hc, Bool.or_true]
    rfl
  unfold matchesLetter at h
  simp only [Bool.or_eq_true, Bool.and_eq_true, beq_iff_eq] at h
  rcases h with ((h | ⟨-, h⟩) | ⟨-, h⟩) | ⟨-, h⟩
  · have hascii : ∀ n : Fin 128, (Char.ofNat n.val).toLower ∈ "htps".toList → isUrlChar (Char.ofNat n.val) = true := by
      decide +kernel
    have hsmall : ∀ d ∈ "htps".toList, d.toNat < 128 := Text.forall_of_all (by decide)
    have hlt : c.toNat < 128 := ascii_of_toLower (h ▸ hsmall letter hletter)
    have hc := hascii ⟨c.toNat, hlt⟩
    rw [Char.ofNat_toNat] at hc
    exact hc (h ▸ hletter)
  · refine hfolds ?_
    unfold foldsToLetter
    rcases h with h | h <;> rw [h] <;> rfl
  · refine hfolds ?_
    unfold foldsToLetter
    rw [h]
    rfl
  · refine hfolds ?_
    unfold foldsToLetter
    rw [h]
    rfl

/-- what a match has behind its scheme -/
theorem matchUrl_tail (start : Text) {rest : Text} {k : Nat} (hstart : ∀ c ∈ start, isUrlChar c = true)
    (h : (match rest with
      | ':' :: '/' :: '/' :: cs =>
        let m := (cs.takeWhile isUrlChar).length
        if m = 0 then none else some (start.length + 3 + m)
      | _ => none) = some k) : ∀ c ∈ (start ++ rest).take k, isUrlChar c = true := by
  split at h
  · next cs =>
    dsimp only at h
    split at h
    · cases h
    · cases h
      have htake : (start ++ ':' :: '/' :: '/' :: cs).take (start.length + 3 + (cs.takeWhile isUrlChar).length) =
          start ++ ':' :: '/' :: '/' :: cs.takeWhile isUrlChar := by
        rw [Nat.add_assoc, List.take_length_add_append, Nat.add_comm 3]
        show start ++ ':' :: '/' :: '/' :: cs.take _ = _
        rw [← List.prefix_iff_eq_take.mp (List.takeWhile_prefix isUrlChar)]
      rw [htake]
      intro c hc
      rcases List.mem_append.mp hc with hc | hc
      · exact hstart c hc
      rcases List.mem_cons.mp hc with rfl | hc
      · rfl
      rcases List.mem_cons.mp hc with rfl | hc
      · rfl
      rcases List.mem_cons.mp hc with rfl | hc
      · rfl
      · exact List.mem_takeWhile_imp hc
  · cases h

theorem matchUrl_chars {text : Text} {k : Nat} (h : matchUrl text = some k) : ∀ c ∈ text.take k, isUrlChar c = true := by
  unfold matchUrl at h
  split at h
  · next a b b' d rest =>
    split at h
    · next hletters =>
      simp only [Bool.and_eq_true] at hletters
      obtain ⟨⟨⟨ha, hb⟩, hb'⟩, hd⟩ := hletters
      have hscheme : ∀ c ∈ [a, b, b', d], isUrlChar c = true :=
        List.forall_mem_cons.mpr ⟨matchesLetter_url (by decide) ha,
          List.forall_mem_cons.mpr ⟨matchesLetter_url (by decide) hb,
            List.forall_mem_cons.mpr ⟨matchesLetter_url (by decide) hb',
              List.forall_mem_singleton.mpr (matchesLetter_url (by decide) hd)⟩⟩⟩
      cases rest with
      | nil => cases h
      | cons e cs =>
        by_cases he : matchesLetter 's' e = true
        · simp only [he, if_true] at h
          have hsecure : ∀ c ∈ [a, b, b', d, e], isUrlChar c = true := by
            intro c hc
            rcases List.mem_append.mp (show c ∈ [a, b, b', d] ++ [e] from hc) with hc | hc
            · exact hscheme c hc
            · rw [List.mem_singleton.mp hc]
              exact matchesLetter_url (by decide) he
          exact matchUrl_tail [a, b, b', d, e] hsecure h
        · simp only [he] at h
          exact matchUrl_tail [a, b, b', d] hscheme h
    · cases h
  · cases h

theorem findUrls_chars {skip : Nat} {text url : Text} (h : url ∈ findUrls skip text) : ∀ c ∈ url, isUrlChar c = true := by
  induction text generalizing skip with
  | nil => cases h
  | cons c cs ih =>
    cases skip with
    | succ skip => exact ih h
    | zero =>
      rw [findUrls] at h
      split at h
      · next k hk =>
        rcases List.mem_cons.mp h with rfl | h
        · exact matchUrl_chars hk
        · exact ih h
      · exact ih h

theorem extractUrls_chars {text url : Text} (h : url ∈ extractUrls text) : ∀ c ∈ url, isUrlChar c = true := by
  obtain ⟨found, hfound, rfl⟩ := List.mem_map.mp h
  exact fun c hc => findUrls_chars hfound c ((List.rdropWhile_prefix _ _).subset hc)

end

/-- **Normalizing a canonical URL gives it back with the same source, and a canonical URL names one source.** -/
theorem canonicalization {lib : UrlLib} (hlib : lib.Lawful) :
    (∀ text url n, url ∈ extractUrls text → normalizeUrl lib url = .ok n →
      normalizeUrl lib n.canonical_url.toList = .ok n) ∧
    ∀ url url' n n', normalizeUrl lib url = .ok n → normalizeUrl lib url' = .ok n' →
      n.canonical_url = n'.canonical_url → n.identity = n'.identity := by
  constructor
  · intro text url n hurl hn
    obtain ⟨s, rest, t, id, hform, rfl, hraw⟩ := normalizeUrl_form hlib hn
    have hshorts : ∀ c ∈ "shorts".toList, isUrlChar c = true := Text.forall_of_all (by decide)
    have hchars := hform.chars hlib (fun ht c hc => by
      rcases hraw ht c hc with rfl | hc | hc
      · rfl
      · exact hshorts c hc
      · exact extractUrls_chars hurl c hc)
    show normalizeUrl lib (String.ofList (s.address rest)).toList = _
    rw [String.toList_ofList]
    exact hform.normalize hlib hchars
  · intro url url' n n' hn hn' heq
    obtain ⟨s, rest, t, id, hform, rfl, -⟩ := normalizeUrl_form hlib hn
    obtain ⟨s', rest', t', id', hform', rfl, -⟩ := normalizeUrl_form hlib hn'
    have haddress : s.address rest = s'.address rest' := String.ofList_injective heq
    obtain ⟨u, rfl⟩ := hform.rooted
    obtain ⟨u', rfl⟩ := hform'.rooted
    have hcut := congrArg (fun a : Text => (a.drop 8).span (fun c => c != '/')) haddress
    simp only [address_cut] at hcut
    obtain ⟨hhost, hrest⟩ := Prod.mk.inj hcut
    obtain rfl := host_inj hhost
    obtain ⟨rfl, rfl⟩ := hform.unique hlib hform' hrest
    rfl

/-- the library on ASCII texts -/
def asciiLib : UrlLib where
  lower s := s.map Char.toLower
  unquote := Percent.unquote
  quotePlus := Percent.quotePlus
  isdigit s := s != [] && s.all isAsciiDigit
  int s := if s != [] && s.all isAsciiDigit then some (decimal s) else none
  netlocValid s := !(s.contains '[' || s.contains ']')

theorem asciiLib_lawful : asciiLib.Lawful where
  lower_ascii _ _ := rfl
  lower_prefix s t _ := by
    show s.map Char.toLower <+: (s ++ t).map Char.toLower
    rw [List.map_append]
    exact List.prefix_append _ _
  quotePlus_safe _ _ hc := Percent.quotePlus_safe hc
  quotePlus_plain _ h := Percent.quotePlus_plain h
  unquote_quotePlus := Percent.unquote_quotePlus
  netloc_plain s h := by
    have hnone {c : Char} (hc : Percent.isSafe c = false) : s.contains c = false := by
      rw [List.contains_eq_mem, decide_eq_false_iff_not]
      intro hm
      have hsafe := h c hm
      rw [hc] at hsafe
      cases hsafe
    show (!(s.contains '[' || s.contains ']')) = true
    rw [hnone rfl, hnone rfl]
    rfl

/-- a shared short form of a watch URL, and the URL that it stands for -/
theorem canonicalization_shared : ∃ n n' : NormalizedURL, n.source_id = some "a b" ∧
    normalizeUrl asciiLib n.canonical_url.toList = .ok n ∧ n.identity = n'.identity := by
  have hshort : (normalizeUrl asciiLib "https://m.youtube.com//watch/?t=1&v=a+b".toList).toOption.map
      (fun n => (n.canonical_url, n.source_id)) = some ("https://www.youtube.com/watch?v=a+b", some "a b") := by
    decide +kernel
  have hlong : (normalizeUrl asciiLib "http://youtube.com/watch?v=a%20b".toList).toOption.map
      NormalizedURL.canonical_url = some "https://www.youtube.com/watch?v=a+b" := by
    decide +kernel
  have hshared : "https://m.youtube.com//watch/?t=1&v=a+b".toList ∈
      extractUrls "看 https://m.youtube.com//watch/?t=1&v=a+b，".toList := by
    decide +kernel
  obtain ⟨n, hn, hread⟩ := Option.map_eq_some_iff.mp hshort
  obtain ⟨n', hn', hread'⟩ := Option.map_eq_some_iff.mp hlong
  obtain ⟨hurl, hid⟩ := Prod.mk.inj hread
  have hok {x : Except UrlErr NormalizedURL} {n : NormalizedURL} (h : x.toOption = some n) : x = .ok n := by
    cases x with
    | error e => cases h
    | ok a =>
      cases h
      rfl
  have h := canonicalization asciiLib_lawful
  exact ⟨n, n', hid, h.1 _ _ n hshared (hok hn), h.2 _ _ n n' (hok hn) (hok hn') (hurl.trans hread'.symm)⟩

end OpenFlame.Download
