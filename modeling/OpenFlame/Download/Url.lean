import OpenFlame.Base.Text
import OpenFlame.Download.Batch

/-!
# Submitted URLs and their canonical form

`urlsplit`, `SplitResult.hostname`, `parseQs`   `urllib.parse`, as far as the rules below use it
`extractUrls`                                    the URLs in a share text
`normalizeUrl`                                   the platform's canonical URL and the source identity

Texts are lists of characters here; a `NormalizedURL` stores strings.  `UrlLib` is what the rules call
of the Unicode tables and codecs of the library: no rule depends on how it answers.

`Canonical lib n`: the forms a normalized URL can have.  **`normalizeUrl_canonical`: there are no
others.**  `Canonical.eq_of_identity`: outside TikTok the identity fixes the canonical URL.
-/

set_option linter.all false

namespace OpenFlame.Download
open Guard

abbrev Text := List Char

structure UrlLib where
  /-- `str.lower` -/
  lower : Text → Text
  /-- `urllib.parse.unquote` -/
  unquote : Text → Text
  /-- `urllib.parse.quote_plus` -/
  quotePlus : Text → Text
  /-- `str.isdigit` -/
  isdigit : Text → Bool
  /-- `int(text)`, `none` when it raises -/
  int : Text → Option Int
  /-- `urlsplit` finds the brackets and the NFKC form of the netloc in order -/
  netlocValid : Text → Bool

/-- `URLNormalizationError`, or a `ValueError` that nobody catches -/
inductive UrlErr where
  | normalization (code : ErrorCode) (message : String)
  | valueError

/-! ## pieces of texts -/

/-- `s.partition(c)`: before the first `c`, and after it if there is one -/
def partition (c : Char) : Text → Text × Option Text
  | [] => ([], none)
  | x :: xs => if x = c then ([], some xs) else (x :: (partition c xs).1, (partition c xs).2)

/-- `s.rpartition(c)`: before the last `c` if there is one, and after it -/
def rpartition (c : Char) (s : Text) : Option Text × Text :=
  match partition c s.reverse with
  | (_, none) => (none, s)
  | (tail, some head) => (some head.reverse, tail.reverse)

/-- `s.split(c)` -/
def splitAll (c : Char) : Text → List Text
  | [] => [[]]
  | x :: xs =>
    if x = c then [] :: splitAll c xs
    else
      match splitAll c xs with
      | [] => [[x]]
      | s :: rest => (x :: s) :: rest

def isAsciiDigit (c : Char) : Bool := '0' ≤ c && c ≤ '9'

def isAsciiLetter (c : Char) : Bool := ('a' ≤ c && c ≤ 'z') || ('A' ≤ c && c ≤ 'Z')

/-- the value of a text of ASCII digits -/
def decimal (s : Text) : Nat := s.foldl (fun n c => 10 * n + (c.toNat - 48)) 0

/-! ## urllib.parse -/

structure SplitResult where
  scheme : Text
  netloc : Text
  path : Text
  query : Text

/-- the scheme before the first colon, when there is one and its characters are right -/
def splitScheme (url : Text) : Text × Text :=
  match partition ':' url with
  | (c :: cs, some rest) =>
    if isAsciiLetter c && cs.all (fun c => isAsciiLetter c || isAsciiDigit c || "+-.".toList.contains c) then
      ((c :: cs).map Char.toLower, rest)
    else ([], url)
  | _ => ([], url)

def urlsplit (lib : UrlLib) (url : Text) : Except UrlErr SplitResult := do
  let url := (url.dropWhile (fun c => c.toNat ≤ 32)).filter (fun c => !"\t\r\n".toList.contains c)
  let (scheme, url) := splitScheme url
  let (netloc, url) :=
    match url with
    | '/' :: '/' :: rest => rest.span (fun c => !"/?#".toList.contains c)
    | _ => ([], url)
  require (netloc = [] ∨ lib.netlocValid netloc = true) .valueError
  let (url, _fragment) := partition '#' url
  let (path, query) := partition '?' url
  return ⟨scheme, netloc, path, query.getD []⟩

/-- `_hostinfo` -/
def SplitResult.hostinfo (parts : SplitResult) : Text × Text :=
  let hostinfo := (rpartition '@' parts.netloc).2
  match partition '[' hostinfo with
  | (_, some bracketed) =>
    let (hostname, port) := partition ']' bracketed
    (hostname, ((partition ':' (port.getD [])).2).getD [])
  | (_, none) =>
    let (hostname, port) := partition ':' hostinfo
    (hostname, port.getD [])

/-- `hostname`; a zone after `%` keeps its case -/
def SplitResult.hostname (lib : UrlLib) (parts : SplitResult) : Text :=
  match partition '%' parts.hostinfo.1 with
  | (hostname, none) => lib.lower hostname
  | (hostname, some zone) => lib.lower hostname ++ '%' :: zone

/-- `username or password` -/
def SplitResult.hasUserinfo (parts : SplitResult) : Bool :=
  match (rpartition '@' parts.netloc).1 with
  | none => false
  | some userinfo =>
    let (username, password) := partition ':' userinfo
    username != [] || password.getD [] != []

/-- `port` -/
def SplitResult.port (parts : SplitResult) : Except UrlErr (Option Nat) :=
  match parts.hostinfo.2 with
  | [] => return none
  | port => do
    require (port.all isAsciiDigit = true ∧ decimal port ≤ 65535) .valueError
    return some (decimal port)

/-- `parse_qs(query, keep_blank_values=..).get(name, [])` -/
def parseQs (lib : UrlLib) (query : Text) (keep_blank_values : Bool) (name : Text) : List Text :=
  (splitAll '&' query).filterMap (fun name_value =>
    let plain (s : Text) : Text := lib.unquote (s.map (fun c => if c = '+' then ' ' else c))
    match partition '=' name_value with
    | (key, some value) =>
      if (value != [] || keep_blank_values) && plain key == name then some (plain value) else none
    | (key, none) => if key != [] && keep_blank_values && plain key == name then some (plain []) else none)

/-! ## share texts -/

/-- what `[A-Za-z]` matches under `IGNORECASE` besides the ASCII letters -/
def foldsToLetter (c : Char) : Bool := [0x130, 0x131, 0x17F, 0x212A].contains c.toNat

/-- one letter of a pattern under `IGNORECASE` -/
def matchesLetter (letter c : Char) : Bool :=
  c.toLower == letter || letter == 'i' && (c.toNat == 0x130 || c.toNat == 0x131) ||
    letter == 's' && c.toNat == 0x17F || letter == 'k' && c.toNat == 0x212A

/-- the characters after `://` in `URL_PATTERN` -/
def isUrlChar (c : Char) : Bool :=
  isAsciiLetter c || isAsciiDigit c || foldsToLetter c || "._~:/?#[]@!$&()*+,;=%-".toList.contains c

def TRAILING_PUNCTUATION : Text := ").,;:!?]\x7d>\x27\"，。；：！？）】》」』".toList

/-- `URL_PATTERN` at the start of a text: how many characters it matches -/
def matchUrl (s : Text) : Option Nat :=
  match s with
  | h :: t :: t' :: p :: rest =>
    if matchesLetter 'h' h && matchesLetter 't' t && matchesLetter 't' t' && matchesLetter 'p' p then
      let (n, rest) :=
        match rest with
        | c :: cs => if matchesLetter 's' c then (5, cs) else (4, rest)
        | [] => (4, rest)
      match rest with
      | ':' :: '/' :: '/' :: cs =>
        let m := (cs.takeWhile isUrlChar).length
        if m = 0 then none else some (n + 3 + m)
      | _ => none
    else none
  | _ => none

/-- `URL_PATTERN.finditer`, the next `skip` characters being part of the last match -/
def findUrls (skip : Nat) : Text → List Text
  | [] => []
  | c :: cs =>
    match skip with
    | skip + 1 => findUrls skip cs
    | 0 =>
      match matchUrl (c :: cs) with
      | some n => (c :: cs).take n :: findUrls (n - 1) cs
      | none => findUrls 0 cs

/-- `extract_urls` -/
def extractUrls (text : Text) : List Text :=
  (findUrls 0 text).map (fun url => url.rdropWhile TRAILING_PUNCTUATION.contains)

/-! ## normalization.py -/

/-- `_validate_common` -/
def validateCommon (lib : UrlLib) (parts : SplitResult) : Except UrlErr Text := do
  require (parts.scheme = "http".toList ∨ parts.scheme = "https".toList)
    (.normalization .invalidUrl "只接受 HTTP/HTTPS URL")
  require (parts.hasUserinfo = false) (.normalization .invalidUrl "URL 不得包含用户名或密码")
  let port ← recast parts.port (.normalization .invalidUrl "URL 端口无效")
  let default_port := if parts.scheme = "http".toList then 80 else 443
  require (port = none ∨ port = some default_port)
    (.normalization .invalidUrl "平台 URL 的 scheme 与端口不匹配")
  require (parts.hostinfo.1 ≠ []) (.normalization .invalidUrl "URL 缺少域名")
  return lib.lower ((parts.hostname lib).rdropWhile (· == '.'))

/-- `re.sub(r"/{2,}", "/", path)` -/
def collapseSlashes : Text → Text
  | [] => []
  | [c] => [c]
  | c :: d :: rest => if c = '/' ∧ d = '/' then collapseSlashes (d :: rest) else c :: collapseSlashes (d :: rest)

/-- `_clean_path` -/
def cleanPath (path : Text) : Text :=
  match (collapseSlashes path).rdropWhile (· == '/') with
  | [] => ['/']
  | path => path

/-- `_canonical_decimal_id` -/
def canonicalDecimalId (value : Text) (platform_name : String) (minimum_digits : Nat) : Except UrlErr Text := do
  let canonical := value.dropWhile (· == '0')
  require (canonical ≠ [] ∧ minimum_digits ≤ canonical.length)
    (.normalization .invalidUrl (platform_name ++ " 标识必须是正十进制整数"))
  return canonical

/-- `[0-9]{low,high}` -/
def isDigits (low high : Nat) (s : Text) : Bool :=
  s.all isAsciiDigit && decide (low ≤ s.length ∧ s.length ≤ high)

def xHosts : List Text :=
  ["x.com", "www.x.com", "mobile.x.com", "twitter.com", "www.twitter.com", "mobile.twitter.com"].map String.toList

def youtubeHosts : List Text :=
  ["youtube.com", "www.youtube.com", "m.youtube.com", "music.youtube.com"].map String.toList

def bilibiliHosts : List Text := ["bilibili.com", "www.bilibili.com", "m.bilibili.com"].map String.toList

def douyinHosts : List Text := ["douyin.com", "www.douyin.com"].map String.toList

def tiktokShortHosts : List Text := ["vm.tiktok.com", "vt.tiktok.com"].map String.toList

def tiktokHosts : List Text := ["tiktok.com", "www.tiktok.com", "m.tiktok.com"].map String.toList

def instagramHosts : List Text := ["instagram.com", "www.instagram.com", "m.instagram.com"].map String.toList

def unsupportedLink (message : String) : UrlErr := .normalization .unsupportedLinkType message

/-- a normalized URL with an identity -/
def sourceUrl (canonical : Text) (platform : Platform) (source_type : SourceType) (source_id : Text) :
    NormalizedURL :=
  ⟨String.ofList canonical, platform, source_type, some (String.ofList source_id)⟩

/-- `/([^/]+)/status/([0-9]{1,32})(?:/[^/]*)?` -/
def xStatusId (path : Text) : Option Text :=
  match splitAll '/' path with
  | [] :: name :: status :: id :: rest =>
    if name ≠ [] ∧ status = "status".toList ∧ isDigits 1 32 id = true ∧ rest.length ≤ 1 then some id else none
  | _ => none

def normalizeX (path : Text) : Except UrlErr NormalizedURL := do
  let value ← fetch (xStatusId path) (unsupportedLink "MVP 仅接受 X 单条帖子 status 链接")
  let source_id ← canonicalDecimalId value "X" 1
  return sourceUrl ("https://x.com/i/status/".toList ++ source_id) .x .xPost source_id

/-- a short link keeps its host and path -/
def shortLink (host : Text) (platform : Platform) (path : Text) (message : String) : Except UrlErr NormalizedURL := do
  require (path ≠ ['/']) (.normalization .invalidUrl message)
  return ⟨String.ofList ("https://".toList ++ host ++ path), platform, .shortLink, none⟩

/-- the canonical URL of a YouTube video -/
def watchUrl (lib : UrlLib) (video_id : Text) : NormalizedURL :=
  sourceUrl ("https://www.youtube.com/watch?".toList ++ lib.quotePlus ['v'] ++ '=' :: lib.quotePlus video_id)
    .youtube .youtubeVideo video_id

def normalizeYoutube (lib : UrlLib) (path query : Text) : Except UrlErr NormalizedURL :=
  if path = "/watch".toList then do
    let video_id := (parseQs lib query false ['v']).headD []
    require (video_id ≠ []) (.normalization .invalidUrl "YouTube watch URL 缺少 v 参数")
    return watchUrl lib video_id
  else
    match splitAll '/' path with
    | [[], shorts, video_id] =>
      if shorts = "shorts".toList ∧ video_id ≠ [] then
        return sourceUrl ("https://www.youtube.com/shorts/".toList ++ video_id) .youtube .youtubeShort video_id
      else throw (unsupportedLink "MVP 仅接受 YouTube 单视频或 Shorts 链接")
    | _ => throw (unsupportedLink "MVP 仅接受 YouTube 单视频或 Shorts 链接")

def normalizeYoutuBe (lib : UrlLib) (path : Text) : Except UrlErr NormalizedURL := do
  let video_id := (partition '/' (if path.head? = some '/' then path.tail else path)).1
  require (video_id ≠ []) (.normalization .invalidUrl "YouTube 短链缺少视频 ID")
  return watchUrl lib video_id

/-- `/video/((?:BV[0-9A-Za-z]+)|(?:av[0-9]{1,32}))`, `IGNORECASE` -/
def bilibiliId (path : Text) : Option Text :=
  match splitAll '/' path with
  | [[], video, x :: v :: rest] =>
    let isVideo := video.length == 5 && (List.zipWith matchesLetter "video".toList video).all id
    let isBv := matchesLetter 'b' x && matchesLetter 'v' v && rest != [] &&
      rest.all (fun c => isAsciiDigit c || isAsciiLetter c || foldsToLetter c)
    let isAv := matchesLetter 'a' x && matchesLetter 'v' v && isDigits 1 32 rest
    if isVideo && (isBv || isAv) then some (x :: v :: rest) else none
  | _ => none

/-- the pages a Bilibili URL asks for: none, or the first one once -/
def defaultPage (lib : UrlLib) (page_values : List Text) : Except UrlErr Unit :=
  let other := unsupportedLink "当前仅接受 Bilibili 投稿默认分 P；暂不支持选择其他分 P"
  match page_values with
  | [] => return ()
  | [page] => do
    require (lib.isdigit page = true) other
    let n ← fetch (lib.int page) .valueError
    require (n = 1) other
  | _ => throw other

/-- `BV` as it is, `av` without leading zeros -/
def bilibiliCase (lib : UrlLib) (source_id : Text) : Except UrlErr Text :=
  if (lib.lower source_id).take 2 = "bv".toList then return "BV".toList ++ source_id.drop 2
  else do return "av".toList ++ (← canonicalDecimalId (source_id.drop 2) "Bilibili av" 1)

def normalizeBilibili (lib : UrlLib) (path query : Text) : Except UrlErr NormalizedURL := do
  let source_id ← fetch (bilibiliId path) (unsupportedLink "MVP 仅接受 Bilibili 普通投稿 BV/av 链接")
  defaultPage lib (parseQs lib query true ['p'])
  let source_id ← bilibiliCase lib source_id
  return sourceUrl ("https://www.bilibili.com/video/".toList ++ source_id) .bilibili .bilibiliVideo source_id

def normalizeDouyin (path : Text) : Except UrlErr NormalizedURL :=
  match splitAll '/' path with
  | [[], video, id] => do
    require (video = "video".toList ∧ isDigits 1 32 id = true)
      (unsupportedLink "MVP 仅接受抖音单作品 video 链接")
    let source_id ← canonicalDecimalId id "Douyin" 1
    return sourceUrl ("https://www.douyin.com/video/".toList ++ source_id) .douyin .douyinVideo source_id
  | _ => throw (unsupportedLink "MVP 仅接受抖音单作品 video 链接")

/-- the canonical URL of a TikTok video names the handle too -/
def tiktokUrl (handle source_id : Text) : NormalizedURL :=
  sourceUrl ("https://www.tiktok.com/@".toList ++ handle ++ "/video/".toList ++ source_id) .tiktok .tiktokVideo source_id

def normalizeTiktok (lib : UrlLib) (path : Text) : Except UrlErr NormalizedURL :=
  match splitAll '/' path with
  | [[], '@' :: handle, video, id] => do
    require (isDigits 5 32 id = true ∧ video = "video".toList ∧ handle ≠ [] ∧ handle.length ≤ 32 ∧
        handle.all (fun c => isAsciiLetter c || isAsciiDigit c || c == '.' || c == '_') = true)
      (unsupportedLink "当前仅接受 TikTok 单视频 /@handle/video/\x7bid\x7d 链接")
    let source_id ← canonicalDecimalId id "TikTok" 5
    return tiktokUrl (lib.lower handle) source_id
  | _ => throw (unsupportedLink "当前仅接受 TikTok 单视频 /@handle/video/\x7bid\x7d 链接")

def normalizeInstagram (path : Text) : Except UrlErr NormalizedURL :=
  match splitAll '/' path with
  | [[], reel, source_id] => do
    require ((reel = "reel".toList ∨ reel = "reels".toList) ∧ 5 ≤ source_id.length ∧ source_id.length ≤ 64 ∧
        source_id.all (fun c => isAsciiLetter c || isAsciiDigit c || c == '_' || c == '-') = true)
      (unsupportedLink "当前仅接受 Instagram 单条 Reel 链接")
    return sourceUrl ("https://www.instagram.com/reel/".toList ++ source_id) .instagram .instagramReel source_id
  | _ => throw (unsupportedLink "当前仅接受 Instagram 单条 Reel 链接")

/-- `normalize_url` -/
def normalizeUrl (lib : UrlLib) (url : Text) : Except UrlErr NormalizedURL := do
  let parts ← recast (urlsplit lib (Text.strip url)) (.normalization .invalidUrl "URL 格式无效")
  let host ← validateCommon lib parts
  let path := cleanPath parts.path
  if host ∈ xHosts then normalizeX path
  else if host = "t.co".toList then shortLink host .x path "X 短链缺少标识"
  else if host ∈ youtubeHosts then normalizeYoutube lib path parts.query
  else if host = "youtu.be".toList then normalizeYoutuBe lib path
  else if host ∈ bilibiliHosts then normalizeBilibili lib path parts.query
  else if host = "b23.tv".toList then shortLink host .bilibili path "Bilibili 短链缺少标识"
  else if host ∈ douyinHosts then normalizeDouyin path
  else if host = "v.douyin.com".toList then shortLink host .douyin path "抖音短链缺少标识"
  else if host ∈ tiktokShortHosts then shortLink host .tiktok path "TikTok 短链缺少标识"
  else if host ∈ tiktokHosts then normalizeTiktok lib path
  else if host ∈ instagramHosts then normalizeInstagram path
  else throw (.normalization .unsupportedPlatform ("不支持的平台域名：" ++ String.ofList host))

/-! ## the canonical forms -/

/-- what `normalize_url` returns; `id` is never empty -/
inductive Canonical (lib : UrlLib) : NormalizedURL → Prop where
  | x (id : Text) (h : id ≠ []) :
      Canonical lib (sourceUrl ("https://x.com/i/status/".toList ++ id) .x .xPost id)
  | watch (id : Text) (h : id ≠ []) : Canonical lib (watchUrl lib id)
  | shorts (id : Text) (h : id ≠ []) :
      Canonical lib (sourceUrl ("https://www.youtube.com/shorts/".toList ++ id) .youtube .youtubeShort id)
  | bilibili (id : Text) (h : id ≠ []) :
      Canonical lib (sourceUrl ("https://www.bilibili.com/video/".toList ++ id) .bilibili .bilibiliVideo id)
  | douyin (id : Text) (h : id ≠ []) :
      Canonical lib (sourceUrl ("https://www.douyin.com/video/".toList ++ id) .douyin .douyinVideo id)
  | tiktok (handle id : Text) (h : id ≠ []) : Canonical lib (tiktokUrl handle id)
  | instagram (id : Text) (h : id ≠ []) :
      Canonical lib (sourceUrl ("https://www.instagram.com/reel/".toList ++ id) .instagram .instagramReel id)
  | short (url : String) (platform : Platform) : Canonical lib ⟨url, platform, .shortLink, none⟩

section
variable {lib : UrlLib} {path query : Text} {n n' : NormalizedURL}

theorem canonicalDecimalId_ne {value id : Text} {name : String} {k : Nat}
    (h : canonicalDecimalId value name k = .ok id) : id ≠ [] := by
  simp only [canonicalDecimalId, bind_eq_ok, require_eq_ok, pure_eq_ok] at h
  obtain ⟨-, hne, rfl⟩ := h
  exact hne.1

theorem shortLink_canonical {host : Text} {p : Platform} {m : String} (h : shortLink host p path m = .ok n) :
    Canonical lib n := by
  simp only [shortLink, bind_eq_ok, pure_eq_ok] at h
  obtain ⟨-, -, rfl⟩ := h
  exact .short _ p

theorem normalizeX_canonical (h : normalizeX path = .ok n) : Canonical lib n := by
  simp only [normalizeX, bind_eq_ok, pure_eq_ok] at h
  obtain ⟨_, -, id, hid, rfl⟩ := h
  exact .x id (canonicalDecimalId_ne hid)

theorem normalizeYoutube_canonical (h : normalizeYoutube lib path query = .ok n) : Canonical lib n := by
  unfold normalizeYoutube at h
  split at h
  · simp only [bind_eq_ok, require_eq_ok, pure_eq_ok] at h
    obtain ⟨-, hne, rfl⟩ := h
    exact .watch _ hne
  · split at h
    · split at h
      · next hid =>
        cases h
        exact .shorts _ hid.2
      · cases h
    · cases h

theorem normalizeYoutuBe_canonical (h : normalizeYoutuBe lib path = .ok n) : Canonical lib n := by
  simp only [normalizeYoutuBe, bind_eq_ok, require_eq_ok, pure_eq_ok] at h
  obtain ⟨-, hne, rfl⟩ := h
  exact .watch _ hne

theorem bilibiliCase_ne {id id' : Text} (h : bilibiliCase lib id = .ok id') : id' ≠ [] := by
  unfold bilibiliCase at h
  split at h
  · cases h
    exact List.cons_ne_nil _ _
  · simp only [bind_eq_ok, pure_eq_ok] at h
    obtain ⟨d, -, rfl⟩ := h
    exact List.cons_ne_nil _ _

theorem normalizeBilibili_canonical (h : normalizeBilibili lib path query = .ok n) : Canonical lib n := by
  simp only [normalizeBilibili, bind_eq_ok, pure_eq_ok] at h
  obtain ⟨_, -, _, -, id, hid, rfl⟩ := h
  exact .bilibili id (bilibiliCase_ne hid)

theorem normalizeDouyin_canonical (h : normalizeDouyin path = .ok n) : Canonical lib n := by
  unfold normalizeDouyin at h
  split at h
  · simp only [bind_eq_ok, pure_eq_ok] at h
    obtain ⟨-, -, id, hid, rfl⟩ := h
    exact .douyin id (canonicalDecimalId_ne hid)
  · cases h

theorem normalizeTiktok_canonical (h : normalizeTiktok lib path = .ok n) : Canonical lib n := by
  unfold normalizeTiktok at h
  split at h
  · simp only [bind_eq_ok, pure_eq_ok] at h
    obtain ⟨-, -, id, hid, rfl⟩ := h
    exact .tiktok _ id (canonicalDecimalId_ne hid)
  · cases h

theorem normalizeInstagram_canonical (h : normalizeInstagram path = .ok n) : Canonical lib n := by
  unfold normalizeInstagram at h
  split at h
  · simp only [bind_eq_ok, require_eq_ok, pure_eq_ok] at h
    obtain ⟨-, ⟨-, hlen, -, -⟩, rfl⟩ := h
    refine .instagram _ (fun e => ?_)
    rw [e] at hlen
    exact absurd hlen (by decide)
  · cases h

/-- **Every normalized URL has one of the canonical forms.** -/
theorem normalizeUrl_canonical {url : Text} (h : normalizeUrl lib url = .ok n) : Canonical lib n := by
  simp only [normalizeUrl, bind_eq_ok] at h
  obtain ⟨_, -, host, -, h⟩ := h
  rcases ite_eq_iff.mp h with ⟨-, h⟩ | ⟨-, h⟩
  · exact normalizeX_canonical h
  rcases ite_eq_iff.mp h with ⟨-, h⟩ | ⟨-, h⟩
  · exact shortLink_canonical h
  rcases ite_eq_iff.mp h with ⟨-, h⟩ | ⟨-, h⟩
  · exact normalizeYoutube_canonical h
  rcases ite_eq_iff.mp h with ⟨-, h⟩ | ⟨-, h⟩
  · exact normalizeYoutuBe_canonical h
  rcases ite_eq_iff.mp h with ⟨-, h⟩ | ⟨-, h⟩
  · exact normalizeBilibili_canonical h
  rcases ite_eq_iff.mp h with ⟨-, h⟩ | ⟨-, h⟩
  · exact shortLink_canonical h
  rcases ite_eq_iff.mp h with ⟨-, h⟩ | ⟨-, h⟩
  · exact normalizeDouyin_canonical h
  rcases ite_eq_iff.mp h with ⟨-, h⟩ | ⟨-, h⟩
  · exact shortLink_canonical h
  rcases ite_eq_iff.mp h with ⟨-, h⟩ | ⟨-, h⟩
  · exact shortLink_canonical h
  rcases ite_eq_iff.mp h with ⟨-, h⟩ | ⟨-, h⟩
  · exact normalizeTiktok_canonical h
  rcases ite_eq_iff.mp h with ⟨-, h⟩ | ⟨-, h⟩
  · exact normalizeInstagram_canonical h
  · cases h

/-- an identity: what a source row is looked up by -/
def NormalizedURL.identity (n : NormalizedURL) : Platform × SourceType × Option String :=
  (n.platform, n.source_type, n.source_id)

/-- only short links have no source id, and no source id is empty -/
theorem Canonical.source_id (h : Canonical lib n) (hshort : n.source_type ≠ .shortLink) :
    ∃ id, n.source_id = some id ∧ id ≠ "" := by
  have hne : ∀ {id : Text}, id ≠ [] → String.ofList id ≠ "" := by
    intro id hid e
    exact hid (String.ofList_eq_empty_iff.mp e)
  cases h with
  | short => exact absurd rfl hshort
  | _ => exact ⟨_, rfl, hne ‹_›⟩

/-- the canonical URL of an identity that is neither a short link nor on TikTok -/
def plainUrl (lib : UrlLib) (source_type : SourceType) (id : Text) : Text :=
  match source_type with
  | .xPost => "https://x.com/i/status/".toList ++ id
  | .youtubeVideo => "https://www.youtube.com/watch?".toList ++ lib.quotePlus ['v'] ++ '=' :: lib.quotePlus id
  | .youtubeShort => "https://www.youtube.com/shorts/".toList ++ id
  | .bilibiliVideo => "https://www.bilibili.com/video/".toList ++ id
  | .douyinVideo => "https://www.douyin.com/video/".toList ++ id
  | .instagramReel => "https://www.instagram.com/reel/".toList ++ id
  | .xAttachment | .tiktokVideo | .shortLink => []

theorem Canonical.plain (h : Canonical lib n) (hshort : n.source_type ≠ .shortLink) (htiktok : n.platform ≠ .tiktok) :
    n.canonical_url = String.ofList (plainUrl lib n.source_type (n.source_id.getD "").toList) := by
  cases h with
  | short => exact absurd rfl hshort
  | tiktok => exact absurd rfl htiktok
  | _ id =>
    show _ = String.ofList (plainUrl lib _ (String.ofList id).toList)
    have hid : (String.ofList id).toList = id := String.toList_ofList
    rw [hid]
    rfl

/-- **Outside TikTok the identity fixes the canonical URL.** -/
theorem Canonical.eq_of_identity (h : Canonical lib n) (h' : Canonical lib n')
    (hid : n'.identity = n.identity) (hshort : n.source_type ≠ .shortLink) (htiktok : n.platform ≠ .tiktok) :
    n'.canonical_url = n.canonical_url := by
  simp only [NormalizedURL.identity, Prod.mk.injEq] at hid
  obtain ⟨hp, ht, hs⟩ := hid
  rw [h.plain hshort htiktok, h'.plain (by rwa [ht]) (by rwa [hp]), ht, hs]

end

end OpenFlame.Download
