import OpenFlame.Network.Egress

/-!
# Redirect chains

`nextUrl`                 one entry of a chain, after the ones before it
`validateRedirectChain`   all entries, and the target of each
`Readable`                an entry whose texts `urljoin` and `urlsplit` can read
`ValidChain`              what a chain of targets is

* `urlsplit_canonicalUrl`      a canonical URL has the scheme it was made from;
* `chain_entries`              each canonical URL is the location joined to the one before;
* **`redirect_chain_exact`**   the chain is validated or refused, exactly if every entry that is reached is readable.
-/

set_option linter.all false

namespace OpenFlame.Network
open Guard Download

/-- `EgressPolicyError`, or an exception that nobody catches -/
inductive ChainErr where
  | policy (e : EgressPolicyError)
  | valueError
  | indexError

def chainError (reason message : String) : ChainErr := .policy (egressError reason message)

/-! ## the code -/

section
variable (lib : NetLib)

/-- `urlsplit` outside of any `try` -/
def splitUrl (url : Text) : Except ChainErr SplitResult := (urlsplit lib.toUrlLib url).mapError (fun _ => .valueError)

/-- `urlunsplit` of the parts in lower case, without the fragment; there is a scheme and a netloc -/
def canonicalUrl (parts : SplitResult) : Text :=
  let path := if parts.path = [] then ['/'] else parts.path
  lib.lower parts.scheme ++ "://".toList ++ lib.lower parts.netloc ++
    (if path.head? = some '/' then path else '/' :: path) ++ (if parts.query = [] then [] else '?' :: parts.query)

/-- the location, joined to the URL before it -/
def absoluteUrl (absolute_urls : List Text) (location : Text) : Option Text :=
  match absolute_urls.getLast? with
  | none => some location
  | some previous => lib.urljoin previous location

/-- no HTTP URL follows an HTTPS URL -/
def requireNoDowngrade (absolute_urls : List Text) (scheme : Text) : Except ChainErr Unit :=
  match absolute_urls.getLast? with
  | none => .ok ()
  | some previous => do
    let previous_parts ← splitUrl lib previous
    require (¬ (lib.lower previous_parts.scheme = "https".toList ∧ lib.lower scheme = "http".toList))
      (chainError "https_downgrade" "不允许 HTTPS 重定向降级到 HTTP")

/-- one round of the loop of `validate_redirect_chain`; `seen` has the elements of `absolute_urls` -/
def nextUrl (absolute_urls : List Text) (location : Text) : Except ChainErr (List Text) := do
  let absolute ← fetch (absoluteUrl lib absolute_urls location) .valueError
  let parts ← splitUrl lib absolute
  require (parts.scheme ≠ [] ∧ parts.netloc ≠ [])
    (chainError "invalid_redirect_location" "首个重定向链 URL 必须是绝对地址")
  let canonical := canonicalUrl lib parts
  require (canonical ∉ absolute_urls) (chainError "redirect_loop" "检测到重定向环路")
  requireNoDowngrade lib absolute_urls parts.scheme
  return absolute_urls ++ [canonical]

/-- the loop of `validate_redirect_chain` -/
def absoluteUrls (urls : List Text) : Except ChainErr (List Text) := thread (nextUrl lib) [] urls

/-- `validate_redirect_chain` -/
def validateRedirectChain (resolver : Text → Nat → Option (List Text)) (urls final_allowed_hosts : List Text) :
    Except ChainErr (List ResolvedTarget) := do
  require (urls ≠ []) (chainError "empty_redirect_chain" "重定向链不能为空")
  require (urls.length ≤ 11) (chainError "redirect_limit" "重定向最多允许 10 跳")
  let absolute_urls ← absoluteUrls lib urls
  let targets ← (each (fun url => resolvePublicTarget lib resolver url none false) absolute_urls).mapError .policy
  let allowed ← (each (asciiHost lib) final_allowed_hosts).mapError .policy
  let last ← fetch targets.getLast? .indexError
  require (hostAllowed last.host allowed = true)
    (chainError "final_host_not_allowed" ("重定向最终域名不在允许列表：" ++ String.ofList last.host))
  return targets

/-! ## chains -/

/-- `urljoin` and `urlsplit` can read what this entry makes of them -/
def Readable (absolute_urls : List Text) (location : Text) : Prop :=
  ∃ absolute parts, absoluteUrl lib absolute_urls location = some absolute ∧
    urlsplit lib.toUrlLib absolute = .ok parts ∧
    -- the URL before it is split again, unless the entry is refused first
    (parts.scheme = [] ∨ parts.netloc = [] ∨ canonicalUrl lib parts ∈ absolute_urls ∨
      ∀ previous ∈ absolute_urls.getLast?, ∃ previous_parts, urlsplit lib.toUrlLib previous = .ok previous_parts)

/-- a canonical URL is its location, resolved against the URL before it -/
def ResolvesTo (earlier : List Text) (location canonical : Text) : Prop :=
  ∃ absolute parts, absoluteUrl lib earlier location = some absolute ∧ urlsplit lib.toUrlLib absolute = .ok parts ∧
    parts.scheme ≠ [] ∧ parts.netloc ≠ [] ∧ canonical = canonicalUrl lib parts

/-- the targets of a chain -/
structure ValidChain (urls final_allowed_hosts : List Text) (targets : List ResolvedTarget) : Prop where
  count : targets.length = urls.length ∧ targets.length ≤ 11
  admitted : ∀ t ∈ targets, Admitted lib t.url t.scheme t.host t.port
  addresses : ∀ t ∈ targets, t.addresses ≠ [] ∧
    ∀ text ∈ t.addresses, ∃ a : Address, a.Public lib ∧ lib.compressed a = text
  resolved : ∀ i location t, urls[i]? = some location → targets[i]? = some t →
    ResolvesTo lib ((targets.take i).map (·.url)) location t.url
  distinct : (targets.map (·.url)).Nodup
  secure : targets.Pairwise (fun t t' => t.scheme = "https".toList → t'.scheme ≠ "http".toList)
  last : ∃ t allowed, targets.getLast? = some t ∧ each (asciiHost lib) final_allowed_hosts = .ok allowed ∧
    hostAllowed t.host allowed = true

end

/-! ## schemes -/

/-- a character of a scheme -/
def isSchemeChar (c : Char) : Bool := isAsciiLetter c || isAsciiDigit c || "+-.".toList.contains c

theorem isSchemeChar_ascii {c : Char} (h : isSchemeChar c = true) : c.toNat < 128 := by
  have hbelow : ∀ d : Char, d.toNat < 128 → 128 ≤ c.toNat → ¬ c ≤ d := by
    intro d hd hc hle
    have hnat : c.toNat ≤ d.toNat := hle
    omega
  by_contra hge
  have hc : 128 ≤ c.toNat := by omega
  have hz := hbelow 'z' (by decide) hc
  have hZ := hbelow 'Z' (by decide) hc
  have h9 := hbelow '9' (by decide) hc
  have hmem : c ∉ "+-.".toList := by
    intro hm
    have hall : ∀ d ∈ ['+', '-', '.'], d.toNat < 128 := Text.forall_of_all (by decide)
    exact hge (hall c hm)
  simp only [isSchemeChar, isAsciiLetter, isAsciiDigit, hz, hZ, h9, decide_false, Bool.and_false, Bool.or_false,
    List.contains_eq_mem, hmem] at h
  cases h

theorem schemeChar_cases : ∀ n : Fin 128, isSchemeChar (Char.ofNat n.val) = true →
    let c := (Char.ofNat n.val).toLower
    isSchemeChar c = true ∧ c.toLower = c ∧ 32 < c.toNat ∧ c ≠ ':' ∧ c.toNat < 128 ∧
      (isAsciiLetter (Char.ofNat n.val) = true → isAsciiLetter c = true) := by
  decide

theorem schemeChar_toLower {c : Char} (h : isSchemeChar c = true) :
    isSchemeChar c.toLower = true ∧ c.toLower.toLower = c.toLower ∧ 32 < c.toLower.toNat ∧ c.toLower ≠ ':' ∧
      c.toLower.toNat < 128 ∧ (isAsciiLetter c = true → isAsciiLetter c.toLower = true) := by
  have hcases := schemeChar_cases ⟨c.toNat, isSchemeChar_ascii h⟩
  dsimp only at hcases
  rw [Char.ofNat_toNat] at hcases
  exact hcases h

/-- a scheme, as `urlsplit` gives it -/
structure IsScheme (scheme : Text) : Prop where
  head : ∃ c cs, scheme = c :: cs ∧ isAsciiLetter c = true
  chars : ∀ c ∈ scheme, isSchemeChar c = true ∧ c.toLower = c ∧ 32 < c.toNat ∧ c ≠ ':' ∧ c.toNat < 128

theorem splitScheme_scheme (url : Text) : (splitScheme url).1 = [] ∨ IsScheme (splitScheme url).1 := by
  unfold splitScheme
  split
  · next c cs rest _ =>
    split
    · next h =>
      obtain ⟨hc, hcs⟩ := Bool.and_eq_true_iff.mp h
      have hchars : ∀ d ∈ c :: cs, isSchemeChar d = true := by
        intro d hd
        rcases List.mem_cons.mp hd with rfl | hd
        · unfold isSchemeChar
          rw [hc]
          rfl
        · exact List.all_eq_true.mp hcs d hd
      right
      constructor
      · exact ⟨c.toLower, cs.map Char.toLower, rfl, (schemeChar_toLower (hchars c List.mem_cons_self)).2.2.2.2.2 hc⟩
      · intro d hd
        obtain ⟨e, he, rfl⟩ := List.mem_map.mp hd
        obtain ⟨h1, h2, h3, h4, h5, -⟩ := schemeChar_toLower (hchars e he)
        exact ⟨h1, h2, h3, h4, h5⟩
    · exact .inl rfl
  · exact .inl rfl

section
variable {lib : NetLib} {url : Text} {parts : SplitResult}

/-- what `urlsplit` reads of a text -/
def stripped (url : Text) : Text := (url.dropWhile (fun c => c.toNat ≤ 32)).filter (fun c => !"\t\r\n".toList.contains c)

theorem urlsplit_scheme (h : urlsplit lib.toUrlLib url = .ok parts) : parts.scheme = (splitScheme (stripped url)).1 := by
  simp only [urlsplit, bind_eq_ok, require_eq_ok, pure_eq_ok] at h
  obtain ⟨-, -, rfl⟩ := h
  rfl

theorem partition_append {c : Char} {s : Text} (h : c ∉ s) (rest : Text) : partition c (s ++ c :: rest) = (s, some rest) := by
  induction s with
  | nil => exact if_pos rfl
  | cons d s ih =>
    rw [List.mem_cons, not_or] at h
    rw [List.cons_append]
    unfold partition
    rw [if_neg (fun he => h.1 he.symm), ih h.2]

theorem splitScheme_append {scheme : Text} (h : IsScheme scheme) (rest : Text) :
    (splitScheme (stripped (scheme ++ ':' :: rest))).1 = scheme := by
  obtain ⟨c, cs, rfl, hletter⟩ := h.head
  obtain ⟨-, -, hspace, -, -⟩ := h.chars c List.mem_cons_self
  have hkept : ∀ d : Char, 32 < d.toNat → (!"\t\r\n".toList.contains d) = true := by
    intro d hd
    have hall : ∀ e ∈ "\t\r\n".toList, e.toNat ≤ 32 := Text.forall_of_all (by decide)
    rw [Bool.not_eq_true', List.contains_eq_mem, decide_eq_false_iff_not]
    intro hm
    have hle := hall d hm
    omega
  have hread : stripped (c :: cs ++ ':' :: rest) =
      c :: cs ++ ':' :: rest.filter (fun c => !"\t\r\n".toList.contains c) := by
    unfold stripped
    have hdrop : (c :: cs ++ ':' :: rest).dropWhile (fun c => decide (c.toNat ≤ 32)) = c :: cs ++ ':' :: rest :=
      List.dropWhile_cons_of_neg (by rw [decide_eq_true_eq]; omega)
    have hfilter : (c :: cs).filter (fun c => !"\t\r\n".toList.contains c) = c :: cs :=
      List.filter_eq_self.mpr (fun d hd => hkept d (h.chars d hd).2.2.1)
    have hrest : (':' :: rest).filter (fun c => !"\t\r\n".toList.contains c) =
        ':' :: rest.filter (fun c => !"\t\r\n".toList.contains c) := List.filter_cons_of_pos (hkept ':' (by decide))
    rw [hdrop, List.filter_append, hfilter, hrest]
  have hcolon : ':' ∉ c :: cs := fun hm => (h.chars ':' hm).2.2.2.1 rfl
  have hall : cs.all isSchemeChar = true :=
    List.all_eq_true.mpr (fun d hd => (h.chars d (List.mem_cons_of_mem _ hd)).1)
  have hlower : (c :: cs).map Char.toLower = c :: cs :=
    (List.map_congr_left (fun d hd => (h.chars d hd).2.1)).trans (List.map_id _)
  rw [hread]
  unfold splitScheme
  rw [partition_append hcolon]
  have hletters : (isAsciiLetter c && cs.all (fun c => isAsciiLetter c || isAsciiDigit c || "+-.".toList.contains c)) = true :=
    Bool.and_eq_true_iff.mpr ⟨hletter, hall⟩
  dsimp only
  rw [if_pos hletters]
  exact hlower

theorem lower_scheme {scheme : Text} (h : IsScheme scheme) : lib.lower scheme = scheme := by
  rw [lib.lower_ascii scheme (List.all_eq_true.mpr (fun c hc => decide_eq_true (h.chars c hc).2.2.2.2))]
  exact (List.map_congr_left (fun d hd => (h.chars d hd).2.1)).trans (List.map_id _)

/-- a canonical URL has the scheme it was made from -/
theorem urlsplit_canonicalUrl (h : urlsplit lib.toUrlLib url = .ok parts) (hscheme : parts.scheme ≠ []) {parts' : SplitResult}
    (h' : urlsplit lib.toUrlLib (canonicalUrl lib parts) = .ok parts') :
    parts'.scheme = parts.scheme ∧ lib.lower parts.scheme = parts.scheme := by
  have hparts : IsScheme parts.scheme := by
    rw [urlsplit_scheme h] at hscheme ⊢
    exact (splitScheme_scheme _).resolve_left hscheme
  refine ⟨?_, lower_scheme hparts⟩
  rw [urlsplit_scheme h']
  unfold canonicalUrl
  rw [lower_scheme hparts, List.append_assoc, List.append_assoc, List.append_assoc]
  exact splitScheme_append hparts _

/-! ## the loop -/

variable {earlier cs urls : List Text} {location : Text}

theorem splitUrl_eq_ok : splitUrl lib url = .ok parts ↔ urlsplit lib.toUrlLib url = .ok parts := mapError_eq_ok

/-- one entry that is not refused -/
structure Entry (lib : NetLib) (earlier : List Text) (location canonical : Text) : Prop where
  resolved : ResolvesTo lib earlier location canonical
  fresh : canonical ∉ earlier
  secure : ∀ previous ∈ earlier.getLast?, ∀ before after, urlsplit lib.toUrlLib previous = .ok before →
    urlsplit lib.toUrlLib canonical = .ok after → before.scheme = "https".toList → after.scheme ≠ "http".toList

theorem nextUrl_ok (h : nextUrl lib earlier location = .ok cs) :
    ∃ canonical, cs = earlier ++ [canonical] ∧ Entry lib earlier location canonical := by
  simp only [nextUrl, bind_eq_ok, fetch_eq_ok, require_eq_ok, pure_eq_ok, splitUrl_eq_ok] at h
  obtain ⟨absolute, habsolute, parts, hparts, -, hne, -, hfresh, _, hsecure, rfl⟩ := h
  refine ⟨canonicalUrl lib parts, rfl, ⟨absolute, parts, habsolute, hparts, hne.1, hne.2, rfl⟩, hfresh, ?_⟩
  intro previous hprevious before after hbefore hafter hhttps
  obtain ⟨hscheme, hlower⟩ := urlsplit_canonicalUrl hparts hne.1 hafter
  unfold requireNoDowngrade at hsecure
  rw [hprevious] at hsecure
  simp only [bind_eq_ok, require_eq_ok, splitUrl_eq_ok] at hsecure
  obtain ⟨parts', hparts', hno⟩ := hsecure
  rw [hbefore] at hparts'
  cases hparts'
  intro hhttp
  refine hno ⟨?_, ?_⟩
  · rw [hhttps, lib.lower_ascii _ (by decide)]
    rfl
  · rw [hlower, ← hscheme, hhttp]

/-- the entries of a chain -/
structure Chained (lib : NetLib) (urls cs : List Text) : Prop where
  count : cs.length = urls.length
  entries : ∀ i location canonical, urls[i]? = some location → cs[i]? = some canonical → Entry lib (cs.take i) location canonical

/-- **Each canonical URL is its location joined to the one before**, is new, and is no downgrade. -/
theorem chain_entries (h : absoluteUrls lib urls = .ok cs) : Chained lib urls cs := by
  induction urls using List.reverseRecOn generalizing cs with
  | nil =>
    cases h
    exact ⟨rfl, fun i location canonical hl => nomatch hl⟩
  | append_singleton urls location ih =>
    obtain ⟨earlier, hearlier, hnext⟩ := thread_concat.mp h
    obtain ⟨canonical, rfl, hentry⟩ := nextUrl_ok hnext
    have hchained := ih hearlier
    constructor
    · rw [List.length_append, List.length_append, hchained.count]
      rfl
    · intro i l c hl hc
      rcases Nat.lt_or_ge i urls.length with hi | hi
      · rw [List.getElem?_append_left hi] at hl
        rw [List.getElem?_append_left (by rw [hchained.count]; exact hi)] at hc
        rw [List.take_append_of_le_length (by rw [hchained.count]; omega)]
        exact hchained.entries i l c hl hc
      · have hlast : i = urls.length := by
          have hlt := (List.getElem?_eq_some_iff.mp hl).1
          rw [List.length_append, List.length_singleton] at hlt
          omega
        rw [hlast, List.getElem?_concat_length] at hl
        cases hl
        rw [hlast, ← hchained.count, List.getElem?_concat_length] at hc
        cases hc
        rw [hlast, ← hchained.count, List.take_left']
        · exact hentry
        · rfl

theorem Chained.nodup (h : Chained lib urls cs) : cs.Nodup := by
  rw [List.nodup_iff_getElem?_ne_getElem?]
  intro i j hij hj he
  have hlt : j < urls.length := by
    rw [← h.count]
    exact hj
  obtain ⟨location, hlocation⟩ : ∃ location, urls[j]? = some location :=
    ⟨urls[j], List.getElem?_eq_getElem hlt⟩
  have hentry := h.entries j location cs[j] hlocation (List.getElem?_eq_getElem hj)
  refine hentry.fresh ?_
  rw [List.getElem?_eq_getElem hj] at he
  have htake : (cs.take j)[i]? = some cs[j] := by
    rw [List.getElem?_take, if_pos hij]
    exact he
  exact List.mem_of_getElem? htake

/-! ## the targets -/

variable {resolver : Text → Nat → Option (List Text)} {target : ResolvedTarget}

theorem resolvePublicTarget_ok {allowed_hosts : Option (List Text)} {allow_ip_literal : Bool}
    (h : resolvePublicTarget lib resolver url allowed_hosts allow_ip_literal = .ok target) :
    target.url = url ∧ Admitted lib url target.scheme target.host target.port ∧ target.addresses ≠ [] ∧
      ∀ text ∈ target.addresses, ∃ a : Address, a.Public lib ∧ lib.compressed a = text := by
  simp only [resolvePublicTarget, bind_eq_ok] at h
  obtain ⟨site, hsite, htarget⟩ := h
  obtain ⟨answers, hanswers⟩ : ∃ answers, site.target lib url answers = .ok target := by
    split at htarget
    · exact ⟨_, htarget⟩
    · exact ⟨_, htarget⟩
  obtain ⟨raw, accepted, rfl, -, -, htext⟩ := target_eq_ok.mp hanswers
  obtain ⟨hmem, hne⟩ := target_addresses hanswers
  rw [htext] at hmem hne ⊢
  refine ⟨rfl, (egressSite_admitted hsite).1, hne, fun text ht => ?_⟩
  obtain ⟨answer, -, hpublic⟩ := (hmem text).mp ht
  exact publicAddress_public hpublic

theorem Admitted.scheme_of {scheme host : Text} {port : Nat} (h : Admitted lib url scheme host port) :
    ∃ parts, urlsplit lib.toUrlLib url = .ok parts ∧ parts.scheme = scheme := by
  obtain ⟨parts, hparts, hscheme, -⟩ := h.split
  exact ⟨parts, hparts, hscheme⟩

theorem Admitted.not_http {scheme host : Text} {port : Nat} (h : Admitted lib url scheme host port) (hne : scheme ≠ "http".toList) :
    scheme = "https".toList := by
  rcases h.scheme_port with hs | hs
  · exact absurd hs.1 hne
  · exact hs.1

/-- what each element hands to the next, it hands to all that follow -/
theorem stays {α : Type} {l : List α} {p : α → Prop}
    (hstep : ∀ i a b, l[i]? = some a → l[i + 1]? = some b → p a → p b) {i : Nat} {a b : α} (k : Nat) (ha : l[i]? = some a)
    (hb : l[i + k]? = some b) (hp : p a) : p b := by
  induction k generalizing b with
  | zero =>
    rw [Nat.add_zero, ha] at hb
    cases hb
    exact hp
  | succ k ih =>
    have hlt : i + k < l.length := by
      have hlt := (List.getElem?_eq_some_iff.mp hb).1
      omega
    exact hstep (i + k) l[i + k] b (List.getElem?_eq_getElem hlt) hb (ih (List.getElem?_eq_getElem hlt))

/-- **What is returned is a valid chain.** -/
theorem validateRedirectChain_valid {final_allowed_hosts : List Text} {targets : List ResolvedTarget}
    (h : validateRedirectChain lib resolver urls final_allowed_hosts = .ok targets) :
    ValidChain lib urls final_allowed_hosts targets := by
  simp only [validateRedirectChain, bind_eq_ok, require_eq_ok, fetch_eq_ok, pure_eq_ok, mapError_eq_ok] at h
  obtain ⟨-, -, -, hcount, cs, hcs, targets', htargets, allowed, hallowed, last, hlast, -, hhost, rfl⟩ := h
  have hchained := chain_entries hcs
  have hresolved := each_forall₂ htargets
  have hlength : targets'.length = urls.length := hresolved.length_eq.symm.trans hchained.count
  have hurls : targets'.map (·.url) = cs := by
    clear hlength hlast hallowed htargets hchained hcs
    induction hresolved with
    | nil => rfl
    | cons hc _ ih => rw [List.map_cons, ih, (resolvePublicTarget_ok hc).1]
  have hadmitted : ∀ t ∈ targets', Admitted lib t.url t.scheme t.host t.port ∧ t.addresses ≠ [] ∧
      ∀ text ∈ t.addresses, ∃ a : Address, a.Public lib ∧ lib.compressed a = text := by
    intro t ht
    obtain ⟨c, -, hc⟩ := each_mem htargets t ht
    obtain ⟨hurl, hrest⟩ := resolvePublicTarget_ok hc
    rw [hurl]
    exact hrest
  have hstep : ∀ i t t', targets'[i]? = some t → targets'[i + 1]? = some t' → t.scheme = "https".toList →
      t'.scheme = "https".toList := by
    intro i t t' ht ht' hhttps
    have hurl : cs[i]? = some t.url := by rw [← hurls, List.getElem?_map, ht]; rfl
    have hurl' : cs[i + 1]? = some t'.url := by rw [← hurls, List.getElem?_map, ht']; rfl
    obtain ⟨location, hlocation⟩ : ∃ location, urls[i + 1]? = some location :=
      ⟨_, List.getElem?_eq_getElem (by rw [← hlength]; exact (List.getElem?_eq_some_iff.mp ht').1)⟩
    have hentry := hchained.entries (i + 1) location t'.url hlocation hurl'
    have hprevious : (cs.take (i + 1)).getLast? = some t.url := by
      rw [List.getLast?_take, if_neg (Nat.succ_ne_zero i), Nat.add_sub_cancel, hurl]
      rfl
    obtain ⟨before, hbefore, hscheme⟩ := (hadmitted t (List.mem_of_getElem? ht)).1.scheme_of
    obtain ⟨after, hafter, hscheme'⟩ := (hadmitted t' (List.mem_of_getElem? ht')).1.scheme_of
    refine (hadmitted t' (List.mem_of_getElem? ht')).1.not_http ?_
    rw [← hscheme']
    exact hentry.secure t.url hprevious before after hbefore hafter (hscheme.trans hhttps)
  constructor
  · exact ⟨hlength, hlength ▸ hcount⟩
  · exact fun t ht => (hadmitted t ht).1
  · exact fun t ht => (hadmitted t ht).2
  · intro i location t hl ht
    have hurl : cs[i]? = some t.url := by rw [← hurls, List.getElem?_map, ht]; rfl
    rw [List.map_take, hurls]
    exact (hchained.entries i location t.url hl hurl).resolved
  · rw [hurls]
    exact hchained.nodup
  · rw [List.pairwise_iff_getElem]
    intro i j hi hj hij hhttps hhttp
    obtain ⟨k, rfl⟩ := Nat.le.dest (Nat.le_of_lt hij)
    have hlast := stays hstep k (List.getElem?_eq_getElem hi) (List.getElem?_eq_getElem hj) hhttps
    rw [hlast] at hhttp
    exact absurd hhttp (by decide)
  · exact ⟨last, allowed, hlast, hallowed, hhost⟩

/-! ## the errors -/

/-- an error with a reason -/
def HasReason (e : EgressPolicyError) : Prop := e.reason ≠ []

theorem hasReason {reason message : String} (h : reason.toList ≠ []) : HasReason (egressError reason message) := h

theorem publicAddress_raises (raw : Text) : Raises (publicAddress lib raw) HasReason := by
  unfold publicAddress
  rw [raises_bind]
  refine ⟨raises_fetch (hasReason (by decide)), fun address _ => ?_⟩
  rw [raises_bind]
  refine ⟨raises_require (hasReason (by decide)), fun _ _ => ?_⟩
  rw [raises_bind]
  exact ⟨raises_require (hasReason (by decide)), fun _ _ => raises_pure⟩

theorem asciiHost_raises (host : Text) : Raises (asciiHost lib host) HasReason := by
  unfold asciiHost
  rw [raises_bind]
  refine ⟨raises_require (hasReason (by decide)), fun _ _ => ?_⟩
  rw [raises_bind]
  refine ⟨raises_require (hasReason (by decide)), fun _ _ => ?_⟩
  dsimp only
  split
  · exact raises_pure
  · rw [raises_bind]
    refine ⟨raises_fetch (hasReason (by decide)), fun _ _ => ?_⟩
    rw [raises_bind]
    refine ⟨raises_require (hasReason (by decide)), fun _ _ => ?_⟩
    rw [raises_bind]
    exact ⟨raises_require (hasReason (by decide)), fun _ _ => raises_pure⟩

theorem requireAllowed_raises (host : Text) (allowed_hosts : Option (List Text)) :
    Raises (requireAllowed lib host allowed_hosts) HasReason := by
  cases allowed_hosts with
  | none => exact raises_pure
  | some allowed_hosts =>
    unfold requireAllowed
    dsimp only
    rw [raises_bind]
    exact ⟨raises_each (fun a _ => asciiHost_raises a), fun _ _ => raises_require (hasReason (by decide))⟩

theorem egressSite_raises (url : Text) (allowed_hosts : Option (List Text)) (allow_ip_literal : Bool) :
    Raises (egressSite lib url allowed_hosts allow_ip_literal) HasReason := by
  unfold egressSite
  rw [raises_bind]
  refine ⟨raises_require (hasReason (by decide)), fun _ _ => ?_⟩
  rw [raises_bind]
  refine ⟨raises_mapError (fun _ _ => hasReason (by decide)), fun parts _ => ?_⟩
  rw [raises_bind]
  refine ⟨raises_require (hasReason (by decide)), fun _ _ => ?_⟩
  rw [raises_bind]
  refine ⟨raises_require (hasReason (by decide)), fun _ _ => ?_⟩
  rw [raises_bind]
  refine ⟨asciiHost_raises _, fun host _ => ?_⟩
  rw [raises_bind]
  refine ⟨raises_mapError (fun _ _ => hasReason (by decide)), fun explicit_port _ => ?_⟩
  dsimp only
  rw [raises_bind]
  refine ⟨raises_require (hasReason (by decide)), fun _ _ => ?_⟩
  rw [raises_bind]
  refine ⟨requireAllowed_raises host allowed_hosts, fun _ _ => ?_⟩
  rw [raises_bind]
  exact ⟨raises_require (hasReason (by decide)), fun _ _ => raises_pure⟩

theorem target_raises (url : Text) (site : Site) (answers : Option (List Text)) :
    Raises (site.target lib url answers) HasReason := by
  unfold Site.target
  rw [raises_bind]
  refine ⟨raises_fetch (hasReason (by decide)), fun raw_answers _ => ?_⟩
  rw [raises_bind]
  refine ⟨raises_require (hasReason (by decide)), fun _ _ => ?_⟩
  rw [raises_bind]
  exact ⟨raises_each (fun a _ => publicAddress_raises a), fun _ _ => raises_pure⟩

theorem resolvePublicTarget_raises (url : Text) (allowed_hosts : Option (List Text)) (allow_ip_literal : Bool) :
    Raises (resolvePublicTarget lib resolver url allowed_hosts allow_ip_literal) HasReason := by
  unfold resolvePublicTarget
  rw [raises_bind]
  refine ⟨egressSite_raises url allowed_hosts allow_ip_literal, fun site _ => ?_⟩
  split
  · exact target_raises url site _
  · exact target_raises url site _

/-- the error that the callers of `validate_redirect_chain` expect -/
def ChainErr.IsRefusal : ChainErr → Prop
  | .policy e => HasReason e
  | .valueError => False
  | .indexError => False

/-- an entry that can be read is refused with a reason, if it is refused -/
theorem nextUrl_raises (h : Readable lib earlier location) : Raises (nextUrl lib earlier location) ChainErr.IsRefusal := by
  obtain ⟨absolute, parts, habsolute, hparts, hprevious⟩ := h
  unfold nextUrl
  rw [habsolute, show fetch (some absolute) ChainErr.valueError = .ok absolute from rfl, ok_bind, splitUrl_eq_ok.mpr hparts, ok_bind,
    raises_bind]
  refine ⟨raises_require (hasReason (by decide)), fun _ hne => ?_⟩
  dsimp only
  rw [raises_bind]
  refine ⟨raises_require (hasReason (by decide)), fun _ hfresh => ?_⟩
  rw [raises_bind]
  refine ⟨?_, fun _ _ => raises_pure⟩
  have hreads : ∀ previous ∈ earlier.getLast?, ∃ previous_parts, urlsplit lib.toUrlLib previous = .ok previous_parts := by
    rcases hprevious with hscheme | hnetloc | hloop | hreads
    · exact absurd hscheme (require_eq_ok.mp hne).1
    · exact absurd hnetloc (require_eq_ok.mp hne).2
    · exact absurd hloop (require_eq_ok.mp hfresh)
    · exact hreads
  unfold requireNoDowngrade
  cases hlast : earlier.getLast? with
  | none => exact raises_ok
  | some previous =>
    obtain ⟨previous_parts, hsplit⟩ := hreads previous hlast
    dsimp only
    rw [splitUrl_eq_ok.mpr hsplit, ok_bind]
    exact raises_require (hasReason (by decide))

theorem splitUrl_error (h : ¬ ∃ parts, urlsplit lib.toUrlLib url = .ok parts) : splitUrl lib url = .error .valueError := by
  unfold splitUrl
  cases hs : urlsplit lib.toUrlLib url with
  | error e => rfl
  | ok parts => exact absurd ⟨parts, hs⟩ h

/-- an entry that cannot be read raises -/
theorem nextUrl_unreadable (h : ¬ Readable lib earlier location) : nextUrl lib earlier location = .error .valueError := by
  unfold nextUrl
  cases habsolute : absoluteUrl lib earlier location with
  | none => rfl
  | some absolute =>
    rw [show fetch (some absolute) ChainErr.valueError = .ok absolute from rfl, ok_bind]
    by_cases hparts : ∃ parts, urlsplit lib.toUrlLib absolute = .ok parts
    · obtain ⟨parts, hparts⟩ := hparts
      -- all that is left to fail is the URL before it
      have hlate : ¬ (parts.scheme = [] ∨ parts.netloc = [] ∨ canonicalUrl lib parts ∈ earlier ∨
          ∀ previous ∈ earlier.getLast?, ∃ previous_parts, urlsplit lib.toUrlLib previous = .ok previous_parts) :=
        fun hlate => h ⟨absolute, parts, habsolute, hparts, hlate⟩
      rw [not_or, not_or, not_or] at hlate
      obtain ⟨hscheme, hnetloc, hfresh, hprevious⟩ := hlate
      rw [splitUrl_eq_ok.mpr hparts, ok_bind, require_pos ⟨hscheme, hnetloc⟩, ok_bind]
      dsimp only
      rw [require_pos hfresh, ok_bind]
      unfold requireNoDowngrade
      cases hlast : earlier.getLast? with
      | none => exact absurd (fun previous hp => by rw [hlast] at hp; cases hp) hprevious
      | some previous =>
        have hunread : ¬ ∃ previous_parts, urlsplit lib.toUrlLib previous = .ok previous_parts := by
          intro hread
          refine hprevious (fun p hp => ?_)
          rw [hlast] at hp
          cases hp
          exact hread
        dsimp only
        rw [splitUrl_error hunread]
        rfl
    · rw [splitUrl_error hparts]
      rfl

/-! ## the chain -/

/-- every entry that the loop reaches can be read -/
def ChainReadable (lib : NetLib) (urls : List Text) : Prop :=
  ∀ before location after, urls = before ++ location :: after → ∀ earlier, absoluteUrls lib before = .ok earlier →
    Readable lib earlier location

theorem absoluteUrls_raises (h : ChainReadable lib urls) : Raises (absoluteUrls lib urls) ChainErr.IsRefusal := by
  intro e he
  obtain ⟨before, location, after, earlier, hurls, hearlier, hnext⟩ := thread_eq_error.mp he
  exact nextUrl_raises (h before location after hurls earlier hearlier) e hnext

theorem validateRedirectChain_raises (h : ChainReadable lib urls) (final_allowed_hosts : List Text) :
    Raises (validateRedirectChain lib resolver urls final_allowed_hosts) ChainErr.IsRefusal := by
  unfold validateRedirectChain
  rw [raises_bind]
  refine ⟨raises_require (hasReason (by decide)), fun _ hne => ?_⟩
  rw [raises_bind]
  refine ⟨raises_require (hasReason (by decide)), fun _ _ => ?_⟩
  rw [raises_bind]
  refine ⟨absoluteUrls_raises h, fun cs hcs => ?_⟩
  rw [raises_bind]
  refine ⟨raises_mapError (raises_each (fun url _ => resolvePublicTarget_raises url none false)), fun targets htargets => ?_⟩
  rw [raises_bind]
  refine ⟨raises_mapError (raises_each (fun host _ => asciiHost_raises host)), fun allowed _ => ?_⟩
  have hlength : targets.length = urls.length :=
    (each_forall₂ (mapError_eq_ok.mp htargets)).length_eq.symm.trans (chain_entries hcs).count
  obtain ⟨last, hlast⟩ : ∃ last, targets.getLast? = some last := by
    cases hlast : targets.getLast? with
    | none =>
      rw [List.getLast?_eq_none_iff] at hlast
      rw [hlast] at hlength
      exact absurd (List.eq_nil_of_length_eq_zero hlength.symm) (require_eq_ok.mp hne)
    | some last => exact ⟨last, rfl⟩
  rw [hlast, show fetch (some last) ChainErr.indexError = .ok last from rfl, ok_bind, raises_bind]
  exact ⟨raises_require (hasReason (by decide)), fun _ _ => raises_pure⟩

/-- **A chain is validated, or refused with a reason, exactly if every entry that is reached can be read**: no other
exception leaves `validate_redirect_chain`. -/
theorem redirect_chain_exact (lib : NetLib) (resolver : Text → Nat → Option (List Text)) (urls final_allowed_hosts : List Text) :
    (match validateRedirectChain lib resolver urls final_allowed_hosts with
      | .ok targets => ValidChain lib urls final_allowed_hosts targets
      | .error e => e.IsRefusal) ↔ (urls.length ≤ 11 → ChainReadable lib urls) := by
  constructor
  · intro h hcount before location after hurls earlier hearlier
    by_contra hunreadable
    have hne : urls ≠ [] := by
      rw [hurls]
      exact List.append_ne_nil_of_right_ne_nil _ (List.cons_ne_nil _ _)
    have hloop : absoluteUrls lib urls = .error .valueError :=
      thread_eq_error.mpr ⟨before, location, after, earlier, hurls, hearlier, nextUrl_unreadable hunreadable⟩
    have hraise : validateRedirectChain lib resolver urls final_allowed_hosts = .error .valueError := by
      unfold validateRedirectChain
      rw [require_pos hne, ok_bind, require_pos hcount, ok_bind, hloop]
      rfl
    rw [hraise] at h
    exact h
  · intro h
    cases hchain : validateRedirectChain lib resolver urls final_allowed_hosts with
    | ok targets => exact validateRedirectChain_valid hchain
    | error e =>
      by_cases hcount : urls.length ≤ 11
      · exact validateRedirectChain_raises (h hcount) final_allowed_hosts e hchain
      · unfold validateRedirectChain at hchain
        by_cases hne : urls ≠ []
        · rw [require_pos hne, ok_bind, require_neg hcount] at hchain
          cases hchain
          exact hasReason (by decide)
        · rw [require_neg hne] at hchain
          cases hchain
          exact hasReason (by decide)

end

/-! ## one entry with an open bracket -/

/-- ASCII texts; a bracket that is open in a netloc is closed in it -/
def bracketLib : NetLib where
  lower s := s.map Char.toLower
  unquote s := s
  quotePlus s := s
  isdigit s := s != [] && s.all isAsciiDigit
  int s := if s != [] && s.all isAsciiDigit then some (decimal s) else none
  netlocValid netloc := netloc.contains '[' == netloc.contains ']'
  lower_ascii := lower_ascii_letters
  idna _ := none
  ip_address _ := none
  ip_address_chars _ _ h := nomatch h
  compressed _ := []
  is_global _ := false
  is_multicast _ := false
  is_unspecified _ := false
  is_loopback _ := false
  is_link_local _ := false
  is_private _ := true
  is_reserved _ := false
  is_site_local _ := false
  urljoin _ url := some url

/-- `["http://[::1"]` is neither validated nor refused -/
theorem redirect_chain_bracket :
    ¬ (match validateRedirectChain bracketLib (fun _ _ => none) ["http://[::1".toList] ["example.com".toList] with
      | .ok targets => ValidChain bracketLib ["http://[::1".toList] ["example.com".toList] targets
      | .error e => e.IsRefusal) := by
  have hraise : validateRedirectChain bracketLib (fun _ _ => none) ["http://[::1".toList] ["example.com".toList] =
      .error .valueError := rfl
  rw [hraise]
  exact id

end OpenFlame.Network
