import OpenFlame.ShortLink.Resolver

/-!
# Every hop stays inside the policy

`Approved`   a target whose host was looked up for it, last of all: what may be requested
`Trusted`    a response of the target's own URL and of one of its addresses
`InPolicy`   what a question may be after the ones before it
`Landed`     what is returned
`At`         where the loop is: the target is approved, and its identity is new

* `approvedTarget_asks`, `redirect_asks`, `hops_asks`   what one target, one hop and the loop may ask;
* **`resolve_inPolicy`**                                what a whole resolution may ask and how it ends.
-/

set_option linter.all false

namespace OpenFlame.ShortLink
open Guard Download Network Process

abbrev Event (T : Type) := Exchange (Ask T) Failure

section
variable {T : Type}

def Ask.isTraffic {β : Type} : Ask T β → Bool
  | .now => false
  | .lookup .. | .request .. => true

/-- the questions to the resolver of names and to the transport -/
def traffic (es : List (Event T)) : List (Event T) := es.filter (fun e => e.question.isTraffic)

def Ask.requested {β : Type} : Ask T β → Option ResolvedTarget
  | .request r => some r.target
  | .now | .lookup .. => none

/-- the targets of the requests that were made -/
def requests (es : List (Event T)) : List ResolvedTarget := es.filterMap (fun e => e.question.requested)

/-- the host is one of the policy's, or under one where that is enough -/
def PlatformPolicy.allows (policy : PlatformPolicy) (host : Text) : Prop :=
  if policy.exact_hosts then host ∈ policy.allowed_hosts else hostAllowed host policy.allowed_hosts = true

/-- the last question was for the target's host, and the answers are its addresses -/
structure Approved (lib : NetLib) (policy : PlatformPolicy) (es : List (Event T)) (target : ResolvedTarget) : Prop where
  admitted : Admitted lib target.url "https".toList target.host 443
  scheme : target.scheme = "https".toList ∧ target.port = 443
  host : policy.allows target.host
  looked_up : ∃ before timeout answers,
    traffic es = before ++ [⟨.lookup target.host 443 timeout, .ok answers⟩] ∧
      (∀ raw ∈ answers, ∃ a ∈ target.addresses, publicAddress lib raw = .ok a) ∧
      ∀ a ∈ target.addresses, ∃ raw ∈ answers, publicAddress lib raw = .ok a
  addresses : target.addresses ≠ [] ∧ ∀ a ∈ target.addresses, ∃ address : Address, address.Public lib ∧
    lib.compressed address = a

/-- a response of the URL that was requested, from an address that was approved for it -/
def Ask.Trusts (lib : NetLib) {β : Type} : Ask T β → Except Failure β → Prop
  | .request r, answer => ∃ response peer_ip a, answer = .ok response ∧
      response.effective_url = some r.target.url ∧ response.peer_ip = some peer_ip ∧
      publicAddress lib peer_ip = .ok a ∧ a ∈ r.target.addresses
  | .now, _ | .lookup .., _ => True

/-- every response so far may be used -/
def Trusted (lib : NetLib) (es : List (Event T)) : Prop := ∀ e ∈ es, e.question.Trusts lib e.answer

section
variable [Zero T] [LE T] [LT T]

/-- what may be asked after `es` -/
def Ask.InPolicy (lib : NetLib) (limits : ShortLinkLimits T) (policy : PlatformPolicy) (es : List (Event T)) {β : Type} :
    Ask T β → Prop
  | .now => True
  | .lookup host port _ => policy.allows host ∧ port = 443 ∧ Trusted lib es
  | .request r => Approved lib policy es r.target ∧ Trusted lib es ∧ (requests es).length < limits.max_redirects ∧
      ∃ identity, redirectIdentity lib r.target.url = .ok identity ∧
        ∀ target ∈ requests es, redirectIdentity lib target.url ≠ .ok identity

/-- what is returned after `es` -/
structure Landed (lib : NetLib) (policy : PlatformPolicy) (initial : NormalizedURL) (es : List (Event T))
    (r : ShortLinkResolution) : Prop where
  platform : r.platform = initial.platform ∧ r.normalized.platform = initial.platform
  post : r.normalized.source_type ≠ .shortLink
  target : ∃ target, Approved lib policy es target ∧ normalizeUrl lib.toUrlLib target.url = .ok r.normalized
  redirect_count : r.redirect_count = (requests es).length
  trusted : Trusted lib es

end

end

/-! ## what more questions leave as it was -/

section
variable {T : Type} {lib : NetLib} {policy : PlatformPolicy} {es : List (Event T)} {target : ResolvedTarget}

theorem requests_append (es es' : List (Event T)) : requests (es ++ es') = requests es ++ requests es' :=
  List.filterMap_append

@[simp] theorem requests_now (r : Except Failure T) : requests (es ++ [⟨.now, r⟩]) = requests es := by
  rw [requests_append]
  exact List.append_nil _

@[simp] theorem requests_lookup (host : Text) (port : Nat) (t : T) (r : Except Failure (List Text)) :
    requests (es ++ [⟨.lookup host port t, r⟩]) = requests es := by
  rw [requests_append]
  exact List.append_nil _

@[simp] theorem requests_request (q : TransportRequest T) (r : Except Failure ShortLinkResponse) :
    requests (es ++ [⟨.request q, r⟩]) = requests es ++ [q.target] := requests_append es _

theorem trusted_append (e : Event T) : Trusted lib (es ++ [e]) ↔ Trusted lib es ∧ e.question.Trusts lib e.answer := by
  constructor
  · intro h
    exact ⟨fun x hx => h x (List.mem_append_left _ hx), h e (List.mem_append_right _ List.mem_cons_self)⟩
  · rintro ⟨h, he⟩ x hx
    rcases List.mem_append.mp hx with hx | hx
    · exact h x hx
    · cases List.mem_singleton.mp hx
      exact he

@[simp] theorem trusted_now (r : Except Failure T) : Trusted lib (es ++ [⟨.now, r⟩]) ↔ Trusted lib es :=
  (trusted_append _).trans (and_iff_left trivial)

@[simp] theorem trusted_lookup (host : Text) (port : Nat) (t : T) (r : Except Failure (List Text)) :
    Trusted lib (es ++ [⟨.lookup host port t, r⟩]) ↔ Trusted lib es := (trusted_append _).trans (and_iff_left trivial)

theorem traffic_now (r : Except Failure T) : traffic (es ++ [⟨.now, r⟩]) = traffic es := by
  unfold traffic
  rw [List.filter_append]
  exact List.append_nil _

/-- reading the clock does not touch an approved target -/
theorem Approved.now (h : Approved lib policy es target) (r : Except Failure T) :
    Approved lib policy (es ++ [⟨.now, r⟩]) target :=
  ⟨h.admitted, h.scheme, h.host, by rw [traffic_now]; exact h.looked_up, h.addresses⟩

end

/-! ## one target -/

section
variable {T : Type} {lib : NetLib} {policy : PlatformPolicy} {es : List (Event T)}

/-- the policies' names are compared as they are -/
theorem policies_plain {platform : Platform} (h : POLICIES platform = some policy) :
    policy.allowed_hosts.all isPlainName = true := by
  cases platform with
  | youtube | instagram => cases h
  | x | bilibili | douyin | tiktok =>
    cases h
    decide +kernel

/-- a host that passed the checks of `_approved_target` is allowed by the policy -/
theorem allows_of_checks {host hostname : Text} (hplain : policy.allowed_hosts.all isPlainName = true)
    (hexact : policy.exact_hosts = false ∨
      hostname ≠ [] ∧ lib.lower (hostname.rdropWhile (· == '.')) ∈ policy.allowed_hosts)
    (hhost : asciiHost lib hostname = .ok host) (hallowed : requireAllowed lib host (some policy.allowed_hosts) = .ok ()) :
    policy.allows host := by
  unfold PlatformPolicy.allows
  rcases hexact with h | ⟨hne, hmem⟩
  · rw [h]
    exact (requireAllowed_some_eq_ok hplain).mp hallowed
  · split
    · have hzone : '%' ∉ hostname := by
        simp only [asciiHost, bind_eq_ok, require_eq_ok] at hhost
        obtain ⟨-, -, -, hzone, -⟩ := hhost
        exact hzone
      rw [asciiHost_of_plain hne hzone (List.all_eq_true.mp hplain _ hmem)] at hhost
      cases hhost
      exact hmem
    · exact (requireAllowed_some_eq_ok hplain).mp hallowed

/-- a target that passed every check is approved by the answers that came last -/
theorem approved_of_checks {url : Text} {parts : SplitResult} {site : Network.Site}
    {target : ResolvedTarget} {timeout : T} {answers : List Text}
    (hparts : urlsplit lib.toUrlLib url = .ok parts) (hscheme : parts.scheme = "https".toList)
    (hsite : egressSite lib url (some policy.allowed_hosts) false = .ok site) (hallows : policy.allows site.host)
    (htarget : site.target lib url (some answers) = .ok target) :
    Approved lib policy (es ++ [⟨.lookup site.host 443 timeout, .ok answers⟩]) target ∧ target.url = url := by
  obtain ⟨hadmitted, -, -⟩ := egressSite_admitted hsite
  obtain ⟨hlength, ⟨parts', hparts', hscheme', hrest⟩, hport⟩ := hadmitted
  rw [hparts] at hparts'
  cases hparts'
  have hs : site.scheme = "https".toList := hscheme'.symm.trans hscheme
  have hp : site.port = 443 := by
    rcases hport with ⟨h, -⟩ | ⟨-, h⟩
    · rw [hs] at h
      exact absurd h (by decide)
    · exact h
  obtain ⟨hmem, hne⟩ := target_addresses htarget
  have hpublic := hmem
  obtain ⟨raw, accepted, hraw, -, hacc, rfl⟩ := target_eq_ok.mp htarget
  cases hraw
  rw [hp] at hrest
  refine ⟨⟨⟨hlength, ⟨parts, hparts, hscheme, hrest⟩, .inr ⟨rfl, rfl⟩⟩, ⟨hs, hp⟩, hallows,
    ⟨traffic es, timeout, answers, ?_, ?_, fun a ha => (hmem a).mp ha⟩, hne, ?_⟩, rfl⟩
  · unfold traffic
    rw [List.filter_append]
    rfl
  · intro r hr
    obtain ⟨a, -, ha⟩ := each_result hacc r hr
    exact ⟨a, (hmem a).mpr ⟨r, hr, ha⟩, ha⟩
  · intro a ha
    obtain ⟨r, -, hr⟩ := (hmem a).mp ha
    exact publicAddress_public hr

end

section
variable {T : Type} [Zero T] [LE T] [LT T] [Sub T] [Min T] [DecidableLE T] [DecidableLT T]
  {lib : NetLib} {limits : ShortLinkLimits T} {policy : PlatformPolicy} {es : List (Event T)}

/-- the guard of the talks below -/
def guardOf (lib : NetLib) (limits : ShortLinkLimits T) (policy : PlatformPolicy) (es : List (Event T)) (e : Event T) :
    Prop := e.question.InPolicy lib limits policy es

/-- **A target is looked up once, and approved by the answers.** -/
theorem approvedTarget_asks {url : Text} {timeout : T} (hplain : policy.allowed_hosts.all isPlainName = true)
    (htrusted : Trusted lib es) :
    Asks (guardOf lib limits policy)
      (Returns (fun es' target => Approved lib policy es' target ∧ target.url = url ∧ Trusted lib es' ∧
        requests es' = requests es))
      (approvedTarget lib limits url policy timeout) es := by
  unfold approvedTarget
  refine Asks.compute (fun parts hparts => Asks.compute (fun _ hscheme => Asks.compute (fun _ hexact =>
    Asks.compute (fun site hsite => ?_))))
  rw [mapError_eq_ok] at hparts hsite
  rw [require_eq_ok] at hscheme hexact
  obtain ⟨hadmitted, hallowed, hliteral⟩ := egressSite_admitted hsite
  rw [hliteral rfl]
  have hport : site.port = 443 := by
    obtain ⟨parts', hparts', hscheme', -⟩ := hadmitted.split
    rw [hparts] at hparts'
    cases hparts'
    rcases hadmitted.scheme_port with ⟨h, -⟩ | ⟨-, h⟩
    · rw [← hscheme', hscheme] at h
      exact absurd h (by decide)
    · exact h
  have hallows : policy.allows site.host := by
    obtain ⟨parts', hparts', -, -, -, hhost, -⟩ := hadmitted.split
    rw [hparts] at hparts'
    cases hparts'
    exact allows_of_checks hplain hexact hhost hallowed
  show Asks _ _ (boundedAnswers limits site.host site.port timeout >>= _) es
  refine Asks.seq (P := fun es' answers => ∀ a, answers = some a → ∃ raw,
      es' = es ++ [⟨.lookup site.host 443 timeout, .ok raw⟩] ∧ a = raw) ?_ ?_
  · intro r
    rw [hport]
    refine ⟨⟨hallows, rfl, htrusted⟩, ?_⟩
    cases r with
    | error e =>
      intro a ha b hb
      cases ha
      cases hb
    | ok raw =>
      intro a ha b hb
      cases ha
      split at hb
      · cases hb
        exact ⟨_, rfl, rfl⟩
      · cases hb
  · intro es' answers hanswers
    refine Asks.ret (fun target ht => ?_)
    rw [mapError_eq_ok] at ht
    obtain ⟨raw, accepted, rfl, -, -, -⟩ := target_eq_ok.mp ht
    obtain ⟨raw', rfl, rfl⟩ := hanswers raw rfl
    obtain ⟨h1, h2⟩ := @approved_of_checks T lib policy es _ _ _ _ timeout _ hparts hscheme hsite hallows ht
    exact ⟨h1, h2, (trusted_lookup ..).mpr htrusted, requests_lookup ..⟩

/-! ## one hop -/

/-- where the loop is after `n` requests -/
structure At (lib : NetLib) (policy : PlatformPolicy) (n : Nat) (hop : Hop) (es : List (Event T)) : Prop where
  approved : Approved lib policy es hop.current_target
  url : hop.current_target.url = hop.current_url
  trusted : Trusted lib es
  count : (requests es).length = n
  /-- the identity of the current target is new, and is seen with those of the requests -/
  identity : ∃ identity, redirectIdentity lib hop.current_url = .ok identity ∧ identity ∈ hop.seen ∧
    ∀ target ∈ requests es, redirectIdentity lib target.url ≠ .ok identity
  seen : ∀ target ∈ requests es, ∃ identity ∈ hop.seen, redirectIdentity lib target.url = .ok identity

theorem At.now {n : Nat} {hop : Hop} (h : At lib policy n hop es) (r : Except Failure T) :
    At lib policy n hop (es ++ [⟨.now, r⟩]) := by
  refine ⟨h.approved.now r, h.url, (trusted_now r).mpr h.trusted, ?_, ?_, ?_⟩
  · rw [requests_now]
    exact h.count
  · rw [requests_now]
    exact h.identity
  · rw [requests_now]
    exact h.seen

/-- the next turn starts at the next target, once it is approved -/
theorem At.turn {n : Nat} {hop : Hop} {es' : List (Event T)} {next_url identity : Text} {next_target : ResolvedTarget}
    {path : List Text} (h : At lib policy n hop es) (happroved : Approved lib policy es' next_target)
    (hurl : next_target.url = next_url) (htrusted : Trusted lib es')
    (hrequests : requests es' = requests es ++ [hop.current_target])
    (hidentity : redirectIdentity lib next_url = .ok identity) (hseen : identity ∉ hop.seen) :
    At lib policy (n + 1) ⟨next_url, next_target, identity :: hop.seen, path⟩ es' := by
  obtain ⟨current, hcurrent, hmem, -⟩ := h.identity
  rw [← h.url] at hcurrent
  -- what was seen before: the requests of the earlier turns and the one of this turn
  have hidentities : ∀ target ∈ requests es', ∃ i ∈ hop.seen, redirectIdentity lib target.url = .ok i := by
    intro target ht
    rw [hrequests] at ht
    rcases List.mem_append.mp ht with ht | ht
    · exact h.seen target ht
    · rw [List.mem_singleton.mp ht]
      exact ⟨current, hmem, hcurrent⟩
  refine ⟨happroved, hurl, htrusted, ?_, ⟨identity, hidentity, List.mem_cons_self, ?_⟩, ?_⟩
  · rw [hrequests, List.length_append, h.count]
    rfl
  · intro target ht he
    obtain ⟨i, hi, hie⟩ := hidentities target ht
    rw [he] at hie
    cases hie
    exact hseen hi
  · intro target ht
    obtain ⟨i, hi, hie⟩ := hidentities target ht
    exact ⟨i, List.mem_cons_of_mem _ hi, hie⟩

theorem checkTime_asks {total started : T} :
    Asks (guardOf lib limits policy) (Returns (fun es' _ => ∃ r, es' = es ++ [⟨.now, r⟩])) (checkTime total started) es := by
  refine Asks.seq (P := fun es' _ => ∃ r, es' = es ++ [⟨.now, r⟩]) (Asks.query (fun r => ⟨trivial, fun _ _ => ⟨r, rfl⟩⟩)) ?_
  intro es' now hes
  exact Asks.ret (fun _ _ => hes)

theorem remainingTime_asks {total started : T} :
    Asks (guardOf lib limits policy) (Returns (fun es' _ => ∃ r, es' = es ++ [⟨.now, r⟩]))
      (remainingTime total started) es := by
  refine Asks.seq (P := fun es' _ => ∃ r, es' = es ++ [⟨.now, r⟩]) (Asks.query (fun r => ⟨trivial, fun _ _ => ⟨r, rfl⟩⟩)) ?_
  intro es' now hes
  exact Asks.compute (fun _ _ => Asks.pure hes)

/-- a response that passed the checks may be used -/
theorem trusts_of_validate {r : TransportRequest T} {response : ShortLinkResponse} {u : Unit}
    (h : validateResponse lib limits r.target response = .ok u) :
    (Ask.request r : Ask T ShortLinkResponse).Trusts lib (.ok response) := by
  simp only [validateResponse, bind_eq_ok, fetch_eq_ok, require_eq_ok, mapError_eq_ok] at h
  obtain ⟨_, -, _, -, _, hurl, peer_ip, hpeer, _, hconnected, -⟩ := h
  obtain ⟨a, ha, hmem⟩ := assertConnectedPeer_eq_ok.mp hconnected
  exact ⟨response, peer_ip, a, rfl, hurl, hpeer, ha, hmem⟩

/-- the request of a turn -/
theorem transportRequest_asks {n : Nat} {hop : Hop} {timeout : T} (hn : n < limits.max_redirects)
    (h : At lib policy n hop es) :
    Asks (guardOf lib limits policy)
      (Returns (fun es' response => ∃ r, r.target = hop.current_target ∧ es' = es ++ [⟨.request r, .ok response⟩]))
      (transportRequest limits hop.current_target timeout) es := by
  obtain ⟨identity, hidentity, -, hnew⟩ := h.identity
  rw [← h.url] at hidentity
  intro r
  refine ⟨⟨h.approved, h.trusted, by rw [h.count]; exact hn, identity, hidentity, hnew⟩, ?_⟩
  cases r with
  | ok response =>
    intro response' hr
    cases hr
    exact ⟨_, rfl, rfl⟩
  | error e =>
    cases e with
    | resolution reason message => exact fun _ hr => (nomatch hr)
    | other => exact fun _ hr => (nomatch hr)

/-- **One turn of the loop**: one request to the approved target, and the next target approved. -/
theorem redirect_asks {total started : T} {n : Nat} {hop : Hop}
    (hplain : policy.allowed_hosts.all isPlainName = true) (hn : n < limits.max_redirects)
    (h : At lib policy n hop es) :
    Asks (guardOf lib limits policy) (Returns (fun es hop' => At lib policy (n + 1) hop' es))
      (redirect lib limits policy total started hop) es := by
  unfold redirect
  refine Asks.seq remainingTime_asks ?_
  rintro _ remaining ⟨now, rfl⟩
  replace h := h.now now
  generalize es ++ [⟨.now, now⟩] = es at h ⊢
  refine Asks.seq (transportRequest_asks hn h) ?_
  rintro _ response ⟨sent, hsent, rfl⟩
  -- the clock is read before the response is validated
  refine Asks.seq checkTime_asks ?_
  rintro _ - ⟨now, rfl⟩
  refine Asks.compute ?_
  intro _ hvalid
  refine Asks.compute ?_
  intro _ _
  refine Asks.compute ?_
  intro location _
  refine Asks.compute ?_
  intro joined _
  refine Asks.compute ?_
  intro next_url _
  refine Asks.compute ?_
  intro identity' hidentity'
  refine Asks.compute ?_
  intro _ hseen
  rw [require_eq_ok] at hseen
  have htrusted : Trusted lib (es ++ [⟨.request sent, .ok response⟩] ++ [⟨.now, now⟩]) := by
    rw [trusted_now, trusted_append]
    rw [← hsent] at hvalid
    exact ⟨h.trusted, trusts_of_validate hvalid⟩
  have hrequests : requests (es ++ [⟨.request sent, .ok response⟩] ++ [⟨.now, now⟩]) =
      requests es ++ [hop.current_target] := by rw [requests_now, requests_request, hsent]
  generalize es ++ [⟨.request sent, .ok response⟩] ++ [⟨.now, now⟩] = es' at htrusted hrequests ⊢
  refine Asks.seq remainingTime_asks ?_
  rintro _ remaining' ⟨now', rfl⟩
  refine Asks.seq (approvedTarget_asks hplain ((trusted_now _).mpr htrusted)) ?_
  rintro es'' next_target ⟨happroved, hurl, htrusted', hrequests'⟩
  rw [requests_now, hrequests] at hrequests'
  refine Asks.seq checkTime_asks ?_
  rintro _ - ⟨now'', rfl⟩
  exact Asks.pure ((h.turn happroved hurl htrusted' hrequests' hidentity' hseen).now now'')

/-! ## the loop -/

theorem landed_eq_some {platform : Platform} {url : Text} {normalized : NormalizedURL}
    (h : landed lib platform url = .ok (some normalized)) :
    normalizeUrl lib.toUrlLib url = .ok normalized ∧ normalized.platform = platform ∧
      normalized.source_type ≠ .shortLink := by
  unfold landed at h
  split at h
  · next n hn =>
    simp only [bind_eq_ok, require_eq_ok, pure_eq_ok] at h
    obtain ⟨-, hp, hs⟩ := h
    split at hs
    · cases hs
    · next hshort =>
      cases hs
      exact ⟨hn, hp, hshort⟩
  · cases h
  · cases h

/-- **The loop stays inside the policy**, by induction on the redirects that are left. -/
theorem hops_asks {initial : NormalizedURL} {total started : T} (hplain : policy.allowed_hosts.all isPlainName = true) :
    ∀ (left done : Nat) (hop : Hop) (es : List (Event T)), left + done = limits.max_redirects →
      At lib policy done hop es →
      Asks (guardOf lib limits policy) (Returns (fun es r => Landed lib policy initial es r))
        (hops lib limits policy initial total started left (done + 1) hop) es := by
  intro left
  induction left with
  | zero =>
    intro done hop es _ _ r hr
    cases hr
  | succ left ih =>
    intro done hop es hsum h
    unfold hops
    refine Asks.seq (redirect_asks hplain (by omega) h) ?_
    intro es hop' h'
    refine Asks.compute (fun r hr => ?_)
    cases r with
    | none => exact ih (done + 1) hop' es (by omega) h'
    | some normalized =>
      obtain ⟨hn, hp, hshort⟩ := landed_eq_some hr
      refine Asks.pure ⟨⟨rfl, hp⟩, hshort, ⟨hop'.current_target, h'.approved, ?_⟩, h'.count.symm, h'.trusted⟩
      rw [h'.url]
      exact hn

/-! ## a resolution -/

/-- what a start is: a short link of a platform with a policy -/
theorem startOf_eq_ok {submitted_url host : Text} {initial : NormalizedURL}
    (h : startOf lib submitted_url = .ok (initial, policy, host)) : POLICIES initial.platform = some policy := by
  simp only [startOf, bind_eq_ok, fetch_eq_ok, require_eq_ok, pure_eq_ok, Prod.mk.injEq] at h
  obtain ⟨_, -, _, hpolicy, _, -, _, -, rfl, rfl, -⟩ := h
  split at hpolicy
  · exact hpolicy
  · cases hpolicy

theorem resolveWithin_asks {submitted_url host : Text} {initial : NormalizedURL} {total : T}
    (hstart : startOf lib submitted_url = .ok (initial, policy, host)) :
    Asks (guardOf lib limits policy) (Returns (fun es r => Landed lib policy initial es r))
      (resolveWithin lib limits submitted_url total) [] := by
  have hplain := policies_plain (startOf_eq_ok hstart)
  unfold resolveWithin
  rw [hstart]
  refine Asks.compute (fun start he => ?_)
  cases he
  refine Asks.seq (P := fun es _ => ∃ r, es = [⟨.now, r⟩]) (Asks.query (fun r => ⟨trivial, fun _ _ => ⟨r, rfl⟩⟩)) ?_
  rintro _ started ⟨r, rfl⟩
  refine Asks.seq remainingTime_asks ?_
  rintro _ remaining ⟨r', rfl⟩
  have htrusted : Trusted lib ([⟨.now, r⟩] ++ [⟨.now, r'⟩] : List (Event T)) := by
    rw [trusted_now]
    intro e he
    cases List.mem_singleton.mp he
    trivial
  refine Asks.seq (approvedTarget_asks hplain htrusted) ?_
  rintro es target ⟨happroved, hurl, htrusted, hrequests⟩
  have hnone : requests es = [] := hrequests
  refine Asks.compute (fun identity hidentity => ?_)
  refine hops_asks hplain limits.max_redirects 0 _ es rfl ⟨happroved, hurl, htrusted, ?_, ⟨identity, hidentity, ?_⟩, ?_⟩
  · rw [hnone]
    rfl
  · rw [hnone]
    exact ⟨List.mem_cons_self, fun target ht => (nomatch ht)⟩
  · rw [hnone]
    exact fun target ht => (nomatch ht)

/-- whatever goes wrong, the reason is one that may be published -/
theorem publicReason_isErrorReason (e : Failure) : isErrorReason (publicReason e) = true := by
  unfold publicReason
  split
  · split
    · assumption
    · decide
  · decide
  · decide

/-- how a resolution may end after `es` -/
def EndsInPolicy (lib : NetLib) (submitted_url : Text) (es : List (Event T)) : Except Failure ShortLinkResolution → Prop
  | .ok r => ∃ initial policy host, startOf lib submitted_url = .ok (initial, policy, host) ∧
      Landed lib policy initial es r
  | .error e => ∃ reason message, e = .resolution (some reason) message ∧ isErrorReason reason = true

theorem resolve_asks {submitted_url : Text} {timeout_seconds : Timeout T} :
    Asks (fun es e => e.question.isTraffic = true → ∃ initial policy host,
        startOf lib submitted_url = .ok (initial, policy, host) ∧ e.question.InPolicy lib limits policy es)
      (EndsInPolicy lib submitted_url) (resolve lib limits submitted_url timeout_seconds) [] := by
  have hfail : ∀ (es : List (Event T)) (e : Failure), EndsInPolicy lib submitted_url es
      (.error (.resolution (some (publicReason e)) "短链未通过受控展开策略")) :=
    fun es e => ⟨_, _, rfl, publicReason_isErrorReason e⟩
  refine @Asks.handle _ _ _ _ _ _ _ (fun es r => ∀ resolution, r = .ok resolution → EndsInPolicy lib submitted_url es r)
    _ _ ?_ (fun es r h => h r rfl) (fun es e _ => Asks.done (hfail es e))
  refine Asks.compute (Q := fun es r => EndsInPolicy lib submitted_url es (.ok r)) (fun total _ => ?_) |>.mono ?_
  · cases hstart : startOf lib submitted_url with
    | error e =>
      unfold resolveWithin
      rw [hstart]
      exact fun _ hr => (nomatch hr)
    | ok start =>
      obtain ⟨initial, policy, host⟩ := start
      refine (resolveWithin_asks hstart).guard_mono (fun es e he _ => ⟨initial, policy, host, rfl, he⟩) |>.mono ?_
      exact fun es r h resolution hr => ⟨initial, policy, host, hstart, h resolution hr⟩
  · intro es r h resolution hr
    rw [hr]
    exact h resolution hr

/-- guarded requests are few, and no two of them have one identity -/
theorem requests_of_guard {es : List (Event T)}
    (h : ∀ (i : Nat) (e : Event T), es[i]? = some e → e.question.isTraffic = true →
      ∃ policy, e.question.InPolicy lib limits policy (es.take i)) :
    (requests es).length ≤ limits.max_redirects ∧
      (requests es).Pairwise (fun a b => redirectIdentity lib a.url ≠ redirectIdentity lib b.url) := by
  induction es using List.reverseRecOn with
  | nil => exact ⟨Nat.zero_le _, List.Pairwise.nil⟩
  | append_singleton es e ih =>
    have hlast := h es.length e List.getElem?_concat_length
    rw [List.take_left] at hlast
    have hbefore := ih (fun i x hx ht => by
      have hi : i < es.length := (List.getElem?_eq_some_iff.mp hx).1
      obtain ⟨policy, hp⟩ := h i x (by rw [List.getElem?_append_left hi]; exact hx) ht
      rw [List.take_append_of_le_length (Nat.le_of_lt hi)] at hp
      exact ⟨policy, hp⟩)
    obtain ⟨question, answer⟩ := e
    cases question with
    | now =>
      rw [requests_now]
      exact hbefore
    | lookup host port t =>
      rw [requests_lookup]
      exact hbefore
    | request r =>
      obtain ⟨policy, -, -, hcount, identity, hidentity, hnew⟩ := hlast rfl
      rw [requests_request]
      refine ⟨?_, List.pairwise_append.mpr ⟨hbefore.2, List.pairwise_singleton .., fun a ha b hb => ?_⟩⟩
      · rw [List.length_append]
        exact hcount
      · rw [List.mem_singleton.mp hb, hidentity]
        exact hnew a ha

/-- **Every short-link hop stays inside policy.**  Whatever the clock, the resolver of names and the transport answer:
a question to one of them is asked only of a short link of a platform with a policy; a request goes to a target that is
approved by the last answers of the resolver, and after responses that may all be used; requests are at most
`max_redirects`, of different identities; a resolution that is returned is one of the platform's posts, found at a URL
whose target was approved; and a failure has a reason that may be published. -/
theorem resolve_inPolicy {submitted_url : Text} {timeout_seconds : Timeout T} {es : List (Event T)}
    {v : Option (Except Failure ShortLinkResolution)}
    (h : Talk (resolve lib limits submitted_url timeout_seconds) es v) :
    (∀ (i : Nat) (e : Event T), es[i]? = some e → e.question.isTraffic = true → ∃ initial policy host,
        startOf lib submitted_url = .ok (initial, policy, host) ∧ POLICIES initial.platform = some policy ∧
          e.question.InPolicy lib limits policy (es.take i)) ∧
      (requests es).length ≤ limits.max_redirects ∧
      (requests es).Pairwise (fun a b => redirectIdentity lib a.url ≠ redirectIdentity lib b.url) ∧
      ∀ r, v = some r → EndsInPolicy lib submitted_url es r := by
  obtain ⟨hasks, hend⟩ := h.sound resolve_asks
  have hguard : ∀ (i : Nat) (e : Event T), es[i]? = some e → e.question.isTraffic = true → ∃ initial policy host,
      startOf lib submitted_url = .ok (initial, policy, host) ∧ POLICIES initial.platform = some policy ∧
        e.question.InPolicy lib limits policy (es.take i) := by
    intro i e he ht
    obtain ⟨initial, policy, host, hstart, hp⟩ := hasks i e he ht
    exact ⟨initial, policy, host, hstart, startOf_eq_ok hstart, hp⟩
  have hpolicy : ∀ (i : Nat) (e : Event T), es[i]? = some e → e.question.isTraffic = true →
      ∃ policy, e.question.InPolicy lib limits policy (es.take i) := by
    intro i e he ht
    obtain ⟨_, policy, _, _, _, hp⟩ := hguard i e he ht
    exact ⟨policy, hp⟩
  have hrequests := requests_of_guard hpolicy
  exact ⟨hguard, hrequests.1, hrequests.2, hend⟩

end

/-! ## one resolution -/

/-- ASCII texts, and one public address -/
def plainLib : NetLib where
  lower s := s.map Char.toLower
  unquote s := s
  quotePlus s := s
  isdigit s := s != [] && s.all isAsciiDigit
  int s := if s != [] && s.all isAsciiDigit then some (decimal s) else none
  netlocValid _ := true
  lower_ascii := lower_ascii_letters
  idna _ := none
  ip_address s := if s = "93.184.216.34".toList then some (.v4 1572395042) else none
  ip_address_chars s a h := by
    split at h
    · next hs =>
      rw [hs]
      decide
    · cases h
  compressed _ := "93.184.216.34".toList
  is_global a := a == .v4 1572395042
  is_multicast _ := false
  is_unspecified _ := false
  is_loopback _ := false
  is_link_local _ := false
  is_private a := !(a == .v4 1572395042)
  is_reserved _ := false
  is_site_local _ := false
  urljoin _ url := some url

/-- the defaults, in whole seconds -/
def defaultLimits : ShortLinkLimits Int :=
  ⟨5, 16, 16 * 1024, 1024, 4096, 5, 3, 15, by decide, by decide, by decide, by decide, by decide, by decide, by decide⟩

/-- a transport that redirects every request to one post -/
def toPost {β : Type} : Ask Int β → Except Failure β
  | .now => .ok 0
  | .lookup .. => .ok ["93.184.216.34".toList]
  | .request r => .ok ⟨some 302, some [some (some "Location".toList, some "https://x.com/name/status/12345?s=1".toList)],
      some [], some "93.184.216.34".toList, some r.target.url⟩

/-- `https://t.co/abc`, resolved with one request -/
def exampleTalk : List (Event Int) × Except Failure ShortLinkResolution :=
  play (fun o => nomatch o) toPost (resolve plainLib defaultLimits "https://t.co/abc".toList .unset)

theorem resolve_inPolicy_example :
    (requests exampleTalk.1).map (fun t => String.ofList t.url) = ["https://t.co/abc"] ∧
      exampleTalk.2.toOption.map (fun r => (r.normalized.canonical_url, r.redirect_count)) =
        some ("https://x.com/i/status/12345", 1) ∧
      EndsInPolicy plainLib "https://t.co/abc".toList exampleTalk.1 exampleTalk.2 :=
  ⟨by decide +kernel, by decide +kernel, (resolve_inPolicy (play_talk _ _ _)).2.2.2 _ rfl⟩

end OpenFlame.ShortLink
