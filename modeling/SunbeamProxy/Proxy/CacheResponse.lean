/-
Which responses are cached, and for how long (`response_cache_filter_inner` of `proxy/cache_hooks.rs` with `cache.rs`).

The clock is read once; how `chrono` reads a date is a parameter.
-/
import SunbeamProxy.Proxy.RequestFilter

namespace SunbeamProxy

open Text Option HeaderMap

def toAsciiLowercase (s : String) : String := String.ofList (s.toList.map Char.toLower)

def cacheControlHasDirective (cc directive : String) : Bool := (splitChar ',' cc).any fun part => trim part == directive

def ttlPart (found : Option ℕ × Option ℕ) (part : String) : Option ℕ × Option ℕ :=
  match stripStart (trim part) "s-maxage=" with
  | some val => (parseUnsigned (2 ^ 64) (trim val), found.2)
  | none =>
    match stripStart (trim part) "max-age=" with
    | some val => (found.1, parseUnsigned (2 ^ 64) (trim val))
    | none => found

def parseCacheTtl (cc : String) : Option ℕ :=
  let found := (splitChar ',' cc).foldl ttlPart (none, none)
  found.1.or found.2

def parseAge (age : String) : Option ℕ := parseUnsigned (2 ^ 64) (trim age)

def second : ℤ := 1000000000

structure Calendar where
  now : ℤ
  parseDate : String → Option ℤ

variable (cal : Calendar)

def Calendar.after (secs : ℕ) : Option ℤ :=
  if cal.now + secs * second < 2 ^ 63 * second then some (cal.now + secs * second) else none

def Calendar.expiry (expires : String) : Option ℤ :=
  (stripEnd (trim expires) " GMT").bind fun naive => (cal.parseDate naive).map fun date => date * second

def parseExpiresTtl (expires : String) : Option ℕ := (cal.expiry expires).map fun instant =>
    let remaining := (instant - cal.now).tdiv second
    if remaining ≤ 0 then 0 else remaining.toNat

structure ResponseHeader where
  status : UInt16
  headers : HeaderMap := []
deriving DecidableEq, Repr

def ResponseHeader.isSuccess (resp : ResponseHeader) : Bool := decide (200 ≤ resp.status ∧ resp.status < 300)

inductive NoCacheReason where
  | originNotCache | neverEnabled
deriving DecidableEq, Repr

structure CacheMeta where
  freshUntil : ℤ
  created : ℤ
  staleWhileRevalidate : ℕ
  staleIfError : ℕ
  header : ResponseHeader
deriving DecidableEq, Repr

inductive RespCacheable where
  | cacheable (entry : CacheMeta)
  | uncacheable (reason : NoCacheReason)
deriving DecidableEq, Repr

def expiresTtl (headers : HeaderMap) (ttl : ℕ) : Option ℕ :=
  match getStr headers "expires" with
  | some expires => (parseExpiresTtl cal expires).filter (· ≠ 0)
  | none => some ttl

def headerTtl (policy : CachePolicy) (headers : HeaderMap) : Option (ℕ × ℕ) :=
  match getStr headers "cache-control" with
  | some line =>
    let cc := toAsciiLowercase line
    if cacheControlHasDirective cc "no-store" || cacheControlHasDirective cc "private" || cacheControlHasDirective cc "no-cache" then
      none
    else
      let stale := if cacheControlHasDirective cc "must-revalidate" || cacheControlHasDirective cc "proxy-revalidate" then 0
        else policy.staleWhileRevalidateSecs
      match parseCacheTtl cc with
      | some ttl => if ttl = 0 then none else some (ttl, stale)
      | none => (expiresTtl cal headers policy.defaultTtlSecs).map fun ttl => (ttl, stale)
  | none => (expiresTtl cal headers policy.defaultTtlSecs).map fun ttl => (ttl, policy.staleWhileRevalidateSecs)

variable (headers : HeaderMap)

def firstAge : ℕ := ((getStr headers "age").bind parseAge).getD 0

def responseTtl (policy : CachePolicy) (headers : HeaderMap) : Option (ℕ × ℕ) :=
  if policy.respectCacheHeaders then (headerTtl cal policy headers).map fun e => (e.1 - firstAge headers, e.2)
  else some (policy.defaultTtlSecs, policy.staleWhileRevalidateSecs)

def cacheFor (resp : ResponseHeader) (ttl stale : ℕ) : Option RespCacheable :=
  if ttl = 0 then some (.uncacheable .originNotCache)
  else (cal.after ttl).map fun freshUntil => .cacheable ⟨freshUntil, cal.now, stale, 0, resp⟩

def responseCacheFilterInner (resp : ResponseHeader) (ctx : RequestCtx) : Option RespCacheable :=
  if resp.isSuccess = false then some (.uncacheable .originNotCache)
  else
    match ctx.plan.bind (·.cache) with
    | none => some (.uncacheable .neverEnabled)
    | some policy =>
      match responseTtl cal policy resp.headers with
      | none => some (.uncacheable .originNotCache)
      | some (ttl, stale) => cacheFor cal resp ttl stale

def HeaderValue.text (v : HeaderValue) : String := String.ofList (v.bytes.map fun b => Char.ofNat b.toNat)

structure CacheDirective where
  name : String
  argument : Option String
deriving DecidableEq, Repr

def CacheDirective.ofPart (part : String) : CacheDirective :=
  match splitOnce '=' (trim part) with
  | some (name, argument) => ⟨name, some argument⟩
  | none => ⟨trim part, none⟩

def directivesOf (line : String) : List CacheDirective := (splitChar ',' (toAsciiLowercase line)).map .ofPart

def cacheDirectives : List CacheDirective :=
  (getAll headers "cache-control").flatMap fun v => directivesOf v.text

def CacheDirective.seconds (d : CacheDirective) : Option ℕ := d.argument.bind fun val => parseUnsigned (2 ^ 64) (trim val)

variable (name : String)

def secondsGiven (directives : List CacheDirective) : List ℕ :=
  (directives.filter (·.name = name)).filterMap CacheDirective.seconds

def Calendar.remaining (expires : String) : ℤ := ((cal.expiry expires).map fun instant => instant - cal.now).getD 0

def lifetimesGiven (policy : CachePolicy) (headers : HeaderMap) : List ℤ :=
  let inSeconds (l : List ℕ) : List ℤ := l.map fun secs => secs * second
  match secondsGiven "s-maxage" (cacheDirectives headers), secondsGiven "max-age" (cacheDirectives headers),
      getAll headers "expires" with
  | shared@(_ :: _), _, _ => inSeconds shared
  | [], own@(_ :: _), _ => inSeconds own
  | [], [], expires@(_ :: _) => expires.map fun v => cal.remaining v.text
  | [], [], [] => inSeconds [policy.defaultTtlSecs]

def agesGiven : List ℕ :=
  match (getAll headers "age").filterMap fun v => parseAge v.text with
  | [] => [0]
  | ages => ages

def forbidding : List String := ["no-store", "private", "no-cache"]

/-- the origin permits to cache the response for that many nanoseconds -/
structure Permitted (cal : Calendar) (policy : CachePolicy) (headers : HeaderMap) (lifetime : ℤ) : Prop where
  allowed : ∀ d ∈ cacheDirectives headers, d.name ∉ forbidding
  bounded : ∀ bound ∈ lifetimesGiven cal policy headers, ∀ age ∈ agesGiven headers, lifetime + age * second ≤ bound

/-- a response that is cached may be, for the time it is -/
def CachedAsPermitted (policy : CachePolicy) (resp : ResponseHeader) : Prop :=
  resp.isSuccess = true → policy.respectCacheHeaders = true → ∀ ctx plan, ctx.plan = some plan → plan.cache = some policy →
    ∀ entry, responseCacheFilterInner cal resp ctx = some (.cacheable entry) →
      Permitted cal policy resp.headers (entry.freshUntil - entry.created)

def firstDirectives : List CacheDirective :=
  ((getStr headers "cache-control").map directivesOf).getD []

/-- a bare `no-store`, `private` or `no-cache` on the first line -/
def RefusedFirst : Prop := ∃ d ∈ firstDirectives headers, d.name ∈ forbidding ∧ d.argument = none

def lastSeconds (directives : List CacheDirective) : Option ℕ :=
  ((directives.filter fun d => d.name = name ∧ d.argument.isSome = true).getLast?).bind CacheDirective.seconds

def firstExpires (policy : CachePolicy) (headers : HeaderMap) : ℕ :=
  (getStr headers "expires").elim policy.defaultTtlSecs fun expires => (cal.remaining expires / second).toNat

def firstLifetime (policy : CachePolicy) (headers : HeaderMap) : ℕ :=
  ((lastSeconds "s-maxage" (firstDirectives headers)).or (lastSeconds "max-age" (firstDirectives headers))).getD
    (firstExpires cal policy headers)

/-- the first lines refuse the response, leave no lifetime or one past the end of the clock; or no line has one of the three, and
the lifetime on the first exceeds one that is given by no more than the first `Age` exceeds one that is given -/
def FirstLinesSuffice (policy : CachePolicy) (resp : ResponseHeader) : Prop :=
  resp.isSuccess = true → policy.respectCacheHeaders = true → RefusedFirst resp.headers
    ∨ firstLifetime cal policy resp.headers ≤ firstAge resp.headers
    ∨ cal.after (firstLifetime cal policy resp.headers - firstAge resp.headers) = none
    ∨ ((∀ d ∈ cacheDirectives resp.headers, d.name ∉ forbidding)
      ∧ ∀ bound ∈ lifetimesGiven cal policy resp.headers, ∀ age ∈ agesGiven resp.headers,
        (firstLifetime cal policy resp.headers + age) * second ≤ bound + firstAge resp.headers * second)

variable {name part : String}

theorem ofPart_bare_iff (hname : '=' ∉ name.toList) : CacheDirective.ofPart part = ⟨name, none⟩ ↔ trim part = name := by
  unfold CacheDirective.ofPart
  cases hsplit : splitOnce '=' (trim part) with
  | none => simp
  | some pair =>
    refine iff_of_false (by simp) ?_
    rintro rfl
    refine hname ?_
    rw [(splitOnce_eq_some.1 hsplit).2]
    simp

theorem ofPart_argument_iff {val : String} (hname : '=' ∉ name.toList) :
    CacheDirective.ofPart part = ⟨name, some val⟩ ↔ stripStart (trim part) (name ++ "=") = some val := by
  have hsplit : splitOnce '=' (trim part) = some (name, val) ↔ stripStart (trim part) (name ++ "=") = some val := by
    rw [splitOnce_eq_some, stripStart_eq_some, ← String.toList_inj]
    simp [hname]
  rw [← hsplit]
  unfold CacheDirective.ofPart
  cases splitOnce '=' (trim part) <;> simp [Prod.ext_iff]

theorem hasDirective_iff {line : String} (hname : '=' ∉ name.toList) :
    cacheControlHasDirective (toAsciiLowercase line) name = true ↔ ⟨name, none⟩ ∈ directivesOf line := by
  simp [cacheControlHasDirective, directivesOf, ofPart_bare_iff hname]

theorem lastSeconds_concat (directives : List CacheDirective) (d : CacheDirective) :
    lastSeconds name (directives ++ [d])
      = if d.name = name ∧ d.argument.isSome = true then d.seconds else lastSeconds name directives := by
  unfold lastSeconds
  rw [List.filter_append]
  split_ifs with hd
  · rw [List.filter_cons_of_pos (by simpa using hd)]
    simp
  · rw [List.filter_cons_of_neg (by simpa using hd)]
    simp

theorem ofPart_named (hname : '=' ∉ name.toList) :
    (CacheDirective.ofPart part).name = name ∧ (CacheDirective.ofPart part).argument.isSome = true
      ↔ (stripStart (trim part) (name ++ "=")).isSome = true := by
  simp only [isSome_iff_exists]
  apply Iff.intro
  · rintro ⟨hd, val, hval⟩
    exact ⟨val, (ofPart_argument_iff hname).1 (by rw [← hd, ← hval])⟩
  · rintro ⟨val, hval⟩
    rw [(ofPart_argument_iff hname).2 hval]
    exact ⟨rfl, val, rfl⟩

theorem ttlPart_eq (found : Option ℕ × Option ℕ) (part : String) : ttlPart found part
      = (if (CacheDirective.ofPart part).name = "s-maxage" ∧ (CacheDirective.ofPart part).argument.isSome = true
          then (CacheDirective.ofPart part).seconds else found.1,
        if (CacheDirective.ofPart part).name = "max-age" ∧ (CacheDirective.ofPart part).argument.isSome = true
          then (CacheDirective.ofPart part).seconds else found.2) := by
  have hshared : '=' ∉ "s-maxage".toList := by decide
  have hown : '=' ∉ "max-age".toList := by decide
  have hs : "s-maxage" ++ "=" = "s-maxage=" := by decide
  have hm : "max-age" ++ "=" = "max-age=" := by decide
  unfold ttlPart
  simp only [ofPart_named hshared, ofPart_named hown, hs, hm]
  cases hstrip : stripStart (trim part) "s-maxage=" with
  | some val =>
    have hd := (ofPart_argument_iff hshared).2 (hs ▸ hstrip)
    have hnot : stripStart (trim part) "max-age=" = none := by
      rw [eq_none_iff_forall_ne_some]
      intro val' hval'
      have hd' := (ofPart_argument_iff hown).2 (hm ▸ hval')
      exact absurd (congrArg CacheDirective.name (hd.symm.trans hd')) (show "s-maxage" ≠ "max-age" by decide)
    simp [hnot, hd, CacheDirective.seconds]
  | none =>
    cases hstrip' : stripStart (trim part) "max-age=" with
    | some val =>
      simp [(ofPart_argument_iff hown).2 (hm ▸ hstrip'), CacheDirective.seconds]
    | none => simp

theorem parseCacheTtl_eq (line : String) : parseCacheTtl (toAsciiLowercase line)
      = (lastSeconds "s-maxage" (directivesOf line)).or (lastSeconds "max-age" (directivesOf line)) := by
  have hfold : ∀ parts : List String, parts.foldl ttlPart (none, none)
      = (lastSeconds "s-maxage" (parts.map .ofPart), lastSeconds "max-age" (parts.map .ofPart)) := by
    intro parts
    induction parts using List.reverseRecOn with
    | nil => rfl
    | append_singleton parts part ih =>
      simp [ih, lastSeconds_concat, ttlPart_eq]
  simp [parseCacheTtl, directivesOf, hfold]

/-! ## The filter against the first lines -/

variable {headers : HeaderMap}

theorem refusedFirst_iff {line : String} (h : getStr headers "cache-control" = some line) :
    RefusedFirst headers ↔ (cacheControlHasDirective (toAsciiLowercase line) "no-store"
      || cacheControlHasDirective (toAsciiLowercase line) "private"
      || cacheControlHasDirective (toAsciiLowercase line) "no-cache") = true := by
  rw [Bool.or_eq_true, Bool.or_eq_true, hasDirective_iff (by decide), hasDirective_iff (by decide),
    hasDirective_iff (by decide), RefusedFirst, firstDirectives, h, map_some, getD_some]
  apply Iff.intro
  · rintro ⟨⟨name, argument⟩, hd, hname, rfl⟩
    simp only [forbidding, List.mem_cons, List.not_mem_nil, or_false] at hname
    rcases hname with rfl | rfl | rfl
    · exact .inl (.inl hd)
    · exact .inl (.inr hd)
    · exact .inr hd
  · rintro ((hd | hd) | hd) <;> exact ⟨_, hd, by simp [forbidding], rfl⟩

theorem toNat_tdiv_second (x : ℤ) : (if x.tdiv second ≤ 0 then 0 else (x.tdiv second).toNat) = (x / second).toNat := by
  have hpos : (0 : ℤ) < second := by decide
  rcases le_or_gt 0 x with hx | hx
  · rw [Int.tdiv_eq_ediv_of_nonneg hx]
    split_ifs with h
    · rw [Int.toNat_of_nonpos h]
    · rfl
  · have htdiv : x.tdiv second ≤ 0 := by
      have hneg : (-x).tdiv second = -x / second := Int.tdiv_eq_ediv_of_nonneg (by omega)
      have hnonneg : 0 ≤ -x / second := Int.ediv_nonneg (by omega) hpos.le
      rw [Int.neg_tdiv] at hneg
      omega
    rw [if_pos htdiv, Int.toNat_of_nonpos (Int.ediv_nonpos_of_nonpos_of_neg hx.le hpos)]

variable {policy : CachePolicy} {cal : Calendar}

theorem expiresTtl_iff {ttl : ℕ} (httl : ttl ≠ 0) :
    expiresTtl cal headers policy.defaultTtlSecs = some ttl ↔ firstExpires cal policy headers = ttl := by
  unfold expiresTtl firstExpires
  cases getStr headers "expires" with
  | none => simp
  | some expires =>
    simp only [parseExpiresTtl, Calendar.remaining, toNat_tdiv_second, elim_some]
    cases cal.expiry expires with
    | none => simp [httl.symm]
    | some instant =>
      simp only [map_some, filter_eq_some_iff, some.injEq]
      exact ⟨fun h => h.1, fun h => ⟨h, by simpa using httl⟩⟩

theorem headerTtl_iff {ttl : ℕ} (httl : ttl ≠ 0) : (∃ stale, headerTtl cal policy headers = some (ttl, stale))
      ↔ ¬RefusedFirst headers ∧ firstLifetime cal policy headers = ttl := by
  have hexpires : ∀ stale : ℕ,
      (∃ stale', (expiresTtl cal headers policy.defaultTtlSecs).map (fun ttl => (ttl, stale)) = some (ttl, stale'))
        ↔ firstExpires cal policy headers = ttl := by
    rw [← expiresTtl_iff httl]
    simp
  unfold headerTtl
  cases hline : getStr headers "cache-control" with
  | none =>
    have hnone : firstDirectives headers = [] := by rw [firstDirectives, hline, map_none, getD_none]
    have hrefused : ¬RefusedFirst headers := by
      rintro ⟨d, hd, -⟩
      rw [hnone] at hd
      cases hd
    rw [hexpires, firstLifetime, hnone]
    exact (and_iff_right hrefused).symm
  | some line =>
    have hfirst : firstDirectives headers = directivesOf line := by rw [firstDirectives, hline, map_some, getD_some]
    by_cases hrefused : RefusedFirst headers
    · simp only [if_pos ((refusedFirst_iff hline).1 hrefused)]
      exact iff_of_false (fun h => nomatch h) (fun h => h.1 hrefused)
    · simp only [if_neg (mt (refusedFirst_iff hline).2 hrefused), parseCacheTtl_eq, firstLifetime, hfirst]
      cases (lastSeconds "s-maxage" (directivesOf line)).or (lastSeconds "max-age" (directivesOf line)) with
      | none => exact (hexpires _).trans (and_iff_right hrefused).symm
      | some given => by_cases hgiven : given = 0 <;> simp [hgiven, httl.symm, hrefused]

theorem cacheFor_iff {resp : ResponseHeader} {ttl stale : ℕ} {lifetime : ℤ} :
    (∃ entry, cacheFor cal resp ttl stale = some (.cacheable entry) ∧ entry.freshUntil - entry.created = lifetime)
      ↔ ttl ≠ 0 ∧ cal.after ttl ≠ none ∧ lifetime = ttl * second := by
  unfold cacheFor
  by_cases hzero : ttl = 0
  · simp [hzero]
  · unfold Calendar.after
    split_ifs with hfits
    · apply Iff.intro
      · rintro ⟨entry, hentry, rfl⟩
        cases hentry
        exact ⟨hzero, some_ne_none _, add_sub_cancel_left _ _⟩
      · rintro ⟨-, -, rfl⟩
        exact ⟨_, rfl, add_sub_cancel_left _ _⟩
    · simp

/-- **The filter.** What it caches, and for how long. -/
theorem cacheable_iff {resp : ResponseHeader} {ctx : RequestCtx} {plan : CompiledPlan} (hok : resp.isSuccess = true)
    (hrespect : policy.respectCacheHeaders = true) (hplan : ctx.plan = some plan) (hpolicy : plan.cache = some policy)
    (lifetime : ℤ) :
    (∃ entry, responseCacheFilterInner cal resp ctx = some (.cacheable entry) ∧ entry.freshUntil - entry.created = lifetime)
      ↔ ¬RefusedFirst resp.headers ∧ firstAge resp.headers < firstLifetime cal policy resp.headers
        ∧ cal.after (firstLifetime cal policy resp.headers - firstAge resp.headers) ≠ none
        ∧ lifetime = (firstLifetime cal policy resp.headers - firstAge resp.headers : ℕ) * second := by
  have hfilter : responseCacheFilterInner cal resp ctx
      = (headerTtl cal policy resp.headers).elim (some (.uncacheable .originNotCache))
          fun e => cacheFor cal resp (e.1 - firstAge resp.headers) e.2 := by
    simp only [responseCacheFilterInner, hok, hplan, bind_some, hpolicy, responseTtl, hrespect, if_true, Bool.true_eq_false,
      if_false]
    cases headerTtl cal policy resp.headers with
    | none => rfl
    | some e => simp
  -- a lifetime that is left has been read from the headers
  have hread : firstAge resp.headers < firstLifetime cal policy resp.headers → ¬RefusedFirst resp.headers →
      ∃ stale, headerTtl cal policy resp.headers = some (firstLifetime cal policy resp.headers, stale) :=
    fun hlt hnot => (headerTtl_iff (Nat.ne_zero_of_lt hlt)).2 ⟨hnot, rfl⟩
  rw [hfilter]
  cases hheader : headerTtl cal policy resp.headers with
  | none =>
    refine iff_of_false ?_ ?_
    · rintro ⟨entry, hentry, -⟩
      cases hentry
    · rintro ⟨hnot, hlt, -⟩
      obtain ⟨stale, hstale⟩ := hread hlt hnot
      rw [hheader] at hstale
      cases hstale
  | some e =>
    obtain ⟨ttl, stale⟩ := e
    rw [elim_some, cacheFor_iff]
    apply Iff.intro
    · rintro ⟨hne, hafter, hlifetime⟩
      obtain ⟨hnot, rfl⟩ := (headerTtl_iff (by omega)).1 ⟨stale, hheader⟩
      exact ⟨hnot, by omega, hafter, hlifetime⟩
    · rintro ⟨hnot, hlt, hafter, hlifetime⟩
      obtain ⟨stale', hstale⟩ := hread hlt hnot
      rw [hheader] at hstale
      cases hstale
      exact ⟨by omega, hafter, hlifetime⟩

def cachePlan (policy : CachePolicy) : CompiledPlan :=
  { precedence := 0, ruleOrder := 0, gatewayApi := false, disableSecureRedirection := false, listenerHostname := none,
    matches_ := {}, requestStages := [], upstream := none, upstreamRequestMutations := [], responseMutations := [],
    bodyRewrites := [], cache := some policy, websocket := false, clientCertId := none }

/-- **Responses are cached as the origin permits**, exactly when the first lines are enough to say so. -/
theorem cached_as_permitted_iff (cal : Calendar) (policy : CachePolicy) (resp : ResponseHeader) :
    CachedAsPermitted cal policy resp ↔ FirstLinesSuffice cal policy resp := by
  refine forall_congr' fun hok => forall_congr' fun hrespect => ?_
  apply Iff.intro
  · intro h
    by_cases hrefused : RefusedFirst resp.headers
    · exact .inl hrefused
    · by_cases hlt : firstAge resp.headers < firstLifetime cal policy resp.headers
      · by_cases hafter : cal.after (firstLifetime cal policy resp.headers - firstAge resp.headers) = none
        · exact .inr (.inr (.inl hafter))
        · have hplan : ({ plan := some (cachePlan policy) } : RequestCtx).plan = some (cachePlan policy) := rfl
          obtain ⟨entry, hentry, hlifetime⟩ := (cacheable_iff hok hrespect hplan rfl _).2 ⟨hrefused, hlt, hafter, rfl⟩
          have hpermitted := h _ _ hplan rfl entry hentry
          refine .inr (.inr (.inr ⟨hpermitted.allowed, fun bound hbound age hage => ?_⟩))
          have hle := hpermitted.bounded bound hbound age hage
          rw [hlifetime, Nat.cast_sub hlt.le, sub_mul] at hle
          rw [add_mul]
          omega
      · exact .inr (.inl (Nat.le_of_not_lt hlt))
  · intro h ctx plan hplan hpolicy entry hentry
    obtain ⟨hnot, hlt, hafter, hlifetime⟩ := (cacheable_iff hok hrespect hplan hpolicy _).1 ⟨entry, hentry, rfl⟩
    rcases h with hrefused | hnone | hend | ⟨hallowed, hbounded⟩
    · exact absurd hrefused hnot
    · exact absurd hlt (Nat.not_lt.2 hnone)
    · exact absurd hend hafter
    · refine ⟨hallowed, fun bound hbound age hage => ?_⟩
      have hle := hbounded bound hbound age hage
      rw [add_mul] at hle
      rw [hlifetime, Nat.cast_sub hlt.le, sub_mul]
      omega

def hourPolicy : CachePolicy := { enabled := true, defaultTtlSecs := 3600, respectCacheHeaders := true }

def epoch : Calendar := ⟨0, fun _ => none⟩

def twoLines : ResponseHeader :=
  { status := 200
    headers := [("cache-control", .ofString "max-age=600"), ("cache-control", .ofString "no-store")] }

def fieldOnly : ResponseHeader :=
  { status := 200, headers := [("cache-control", .ofString "no-cache=\"set-cookie\", max-age=600")] }

theorem cached_against_origin : responseCacheFilterInner epoch twoLines { plan := some (cachePlan hourPolicy) }
        = some (.cacheable ⟨600 * second, 0, 0, 0, twoLines⟩)
      ∧ responseCacheFilterInner epoch fieldOnly { plan := some (cachePlan hourPolicy) }
        = some (.cacheable ⟨600 * second, 0, 0, 0, fieldOnly⟩)
      ∧ ¬CachedAsPermitted epoch hourPolicy twoLines ∧ ¬CachedAsPermitted epoch hourPolicy fieldOnly := by
  have htwo : responseCacheFilterInner epoch twoLines { plan := some (cachePlan hourPolicy) }
      = some (.cacheable ⟨600 * second, 0, 0, 0, twoLines⟩) := by decide
  have hfield : responseCacheFilterInner epoch fieldOnly { plan := some (cachePlan hourPolicy) }
      = some (.cacheable ⟨600 * second, 0, 0, 0, fieldOnly⟩) := by decide
  refine ⟨htwo, hfield, fun h => ?_, fun h => ?_⟩
  · have hpermitted := h rfl rfl _ _ rfl rfl _ htwo
    exact absurd (hpermitted.allowed ⟨"no-store", none⟩ (by decide)) (by decide)
  · have hpermitted := h rfl rfl _ _ rfl rfl _ hfield
    exact absurd (hpermitted.allowed ⟨"no-cache", some "\"set-cookie\""⟩ (by decide)) (by decide)

end SunbeamProxy
