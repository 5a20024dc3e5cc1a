/-
Who a request is from (`extract_client_ip` in `proxy/mod.rs`), and what is decided by it.

A request comes from the client of its relay, or from the peer of its socket.
-/
import SunbeamProxy.Proxy.Filters
import SunbeamProxy.RateLimit.Limiter

namespace SunbeamProxy

open Text Codec HeaderMap List

variable (px : Proxy)

def Proxy.remoteIp (s : Session) : Option IpAddr :=
  match px.httpRelayContext s with
  | some relay => some relay.clientAddr.ip
  | none => s.clientAddr.map (·.ip)

def Session.withHeaders (s : Session) (headers : HeaderMap) : Session := { s with req := { s.req with headers } }

def Proxy.rateLimitBypassed (lim : RateLimiter) (s : Session) : Bool :=
  ((px.extractClientIp s).map (isBypassed · lim.bypassCidrs)).getD false

def Proxy.forwardedFor (xForwardedFor : Bool) (ipText : IpAddr → String) (s : Session) : Option String :=
  if xForwardedFor then (px.extractClientIp s).map ipText else none

def upstreamHead (xForwardedFor : Bool) (ipText : IpAddr → String) (authorityHost : String → Option String)
    (requestId : String) (backendIndex : Option ℕ) (s : Session) (ctx : RequestCtx) (req : RequestHeader) :
    Except ProxyError (RequestHeader × RequestCtx) :=
  upstreamRequestFilterInner authorityHost ⟨px.forwardedFor xForwardedFor ipText s, requestId, backendIndex⟩ s.req ctx req

theorem remoteIp_withHeaders (s : Session) (headers : HeaderMap) :
    px.remoteIp (s.withHeaders headers) = px.remoteIp s := rfl

theorem extractClientIp_eq (s : Session) : px.extractClientIp s = (px.remoteIp s).map fun ip =>
      if !isBypassed ip px.trustedProxyCidrs then ip
      else (((Proxy.headerIp s "cf-connecting-ip").or (Proxy.headerIp s "x-real-ip")).or (Proxy.forwardedIp s)).getD ip := rfl

theorem extractClientIp_untrusted {px : Proxy} {s : Session} {ip : IpAddr} (hremote : px.remoteIp s = some ip)
    (huntrusted : isBypassed ip px.trustedProxyCidrs = false) : px.extractClientIp s = some ip := by
  rw [extractClientIp_eq, hremote, Option.map_some, huntrusted]
  rfl

/-! ## The header that is sent upstream -/

theorem eqIgnoreAsciiCase_iff {a b : String} :
    eqIgnoreAsciiCase a b = true ↔ a.toList.map Char.toLower = b.toList.map Char.toLower := by
  simp [eqIgnoreAsciiCase]

namespace HeaderMap

theorem getAll_append (h h' : HeaderMap) (name : String) : getAll (h ++ h') name = getAll h name ++ getAll h' name := by
  simp [getAll]

theorem getAll_remove_self (h : HeaderMap) (name : String) : getAll (remove h name) name = [] := by simp [getAll, remove]

variable {name n : String}

theorem getAll_remove_other (h : HeaderMap) (hne : eqIgnoreAsciiCase n name = false) :
    getAll (remove h n) name = getAll h name := by
  unfold getAll remove
  rw [filter_filter]
  congr 1
  apply filter_congr
  intro e _
  -- a field of this name is not one of the other
  by_cases hname : eqIgnoreAsciiCase e.1 name = true
  · have hother : eqIgnoreAsciiCase e.1 n = false := by
      rw [← Bool.not_eq_true, eqIgnoreAsciiCase_iff]
      intro hn
      rw [← Bool.not_eq_true, eqIgnoreAsciiCase_iff] at hne
      exact hne (hn.symm.trans (eqIgnoreAsciiCase_iff.1 hname))
    simp [hother]
  · simp [hname]

theorem getAll_singleton_other (value : HeaderValue) (hne : eqIgnoreAsciiCase n name = false) :
    getAll [(n, value)] name = [] := by
  simp [getAll, hne]

variable {h' h : HeaderMap} {value : String}

theorem getAll_insert_self (hi : insert h name value = some h') : getAll h' name = [⟨utf8 value⟩] := by
  unfold insert at hi
  split_ifs at hi
  cases hi
  rw [getAll_append, getAll_remove_self]
  simp [getAll, eqIgnoreAsciiCase_refl]

theorem getAll_insert_other (hne : eqIgnoreAsciiCase n name = false) (hi : insert h n value = some h') :
    getAll h' name = getAll h name := by
  unfold insert at hi
  split_ifs at hi
  cases hi
  rw [getAll_append, getAll_remove_other h hne, getAll_singleton_other _ hne, append_nil]

theorem getAll_append_other (hne : eqIgnoreAsciiCase n name = false) (ha : append h n value = some h') :
    getAll h' name = getAll h name := by
  unfold append at ha
  split_ifs at ha
  cases ha
  rw [getAll_append, getAll_singleton_other _ hne, append_nil]

end HeaderMap

def changesHeader (name : String) : UpstreamRequestMutation → Bool
  | .setHeader n _ => eqIgnoreAsciiCase n name
  | .addHeader n _ => eqIgnoreAsciiCase n name
  | .removeHeader n => eqIgnoreAsciiCase n name
  | .rewriteHostname _ => eqIgnoreAsciiCase "host" name
  | _ => false

/-- neither the route, the backend nor the authentication service sets the field -/
def LeavesHeader (name : String) (ctx : RequestCtx) (backendIndex : Option ℕ) : Prop :=
  (∀ h ∈ ctx.authHeaders, eqIgnoreAsciiCase h.1 name = false)
    ∧ ∀ m ∈ planMutations ctx.plan backendIndex, changesHeader name m = false

variable {req req' : RequestHeader}

theorem changeHeaders_headers {what : String} {headers : Option HeaderMap}
    (h : changeHeaders what headers req = .ok req') : headers = some req'.headers := by
  cases headers with
  | none => cases h
  | some headers =>
    cases h
    rfl

theorem setPath_headers {what rawPath : String} (h : setPath what rawPath req = .ok req') : req'.headers = req.headers := by
  unfold setPath at h
  split at h
  · cases h
  · split at h
    · cases h
    · split_ifs at h
      cases h
      rfl

theorem apply_getAll {authorityHost : String → Option String} {m : UpstreamRequestMutation} {name : String}
    (hm : changesHeader name m = false) (h : applyUpstreamRequestMutation authorityHost req m = .ok req') :
    getAll req'.headers name = getAll req.headers name := by
  cases m with
  | setHeader n value => exact getAll_insert_other hm (changeHeaders_headers h)
  | addHeader n value => exact getAll_append_other hm (changeHeaders_headers h)
  | removeHeader n =>
    cases h
    exact getAll_remove_other _ hm
  | stripPrefix path =>
    rw [applyUpstreamRequestMutation] at h
    split at h
    · rw [setPath_headers h]
    · cases h
      rfl
  | prependPath path | rewritePath rw => rw [setPath_headers h]
  | rewriteHostname hostname =>
    rw [applyUpstreamRequestMutation] at h
    split at h
    · cases h
    · rename_i req₁ hreq₁
      split at h
      · cases h
      · cases h
        change getAll req₁.headers name = _
        exact getAll_insert_other hm (changeHeaders_headers hreq₁)

theorem foldlM_getAll {α : Type} {step : RequestHeader → α → Except ProxyError RequestHeader} {name : String} {l : List α}
    (hstep : ∀ a ∈ l, ∀ req req', step req a = .ok req' → getAll req'.headers name = getAll req.headers name)
    (h : l.foldlM step req = .ok req') :
    getAll req'.headers name = getAll req.headers name := by
  induction l generalizing req with
  | nil =>
    cases h
    rfl
  | cons a l ih =>
    obtain ⟨mid, hmid, h⟩ := foldlM_cons_ok h
    rw [ih (fun b hb => hstep b (mem_cons_of_mem _ hb)) h, hstep a mem_cons_self req mid hmid]

theorem forwardUpgrade_getAll (downstream : RequestHeader) (headers : HeaderMap) {name : String}
    (hconnection : eqIgnoreAsciiCase "connection" name = false) (hupgrade : eqIgnoreAsciiCase "upgrade" name = false) :
    getAll (forwardUpgrade downstream headers) name = getAll headers name := by
  refine foldlRecOn (motive := fun h => getAll h name = getAll headers name) _ _ rfl ?_
  intro h hh n hn
  have hother : eqIgnoreAsciiCase n name = false := by
    rcases mem_pair.1 hn with rfl | rfl
    · exact hconnection
    · exact hupgrade
  split
  · rw [getAll_append, getAll_remove_other h hother, getAll_singleton_other _ hother,
      append_nil, hh]
  · exact hh

theorem forwardedFor_sent {authorityHost : String → Option String} {call : UpstreamCall}
    {downstream sent : RequestHeader} {ctx ctx' : RequestCtx} {text : String} (hcall : call.forwardedFor = some text)
    (hleaves : LeavesHeader "x-forwarded-for" ctx call.backendIndex)
    (h : upstreamRequestFilterInner authorityHost call downstream ctx req = .ok (sent, ctx')) :
    getAll sent.headers "x-forwarded-for" = [⟨utf8 text⟩] := by
  obtain ⟨req₁, -, h⟩ := bind_ok h
  obtain ⟨req₂, h₂, h⟩ := bind_ok h
  obtain ⟨req₃, h₃, h⟩ := bind_ok h
  obtain ⟨req₄, h₄, h⟩ := bind_ok h
  obtain ⟨req₅, h₅, h⟩ := bind_ok h
  cases h
  have hset : getAll req₂.headers "x-forwarded-for" = [⟨utf8 text⟩] := by
    rw [hcall] at h₂
    exact getAll_insert_self (changeHeaders_headers h₂)
  calc getAll (remove req₅.headers "expect") "x-forwarded-for"
      = getAll req₅.headers "x-forwarded-for" := getAll_remove_other _ (by decide)
    _ = getAll req₄.headers "x-forwarded-for" := foldlM_getAll (fun m hm _ _ => apply_getAll (hleaves.2 m hm)) h₅
    _ = getAll req₃.headers "x-forwarded-for" := by
        rw [foldlM_getAll (fun a ha _ _ hok => getAll_insert_other (hleaves.1 a ha) (changeHeaders_headers hok)) h₄]
        split_ifs
        · exact forwardUpgrade_getAll downstream req₃.headers (by decide) (by decide)
        · rfl
    _ = getAll req₂.headers "x-forwarded-for" := getAll_insert_other (by decide) (changeHeaders_headers h₃)
    _ = [⟨utf8 text⟩] := hset

/-- **The headers of an untrusted client are ignored.** Requests that differ in them only are from one address, are bypassed
alike, and are sent on with that address where the proxy alone sets `X-Forwarded-For`. -/
theorem untrusted_headers_ignored (px : Proxy) (s : Session) (headers : HeaderMap) {ip : IpAddr}
    (hremote : px.remoteIp s = some ip) (huntrusted : isBypassed ip px.trustedProxyCidrs = false) :
    (px.extractClientIp s = some ip ∧ px.extractClientIp (s.withHeaders headers) = some ip)
      ∧ (∀ lim, px.rateLimitBypassed lim s = px.rateLimitBypassed lim (s.withHeaders headers))
      ∧ px.bypassed s = px.bypassed (s.withHeaders headers)
      ∧ ∀ request ∈ [s, s.withHeaders headers], ∀ ipText authorityHost requestId backendIndex ctx req sent ctx',
        LeavesHeader "x-forwarded-for" ctx backendIndex →
        upstreamHead px true ipText authorityHost requestId backendIndex request ctx req = .ok (sent, ctx') →
        getAll sent.headers "x-forwarded-for" = [⟨utf8 (ipText ip)⟩] := by
  have hs := extractClientIp_untrusted hremote huntrusted
  have hs' := extractClientIp_untrusted ((remoteIp_withHeaders px s headers).trans hremote) huntrusted
  refine ⟨⟨hs, hs'⟩, ?_, ?_, ?_⟩
  · intro lim
    simp [Proxy.rateLimitBypassed, hs, hs']
  · simp [Proxy.bypassed, hs, hs']
  · intro request hrequest ipText authorityHost requestId backendIndex ctx req sent ctx' hleaves h
    have hip : px.extractClientIp request = some ip := by
      rcases mem_pair.1 hrequest with rfl | rfl
      · exact hs
      · exact hs'
    apply forwardedFor_sent _ hleaves h
    rw [Proxy.forwardedFor, hip]
    rfl

def loopbackProxy : Proxy :=
  { regex := ⟨fun _ => none⟩
    fxHash := fun _ => 0
    trustedProxyCidrs := [⟨.v4 0x7F000000, 8⟩]
    pipelineBypassCidrs := [⟨.v4 0x0A000000, 8⟩]
    httpContext := HashMap.ofPairs [(⟨.v4 0x7F000001, 40000⟩, ⟨"web", 80, false, ⟨.v4 0xCB007107, 50000⟩⟩)] }

def claimingRequest (address : String) : Session :=
  ⟨⟨"GET", { path := "/" }, [("x-forwarded-for", HeaderValue.ofString address)]⟩, none, some ⟨.v4 0x7F000001, 40000⟩⟩

theorem untrusted_headers_ignored_relayed :
    let s := claimingRequest "10.0.0.1"
    loopbackProxy.extractClientIp s = some (.v4 0xCB007107) ∧ loopbackProxy.bypassed s = loopbackProxy.bypassed (s.withHeaders [])
      ∧ ∃ sent, upstreamHead loopbackProxy true (fun _ => "203.0.113.7") (fun _ => none) "r1" none s {} s.req = .ok sent
        ∧ getAll sent.1.headers "x-forwarded-for" = [⟨utf8 "203.0.113.7"⟩] := by
  intro s
  have hignored := untrusted_headers_ignored loopbackProxy s [] (by decide : loopbackProxy.remoteIp s = some (.v4 0xCB007107)) (by decide)
  refine ⟨hignored.1.1, hignored.2.2.1, ?_⟩
  have hok : (upstreamHead loopbackProxy true (fun _ => "203.0.113.7") (fun _ => none) "r1" none s {} s.req).toOption.isSome = true := by
    decide
  cases hsent : upstreamHead loopbackProxy true (fun _ => "203.0.113.7") (fun _ => none) "r1" none s {} s.req with
  | error e => simp [hsent, Except.toOption] at hok
  | ok sent => exact ⟨sent, rfl, hignored.2.2.2 s (by simp) _ _ _ _ _ _ _ _ (by simp [LeavesHeader, planMutations]) hsent⟩

def sentAsIs (s : Session) : Option (List HeaderValue) :=
  (upstreamHead loopbackProxy false (fun _ => "") (fun _ => none) "r1" none s {} s.req).toOption.map fun sent =>
    getAll sent.1.headers "x-forwarded-for"

theorem forwarded_as_sent :
    (claimingRequest "10.0.0.1").withHeaders (claimingRequest "192.0.2.99").req.headers = claimingRequest "192.0.2.99"
      ∧ sentAsIs (claimingRequest "10.0.0.1") = some [HeaderValue.ofString "10.0.0.1"]
      ∧ sentAsIs (claimingRequest "192.0.2.99") = some [HeaderValue.ofString "192.0.2.99"] := by
  refine ⟨rfl, ?_, ?_⟩ <;> decide

end SunbeamProxy
