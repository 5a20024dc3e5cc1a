/-
Whether the canonical bytes of a view can be read from left to right.
-/
import SunbeamProxy.Gateway.DigestReading

namespace SunbeamProxy.Gateway

open Codec Format

section Sorted

variable {α κ ν μ : Type} [LinearOrder κ] [LinearOrder μ]

variable (key : α → κ)

theorem encodeSorted_eq_encodeList (enc : α → Bytes) (l : List α) :
    encodeSorted key enc l = encodeList enc (sortByKey key l) := by
  rw [encodeSorted, encodeList, (sortByKey_perm key l).length_eq, inOrder]

def sortedFormat (key : α → κ) (f : Format α) : Format (List α) where
  encode := encodeSorted key f.encode
  Fits l := l.length < 2 ^ 32 ∧ ∀ a ∈ l, f.Fits a
  Agree l m := List.Forall₂ f.Agree (sortByKey key l) (sortByKey key m)
  Aligned l m := ∀ p ∈ (sortByKey key l).zip (sortByKey key m), f.Aligned p.1 p.2
  aligned_of_agree h := f.list.aligned_of_agree h
  readsBack := by
    intro l m r s hfit h
    have hsorted : ∀ {l : List α}, l.length < 2 ^ 32 ∧ (∀ a ∈ l, f.Fits a) → f.list.Fits (sortByKey key l) := by
      intro l hl
      exact ⟨(sortByKey_perm key l).length_eq ▸ hl.1, fun a ha => hl.2 a ((sortByKey_perm key l).subset ha)⟩
    rw [encodeSorted_eq_encodeList, encodeSorted_eq_encodeList] at h
    exact f.list.readsBack ⟨⟨hsorted hfit.1.1, hsorted hfit.1.2⟩, hfit.2⟩ h

@[simp]
theorem aligned_sorted (f : Format α) (l m : List α) :
    (sortedFormat key f).Aligned l m ↔ ∀ p ∈ (sortByKey key l).zip (sortByKey key m), f.Aligned p.1 p.2 := .rfl

theorem fits_nil (f : Format α) : (sortedFormat key f).Fits [] := ⟨by simp, by simp⟩

theorem fits_singleton {f : Format α} {a : α} (ha : f.Fits a) : (sortedFormat key f).Fits [a] :=
  ⟨by simp, by simpa using ha⟩

theorem fits_pair {f : Format α} {a b : α} (ha : f.Fits a) (hb : f.Fits b) : (sortedFormat key f).Fits [a, b] :=
  ⟨by simp, by simpa using ⟨ha, hb⟩⟩

def mapFormat (key : ν → μ) (f : Format (ν × α)) : Format (HashMap ν α) := field (·.pairs) (sortedFormat (fun e => key e.1) f)

end Sorted

def strFormat : Format String := exact readsBack_str

def optionStrFormat : Format (Option String) := exact readsBack_optionStr

def generationFormat : Format ℤ := exact readsBack_i64

def strMapFormat : Format (HashMap String String) := mapFormat id (fields (field (·.1) strFormat) [field (·.2) strFormat])

def parentRefsFormat : Format (List ParentRef) := sortedFormat parentRefKey (fields (field (·.namespace_) optionStrFormat)
    [field (·.name) strFormat, field (·.sectionName) optionStrFormat])

def listenerFormat : Format ListenerState :=
  fields (field (·.name) strFormat) [field (·.protocol) strFormat, field (·.port) (total readsBack_u16)]

def listenersFormat : Format (List ListenerState) := sortedFormat (·.name) listenerFormat

def backendFormat : Format WeightedBackend := fields (field (·.backend) strFormat) [field (·.weight) (exact readsBack_u32)]

def hostnamesFormat : Format (List HostnameMatch) := sortedFormat hostnameKey (exact readsBack_hostname)

def gatewayFormat : Format GatewayState :=
  fields (field (·.namespace_) strFormat) [field (·.name) strFormat, field (·.generation) generationFormat,
    field (·.listeners) listenersFormat]

def listenerSetFormat : Format ListenerSetState :=
  fields (field (·.namespace_) strFormat) [field (·.name) strFormat, field (·.generation) generationFormat,
    field (·.listeners) listenersFormat, field (·.conflicts) strMapFormat, field (·.accepted) (total readsBack_bool),
    field (·.programmed) (total readsBack_bool), field (·.reason) strFormat]

def routeFormat : Format RouteState :=
  fields (field (·.namespace_) strFormat) [field (·.name) strFormat, field (·.kind) strFormat,
    field (·.generation) generationFormat, field (·.parentRefs) parentRefsFormat]

def grantSubjectsFormat : Format (List GrantSubject) :=
  sortedFormat grantSubjectKey (fields (field (·.group) strFormat) [field (·.kind) strFormat,
    field (·.namespace_) optionStrFormat, field (·.name) optionStrFormat])

def referenceGrantFormat : Format ReferenceGrantState :=
  fields (field (·.namespace_) strFormat) [field (·.name) strFormat, field (·.generation) generationFormat,
    field (·.source) grantSubjectsFormat, field (·.target) grantSubjectsFormat]

def namespaceLabelsFormat : Format NamespaceLabels := mapFormat id (fields (field (·.1) strFormat) [field (·.2) strMapFormat])

def allowedRoutesFormat : Format AllowedRoutes :=
  fields (field (·.kinds) (sortedFormat routeGroupKindKey (fields (field (·.group) strFormat) [field (·.kind) strFormat])))
    [field (·.namespaces) (fields (field (·.source) (total readsBack_namespaceFrom))
      [field (·.selector) strMapFormat.option])]

def allowedMapFormat : Format ListenerAllowedMap :=
  mapFormat listenerAllowedKey (fields (field (·.1.1) strFormat) [field (·.1.2.1) strFormat, field (·.1.2.2) strFormat,
    field (·.2) allowedRoutesFormat])

/-- a filter: that a mirror has a fraction is not written, only the fraction is -/
def filterFormat : Format RouteFilter where
  encode := encodeRouteFilter
  Fits := RouteFilter.Fits
  Agree := (· = ·)
  Aligned a b := a.hasFraction = b.hasFraction
  readsBack _ _ _ _ hfit h := readsBack_routeFilter ⟨hfit.1, hfit.2⟩ h
  aligned_of_agree h := congrArg RouteFilter.hasFraction h

def matchFormat : Format RequestMatch :=
  fields (field (·.path) (exact readsBack_optionPathMatch)) [field (·.method) optionStrFormat,
    field (·.headers) (sortedFormat (·.name) (exact readsBack_headerMatch)),
    field (·.queryParams) (sortedFormat (·.name) (exact readsBack_queryParamMatch))]

def ruleFormat : Format HTTPRouteRule :=
  fields (field (·.matches_) (sortedFormat routeMatchKey matchFormat))
    [field (·.backends) (sortedFormat backendKey backendFormat),
      field (·.filters) (sortedFormat routeFilterOrd filterFormat)]

def httpRouteFormat : Format HTTPRouteState :=
  fields (field (·.namespace_) strFormat) [field (·.name) strFormat, field (·.generation) generationFormat,
    field (·.hostnames) hostnamesFormat, field (·.parentRefs) parentRefsFormat,
    field (·.rules) (sortedFormat ruleKey ruleFormat)]

def tcpRouteFormat : Format TCPRouteState :=
  fields (field (·.namespace_) strFormat) [field (·.name) strFormat, field (·.generation) generationFormat,
    field (·.parentRefs) parentRefsFormat, nothing, field (·.backends) backendFormat.list,
    field (·.programmed) (total readsBack_bool)]

def udpRouteFormat : Format UDPRouteState :=
  fields (field (·.namespace_) strFormat) [field (·.name) strFormat, field (·.generation) generationFormat,
    field (·.parentRefs) parentRefsFormat, nothing, field (·.backends) backendFormat.list,
    field (·.programmed) (total readsBack_bool)]

def tlsRouteFormat : Format TLSRouteState :=
  fields (field (·.namespace_) strFormat) [field (·.name) strFormat, field (·.generation) generationFormat,
    field (·.parentRefs) parentRefsFormat, field (·.hostnames) hostnamesFormat, field (·.backends) backendFormat.list,
    field (·.programmed) (total readsBack_bool)]

def viewFormat : Format ReconciledView :=
  fields (field (·.gateways) (sortedFormat gatewayKey gatewayFormat))
    [field (·.listenerSets) (sortedFormat listenerSetKey listenerSetFormat),
      field (·.routes) (sortedFormat routeKey routeFormat),
      field (·.httpRoutes) (sortedFormat httpRouteKey httpRouteFormat),
      field (·.tcpRoutes) (sortedFormat tcpRouteKey tcpRouteFormat),
      field (·.udpRoutes) (sortedFormat udpRouteKey udpRouteFormat),
      field (·.tlsRoutes) (sortedFormat tlsRouteKey tlsRouteFormat),
      field (·.referenceGrants) (sortedFormat referenceGrantKey referenceGrantFormat),
      field (·.namespaceLabels) namespaceLabelsFormat, field (·.listenerAllowed) allowedMapFormat,
      field (·.listenerSetAllowed) allowedMapFormat]

theorem encode_viewFormat : viewFormat.encode = encodeView := rfl

/-- the filters at corresponding places of two views, each collection in the order it is written in, both have a mirror
fraction or neither has -/
def FractionsAligned (v w : ReconciledView) : Prop :=
  ∀ route ∈ (sortByKey httpRouteKey v.httpRoutes).zip (sortByKey httpRouteKey w.httpRoutes),
    ∀ rule ∈ (sortByKey ruleKey route.1.rules).zip (sortByKey ruleKey route.2.rules),
      ∀ filter ∈ (sortByKey routeFilterOrd rule.1.filters).zip (sortByKey routeFilterOrd rule.2.filters),
        filter.1.hasFraction = filter.2.hasFraction

theorem aligned_viewFormat_iff (v w : ReconciledView) : viewFormat.Aligned v w ↔ FractionsAligned v w := by
  simp [viewFormat, gatewayFormat, listenersFormat, listenerFormat, listenerSetFormat, strMapFormat, mapFormat, strFormat,
    optionStrFormat, generationFormat, parentRefsFormat, backendFormat, hostnamesFormat, routeFormat, grantSubjectsFormat,
    referenceGrantFormat, namespaceLabelsFormat, allowedRoutesFormat, allowedMapFormat, matchFormat, ruleFormat,
    httpRouteFormat, tcpRouteFormat, udpRouteFormat, tlsRouteFormat, filterFormat, FractionsAligned]

/-- **The bytes are read from left to right.** Two views that fit and are written with the same bytes agree in everything
that is written exactly when their mirror fractions, which are written without a mark that they are there, stand at the same
places. -/
theorem digest_read_from_left_iff (v w : ReconciledView) (hv : viewFormat.Fits v) (hw : viewFormat.Fits w)
    (h : encodeView v = encodeView w) : viewFormat.Agree v w ↔ FractionsAligned v w := by
  rw [← encode_viewFormat] at h
  rw [viewFormat.agree_iff_aligned hv hw h, aligned_viewFormat_iff]

def filteredView (filters : List RouteFilter) : ReconciledView :=
  { httpRoutes := [{ namespace_ := "default", name := "web", rules := [{ filters := filters }] }] }

theorem fits_filteredView {a b : RouteFilter} (ha : a.Fits) (hb : b.Fits) : viewFormat.Fits (filteredView [a, b]) := by
  have hnamespace : Short "default" := by unfold Short; decide
  have hname : Short "web" := by unfold Short; decide
  have hgeneration : InRange 64 0 := by unfold InRange; decide
  have hrule : ruleFormat.Fits { filters := [a, b] } :=
    ⟨⟨fits_nil routeMatchKey matchFormat, fits_nil backendKey backendFormat⟩, fits_pair routeFilterOrd ha hb⟩
  have hroute : httpRouteFormat.Fits { namespace_ := "default", name := "web", rules := [{ filters := [a, b] }] } :=
    ⟨⟨⟨⟨⟨hnamespace, hname⟩, hgeneration⟩, fits_nil hostnameKey _⟩, fits_nil parentRefKey _⟩, fits_singleton ruleKey hrule⟩
  have hallowed : allowedMapFormat.Fits ∅ := fits_nil (fun e => listenerAllowedKey e.1) _
  have hlabels : namespaceLabelsFormat.Fits ∅ := fits_nil (fun e => id e.1) _
  exact ⟨⟨⟨⟨⟨⟨⟨⟨⟨⟨fits_nil gatewayKey _, fits_nil listenerSetKey _⟩, fits_nil routeKey _⟩,
    fits_singleton httpRouteKey hroute⟩, fits_nil tcpRouteKey _⟩, fits_nil udpRouteKey _⟩, fits_nil tlsRouteKey _⟩,
    fits_nil referenceGrantKey _⟩, hlabels⟩, hallowed⟩, hallowed⟩

theorem digest_read_from_left_reordered :
    viewFormat.Agree (filteredView [.requestMirror "canary" (some ⟨1, 2⟩), .requestHeaderRemove "x-debug"])
      (filteredView [.requestHeaderRemove "x-debug", .requestMirror "canary" (some ⟨1, 2⟩)]) := by
  have hmirror : (RouteFilter.requestMirror "canary" (some ⟨1, 2⟩)).Fits :=
    ⟨by unfold Short; decide, by simp [FractionFits]⟩
  have hremove : (RouteFilter.requestHeaderRemove "x-debug").Fits := by unfold RouteFilter.Fits Short; decide
  refine (digest_read_from_left_iff _ _ (fits_filteredView hmirror hremove) (fits_filteredView hremove hmirror) ?_).2 ?_
  · decide +kernel
  · unfold FractionsAligned
    decide +kernel

theorem mirror_read_as_filter : ∃ v w : ReconciledView, viewFormat.Fits v ∧ viewFormat.Fits w
      ∧ encodeView v = encodeView w ∧ ¬ viewFormat.Agree v w := by
  have hfits : ∀ backend fraction, (utf8 backend).length < 2 ^ 32 → (∀ f ∈ fraction, FractionFits f) →
      (RouteFilter.requestMirror backend fraction).Fits := fun _ _ hb hf => ⟨hb, hf⟩
  refine ⟨filteredView [.requestMirror "canary" (some ⟨0x08000000, 0x08000000⟩), .requestMirror "" none],
    filteredView [.requestMirror "canary" none, .requestMirror "\x00\x00\x00\x08\x00\x00\x00\x00" none], ?_, ?_, ?_, ?_⟩
  · exact fits_filteredView (hfits _ _ (by decide) (by simp [FractionFits])) (hfits _ _ (by decide) (by simp))
  · exact fits_filteredView (hfits _ _ (by decide) (by simp)) (hfits _ _ (by decide) (by simp))
  · decide +kernel
  · intro h
    have hroutes := h.1.1.1.1.1.1.1.2
    rcases hroutes with _ | ⟨hroute, -⟩
    rcases hroute.2 with _ | ⟨hrule, -⟩
    rcases hrule.2 with _ | ⟨hfilter, -⟩
    cases hfilter

end SunbeamProxy.Gateway
