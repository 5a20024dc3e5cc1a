/-
What the canonical bytes of a view say about it.

`Readable a b` says of two values what has to be known beforehand so that equal bytes make them equal: they agree in what is not
written, the sorts move their collections alike, and every length and number fits its field.

What is not written: the GRPC routes; the hostname, the TLS mode, the client validation and the health of a listener; the client
certificate of a Gateway; the group, the kind and the port of a parent reference; the timeouts and the health of a rule and the
health of an HTTP route; the filters, the protocol and the TLS settings of a backend; whether a mirror has a fraction; and the
order of the rules, which are sorted by how many matches and backends they have.
-/
import SunbeamProxy.Gateway.Digest

namespace SunbeamProxy.Gateway

open Codec List

attribute [ext] RequestMatch HeaderMatch QueryParamMatch CorsConfig RedirectAction Fraction
attribute [ext] ParentRef ListenerState GatewayState ListenerSetState RouteState WeightedBackend HTTPRouteRule HTTPRouteState
attribute [ext] TCPRouteState UDPRouteState TLSRouteState GrantSubject ReferenceGrantState RouteGroupKind RouteNamespaces
attribute [ext] AllowedRoutes ReconciledView

section Collections

variable {α κ : Type} [LinearOrder κ] {key : α → κ} {enc : α → Bytes} {U E : α → α → Prop}

/-- two lists whose positions the sort moves alike -/
structure SortedAlike (key : α → κ) (U : α → α → Prop) (l m : List α) : Prop where
  order : sortOrder key l = sortOrder key m
  elements : List.Forall₂ U l m

theorem readsBack_sorted (henc : ReadsBack enc U E) : ReadsBack (encodeSorted key enc) (SortedAlike key U) (Forall₂ E) := by
  intro l m r s hu h
  simp only [encodeSorted, length_eq_of_sortOrder hu.order, append_assoc, append_cancel_left_eq] at h
  obtain ⟨hsorted, hrest⟩ := readsBack_flatMap henc ((forall₂_sortByKey_iff hu.order).2 hu.elements) h
  exact ⟨(forall₂_sortByKey_iff hu.order).1 hsorted, hrest⟩

omit [LinearOrder κ] in
theorem readsBack_aligned (henc : ReadsBack enc U E) : ReadsBack (encodeList enc) (Forall₂ U) (Forall₂ E) := by
  intro l m r s hu h
  simp only [encodeList, hu.length_eq, append_assoc, append_cancel_left_eq] at h
  exact readsBack_flatMap henc hu h

theorem readsBack_sorted_eq (henc : ReadsBack enc U (· = ·)) : ReadsBack (encodeSorted key enc) (SortedAlike key U) (· = ·) := by
  intro l m r s hu h
  obtain ⟨heq, hrest⟩ := readsBack_sorted henc hu h
  exact ⟨forall₂_eq_eq_eq ▸ heq, hrest⟩

end Collections

theorem pairs_injective {κ ν : Type} {m m' : HashMap κ ν} (h : m.pairs = m'.pairs) : m = m' := by
  apply AList.ext
  apply map_injective_iff.2 _ h
  rintro ⟨k, v⟩ ⟨k', v'⟩ he
  cases he
  rfl

theorem readsBack_map {κ ν μ : Type} [LinearOrder μ] {key : κ → μ} {enc : κ × ν → Bytes} {U : κ × ν → κ × ν → Prop}
    (henc : ReadsBack enc U (· = ·)) :
    ReadsBack (encodeMap key enc) (fun m m' => SortedAlike (fun e => key e.1) U m.pairs m'.pairs) (· = ·) := by
  intro m m' r s hu h
  obtain ⟨heq, hrest⟩ := readsBack_sorted_eq henc hu h
  exact ⟨pairs_injective heq, hrest⟩

def ShortOption (o : Option String) : Prop := ∀ s ∈ o, Short s

theorem readsBack_optionStr : ReadsBack encodeOptionStr (fun a b => ShortOption a ∧ ShortOption b) (· = ·) := by
  intro a b r s hu h
  exact readsBack_option readsBack_str (fun x hx y hy => ⟨hu.1 x hx, hu.2 y hy⟩) h

def StrPairReadable (e e' : String × String) : Prop := (Short e.1 ∧ Short e'.1) ∧ Short e.2 ∧ Short e'.2

theorem readsBack_strPair : ReadsBack encodeStrPair StrPairReadable (· = ·) := by
  intro a b r s hu h
  simp only [encodeStrPair, append_assoc] at h
  obtain ⟨hkey, h⟩ := readsBack_str hu.1 h
  obtain ⟨hvalue, hrest⟩ := readsBack_str hu.2 h
  exact ⟨Prod.ext hkey hvalue, hrest⟩

def StrMapReadable (m m' : HashMap String String) : Prop := SortedAlike (fun e => id e.1) StrPairReadable m.pairs m'.pairs

theorem readsBack_strMap : ReadsBack encodeStrMap StrMapReadable (· = ·) := readsBack_map readsBack_strPair

structure ParentRef.Readable (a b : ParentRef) : Prop where
  group : a.group = b.group
  kind : a.kind = b.kind
  namespace_ : ShortOption a.namespace_ ∧ ShortOption b.namespace_
  name : Short a.name ∧ Short b.name
  sectionName : ShortOption a.sectionName ∧ ShortOption b.sectionName
  port : a.port = b.port

theorem readsBack_parentRef : ReadsBack encodeParentRef ParentRef.Readable (· = ·) := by
  intro a b r s hu h
  simp only [encodeParentRef, append_assoc] at h
  obtain ⟨hns, h⟩ := readsBack_optionStr hu.namespace_ h
  obtain ⟨hname, h⟩ := readsBack_str hu.name h
  obtain ⟨hsection, hrest⟩ := readsBack_optionStr hu.sectionName h
  exact ⟨ParentRef.ext hu.group hu.kind hns hname hsection hu.port, hrest⟩

abbrev ParentRefsReadable : List ParentRef → List ParentRef → Prop := SortedAlike parentRefKey ParentRef.Readable

theorem readsBack_parentRefs : ReadsBack encodeParentRefs ParentRefsReadable (· = ·) := readsBack_sorted_eq readsBack_parentRef

structure ListenerState.Readable (a b : ListenerState) : Prop where
  name : Short a.name ∧ Short b.name
  protocol : Short a.protocol ∧ Short b.protocol
  hostname : a.hostname = b.hostname
  tlsMode : a.tlsMode = b.tlsMode
  frontendValidation : a.frontendValidation = b.frontendValidation
  programmed : a.programmed = b.programmed

theorem readsBack_listener : ReadsBack encodeListener ListenerState.Readable (· = ·) := by
  intro a b r s hu h
  simp only [encodeListener, append_assoc] at h
  obtain ⟨hname, h⟩ := readsBack_str hu.name h
  obtain ⟨hprotocol, h⟩ := readsBack_str hu.protocol h
  obtain ⟨hport, hrest⟩ := readsBack_u16 trivial h
  exact ⟨ListenerState.ext hname hprotocol hport hu.hostname hu.tlsMode hu.frontendValidation hu.programmed, hrest⟩

abbrev ListenersReadable : List ListenerState → List ListenerState → Prop := SortedAlike (·.name) ListenerState.Readable

theorem readsBack_listeners : ReadsBack encodeListeners ListenersReadable (· = ·) := readsBack_sorted_eq readsBack_listener

structure WeightedBackend.Readable (a b : WeightedBackend) : Prop where
  backend : Short a.backend ∧ Short b.backend
  weight : a.weight < 2 ^ 32 ∧ b.weight < 2 ^ 32
  filters : a.filters = b.filters
  protocol : a.protocol = b.protocol
  tls : a.tls = b.tls

theorem readsBack_weightedBackend : ReadsBack encodeWeightedBackend WeightedBackend.Readable (· = ·) := by
  intro a b r s hu h
  simp only [encodeWeightedBackend, append_assoc] at h
  obtain ⟨hbackend, h⟩ := readsBack_str hu.backend h
  obtain ⟨hweight, hrest⟩ := readsBack_u32 hu.weight h
  exact ⟨WeightedBackend.ext hbackend hweight hu.filters hu.protocol hu.tls, hrest⟩

def HostnameMatch.Fits : HostnameMatch → Prop
  | .exact s => Short s
  | .wildcard s => Short s
  | .any => True

theorem readsBack_hostname : ReadsBack encodeHostname (fun a b => a.Fits ∧ b.Fits) (· = ·) := by
  intro a b r s hu h
  -- the first byte says which kind of name it is
  cases a <;> cases b <;> have htag := cons.inj h <;> try exact absurd htag.1 (by decide)
  case exact.exact =>
    obtain ⟨rfl, hrest⟩ := readsBack_str hu htag.2
    exact ⟨rfl, hrest⟩
  case wildcard.wildcard =>
    obtain ⟨rfl, hrest⟩ := readsBack_str hu htag.2
    exact ⟨rfl, hrest⟩
  case any.any => exact ⟨rfl, htag.2⟩

abbrev HostnamesReadable : List HostnameMatch → List HostnameMatch → Prop :=
  SortedAlike hostnameKey fun a b => a.Fits ∧ b.Fits

theorem readsBack_hostnames : ReadsBack encodeHostnames HostnamesReadable (· = ·) := readsBack_sorted_eq readsBack_hostname

/-! ## Gateways, ListenerSets, routes and grants -/

structure GatewayState.Readable (a b : GatewayState) : Prop where
  namespace_ : Short a.namespace_ ∧ Short b.namespace_
  name : Short a.name ∧ Short b.name
  listeners : ListenersReadable a.listeners b.listeners
  backendClientCertId : a.backendClientCertId = b.backendClientCertId
  generation : InRange 64 a.generation ∧ InRange 64 b.generation

theorem readsBack_gateway : ReadsBack encodeGateway GatewayState.Readable (· = ·) := by
  intro a b r s hu h
  simp only [encodeGateway, append_assoc] at h
  obtain ⟨hns, h⟩ := readsBack_str hu.namespace_ h
  obtain ⟨hname, h⟩ := readsBack_str hu.name h
  obtain ⟨hgeneration, h⟩ := readsBack_i64 hu.generation h
  obtain ⟨hlisteners, hrest⟩ := readsBack_listeners hu.listeners h
  exact ⟨GatewayState.ext hns hname hlisteners hu.backendClientCertId hgeneration, hrest⟩

structure ListenerSetState.Readable (a b : ListenerSetState) : Prop where
  namespace_ : Short a.namespace_ ∧ Short b.namespace_
  name : Short a.name ∧ Short b.name
  listeners : ListenersReadable a.listeners b.listeners
  conflicts : StrMapReadable a.conflicts b.conflicts
  generation : InRange 64 a.generation ∧ InRange 64 b.generation
  reason : Short a.reason ∧ Short b.reason

theorem readsBack_listenerSet : ReadsBack encodeListenerSet ListenerSetState.Readable (· = ·) := by
  intro a b r s hu h
  simp only [encodeListenerSet, append_assoc] at h
  obtain ⟨hns, h⟩ := readsBack_str hu.namespace_ h
  obtain ⟨hname, h⟩ := readsBack_str hu.name h
  obtain ⟨hgeneration, h⟩ := readsBack_i64 hu.generation h
  obtain ⟨hlisteners, h⟩ := readsBack_listeners hu.listeners h
  obtain ⟨hconflicts, h⟩ := readsBack_strMap hu.conflicts h
  obtain ⟨haccepted, h⟩ := readsBack_bool trivial h
  obtain ⟨hprogrammed, h⟩ := readsBack_bool trivial h
  obtain ⟨hreason, hrest⟩ := readsBack_str hu.reason h
  exact ⟨ListenerSetState.ext hns hname hlisteners hconflicts hprogrammed hgeneration haccepted hreason, hrest⟩

structure RouteState.Readable (a b : RouteState) : Prop where
  namespace_ : Short a.namespace_ ∧ Short b.namespace_
  name : Short a.name ∧ Short b.name
  kind : Short a.kind ∧ Short b.kind
  generation : InRange 64 a.generation ∧ InRange 64 b.generation
  parentRefs : ParentRefsReadable a.parentRefs b.parentRefs

theorem readsBack_route : ReadsBack encodeRoute RouteState.Readable (· = ·) := by
  intro a b r s hu h
  simp only [encodeRoute, append_assoc] at h
  obtain ⟨hns, h⟩ := readsBack_str hu.namespace_ h
  obtain ⟨hname, h⟩ := readsBack_str hu.name h
  obtain ⟨hkind, h⟩ := readsBack_str hu.kind h
  obtain ⟨hgeneration, h⟩ := readsBack_i64 hu.generation h
  obtain ⟨hrefs, hrest⟩ := readsBack_parentRefs hu.parentRefs h
  exact ⟨RouteState.ext hns hname hkind hgeneration hrefs, hrest⟩

structure GrantSubject.Readable (a b : GrantSubject) : Prop where
  group : Short a.group ∧ Short b.group
  kind : Short a.kind ∧ Short b.kind
  namespace_ : ShortOption a.namespace_ ∧ ShortOption b.namespace_
  name : ShortOption a.name ∧ ShortOption b.name

theorem readsBack_grantSubject : ReadsBack encodeGrantSubject GrantSubject.Readable (· = ·) := by
  intro a b r s hu h
  simp only [encodeGrantSubject, append_assoc] at h
  obtain ⟨hgroup, h⟩ := readsBack_str hu.group h
  obtain ⟨hkind, h⟩ := readsBack_str hu.kind h
  obtain ⟨hns, h⟩ := readsBack_optionStr hu.namespace_ h
  obtain ⟨hname, hrest⟩ := readsBack_optionStr hu.name h
  exact ⟨GrantSubject.ext hgroup hkind hns hname, hrest⟩

abbrev GrantSubjectsReadable : List GrantSubject → List GrantSubject → Prop := SortedAlike grantSubjectKey GrantSubject.Readable

theorem readsBack_grantSubjects : ReadsBack encodeGrantSubjects GrantSubjectsReadable (· = ·) :=
  readsBack_sorted_eq readsBack_grantSubject

structure ReferenceGrantState.Readable (a b : ReferenceGrantState) : Prop where
  namespace_ : Short a.namespace_ ∧ Short b.namespace_
  name : Short a.name ∧ Short b.name
  source : GrantSubjectsReadable a.source b.source
  target : GrantSubjectsReadable a.target b.target
  generation : InRange 64 a.generation ∧ InRange 64 b.generation

theorem readsBack_referenceGrant : ReadsBack encodeReferenceGrant ReferenceGrantState.Readable (· = ·) := by
  intro a b r s hu h
  simp only [encodeReferenceGrant, append_assoc] at h
  obtain ⟨hns, h⟩ := readsBack_str hu.namespace_ h
  obtain ⟨hname, h⟩ := readsBack_str hu.name h
  obtain ⟨hgeneration, h⟩ := readsBack_i64 hu.generation h
  obtain ⟨hsource, h⟩ := readsBack_grantSubjects hu.source h
  obtain ⟨htarget, hrest⟩ := readsBack_grantSubjects hu.target h
  exact ⟨ReferenceGrantState.ext hns hname hsource htarget hgeneration, hrest⟩

def LabelsEntryReadable (e e' : String × HashMap String String) : Prop := (Short e.1 ∧ Short e'.1) ∧ StrMapReadable e.2 e'.2

theorem readsBack_labelsEntry : ReadsBack encodeLabelsEntry LabelsEntryReadable (· = ·) := by
  intro a b r s hu h
  simp only [encodeLabelsEntry, append_assoc] at h
  obtain ⟨hname, h⟩ := readsBack_str hu.1 h
  obtain ⟨hlabels, hrest⟩ := readsBack_strMap hu.2 h
  exact ⟨Prod.ext hname hlabels, hrest⟩

def LabelsReadable (m m' : NamespaceLabels) : Prop := SortedAlike (fun e => id e.1) LabelsEntryReadable m.pairs m'.pairs

theorem readsBack_namespaceLabels : ReadsBack encodeNamespaceLabels LabelsReadable (· = ·) := readsBack_map readsBack_labelsEntry

structure RouteGroupKind.Readable (a b : RouteGroupKind) : Prop where
  group : Short a.group ∧ Short b.group
  kind : Short a.kind ∧ Short b.kind

theorem readsBack_routeGroupKind : ReadsBack encodeRouteGroupKind RouteGroupKind.Readable (· = ·) := by
  intro a b r s hu h
  simp only [encodeRouteGroupKind, append_assoc] at h
  obtain ⟨hgroup, h⟩ := readsBack_str hu.group h
  obtain ⟨hkind, hrest⟩ := readsBack_str hu.kind h
  exact ⟨RouteGroupKind.ext hgroup hkind, hrest⟩

theorem readsBack_namespaceFrom : ReadsBack encodeNamespaceFrom (fun _ _ => True) (· = ·) := by
  intro a b r s _ h
  cases a <;> cases b <;> have htag := cons.inj h <;>
    first
    | exact absurd htag.1 (by decide)
    | exact ⟨rfl, htag.2⟩

structure AllowedRoutes.Readable (a b : AllowedRoutes) : Prop where
  kinds : SortedAlike routeGroupKindKey RouteGroupKind.Readable a.kinds b.kinds
  selector : ∀ m ∈ a.namespaces.selector, ∀ m' ∈ b.namespaces.selector, StrMapReadable m m'

theorem readsBack_allowedRoutes : ReadsBack encodeAllowedRoutes AllowedRoutes.Readable (· = ·) := by
  intro a b r s hu h
  simp only [encodeAllowedRoutes, encodeRouteNamespaces, append_assoc] at h
  obtain ⟨hkinds, h⟩ := readsBack_sorted_eq readsBack_routeGroupKind hu.kinds h
  obtain ⟨hsource, h⟩ := readsBack_namespaceFrom trivial h
  obtain ⟨hselector, hrest⟩ := readsBack_option readsBack_strMap hu.selector h
  exact ⟨AllowedRoutes.ext hkinds (RouteNamespaces.ext hsource hselector), hrest⟩

structure AllowedEntryReadable (e e' : (String × String × String) × AllowedRoutes) : Prop where
  namespace_ : Short e.1.1 ∧ Short e'.1.1
  owner : Short e.1.2.1 ∧ Short e'.1.2.1
  listener : Short e.1.2.2 ∧ Short e'.1.2.2
  allowed : e.2.Readable e'.2

theorem readsBack_allowedEntry : ReadsBack encodeAllowedEntry AllowedEntryReadable (· = ·) := by
  intro a b r s hu h
  simp only [encodeAllowedEntry, append_assoc] at h
  obtain ⟨hns, h⟩ := readsBack_str hu.namespace_ h
  obtain ⟨howner, h⟩ := readsBack_str hu.owner h
  obtain ⟨hlistener, h⟩ := readsBack_str hu.listener h
  obtain ⟨hallowed, hrest⟩ := readsBack_allowedRoutes hu.allowed h
  exact ⟨Prod.ext (Prod.ext hns (Prod.ext howner hlistener)) hallowed, hrest⟩

def AllowedReadable (m m' : ListenerAllowedMap) : Prop :=
  SortedAlike (fun e => listenerAllowedKey e.1) AllowedEntryReadable m.pairs m'.pairs

theorem readsBack_allowedRoutesMap : ReadsBack encodeAllowedRoutesMap AllowedReadable (· = ·) :=
  readsBack_map readsBack_allowedEntry

def PathMatch.Fits (p : PathMatch) : Prop := Short p.text

theorem readsBack_optionPathMatch :
    ReadsBack encodeOptionPathMatch (fun a b => (∀ p ∈ a, PathMatch.Fits p) ∧ ∀ p ∈ b, PathMatch.Fits p) (· = ·) := by
  intro a b r s hu h
  cases a with
  | none =>
    cases b with
    | none => exact ⟨rfl, (cons.inj h).2⟩
    | some q => cases q <;> exact absurd (cons.inj h).1 (by decide)
  | some p =>
    cases b with
    | none => cases p <;> exact absurd (cons.inj h).1 (by decide)
    | some q =>
      have hfit := And.intro (hu.1 p rfl) (hu.2 q rfl)
      cases p <;> cases q <;> have htag := cons.inj (cons.inj h).2 <;> try exact absurd htag.1 (by decide)
      all_goals
        obtain ⟨rfl, hrest⟩ := readsBack_str hfit htag.2
        exact ⟨rfl, hrest⟩

def HeaderMatchValue.Fits : HeaderMatchValue → Prop
  | .exact s => Short s
  | .regex s => Short s
  | .present => True
  | .absent => True

def HeaderMatch.Fits (m : HeaderMatch) : Prop := Short m.name ∧ HeaderMatchValue.Fits m.value

theorem readsBack_headerMatch : ReadsBack encodeHeaderMatch (fun a b => HeaderMatch.Fits a ∧ HeaderMatch.Fits b) (· = ·) := by
  intro a b r s hu h
  simp only [encodeHeaderMatch, append_assoc] at h
  obtain ⟨hname, h⟩ := readsBack_str ⟨hu.1.1, hu.2.1⟩ h
  have hfit := And.intro hu.1.2 hu.2.2
  suffices hvalue : a.value = b.value ∧ r = s from ⟨HeaderMatch.ext hname hvalue.1, hvalue.2⟩
  cases ha : a.value <;> cases hb : b.value <;> simp only [ha, hb] at h hfit <;> have htag := cons.inj h <;>
    try exact absurd htag.1 (by decide)
  case exact.exact =>
    obtain ⟨rfl, hrest⟩ := readsBack_str hfit htag.2
    exact ⟨rfl, hrest⟩
  case regex.regex =>
    obtain ⟨rfl, hrest⟩ := readsBack_str hfit htag.2
    exact ⟨rfl, hrest⟩
  all_goals exact ⟨rfl, htag.2⟩

def QueryParamMatchValue.Fits : QueryParamMatchValue → Prop
  | .exact s => Short s
  | .regex s => Short s

def QueryParamMatch.Fits (m : QueryParamMatch) : Prop := Short m.name ∧ QueryParamMatchValue.Fits m.value

theorem readsBack_queryParamMatch :
    ReadsBack encodeQueryParamMatch (fun a b => QueryParamMatch.Fits a ∧ QueryParamMatch.Fits b) (· = ·) := by
  intro a b r s hu h
  simp only [encodeQueryParamMatch, append_assoc] at h
  obtain ⟨hname, h⟩ := readsBack_str ⟨hu.1.1, hu.2.1⟩ h
  have hfit := And.intro hu.1.2 hu.2.2
  suffices hvalue : a.value = b.value ∧ r = s from ⟨QueryParamMatch.ext hname hvalue.1, hvalue.2⟩
  cases ha : a.value <;> cases hb : b.value <;> simp only [ha, hb] at h hfit <;> have htag := cons.inj h <;>
    try exact absurd htag.1 (by decide)
  all_goals
    obtain ⟨rfl, hrest⟩ := readsBack_str hfit htag.2
    exact ⟨rfl, hrest⟩

structure MatchReadable (a b : RequestMatch) : Prop where
  path : (∀ p ∈ a.path, PathMatch.Fits p) ∧ ∀ p ∈ b.path, PathMatch.Fits p
  method : ShortOption a.method ∧ ShortOption b.method
  headers : SortedAlike (·.name) (fun a b => HeaderMatch.Fits a ∧ HeaderMatch.Fits b) a.headers b.headers
  queryParams : SortedAlike (·.name) (fun a b => QueryParamMatch.Fits a ∧ QueryParamMatch.Fits b) a.queryParams b.queryParams

theorem readsBack_routeMatch : ReadsBack encodeRouteMatch MatchReadable (· = ·) := by
  intro a b r s hu h
  simp only [encodeRouteMatch, append_assoc] at h
  obtain ⟨hpath, h⟩ := readsBack_optionPathMatch hu.path h
  obtain ⟨hmethod, h⟩ := readsBack_optionStr hu.method h
  obtain ⟨hheaders, h⟩ := readsBack_sorted_eq readsBack_headerMatch hu.headers h
  obtain ⟨hquery, hrest⟩ := readsBack_sorted_eq readsBack_queryParamMatch hu.queryParams h
  exact ⟨RequestMatch.ext hpath hmethod hheaders hquery, hrest⟩

/-! ## Filters -/

theorem readsBack_strs₂ {a b a' b' : String} {r s : Bytes} (hu : (Short a ∧ Short b) ∧ Short a' ∧ Short b')
    (h : encodeStr a ++ encodeStr b ++ r = encodeStr a' ++ encodeStr b' ++ s) : (a = a' ∧ b = b') ∧ r = s := by
  simp only [append_assoc] at h
  obtain ⟨ha, h⟩ := readsBack_str ⟨hu.1.1, hu.2.1⟩ h
  obtain ⟨hb, hrest⟩ := readsBack_str ⟨hu.1.2, hu.2.2⟩ h
  exact ⟨⟨ha, hb⟩, hrest⟩

def PathRewriteFits : PathRewrite → Prop
  | .fullReplace path => Short path
  | .prefixReplace matched replacement => Short matched ∧ Short replacement

theorem readsBack_pathRewrite : ReadsBack encodePathRewrite (fun a b => PathRewriteFits a ∧ PathRewriteFits b) (· = ·) := by
  intro a b r s hu h
  cases a <;> cases b <;> have htag := cons.inj h <;> try exact absurd htag.1 (by decide)
  case fullReplace.fullReplace =>
    obtain ⟨rfl, hrest⟩ := readsBack_str hu htag.2
    exact ⟨rfl, hrest⟩
  case prefixReplace.prefixReplace =>
    obtain ⟨⟨rfl, rfl⟩, hrest⟩ := readsBack_strs₂ hu htag.2
    exact ⟨rfl, hrest⟩

def ShortList (l : List String) : Prop := l.length < 2 ^ 32 ∧ ∀ s ∈ l, Short s

theorem readsBack_strs : ReadsBack (encodeList encodeStr) (fun l m => ShortList l ∧ ShortList m) (· = ·) := by
  intro l m r s hu h
  obtain ⟨heq, hrest⟩ := (Format.exact readsBack_str).list.readsBack ⟨hu, fun _ _ => trivial⟩ h
  exact ⟨forall₂_eq_eq_eq ▸ heq, hrest⟩

structure RedirectFits (r : RedirectAction) : Prop where
  scheme : ShortOption r.scheme
  hostname : ShortOption r.hostname
  path : ∀ p ∈ r.path, PathRewriteFits p

theorem readsBack_redirect : ReadsBack encodeRedirect (fun a b => RedirectFits a ∧ RedirectFits b) (· = ·) := by
  intro a b r s hu h
  simp only [encodeRedirect, append_assoc] at h
  obtain ⟨hscheme, h⟩ := readsBack_optionStr ⟨hu.1.scheme, hu.2.scheme⟩ h
  obtain ⟨hhostname, h⟩ := readsBack_optionStr ⟨hu.1.hostname, hu.2.hostname⟩ h
  obtain ⟨hpath, h⟩ := readsBack_option readsBack_pathRewrite (fun p hp q hq => ⟨hu.1.path p hp, hu.2.path q hq⟩) h
  obtain ⟨hport, h⟩ := readsBack_option readsBack_u16 (fun _ _ _ _ => trivial) h
  obtain ⟨hstatus, hrest⟩ := readsBack_u16 trivial h
  exact ⟨RedirectAction.ext hstatus hscheme hhostname hport hpath, hrest⟩

structure CorsFits (c : CorsConfig) : Prop where
  allowOrigins : ShortList c.allowOrigins
  allowMethods : ShortList c.allowMethods
  allowHeaders : ShortList c.allowHeaders
  exposeHeaders : ShortList c.exposeHeaders
  maxAge : ∀ z ∈ c.maxAge, InRange 32 z

theorem readsBack_cors : ReadsBack encodeCors (fun a b => CorsFits a ∧ CorsFits b) (· = ·) := by
  intro a b r s hu h
  simp only [encodeCors, append_assoc] at h
  obtain ⟨horigins, h⟩ := readsBack_strs ⟨hu.1.allowOrigins, hu.2.allowOrigins⟩ h
  obtain ⟨hmethods, h⟩ := readsBack_strs ⟨hu.1.allowMethods, hu.2.allowMethods⟩ h
  obtain ⟨hheaders, h⟩ := readsBack_strs ⟨hu.1.allowHeaders, hu.2.allowHeaders⟩ h
  obtain ⟨hexpose, h⟩ := readsBack_strs ⟨hu.1.exposeHeaders, hu.2.exposeHeaders⟩ h
  obtain ⟨hage, h⟩ := readsBack_option readsBack_i32Le (fun z hz w hw => ⟨hu.1.maxAge z hz, hu.2.maxAge w hw⟩) h
  obtain ⟨hcredentials, hrest⟩ := readsBack_bool trivial h
  exact ⟨CorsConfig.ext horigins hmethods hheaders hexpose hage hcredentials, hrest⟩

def FractionFits (f : Fraction) : Prop := f.numerator < 2 ^ 32 ∧ f.denominator < 2 ^ 32

structure FractionReadable (a b : Option Fraction) : Prop where
  isSome : a.isSome = b.isSome
  fits : (∀ f ∈ a, FractionFits f) ∧ ∀ f ∈ b, FractionFits f

theorem readsBack_fraction : ReadsBack encodeFraction FractionReadable (· = ·) := by
  intro a b r s hu h
  cases a with
  | none =>
    cases b with
    | none => exact ⟨rfl, h⟩
    | some g => cases hu.isSome
  | some f =>
    cases b with
    | none => cases hu.isSome
    | some g =>
      have hf := hu.fits.1 f rfl
      have hg := hu.fits.2 g rfl
      obtain ⟨hnumerator, h⟩ := readsBack_u32 ⟨hf.1, hg.1⟩ h
      obtain ⟨hdenominator, hrest⟩ := readsBack_u32 ⟨hf.2, hg.2⟩ h
      exact ⟨congrArg some (Fraction.ext hnumerator hdenominator), hrest⟩

theorem readsBack_mirror {a a' : String} {f f' : Option Fraction} {r s : Bytes}
    (hbackend : Short a ∧ Short a') (hfraction : FractionReadable f f')
    (h : encodeStr a ++ encodeFraction f ++ r = encodeStr a' ++ encodeFraction f' ++ s) : (a = a' ∧ f = f') ∧ r = s := by
  simp only [append_assoc] at h
  obtain ⟨ha, h⟩ := readsBack_str hbackend h
  obtain ⟨hf, hrest⟩ := readsBack_fraction hfraction h
  exact ⟨⟨ha, hf⟩, hrest⟩

theorem readsBack_urlRewrite {a a' : Option String} {p p' : Option PathRewrite} {r s : Bytes}
    (hhostname : ShortOption a ∧ ShortOption a') (hpath : (∀ x ∈ p, PathRewriteFits x) ∧ ∀ x ∈ p', PathRewriteFits x)
    (h : encodeOptionStr a ++ encodeOption encodePathRewrite p ++ r
      = encodeOptionStr a' ++ encodeOption encodePathRewrite p' ++ s) :
    (a = a' ∧ p = p') ∧ r = s := by
  simp only [append_assoc] at h
  obtain ⟨ha, h⟩ := readsBack_optionStr hhostname h
  obtain ⟨hp, hrest⟩ := readsBack_option readsBack_pathRewrite (fun x hx y hy => ⟨hpath.1 x hx, hpath.2 y hy⟩) h
  exact ⟨⟨ha, hp⟩, hrest⟩

def RouteFilter.Fits : RouteFilter → Prop
  | .requestHeaderSet name value => Short name ∧ Short value
  | .requestHeaderAdd name value => Short name ∧ Short value
  | .requestHeaderRemove name => Short name
  | .responseHeaderSet name value => Short name ∧ Short value
  | .responseHeaderAdd name value => Short name ∧ Short value
  | .responseHeaderRemove name => Short name
  | .urlRewrite hostname path => ShortOption hostname ∧ ∀ p ∈ path, PathRewriteFits p
  | .requestRedirect redirect => RedirectFits redirect
  | .requestMirror backend fraction => Short backend ∧ ∀ f ∈ fraction, FractionFits f
  | .cors config => CorsFits config

def RouteFilter.hasFraction : RouteFilter → Bool
  | .requestMirror _ fraction => fraction.isSome
  | _ => false

structure RouteFilter.Readable (a b : RouteFilter) : Prop where
  fits : a.Fits ∧ b.Fits
  hasFraction : a.hasFraction = b.hasFraction

theorem readsBack_routeFilter : ReadsBack encodeRouteFilter RouteFilter.Readable (· = ·) := by
  intro a b r s hu h
  have hfit := hu.fits
  cases a <;> cases b <;> have htag := cons.inj h <;> try exact absurd htag.1 (by decide)
  case requestHeaderSet.requestHeaderSet =>
    obtain ⟨⟨rfl, rfl⟩, hrest⟩ := readsBack_strs₂ hfit htag.2
    exact ⟨rfl, hrest⟩
  case requestHeaderAdd.requestHeaderAdd =>
    obtain ⟨⟨rfl, rfl⟩, hrest⟩ := readsBack_strs₂ hfit htag.2
    exact ⟨rfl, hrest⟩
  case requestHeaderRemove.requestHeaderRemove =>
    obtain ⟨rfl, hrest⟩ := readsBack_str hfit htag.2
    exact ⟨rfl, hrest⟩
  case responseHeaderSet.responseHeaderSet =>
    obtain ⟨⟨rfl, rfl⟩, hrest⟩ := readsBack_strs₂ hfit htag.2
    exact ⟨rfl, hrest⟩
  case responseHeaderAdd.responseHeaderAdd =>
    obtain ⟨⟨rfl, rfl⟩, hrest⟩ := readsBack_strs₂ hfit htag.2
    exact ⟨rfl, hrest⟩
  case responseHeaderRemove.responseHeaderRemove =>
    obtain ⟨rfl, hrest⟩ := readsBack_str hfit htag.2
    exact ⟨rfl, hrest⟩
  case urlRewrite.urlRewrite =>
    obtain ⟨⟨rfl, rfl⟩, hrest⟩ := readsBack_urlRewrite ⟨hfit.1.1, hfit.2.1⟩ ⟨hfit.1.2, hfit.2.2⟩ htag.2
    exact ⟨rfl, hrest⟩
  case requestRedirect.requestRedirect =>
    obtain ⟨rfl, hrest⟩ := readsBack_redirect hfit htag.2
    exact ⟨rfl, hrest⟩
  case requestMirror.requestMirror =>
    obtain ⟨⟨rfl, rfl⟩, hrest⟩ := readsBack_mirror ⟨hfit.1.1, hfit.2.1⟩ ⟨hu.hasFraction, hfit.1.2, hfit.2.2⟩ htag.2
    exact ⟨rfl, hrest⟩
  case cors.cors =>
    obtain ⟨rfl, hrest⟩ := readsBack_cors hfit htag.2
    exact ⟨rfl, hrest⟩

/-! ## Routes -/

structure HTTPRouteRule.Readable (a b : HTTPRouteRule) : Prop where
  matches_ : SortedAlike routeMatchKey MatchReadable a.matches_ b.matches_
  backends : SortedAlike backendKey WeightedBackend.Readable a.backends b.backends
  filters : SortedAlike routeFilterOrd RouteFilter.Readable a.filters b.filters
  timeoutMs : a.timeoutMs = b.timeoutMs
  requestTimeoutMs : a.requestTimeoutMs = b.requestTimeoutMs
  programmed : a.programmed = b.programmed

theorem readsBack_httpRouteRule : ReadsBack encodeHttpRouteRule HTTPRouteRule.Readable (· = ·) := by
  intro a b r s hu h
  simp only [encodeHttpRouteRule, append_assoc] at h
  obtain ⟨hmatches, h⟩ := readsBack_sorted_eq readsBack_routeMatch hu.matches_ h
  obtain ⟨hbackends, h⟩ := readsBack_sorted_eq readsBack_weightedBackend hu.backends h
  obtain ⟨hfilters, hrest⟩ := readsBack_sorted_eq readsBack_routeFilter hu.filters h
  exact ⟨HTTPRouteRule.ext hmatches hbackends hfilters hu.timeoutMs hu.requestTimeoutMs hu.programmed, hrest⟩

structure HTTPRouteState.Readable (a b : HTTPRouteState) : Prop where
  namespace_ : Short a.namespace_ ∧ Short b.namespace_
  name : Short a.name ∧ Short b.name
  hostnames : HostnamesReadable a.hostnames b.hostnames
  rules : SortedAlike ruleKey HTTPRouteRule.Readable a.rules b.rules
  parentRefs : ParentRefsReadable a.parentRefs b.parentRefs
  programmed : a.programmed = b.programmed
  generation : InRange 64 a.generation ∧ InRange 64 b.generation

theorem readsBack_httpRoute : ReadsBack encodeHttpRoute HTTPRouteState.Readable (· = ·) := by
  intro a b r s hu h
  simp only [encodeHttpRoute, append_assoc] at h
  obtain ⟨hns, h⟩ := readsBack_str hu.namespace_ h
  obtain ⟨hname, h⟩ := readsBack_str hu.name h
  obtain ⟨hgeneration, h⟩ := readsBack_i64 hu.generation h
  obtain ⟨hhostnames, h⟩ := readsBack_hostnames hu.hostnames h
  obtain ⟨hrefs, h⟩ := readsBack_parentRefs hu.parentRefs h
  obtain ⟨hrules, hrest⟩ := readsBack_sorted_eq readsBack_httpRouteRule hu.rules h
  exact ⟨HTTPRouteState.ext hns hname hhostnames hrules hrefs hu.programmed hgeneration, hrest⟩

theorem readsBack_l4Backends : ReadsBack (encodeList encodeWeightedBackend) (Forall₂ WeightedBackend.Readable) (· = ·) := by
  intro l m r s hu h
  obtain ⟨heq, hrest⟩ := readsBack_aligned readsBack_weightedBackend hu h
  exact ⟨forall₂_eq_eq_eq ▸ heq, hrest⟩

theorem readsBack_none {r s : Bytes} (h : [] ++ r = [] ++ s) : True ∧ r = s := ⟨trivial, h⟩

theorem readsBack_l4Route {ns ns' name name' : String} {generation generation' : ℤ} {refs refs' : List ParentRef}
    {hosts hosts' : Bytes} {H : Prop} {bs bs' : List WeightedBackend} {programmed programmed' : Bool} {r s : Bytes}
    (hns : Short ns ∧ Short ns') (hname : Short name ∧ Short name')
    (hgeneration : InRange 64 generation ∧ InRange 64 generation') (hrefs : ParentRefsReadable refs refs')
    (hhosts : ∀ {r s : Bytes}, hosts ++ r = hosts' ++ s → H ∧ r = s) (hbs : Forall₂ WeightedBackend.Readable bs bs')
    (h : encodeL4Route ns name generation refs hosts bs programmed ++ r
      = encodeL4Route ns' name' generation' refs' hosts' bs' programmed' ++ s) :
    (ns = ns' ∧ name = name' ∧ generation = generation' ∧ refs = refs' ∧ H ∧ bs = bs' ∧ programmed = programmed') ∧ r = s := by
  simp only [encodeL4Route, append_assoc] at h
  obtain ⟨heqNs, h⟩ := readsBack_str hns h
  obtain ⟨heqName, h⟩ := readsBack_str hname h
  obtain ⟨heqGeneration, h⟩ := readsBack_i64 hgeneration h
  obtain ⟨heqRefs, h⟩ := readsBack_parentRefs hrefs h
  obtain ⟨heqHosts, h⟩ := hhosts h
  obtain ⟨heqBackends, h⟩ := readsBack_l4Backends hbs h
  obtain ⟨heqProgrammed, hrest⟩ := readsBack_bool trivial h
  exact ⟨⟨heqNs, heqName, heqGeneration, heqRefs, heqHosts, heqBackends, heqProgrammed⟩, hrest⟩

structure TCPRouteState.Readable (a b : TCPRouteState) : Prop where
  namespace_ : Short a.namespace_ ∧ Short b.namespace_
  name : Short a.name ∧ Short b.name
  parentRefs : ParentRefsReadable a.parentRefs b.parentRefs
  backends : List.Forall₂ WeightedBackend.Readable a.backends b.backends
  generation : InRange 64 a.generation ∧ InRange 64 b.generation

theorem readsBack_tcpRoute : ReadsBack encodeTcpRoute TCPRouteState.Readable (· = ·) := by
  intro a b r s hu h
  rcases readsBack_l4Route hu.namespace_ hu.name hu.generation hu.parentRefs readsBack_none hu.backends h with
    ⟨⟨hns, hname, hgeneration, hrefs, -, hbackends, hprogrammed⟩, hrest⟩
  exact ⟨TCPRouteState.ext hns hname hrefs hbackends hprogrammed hgeneration, hrest⟩

structure UDPRouteState.Readable (a b : UDPRouteState) : Prop where
  namespace_ : Short a.namespace_ ∧ Short b.namespace_
  name : Short a.name ∧ Short b.name
  parentRefs : ParentRefsReadable a.parentRefs b.parentRefs
  backends : List.Forall₂ WeightedBackend.Readable a.backends b.backends
  generation : InRange 64 a.generation ∧ InRange 64 b.generation

theorem readsBack_udpRoute : ReadsBack encodeUdpRoute UDPRouteState.Readable (· = ·) := by
  intro a b r s hu h
  rcases readsBack_l4Route hu.namespace_ hu.name hu.generation hu.parentRefs readsBack_none hu.backends h with
    ⟨⟨hns, hname, hgeneration, hrefs, -, hbackends, hprogrammed⟩, hrest⟩
  exact ⟨UDPRouteState.ext hns hname hrefs hbackends hprogrammed hgeneration, hrest⟩

structure TLSRouteState.Readable (a b : TLSRouteState) : Prop where
  namespace_ : Short a.namespace_ ∧ Short b.namespace_
  name : Short a.name ∧ Short b.name
  hostnames : HostnamesReadable a.hostnames b.hostnames
  parentRefs : ParentRefsReadable a.parentRefs b.parentRefs
  backends : List.Forall₂ WeightedBackend.Readable a.backends b.backends
  generation : InRange 64 a.generation ∧ InRange 64 b.generation

theorem readsBack_tlsRoute : ReadsBack encodeTlsRoute TLSRouteState.Readable (· = ·) := by
  intro a b r s hu h
  rcases readsBack_l4Route hu.namespace_ hu.name hu.generation hu.parentRefs (readsBack_hostnames hu.hostnames ·) hu.backends h with
    ⟨⟨hns, hname, hgeneration, hrefs, hhostnames, hbackends, hprogrammed⟩, hrest⟩
  exact ⟨TLSRouteState.ext hns hname hhostnames hrefs hbackends hprogrammed hgeneration, hrest⟩

structure ReconciledView.Readable (v w : ReconciledView) : Prop where
  gateways : SortedAlike gatewayKey GatewayState.Readable v.gateways w.gateways
  listenerSets : SortedAlike listenerSetKey ListenerSetState.Readable v.listenerSets w.listenerSets
  routes : SortedAlike routeKey RouteState.Readable v.routes w.routes
  httpRoutes : SortedAlike httpRouteKey HTTPRouteState.Readable v.httpRoutes w.httpRoutes
  grpcRoutes : v.grpcRoutes = w.grpcRoutes
  tcpRoutes : SortedAlike tcpRouteKey TCPRouteState.Readable v.tcpRoutes w.tcpRoutes
  udpRoutes : SortedAlike udpRouteKey UDPRouteState.Readable v.udpRoutes w.udpRoutes
  tlsRoutes : SortedAlike tlsRouteKey TLSRouteState.Readable v.tlsRoutes w.tlsRoutes
  referenceGrants : SortedAlike referenceGrantKey ReferenceGrantState.Readable v.referenceGrants w.referenceGrants
  namespaceLabels : LabelsReadable v.namespaceLabels w.namespaceLabels
  listenerAllowed : AllowedReadable v.listenerAllowed w.listenerAllowed
  listenerSetAllowed : AllowedReadable v.listenerSetAllowed w.listenerSetAllowed

theorem readsBack_view : ReadsBack encodeView ReconciledView.Readable (· = ·) := by
  intro v w r s hu h
  simp only [encodeView, append_assoc] at h
  obtain ⟨hgateways, h⟩ := readsBack_sorted_eq readsBack_gateway hu.gateways h
  obtain ⟨hsets, h⟩ := readsBack_sorted_eq readsBack_listenerSet hu.listenerSets h
  obtain ⟨hroutes, h⟩ := readsBack_sorted_eq readsBack_route hu.routes h
  obtain ⟨hhttp, h⟩ := readsBack_sorted_eq readsBack_httpRoute hu.httpRoutes h
  obtain ⟨htcp, h⟩ := readsBack_sorted_eq readsBack_tcpRoute hu.tcpRoutes h
  obtain ⟨hudp, h⟩ := readsBack_sorted_eq readsBack_udpRoute hu.udpRoutes h
  obtain ⟨htls, h⟩ := readsBack_sorted_eq readsBack_tlsRoute hu.tlsRoutes h
  obtain ⟨hgrants, h⟩ := readsBack_sorted_eq readsBack_referenceGrant hu.referenceGrants h
  obtain ⟨hlabels, h⟩ := readsBack_namespaceLabels hu.namespaceLabels h
  obtain ⟨hallowed, h⟩ := readsBack_allowedRoutesMap hu.listenerAllowed h
  obtain ⟨hsetAllowed, hrest⟩ := readsBack_allowedRoutesMap hu.listenerSetAllowed h
  refine ⟨?_, hrest⟩
  exact ReconciledView.ext hgateways hsets hhttp hu.grpcRoutes htcp hudp htls hlabels hallowed hsetAllowed hroutes hgrants

end SunbeamProxy.Gateway
