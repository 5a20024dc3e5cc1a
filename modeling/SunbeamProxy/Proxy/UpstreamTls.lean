/-
TLS to upstream backends that bring their own CA bundle: `make_peer` (`proxy/mod.rs`) and the connector of
`proxy/upstream_tls.rs`, under Pingora's reuse of connections.

Assumed of what is not in the repository:
- the trust hash tells the trust settings of the requests at hand apart;
- WebPki accepts a certificate only if it chains to the roots and is valid for the name it is asked about (`WebPkiCorrect`).
-/
import SunbeamProxy.Gateway.Endpoints
import SunbeamProxy.Proxy.Upstream

namespace SunbeamProxy

open Option List

def backendAddr (backend : String) : String :=
  Gateway.trimStartMatches "http://" backend.length (Gateway.trimStartMatches "https://" backend.length backend)

def BackendProtocol.isTls : BackendProtocol → Bool
  | .https | .webSocketSecure => true
  | .http | .h2c | .webSocket => false

inductive Alpn where
  | h1 | h2 | h2h1
deriving DecidableEq, Repr

def alpnForProtocol : BackendProtocol → Option Alpn
  | .h2c => some .h2
  | .https | .http | .webSocket | .webSocketSecure => some .h1

inductive GeneralName where
  | dnsName (d : String)
  | ipAddress (octets : List (BitVec 8))
  | uri (u : String)
  | other
deriving DecidableEq, Repr

structure Presented (Cert : Type) where
  endEntity : Cert
  intermediates : List Cert
  ocspResponse : List (BitVec 8)
  now : ℕ

structure TlsStack (Cert Name κ : Type) where
  /-- `rustls_pemfile::certs`, none when one of them fails -/
  pemCerts : String → Option (List Cert)
  /-- what `add_parsable_certificates` keeps -/
  parsable : Cert → Bool
  /-- `ServerName::try_from` -/
  serverName : String → Option Name
  /-- the subject alternative names, none when there are none or the certificate does not parse -/
  generalNames : Cert → Option (List GeneralName)
  ipText : IpAddr → String
  /-- a client certificate and its key that rustls takes -/
  clientAuth : κ → Bool
  /-- `WebPkiServerVerifier::verify_server_cert` for a set of roots -/
  webPki : List Cert → Presented Cert → Name → Bool

inductive TlsError where
  | caBundle | clientAuth | noVerifier | invalidServerName | notValidForName | webPki
deriving DecidableEq, Repr

def ipAddrFromOctets (octets : List (BitVec 8)) : Option IpAddr :=
  let value := octets.foldl (fun acc o => acc * 256 + o.toNat) 0
  if octets.length = 4 then some (.v4 (BitVec.ofNat 32 value))
  else if octets.length = 16 then some (.v6 (BitVec.ofNat 128 value))
  else none

example : ipAddrFromOctets [192, 0, 2, 1] = some (.v4 0xC0000201) ∧ ipAddrFromOctets [1, 2] = none := by decide

variable {Cert Name κ : Type}

namespace TlsStack

variable (stack : TlsStack Cert Name κ)

def nameText : GeneralName → Option String
  | .dnsName d => some d
  | .ipAddress octets => (ipAddrFromOctets octets).map stack.ipText
  | .uri u => some u
  | .other => none

def sanValues (cert : Cert) : List String :=
  ((stack.generalNames cert).getD []).filterMap stack.nameText

def firstServerName (cert : Cert) : Except TlsError Name :=
  match (stack.sanValues cert).head? with
  | none => .error .notValidForName
  | some n =>
    match stack.serverName n with
    | none => .error .invalidServerName
    | some name => .ok name

end TlsStack

structure DynamicUpstreamL4 (κ : Type) where
  sni : String
  verifyHostname : Bool
  verifyCert : Bool
  alternativeCn : Option String
  clientCert : Option κ
  caBundlePem : Option String
  subjectAltNames : List String
  alpn : Option Alpn

structure DynamicVerifier (Cert : Type) where
  roots : List Cert
  domain : Option String
  verifyHostname : Bool
  subjectAltNames : List String

structure ClientConfig (Cert κ : Type) where
  clientCert : Option κ
  verifier : Option (DynamicVerifier Cert)
  alpn : Option Alpn
  enableSni : Bool

inductive Connection (Cert κ : Type) where
  | dynamic (presented : Presented Cert) (offered : Option κ)
  | pingora

def BackendTlsConfig.hostname (tls : BackendTlsConfig) : Option String :=
  tls.alternativeCn.or (if tls.sni = "" then none else some tls.sni)

namespace DynamicUpstreamL4

def new (tls : BackendTlsConfig) (clientCert : Option κ) (alpn : Option Alpn) : DynamicUpstreamL4 κ where
  sni := tls.sni
  verifyHostname := tls.verifyHostname
  verifyCert := true
  alternativeCn := tls.alternativeCn
  clientCert := clientCert
  caBundlePem := tls.caBundlePem
  subjectAltNames := tls.subjectAltNames
  alpn := alpn

def verifyDomain (cfg : DynamicUpstreamL4 κ) : Option String :=
  match cfg.alternativeCn with
  | some alt => some alt
  | none => if cfg.sni = "" then none else some cfg.sni

def trustHash (hash : Option String × List String → UInt64) (cfg : DynamicUpstreamL4 κ) : UInt64 :=
  hash (cfg.caBundlePem, cfg.subjectAltNames)

def roots (stack : TlsStack Cert Name κ) (cfg : DynamicUpstreamL4 κ) : Except TlsError (List Cert) :=
  match cfg.caBundlePem with
  | none => .ok []
  | some pem =>
    match stack.pemCerts pem with
    | none => .error .caBundle
    | some certs => .ok (certs.filter stack.parsable)

def buildClientConfig (stack : TlsStack Cert Name κ) (cfg : DynamicUpstreamL4 κ) :
    Except TlsError (ClientConfig Cert κ) := do
  let roots ← cfg.roots stack
  if cfg.clientCert.any (!stack.clientAuth ·) then .error .clientAuth
  -- the delegate is not built without a root
  else if cfg.verifyCert && roots.isEmpty then .error .noVerifier
  else
    .ok {
      clientCert := cfg.clientCert
      verifier := if cfg.verifyCert then some ⟨roots, cfg.verifyDomain, cfg.verifyHostname, cfg.subjectAltNames⟩ else none
      alpn := cfg.alpn
      enableSni := cfg.verifyDomain.isSome }

end DynamicUpstreamL4

namespace DynamicVerifier

def nameFor (stack : TlsStack Cert Name κ) (v : DynamicVerifier Cert) (cert : Cert) : Except TlsError Name :=
  if v.verifyHostname then
    match v.domain with
    | some domain =>
      match stack.serverName domain with
      | some name => .ok name
      | none => .error .invalidServerName
    | none => stack.firstServerName cert
  else stack.firstServerName cert

def verifyServerCert (stack : TlsStack Cert Name κ) (v : DynamicVerifier Cert) (p : Presented Cert) :
    Except TlsError Unit := do
  let name ← v.nameFor stack p.endEntity
  if !stack.webPki v.roots p name then .error .webPki
  else if !v.subjectAltNames.isEmpty && !(stack.sanValues p.endEntity).any (v.subjectAltNames.contains ·) then
    .error .notValidForName
  else .ok ()

end DynamicVerifier

variable (stack : TlsStack Cert Name κ)

def DynamicUpstreamL4.connect (cfg : DynamicUpstreamL4 κ) (p : Presented Cert) :
    Except TlsError (Connection Cert κ) := do
  let config ← cfg.buildClientConfig stack
  if (stack.serverName (cfg.verifyDomain.getD "localhost")).isNone then .error .invalidServerName
  else
    match config.verifier with
    | some v => do
      v.verifyServerCert stack p
      .ok (.dynamic p config.clientCert)
    | none => .ok (.dynamic p config.clientCert)

inductive PeerScheme where
  | http | https
deriving DecidableEq, Repr

structure ReuseKey (κ : Type) where
  address : SocketAddr
  scheme : PeerScheme
  sni : String
  clientCertKey : Option κ
  verifyCert : Bool
  verifyHostname : Bool
  alternativeCn : Option String
  groupKey : UInt64
deriving DecidableEq

structure HttpPeer (κ : Type) extends ReuseKey κ where
  connectionTimeout : ℕ
  readTimeout : ℕ
  writeTimeout : ℕ
  alpn : Alpn
  customL4 : Option (DynamicUpstreamL4 κ)

def HttpPeer.new (address : SocketAddr) (tls : Bool) (sni : String) (timeout : Option ℕ) : HttpPeer κ where
  address := address
  scheme := if tls then .https else .http
  sni := sni
  clientCertKey := none
  verifyCert := true
  verifyHostname := true
  alternativeCn := none
  groupKey := 0
  connectionTimeout := 10
  readTimeout := timeout.getD 60
  writeTimeout := timeout.getD 60
  alpn := .h1
  customL4 := none

def HttpPeer.withTls (peer : HttpPeer κ) (tls : BackendTlsConfig) (clientCert : Option κ) : HttpPeer κ :=
  { peer with
    verifyHostname := tls.verifyHostname
    alternativeCn := tls.alternativeCn.or peer.alternativeCn
    clientCertKey := clientCert.or peer.clientCertKey }

variable (hash : Option String × List String → UInt64)

def HttpPeer.withConnector (peer : HttpPeer κ) (tls : BackendTlsConfig)
    (clientCert : Option κ) : HttpPeer κ :=
  let connector := DynamicUpstreamL4.new tls clientCert (some peer.alpn)
  { peer with groupKey := connector.trustHash hash, customL4 := some connector, scheme := .http }

def peerAt (sa : SocketAddr) (req : PeerRequest κ) : HttpPeer κ :=
  let peer := HttpPeer.new sa req.protocol.isTls ((req.tls.map (·.sni)).getD "") req.timeout
  let alpn := (alpnForProtocol req.protocol).getD peer.alpn
  match req.protocol.isTls, req.tls with
  | true, some tls =>
    let peer := { peer.withTls tls req.clientCert with alpn }
    if tls.caBundlePem.isSome then peer.withConnector hash tls req.clientCert else peer
  | _, _ => { peer with alpn }

def makePeer (lookupHost : String → Option (List SocketAddr))
    (req : PeerRequest κ) : Option (HttpPeer κ) := do
  let addrs ← lookupHost (backendAddr req.backend)
  let sa ← addrs.head?
  if req.protocol.isTls && req.tls.isNone then none else some (peerAt hash sa req)

/-- the peer is reached over TLS with a CA bundle -/
structure PeerRequest.Policed (req : PeerRequest κ) (tls : BackendTlsConfig) : Prop where
  overTls : req.protocol.isTls = true
  hasTls : req.tls = some tls
  hasBundle : tls.caBundlePem.isSome = true

variable {hash : Option String × List String → UInt64} {lookupHost lookupHost' : String → Option (List SocketAddr)}
variable {req req' : PeerRequest κ} {tls tls' : BackendTlsConfig} {peer peer' : HttpPeer κ}

theorem makePeer_policed (hpoliced : req.Policed tls) (h : makePeer hash lookupHost req = some peer) :
    peer.toReuseKey = ⟨peer.address, .http, tls.sni, req.clientCert, true, tls.verifyHostname, tls.alternativeCn,
        hash (tls.caBundlePem, tls.subjectAltNames)⟩
      ∧ ∃ alpn, peer.customL4 = some (.new tls req.clientCert alpn) := by
  simp only [makePeer, bind_eq_bind, bind_eq_some_iff] at h
  obtain ⟨addrs, -, sa, -, h⟩ := h
  rw [hpoliced.hasTls, isNone_some, Bool.and_false] at h
  rw [← some.inj h]
  simp only [peerAt, hpoliced.overTls, hpoliced.hasTls, hpoliced.hasBundle]
  simp [HttpPeer.withConnector, HttpPeer.withTls, HttpPeer.new, DynamicUpstreamL4.trustHash, DynamicUpstreamL4.new]

/-- the peers are to be verified in the same way -/
structure SamePolicy (req req' : PeerRequest κ) (tls tls' : BackendTlsConfig) : Prop where
  sni : tls.sni = tls'.sni
  verifyHostname : tls.verifyHostname = tls'.verifyHostname
  alternativeCn : tls.alternativeCn = tls'.alternativeCn
  caBundlePem : tls.caBundlePem = tls'.caBundlePem
  subjectAltNames : tls.subjectAltNames = tls'.subjectAltNames
  clientCert : req.clientCert = req'.clientCert

theorem reuseKey_policy (hpoliced : req.Policed tls) (hpoliced' : req'.Policed tls')
    (h : makePeer hash lookupHost req = some peer) (h' : makePeer hash lookupHost' req' = some peer')
    (hkey : peer.toReuseKey = peer'.toReuseKey)
    (hinj : hash (tls.caBundlePem, tls.subjectAltNames) = hash (tls'.caBundlePem, tls'.subjectAltNames) →
      (tls.caBundlePem, tls.subjectAltNames) = (tls'.caBundlePem, tls'.subjectAltNames)) :
    SamePolicy req req' tls tls' := by
  rw [(makePeer_policed hpoliced h).1, (makePeer_policed hpoliced' h').1, ReuseKey.mk.injEq] at hkey
  obtain ⟨-, -, hsni, hclient, -, hverify, halt, hgroup⟩ := hkey
  have htrust := hinj hgroup
  rw [Prod.mk.injEq] at htrust
  exact ⟨hsni, hverify, halt, htrust.1, htrust.2, hclient⟩

/-! ## Policies and handshakes -/

structure UpstreamPki (Cert Name : Type) where
  ChainsTo : List Cert → Presented Cert → Prop
  ValidFor : Cert → Name → Prop

/-- what `webpki` accepts chains to a root and is valid for the name -/
structure WebPkiCorrect (stack : TlsStack Cert Name κ) (pki : UpstreamPki Cert Name) : Prop where
  chains : ∀ roots p name, stack.webPki roots p name = true → pki.ChainsTo roots p
  valid : ∀ roots p name, stack.webPki roots p name = true → pki.ValidFor p.endEntity name

/-- the certificates presented are those the policy asks for -/
structure MeetsPolicy (stack : TlsStack Cert Name κ) (pki : UpstreamPki Cert Name) (tls : BackendTlsConfig) (p : Presented Cert) :
    Prop where
  bundle : ∃ pem certs, tls.caBundlePem = some pem ∧ stack.pemCerts pem = some certs
    ∧ pki.ChainsTo (certs.filter stack.parsable) p
  name : tls.verifyHostname = true → ∀ host, tls.hostname = some host →
    ∃ name, stack.serverName host = some name ∧ pki.ValidFor p.endEntity name
  altNames : tls.subjectAltNames ≠ [] → ∃ s ∈ tls.subjectAltNames, s ∈ stack.sanValues p.endEntity

/-- the connection was made under the policy of the request's backend, with its client certificate -/
def Authenticated (pki : UpstreamPki Cert Name) (req : PeerRequest κ) (tls : BackendTlsConfig)
    (conn : Connection Cert κ) : Prop :=
  ∃ p, conn = .dynamic p req.clientCert ∧ MeetsPolicy stack pki tls p

section Handshake

variable {stack : TlsStack Cert Name κ} {pki : UpstreamPki Cert Name} {p : Presented Cert} {conn : Connection Cert κ}

theorem verifyDomain_new (clientCert : Option κ) (alpn : Option Alpn) :
    (DynamicUpstreamL4.new tls clientCert alpn).verifyDomain = tls.hostname := by
  unfold DynamicUpstreamL4.verifyDomain BackendTlsConfig.hostname DynamicUpstreamL4.new
  cases tls.alternativeCn <;> rfl

theorem verifyServerCert_ok {v : DynamicVerifier Cert} (h : v.verifyServerCert stack p = .ok ()) :
    ∃ name, v.nameFor stack p.endEntity = .ok name ∧ stack.webPki v.roots p name = true
      ∧ (v.subjectAltNames ≠ [] → ∃ s ∈ v.subjectAltNames, s ∈ stack.sanValues p.endEntity) := by
  obtain ⟨name, hname, h⟩ := bind_ok h
  split_ifs at h with hweb hnames
  refine ⟨name, hname, by simpa using hweb, ?_⟩
  intro hne
  simp only [Bool.and_eq_true, Bool.not_eq_true', isEmpty_eq_false_iff, not_and, Bool.not_eq_false] at hnames
  obtain ⟨s, hs, hlisted⟩ := any_eq_true.1 (hnames hne)
  exact ⟨s, contains_iff_mem.1 hlisted, hs⟩

theorem nameFor_domain {v : DynamicVerifier Cert} {cert : Cert} {name : Name} {host : String}
    (h : v.nameFor stack cert = .ok name) (hverify : v.verifyHostname = true) (hdomain : v.domain = some host) :
    stack.serverName host = some name := by
  simp only [DynamicVerifier.nameFor, hverify, hdomain, if_true] at h
  cases hname : stack.serverName host with
  | none => simp [hname] at h
  | some n =>
    simp only [hname, Except.ok.injEq] at h
    rw [h]

theorem buildClientConfig_ok {cfg : DynamicUpstreamL4 κ} {config : ClientConfig Cert κ}
    (h : cfg.buildClientConfig stack = .ok config) (hcert : cfg.verifyCert = true) :
    ∃ roots, cfg.roots stack = .ok roots ∧ config.clientCert = cfg.clientCert
      ∧ config.verifier = some ⟨roots, cfg.verifyDomain, cfg.verifyHostname, cfg.subjectAltNames⟩ := by
  obtain ⟨roots, hroots, h⟩ := bind_ok h
  split_ifs at h
  rw [← Except.ok.inj h]
  exact ⟨roots, hroots, rfl, rfl⟩

theorem roots_ok {cfg : DynamicUpstreamL4 κ} {roots : List Cert} (h : cfg.roots stack = .ok roots)
    (hbundle : cfg.caBundlePem.isSome = true) :
    ∃ pem certs, cfg.caBundlePem = some pem ∧ stack.pemCerts pem = some certs ∧ roots = certs.filter stack.parsable := by
  obtain ⟨pem, hpem⟩ := isSome_iff_exists.1 hbundle
  simp only [DynamicUpstreamL4.roots, hpem] at h
  cases hcerts : stack.pemCerts pem with
  | none => simp [hcerts] at h
  | some certs =>
    simp only [hcerts, Except.ok.injEq] at h
    exact ⟨pem, certs, hpem, hcerts, h.symm⟩

theorem connect_authenticated (hpki : WebPkiCorrect stack pki) (hbundle : tls.caBundlePem.isSome = true) {alpn : Option Alpn}
    (h : (DynamicUpstreamL4.new tls req.clientCert alpn).connect stack p = .ok conn) :
    Authenticated stack pki req tls conn := by
  obtain ⟨config, hconfig, h⟩ := bind_ok h
  obtain ⟨roots, hroots, hclient, hverifier⟩ := buildClientConfig_ok hconfig rfl
  obtain ⟨pem, certs, hpem, hcerts, rfl⟩ := roots_ok hroots hbundle
  split_ifs at h
  rw [hverifier] at h
  obtain ⟨_, hverified, h⟩ := bind_ok h
  obtain ⟨name, hname, hweb, hnames⟩ := verifyServerCert_ok hverified
  refine ⟨p, ?_, ⟨pem, certs, hpem, hcerts, hpki.chains _ _ _ hweb⟩, ?_, hnames⟩
  · rw [← Except.ok.inj h, hclient]
    rfl
  · intro hverify host hhost
    rw [← verifyDomain_new req.clientCert alpn] at hhost
    exact ⟨name, nameFor_domain hname hverify hhost, hpki.valid _ _ _ hweb⟩

theorem Authenticated.of_samePolicy (hsame : SamePolicy req req' tls tls') (h : Authenticated stack pki req tls conn) :
    Authenticated stack pki req' tls' conn := by
  obtain ⟨p, hconn, hbundle, hname, hnames⟩ := h
  have hhostname : tls.hostname = tls'.hostname := by
    simp [BackendTlsConfig.hostname, hsame.sni, hsame.alternativeCn]
  rw [hsame.caBundlePem] at hbundle
  rw [hsame.verifyHostname, hhostname] at hname
  rw [hsame.subjectAltNames] at hnames
  rw [hsame.clientCert] at hconn
  exact ⟨p, hconn, hbundle, hname, hnames⟩

end Handshake

/-- a request is sent on a new connection, to a server that presents a certificate, or on an open one; a connection may be
shared, and may close at any time -/
inductive ConnEvent (Cert κ : Type) where
  | connect (req : PeerRequest κ) (lookupHost : String → Option (List SocketAddr)) (presented : Presented Cert)
  | reuse (req : PeerRequest κ) (lookupHost : String → Option (List SocketAddr)) (i : ℕ)
  | close (i : ℕ)

def ConnEvent.request? : ConnEvent Cert κ → Option (PeerRequest κ)
  | .connect req _ _ | .reuse req _ _ => some req
  | .close _ => none

structure ConnSystem (Cert κ : Type) where
  connections : List (ReuseKey κ × Connection Cert κ) := []
  sent : List (PeerRequest κ × Connection Cert κ) := []

def HttpPeer.open? (peer : HttpPeer κ) (p : Presented Cert) : Option (Connection Cert κ) :=
  match peer.customL4 with
  | some l4 => (l4.connect stack p).toOption
  | none => some .pingora

namespace ConnSystem

variable [DecidableEq κ]

def step (stack : TlsStack Cert Name κ) (hash : Option String × List String → UInt64) (s : ConnSystem Cert κ) :
    ConnEvent Cert κ → ConnSystem Cert κ
  | .connect req lookupHost presented =>
    match makePeer hash lookupHost req with
    | none => s
    | some peer =>
      match peer.open? stack presented with
      | none => s
      | some conn => ⟨(peer.toReuseKey, conn) :: s.connections, (req, conn) :: s.sent⟩
  | .reuse req lookupHost i =>
    match makePeer hash lookupHost req, s.connections[i]? with
    | some peer, some (key, conn) => if key = peer.toReuseKey then { s with sent := (req, conn) :: s.sent } else s
    | _, _ => s
  | .close i => { s with connections := s.connections.eraseIdx i }

def run (stack : TlsStack Cert Name κ) (hash : Option String × List String → UInt64) (s : ConnSystem Cert κ)
    (events : List (ConnEvent Cert κ)) : ConnSystem Cert κ :=
  events.foldl (step stack hash) s

theorem step_cases {stack : TlsStack Cert Name κ} (s : ConnSystem Cert κ) (e : ConnEvent Cert κ) :
    (∃ req lookupHost presented peer conn, e.request? = some req ∧ makePeer hash lookupHost req = some peer
        ∧ peer.open? stack presented = some conn
        ∧ s.step stack hash e = ⟨(peer.toReuseKey, conn) :: s.connections, (req, conn) :: s.sent⟩)
      ∨ (∃ req lookupHost peer conn, e.request? = some req ∧ makePeer hash lookupHost req = some peer
        ∧ (peer.toReuseKey, conn) ∈ s.connections ∧ s.step stack hash e = { s with sent := (req, conn) :: s.sent })
      ∨ ∃ kept, kept.Sublist s.connections ∧ s.step stack hash e = { s with connections := kept } := by
  have hstay : ∃ kept, kept.Sublist s.connections ∧ s = { s with connections := kept } := ⟨_, .refl _, rfl⟩
  cases e with
  | connect req lookupHost presented =>
    simp only [step]
    cases hpeer : makePeer hash lookupHost req with
    | none => exact .inr (.inr hstay)
    | some peer =>
      cases hopen : peer.open? stack presented with
      | none => exact .inr (.inr (by simpa [hopen] using hstay))
      | some conn => exact .inl ⟨req, lookupHost, presented, peer, conn, rfl, hpeer, hopen, by simp [hopen]⟩
  | reuse req lookupHost i =>
    simp only [step]
    cases hpeer : makePeer hash lookupHost req with
    | none => exact .inr (.inr hstay)
    | some peer =>
      cases hget : s.connections[i]? with
      | none => exact .inr (.inr hstay)
      | some entry =>
        obtain ⟨key, conn⟩ := entry
        by_cases hkey : key = peer.toReuseKey
        · subst hkey
          exact .inr (.inl ⟨req, lookupHost, peer, conn, rfl, hpeer, mem_of_getElem? hget, by simp⟩)
        · exact .inr (.inr (by simpa [hkey] using hstay))
  | close i => exact .inr (.inr ⟨_, eraseIdx_sublist _ i, rfl⟩)

end ConnSystem

def trustSettings (events : List (ConnEvent Cert κ)) : Set (Option String × List String) :=
  {t | ∃ e ∈ events, ∃ req tls, e.request? = some req ∧ req.tls = some tls ∧ t = (tls.caBundlePem, tls.subjectAltNames)}

/-- the peer is verified by settings that occur among the events -/
def Asked (events : List (ConnEvent Cert κ)) (req : PeerRequest κ) (tls : BackendTlsConfig) : Prop :=
  req.Policed tls ∧ (tls.caBundlePem, tls.subjectAltNames) ∈ trustSettings events

/-- each open connection is authenticated for a request with its key, and each request was sent on one that is for it -/
structure ConnInv (stack : TlsStack Cert Name κ) (pki : UpstreamPki Cert Name) (hash : Option String × List String → UInt64)
    (events : List (ConnEvent Cert κ)) (s : ConnSystem Cert κ) : Prop where
  connections : ∀ key conn, (key, conn) ∈ s.connections →
    ∃ req tls lookupHost peer, Asked events req tls ∧ makePeer hash lookupHost req = some peer ∧ peer.toReuseKey = key
      ∧ Authenticated stack pki req tls conn
  sent : ∀ req conn, (req, conn) ∈ s.sent → ∃ tls, req.Policed tls ∧ Authenticated stack pki req tls conn

section Runs

variable {stack : TlsStack Cert Name κ} {pki : UpstreamPki Cert Name} {events : List (ConnEvent Cert κ)}

theorem open_authenticated (hpki : WebPkiCorrect stack pki) (hpoliced : req.Policed tls)
    (hpeer : makePeer hash lookupHost req = some peer) {p : Presented Cert} {conn : Connection Cert κ}
    (hopen : peer.open? stack p = some conn) : Authenticated stack pki req tls conn := by
  obtain ⟨alpn, hl4⟩ := (makePeer_policed hpoliced hpeer).2
  simp only [HttpPeer.open?, hl4] at hopen
  cases hconnect : (DynamicUpstreamL4.new tls req.clientCert alpn).connect stack p with
  | error err => simp [hconnect, Except.toOption] at hopen
  | ok opened =>
    obtain rfl : opened = conn := by simpa [hconnect, Except.toOption] using hopen
    exact connect_authenticated hpki hpoliced.hasBundle hconnect

variable [DecidableEq κ]

theorem conn_step_inv (hpki : WebPkiCorrect stack pki) (hinj : Set.InjOn hash (trustSettings events)) {s : ConnSystem Cert κ}
    {e : ConnEvent Cert κ} (hasked : ∀ req, e.request? = some req → ∃ tls, Asked events req tls)
    (hi : ConnInv stack pki hash events s) : ConnInv stack pki hash events (s.step stack hash e) := by
  rcases s.step_cases e with ⟨req, lookupHost, p, peer, conn, hreq, hpeer, hopen, hstep⟩
    | ⟨req, lookupHost, peer, conn, hreq, hpeer, hmem, hstep⟩ | ⟨kept, hkept, hstep⟩
  · obtain ⟨tls, hask⟩ := hasked req hreq
    have hauth := open_authenticated hpki hask.1 hpeer hopen
    rw [hstep]
    refine ⟨?_, ?_⟩
    · intro key conn' hmem
      rcases mem_cons.1 hmem with heq | hold
      · obtain ⟨rfl, rfl⟩ := Prod.mk.inj heq
        exact ⟨req, tls, lookupHost, peer, hask, hpeer, rfl, hauth⟩
      · exact hi.connections key conn' hold
    · intro req' conn' hmem
      rcases mem_cons.1 hmem with heq | hold
      · obtain ⟨rfl, rfl⟩ := Prod.mk.inj heq
        exact ⟨tls, hask.1, hauth⟩
      · exact hi.sent req' conn' hold
  · obtain ⟨tls, hask⟩ := hasked req hreq
    obtain ⟨opener, tls', lookupHost', peer', hopener, hpeer', hkey, hauth⟩ := hi.connections _ _ hmem
    have hsame := reuseKey_policy hopener.1 hask.1 hpeer' hpeer hkey (hinj hopener.2 hask.2)
    rw [hstep]
    refine ⟨hi.connections, ?_⟩
    intro req' conn' hmem'
    rcases mem_cons.1 hmem' with heq | hold
    · obtain ⟨rfl, rfl⟩ := Prod.mk.inj heq
      exact ⟨tls, hask.1, hauth.of_samePolicy hsame⟩
    · exact hi.sent req' conn' hold
  · rw [hstep]
    exact ⟨fun key conn hmem => hi.connections key conn (hkept.subset hmem), hi.sent⟩

theorem conn_run_inv (hpki : WebPkiCorrect stack pki) (hinj : Set.InjOn hash (trustSettings events))
    {rest : List (ConnEvent Cert κ)} (hasked : ∀ e ∈ rest, ∀ req, e.request? = some req → ∃ tls, Asked events req tls)
    {s : ConnSystem Cert κ} (hi : ConnInv stack pki hash events s) :
    ConnInv stack pki hash events (s.run stack hash rest) := by
  induction rest generalizing s with
  | nil => exact hi
  | cons e rest ih =>
    rw [forall_mem_cons] at hasked
    exact ih hasked.2 (conn_step_inv hpki hinj hasked.1 hi)

end Runs

/-- **Own policy.** In every run of connecting and reusing, a request is sent only on a connection that was made under the policy
of its own backend, its names included, and with the backend's client certificate. -/
theorem sent_under_own_policy [DecidableEq κ] (stack : TlsStack Cert Name κ) (pki : UpstreamPki Cert Name)
    (hash : Option String × List String → UInt64) (events : List (ConnEvent Cert κ)) (hpki : WebPkiCorrect stack pki)
    (hinj : Set.InjOn hash (trustSettings events))
    (hpoliced : ∀ e ∈ events, ∀ req, e.request? = some req → ∃ tls, req.Policed tls) :
    ∀ req conn, (req, conn) ∈ (ConnSystem.run stack hash {} events).sent →
      ∃ tls, req.tls = some tls ∧ Authenticated stack pki req tls conn := by
  have hstart : ConnInv stack pki hash events {} := ⟨by simp, by simp⟩
  have hasked : ∀ e ∈ events, ∀ req, e.request? = some req → ∃ tls, Asked events req tls := by
    intro e he req hreq
    obtain ⟨tls, htls⟩ := hpoliced e he req hreq
    exact ⟨tls, htls, e, he, req, tls, hreq, htls.hasTls, rfl⟩
  intro req conn hmem
  obtain ⟨tls, htls, hauth⟩ := (conn_run_inv hpki hinj hasked hstart).sent req conn hmem
  exact ⟨tls, htls.hasTls, hauth⟩

structure DemoCert where
  issuer : String
  names : List String
deriving DecidableEq, Repr

def demoStack : TlsStack DemoCert String String where
  pemCerts pem := some [⟨pem, []⟩]
  parsable _ := true
  serverName s := if s = "" then none else some s
  generalNames cert := some (cert.names.map .dnsName)
  ipText _ := ""
  clientAuth _ := true
  webPki roots p name := roots.any (·.issuer == p.endEntity.issuer) && p.endEntity.names.contains name

def demoPki : UpstreamPki DemoCert String where
  ChainsTo roots p := ∃ r ∈ roots, r.issuer = p.endEntity.issuer
  ValidFor cert name := name ∈ cert.names

theorem demo_webPkiCorrect : WebPkiCorrect demoStack demoPki where
  chains roots p name h := by
    have hroot := (Bool.and_eq_true_iff.1 h).1
    simpa [demoPki] using hroot
  valid roots p name h := by
    have hname := (Bool.and_eq_true_iff.1 h).2
    simpa [demoPki] using hname

def demoRequest (tls : BackendTlsConfig) : PeerRequest String := { backend := "https://10.0.0.1:443", protocol := .https, tls }

def demoLookup (_ : String) : Option (List SocketAddr) := some [⟨.v4 0x0A000001, 443⟩]

def presenting (issuer : String) (names : List String) : Presented DemoCert := ⟨⟨issuer, names⟩, [], [], 0⟩

def shopTls : BackendTlsConfig := { sni := "shop.internal", verifyHostname := true, caBundlePem := some "shop-ca" }

def blogTls : BackendTlsConfig := { sni := "shop.internal", verifyHostname := true, caBundlePem := some "blog-ca" }

def demoHash (t : Option String × List String) : UInt64 := if t.1 = some "shop-ca" then 1 else 2

def demoEvents : List (ConnEvent DemoCert String) :=
  [.connect (demoRequest shopTls) demoLookup (presenting "shop-ca" ["shop.internal"]),
    .reuse (demoRequest blogTls) demoLookup 0,
    .connect (demoRequest blogTls) demoLookup (presenting "blog-ca" ["shop.internal"]),
    .reuse (demoRequest shopTls) demoLookup 1]

theorem shop_and_blog_own_policies : (ConnSystem.run demoStack demoHash {} demoEvents).sent.length = 3
      ∧ ∀ req conn, (req, conn) ∈ (ConnSystem.run demoStack demoHash {} demoEvents).sent →
        ∃ tls, req.tls = some tls ∧ Authenticated demoStack demoPki req tls conn := by
  have hrequests : ∀ e ∈ demoEvents, ∀ req, e.request? = some req → req = demoRequest shopTls ∨ req = demoRequest blogTls := by
    intro e he req hreq
    simp only [demoEvents, mem_cons, not_mem_nil, or_false] at he
    rcases he with rfl | rfl | rfl | rfl
    · exact .inl (some.inj hreq).symm
    · exact .inr (some.inj hreq).symm
    · exact .inr (some.inj hreq).symm
    · exact .inl (some.inj hreq).symm
  have hsettings : ∀ t ∈ trustSettings demoEvents, t = (some "shop-ca", []) ∨ t = (some "blog-ca", []) := by
    rintro t ⟨e, he, req, tls, hreq, htls, rfl⟩
    rcases hrequests e he req hreq with rfl | rfl
    · obtain rfl := some.inj htls
      exact .inl rfl
    · obtain rfl := some.inj htls
      exact .inr rfl
  have hinj : Set.InjOn demoHash (trustSettings demoEvents) := by
    intro t ht t' ht' heq
    rcases hsettings t ht with rfl | rfl <;> rcases hsettings t' ht' with rfl | rfl
    · rfl
    · exact absurd heq (by decide)
    · exact absurd heq (by decide)
    · rfl
  refine ⟨by decide +kernel, sent_under_own_policy demoStack demoPki demoHash demoEvents demo_webPkiCorrect hinj ?_⟩
  intro e he req hreq
  rcases hrequests e he req hreq with rfl | rfl
  · exact ⟨shopTls, rfl, rfl, rfl⟩
  · exact ⟨blogTls, rfl, rfl, rfl⟩

theorem unverified_name_accepted :
    ∃ conn, (demoRequest { shopTls with verifyHostname := false }, conn) ∈ (ConnSystem.run demoStack demoHash {}
        [.connect (demoRequest { shopTls with verifyHostname := false }) demoLookup
          (presenting "shop-ca" ["other.internal"])]).sent
      ∧ ∀ p offered, conn = .dynamic p offered → ¬demoPki.ValidFor p.endEntity "shop.internal" := by
  refine ⟨.dynamic (presenting "shop-ca" ["other.internal"]) none, ?_, ?_⟩
  · exact mem_singleton.2 rfl
  · intro p offered h
    obtain ⟨rfl, -⟩ := Connection.dynamic.inj h
    simp [demoPki, presenting]

end SunbeamProxy
