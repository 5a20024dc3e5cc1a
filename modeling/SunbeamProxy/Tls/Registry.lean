/-
Certificates of TLS termination (`tls/registry.rs`).
-/
import SunbeamProxy.IR.L4

namespace SunbeamProxy

open Text

def endLine (s : String) : String := if s.toList.getLast? = some '\n' then s else s ++ "\n"

structure Pki where
  Cert : Type
  /-- `rustls_pemfile::certs`, collected -/
  pemCerts : String → Except String (List Cert)

/-- `str::to_lowercase` of ASCII text, as host names are -/
def toLowercase (s : String) : String := String.ofList (s.toList.map Char.toLower)

structure WildcardPattern where
  suffix : String
deriving DecidableEq, Repr

def WildcardPattern.matches_ (p : WildcardPattern) (host : String) : Bool :=
  match stripEnd (toLowercase host) p.suffix with
  | some label => label ≠ "" && !label.toList.contains '.'
  | none => false

structure CertStore (κ : Type) where
  default : Option κ := none
  exact : HashMap String κ := ∅
  wildcard : List (WildcardPattern × κ) := []

namespace CertStore

variable {κ : Type}

def resolve (store : CertStore κ) (host : String) : Option κ :=
  let normalized := toLowercase host
  match store.exact.get normalized with
  | some cert => some cert
  | none =>
    match store.wildcard.find? fun e => e.1.matches_ normalized with
    | some e => some e.2
    | none => store.default

end CertStore

namespace Pki

variable (pki : Pki)

def parseCertChain (pem : String) : Except String (List pki.Cert) :=
  match pki.pemCerts pem with
  | .error e => .error ("failed to parse certs: " ++ e)
  | .ok [] => .error "no certificates found in PEM"
  | .ok (c :: cs) => .ok (c :: cs)

end Pki

end SunbeamProxy
