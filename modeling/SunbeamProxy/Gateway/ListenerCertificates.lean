/-
Which certificate a TLS handshake is answered with (`CertStore::resolve` in `tls/registry.rs` over the store of
`build_gateway_cert_store` in `tls/source.rs`), compared with the listener the L4 router takes the connection to.
-/
import SunbeamProxy.Gateway.Tick
import SunbeamProxy.L4.TlsRoutes

namespace SunbeamProxy.Gateway

open Text List

namespace CertSlot

def takes (s : String) : CertSlot → Bool
  | .default => true
  | .exact host => host = s
  | .wildcard pattern => pattern.matches_ s

def rank : CertSlot → ℕ
  | .default => 0
  | .wildcard _ => 1
  | .exact _ => 2

end CertSlot

section Store

variable {κ : Type}

def LoadedCert.keyIn (slot : CertSlot) (c : LoadedCert κ) : Option κ := if c.slot = slot then some c.key else none

def LoadedCert.wildcardEntry (c : LoadedCert κ) : Option (WildcardPattern × κ) :=
  match c.slot with
  | .wildcard pattern => some (pattern, c.key)
  | _ => none

variable {slot : CertSlot} {c : LoadedCert κ}

theorem LoadedCert.keyIn_eq_some {key : κ} : c.keyIn slot = some key ↔ c.slot = slot ∧ c.key = key := by
  rw [keyIn]
  split_ifs with h <;> simp [h]

theorem LoadedCert.wildcardEntry_eq_some {e : WildcardPattern × κ} :
    c.wildcardEntry = some e ↔ c.slot = .wildcard e.1 ∧ c.key = e.2 := by
  rw [wildcardEntry]
  split
  · rename_i pattern hslot
    simp [hslot, Prod.ext_iff]
  · rename_i hslot
    simp only [reduceCtorEq, false_iff, not_and]
    exact fun h => absurd h (hslot _)

def latestKey (certs : List (LoadedCert κ)) (slot : CertSlot) : Option κ := certs.reverse.findSome? (·.keyIn slot)

variable {certs : List (LoadedCert κ)} {s : String}

theorem latestKey_eq_none_iff : latestKey certs slot = none ↔ ∀ c ∈ certs, c.slot ≠ slot := by simp [latestKey, LoadedCert.keyIn]

theorem exists_of_latestKey {key : κ} (h : latestKey certs slot = some key) : ∃ c ∈ certs, c.slot = slot ∧ c.key = key := by
  obtain ⟨c, hc, hkey⟩ := exists_of_findSome?_eq_some h
  exact ⟨c, mem_reverse.1 hc, LoadedCert.keyIn_eq_some.1 hkey⟩

theorem exact_store (certs : List (LoadedCert κ)) (host : String) :
    (certs.foldl putCert {}).exact.get host = latestKey certs (.exact host) := by
  have hstep : ∀ (store : CertStore κ) (c : LoadedCert κ),
      (putCert store c).exact.get host = (c.keyIn (.exact host)).or (store.exact.get host) := by
    intro store c
    obtain ⟨slot, key⟩ := c
    cases slot with
    | default | wildcard pattern => rfl
    | exact name =>
      simp only [putCert, HashMap.get_insert, LoadedCert.keyIn, CertSlot.exact.injEq, eq_comm]
      split_ifs <;> rfl
  have hfold := foldl_latest (fun store : CertStore κ => store.exact.get host) hstep certs {}
  rwa [HashMap.get_empty, Option.or_none] at hfold

theorem default_store (certs : List (LoadedCert κ)) : (certs.foldl putCert {}).default = latestKey certs .default := by
  have hstep : ∀ (store : CertStore κ) (c : LoadedCert κ), (putCert store c).default = (c.keyIn .default).or store.default := by
    intro store c
    obtain ⟨slot, key⟩ := c
    cases slot <;> rfl
  have hfold := foldl_latest (fun store : CertStore κ => store.default) hstep certs {}
  rwa [Option.or_none] at hfold

theorem wildcard_foldl (certs : List (LoadedCert κ)) (store : CertStore κ) :
    (certs.foldl putCert store).wildcard = store.wildcard ++ certs.filterMap LoadedCert.wildcardEntry := by
  induction certs generalizing store with
  | nil => simp
  | cons c certs ih =>
    rw [foldl_cons, ih]
    obtain ⟨slot, key⟩ := c
    cases slot <;> simp [putCert, LoadedCert.wildcardEntry, filterMap_cons]

theorem mem_wildcard_iff {e : WildcardPattern × κ} :
    e ∈ (certs.foldl putCert {}).wildcard ↔ ∃ c ∈ certs, c.slot = .wildcard e.1 ∧ c.key = e.2 := by
  simp [wildcard_foldl, mem_filterMap, LoadedCert.wildcardEntry_eq_some]

theorem CertSlot.takes_cases (h : slot.takes s = true) :
    slot = .exact s ∨ (∃ pattern, slot = .wildcard pattern ∧ pattern.matches_ s = true) ∨ slot = .default := by
  cases slot with
  | default => exact .inr (.inr rfl)
  | exact host => exact .inl (by simpa [takes] using h)
  | wildcard pattern => exact .inr (.inl ⟨pattern, rfl, h⟩)

theorem CertSlot.rank_le (slot : CertSlot) : slot.rank ≤ 2 := by cases slot <;> simp [rank]

theorem resolve_cases (certs : List (LoadedCert κ)) (hs : toLowercase s = s) :
    (∃ c ∈ certs, c.slot = .exact s ∧ (certs.foldl putCert {}).resolve s = some c.key) ∨ ((∀ c ∈ certs, c.slot ≠ .exact s)
        ∧ ∃ c ∈ certs, ∃ pattern, c.slot = .wildcard pattern ∧ pattern.matches_ s = true
          ∧ (certs.foldl putCert {}).resolve s = some c.key)
      ∨ ((∀ c ∈ certs, c.slot ≠ .exact s) ∧ (∀ c ∈ certs, ∀ pattern, c.slot = .wildcard pattern → pattern.matches_ s = false)
        ∧ (certs.foldl putCert {}).resolve s = latestKey certs .default) := by
  simp only [CertStore.resolve, hs, exact_store, default_store]
  cases hexact : latestKey certs (.exact s) with
  | some key =>
    obtain ⟨c, hc, hslot, hkey⟩ := exists_of_latestKey hexact
    exact .inl ⟨c, hc, hslot, congrArg some hkey.symm⟩
  | none =>
    have hnone := latestKey_eq_none_iff.1 hexact
    cases hfind : (certs.foldl putCert {}).wildcard.find? fun e => e.1.matches_ s with
    | some e =>
      obtain ⟨c, hc, hslot, hkey⟩ := mem_wildcard_iff.1 (mem_of_find?_eq_some hfind)
      have hmatch := find?_some hfind
      exact .inr (.inl ⟨hnone, c, hc, e.1, hslot, hmatch, congrArg some hkey.symm⟩)
    | none =>
      refine .inr (.inr ⟨hnone, fun c hc pattern hslot => ?_, rfl⟩)
      have hentry := find?_eq_none.1 hfind (pattern, c.key) (mem_wildcard_iff.2 ⟨c, hc, hslot, rfl⟩)
      simpa using hentry

/-- **The best slot.** The certificate shown is one of the slots that take the host, and of the best of them. -/
theorem resolve_best (hs : toLowercase s = s) {key : κ} (h : (certs.foldl putCert {}).resolve s = some key) :
    ∃ c ∈ certs, c.key = key ∧ c.slot.takes s = true ∧ ∀ d ∈ certs, d.slot.takes s = true → d.slot.rank ≤ c.slot.rank := by
  rcases resolve_cases certs hs with ⟨c, hc, hslot, hkey⟩ | ⟨hnone, c, hc, pattern, hslot, hmatch, hkey⟩
    | ⟨hnone, hwild, hkey⟩
  · refine ⟨c, hc, Option.some.inj (hkey.symm.trans h), by simp [hslot, CertSlot.takes], fun d _ _ => ?_⟩
    rw [hslot]
    exact d.slot.rank_le
  · refine ⟨c, hc, Option.some.inj (hkey.symm.trans h), by simpa [hslot, CertSlot.takes] using hmatch, fun d hd htakes => ?_⟩
    rcases CertSlot.takes_cases htakes with hd' | ⟨other, hd', -⟩ | hd'
    · exact absurd hd' (hnone d hd)
    · simp [hd', hslot, CertSlot.rank]
    · simp [hd', CertSlot.rank]
  · obtain ⟨c, hc, hslot, hkey'⟩ := exists_of_latestKey (hkey.symm.trans h)
    refine ⟨c, hc, hkey', by simp [hslot, CertSlot.takes], fun d hd htakes => ?_⟩
    rcases CertSlot.takes_cases htakes with hd' | ⟨pattern, hd', hmatch⟩ | hd'
    · exact absurd hd' (hnone d hd)
    · rw [hwild d hd pattern hd'] at hmatch
      cases hmatch
    · simp [hd', CertSlot.rank]

theorem resolve_isSome (hs : toLowercase s = s) (hc : c ∈ certs) (htakes : c.slot.takes s = true) :
    ∃ key, (certs.foldl putCert {}).resolve s = some key := by
  rcases resolve_cases certs hs with ⟨d, -, -, hkey⟩ | ⟨-, d, -, -, -, -, hkey⟩ | ⟨hnone, hwild, hkey⟩
  · exact ⟨d.key, hkey⟩
  · exact ⟨d.key, hkey⟩
  · rcases CertSlot.takes_cases htakes with hslot | ⟨pattern, hslot, hmatch⟩ | hslot
    · exact absurd hslot (hnone c hc)
    · rw [hwild c hc pattern hslot] at hmatch
      cases hmatch
    · cases hdefault : latestKey certs .default with
      | some key => exact ⟨key, hkey.trans hdefault⟩
      | none => exact absurd hslot (latestKey_eq_none_iff.1 hdefault c hc)

end Store

/-! ## Slots and hostnames -/

def slotOf : SunbeamProxy.HostnameMatch → CertSlot
  | .exact name => if name = "" then .default else .exact name
  | .wildcard suffix => .wildcard ⟨"." ++ suffix⟩
  | _ => .default

theorem certSlot_eq {l : ListenerState} (hlower : ∀ h, l.hostname = some h → toLowercase h = h) :
    certSlot l.hostname = slotOf (irListenerHostname l) := by
  cases hname : l.hostname with
  | none => simp [certSlot, irListenerHostname, hname, slotOf]
  | some h =>
    simp only [certSlot, irListenerHostname, hname, Option.map_some, hlower h hname]
    split_ifs with hempty hstar
    · subst hempty
      rfl
    · obtain ⟨suffix, rfl⟩ := startsWith_iff.1 hstar
      rw [parseListenerHostname, stripStart_eq_some.2 rfl]
      simp only [toIrHostname, slotOf]
      simp
    · have hnone : stripStart h "*." = none := by simp [stripStart, hstar]
      simp [parseListenerHostname, hnone, toIrHostname, slotOf, hempty]

/-- a wildcard takes the name with one label only -/
def OneLabelBelow (s : String) (host : SunbeamProxy.HostnameMatch) : Prop :=
  ∀ suffix, host = .wildcard suffix → ∃ label : String, '.' ∉ label.toList ∧ s = label ++ "." ++ suffix

theorem oneLabelBelow_exact (s name : String) : OneLabelBelow s (.exact name) := by
  intro suffix hwild
  cases hwild

theorem wildcard_matches_iff {s suffix : String} (hs : toLowercase s = s) : WildcardPattern.matches_ ⟨"." ++ suffix⟩ s = true ↔
      ∃ label : String, label ≠ "" ∧ '.' ∉ label.toList ∧ s = label ++ "." ++ suffix := by
  simp only [WildcardPattern.matches_, hs]
  apply Iff.intro
  · intro h
    cases hstrip : stripEnd s ("." ++ suffix) with
    | none => simp [hstrip] at h
    | some label =>
      simp only [hstrip, Bool.and_eq_true, decide_eq_true_eq, Bool.not_eq_true', contains_eq_mem, decide_eq_false_iff_not] at h
      exact ⟨label, h.1, h.2, by rw [stripEnd_eq_some.1 hstrip, String.append_assoc]⟩
  · intro h
    obtain ⟨label, hne, hdot, heq⟩ := h
    have hstrip : stripEnd s ("." ++ suffix) = some label := stripEnd_eq_some.2 (by rw [heq, String.append_assoc])
    simp [hstrip, hne, hdot]

theorem length_le_of_oneLabel {s a b label : String} (hdot : '.' ∉ label.toList) (hs : s = label ++ "." ++ a)
    (hb : irHostnameMatches s (.wildcard b) = true) : b.length ≤ a.length := by
  by_contra hlt
  have ha : '.' :: a.toList <:+ s.toList := ⟨label.toList, by simp [hs]⟩
  have hend := (suffix_cons _ _).trans (wildcard_suffix hb)
  simp only [← String.length_toList] at hlt
  have hinside := suffix_of_suffix_length_le ha hend (by simp only [length_cons]; omega)
  obtain ⟨between, hbetween⟩ := hinside
  obtain ⟨rest, hrest⟩ := wildcard_suffix hb
  -- the label would hold the dot before `b`
  have hlabel : rest ++ '.' :: between = label.toList := by
    have hboth : (rest ++ '.' :: between) ++ '.' :: a.toList = label.toList ++ '.' :: a.toList := by
      calc (rest ++ '.' :: between) ++ '.' :: a.toList = rest ++ '.' :: b.toList := by simp [← hbetween]
        _ = s.toList := hrest
        _ = label.toList ++ '.' :: a.toList := by simp [hs]
    exact append_cancel_right hboth
  exact hdot (by rw [← hlabel]; simp)

def SameName (a b : SunbeamProxy.HostnameMatch) : Prop := a = b ∨ a.level = 0 ∧ b.level = 0

section Hostnames

variable {s : String}

variable {h : HostnameMatch}

theorem takes_slotOf (hs : toLowercase s = s) (htakes : (slotOf (toIrHostname h)).takes s = true) :
    toIrHostname h = .exact s ∧ s ≠ ""
      ∨ (∃ suffix label, toIrHostname h = .wildcard suffix ∧ label ≠ "" ∧ '.' ∉ label.toList ∧ s = label ++ "." ++ suffix)
      ∨ (toIrHostname h).level = 0 := by
  cases h with
  | exact name =>
    by_cases hname : name = ""
    · exact .inr (.inr (if_pos hname))
    · obtain rfl : name = s := by simpa [toIrHostname, slotOf, hname, CertSlot.takes] using htakes
      exact .inl ⟨rfl, hname⟩
  | wildcard suffix =>
    obtain ⟨label, hne, hdot, heq⟩ := (wildcard_matches_iff hs).1 htakes
    exact .inr (.inl ⟨suffix, label, rfl, hne, hdot, heq⟩)
  | any => exact .inr (.inr rfl)

theorem slotOf_takes (hs : toLowercase s = s) (hmatch : irHostnameMatches s (toIrHostname h) = true)
    (hbelow : OneLabelBelow s (toIrHostname h)) : (slotOf (toIrHostname h)).takes s = true := by
  cases h with
  | exact name =>
    obtain rfl : s = name := by simpa [toIrHostname, irHostnameMatches] using hmatch
    by_cases hname : s = "" <;> simp [toIrHostname, slotOf, hname, CertSlot.takes]
  | wildcard suffix =>
    obtain ⟨label, hdot, heq⟩ := hbelow suffix rfl
    obtain ⟨rest, hne, heq'⟩ := (irHostnameMatches_wildcard s suffix).1 hmatch
    have hlabel : rest = label := by
      have hlist := congrArg String.toList (heq'.symm.trans heq)
      simp only [String.toList_append, append_assoc] at hlist
      exact String.toList_inj.1 (append_cancel_right hlist)
    exact (wildcard_matches_iff hs).2 ⟨label, hlabel ▸ hne, hdot, heq⟩
  | any => rfl

theorem rank_slotOf_eq_zero_iff : (slotOf (toIrHostname h)).rank = 0 ↔ (toIrHostname h).level = 0 := by
  cases h with
  | exact name =>
    by_cases hname : name = "" <;> simp [toIrHostname, slotOf, SunbeamProxy.HostnameMatch.level, CertSlot.rank, hname]
  | wildcard suffix | any => simp [toIrHostname, slotOf, SunbeamProxy.HostnameMatch.level, CertSlot.rank]

theorem exact_of_specificity (hs : s ≠ "") (hmatch : irHostnameMatches s (toIrHostname h) = true)
    (hle : (SunbeamProxy.HostnameMatch.exact s).specificity ≤ (toIrHostname h).specificity) : toIrHostname h = .exact s := by
  rw [SunbeamProxy.HostnameMatch.specificity_le_iff] at hle
  cases h with
  | exact name =>
    obtain rfl : s = name := by simpa [toIrHostname, irHostnameMatches] using hmatch
    rfl
  | wildcard suffix | any => simp [toIrHostname, SunbeamProxy.HostnameMatch.level, hs] at hle

theorem specificity_of_oneLabel {suffix label : String} (hdot : '.' ∉ label.toList) (hs : s = label ++ "." ++ suffix)
    (hmatch : irHostnameMatches s (toIrHostname h) = true) (hwild : irHostnameMatches s (.wildcard suffix) = true)
    (hle : (SunbeamProxy.HostnameMatch.wildcard suffix).specificity ≤ (toIrHostname h).specificity) :
    toIrHostname h = .wildcard suffix ∨ toIrHostname h = .exact s ∧ s ≠ "" := by
  rw [SunbeamProxy.HostnameMatch.specificity_le_iff] at hle
  cases h with
  | exact name =>
    obtain rfl : s = name := by simpa [toIrHostname, irHostnameMatches] using hmatch
    by_cases hname : s = ""
    · simp [toIrHostname, SunbeamProxy.HostnameMatch.level, hname] at hle
    · exact .inr ⟨rfl, hname⟩
  | wildcard other =>
    have hlen : suffix.length ≤ other.length := by
      simpa [toIrHostname, SunbeamProxy.HostnameMatch.level, SunbeamProxy.HostnameMatch.extent] using hle
    have heq := wildcard_eq_of_length_eq hmatch hwild (le_antisymm (length_le_of_oneLabel hdot hs hmatch) hlen)
    exact .inl (congrArg _ heq)
  | any => simp [toIrHostname, SunbeamProxy.HostnameMatch.level] at hle

section Best

variable {a b : HostnameMatch} (hs : toLowercase s = s) (htakes : (slotOf (toIrHostname a)).takes s = true)
  (hmatch : irHostnameMatches s (toIrHostname b) = true)
  (hle : irHostnameMatches s (toIrHostname a) = true → (toIrHostname a).specificity ≤ (toIrHostname b).specificity)

include hs htakes hmatch hle

theorem best_cases : (toIrHostname a).level = 0
    ∨ (toIrHostname a = toIrHostname b ∧ OneLabelBelow s (toIrHostname b))
    ∨ ∃ suffix, toIrHostname a = .wildcard suffix ∧ toIrHostname b = .exact s ∧ s ≠ "" := by
  rcases takes_slotOf hs htakes with ⟨ha, hne⟩ | ⟨suffix, label, ha, hlabel, hdot, heq⟩ | ha
  · rw [ha] at hle
    have hb := exact_of_specificity hne hmatch (hle (by simp [irHostnameMatches]))
    exact .inr (.inl ⟨ha.trans hb.symm, hb ▸ oneLabelBelow_exact s s⟩)
  · rw [ha] at hle
    have hwild := (irHostnameMatches_wildcard s suffix).2 ⟨label, hlabel, heq⟩
    rcases specificity_of_oneLabel hdot heq hmatch hwild (hle hwild) with hb | ⟨hb, hne⟩
    · refine .inr (.inl ⟨ha.trans hb.symm, ?_⟩)
      intro other hother
      rw [hb] at hother
      cases hother
      exact ⟨label, hdot, heq⟩
    · exact .inr (.inr ⟨suffix, ha, hb, hne⟩)
  · exact .inl ha

theorem sameName_of_best (hrank : (slotOf (toIrHostname b)).rank ≤ (slotOf (toIrHostname a)).rank) :
    SameName (toIrHostname a) (toIrHostname b) := by
  rcases best_cases hs htakes hmatch hle with ha | ⟨heq, -⟩ | ⟨suffix, ha, hb, hne⟩
  · have hzero := rank_slotOf_eq_zero_iff.2 ha
    exact .inr ⟨ha, rank_slotOf_eq_zero_iff.1 (by omega)⟩
  · exact .inl heq
  · simp [ha, hb, slotOf, hne, CertSlot.rank] at hrank

theorem unnamed_of_far (hfar : ¬ OneLabelBelow s (toIrHostname b)) : (toIrHostname a).level = 0 := by
  rcases best_cases hs htakes hmatch hle with ha | ⟨-, hbelow⟩ | ⟨suffix, -, hb, -⟩
  · exact ha
  · exact absurd hbelow hfar
  · exact absurd (hb ▸ oneLabelBelow_exact s s) hfar

end Best

end Hostnames

def listenerName (listener : JsonMap) : SunbeamProxy.HostnameMatch := irListenerHostname (buildListenerState listener)

theorem irListenerHostname_eq (l : ListenerState) : ∃ h, irListenerHostname l = toIrHostname h := by
  rw [irListenerHostname]
  cases l.hostname with
  | none => exact ⟨.any, rfl⟩
  | some h => exact ⟨parseListenerHostname h, rfl⟩

theorem listenerName_eq (listener : JsonMap) : ∃ h, listenerName listener = toIrHostname h := irListenerHostname_eq _

namespace CertLoader

variable {κ : Type}

/-- the key is that of a certificate the listener refers to -/
def Carries (env : CertLoader κ) (view : GatewayView) (listener : JsonMap) (key : κ) : Prop :=
  ∃ gw ∈ view.gateways, ∃ obj, env.gateway gw.namespace_ gw.name = some obj
    ∧ listener ∈ obj.listeners.filterMap Json.asObject ∧ ∃ c ∈ env.listenerCerts gw listener, c.key = key

variable {env : CertLoader κ} {view : GatewayView}

theorem slot_of_listenerCerts {gw : GatewayState} {listener : JsonMap} {c : LoadedCert κ}
    (hc : c ∈ env.listenerCerts gw listener) : c.slot = certSlot (listener.getStr "hostname") := by
  simp only [listenerCerts] at hc
  split_ifs at hc
  · cases hc
  · split at hc
    · cases hc
    · obtain ⟨key, -, rfl⟩ := mem_map.1 hc
      rfl

theorem carries_of_loaded {c : LoadedCert κ} (hc : c ∈ env.loadedCerts view) :
    ∃ listener, env.Carries view listener c.key ∧ c.slot = certSlot (listener.getStr "hostname") := by
  obtain ⟨gw, hgw, hc⟩ := mem_flatMap.1 hc
  unfold gatewayCerts at hc
  split at hc
  · cases hc
  · rename_i obj hobj
    obtain ⟨listener, hlistener, hc⟩ := mem_flatMap.1 hc
    exact ⟨listener, ⟨gw, hgw, obj, hobj, hlistener, c, hc, rfl⟩, slot_of_listenerCerts hc⟩

theorem loaded_of_carries {listener : JsonMap} {key : κ} (h : env.Carries view listener key) :
    ∃ c ∈ env.loadedCerts view, c.slot = certSlot (listener.getStr "hostname") := by
  obtain ⟨gw, hgw, obj, hobj, hlistener, c, hc, -⟩ := h
  refine ⟨c, mem_flatMap.2 ⟨gw, hgw, ?_⟩, slot_of_listenerCerts hc⟩
  rw [gatewayCerts, hobj]
  exact mem_flatMap.2 ⟨listener, hlistener, hc⟩

end CertLoader

theorem hostname_of_parents {S : Type} [L4RouteState S] {gateways : List GatewayState} {route : S} {protocol : String}
    {action : L4Action} {q : L4Route} (hq : q ∈ l4RoutesForParents gateways route protocol action) :
    ∃ h, q.listenerHostname = toIrHostname h := by
  obtain ⟨e, -, rfl⟩ := mem_map.1 hq
  exact ⟨.any, rfl⟩

theorem l4Route_hostname {view : GatewayView} {q : L4Route} (hq : q ∈ (translateL4Routes view).2) :
    ∃ h, q.listenerHostname = toIrHostname h := by
  simp only [translateL4Routes, mem_append, mem_flatMap] at hq
  rcases hq with (((⟨route, -, hq⟩ | ⟨route, -, hq⟩) | ⟨route, -, hq⟩) | hq) | hq
  · rw [tcpL4Routes] at hq
    split_ifs at hq
    · exact hostname_of_parents hq
    · cases hq
  · rw [udpL4Routes] at hq
    split_ifs at hq
    · exact hostname_of_parents hq
    · cases hq
  · obtain ⟨e, -, hq⟩ := mem_flatMap.1 hq
    obtain ⟨h, -, rfl⟩ := mem_map.1 hq
    exact ⟨_, rfl⟩
  · obtain ⟨e, -, rfl⟩ := mem_map.1 hq
    exact irListenerHostname_eq e.2
  · obtain ⟨e, -, rfl⟩ := mem_map.1 hq
    exact irListenerHostname_eq e.2

/-! ## One address -/

/-- the listeners that have certificates are served on one socket, under names in lower case -/
structure OneAddress {κ : Type} (ω : IterOrder) (env : CertLoader κ) (view : GatewayView) (c : CompiledL4Config)
    (socket : CompiledListener) : Prop where
  compiled : CompiledL4Config.compile ω (translateViewToIr view) = .ok c
  tls : socket.protocol.isTls = true
  opened : ∀ listener key, env.Carries view listener key → ∃ q ∈ routesForProtocol c socket.protocol,
    q.listenerId = socket.id ∧ q.listenerHostname = listenerName listener
  lower : ∀ listener key, env.Carries view listener key → ∀ h, listener.getStr "hostname" = some h → toLowercase h = h
  short : ShortWildcards (routesForProtocol c socket.protocol)

namespace OneAddress

variable {κ : Type} {ω : IterOrder} {env : CertLoader κ} {view : GatewayView} {c : CompiledL4Config}
  {socket : CompiledListener} {s : String} {r : CompiledL4Route}

theorem mostSpecific (h : OneAddress ω env view c socket) (hroute : socket.route c (some s) = some r) :
    MostSpecificMatch (routesForProtocol c socket.protocol) socket.id s r := by
  refine mostSpecific_of_found h.short ?_
  simpa [CompiledListener.route, handleTcp, h.tls] using hroute

theorem hostname (h : OneAddress ω env view c socket) (hr : r ∈ routesForProtocol c socket.protocol) :
    ∃ name, r.listenerHostname = toIrHostname name := by
  rw [routesForProtocol_compile h.compiled] at hr
  obtain ⟨q, hq, rfl⟩ := mem_map.1 (mem_filter.1 hr).1
  exact l4Route_hostname hq

theorem specificity_le (h : OneAddress ω env view c socket) (hroute : socket.route c (some s) = some r)
    {listener : JsonMap} {key : κ} (hcarries : env.Carries view listener key)
    (hmatch : irHostnameMatches s (listenerName listener) = true) :
    (listenerName listener).specificity ≤ r.listenerHostname.specificity := by
  obtain ⟨q, hq, haddress, hname⟩ := h.opened listener key hcarries
  rw [← hname] at hmatch ⊢
  exact (h.mostSpecific hroute).best q hq haddress hmatch

theorem slot_eq (h : OneAddress ω env view c socket) {listener : JsonMap} {key : κ} (hcarries : env.Carries view listener key) :
    certSlot (listener.getStr "hostname") = slotOf (listenerName listener) :=
  certSlot_eq (l := buildListenerState listener) (h.lower listener key hcarries)

theorem shown (h : OneAddress ω env view c socket) (hs : toLowercase s = s) {key : κ}
    (hkey : (env.buildGatewayCertStore view).1.resolve s = some key) :
    ∃ listener, env.Carries view listener key ∧ (slotOf (listenerName listener)).takes s = true
      ∧ ∀ other key', env.Carries view other key' → (slotOf (listenerName other)).takes s = true →
          (slotOf (listenerName other)).rank ≤ (slotOf (listenerName listener)).rank := by
  obtain ⟨d, hd, rfl, htakes, hbest⟩ := resolve_best hs hkey
  obtain ⟨listener, hcarries, hslot⟩ := CertLoader.carries_of_loaded hd
  rw [hslot, h.slot_eq hcarries] at htakes hbest
  refine ⟨listener, hcarries, htakes, fun other key' hother htakes' => ?_⟩
  obtain ⟨e, he, hslot'⟩ := CertLoader.loaded_of_carries hother
  have hrank := hbest e he
  rw [hslot', h.slot_eq hother] at hrank
  exact hrank htakes'

theorem shown_under_selected (h : OneAddress ω env view c socket) (hs : toLowercase s = s)
    (hroute : socket.route c (some s) = some r) (hbelow : OneLabelBelow s r.listenerHostname) {own : JsonMap} {ownKey : κ}
    (hown : env.Carries view own ownKey) (hownName : listenerName own = r.listenerHostname) :
    ∃ key, (env.buildGatewayCertStore view).1.resolve s = some key
      ∧ ∃ listener, env.Carries view listener key ∧ SameName (listenerName listener) r.listenerHostname := by
  have hselected := h.mostSpecific hroute
  have hmatch := hselected.listener
  obtain ⟨name, hname⟩ := h.hostname hselected.route
  rw [hname] at hmatch hbelow hownName
  have hownTakes : (slotOf (listenerName own)).takes s = true := by
    rw [hownName]
    exact slotOf_takes hs hmatch hbelow
  obtain ⟨d, hd, hslot⟩ := CertLoader.loaded_of_carries hown
  obtain ⟨key, hkey⟩ := resolve_isSome hs hd (by rwa [hslot, h.slot_eq hown])
  obtain ⟨listener, hcarries, htakes, hbest⟩ := h.shown hs hkey
  obtain ⟨shownName, hshown⟩ := listenerName_eq listener
  have hrank := hbest own ownKey hown hownTakes
  have hle := h.specificity_le hroute hcarries
  rw [hownName, hshown] at hrank
  rw [hname, hshown] at hle
  rw [hshown] at htakes
  refine ⟨key, hkey, listener, hcarries, ?_⟩
  rw [hname, hshown]
  exact sameName_of_best hs htakes hmatch hle hrank

theorem shown_without_name (h : OneAddress ω env view c socket) (hs : toLowercase s = s)
    (hroute : socket.route c (some s) = some r) (hfar : ¬ OneLabelBelow s r.listenerHostname) {key : κ}
    (hkey : (env.buildGatewayCertStore view).1.resolve s = some key) :
    ∃ listener, env.Carries view listener key ∧ (listenerName listener).level = 0 := by
  have hselected := h.mostSpecific hroute
  have hmatch := hselected.listener
  obtain ⟨name, hname⟩ := h.hostname hselected.route
  obtain ⟨listener, hcarries, htakes, -⟩ := h.shown hs hkey
  obtain ⟨shownName, hshown⟩ := listenerName_eq listener
  have hle := h.specificity_le hroute hcarries
  rw [hname] at hmatch hfar
  rw [hname, hshown] at hle
  rw [hshown] at htakes
  refine ⟨listener, hcarries, ?_⟩
  rw [hshown]
  exact unnamed_of_far hs htakes hmatch hle hfar

/-- **The certificate of the selected listener.** Up to one label below the selected hostname, the certificate shown is one of a
listener with that hostname; further below a wildcard it is one of a listener without a name. -/
theorem shown_certificate (h : OneAddress ω env view c socket) (hs : toLowercase s = s)
    (hroute : socket.route c (some s) = some r) :
    (∀ listener key, env.Carries view listener key → irHostnameMatches s (listenerName listener) = true →
        (listenerName listener).specificity ≤ r.listenerHostname.specificity)
      ∧ (OneLabelBelow s r.listenerHostname →
          (∃ listener key, env.Carries view listener key ∧ listenerName listener = r.listenerHostname) →
          ∃ key, (env.buildGatewayCertStore view).1.resolve s = some key
            ∧ ∃ listener, env.Carries view listener key ∧ SameName (listenerName listener) r.listenerHostname)
      ∧ (¬ OneLabelBelow s r.listenerHostname → ∀ key, (env.buildGatewayCertStore view).1.resolve s = some key →
            ∃ listener, env.Carries view listener key ∧ (listenerName listener).level = 0) := by
  refine ⟨?_, ?_, ?_⟩
  · intro listener key hcarries hmatch
    exact h.specificity_le hroute hcarries hmatch
  · intro hbelow hloaded
    obtain ⟨own, ownKey, hown, hownName⟩ := hloaded
    exact h.shown_under_selected hs hroute hbelow hown hownName
  · intro hfar key hkey
    exact h.shown_without_name hs hroute hfar hkey

end OneAddress

def terminating (name secret : String) (hostname : JsonMap) : JsonMap :=
  [("name", .string name), ("protocol", .string "TLS"), ("port", .number (.posInt 443)),
   ("tls", .object [("mode", .string "Terminate"),
     ("certificateRefs", .array [.object [("kind", .string "Secret"), ("name", .string secret)]])])] ++ hostname

def wildListener : JsonMap := terminating "wild" "wild-cert" [("hostname", .string "*.example.com")]

def restListener : JsonMap := terminating "rest" "rest-cert" []

def wildGateway : GatewayObject :=
  { namespace_ := some "shop", name := some "edge", listeners := [.object wildListener, .object restListener] }

def wildView : GatewayView :=
  { gateways := [buildGatewayState wildGateway]
    tlsRoutes := [{ namespace_ := "shop", name := "all", parentRefs := [{ name := "edge" }] }] }

def wildCerts : CertLoader String where
  gateway _ _ := some wildGateway
  secret _ name := some (some (HashMap.ofPairs [("tls.crt", name)]))
  certifiedKey data := data.bind (·.get "tls.crt")
  grants := ⟨[]⟩

def wildSocket : CompiledListener :=
  { id := "0.0.0.0:443#Tls", bindAddr := "0.0.0.0:443", protocol := .tls, tls := some (.registry "gateway")
    redirectHttpToHttps := false, frontendValidation := none }

def wildConfig : CompiledL4Config :=
  { listeners := [wildSocket]
    tlsRoutes :=
      [{ listenerId := "0.0.0.0:443#Tls", listenerHostname := .wildcard "example.com"
         match_ := .sni (.wildcard "example.com"), action := .tlsTerminate [] },
       { listenerId := "0.0.0.0:443#Tls", listenerHostname := .any, match_ := .sni .any, action := .tlsTerminate [] }] }

theorem compile_wildView : CompiledL4Config.compile .stored (translateViewToIr wildView) = .ok wildConfig := by decide

theorem wild_carries {listener : JsonMap} {key : String} (h : wildCerts.Carries wildView listener key) :
    listener = wildListener ∧ key = "wild-cert" ∨ listener = restListener ∧ key = "rest-cert" := by
  obtain ⟨gw, hgw, obj, hobj, hlistener, c, hc, rfl⟩ := h
  obtain rfl := mem_singleton.1 hgw
  cases hobj
  have hboth := hlistener
  rcases mem_pair.1 hboth with rfl | rfl
  · have hcert := hc
    exact .inl ⟨rfl, congrArg LoadedCert.key (mem_singleton.1 hcert)⟩
  · have hcert := hc
    exact .inr ⟨rfl, congrArg LoadedCert.key (mem_singleton.1 hcert)⟩

theorem wild_oneAddress : OneAddress .stored wildCerts wildView wildConfig wildSocket where
  compiled := compile_wildView
  tls := rfl
  opened listener key h := by
    rcases wild_carries h with ⟨rfl, -⟩ | ⟨rfl, -⟩
    · exact ⟨_, mem_cons_self .., rfl, by decide⟩
    · exact ⟨_, mem_cons_of_mem _ (mem_cons_self ..), rfl, by decide⟩
  lower listener key h name hname := by
    rcases wild_carries h with ⟨rfl, -⟩ | ⟨rfl, -⟩
    · cases hname
      decide
    · cases hname
  short r hr suffix hsuffix := by
    rcases mem_pair.1 hr with rfl | rfl
    · cases hsuffix
      decide
    · cases hsuffix

theorem one_label_below : OneAddress .stored wildCerts wildView wildConfig wildSocket
      ∧ ∃ key, (wildCerts.buildGatewayCertStore wildView).1.resolve "a.example.com" = some key
        ∧ ∃ listener, wildCerts.Carries wildView listener key ∧ SameName (listenerName listener) (.wildcard "example.com") := by
  have hroute : wildSocket.route wildConfig (some "a.example.com") = some wildConfig.tlsRoutes[0] := by decide
  have hbelow : OneLabelBelow "a.example.com" (.wildcard "example.com") := by
    intro suffix hsuffix
    cases hsuffix
    exact ⟨"a", by decide, by decide⟩
  have hcarries : wildCerts.Carries wildView wildListener "wild-cert" :=
    ⟨_, mem_singleton_self _, wildGateway, rfl, mem_cons_self .., _, mem_cons_self .., rfl⟩
  have hshown := OneAddress.shown_certificate wild_oneAddress (by decide) hroute
  exact ⟨wild_oneAddress, hshown.2.1 hbelow ⟨wildListener, "wild-cert", hcarries, by decide⟩⟩

theorem two_labels_below :
    CompiledL4Config.compile .stored (translateViewToIr wildView) = .ok wildConfig ∧ wildSocket ∈ wildConfig.listeners
      ∧ (wildSocket.route wildConfig (some "a.b.example.com")).map (·.listenerHostname) = some (.wildcard "example.com")
      ∧ (wildCerts.buildGatewayCertStore wildView).1.resolve "a.b.example.com" = some "rest-cert"
      ∧ ∀ listener, wildCerts.Carries wildView listener "rest-cert" → listenerName listener = .any := by
  refine ⟨compile_wildView, mem_singleton_self _, by decide, by decide, fun listener h => ?_⟩
  rcases wild_carries h with ⟨-, hkey⟩ | ⟨rfl, -⟩
  · exact absurd hkey (by decide)
  · decide

end SunbeamProxy.Gateway
