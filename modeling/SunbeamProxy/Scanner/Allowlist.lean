/-
The bot allowlist (`scanner/allowlist.rs`) with its background DNS worker, over whole histories.

Each `Event` is one step: a request that is checked, the two halves of the worker's loop (taking a request off the channel,
and storing what the lookups came to), and an eviction. DNS answers come with the event that asks for them. `System.log`
records every verification made; the code keeps no such record, and no step reads it.
-/
import SunbeamProxy.Proxy.CacheResponse
import SunbeamProxy.RateLimit.Cidr
import SunbeamProxy.RateLimit.Limiter

namespace SunbeamProxy.Scanner

open Text List

structure BotAllowlistRule where
  uaPrefix : String
  reason : String
  dnsSuffixes : List String := []
  cidrs : List String := []
deriving DecidableEq, Repr

structure CompiledRule where
  uaPrefixLower : String
  reason : String
  dnsSuffixes : List String
  cidrs : List CidrBlock

structure CacheEntry where
  ruleIdx : ℕ
  verified : Bool
  created : ℚ

structure PendingVerification where
  ip : IpAddr
  ruleIdx : ℕ
  dnsSuffixes : List String

structure BotAllowlist where
  rules : List CompiledRule
  verifiedCache : HashMap IpAddr CacheEntry
  pending : List PendingVerification
  cacheTtl : ℚ

variable (r : BotAllowlistRule)

def BotAllowlistRule.compile : CompiledRule :=
  ⟨toAsciiLowercase r.uaPrefix, r.reason, r.dnsSuffixes.map toAsciiLowercase, r.cidrs.filterMap CidrBlock.parse⟩

namespace BotAllowlist

def spawn (rules : List BotAllowlistRule) (cacheTtlSecs : ℕ) : BotAllowlist :=
  ⟨rules.map BotAllowlistRule.compile, ∅, [], cacheTtlSecs⟩

variable (al : BotAllowlist)

def cached (now : ℚ) (ip : IpAddr) : Option CacheEntry :=
  (al.verifiedCache.get ip).filter fun entry => decide (durationSince now entry.created < al.cacheTtl)

def checkRules (al : BotAllowlist) (now : ℚ) (uaLower : String) (ip : IpAddr) :
    List (CompiledRule × ℕ) → Option String × BotAllowlist
  | [] => (none, al)
  | (rule, idx) :: rest =>
    if !startsWith uaLower rule.uaPrefixLower then checkRules al now uaLower ip rest
    -- no verification configured
    else if rule.cidrs.isEmpty && rule.dnsSuffixes.isEmpty then (some rule.reason, al)
    else if rule.cidrs.any (·.contains ip) then (some rule.reason, al)
    else if !rule.cidrs.isEmpty && rule.dnsSuffixes.isEmpty then (none, al)
    else if !rule.dnsSuffixes.isEmpty then
      match al.cached now ip with
      | some entry => (if entry.verified && entry.ruleIdx == idx then some rule.reason else none, al)
      | none => (none, { al with pending := al.pending ++ [⟨ip, idx, rule.dnsSuffixes⟩] })
    else checkRules al now uaLower ip rest

def check (now : ℚ) (userAgent : String) (ip : IpAddr) : Option String × BotAllowlist :=
  al.checkRules now (toAsciiLowercase userAgent) ip al.rules.zipIdx

def evictStale (now : ℚ) : BotAllowlist :=
  { al with
    verifiedCache := al.verifiedCache.retain fun _ entry => decide (durationSince now entry.created < al.cacheTtl) }

end BotAllowlist

def endsWith (s p : String) : Bool := (stripEnd s p).isSome

structure DnsAnswers where
  lookupAddr : Option String
  lookupHost : String → Option (List IpAddr)

variable (ip : IpAddr)

def verifyDns (suffixes : List String) (dns : DnsAnswers) : Bool :=
  match dns.lookupAddr with
  | none => false
  | some name =>
    let hostname := toAsciiLowercase name
    if !suffixes.any fun s => endsWith hostname s || endsWith hostname ("." ++ s) then false
    else
      match dns.lookupHost hostname with
      | some addrs => addrs.any (· == ip)
      | none => false

/-! ## Runs -/

structure Verification where
  ip : IpAddr
  made : ℚ
  dns : DnsAnswers

structure System where
  list : BotAllowlist
  worker : Option PendingVerification
  log : List Verification

inductive Event where
  | check (now : ℚ) (userAgent : String) (ip : IpAddr)
  | recv (now : ℚ)
  | finish (now : ℚ) (dns : DnsAnswers)
  | evictStale (now : ℚ)

namespace System

def start (rules : List BotAllowlistRule) (cacheTtlSecs : ℕ) : System := ⟨.spawn rules cacheTtlSecs, none, []⟩

variable (s : System)

def recv (now : ℚ) : System :=
  match s.worker, s.list.pending with
  | none, req :: rest =>
    { s with
      list := { s.list with pending := rest }
      worker := if (s.list.cached now req.ip).isSome then none else some req }
  | _, _ => s

def finish (now : ℚ) (dns : DnsAnswers) : System :=
  match s.worker with
  | none => s
  | some req =>
    let entry : CacheEntry := ⟨req.ruleIdx, verifyDns req.ip req.dnsSuffixes dns, now⟩
    ⟨{ s.list with verifiedCache := s.list.verifiedCache.insert req.ip entry }, none, s.log ++ [⟨req.ip, now, dns⟩]⟩

def step : Event → System
  | .check now userAgent ip => { s with list := (s.list.check now userAgent ip).2 }
  | .recv now => s.recv now
  | .finish now dns => s.finish now dns
  | .evictStale now => { s with list := s.list.evictStale now }

def run (events : List Event) : System := events.foldl step s

end System

def BotAllowlistRule.Matches (userAgent : String) : Prop :=
  startsWith (toAsciiLowercase userAgent) (toAsciiLowercase r.uaPrefix) = true

/-- the host is the suffix, or lies under the domain it names (a suffix may be written with its dot) -/
def UnderSuffix (hostname suffix : String) : Prop := hostname = suffix
    ∨ ∃ label, label ≠ "" ∧ hostname = label ++ "." ++ (stripStart suffix ".").getD suffix

/-- reverse and forward lookup agree, under one of the suffixes -/
def Verification.Confirms (v : Verification) (suffixes : List String) : Prop :=
  ∃ name addrs, v.dns.lookupAddr = some name ∧ (∃ s ∈ suffixes, UnderSuffix (toAsciiLowercase name) s)
    ∧ v.dns.lookupHost (toAsciiLowercase name) = some addrs ∧ v.ip ∈ addrs

variable (rules : List BotAllowlistRule)

/-- a rule takes the user agent, and its addresses or a lookup confirm the client -/
def Grounded (cacheTtlSecs : ℕ) (log : List Verification) (now : ℚ) (userAgent : String)
    (ip : IpAddr) (reason : String) : Prop :=
  ∃ r ∈ rules, r.reason = reason ∧ r.Matches userAgent ∧ (r.cidrs = [] ∧ r.dnsSuffixes = []
      ∨ (∃ text ∈ r.cidrs, ∃ b, CidrBlock.parse text = some b ∧ b.Agrees ip)
      ∨ ∃ v ∈ log, v.ip = ip ∧ now - v.made < cacheTtlSecs ∧ v.Confirms (r.dnsSuffixes.map toAsciiLowercase))

def BotAllowlistRule.Verifiable : Prop :=
  r.dnsSuffixes = [] → r.cidrs ≠ [] → ∃ text ∈ r.cidrs, (CidrBlock.parse text).isSome

def firstMatch (userAgent : String) : Option BotAllowlistRule :=
  rules.find? fun r => startsWith (toAsciiLowercase userAgent) (toAsciiLowercase r.uaPrefix)

def EventMeets (s : System) : Event → Prop
  | .check _ userAgent _ => ∀ r, firstMatch rules userAgent = some r → r.Verifiable
  | .finish _ dns =>
    ∀ req name, s.worker = some req → dns.lookupAddr = some name →
      (∃ suffix ∈ req.dnsSuffixes, endsWith (toAsciiLowercase name) suffix = true) →
      ∃ suffix ∈ req.dnsSuffixes, UnderSuffix (toAsciiLowercase name) suffix
  | .recv _ | .evictStale _ => True

def Meets (rules : List BotAllowlistRule) : System → List Event → Prop
  | _, [] => True
  | s, e :: events => EventMeets rules s e ∧ Meets rules (s.step e) events

namespace BotAllowlist

variable {al : BotAllowlist} {now : ℚ} {uaLower : String} {ip : IpAddr} {l : List (CompiledRule × ℕ)}

def decision (al : BotAllowlist) (now : ℚ) (ip : IpAddr) (rule : CompiledRule) (idx : ℕ) : Option String × BotAllowlist :=
  if rule.cidrs.isEmpty && rule.dnsSuffixes.isEmpty || rule.cidrs.any (·.contains ip) then (some rule.reason, al)
  else if rule.dnsSuffixes.isEmpty then (none, al)
  else match al.cached now ip with
    | some entry => (if entry.verified && entry.ruleIdx == idx then some rule.reason else none, al)
    | none => (none, { al with pending := al.pending ++ [⟨ip, idx, rule.dnsSuffixes⟩] })

theorem checkRules_eq : al.checkRules now uaLower ip l
    = (l.find? fun p => startsWith uaLower p.1.uaPrefixLower).elim (none, al) fun p => al.decision now ip p.1 p.2 := by
  induction l with
  | nil => rfl
  | cons p rest ih =>
    obtain ⟨⟨start, reason, suffixes, cidrs⟩, idx⟩ := p
    cases hua : startsWith uaLower start with
    | false => simp [checkRules, hua, ih]
    | true => cases suffixes <;> cases cidrs <;> simp [checkRules, decision, hua]

theorem checkRules_eq_some {reason : String} (h : (al.checkRules now uaLower ip l).1 = some reason) :
    ∃ rule idx, l.find? (fun p => startsWith uaLower p.1.uaPrefixLower) = some (rule, idx) ∧ rule.reason = reason
      ∧ (rule.cidrs = [] ∧ rule.dnsSuffixes = [] ∨ (∃ b ∈ rule.cidrs, b.contains ip = true)
        ∨ ∃ entry, al.cached now ip = some entry ∧ entry.verified = true ∧ entry.ruleIdx = idx) := by
  rw [checkRules_eq] at h
  cases hfind : l.find? fun p => startsWith uaLower p.1.uaPrefixLower with
  | none => simp [hfind] at h
  | some p =>
    rw [hfind, Option.elim_some, decision] at h
    refine ⟨p.1, p.2, rfl, ?_⟩
    split_ifs at h with hplain
    · simp only [Bool.or_eq_true, Bool.and_eq_true, List.isEmpty_iff, any_eq_true] at hplain
      exact ⟨Option.some.inj h, hplain.imp_right .inl⟩
    · cases hentry : al.cached now ip with
      | none => simp [hentry] at h
      | some entry =>
        simp only [hentry] at h
        split_ifs at h with hverified
        rw [Bool.and_eq_true, beq_iff_eq] at hverified
        exact ⟨Option.some.inj h, .inr (.inr ⟨entry, rfl, hverified⟩)⟩

theorem checkRules_state : (al.checkRules now uaLower ip l).2 = al
      ∨ ∃ p, l.find? (fun p => startsWith uaLower p.1.uaPrefixLower) = some p ∧ p.1.dnsSuffixes ≠ []
        ∧ (al.checkRules now uaLower ip l).2 = { al with pending := al.pending ++ [⟨ip, p.2, p.1.dnsSuffixes⟩] } := by
  rw [checkRules_eq]
  cases hfind : l.find? fun p => startsWith uaLower p.1.uaPrefixLower with
  | none => exact .inl rfl
  | some p =>
    rw [Option.elim_some, decision]
    split_ifs with _ hdns
    · exact .inl rfl
    · exact .inl rfl
    · cases al.cached now ip with
      | some entry => exact .inl rfl
      | none => exact .inr ⟨p, rfl, by simpa using hdns, rfl⟩

theorem cached_eq_some {entry : CacheEntry} (h : al.cached now ip = some entry) :
    al.verifiedCache.get ip = some entry ∧ now - entry.created < al.cacheTtl := by
  rw [cached, Option.filter_eq_some_iff, decide_eq_true_iff] at h
  exact ⟨h.1, lt_of_le_of_lt (le_max_right _ _) h.2⟩

end BotAllowlist

variable {userAgent : String}

theorem firstMatch_eq_some {rules : List BotAllowlistRule} {r : BotAllowlistRule}
    (h : firstMatch rules userAgent = some r) : r ∈ rules ∧ r.Matches userAgent := by
  have hstarts := find?_some h
  exact ⟨mem_of_find?_eq_some h, by simpa [BotAllowlistRule.Matches] using hstarts⟩

theorem find?_compile {rules : List BotAllowlistRule} {rule : CompiledRule} {idx : ℕ}
    (h : (rules.map BotAllowlistRule.compile).zipIdx.find?
      (fun p => startsWith (toAsciiLowercase userAgent) p.1.uaPrefixLower) = some (rule, idx)) :
    ∃ r, firstMatch rules userAgent = some r ∧ rules[idx]? = some r ∧ rule = r.compile := by
  have hmem := mem_zipIdx_iff_getElem?.1 (mem_of_find?_eq_some h)
  rw [getElem?_map, Option.map_eq_some_iff] at hmem
  obtain ⟨r, hr, hrule⟩ := hmem
  refine ⟨r, ?_, hr, hrule.symm⟩
  have hidx := (List.getElem?_eq_some_iff.1 hr).1
  rw [firstMatch, find?_eq_some_iff_getElem]
  rw [find?_eq_some_iff_getElem] at h
  obtain ⟨hstarts, i, hi, hget, hbefore⟩ := h
  have hget' : i = idx := by simpa using (Prod.ext_iff.1 hget).2
  subst hget'
  refine ⟨?_, i, hidx, (List.getElem?_eq_some_iff.1 hr).2, ?_⟩
  · rw [← hrule] at hstarts
    exact hstarts
  · intro j hj
    simpa [BotAllowlistRule.compile] using hbefore j hj

theorem endsWith_iff {s p : String} : endsWith s p = true ↔ ∃ rest, s = rest ++ p := by
  rw [endsWith, Option.isSome_iff_exists]
  exact exists_congr fun rest => stripEnd_eq_some

theorem verifyDns_eq_true {ip : IpAddr} {suffixes : List String} {dns : DnsAnswers} (h : verifyDns ip suffixes dns = true) :
    ∃ name addrs, dns.lookupAddr = some name ∧ (∃ s ∈ suffixes, endsWith (toAsciiLowercase name) s = true)
      ∧ dns.lookupHost (toAsciiLowercase name) = some addrs ∧ ip ∈ addrs := by
  unfold verifyDns at h
  cases hname : dns.lookupAddr with
  | none => simp [hname] at h
  | some name =>
    simp only [hname] at h
    split_ifs at h with hsuffix
    cases haddrs : dns.lookupHost (toAsciiLowercase name) with
    | none => simp [haddrs] at h
    | some addrs =>
      simp only [Bool.not_eq_true', Bool.not_eq_false, any_eq_true, Bool.or_eq_true] at hsuffix
      obtain ⟨s, hs, hends⟩ := hsuffix
      refine ⟨name, addrs, rfl, ⟨s, hs, ?_⟩, haddrs, by simpa [haddrs] using h⟩
      rcases hends with hends | hends
      · exact hends
      · obtain ⟨rest, hrest⟩ := endsWith_iff.1 hends
        exact endsWith_iff.2 ⟨rest ++ ".", by rw [hrest, String.append_assoc]⟩

/-- the request was sent for a configured rule -/
def PendingVerification.ForRule (req : PendingVerification) : Prop :=
  ∃ r, rules[req.ruleIdx]? = some r ∧ req.dnsSuffixes = r.dnsSuffixes.map toAsciiLowercase

/-- a lookup of the log confirms the entry -/
def CacheEntry.Backed (log : List Verification) (ip : IpAddr) (entry : CacheEntry) : Prop :=
  ∃ r, rules[entry.ruleIdx]? = some r
    ∧ ∃ v ∈ log, v.ip = ip ∧ v.made = entry.created ∧ v.Confirms (r.dnsSuffixes.map toAsciiLowercase)

/-- the compiled list is that of the rules, and its cache is backed by lookups -/
structure Inv (rules : List BotAllowlistRule) (cacheTtlSecs : ℕ) (s : System) : Prop where
  compiled : s.list.rules = rules.map BotAllowlistRule.compile
  ttl : s.list.cacheTtl = cacheTtlSecs
  pending : ∀ req ∈ s.list.pending, req.ForRule rules
  worker : ∀ req, s.worker = some req → req.ForRule rules
  cache : ∀ ip entry, s.list.verifiedCache.get ip = some entry → entry.verified = true → entry.Backed rules s.log ip

variable {rules : List BotAllowlistRule} {ttl : ℕ} {s : System}

theorem CacheEntry.Backed.mono {log : List Verification} {ip : IpAddr} {entry : CacheEntry} (v : Verification)
    (h : entry.Backed rules log ip) : entry.Backed rules (log ++ [v]) ip := by
  obtain ⟨r, hr, w, hw, hrest⟩ := h
  exact ⟨r, hr, w, mem_append_left _ hw, hrest⟩

theorem start_inv : Inv rules ttl (.start rules ttl) where
  compiled := rfl
  ttl := rfl
  pending := by simp [System.start, BotAllowlist.spawn]
  worker := by simp [System.start]
  cache := by simp [System.start, BotAllowlist.spawn]

theorem check_inv (hi : Inv rules ttl s) (now : ℚ) (userAgent : String) (ip : IpAddr) :
    Inv rules ttl (s.step (.check now userAgent ip)) := by
  rw [System.step, BotAllowlist.check]
  rcases BotAllowlist.checkRules_state with hsame | ⟨p, hp, -, hsent⟩
  · rw [hsame]
    exact hi
  · rw [hsent]
    have hget := mem_zipIdx_iff_getElem?.1 (mem_of_find?_eq_some hp)
    rw [hi.compiled, getElem?_map, Option.map_eq_some_iff] at hget
    obtain ⟨r, hr, hrule⟩ := hget
    refine ⟨hi.compiled, hi.ttl, ?_, hi.worker, hi.cache⟩
    intro req hreq
    rcases mem_append.1 hreq with hold | hnew
    · exact hi.pending req hold
    · rw [mem_singleton.1 hnew]
      exact ⟨r, hr, by rw [← hrule]; rfl⟩

theorem recv_inv (hi : Inv rules ttl s) (now : ℚ) : Inv rules ttl (s.recv now) := by
  unfold System.recv
  cases hworker : s.worker with
  | some req => exact hi
  | none =>
    cases hpending : s.list.pending with
    | nil => exact hi
    | cons req rest =>
      have hforRule := hpending ▸ hi.pending
      refine ⟨hi.compiled, hi.ttl, fun q hq => hforRule q (mem_cons_of_mem _ hq), ?_, hi.cache⟩
      intro q hq
      simp only at hq
      split_ifs at hq
      rw [← Option.some.inj hq]
      exact hforRule req mem_cons_self

theorem finish_inv (hi : Inv rules ttl s) {now : ℚ} {dns : DnsAnswers} (hmeets : EventMeets rules s (.finish now dns)) :
    Inv rules ttl (s.finish now dns) := by
  unfold System.finish
  cases hworker : s.worker with
  | none => exact hi
  | some req =>
    refine ⟨hi.compiled, hi.ttl, hi.pending, by simp, ?_⟩
    intro ip entry hget hverified
    rw [HashMap.get_insert] at hget
    split_ifs at hget with hip
    · subst hip
      obtain rfl := Option.some.inj hget
      obtain ⟨r, hr, hsuffixes⟩ := hi.worker req hworker
      obtain ⟨name, addrs, hname, hends, haddrs, hback⟩ := verifyDns_eq_true hverified
      have hunder := hmeets req name hworker hname hends
      rw [hsuffixes] at hunder
      exact ⟨r, hr, ⟨req.ip, now, dns⟩, by simp, rfl, rfl, name, addrs, hname, hunder, haddrs, hback⟩
    · exact (hi.cache ip entry hget hverified).mono _

theorem evictStale_inv (hi : Inv rules ttl s) (now : ℚ) : Inv rules ttl (s.step (.evictStale now)) where
  compiled := hi.compiled
  ttl := hi.ttl
  pending := hi.pending
  worker := hi.worker
  cache := by
    intro ip entry hget
    simp only [System.step, BotAllowlist.evictStale, HashMap.get_retain, Option.filter_eq_some_iff] at hget
    exact hi.cache ip entry hget.1

theorem step_inv (hi : Inv rules ttl s) {e : Event} (hmeets : EventMeets rules s e) : Inv rules ttl (s.step e) := by
  cases e with
  | check now userAgent ip => exact check_inv hi now userAgent ip
  | recv now => exact recv_inv hi now
  | finish now dns => exact finish_inv hi hmeets
  | evictStale now => exact evictStale_inv hi now

theorem run_inv {events rest : List Event} (hi : Inv rules ttl s) (hmeets : Meets rules s (events ++ rest)) :
    Inv rules ttl (s.run events) ∧ Meets rules (s.run events) rest := by
  induction events generalizing s with
  | nil => exact ⟨hi, hmeets⟩
  | cons e events ih => exact ih (step_inv hi hmeets.1) hmeets.2

/-! ## Answers are grounded -/

theorem check_grounded (hi : Inv rules ttl s) {now : ℚ} {ip : IpAddr} {reason : String}
    (hmeets : EventMeets rules s (.check now userAgent ip)) (h : (s.list.check now userAgent ip).1 = some reason) :
    Grounded rules ttl s.log now userAgent ip reason := by
  obtain ⟨rule, idx, hfind, hreason, hcase⟩ := BotAllowlist.checkRules_eq_some h
  rw [hi.compiled] at hfind
  obtain ⟨r, hfirst, hr, rfl⟩ := find?_compile hfind
  obtain ⟨hmem, hmatches⟩ := firstMatch_eq_some hfirst
  refine ⟨r, hmem, hreason, hmatches, ?_⟩
  rcases hcase with ⟨hcidrs, hdns⟩ | ⟨b, hb, hip⟩ | ⟨entry, hentry, hverified, rfl⟩
  · left
    have hsuffixes : r.dnsSuffixes = [] := by simpa [BotAllowlistRule.compile] using hdns
    refine ⟨?_, hsuffixes⟩
    by_contra hne
    obtain ⟨text, htext, hparse⟩ := hmeets r hfirst hsuffixes hne
    obtain ⟨b, hb⟩ := Option.isSome_iff_exists.1 hparse
    have hmem : b ∈ r.compile.cidrs := mem_filterMap.2 ⟨text, htext, hb⟩
    simp [hcidrs] at hmem
  · right; left
    obtain ⟨text, htext, hparse⟩ := mem_filterMap.1 hb
    exact ⟨text, htext, b, hparse, CidrBlock.agrees_of_contains hparse hip⟩
  · right; right
    obtain ⟨hget, hyoung⟩ := BotAllowlist.cached_eq_some hentry
    obtain ⟨r', hr', v, hv, hvip, hmade, hconfirms⟩ := hi.cache ip entry hget hverified
    obtain rfl : r' = r := Option.some.inj (hr'.symm.trans hr)
    refine ⟨v, hv, hvip, ?_, hconfirms⟩
    rw [hmade, ← hi.ttl]
    exact hyoung

/-- **The allowlist is not spoofed.** In every run that meets the condition, a check that is given a reason is grounded in the
verifications made before it. -/
theorem allowlist_grounded (rules : List BotAllowlistRule) (cacheTtlSecs : ℕ) (before after : List Event) (now : ℚ)
    (userAgent : String) (ip : IpAddr)
    (hmeets : Meets rules (.start rules cacheTtlSecs) (before ++ .check now userAgent ip :: after)) :
    let s := (System.start rules cacheTtlSecs).run before
    ∀ reason, (s.list.check now userAgent ip).1 = some reason → Grounded rules cacheTtlSecs s.log now userAgent ip reason := by
  intro s reason h
  obtain ⟨hi, hrest⟩ := run_inv start_inv hmeets
  exact check_grounded hi hrest.1 h

def dnsNaming (name : String) : DnsAnswers :=
  ⟨some name, fun hostname => if hostname = toAsciiLowercase name then some [ip] else none⟩

def googlebot : BotAllowlistRule where
  uaPrefix := "Googlebot"
  reason := "google"
  dnsSuffixes := ["googlebot.com"]

def verifying (name : String) : List Event :=
  [.check 0 "Googlebot/2.1" ip, .recv 1, .finish 2 (dnsNaming ip name)]

def verifiedAs (name : String) : System := (System.start [googlebot] 86400).run (verifying ip name)

theorem crawler_grounded :
    ((verifiedAs (.v4 0x42F94201) "crawl-1.Googlebot.com").list.check 60 "googlebot/2.1" (.v4 0x42F94201)).1 = some "google"
      ∧ Grounded [googlebot] 86400 (verifiedAs (.v4 0x42F94201) "crawl-1.Googlebot.com").log 60 "googlebot/2.1"
        (.v4 0x42F94201) "google" := by
  have hanswer : ((verifiedAs (.v4 0x42F94201) "crawl-1.Googlebot.com").list.check 60 "googlebot/2.1"
      (.v4 0x42F94201)).1 = some "google" := by decide +kernel
  refine ⟨hanswer, allowlist_grounded [googlebot] 86400 (verifying (.v4 0x42F94201) "crawl-1.Googlebot.com") [] 60
    "googlebot/2.1" (.v4 0x42F94201) ?_ "google" hanswer⟩
  have hverifiable : googlebot.Verifiable := by simp [BotAllowlistRule.Verifiable, googlebot]
  have hfirst : ∀ userAgent r, firstMatch [googlebot] userAgent = some r → r.Verifiable := by
    intro userAgent r hr
    rw [mem_singleton.1 (firstMatch_eq_some hr).1]
    exact hverifiable
  refine ⟨hfirst _, trivial, ?_, hfirst _, trivial⟩
  intro req name hworker hname _
  have hreq : req.dnsSuffixes = ["googlebot.com"] := by
    have hsuffixes : ((((System.start [googlebot] 86400).step (.check 0 "Googlebot/2.1" (.v4 0x42F94201))).step
        (.recv 1)).worker.map (·.dnsSuffixes)) = some ["googlebot.com"] := by decide +kernel
    rw [hworker] at hsuffixes
    exact Option.some.inj hsuffixes
  obtain rfl : "crawl-1.Googlebot.com" = name := Option.some.inj hname
  rw [hreq]
  exact ⟨"googlebot.com", by simp, .inr ⟨"crawl-1", by decide, by decide⟩⟩

def gptbot : BotAllowlistRule where
  uaPrefix := "GPTBot"
  reason := "openai"
  cidrs := ["23.98.0.0-16"]

/-- a rule whose only CIDR has a slip in it lets every address through, and a name of another domain that ends with the
suffix as text is taken for one of the crawler's -/
theorem unparsed_cidr_and_foreign_name_pass :
    (((System.start [gptbot] 86400).list.check 0 "GPTBot/1.0" (.v4 0x01020304)).1 = some "openai"
        ∧ ¬Grounded [gptbot] 86400 [] 0 "GPTBot/1.0" (.v4 0x01020304) "openai")
      ∧ ((verifiedAs (.v4 0x01020304) "evilgooglebot.com").list.check 60 "Googlebot/2.1" (.v4 0x01020304)).1 = some "google"
      ∧ ¬Grounded [googlebot] 86400 (verifiedAs (.v4 0x01020304) "evilgooglebot.com").log 60 "Googlebot/2.1"
        (.v4 0x01020304) "google" := by
  refine ⟨⟨by decide +kernel, ?_⟩, by decide +kernel, ?_⟩
  · rintro ⟨r, hr, -, -, hcase⟩
    obtain rfl := mem_singleton.1 hr
    rcases hcase with ⟨hnone, -⟩ | ⟨text, htext, b, hb, -⟩ | ⟨v, hv, -⟩
    · simp [gptbot] at hnone
    · have hparse : CidrBlock.parse "23.98.0.0-16" = none := by decide
      obtain rfl := mem_singleton.1 htext
      simp [hparse] at hb
    · simp at hv
  · rintro ⟨r, hr, -, -, hcase⟩
    obtain rfl := mem_singleton.1 hr
    rcases hcase with ⟨-, hnone⟩ | ⟨text, htext, -⟩ | ⟨v, hv, -, -, name, addrs, hname, ⟨suffix, hsuffix, hunder⟩, -⟩
    · simp [googlebot] at hnone
    · simp [googlebot] at htext
    · have hlog : (verifiedAs (.v4 0x01020304) "evilgooglebot.com").log
          = [⟨.v4 0x01020304, 2, dnsNaming (.v4 0x01020304) "evilgooglebot.com"⟩] := rfl
      obtain rfl := mem_singleton.1 hv
      obtain rfl : "evilgooglebot.com" = name := Option.some.inj hname
      obtain rfl : suffix = "googlebot.com" := mem_singleton.1 hsuffix
      rcases hunder with hsame | ⟨label, -, hlabel⟩
      · exact absurd hsame (by decide)
      · have hstrip : stripEnd (toAsciiLowercase "evilgooglebot.com") ".googlebot.com" = none := by decide
        have hdotted : toAsciiLowercase "evilgooglebot.com" = label ++ ".googlebot.com" := by
          rw [hlabel, String.append_assoc]
          rfl
        rw [stripEnd_eq_some.2 hdotted] at hstrip
        simp at hstrip

end SunbeamProxy.Scanner
