/-
TLS routes by listener hostname (`find_tls_route` in `l4/router.rs`).

On names that take one SNI the scores agree with `specificity` as long as no wildcard has 400 dots.
-/
import SunbeamProxy.L4.Router

namespace SunbeamProxy

open List

namespace HostnameMatch

def level : HostnameMatch → ℕ
  | .exact name => if name = "" then 0 else 3
  | .labelPrefix _ => 2
  | .wildcard _ => 1
  | .any => 0

def extent : HostnameMatch → ℕ
  | .wildcard suffix => suffix.length
  | _ => 0

def specificity (h : HostnameMatch) : ℕ ×ₗ ℕ := toLex (h.level, h.extent)

theorem specificity_le_iff {a b : HostnameMatch} :
    a.specificity ≤ b.specificity ↔ a.level < b.level ∨ a.level = b.level ∧ a.extent ≤ b.extent :=
  Prod.Lex.toLex_le_toLex

/-- not a wildcard with a score as high as that of a first label -/
def Short (h : HostnameMatch) : Prop := ∀ suffix, h = .wildcard suffix → dotCount suffix < 400

theorem score_cases {h : HostnameMatch} (hshort : h.Short) : (h.level = 0 ∧ h.extent = 0 ∧ irListenerSpecificityScore h = 0)
      ∨ (∃ suffix, h = .wildcard suffix ∧ irListenerSpecificityScore h < 500)
      ∨ (h.level = 2 ∧ h.extent = 0 ∧ irListenerSpecificityScore h = 500)
      ∨ (h.level = 3 ∧ h.extent = 0 ∧ irListenerSpecificityScore h = 1000) := by
  cases h with
  | exact name =>
    by_cases hname : name = ""
    · exact .inl ⟨if_pos hname, rfl, if_pos hname⟩
    · exact .inr (.inr (.inr ⟨if_neg hname, rfl, if_neg hname⟩))
  | labelPrefix label => exact .inr (.inr (.inl ⟨rfl, rfl, rfl⟩))
  | wildcard suffix =>
    have hdots := hshort suffix rfl
    exact .inr (.inl ⟨suffix, rfl, by simp only [irListenerSpecificityScore]; omega⟩)
  | any => exact .inl ⟨rfl, rfl, rfl⟩

end HostnameMatch

theorem wildcard_suffix {s a : String} (h : irHostnameMatches s (.wildcard a) = true) : '.' :: a.toList <:+ s.toList := by
  obtain ⟨rest, -, rfl⟩ := (irHostnameMatches_wildcard s a).1 h
  exact ⟨rest.toList, by simp⟩

section Wildcards

variable {s a b : String} (ha : irHostnameMatches s (.wildcard a) = true) (hb : irHostnameMatches s (.wildcard b) = true)

include ha hb

theorem dotCount_lt_of_length_lt (hlt : a.length < b.length) : dotCount a < dotCount b := by
  have hend := (suffix_cons _ _).trans (wildcard_suffix hb)
  have hinside := suffix_of_suffix_length_le (wildcard_suffix ha) hend hlt
  calc dotCount a < ('.' :: a.toList).count '.' := by simp [dotCount]
    _ ≤ dotCount b := hinside.sublist.count_le _

theorem wildcard_eq_of_length_eq (hlen : a.length = b.length) : a = b := by
  simp only [← String.length_toList] at hlen
  have hends := suffix_of_suffix_length_le (wildcard_suffix ha) (wildcard_suffix hb) (by simp only [length_cons]; omega)
  have heq := hends.eq_of_length (by simp only [length_cons]; omega)
  exact String.toList_inj.1 (cons.inj heq).2

theorem dotCount_le_iff : dotCount a ≤ dotCount b ↔ a.length ≤ b.length := by
  apply Iff.intro
  · by_contra hlt
    have := dotCount_lt_of_length_lt hb ha (by omega)
    omega
  · intro hlen
    rcases Nat.lt_or_eq_of_le hlen with hlt | heq
    · exact (dotCount_lt_of_length_lt ha hb hlt).le
    · rw [wildcard_eq_of_length_eq ha hb heq]

end Wildcards

theorem score_le_iff {s : String} {a b : HostnameMatch} (ha : irHostnameMatches s a = true)
    (hb : irHostnameMatches s b = true) (sa : a.Short) (sb : b.Short) :
    irListenerSpecificityScore a ≤ irListenerSpecificityScore b ↔ a.specificity ≤ b.specificity := by
  rw [HostnameMatch.specificity_le_iff]
  rcases HostnameMatch.score_cases sa with ha' | ⟨x, rfl, hx⟩ | ha'
  · omega
  · rcases HostnameMatch.score_cases sb with hb' | ⟨y, rfl, hy⟩ | hb'
    · simp only [irListenerSpecificityScore, HostnameMatch.level] at hx hb' ⊢
      omega
    · simp [irListenerSpecificityScore, HostnameMatch.level, HostnameMatch.extent, dotCount_le_iff ha hb]
    · simp only [HostnameMatch.level] at hx hb' ⊢
      omega
  · rcases HostnameMatch.score_cases sb with hb' | ⟨y, rfl, hy⟩ | hb'
    · omega
    · simp only [irListenerSpecificityScore, HostnameMatch.level] at hy ha' ⊢
      omega
    · omega

/-! ## The route of an SNI -/

/-- the route takes the name, under the most specific listener host name -/
structure MostSpecificMatch (routes : List CompiledL4Route) (listenerId s : String) (r : CompiledL4Route) : Prop where
  route : r ∈ routes
  address : r.listenerId = listenerId
  listener : irHostnameMatches s r.listenerHostname = true
  hostname : matchRoute r.match_ (some s) = true
  best : ∀ q ∈ routes, q.listenerId = listenerId → irHostnameMatches s q.listenerHostname = true →
    q.listenerHostname.specificity ≤ r.listenerHostname.specificity

section Found

variable {routes : List CompiledL4Route} {listenerId s : String} {r : CompiledL4Route}

def ShortWildcards (routes : List CompiledL4Route) : Prop := ∀ r ∈ routes, r.listenerHostname.Short

theorem best_iff_scores (hshort : ShortWildcards routes) (hr : r ∈ routes)
    (hlistener : irHostnameMatches s r.listenerHostname = true) :
    (∀ q ∈ routes, q.listenerId = listenerId → irHostnameMatches s q.listenerHostname = true →
        q.listenerHostname.specificity ≤ r.listenerHostname.specificity) ↔
      ∀ q ∈ routes, (q.listenerId = listenerId && irHostnameMatches s q.listenerHostname) = true →
        irListenerSpecificityScore q.listenerHostname ≤ irListenerSpecificityScore r.listenerHostname := by
  simp only [Bool.and_eq_true, decide_eq_true_eq, and_imp]
  refine forall₂_congr fun q hq => forall₂_congr fun _ htakes => ?_
  rw [score_le_iff htakes hlistener (hshort q hq) (hshort r hr)]

theorem mostSpecific_of_found (hshort : ShortWildcards routes) (h : findTlsRoute routes listenerId (some s) = some r) :
    MostSpecificMatch routes listenerId s r := by
  obtain ⟨before, after, hsplit, hcandidate, hmatch, hbest, -⟩ := find?_maximum_iff.1 h
  have hr : r ∈ routes := by simp [hsplit]
  simp only [Bool.and_eq_true, decide_eq_true_eq] at hcandidate
  exact ⟨hr, hcandidate.1, hcandidate.2, hmatch, (best_iff_scores hshort hr hcandidate.2).2 hbest⟩

theorem found_of_mostSpecific (hshort : ShortWildcards routes) (h : MostSpecificMatch routes listenerId s r) :
    (findTlsRoute routes listenerId (some s)).isSome = true := by
  have hbest := (best_iff_scores hshort h.route h.listener).1 h.best
  have hcandidate : r ∈ routes.filter fun q => q.listenerId = listenerId && irHostnameMatches s q.listenerHostname :=
    mem_filter.2 ⟨h.route, by simp [h.address, h.listener]⟩
  refine find?_isSome.2 ⟨r, mem_filter.2 ⟨hcandidate, ?_⟩, h.hostname⟩
  rw [maxOf_map_eq hcandidate fun q hq => hbest q (mem_filter.1 hq).1 (mem_filter.1 hq).2, decide_eq_true_eq]

theorem MostSpecificMatch.perm {routes' : List CompiledL4Route} (hperm : routes'.Perm routes)
    (h : MostSpecificMatch routes listenerId s r) : MostSpecificMatch routes' listenerId s r where
  route := hperm.mem_iff.2 h.route
  address := h.address
  listener := h.listener
  hostname := h.hostname
  best q hq := h.best q (hperm.mem_iff.1 hq)

theorem MostSpecificMatch.specificity_eq {r' : CompiledL4Route} (h : MostSpecificMatch routes listenerId s r)
    (h' : MostSpecificMatch routes listenerId s r') :
    r.listenerHostname.specificity = r'.listenerHostname.specificity :=
  le_antisymm (h'.best r h.route h.address h.listener) (h.best r' h'.route h'.address h'.listener)

/-- **TLS routes by listener.** A route is found exactly when one matches under the most specific listener hostname that takes the
SNI, and it is one of those; in another order of the routes one as specific is found. -/
theorem tls_route_listener (hshort : ShortWildcards routes) :
    (∀ r, findTlsRoute routes listenerId (some s) = some r → MostSpecificMatch routes listenerId s r)
      ∧ ((findTlsRoute routes listenerId (some s)).isSome = true ↔ ∃ r, MostSpecificMatch routes listenerId s r)
      ∧ ∀ routes', routes'.Perm routes →
          (findTlsRoute routes' listenerId (some s)).isSome = (findTlsRoute routes listenerId (some s)).isSome
            ∧ ∀ r r', findTlsRoute routes listenerId (some s) = some r → findTlsRoute routes' listenerId (some s) = some r' →
                r'.listenerHostname.specificity = r.listenerHostname.specificity := by
  have hfound : ∀ {l : List CompiledL4Route}, ShortWildcards l →
      ((findTlsRoute l listenerId (some s)).isSome = true ↔ ∃ r, MostSpecificMatch l listenerId s r) := by
    intro l hl
    apply Iff.intro
    · intro h
      obtain ⟨r, hr⟩ := Option.isSome_iff_exists.1 h
      exact ⟨r, mostSpecific_of_found hl hr⟩
    · intro h
      obtain ⟨r, hr⟩ := h
      exact found_of_mostSpecific hl hr
  refine ⟨fun r h => mostSpecific_of_found hshort h, hfound hshort, fun routes' hperm => ?_⟩
  have hshort' := fun r hr => hshort r (hperm.mem_iff.1 hr)
  refine ⟨?_, fun r r' h h' => ?_⟩
  · rw [Bool.eq_iff_iff, hfound hshort', hfound hshort]
    exact exists_congr fun r => ⟨MostSpecificMatch.perm hperm.symm, MostSpecificMatch.perm hperm⟩
  · have hmatch' := (mostSpecific_of_found hshort' h').perm hperm.symm
    exact hmatch'.specificity_eq (mostSpecific_of_found hshort h)

end Found

def tlsRoute (listener route : HostnameMatch) : CompiledL4Route :=
  { listenerId := "0.0.0.0:443#Tls", listenerHostname := listener, match_ := .sni route, action := .tlsTerminate [] }

def crossedListeners : List CompiledL4Route := [tlsRoute (.wildcard "example.com") (.wildcard "example.com"),
   tlsRoute (.wildcard "shop.example.com") (.exact "b.shop.example.com")]

theorem shop_host_routed :
    ShortWildcards crossedListeners
      ∧ (findTlsRoute crossedListeners "0.0.0.0:443#Tls" (some "b.shop.example.com")).isSome = true
      ∧ ∀ r, findTlsRoute crossedListeners "0.0.0.0:443#Tls" (some "b.shop.example.com") = some r →
          MostSpecificMatch crossedListeners "0.0.0.0:443#Tls" "b.shop.example.com" r := by
  have hshort : ShortWildcards crossedListeners := by
    intro r hr suffix hsuffix
    rcases mem_pair.1 hr with rfl | rfl
    all_goals
      cases hsuffix
      decide
  exact ⟨hshort, by decide, (tls_route_listener hshort).1⟩

/-- the other hosts of `shop.example.com` are left without a route, though one of the other listener takes them; and where
the routes are of one listener, the first takes a host that the second names -/
theorem less_specific_ignored : findTlsRoute crossedListeners "0.0.0.0:443#Tls" (some "a.shop.example.com") = none
      ∧ (∃ r ∈ crossedListeners, r.listenerId = "0.0.0.0:443#Tls"
          ∧ irHostnameMatches "a.shop.example.com" r.listenerHostname = true
          ∧ matchRoute r.match_ (some "a.shop.example.com") = true)
      ∧ findTlsRoute [tlsRoute (.wildcard "example.com") (.wildcard "example.com"),
             tlsRoute (.wildcard "example.com") (.exact "b.example.com")] "0.0.0.0:443#Tls" (some "b.example.com")
          = some (tlsRoute (.wildcard "example.com") (.wildcard "example.com")) := by
  decide

end SunbeamProxy
