/-
Which rule of a host serves a request.
-/
import Mathlib.Data.Prod.Lex
import SunbeamProxy.IR.OnePass

namespace SunbeamProxy

open Text List

section HostLookup

variable {ω : IterOrder} {re : RegexEngine} {host : HostRoute} {r : RouteRequest} {p : CompiledPlan}

theorem host_lookup_competes (h : (compileHost ω host).lookup re r = some p) :
    p ∈ hostPlans host ∧ p.matches_.Holds re r ∧ Visible ω (hostPlans host) r p := by
  rw [compileHost_lookup_fine] at h
  exact ⟨(firstBest_mem h).1, competes_iff.1 (firstBest_mem h).2⟩

theorem host_lookup_sound (h : (compileHost ω host).lookup re r = some p) : p ∈ hostPlans host ∧ p.matches_.Holds re r :=
  ⟨(host_lookup_competes h).1, (host_lookup_competes h).2.1⟩

theorem host_lookup_visible (h : (compileHost ω host).lookup re r = some p) : Visible ω (hostPlans host) r p :=
  (host_lookup_competes h).2.2

theorem host_lookup_isSome_iff : ((compileHost ω host).lookup re r).isSome = true ↔
      ∃ q ∈ hostPlans host, q.matches_.Holds re r ∧ Visible ω (hostPlans host) r q := by
  simp [compileHost_lookup_fine, firstBest_isSome_iff, competes_iff]

variable {q : CompiledPlan}

theorem host_lookup_fineBefore (h : (compileHost ω host).lookup re r = some p) (hq : q ∈ hostPlans host)
    (hholds : q.matches_.Holds re r) (hvis : Visible ω (hostPlans host) r q) :
    fineBefore (hostAttributes ω (hostPlans host)) r p q = true := by
  rw [compileHost_lookup_fine] at h
  exact firstBest_le h q hq (competes_iff.2 ⟨hholds, hvis⟩)

theorem visible_of_isExact {plans : List CompiledPlan} (h : p.matches_.IsExact) : Visible ω plans r p := by
  obtain ⟨path, hpath⟩ := h
  intro htrie
  simp [isTriePlan, hpath] at htrie

theorem host_lookup_isExact (h : (compileHost ω host).lookup re r = some p) (hq : q ∈ hostPlans host)
    (hholds : q.matches_.Holds re r) (hex : q.matches_.IsExact) : p.matches_.IsExact := by
  have hbest := noLower_of_fineBefore (host_lookup_fineBefore h hq hholds (visible_of_isExact hex))
  exact isExactPlan_iff.1 ((noLower_iff.1 hbest).1 (isExactPlan_iff.2 hex))

theorem host_lookup_best (h : (compileHost ω host).lookup re r = some p) (hq : q ∈ hostPlans host)
    (hholds : q.matches_.Holds re r) (hvis : Visible ω (hostPlans host) r q)
    (hclass : q.matches_.IsExact ↔ p.matches_.IsExact) : planBefore p q = true := by
  have hbest := host_lookup_fineBefore h hq hholds hvis
  simp only [← isExactPlan_iff, ← Bool.eq_iff_iff] at hclass
  rw [fineBefore, classFirst, if_pos hclass.symm] at hbest
  exact (tieBreak_iff.1 hbest).1

end HostLookup

def RequestMatch.pathLength (m : RequestMatch) : ℕ := (m.path.map fun p => p.text.utf8ByteSize).getD 0

def RequestMatch.rank (m : RequestMatch) : ℕ ×ₗ ℕ ×ₗ ℕ ×ₗ ℕ :=
  toLex (m.pathLength, toLex (m.method.isSome.toNat, toLex (m.headers.length, m.queryParams.length)))

/-- no field of the precedence overflows -/
structure RequestMatch.Fits (m : RequestMatch) : Prop where
  path : m.pathLength < 2 ^ 16
  headers : m.headers.length < 2 ^ 16
  query : m.queryParams.length < 2 ^ 16

theorem shift_toNat {x k : ℕ} (hk : k ≤ 48) (hx : x < 2 ^ 16) : (UInt64.ofNat x <<< UInt64.ofNat k).toNat = x * 2 ^ k := by
  have hfit : x * 2 ^ k < 2 ^ 64 := by
    calc x * 2 ^ k < 2 ^ 16 * 2 ^ k := by gcongr
      _ ≤ 2 ^ 16 * 2 ^ 48 := by gcongr; omega
      _ = 2 ^ 64 := by norm_num
  rw [UInt64.toNat_shiftLeft, UInt64.toNat_ofNat', UInt64.toNat_ofNat', Nat.mod_eq_of_lt (a := x) (by omega),
    Nat.mod_eq_of_lt (a := k) (b := 2 ^ 64) (by omega), Nat.mod_eq_of_lt (a := k) (b := 64) (by omega),
    Nat.shiftLeft_eq, Nat.mod_eq_of_lt hfit]

theorem pack_toNat {a b c d : ℕ} (ha : a < 2 ^ 16) (hb : b < 2 ^ 16) (hc : c < 2 ^ 16) (hd : d < 2 ^ 16) :
    ((UInt64.ofNat a <<< 48) ||| (UInt64.ofNat b <<< 32) ||| (UInt64.ofNat c <<< 16) ||| UInt64.ofNat d).toNat
      = a * 2 ^ 48 + (b * 2 ^ 32 + (c * 2 ^ 16 + d)) := by
  have hor : ∀ (x : ℕ) {y k : ℕ}, y < 2 ^ k → x * 2 ^ k ||| y = x * 2 ^ k + y := by
    intro x y k hy
    rw [Nat.mul_comm]
    exact (Nat.two_pow_add_eq_or_of_lt hy x).symm
  have h48 : (UInt64.ofNat a <<< 48).toNat = a * 2 ^ 48 := shift_toNat (k := 48) (by omega) ha
  have h32 : (UInt64.ofNat b <<< 32).toNat = b * 2 ^ 32 := shift_toNat (k := 32) (by omega) hb
  have h16 : (UInt64.ofNat c <<< 16).toNat = c * 2 ^ 16 := shift_toNat (k := 16) (by omega) hc
  rw [UInt64.toNat_or, UInt64.toNat_or, UInt64.toNat_or, h48, h32, h16, UInt64.toNat_ofNat',
    Nat.mod_eq_of_lt (a := d) (by omega), Nat.or_assoc, Nat.or_assoc, hor c hd, hor b (by omega), hor a (by omega)]

theorem maxOf_singleton (n : ℕ) : maxOf [n] = n := by simp [maxOf]

theorem precedence_toNat {rule : Rule} {m : RequestMatch} (hone : rule.matches_ = [m]) (hfit : m.Fits) :
    (computePrecedence rule).toNat
      = m.pathLength * 2 ^ 48 + (m.method.isSome.toNat * 2 ^ 32 + (m.headers.length * 2 ^ 16 + m.queryParams.length)) := by
  have hpath : maxOf (rule.matches_.filterMap fun m => m.path.map fun p => p.text.utf8ByteSize) = m.pathLength := by
    rw [hone, RequestMatch.pathLength]
    cases hp : m.path <;> simp [hp, maxOf]
  have hmethod : maxOf (rule.matches_.map fun m => if m.method.isSome then 1 else 0) = m.method.isSome.toNat := by
    rw [hone, map_singleton]
    cases m.method <;> rfl
  have hbit := Bool.toNat_lt m.method.isSome
  rw [computePrecedence, hpath, hmethod, hone, map_singleton, map_singleton]
  exact pack_toNat hfit.path (by omega) hfit.headers hfit.query

theorem rank_lt_or_eq_iff {rule rule' : Rule} {m m' : RequestMatch} (hone : rule.matches_ = [m])
    (hone' : rule'.matches_ = [m']) (hfit : m.Fits) (hfit' : m'.Fits) :
    ((computePrecedence rule').toNat < (computePrecedence rule).toNat ↔ m'.rank < m.rank)
      ∧ ((computePrecedence rule).toNat = (computePrecedence rule').toNat ↔ m'.rank = m.rank) := by
  have hb := Bool.toNat_lt m.method.isSome
  have hb' := Bool.toNat_lt m'.method.isSome
  obtain ⟨h₁, h₂, h₃⟩ := hfit
  obtain ⟨h₁', h₂', h₃'⟩ := hfit'
  rw [precedence_toNat hone ⟨h₁, h₂, h₃⟩, precedence_toNat hone' ⟨h₁', h₂', h₃'⟩]
  simp only [RequestMatch.rank, Prod.Lex.toLex_lt_toLex, toLex_inj, Prod.mk.injEq]
  constructor <;> omega

/-! ## The documented order -/

def nodePlanCount (n : HostNode) (k : List String) : ℕ :=
  ((n.pathTrie.walk k).prefixPlans ++ (n.pathTrie.walk k).exactPlans).length

theorem nodePlanCount_compileHost (ω : IterOrder) (host : HostRoute) (k : List String) :
    nodePlanCount (compileHost ω host) k = (plansUnder (hostPlans host) k).length := by
  have hown := own_walk_compileHost ω host k
  have hprefix := congrArg PathTrieNode.prefixPlans hown
  have hexact := congrArg PathTrieNode.exactPlans hown
  simp only [PathTrieNode.own, rootNode, buildDiscriminators] at hprefix hexact
  rw [nodePlanCount, hprefix, hexact, append_nil]

theorem nodePlanCount_le (ω : IterOrder) (host : HostRoute) (k : List String) :
    nodePlanCount (compileHost ω host) k ≤ (hostPlans host).length := by
  rw [nodePlanCount_compileHost]
  exact (length_filter_le _ _).trans (length_filter_le _ _)

variable {r : RouteRequest} {p : CompiledPlan} {ω : IterOrder}

theorem visible_of_small {plans : List CompiledPlan}
    (h : (plansUnder plans (trieKey p)).length ≤ discriminatorThreshold) : Visible ω plans r p := by
  rintro - ⟨a, v, hattr, -, -⟩
  rw [nodeAttribute, if_neg (by omega)] at hattr
  cases hattr

theorem visible_of_few {plans : List CompiledPlan} (h : plans.length ≤ discriminatorThreshold) : Visible ω plans r p :=
  visible_of_small (((length_filter_le _ _).trans (length_filter_le _ _)).trans h)

theorem host_lookup_of_one {re : RegexEngine} {host : HostRoute} (hplans : hostPlans host = [p])
    (hholds : p.matches_.Holds re r) : (compileHost ω host).lookup re r = some p := by
  have hvis : Visible ω (hostPlans host) r p := visible_of_few (by simp [hplans, discriminatorThreshold])
  obtain ⟨q, hq⟩ := Option.isSome_iff_exists.1 (host_lookup_isSome_iff.2 ⟨p, by simp [hplans], hholds, hvis⟩)
  have hmem := (host_lookup_sound hq).1
  rw [hplans, mem_singleton] at hmem
  rw [hq, hmem]

/-- **Precedence inside a host.** With one match to a rule, counts that fit and no crowded node, a lookup fails exactly when no
rule matches, and otherwise returns the earliest of greatest rank, exact paths first. -/
theorem host_lookup_precedence (ω : IterOrder) (re : RegexEngine) (host : HostRoute) (r : RouteRequest)
    (hone : ∀ rule ∈ host.rules, rule.matches_.length = 1)
    (hfit : ∀ rule ∈ host.rules, ∀ m ∈ rule.matches_, m.Fits)
    (hnode : ∀ k, nodePlanCount (compileHost ω host) k ≤ discriminatorThreshold) :
    ((compileHost ω host).lookup re r = none ↔ ∀ rule ∈ host.rules, ∀ m ∈ rule.matches_, ¬ m.Holds re r)
      ∧ ∀ p, (compileHost ω host).lookup re r = some p → ∃ rule ∈ host.rules, ∃ m ∈ rule.matches_,
        p = compilePlan rule (computePrecedence rule) m host.gatewayApi host.disableSecureRedirection host.listenerHostname
          ∧ m.Holds re r
          ∧ ∀ rule' ∈ host.rules, ∀ m' ∈ rule'.matches_, m'.Holds re r → (m'.IsExact → m.IsExact)
              ∧ ((m'.IsExact ↔ m.IsExact) → m'.rank < m.rank ∨ (m'.rank = m.rank ∧ rule.ruleOrder ≤ rule'.ruleOrder)) := by
  have hvis : ∀ p, Visible ω (hostPlans host) r p := by
    intro p
    refine visible_of_small ?_
    rw [← nodePlanCount_compileHost ω]
    exact hnode _
  have hsingle : ∀ rule ∈ host.rules, ∀ m ∈ rule.matches_, rule.matches_ = [m] := by
    intro rule hrule m hm
    obtain ⟨m₀, h₀⟩ := length_eq_one_iff.1 (hone rule hrule)
    rw [h₀, mem_singleton] at hm
    rw [h₀, hm]
  constructor
  · rw [← Option.not_isSome_iff_eq_none, host_lookup_isSome_iff]
    constructor
    · intro hnone rule hrule m hm hholds
      exact hnone ⟨_, mem_hostPlans.2 ⟨rule, hrule, m, hm, rfl⟩, by simpa using hholds, hvis _⟩
    · rintro hnone ⟨q, hq, hholds, -⟩
      obtain ⟨rule, hrule, m, hm, rfl⟩ := mem_hostPlans.1 hq
      exact hnone rule hrule m hm (by simpa using hholds)
  · intro p hp
    obtain ⟨hmem, hholds⟩ := host_lookup_sound hp
    obtain ⟨rule, hrule, m, hm, rfl⟩ := mem_hostPlans.1 hmem
    refine ⟨rule, hrule, m, hm, rfl, by simpa using hholds, fun rule' hrule' m' hm' hholds' => ?_⟩
    have hq := mem_hostPlans.2 ⟨rule', hrule', m', hm', rfl⟩
    constructor
    · intro hex
      have hexact := host_lookup_isExact hp hq (by simpa using hholds') (by simpa using hex)
      simpa using hexact
    · intro hclass
      have hbest := host_lookup_best hp hq (by simpa using hholds') (hvis _) (by simpa using hclass)
      obtain ⟨hlt, heq⟩ := rank_lt_or_eq_iff (hsingle rule hrule m hm) (hsingle rule' hrule' m' hm')
        (hfit rule hrule m hm) (hfit rule' hrule' m' hm')
      rw [planBefore_iff] at hbest
      simp only [compilePlan_precedence, compilePlan_ruleOrder] at hbest
      rcases hbest with h | ⟨h, horder⟩
      · exact .inl (hlt.1 h)
      · exact .inr ⟨heq.1 h, horder⟩

def apiHost : HostRoute :=
  { hostname := .exact "app.example.com"
    rules := [{ matches_ := [{ path := some (.pathPrefix "/api") }], action := .route {} },
      { matches_ := [{ path := some (.pathPrefix "/api"), method := some "POST" }], action := .route {},
        ruleOrder := 1 }] }

def postRequest : RouteRequest :=
  { host := "app.example.com", port := 443, path := "/api/orders", method := "POST", headers := [], query := none }

theorem post_finds_rule : (compileHost IterOrder.stored apiHost).lookup ⟨fun _ => none⟩ postRequest ≠ none := by
  have hfit : ∀ rule ∈ apiHost.rules, ∀ m ∈ rule.matches_, m.Fits := by
    intro rule hrule m hm
    simp only [apiHost, mem_cons, not_mem_nil, or_false] at hrule
    rcases hrule with rfl | rfl
    all_goals
      cases mem_singleton.1 hm
      exact ⟨by decide, by decide, by decide⟩
  have hnode : ∀ k, nodePlanCount (compileHost IterOrder.stored apiHost) k ≤ discriminatorThreshold := fun k =>
    (nodePlanCount_le _ _ k).trans (by decide)
  intro hnone
  have hno := (host_lookup_precedence _ _ apiHost postRequest (by decide) hfit hnode).1.1 hnone
  refine hno _ (mem_cons_self ..) _ (mem_singleton.2 rfl) ⟨?_, by simp, by simp, by simp⟩
  decide

end SunbeamProxy
