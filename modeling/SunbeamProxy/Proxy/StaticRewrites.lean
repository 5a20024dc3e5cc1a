/-
Static rewrites: where they are kept (`compile_rewrites_from_ir`, `find_rewrites` in `proxy/mod.rs`) and which of them a request
gets (`execute_static_files_stage` in `proxy/request_filter.rs`).
-/
import SunbeamProxy.Proxy.RequestFilter
import SunbeamProxy.RouteManager.Model

namespace SunbeamProxy

open List

def HostNode.compiledRewrites (re : RegexEngine) (n : HostNode) : List RewriteRule :=
  n.staticRewrites.filter fun rw => (re.compile rw.pattern).isSome

def CompiledRouteTable.namedNodes (ω : IterOrder) (t : CompiledRouteTable) : List (HostnameMatch × HostNode) :=
  ((ω.order t.exactHosts.pairs).flatMap fun e => e.2.map fun n => (.exact e.1, n))
    ++ t.wildcardHosts ++ t.anyHost.toList.map fun n => (.any, n)

def RewriteRule.compiled (rw : RewriteRule) : CompiledRewrite := ⟨rw.pattern, rw.target⟩

/-- the proxy holds the rewrites of the table it serves -/
structure ServesTable (ω : IterOrder) (px : Proxy) : Prop where
  rewrites : px.compiledRewrites
    = (compileRewritesFromIr ω px.regex px.routes).map fun e => (e.1, e.2.map RewriteRule.compiled)

variable {ω : IterOrder} {re : RegexEngine} {t : CompiledRouteTable}

theorem compileRewritesFromIr_eq : compileRewritesFromIr ω re t = (t.namedNodes ω).flatMap fun e => hostRewrites re e.1 e.2 := by
  simp [compileRewritesFromIr, CompiledRouteTable.namedNodes, flatMap_assoc, flatMap_map]

/-- the entries that a search for a text comes upon: nodes with that name and with rewrites -/
def storedUnder (re : RegexEngine) (text : String) (e : HostnameMatch × HostNode) : Bool :=
  e.1.hostPrefix = text && e.2.compiledRewrites re ≠ []

theorem find?_compileRewrites (text : String) : ((compileRewritesFromIr ω re t).find? (·.1 = text)).map (·.2)
    = ((t.namedNodes ω).find? (storedUnder re text)).map (·.2.compiledRewrites re) := by
  rw [compileRewritesFromIr_eq]
  induction t.namedNodes ω with
  | nil => rfl
  | cons e nodes ih =>
    have hentry : hostRewrites re e.1 e.2
        = if e.2.compiledRewrites re = [] then [] else [(e.1.hostPrefix, e.2.compiledRewrites re)] := rfl
    rw [flatMap_cons, find?_append, find?_cons, hentry, storedUnder]
    by_cases hnil : e.2.compiledRewrites re = []
    · simp only [hnil, if_true, find?_nil, Option.none_or, ne_eq, not_true, decide_false, Bool.and_false]
      exact ih
    · by_cases htext : e.1.hostPrefix = text
      · simp [hnil, htext]
      · simp only [hnil, if_false, find?_singleton, htext, decide_false, Bool.false_eq_true, Option.none_or, Bool.false_and]
        exact ih

variable (hostname : HostnameMatch)

def docsTable : RouteTable :=
  { hosts := [{ hostname, rules := [⟨[{}], .staticFiles { root := "/srv", rewrites := [⟨".*", "/index.html"⟩] }, 0⟩] }] }

def docsProxy : Proxy :=
  { regex := ⟨fun _ => some fun _ => true⟩, fxHash := fun _ => 0
    routes := CompiledRouteTable.compile IterOrder.stored (docsTable hostname)
    compiledRewrites := [(hostname.hostPrefix, [⟨".*", "/index.html"⟩])] }

def docsSession : Session := ⟨⟨"GET", { path := "/guide" }, [("host", .ofString "docs.example.com")]⟩, none, none⟩

def docsNode : HostNode := compileHost IterOrder.stored
    { hostname, rules := [⟨[{}], .staticFiles { root := "/srv", rewrites := [⟨".*", "/index.html"⟩] }, 0⟩] }

end SunbeamProxy
