/-
The route manager (`route_manager.rs`): configuration sources hand in route tables; the manager merges them by priority,
compiles the result, swaps it into service and keeps the versions it has applied.
-/
import SunbeamProxy.Core.OrderedMap
import SunbeamProxy.IR.L4
import SunbeamProxy.IR.Lookup

namespace SunbeamProxy

abbrev SourceId := String

abbrev CompiledRewrites := List (String × List RewriteRule)

def HostnameMatch.hostPrefix : HostnameMatch → String
  | .exact s => s
  | .labelPrefix s => s
  | .wildcard s => "*." ++ s
  | .any => "*"

def hostRewrites (re : RegexEngine) (hostname : HostnameMatch) (node : HostNode) : CompiledRewrites :=
  let compiled := node.staticRewrites.filter fun rw => (re.compile rw.pattern).isSome
  if compiled = [] then [] else [(hostname.hostPrefix, compiled)]

variable (ω : IterOrder)

def compileRewritesFromIr (re : RegexEngine) (t : CompiledRouteTable) : CompiledRewrites :=
  ((ω.order t.exactHosts.pairs).flatMap fun e => e.2.flatMap (hostRewrites re (.exact e.1)))
    ++ (t.wildcardHosts.flatMap fun e => hostRewrites re e.1 e.2)
    ++ t.anyHost.toList.flatMap (hostRewrites re .any)

def priorityOf (priorities : HashMap SourceId ℤ) (id : SourceId) : ℤ := (priorities.get id).getD 0

def sourceBefore (priorities : HashMap SourceId ℤ) (a b : SourceId × RouteTable) : Bool :=
  decide (priorityOf priorities b.1 < priorityOf priorities a.1)
    || (priorityOf priorities a.1 == priorityOf priorities b.1 && decide (a.1 ≤ b.1))

def orderedSources (sources : HashMap SourceId RouteTable) (priorities : HashMap SourceId ℤ) :
    List (SourceId × RouteTable) := stableSort (sourceBefore priorities) sources.pairs

def firstById {α : Type} (id : α → String) (l : List α) : List α :=
  (OrderedMap.gather id (fun a => a) (fun _ first => first) l).values

def mergeSources (sources : HashMap SourceId RouteTable) (priorities : HashMap SourceId ℤ) : RouteTable :=
  let ordered := (orderedSources sources priorities).map (·.2)
  { listeners := firstById (·.id) (ordered.flatMap (·.listeners))
    hosts := ordered.flatMap (·.hosts)
    acmeRoutes := ordered.foldl (fun m t => m.extend t.acmeRoutes) ∅
    l4Routes := ordered.flatMap (·.l4Routes)
    tlsCerts := firstById (·.id) (ordered.flatMap (·.tlsCerts)) }

structure Compiled where
  table : CompiledRouteTable
  l4Config : CompiledL4Config
  rewrites : CompiledRewrites

def compileMerged (re : RegexEngine) (merged : RouteTable) : Except CompileError Compiled :=
  match CompiledL4Config.compile ω merged with
  | .error e => .error e
  | .ok l4Config =>
    let table := CompiledRouteTable.compile ω merged
    .ok ⟨table, l4Config, compileRewritesFromIr ω re table⟩

structure Version extends Compiled where
  id : ℕ
  source : SourceId
  appliedAt : ℕ

structure RouteManager where
  current : CompiledRouteTable
  l4Config : CompiledL4Config
  rewrites : CompiledRewrites
  sources : HashMap SourceId RouteTable
  priorities : HashMap SourceId ℤ
  /-- oldest first -/
  history : List Version
  maxHistory : ℕ
  l4Changed : Bool

def Compiled.empty (re : RegexEngine) : Compiled :=
  ⟨CompiledRouteTable.empty, {}, compileRewritesFromIr ω re CompiledRouteTable.empty⟩

namespace RouteManager

variable (m : RouteManager)

def serving : Compiled := ⟨m.current, m.l4Config, m.rewrites⟩

def store (c : Compiled) : RouteManager :=
  { m with current := c.table, l4Config := c.l4Config, rewrites := c.rewrites }

def new (ω : IterOrder) (re : RegexEngine) (maxHistory : ℕ) : RouteManager :=
  let empty := Compiled.empty ω re
  { current := empty.table, l4Config := empty.l4Config, rewrites := empty.rewrites
    sources := ∅, priorities := ∅, history := [], maxHistory, l4Changed := false }

def setPriority (source : SourceId) (priority : ℤ) : RouteManager :=
  { m with priorities := m.priorities.insert source priority }

def pushVersion {α : Type} (maxHistory : ℕ) (history : List α) (v : α) : List α :=
  (if maxHistory ≤ history.length then history.tail else history) ++ [v]

def commit (sources : HashMap SourceId RouteTable) (v : Version) : RouteManager :=
  { m.store v.toCompiled with l4Changed := true, sources, history := pushVersion m.maxHistory m.history v }

def apply (ω : IterOrder) (re : RegexEngine) (m : RouteManager) (source : SourceId) (table : RouteTable) (id now : ℕ) :
    Except CompileError Unit × RouteManager :=
  let tentativeSources := m.sources.insert source table
  match compileMerged ω re (mergeSources tentativeSources m.priorities) with
  | .error e => (.error e, m)
  | .ok compiled => (.ok (), m.commit tentativeSources { compiled with id, source, appliedAt := now })

def restore (newLen : ℕ) (target : Version) : RouteManager :=
  { m.store target.toCompiled with history := m.history.take newLen }

def rollback (steps : ℕ) : Bool × RouteManager := if steps = 0 then (false, m)
  else if m.history.length ≤ steps then (false, m)
  else
    let newLen := m.history.length - steps
    match m.history[newLen - 1]? with
    | none => (false, m)
    | some target => (true, m.restore newLen target)

end RouteManager

end SunbeamProxy
