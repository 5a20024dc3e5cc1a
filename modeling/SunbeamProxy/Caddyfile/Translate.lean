/-
From a Caddyfile to the intermediate representation (`caddyfile/translate.rs`).

Unsupported directives are passed over with a warning, which is not modelled.
-/
import SunbeamProxy.Gateway.Endpoints

namespace SunbeamProxy.Caddy

open Text

inductive Scheme where
  | http | https
deriving DecidableEq, Repr

structure Address where
  scheme : Option Scheme := none
  host : String
  port : Option UInt16 := none
deriving DecidableEq, Repr

inductive Matcher where
  | all
  | path (path : String)
  | named (name : String)
deriving DecidableEq, Repr

structure Directive where
  name : String
  matcher : Option Matcher := none
  arguments : List String := []
  block : Option (List Directive) := none

structure SiteBlock where
  addresses : List Address
  directives : List Directive

structure Caddyfile where
  /-- directives of the global options -/
  globalOptions : Option (List Directive) := none
  sites : List SiteBlock := []

def translateAddress (addr : Address) : HostnameMatch × Option ListenerConfig :=
  let hostname : HostnameMatch :=
    if addr.host = "" ∨ addr.host = ":" then .any
    else match stripStart addr.host "*." with
      | some suffix => .wildcard suffix
      | none => .exact addr.host
  (hostname, addr.port.map fun port =>
    let bindAddr := "0.0.0.0:" ++ toString port.toNat
    { id := bindAddr, bindAddr, protocol := if addr.scheme = some .https then .https else .http })

variable (directive : Directive)

def translateBindDirective : ListenerConfig :=
  let addr := directive.arguments.head?.getD "0.0.0.0:80"
  let bindAddr := Gateway.trimStartMatches "https://" addr.length (Gateway.trimStartMatches "http://" addr.length addr)
  { id := bindAddr, bindAddr, protocol := if startsWith addr "https://" then .https else .http }

def translatePathMatcher (path : String) : PathMatch :=
  if path = "*" then .pathPrefix "/"
  else match stripEnd path "*" with
    | some start => .pathPrefix start
    | none => .exact path

def translateMatcher : Option Matcher → Except String (Option RequestMatch)
  | none => .ok none
  | some .all => .ok (some {})
  | some (.path path) => .ok (some { path := some (translatePathMatcher path) })
  | some (.named name) => .error ("named matcher @" ++ name ++ " is not supported in this patch")

def combineMatches (outer inner : RequestMatch) : RequestMatch :=
  { path := inner.path.or outer.path
    method := inner.method.or outer.method
    headers := inner.headers ++ outer.headers
    queryParams := inner.queryParams ++ outer.queryParams }

def directiveValues : List String :=
  match directive.arguments, directive.matcher with
  | [], some (.path path) => [path]
  | values, _ => values

def translateTryFiles : List RewriteRule :=
  let args := directiveValues directive
  ((args.zip args.tail).filter fun e => !startsWith e.2 "\x7b").map fun e => ⟨e.1, e.2⟩

def fileSetting (action : StaticFileAction) (d : Directive) : StaticFileAction :=
  match d.name with
  | "root" => { action with root := (directiveValues d).head?.getD "." }
  | "try_files" =>
    { action with
      rewrites := action.rewrites ++ translateTryFiles d
      fallback := ((directiveValues d).getLast?.filter fun last => !startsWith last "\x7b").or action.fallback }
  | _ => action

variable (directives : List Directive)

def translateStaticFileBlock (startIdx : ℕ) : Except String (Option Rule) :=
  match directives[startIdx]? with
  | none => .ok none
  | some directive =>
    if directive.name ≠ "file_server" then .ok none
    else do
      let above := (directives.take startIdx).reverse.takeWhile fun d => d.name == "root" || d.name == "try_files"
      let action := (directive.block.getD []).foldl fileSetting (above.foldl fileSetting { root := "." })
      let matcher ← translateMatcher directive.matcher
      pure (some { matches_ := [matcher.getD {}], action := .staticFiles action, ruleOrder := startIdx })

/-! ## Rules -/

def routeRule (idx : ℕ) (action : RouteAction) : Except String Rule := do
  let matcher ← translateMatcher directive.matcher
  pure { matches_ := [matcher.getD {}], action := .route action, ruleOrder := idx }

def translateReverseProxy (idx : ℕ) : Except String Rule :=
  routeRule directive idx { backends := directive.arguments.map fun addr => { backend := addr, weight := 1 } }

def rewriteFilter (matcher : Option RequestMatch) (args : List String) (idx : ℕ) : Except String RequestFilter :=
  match matcher, args with
  | some _, target :: _ => .ok (.rewritePath (.fullReplace target))
  | some _, [] => .error ("rewrite directive at index " ++ toString idx ++ " is missing a target")
  | none, source :: target :: _ => .ok (.rewritePath (.prefixReplace source target))
  | none, _ => .error ("rewrite directive at index " ++ toString idx ++ " requires at least two arguments")

def translateRewrite (idx : ℕ) : Except String Rule := do
  let matcher ← translateMatcher directive.matcher
  let rewrite ← rewriteFilter matcher directive.arguments idx
  pure { matches_ := [matcher.getD {}], action := .route { requestFilters := [rewrite] }, ruleOrder := idx }

def translateHeader (idx : ℕ) : Except String Rule :=
  routeRule directive idx { responseFilters := match directive.arguments with
    | name :: value :: _ => [if value = "" then .removeHeader name else .setHeader name value]
    | _ => [] }

def translateRequestHeader (idx : ℕ) : Except String Rule :=
  routeRule directive idx { requestFilters := match directive.arguments with
    | name :: value :: _ => [if value = "" then .removeHeader name else .setHeader name value]
    | _ => [] }

def translateForwardAuth (idx : ℕ) : Except String Rule := do
  let matcher ← translateMatcher directive.matcher
  match directive.arguments with
  | [] => .error ("forward_auth at index " ++ toString idx ++ " requires a URL")
  | url :: _ =>
    pure { matches_ := [matcher.getD {}], action := .route { auth := some { url } }, ruleOrder := idx }

inductive RuleKind where
  | fileServer | reverseProxy | rewrite | header | requestHeader | forwardAuth
deriving DecidableEq, Repr

def ruleKind : String → Option RuleKind
  | "file_server" => some .fileServer
  | "reverse_proxy" => some .reverseProxy
  | "rewrite" => some .rewrite
  | "header" => some .header
  | "request_header" => some .requestHeader
  | "forward_auth" => some .forwardAuth
  | _ => none

def directiveRules (directive : Directive) (idx : ℕ) : Except String (List Rule) :=
  match ruleKind directive.name with
  | some .fileServer => Option.toList <$> translateStaticFileBlock directives idx
  | some .reverseProxy => List.singleton <$> translateReverseProxy directive idx
  | some .rewrite => List.singleton <$> translateRewrite directive idx
  | some .header => List.singleton <$> translateHeader directive idx
  | some .requestHeader => List.singleton <$> translateRequestHeader directive idx
  | some .forwardAuth => List.singleton <$> translateForwardAuth directive idx
  | none => .ok []

def underHandle (stripPath : Bool) (outer : RequestMatch) (rule : Rule) : Rule :=
  { rule with
    matches_ := match rule.matches_ with
      | inner :: rest => combineMatches outer inner :: rest
      | [] => []
    action := match rule.action, outer.path with
      | .route action, some path =>
        if stripPath then .route { action with requestFilters := .stripPrefix path.text :: action.requestFilters }
        else .route action
      | action, _ => action }

def isHandle (name : String) : Bool := name == "handle" || name == "handle_path" || name == "route"

def translateHandleGroup (idx : ℕ) : Except String (List Rule) := do
  let matcher ← translateMatcher directive.matcher
  let block := directive.block.getD []
  let rules ← block.zipIdx.mapM fun e => (fun rules => rules.map fun rule =>
      { matcher.elim rule (underHandle (directive.name == "handle_path") · rule) with ruleOrder := idx * 1000 + e.2 })
    <$> directiveRules block e.1 e.2
  pure rules.flatten

def siteRules (directive : Directive) (idx : ℕ) : Except String (List Rule) :=
  if isHandle directive.name then translateHandleGroup directive idx else directiveRules directives directive idx

def translateSite (site : SiteBlock) : Except String (HostRoute × Option ListenerConfig) := do
  let addresses := site.addresses.map translateAddress
  let rules ← site.directives.zipIdx.mapM fun e => siteRules site.directives e.1 e.2
  let binds := (site.directives.filter (·.name == "bind")).map translateBindDirective
  pure ({ hostname := (addresses.head?.map Prod.fst).getD .any, rules := rules.flatten },
    binds.getLast?.or (addresses.filterMap Prod.snd).getLast?)

def translate (caddyfile : Caddyfile) : Except String RouteTable := do
  let globals := ((caddyfile.globalOptions.getD []).filter (·.name == "bind")).map translateBindDirective
  let sites ← caddyfile.sites.mapM translateSite
  pure { listeners := globals ++ sites.filterMap Prod.snd, hosts := sites.map Prod.fst }

theorem translate_ok {caddyfile : Caddyfile} {table : RouteTable} (h : translate caddyfile = .ok table) :
    ∃ sites, List.Forall₂ (fun pair site => translateSite site = .ok pair) sites caddyfile.sites
      ∧ table = { listeners := ((caddyfile.globalOptions.getD []).filter (·.name == "bind")).map translateBindDirective
                    ++ sites.filterMap Prod.snd
                  hosts := sites.map Prod.fst } := by
  obtain ⟨sites, hsites, h⟩ := bind_ok h
  have hrel : List.Forall₂ (fun pair site => translateSite site = .ok pair) sites (caddyfile.sites.map id) :=
    mapM_ok_rel (fun site _ pair hpair => hpair) hsites
  rw [List.map_id] at hrel
  exact ⟨sites, hrel, (Except.ok.inj h).symm⟩

end SunbeamProxy.Caddy
