/-
GRPC routes to the IR (`gateway/translate/grpc.rs`).
-/
import SunbeamProxy.Gateway.HttpRoute

namespace SunbeamProxy.Gateway

def MethodMatch.exactPath (m : MethodMatch) : Option String :=
  match m.matchType with
  | .exact => m.method.map fun method => "/" ++ m.service ++ "/" ++ method
  | .regular => none

def grpcMatchToRouteMatch (m : GRPCRouteMatch) : RequestMatch :=
  { path := m.method.bind fun method => match method.matchType with
      | .exact => method.exactPath.map .exact
      | .regular => if method.service = "" then none else some (.pathPrefix ("/" ++ method.service ++ "/"))
    headers := m.headers }

variable (rule : GRPCRouteRule)

def buildIrRuleFromGrpc (reqMatch : RequestMatch) (ruleIdx : ℕ) (clientCertId : Option String) :
    Rule :=
  { matches_ := [reqMatch]
    action := .route
      { backends := rule.backends.map irWeightedBackend
        requestFilters := rule.filters.filterMap RouteFilter.requestHeader
        responseFilters := rule.filters.filterMap RouteFilter.responseHeader
        disableHttpsRedirect := true
        clientCertId }
    ruleOrder := ruleIdx }

def translateGrpcRuleToIr (ruleIdx : ℕ) (programmed : Bool) (clientCertId : Option String) :
    List Rule :=
  let ms : List RequestMatch := if rule.matches_.isEmpty then [{}] else rule.matches_.map grpcMatchToRouteMatch
  if !programmed then ms.map fun m => { matches_ := [m], action := unprogrammedAction, ruleOrder := ruleIdx }
  else ms.map fun m => buildIrRuleFromGrpc rule m ruleIdx clientCertId

variable (route : GRPCRouteState)

def grpcCatchAllRules (clientCertId : Option String) : List Rule :=
  if !route.programmed then [{ matches_ := [{}], action := unprogrammedAction }]
  else
    match route.rules.head?.bind fun first => first.backends.head? with
    | none => []
    | some b =>
      [{ matches_ := [{}]
         action := .route { backends := [irWeightedBackend b], disableHttpsRedirect := true, clientCertId } }]

def grpcRouteIrRules (clientCertId : Option String) : List Rule :=
  let rules := route.rules.zipIdx.flatMap fun e => translateGrpcRuleToIr e.1 e.2 e.1.programmed clientCertId
  if rules.isEmpty && !route.rules.isEmpty then grpcCatchAllRules route clientCertId else rules

theorem translateGrpcRuleToIr_ne_nil (idx : ℕ) (programmed : Bool) (cert : Option String) :
    translateGrpcRuleToIr rule idx programmed cert ≠ [] := by
  unfold translateGrpcRuleToIr
  cases programmed <;> cases h : rule.matches_ <;> simp

theorem grpcRouteIrRules_eq (cert : Option String) : grpcRouteIrRules route cert
      = route.rules.zipIdx.flatMap fun e => translateGrpcRuleToIr e.1 e.2 e.1.programmed cert := by
  unfold grpcRouteIrRules
  cases hr : route.rules with
  | nil => simp
  | cons first rest =>
    have hne := translateGrpcRuleToIr_ne_nil first 0 first.programmed cert
    simp [hne]

end SunbeamProxy.Gateway
