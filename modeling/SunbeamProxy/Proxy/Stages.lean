/-
What the request filter does with a plan's stages and with the detection layers, on every transport.
-/
import SunbeamProxy.Proxy.RequestFilter

namespace SunbeamProxy

open Text

def connectionSni (px : Proxy) (s : Session) (sniContext : HashMap SocketAddr String) : Option String :=
  if (downstream px s).1 = .https then s.clientAddr.bind sniContext.get else none

def refused (px : Proxy) (s : Session) (sniContext : HashMap SocketAddr String) : Bool :=
  (connectionSni px s sniContext).any (misdirected px.l4Config (downstream px s).2 · (extractHost s))

theorem enterFilter_fst (px : Proxy) (s : Session) (st : FilterSt) :
    (enterFilter px s st).1 = connectionSni px s st.sniContext := by
  simp only [enterFilter, connectionSni, sniForSession]
  split_ifs
  · cases s.clientAddr <;> rfl
  · rfl

theorem enterFilter_ctx (px : Proxy) (s : Session) (st : FilterSt) : (enterFilter px s st).2.ctx
      = { st.ctx with downstreamScheme := (downstream px s).1, downstreamPort := (downstream px s).2 } := by
  simp only [enterFilter]
  split_ifs <;> rfl

theorem enterFilter_trace (px : Proxy) (s : Session) (st : FilterSt) : (enterFilter px s st).2.trace = st.trace := by
  simp only [enterFilter]
  split_ifs <;> rfl

theorem requestFilterInner_eq (px : Proxy) (w : World) (s : Session) (st : FilterSt) : requestFilterInner px w s st =
      if refused px s st.sniContext then respond w (enterFilter px s st).2 (.bare 421)
      else if isPlainHttp s then plainHttp px w s (enterFilter px s st).2
      else continueWith (detectionPipeline px w s (enterFilter px s st).2) (routeSecured px w s) := by
  rw [refused, ← enterFilter_fst, requestFilterInner]
  simp [enterFilter_ctx]

def newRequest (sniContext : HashMap SocketAddr String) : FilterSt := { sniContext }

theorem enterFilter_newRequest (px : Proxy) (s : Session) (sniContext : HashMap SocketAddr String) :
    (enterFilter px s (newRequest sniContext)).2.trace = [] ∧ (enterFilter px s (newRequest sniContext)).2.ctx.plan = none
      ∧ (enterFilter px s (newRequest sniContext)).2.ctx.acmeBackend = none
      ∧ (enterFilter px s (newRequest sniContext)).2.ctx.downstreamPort = (downstream px s).2 := by
  rw [enterFilter_trace, enterFilter_ctx]
  exact ⟨rfl, rfl, rfl, rfl⟩

variable {s : Session} {sniContext : HashMap SocketAddr String}

variable {px : Proxy}

theorem requestFilterInner_refused (href : refused px s sniContext = true) (w : World) :
    requestFilterInner px w s (newRequest sniContext) = respond w (enterFilter px s (newRequest sniContext)).2 (.bare 421) := by
  rw [requestFilterInner_eq]
  exact if_pos href

theorem requestFilterInner_plain (href : refused px s sniContext = false) (hplain : isPlainHttp s = true) (w : World) :
    requestFilterInner px w s (newRequest sniContext) = plainHttp px w s (enterFilter px s (newRequest sniContext)).2 := by
  rw [requestFilterInner_eq, if_pos hplain]
  exact if_neg (ne_true_of_eq_false href)

theorem requestFilterInner_secured (href : refused px s sniContext = false) (hplain : isPlainHttp s = false) (w : World) :
    requestFilterInner px w s (newRequest sniContext)
      = continueWith (detectionPipeline px w s (enterFilter px s (newRequest sniContext)).2) (routeSecured px w s) := by
  rw [requestFilterInner_eq, if_neg (ne_true_of_eq_false hplain)]
  exact if_neg (ne_true_of_eq_false href)

theorem written_ne_forward (w : World) (r : Response) : written w r ≠ .forward := by
  rw [written]
  split_ifs <;> decide

variable {st : FilterSt} {o : Outcome}

variable {w : World}

theorem executeStage_error {g : RequestStage} (h : executeStage px w s st g = .error o) : o.verdict ≠ .forward := by
  cases g with
  | auth a =>
    simp only [executeStage, executeAuthStage] at h
    split at h
    · split_ifs at h
      obtain rfl := Except.error.inj h
      exact written_ne_forward w _
    · obtain rfl := Except.error.inj h
      exact written_ne_forward w _
  | corsPreflight c =>
    simp only [executeStage, executeCorsPreflightStage] at h
    split_ifs at h
    obtain rfl := Except.error.inj h
    exact written_ne_forward w _
  | staticFiles sfa =>
    simp only [executeStage, executeStaticFilesStage] at h
    split at h
    · obtain rfl := Except.error.inj h
      simp
    · obtain rfl := Except.error.inj h
      simp
    · cases h
  | terminal t =>
    obtain rfl := Except.error.inj h
    exact written_ne_forward w _

variable {gs : List RequestStage}

theorem runStages_error (h : runStages px w s gs st = .error o) : o.verdict ≠ .forward := by
  induction gs generalizing st with
  | nil => cases h
  | cons g gs ih =>
    rw [runStages] at h
    cases hg : executeStage px w s st g with
    | error o' =>
      rw [hg] at h
      obtain rfl := Except.error.inj h
      exact executeStage_error hg
    | ok st' =>
      rw [hg] at h
      exact ih h

def AuthPassed (w : World) (s : Session) : RequestStage → Prop
  | .auth a => ∃ resp, w.authSend (authRequest s a) = some resp ∧ resp.isSuccess = true
  | _ => True

variable {st' : FilterSt}

theorem executeStage_ok {g : RequestStage} (h : executeStage px w s st g = .ok st') :
    st'.trace = st.trace ++ [.stage g .passed] ∧ st'.ctx.plan = st.ctx.plan
      ∧ st'.ctx.acmeBackend = st.ctx.acmeBackend ∧ AuthPassed w s g := by
  cases g with
  | auth a =>
    simp only [executeStage, executeAuthStage] at h
    split at h
    · rename_i resp hresp
      split_ifs at h with hok
      obtain rfl := Except.ok.inj h
      exact ⟨rfl, rfl, rfl, resp, hresp, hok⟩
    · cases h
  | corsPreflight c =>
    simp only [executeStage, executeCorsPreflightStage] at h
    split_ifs at h
    obtain rfl := Except.ok.inj h
    exact ⟨rfl, rfl, rfl, trivial⟩
  | staticFiles sfa =>
    simp only [executeStage, executeStaticFilesStage] at h
    split at h
    · cases h
    · cases h
    · obtain rfl := Except.ok.inj h
      exact ⟨rfl, rfl, rfl, trivial⟩
  | terminal t => cases h

theorem runStages_ok (h : runStages px w s gs st = .ok st') :
    st'.trace = st.trace ++ gs.map (fun g => .stage g .passed) ∧ st'.ctx.plan = st.ctx.plan
      ∧ st'.ctx.acmeBackend = st.ctx.acmeBackend ∧ ∀ g ∈ gs, AuthPassed w s g := by
  induction gs generalizing st with
  | nil =>
    obtain rfl := Except.ok.inj h
    simp
  | cons g gs ih =>
    rw [runStages] at h
    cases hg : executeStage px w s st g with
    | error o =>
      rw [hg] at h
      cases h
    | ok st₁ =>
      rw [hg] at h
      obtain ⟨ht₁, hp₁, ha₁, hauth₁⟩ := executeStage_ok hg
      obtain ⟨ht, hp, ha, hauth⟩ := ih h
      refine ⟨by simp [ht, ht₁], hp.trans hp₁, ha.trans ha₁, ?_⟩
      simpa using ⟨hauth₁, hauth⟩

/-- the terminal action that a walk over the stages comes to first -/
def firstTerminal (stages : List RequestStage) : Option TerminalAction := stages.findSome? fun
    | .terminal t => some t
    | _ => none

theorem firstTerminal_mem {t : TerminalAction} (h : firstTerminal gs = some t) : RequestStage.terminal t ∈ gs := by
  obtain ⟨g, hg, ht⟩ := List.exists_of_findSome?_eq_some h
  cases g <;> simp_all

theorem plainStages_eq (w : World) (s : Session) (st : FilterSt) (gs : List RequestStage) :
    (∃ t, firstTerminal gs = some t ∧ plainStages w s st gs = executeTerminalStage w s st t)
      ∨ ((∀ t, RequestStage.terminal t ∉ gs) ∧ plainStages w s st gs = ⟨.forward, st⟩) := by
  induction gs with
  | nil => exact .inr ⟨by simp, rfl⟩
  | cons g gs ih =>
    cases g with
    | terminal t => exact .inl ⟨t, rfl, rfl⟩
    | _ => simpa [plainStages, firstTerminal] using ih

/-- the request has a plan that is served on plain HTTP -/
structure ServedPlain (px : Proxy) (s : Session) (st : FilterSt) (plan : CompiledPlan) : Prop where
  notAcme : startsWith s.req.uri.path acmeChallengePath = false
  found : lookupPlan px s st.ctx.downstreamPort = some plan
  serves : plan.servesPlainHttp = true

/-- how the branch for plain HTTP can end -/
inductive PlainEnd (px : Proxy) (w : World) (s : Session) (st : FilterSt) : Outcome → Prop
  | challenge (backend : String) (hacme : startsWith s.req.uri.path acmeChallengePath = true) :
    PlainEnd px w s st ⟨.forward, { st with ctx := { st.ctx with acmeBackend := some backend } }⟩
  | unknownChallenge (hacme : startsWith s.req.uri.path acmeChallengePath = true) :
    PlainEnd px w s st (respond w st (.bare 404))
  | unrouted (hacme : startsWith s.req.uri.path acmeChallengePath = false)
      (hl : lookupPlan px s st.ctx.downstreamPort = none) (hgw : px.routes.hasGatewayApiRoutes = true) :
    PlainEnd px w s st (respond w st (.bare 404))
  | unknownHost (hacme : startsWith s.req.uri.path acmeChallengePath = false)
      (hl : lookupPlan px s st.ctx.downstreamPort = none) (hgw : px.routes.hasGatewayApiRoutes = false) :
    PlainEnd px w s st (respond w st (secureRedirect s))
  | redirected (plan : CompiledPlan) (hacme : startsWith s.req.uri.path acmeChallengePath = false)
      (hl : lookupPlan px s st.ctx.downstreamPort = some plan) (hserve : plan.servesPlainHttp = false) :
    PlainEnd px w s st (respond w st (secureRedirect s))
  | preflight (plan : CompiledPlan) (cors : CorsConfig) (h : ServedPlain px s st plan)
      (hpre : plainPreflight s plan = some cors) :
    PlainEnd px w s st (respond w (takePlan st plan) ⟨204, corsHeaders s.req cors, none⟩)
  | terminal (plan : CompiledPlan) (t : TerminalAction) (h : ServedPlain px s st plan)
      (hpre : plainPreflight s plan = none) (ht : firstTerminal plan.requestStages = some t) :
    PlainEnd px w s st (executeTerminalStage w s (takePlan st plan) t)
  | passed (plan : CompiledPlan) (h : ServedPlain px s st plan) (hpre : plainPreflight s plan = none)
      (hno : ∀ t, RequestStage.terminal t ∉ plan.requestStages) :
    PlainEnd px w s st ⟨.forward, takePlan st plan⟩

theorem plainHttp_end (px : Proxy) (w : World) (s : Session) (st : FilterSt) : PlainEnd px w s st (plainHttp px w s st) := by
  unfold plainHttp
  cases hacme : startsWith s.req.uri.path acmeChallengePath with
  | true =>
    cases px.acmeRoutes.get s.req.uri.path with
    | some backend => exact .challenge backend hacme
    | none => exact .unknownChallenge hacme
  | false =>
    cases hl : lookupPlan px s st.ctx.downstreamPort with
    | none =>
      cases hgw : px.routes.hasGatewayApiRoutes with
      | true => exact .unrouted hacme hl hgw
      | false => exact .unknownHost hacme hl hgw
    | some plan =>
      cases hserve : plan.servesPlainHttp with
      | false =>
        simp only [hserve]
        exact .redirected plan hacme hl hserve
      | true =>
        simp only [hserve]
        have hplan : ServedPlain px s st plan := ⟨hacme, hl, hserve⟩
        cases hpre : plainPreflight s plan with
        | some cors => exact .preflight plan cors hplan hpre
        | none =>
          rcases plainStages_eq w s (takePlan st plan) plan.requestStages with ⟨t, ht, he⟩ | ⟨hno, he⟩
          · simp only [he]
            exact .terminal plan t hplan hpre ht
          · simp only [he]
            exact .passed plan hplan hpre hno

theorem consultLayers_error {ls : List (Layer × Option (Option Response))} (h : consultLayers w ls st = .error o) :
    o.verdict ≠ .forward := by
  induction ls generalizing st with
  | nil => cases h
  | cons e ls ih =>
    obtain ⟨l, asked⟩ := e
    match asked with
    | none => exact ih h
    | some none => exact ih h
    | some (some r) =>
      obtain rfl := Except.error.inj h
      exact written_ne_forward w _

theorem consultLayers_ok {ls : List (Layer × Option (Option Response))} (h : consultLayers w ls st = .ok st') :
    st'.ctx = st.ctx ∧ ∃ asked : List Layer, st'.trace = st.trace ++ asked.map .consult := by
  induction ls generalizing st with
  | nil =>
    obtain rfl := Except.ok.inj h
    exact ⟨rfl, [], by simp⟩
  | cons e ls ih =>
    obtain ⟨l, asked⟩ := e
    match asked with
    | none => exact ih h
    | some none =>
      obtain ⟨hctx, more, htrace⟩ := ih h
      exact ⟨hctx, l :: more, by simp [htrace, FilterSt.log]⟩
    | some (some r) => cases h

theorem detectionPipeline_error (h : detectionPipeline px w s st = .error o) : o.verdict ≠ .forward := by
  rw [detectionPipeline] at h
  split_ifs at h
  exact consultLayers_error h

theorem detectionPipeline_ok (h : detectionPipeline px w s st = .ok st') :
    st'.ctx = st.ctx ∧ ∃ asked : List Layer, st'.trace = st.trace ++ asked.map .consult := by
  rw [detectionPipeline] at h
  split_ifs at h
  · obtain rfl := Except.ok.inj h
    exact ⟨rfl, [], by simp⟩
  · exact consultLayers_ok h

/-! ## Stages of forwarded requests -/

def executedStages (trace : List Event) : List (RequestStage × StageOutcome) := trace.filterMap fun
    | .stage g o => some (g, o)
    | _ => none

theorem executedStages_append (t₁ t₂ : List Event) :
    executedStages (t₁ ++ t₂) = executedStages t₁ ++ executedStages t₂ := List.filterMap_append

/-- every stage of the plan was executed, in list order, none ended the run, and authentication succeeded -/
def StagesRan (w : World) (s : Session) (plan : CompiledPlan) (trace : List Event) : Prop :=
  executedStages trace = (plan.requestStages.map fun g => (g, .passed)) ∧ ∀ g ∈ plan.requestStages, AuthPassed w s g

/-- a run that forwards its request with a plan, rather than to an ACME solver, ran the plan's stages -/
def ForwardsAfterStages (w : World) (s : Session) (o : Outcome) : Prop :=
  ∀ plan, o.verdict = .forward → o.st.ctx.plan = some plan → o.st.ctx.acmeBackend = none → StagesRan w s plan o.st.trace

/-- the request does not meet the plain-HTTP walk with stages that walk passes over: Pingora terminated its TLS, or it is
refused as misdirected, or it is an ACME challenge, or its plan is redirected, answers it as a preflight, or has no stage
or a terminal one -/
def MeetsFullWalk (px : Proxy) (s : Session) (sniContext : HashMap SocketAddr String) : Prop :=
  isPlainHttp s = false ∨ refused px s sniContext = true ∨ startsWith s.req.uri.path acmeChallengePath = true
    ∨ ∀ plan, lookupPlan px s (downstream px s).2 = some plan →
      plan.servesPlainHttp = false ∨ (plainPreflight s plan).isSome = true ∨ plan.requestStages = []
        ∨ ∃ t, RequestStage.terminal t ∈ plan.requestStages

theorem routeSecured_forwards {ls : List Layer} (htrace : st.trace = ls.map .consult) :
    ForwardsAfterStages w s (routeSecured px w s st) := by
  intro plan hv hp _
  rw [routeSecured] at hv hp ⊢
  cases hl : lookupPlan px s st.ctx.downstreamPort with
  | none =>
    simp only [hl] at hv hp
    by_cases hgw : px.routes.hasGatewayApiListener (extractHost s) st.ctx.downstreamPort = true
    · simp [hgw] at hp
    · simp only [hgw] at hv
      exact absurd hv (written_ne_forward w _)
  | some found =>
    simp only [hl] at hv hp ⊢
    cases hr : runStages px w s found.requestStages (takePlan st found) with
    | error o =>
      simp only [hr] at hv
      exact absurd hv (runStages_error hr)
    | ok st' =>
      obtain ⟨ht, hplan, -, hauth⟩ := runStages_ok hr
      have hfound : found = plan := by
        have : (continueWith (.ok st') (expectContinue w s)).st.ctx = st'.ctx := by
          simp only [continueWith, expectContinue]
          split_ifs <;> rfl
        rw [hr, this, hplan] at hp
        exact Option.some.inj hp
      subst hfound
      refine ⟨?_, hauth⟩
      have hst' : executedStages st'.trace = found.requestStages.map fun g => (g, .passed) := by
        rw [ht, executedStages_append]
        simp [takePlan, FilterSt.log, htrace, executedStages]
      rw [← hst']
      simp only [continueWith, expectContinue]
      split_ifs <;> simp [FilterSt.log, executedStages]

theorem forwardsAfterStages_of_written {r : Response} (h : o.verdict = written w r) : ForwardsAfterStages w s o := by
  intro plan hv _ _
  exact absurd (h.symm.trans hv) (written_ne_forward w r)

theorem plainHttp_forwards_iff (htrace : st.trace = []) (hplan : st.ctx.plan = none) (hnone : st.ctx.acmeBackend = none) :
    ForwardsAfterStages w s (plainHttp px w s st) ↔ startsWith s.req.uri.path acmeChallengePath = true
        ∨ ∀ plan, lookupPlan px s st.ctx.downstreamPort = some plan →
          plan.servesPlainHttp = false ∨ (plainPreflight s plan).isSome = true ∨ plan.requestStages = []
            ∨ ∃ t, RequestStage.terminal t ∈ plan.requestStages := by
  have hend := plainHttp_end px w s st
  generalize plainHttp px w s st = o at hend ⊢
  cases hend with
  | challenge backend hacme =>
    refine iff_of_true ?_ (.inl hacme)
    intro plan _ hp _
    rw [hplan] at hp
    cases hp
  | unknownChallenge hacme => exact iff_of_true (forwardsAfterStages_of_written rfl) (.inl hacme)
  | unrouted hacme hl hgw => exact iff_of_true (forwardsAfterStages_of_written rfl) (.inr (by simp [hl]))
  | unknownHost hacme hl hgw => exact iff_of_true (forwardsAfterStages_of_written rfl) (.inr (by simp [hl]))
  | redirected plan hacme hl hserve => exact iff_of_true (forwardsAfterStages_of_written rfl) (.inr (by simp [hl, hserve]))
  | preflight plan cors h hpre => exact iff_of_true (forwardsAfterStages_of_written rfl) (.inr (by simp [h.found, hpre]))
  | terminal plan t h hpre ht =>
    refine iff_of_true (forwardsAfterStages_of_written rfl) (.inr ?_)
    intro plan' hl
    obtain rfl : plan = plan' := Option.some.inj (h.found.symm.trans hl)
    exact .inr (.inr (.inr ⟨t, firstTerminal_mem ht⟩))
  | passed plan h hpre hno =>
    -- the walk forwards and has executed nothing, so there must be nothing to execute
    have hran : executedStages (takePlan st plan).trace = [] := by simp [takePlan, FilterSt.log, htrace, executedStages]
    have hempty : ForwardsAfterStages w s ⟨.forward, takePlan st plan⟩ ↔ plan.requestStages = [] := by
      constructor
      · intro hf
        obtain ⟨hstages, -⟩ := hf plan rfl rfl hnone
        rw [hran] at hstages
        exact List.map_eq_nil_iff.1 hstages.symm
      · intro hnil plan' _ hp _
        obtain rfl : plan = plan' := Option.some.inj hp
        exact ⟨by simp [hran, hnil], by simp [hnil]⟩
    rw [hempty]
    simp [h.notAcme, h.found, h.serves, hpre, hno]

/-- **Stages of a forwarded request.** On every transport, a request forwarded with a plan has had all the plan's stages
executed exactly when it meets the full walk over them. -/
theorem forwards_after_stages_iff (px : Proxy) (w : World) (s : Session) (sniContext : HashMap SocketAddr String) :
    ForwardsAfterStages w s (requestFilterInner px w s (newRequest sniContext)) ↔ MeetsFullWalk px s sniContext := by
  obtain ⟨htrace, hplan, hnone, hport⟩ := enterFilter_newRequest px s sniContext
  unfold MeetsFullWalk
  cases href : refused px s sniContext with
  | true =>
    rw [requestFilterInner_refused href]
    exact iff_of_true (forwardsAfterStages_of_written rfl) (.inr (.inl rfl))
  | false =>
    cases hplain : isPlainHttp s with
    | true =>
      rw [requestFilterInner_plain href hplain, plainHttp_forwards_iff htrace hplan hnone, hport]
      simp
    | false =>
      refine iff_of_true ?_ (.inl rfl)
      rw [requestFilterInner_secured href hplain]
      cases hpipe : detectionPipeline px w s (enterFilter px s (newRequest sniContext)).2 with
      | error o =>
        intro plan hv
        exact absurd hv (detectionPipeline_error hpipe)
      | ok st' =>
        obtain ⟨-, ls, htrace'⟩ := detectionPipeline_ok hpipe
        rw [htrace] at htrace'
        exact routeSecured_forwards htrace'

def authRule : Rule :=
  { matches_ := [{}]
    action := .route
      { backends := [{ backend := "http://app:8080", weight := 1 }], auth := some { url := "http://auth/verify" } } }

def authTable : RouteTable :=
  { hosts := [{ hostname := .exact "app.example.com", disableSecureRedirection := true, rules := [authRule] }] }

def authPlan : CompiledPlan := compilePlan authRule (computePrecedence authRule) {} false true none

def proxyServing (ir : RouteTable) : Proxy :=
  { regex := ⟨fun _ => none⟩, fxHash := fun _ => 0, routes := CompiledRouteTable.compile IterOrder.stored ir }

def getRequest (host path : String) : RequestHeader := ⟨"GET", { path }, [("host", .ofString host)]⟩

def plainSession (req : RequestHeader) : Session :=
  ⟨req, some ⟨false, some ⟨.v4 0x7F000001, 8080⟩⟩, some ⟨.v4 0xC0000201, 50000⟩⟩

def authDown : World := ⟨fun _ => true, fun _ => none, fun _ => .ok false, true⟩

theorem auth_stage_skipped :
    (requestFilterInner (proxyServing authTable) authDown (plainSession (getRequest "app.example.com" "/admin"))
      (newRequest ∅)).verdict = .forward
      ∧ ¬ ForwardsAfterStages authDown (plainSession (getRequest "app.example.com" "/admin"))
        (requestFilterInner (proxyServing authTable) authDown (plainSession (getRequest "app.example.com" "/admin"))
          (newRequest ∅)) := by
  refine ⟨by decide, fun h => ?_⟩
  have hran := (h authPlan (by decide) (by decide) (by decide)).1
  revert hran
  decide

/-! ## Connections whose TLS the L4 router terminated -/

/-- the request came in over a relayed connection: a plain socket to Pingora, with a relay context that says the client
side is TLS -/
structure RelayedSecure (px : Proxy) (s : Session) : Prop where
  plainSocket : ∃ addr, s.digest = some ⟨false, some addr⟩
  context : ∃ relay, px.httpRelayContext s = some relay ∧ relay.secure = true

def configuredLayers (px : Proxy) : List Layer :=
  (if px.ddosDetector.isSome then [.ddos] else []) ++ (if px.scannerDetector.isSome then [.scanner] else [])
    ++ (if px.rateLimiter.isSome then [.rateLimit] else []) ++ (if px.cluster.isSome then [.bandwidth] else [])

def requestUrl (s : Session) : String :=
  "https://" ++ extractHost s ++ s.req.uri.path ++ ((s.req.uri.query.map ("?" ++ ·)).getD "")

/-- the answer is a permanent redirect to the URL the client asked for -/
def SelfRedirect (s : Session) (r : Response) : Prop :=
  r.status = 301 ∧ ∃ h ∈ r.headers, eqIgnoreAsciiCase h.1 "location" = true ∧ h.2 = requestUrl s

/-- the run does not send the client back to the URL it asked for, neither by itself nor by a stage of the plan -/
def NoSelfRedirect (s : Session) (o : Outcome) : Prop :=
  ∀ r, (Event.respond r ∈ o.st.trace ∨ ∃ g, Event.stage g (.answered r) ∈ o.st.trace) → ¬ SelfRedirect s r

/-- the terminal action, met on a connection of this scheme and port, redirects the request to its own URL -/
def RedirectsBack (s : Session) (scheme : Scheme) (port : UInt16) : TerminalAction → Prop
  | .redirect r =>
    r.statusCode = 301 ∧ buildRedirectLocationIr r s.req.uri (extractHost s) scheme port = requestUrl s
  | .fixedResponse status headers _ => status = 301 ∧ ∃ h ∈ headers.foldl (fun hs h => insertHeader hs h.1 h.2) [],
    eqIgnoreAsciiCase h.1 "location" = true ∧ h.2 = requestUrl s
  | .notFound => False

/-- unless the client is bypassed, a plan is taken up only after every configured layer was consulted -/
def DetectionFirst (px : Proxy) (s : Session) (o : Outcome) : Prop :=
  px.bypassed s = true ∨ ∀ before plan after, o.st.trace = before ++ .takePlan plan :: after →
    ∀ l ∈ configuredLayers px, Event.consult l ∈ before

/-- the plain branch treats the request as it should: it is refused or an ACME challenge; or its plan is served on plain
HTTP, no configured layer is owed to the client and, unless a preflight is answered, the plan's first terminal action does
not redirect the request to itself; or no plan matches and Gateway API routes exist -/
def CountsAsTls (px : Proxy) (s : Session) (sniContext : HashMap SocketAddr String) : Prop :=
  refused px s sniContext = true ∨ startsWith s.req.uri.path acmeChallengePath = true
    ∨ match lookupPlan px s (downstream px s).2 with
      | some plan => plan.servesPlainHttp = true ∧ (px.bypassed s = true ∨ configuredLayers px = [])
        ∧ (plainPreflight s plan = none → ∀ t, firstTerminal plan.requestStages = some t →
          ¬ RedirectsBack s (downstream px s).1 (downstream px s).2 t)
      | none => px.routes.hasGatewayApiRoutes = true

theorem secureRedirect_selfRedirect (s : Session) : SelfRedirect s (secureRedirect s) :=
  ⟨rfl, ("Location", requestUrl s), by simp [secureRedirect, requestUrl], (by decide : eqIgnoreAsciiCase "Location" "location" = true), rfl⟩

theorem mem_insertHeader_location {hs : List (String × String)} {name value : String}
    (hname : eqIgnoreAsciiCase "location" name = false) {h : String × String} (hloc : eqIgnoreAsciiCase h.1 "location" = true) :
    h ∈ insertHeader hs name value ↔ h ∈ hs := by
  have hne : eqIgnoreAsciiCase h.1 name = false := by
    simp only [eqIgnoreAsciiCase, beq_iff_eq] at hloc
    simpa [eqIgnoreAsciiCase, hloc] using hname
  have hnot : h ≠ (name, value) := by
    rintro rfl
    rw [eqIgnoreAsciiCase_refl] at hne
    cases hne
  simp [insertHeader, hne, hnot]

theorem selfRedirect_terminal_iff (s : Session) (ctx : RequestCtx) (t : TerminalAction) :
    SelfRedirect s (terminalResponse s ctx t) ↔ RedirectsBack s ctx.downstreamScheme ctx.downstreamPort t := by
  cases t with
  | redirect r =>
    have hname : eqIgnoreAsciiCase "Location" "location" = true := by decide
    have hlength : eqIgnoreAsciiCase "Content-Length" "location" = false := by decide
    simp [SelfRedirect, terminalResponse, RedirectsBack, hname, hlength]
  | fixedResponse status headers body =>
    refine and_congr_right fun _ => exists_congr fun h => and_congr_left fun hloc => ?_
    refine (mem_insertHeader_location (by decide) hloc.1).trans ?_
    split_ifs
    · rfl
    · exact mem_insertHeader_location (by decide) hloc.1
  | notFound => simp [SelfRedirect, terminalResponse, RedirectsBack, Response.bare]

theorem treatment_of_answer {r : Response} (h : o.st.trace = [.respond r]) (hr : r.status ≠ 301) :
    NoSelfRedirect s o ∧ DetectionFirst px s o := by
  constructor
  · rintro r' (hmem | ⟨g, hmem⟩) hself
    · rw [h, List.mem_singleton] at hmem
      exact hr ((congrArg Response.status (Event.respond.inj hmem)).symm.trans hself.1)
    · simp [h] at hmem
  · refine .inr fun before plan after ht => ?_
    rw [h] at ht
    cases before with
    | nil => cases (List.cons.inj ht).1
    | cons b bs => simp at ht

theorem detectionFirst_of_plan_first {plan : CompiledPlan} {rest : List Event} (h : o.st.trace = .takePlan plan :: rest) :
    DetectionFirst px s o ↔ px.bypassed s = true ∨ configuredLayers px = [] := by
  refine or_congr_right ⟨fun hd => ?_, fun hl before p after ht l hmem => ?_⟩
  · refine List.eq_nil_iff_forall_not_mem.2 fun l hmem => ?_
    have := hd [] plan rest h l hmem
    simp at this
  · rw [hl] at hmem
    simp at hmem

theorem treatment_of_plan_first {plan : CompiledPlan} {rest : List Event} (h : o.st.trace = .takePlan plan :: rest) :
    NoSelfRedirect s o ∧ DetectionFirst px s o ↔ (px.bypassed s = true ∨ configuredLayers px = [])
      ∧ ∀ r, (Event.respond r ∈ rest ∨ ∃ g, Event.stage g (.answered r) ∈ rest) → ¬ SelfRedirect s r := by
  rw [detectionFirst_of_plan_first h, and_comm]
  simp [NoSelfRedirect, h]

theorem plainHttp_treatment_iff (htrace : st.trace = []) :
    NoSelfRedirect s (plainHttp px w s st) ∧ DetectionFirst px s (plainHttp px w s st) ↔
      startsWith s.req.uri.path acmeChallengePath = true ∨ match lookupPlan px s st.ctx.downstreamPort with
          | some plan => plan.servesPlainHttp = true ∧ (px.bypassed s = true ∨ configuredLayers px = [])
            ∧ (plainPreflight s plan = none → ∀ t, firstTerminal plan.requestStages = some t →
              ¬ RedirectsBack s st.ctx.downstreamScheme st.ctx.downstreamPort t)
          | none => px.routes.hasGatewayApiRoutes = true := by
  have hend := plainHttp_end px w s st
  generalize plainHttp px w s st = o at hend ⊢
  have hanswer : ∀ r, (respond w st r).st.trace = [.respond r] := by simp [respond, FilterSt.log, htrace]
  have htaken : ∀ plan, (takePlan st plan).trace = [.takePlan plan] := by simp [takePlan, FilterSt.log, htrace]
  cases hend with
  | challenge backend hacme =>
    refine iff_of_true ⟨?_, .inr ?_⟩ (.inl hacme)
    · simp [NoSelfRedirect, htrace]
    · intro before plan after ht
      simp [htrace] at ht
  | unknownChallenge hacme => exact iff_of_true (treatment_of_answer (hanswer _) (by decide)) (.inl hacme)
  | unrouted hacme hl hgw =>
    refine iff_of_true (treatment_of_answer (hanswer _) (by decide)) (.inr ?_)
    rw [hl]
    exact hgw
  | unknownHost hacme hl hgw =>
    refine iff_of_false (fun h => h.1 _ (.inl (by simp [hanswer])) (secureRedirect_selfRedirect s)) ?_
    simp [hacme, hl, hgw]
  | redirected plan hacme hl hserve =>
    refine iff_of_false (fun h => h.1 _ (.inl (by simp [hanswer])) (secureRedirect_selfRedirect s)) ?_
    simp [hacme, hl, hserve]
  | preflight plan cors h hpre =>
    have ht : (respond w (takePlan st plan) ⟨204, corsHeaders s.req cors, none⟩).st.trace
        = [.takePlan plan, .respond ⟨204, corsHeaders s.req cors, none⟩] := by
      simp [respond, FilterSt.log, htaken]
    rw [treatment_of_plan_first ht]
    simp [h.notAcme, h.found, h.serves, hpre, SelfRedirect]
  | terminal plan t h hpre hfirst =>
    have ht : (executeTerminalStage w s (takePlan st plan) t).st.trace
        = [.takePlan plan, .stage (.terminal t) (.answered (terminalResponse s (takePlan st plan).ctx t))] := by
      simp [executeTerminalStage, stageAnswer, FilterSt.log, htaken]
    rw [treatment_of_plan_first ht]
    simp [h.notAcme, h.found, h.serves, hpre, hfirst, selfRedirect_terminal_iff, takePlan, FilterSt.log]
  | passed plan h hpre hno =>
    have hnone : ∀ t, firstTerminal plan.requestStages ≠ some t := fun t ht => hno t (firstTerminal_mem ht)
    rw [treatment_of_plan_first (htaken plan)]
    simp [h.notAcme, h.found, h.serves, hnone]

/-- **TLS terminated by the L4 router.** A request relayed over such a connection is not redirected to itself and meets
the detection layers before its plan exactly when it counts as TLS in the plain branch of the filter. -/
theorem relayed_secure_iff {px : Proxy} {s : Session} (h : RelayedSecure px s) (w : World)
    (sniContext : HashMap SocketAddr String) :
    NoSelfRedirect s (requestFilterInner px w s (newRequest sniContext))
        ∧ DetectionFirst px s (requestFilterInner px w s (newRequest sniContext))
      ↔ CountsAsTls px s sniContext := by
  have hplain : isPlainHttp s = true := by
    obtain ⟨addr, hd⟩ := h.plainSocket
    simp [isPlainHttp, hd]
  obtain ⟨htrace, -, -, hport⟩ := enterFilter_newRequest px s sniContext
  unfold CountsAsTls
  cases href : refused px s sniContext with
  | true =>
    rw [requestFilterInner_refused href]
    refine iff_of_true (treatment_of_answer ?_ (by decide : (Response.bare 421).status ≠ 301)) (.inl rfl)
    simp [respond, FilterSt.log, htrace]
  | false =>
    have hscheme : (enterFilter px s (newRequest sniContext)).2.ctx.downstreamScheme = (downstream px s).1 := by
      rw [enterFilter_ctx]
    rw [requestFilterInner_plain href hplain, plainHttp_treatment_iff htrace, hport, hscheme]
    simp

def relayAddr : SocketAddr := ⟨.v4 0x7F000001, 41000⟩

def relayedSession (req : RequestHeader) : Session := ⟨req, some ⟨false, some ⟨.v4 0x7F000001, 8080⟩⟩, some relayAddr⟩

def secureRelay : HttpRelayContext := ⟨"0.0.0.0:443#Https", 443, true, ⟨.v4 0xC0000201, 50000⟩⟩

def relayProxy (ir : RouteTable) : Proxy :=
  { proxyServing ir with httpContext := HashMap.ofPairs [(relayAddr, secureRelay)] }

theorem relayedSession_secure (ir : RouteTable) (req : RequestHeader) : RelayedSecure (relayProxy ir) (relayedSession req) :=
  ⟨⟨_, rfl⟩, secureRelay, rfl, rfl⟩

def legacyTable : RouteTable :=
  { hosts := [{ hostname := .exact "app.example.com", rules := [{ matches_ := [{}], action := .route {} }] }] }

theorem relayed_request_redirected : RelayedSecure (relayProxy legacyTable) (relayedSession (getRequest "app.example.com" "/"))
      ∧ ¬ NoSelfRedirect (relayedSession (getRequest "app.example.com" "/"))
        (requestFilterInner (relayProxy legacyTable) authDown (relayedSession (getRequest "app.example.com" "/"))
          (newRequest ∅)) :=
  ⟨relayedSession_secure _ _, fun h => h _ (.inl (by decide)) (secureRedirect_selfRedirect _)⟩

/-- the same connection, a host served on plain HTTP and no detection layer: nothing is owed to the client -/
theorem relayed_secure_served : RelayedSecure (relayProxy authTable) (relayedSession (getRequest "app.example.com" "/"))
      ∧ NoSelfRedirect (relayedSession (getRequest "app.example.com" "/"))
        (requestFilterInner (relayProxy authTable) authDown (relayedSession (getRequest "app.example.com" "/")) (newRequest ∅))
      ∧ DetectionFirst (relayProxy authTable) (relayedSession (getRequest "app.example.com" "/"))
        (requestFilterInner (relayProxy authTable) authDown (relayedSession (getRequest "app.example.com" "/"))
          (newRequest ∅)) := by
  refine ⟨relayedSession_secure _ _, (relayed_secure_iff (relayedSession_secure _ _) authDown ∅).2 ?_⟩
  have hplan : lookupPlan (relayProxy authTable) (relayedSession (getRequest "app.example.com" "/"))
      (downstream (relayProxy authTable) (relayedSession (getRequest "app.example.com" "/"))).2 = some authPlan := by decide
  unfold CountsAsTls
  rw [hplan]
  exact .inr (.inr ⟨by decide, .inr (by decide), fun _ t ht => absurd ht (by decide +revert)⟩)

end SunbeamProxy
