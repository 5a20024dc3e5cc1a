/-
`allowedRoutes` of a listener, from the JSON of the object (`gateway/reconcile/listener_common.rs`) to the checks of
`resolve_listener_parent`.
-/
import SunbeamProxy.Core.Json
import SunbeamProxy.Gateway.Parent

namespace SunbeamProxy.Gateway

open Option HashMap

def parseRouteGroupKind (entry : Json) : Option RouteGroupKind :=
  let kind := ((entry.get "kind").bind Json.asStr).getD ""
  if kind = "" then none
  else some ⟨((entry.get "group").bind Json.asStr).getD "gateway.networking.k8s.io", kind⟩

variable (namespaces : JsonMap)

def parseSelector : Option (HashMap String String) :=
  (namespaces.getObject "selector").bind fun selector => (selector.getObject "matchLabels").bind fun labels =>
    let map := ofPairs (labels.iter.filterMap fun e => e.2.asStr.map (e.1, ·))
    if map.pairs.isEmpty then none else some map

def parseRouteNamespaces (namespaces : JsonMap) : RouteNamespaces where
  source := match namespaces.getStr "from" with
    | some "All" => .all
    | some "Selector" => .selector
    | _ => .same
  selector := parseSelector namespaces

variable (listener : JsonMap)

def parseAllowedRoutes : AllowedRoutes :=
  match listener.getObject "allowedRoutes" with
  | none => {}
  | some allowed =>
    { kinds := ((allowed.getArray "kinds").map fun entries => entries.filterMap parseRouteGroupKind).getD []
      namespaces := ((allowed.getObject "namespaces").map parseRouteNamespaces).getD {} }

/-- the entry of `kinds` names the kind, in the group of the Gateway API -/
def NamesKind (entry : Json) (kind : String) : Prop := kind ≠ "" ∧ (entry.get "kind").bind Json.asStr = some kind
    ∧ ((entry.get "group").bind Json.asStr).getD gatewayGroup = gatewayGroup

variable (allowed : JsonMap)

/-- the kinds are not restricted, or the kind is listed -/
def KindListed (kind : String) : Prop :=
  ∀ entries, allowed.getArray "kinds" = some entries → entries ≠ [] → ∃ e ∈ entries, NamesKind e kind

def requiredLabel (label : String) : Option String :=
  (namespaces.getObject "selector").bind fun selector =>
    (selector.getObject "matchLabels").bind fun labels => labels.getStr label

/-- the labels of the namespace are known and as `matchLabels` asks, which asks for one at least -/
def SelectorMatches (routeNs : String) (labels : NamespaceLabels) : Prop :=
  ∃ nsLabels, labels.get routeNs = some nsLabels ∧ (∃ label, (requiredLabel namespaces label).isSome)
    ∧ ∀ label value, requiredLabel namespaces label = some value → nsLabels.get label = some value

/-- what `namespaces.from` says about the namespace of a route -/
def NamespaceAdmitted (routeNs ownerNs : String) (labels : NamespaceLabels) : Prop :=
  match allowed.getObject "namespaces" with
  | none => routeNs = ownerNs
  | some namespaces =>
    match namespaces.getStr "from" with
    | some "All" => True
    | some "Selector" => SelectorMatches namespaces routeNs labels
    | _ => routeNs = ownerNs

/-- **The meaning of `allowedRoutes`.** Without it, routes of the owner's namespace attach. -/
def JsonAdmits (kind routeNs ownerNs : String) (labels : NamespaceLabels) : Prop :=
  match listener.getObject "allowedRoutes" with
  | none => routeNs = ownerNs
  | some allowed => KindListed allowed kind ∧ NamespaceAdmitted allowed routeNs ownerNs labels

/-- a list of kinds, where there is one, has an entry that parses -/
def SomeKindNamed : Prop :=
  ∀ allowed entries, listener.getObject "allowedRoutes" = some allowed → allowed.getArray "kinds" = some entries →
    entries ≠ [] → ∃ e ∈ entries, (parseRouteGroupKind e).isSome

/-! ## Parser and checks -/

theorem parseRouteGroupKind_eq_some {entry : Json} {k : RouteGroupKind} :
    parseRouteGroupKind entry = some k ↔ k.kind ≠ "" ∧ (entry.get "kind").bind Json.asStr = some k.kind
      ∧ k.group = ((entry.get "group").bind Json.asStr).getD gatewayGroup := by
  rw [parseRouteGroupKind]
  cases hkind : (entry.get "kind").bind Json.asStr with
  | none => simp
  | some kind =>
    simp only [some.injEq]
    split
    · rename_i hempty
      simp only [reduceCtorEq, false_iff, not_and]
      intro hne heq
      exact absurd (heq ▸ hempty) hne
    · rename_i hne
      rw [some.injEq]
      apply Iff.intro
      · intro h
        subst h
        exact ⟨hne, rfl, rfl⟩
      · cases k
        simp_all [gatewayGroup]

theorem exists_parsed_iff {entry : Json} {kind : String} :
    (∃ k, parseRouteGroupKind entry = some k ∧ k.group = gatewayGroup ∧ k.kind = kind) ↔ NamesKind entry kind := by
  simp only [parseRouteGroupKind_eq_some]
  apply Iff.intro
  · intro h
    obtain ⟨k, ⟨hne, hkind, hgroup⟩, hk, rfl⟩ := h
    exact ⟨hne, hkind, hgroup ▸ hk⟩
  · intro h
    obtain ⟨hne, hkind, hgroup⟩ := h
    exact ⟨⟨gatewayGroup, kind⟩, ⟨hne, hkind, hgroup.symm⟩, rfl, rfl⟩

theorem listenerAllowsKind_iff {allowed : JsonMap} {kind : String} (namespaces : RouteNamespaces)
    (hnamed : ∀ entries, allowed.getArray "kinds" = some entries → entries ≠ [] → ∃ e ∈ entries, (parseRouteGroupKind e).isSome) :
    listenerAllowsKind ⟨((allowed.getArray "kinds").map fun entries => entries.filterMap parseRouteGroupKind).getD [],
        namespaces⟩ gatewayGroup kind = true ↔ KindListed allowed kind := by
  rw [listenerAllowsKind, KindListed]
  cases hkinds : allowed.getArray "kinds" with
  | none => simp
  | some entries =>
    rw [map_some, getD_some]
    by_cases hentries : entries = []
    · subst hentries
      simp
    · obtain ⟨e, he, hsome⟩ := hnamed entries hkinds hentries
      obtain ⟨k, hk⟩ := isSome_iff_exists.1 hsome
      have hkept := List.ne_nil_of_mem (List.mem_filterMap.2 ⟨e, he, hk⟩)
      rw [List.isEmpty_eq_false_iff.2 hkept, Bool.false_or, List.any_filterMap, List.any_eq_true]
      simp only [some.injEq, forall_eq', ne_eq, hentries, not_false_eq_true, forall_const]
      refine exists_congr fun e => and_congr_right fun _ => ?_
      rw [← exists_parsed_iff]
      cases parseRouteGroupKind e <;> simp

theorem get_stringLabels (labels : JsonMap) (label : String) :
    (ofPairs (labels.iter.filterMap fun e => e.2.asStr.map (e.1, ·))).get label = labels.getStr label := by
  have hkeys : ((labels.iter.filterMap fun e => e.2.asStr.map (e.1, ·)).map (·.1)).Nodup := by
    refine labels.nodup_iter.sublist ?_
    induction labels.iter with
    | nil => exact .refl _
    | cons e es ih =>
      rw [List.filterMap_cons]
      cases e.2.asStr with
      | none => exact ih.cons e.1
      | some v => exact ih.cons_cons e.1
  apply Option.ext
  intro value
  rw [get_ofPairs_iff hkeys, List.mem_filterMap, JsonMap.getStr, bind_eq_some_iff]
  simp only [map_eq_some_iff, Prod.mk.injEq]
  apply Iff.intro
  · intro h
    obtain ⟨⟨key, v⟩, hmem, value', hv, rfl, rfl⟩ := h
    exact ⟨v, JsonMap.mem_iter.1 hmem, hv⟩
  · intro h
    obtain ⟨v, hlookup, hv⟩ := h
    exact ⟨(label, v), JsonMap.mem_iter.2 hlookup, value, hv, rfl, rfl⟩

theorem parseSelector_any_iff (nsLabels : HashMap String String) :
    ((parseSelector namespaces).any fun sel => sel.pairs.all fun e => nsLabels.get e.1 == some e.2) = true
      ↔ (∃ label, (requiredLabel namespaces label).isSome)
        ∧ ∀ label value, requiredLabel namespaces label = some value → nsLabels.get label = some value := by
  unfold parseSelector requiredLabel
  cases namespaces.getObject "selector" with
  | none => simp
  | some selector =>
    cases hlabels : selector.getObject "matchLabels" with
    | none => simp [hlabels]
    | some labels =>
      simp only [bind_some, hlabels]
      have hpairs : ∀ {label value}, (label, value)
          ∈ (ofPairs (labels.iter.filterMap fun e => e.2.asStr.map (e.1, ·))).pairs
            ↔ labels.getStr label = some value := by
        intro label value
        rw [mem_pairs_iff, get_stringLabels]
      generalize ofPairs (labels.iter.filterMap fun e => e.2.asStr.map (e.1, ·)) = map at hpairs
      cases hempty : map.pairs with
      | nil =>
        have hnone : ∀ label, labels.getStr label = none := by
          intro label
          refine eq_none_iff_forall_ne_some.2 fun value hvalue => ?_
          have hmem := hpairs.2 hvalue
          rw [hempty] at hmem
          cases hmem
        simp [hnone]
      | cons e es =>
        have hsome : ∃ label, (labels.getStr label).isSome := by
          refine ⟨e.1, isSome_iff_exists.2 ⟨e.2, hpairs.1 ?_⟩⟩
          rw [hempty]
          exact List.mem_cons_self
        rw [← hempty]
        have hfilled : map.pairs.isEmpty = false := by rw [hempty]; rfl
        simp only [hfilled, Bool.false_eq_true, if_false, any_some, List.all_eq_true, beq_iff_eq]
        refine ⟨fun h => ⟨hsome, fun label value hvalue => h (label, value) (hpairs.2 hvalue)⟩, ?_⟩
        intro h e he
        exact h.2 e.1 e.2 (hpairs.1 he)

theorem selectorAllowed_iff (routeNs ownerNs : String) (labels : NamespaceLabels) :
    namespaceAllowed ⟨.selector, parseSelector namespaces⟩ routeNs ownerNs labels = true
      ↔ SelectorMatches namespaces routeNs labels := by
  rw [namespaceAllowed, SelectorMatches]
  cases labels.get routeNs with
  | none => simp
  | some nsLabels => simp [parseSelector_any_iff, exists_eq_left']

theorem namespaceAllowed_iff (routeNs ownerNs : String) (labels : NamespaceLabels) :
    namespaceAllowed (((allowed.getObject "namespaces").map parseRouteNamespaces).getD {}) routeNs ownerNs labels = true
      ↔ NamespaceAdmitted allowed routeNs ownerNs labels := by
  rw [NamespaceAdmitted]
  cases allowed.getObject "namespaces" with
  | none => simp [namespaceAllowed]
  | some namespaces =>
    rw [map_some, parseRouteNamespaces]
    -- both sides look at `from` alike
    dsimp only
    split
    · simp [namespaceAllowed]
    · exact selectorAllowed_iff namespaces routeNs ownerNs labels
    · simp [namespaceAllowed]

/-- **`allowedRoutes` is enforced.** For a listener whose list of kinds is not made of entries without a kind only, the parsed
`allowedRoutes` passes the kind and the namespace check of a route exactly when the JSON admits it. -/
theorem allowed_routes_enforced_iff (q : ParentQuery) (l : ListenerState) (listener : JsonMap)
    (hparsed : q.allowedOf l = parseAllowedRoutes listener) (hnamed : SomeKindNamed listener) :
    q.kindOk l = true ∧ q.nsOk l = true ↔ JsonAdmits listener q.routeKind q.routeNs q.targetNs q.namespaceLabels := by
  rw [ParentQuery.kindOk, ParentQuery.nsOk, hparsed, parseAllowedRoutes, JsonAdmits]
  cases hallowed : listener.getObject "allowedRoutes" with
  | none => simp [listenerAllowsKind, namespaceAllowed]
  | some allowed => rw [listenerAllowsKind_iff _ (hnamed allowed · hallowed), namespaceAllowed_iff]

variable (selector : JsonMap)

def shopListener : JsonMap := [("allowedRoutes", .object
    [("kinds", .array [.object [("kind", .string "HTTPRoute")]]),
     ("namespaces", .object [("from", .string "Selector"), ("selector", .object selector)])])]

def shopQuery : ParentQuery :=
  { parsed := { name := "edge" }, routeNs := "web", listeners := [{ name := "main" }], targetNs := "infra",
    ownerName := "edge", routeKind := "HTTPRoute", expectedProtocols := none,
    namespaceLabels := ofPairs [("web", ofPairs [("team", "shop")])],
    allowedMap := ofPairs [(("infra", "edge", "main"), parseAllowedRoutes (shopListener selector))] }

def teamShop : JsonMap := [("matchLabels", .object [("team", .string "shop")])]

theorem someKindNamed_shopListener : SomeKindNamed (shopListener selector) := by
  intro allowed entries hallowed hentries _
  cases hallowed
  cases hentries
  exact ⟨_, List.mem_cons_self, rfl⟩

theorem allowed_routes_enforced_team :
    (shopQuery teamShop).kindOk { name := "main" } = true ∧ (shopQuery teamShop).nsOk { name := "main" } = true
      ∧ JsonAdmits (shopListener teamShop) "HTTPRoute" "web" "infra" (shopQuery teamShop).namespaceLabels := by
  have hchecks : (shopQuery teamShop).kindOk { name := "main" } = true
      ∧ (shopQuery teamShop).nsOk { name := "main" } = true := by decide
  exact ⟨hchecks.1, hchecks.2, (allowed_routes_enforced_iff (shopQuery teamShop) { name := "main" } (shopListener teamShop) rfl
    (someKindNamed_shopListener teamShop)).1 hchecks⟩

theorem selector_read_by_labels : (shopQuery []).nsOk { name := "main" } = false
      ∧ (shopQuery (teamShop ++ [("matchExpressions", .array [.object [("key", .string "tier"), ("operator", .string "In"),
          ("values", .array [.string "gold"])]])])).nsOk { name := "main" } = true := by
  decide

end SunbeamProxy.Gateway
