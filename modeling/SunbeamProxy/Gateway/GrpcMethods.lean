/-
Method matches of GRPC routes, from the resource to the lookup (`parse_method_match` of `gateway/reconcile/route/grpc_parse.rs`,
`grpc_match_to_route_match` of `gateway/translate/grpc.rs` and the path trie).
-/
import SunbeamProxy.Gateway.GrpcRoute
import SunbeamProxy.IR.Precedence
import SunbeamProxy.Proxy.Paths

namespace SunbeamProxy.Gateway

open Text Option

inductive GrpcRouteRulesMatchesMethodType where
  | exact | regularExpression
deriving DecidableEq, Repr

structure GrpcRouteRulesMatchesMethod where
  type_ : Option GrpcRouteRulesMatchesMethodType := none
  service : Option String := none
  method : Option String := none
deriving DecidableEq, Repr

def GrpcRouteRulesMatchesMethod.matchType (value : GrpcRouteRulesMatchesMethod) : MethodMatchType :=
  match value.type_ with
  | some .regularExpression => .regular
  | _ => .exact

def parseMethodMatch (value : GrpcRouteRulesMatchesMethod) : Option MethodMatch :=
  let service := value.service.getD ""
  if service = "" ∧ value.method = none then none
  else some { matchType := value.matchType, service, method := value.method }

/-- one segment of a path -/
structure Segment (s : String) : Prop where
  not_empty : s ≠ ""
  no_slash : '/' ∉ s.toList

namespace GrpcRouteRulesMatchesMethod

/-- a service or a method is given -/
def Names (v : GrpcRouteRulesMatchesMethod) : Prop := v.service.isSome = true ∨ v.method.isSome = true

/-- the service and the method are what the matcher asks for, parts it does not give being free -/
def Satisfied (re : RegexEngine) (v : GrpcRouteRulesMatchesMethod) (s m : String) : Prop :=
  match v.matchType with
  | .exact => (∀ service, v.service = some service → s = service) ∧ ∀ method, v.method = some method → m = method
  | .regular => (∀ service, v.service = some service → re.isMatch service s = true)
    ∧ ∀ method, v.method = some method → re.isMatch method m = true

end GrpcRouteRulesMatchesMethod

variable (v : GrpcRouteRulesMatchesMethod)

def methodHost : HostRoute :=
  { hostname := .any
    rules := translateGrpcRuleToIr { matches_ := [{ method := parseMethodMatch v }] } 0 true none }

def methodPath : Option PathMatch :=
  (grpcMatchToRouteMatch { method := parseMethodMatch v }).path

/-- a host with this one method match has a plan for the request -/
def MethodAccepts (ω : IterOrder) (re : RegexEngine) (v : GrpcRouteRulesMatchesMethod) (r : RouteRequest) : Prop :=
  ((compileHost ω (methodHost v)).lookup re r).isSome = true

variable {ω : IterOrder} {re : RegexEngine} {v : GrpcRouteRulesMatchesMethod} {r : RouteRequest}

theorem methodAccepts_iff : MethodAccepts ω re v r ↔ ∀ pm, methodPath v = some pm → pm.Holds re r.path := by
  obtain ⟨p, hplans, hmatches⟩ : ∃ p, hostPlans (methodHost v) = [p]
      ∧ p.matches_ = grpcMatchToRouteMatch { method := parseMethodMatch v } := by
    simp [hostPlans, methodHost, translateGrpcRuleToIr, buildIrRuleFromGrpc]
  unfold MethodAccepts
  rw [host_lookup_isSome_iff, hplans]
  apply Iff.intro
  · rintro ⟨q, hq, hholds, -⟩
    obtain rfl := List.mem_singleton.1 hq
    rw [hmatches] at hholds
    exact hholds.path
  · intro hpath
    refine ⟨p, List.mem_singleton_self p, ?_, visible_of_few (by simp [discriminatorThreshold])⟩
    rw [hmatches]
    exact ⟨hpath, by simp [grpcMatchToRouteMatch], by simp [grpcMatchToRouteMatch], by simp [grpcMatchToRouteMatch]⟩

theorem methodPath_eq : methodPath v = match v.matchType with
      | .exact => v.method.map fun method => .exact ("/" ++ v.service.getD "" ++ "/" ++ method)
      | .regular => if v.service.getD "" = "" then none else some (.pathPrefix ("/" ++ v.service.getD "" ++ "/")) := by
  unfold methodPath grpcMatchToRouteMatch parseMethodMatch
  by_cases hnone : v.service.getD "" = "" ∧ v.method = none
  · cases hty : v.matchType <;> simp [hnone]
  · cases hty : v.matchType <;> simp only [hnone, if_false, bind_some, MethodMatch.exactPath, map_map, Function.comp_def]

variable {s m : String}

theorem splitPath_segments (hs : Segment s) (hm : Segment m) : splitPath ("/" ++ s ++ "/" ++ m) = [s, m] := by
  have hone : ∀ t, Segment t → splitPath t = [t] := by
    intro t ht
    simp [splitPath, splitChar_of_notMem ht.no_slash, ht.not_empty]
  rw [String.append_assoc, splitPath_append_slash, splitPath_slash_append, hone s hs, hone m hm]
  rfl

theorem segments_eq_iff {s m service method : String} (hs : Segment s) (hm : Segment m) :
    "/" ++ s ++ "/" ++ m = "/" ++ service ++ "/" ++ method ↔ s = service ∧ m = method := by
  apply Iff.intro
  · intro h
    have hcut : ∀ a b : String, splitChar '/' ("/" ++ a ++ "/" ++ b) = "" :: (splitChar '/' a ++ splitChar '/' b) := by
      intro a b
      calc splitChar '/' ("/" ++ a ++ "/" ++ b)
          = splitChar '/' ("" ++ (String.ofList ['/'] ++ (a ++ (String.ofList ['/'] ++ b)))) := by
            simp [String.empty_append, String.append_assoc]
        _ = splitChar '/' "" ++ (splitChar '/' a ++ splitChar '/' b) := by simp only [splitChar_append_sep]
    have hpieces := congrArg (splitChar '/') h
    rw [hcut, hcut, splitChar_of_notMem hs.no_slash, splitChar_of_notMem hm.no_slash] at hpieces
    -- two pieces in all, and each of the two texts has one
    have hlength := congrArg List.length hpieces
    have hservice := List.length_pos_of_ne_nil (splitChar_ne_nil '/' service)
    have hmethod := List.length_pos_of_ne_nil (splitChar_ne_nil '/' method)
    simp only [List.length_cons, List.length_append, List.length_nil] at hlength
    have hlast := (List.cons.inj hpieces).2
    obtain ⟨hfront, hback⟩ := List.append_inj hlast (by simp only [List.length_singleton]; omega)
    refine ⟨?_, ?_⟩
    · exact splitChar_inj (c := '/') (by rw [← hfront, splitChar_of_notMem hs.no_slash])
    · exact splitChar_inj (c := '/') (by rw [← hback, splitChar_of_notMem hm.no_slash])
  · rintro ⟨rfl, rfl⟩
    rfl

theorem accepts_exact (hty : v.matchType = .exact) (hs : Segment s) (hm : Segment m) (hpath : r.path = "/" ++ s ++ "/" ++ m) :
    MethodAccepts ω re v r ↔ ∀ method, v.method = some method → s = v.service.getD "" ∧ m = method := by
  rw [methodAccepts_iff, methodPath_eq, hty]
  cases v.method with
  | none => simp
  | some method =>
    simp only [map_some, some.injEq, forall_eq', hpath]
    exact segments_eq_iff hs hm

theorem accepts_regular (hty : v.matchType = .regular) :
    MethodAccepts ω re v r ↔ splitPath (v.service.getD "") <+: splitPath r.path := by
  rw [methodAccepts_iff, methodPath_eq, hty]
  by_cases hservice : v.service.getD "" = ""
  · simp [hservice, splitPath_empty]
  · simp [hservice, PathMatch.Holds, splitPath_append_trailing, splitPath_slash_append]

/-! ## When a matcher means what it says -/

/-- among segments, the pattern matches the text alone -/
def StandsFor (re : RegexEngine) (pattern text : String) : Prop := ∀ s, Segment s → (re.isMatch pattern s = true ↔ s = text)

namespace GrpcRouteRulesMatchesMethod

/-- both parts or neither, or a method that no path can have -/
def FitsExact (v : GrpcRouteRulesMatchesMethod) : Prop := (v.service.isSome = true ↔ v.method.isSome = true)
    ∨ v.service = none ∧ ∃ method, v.method = some method ∧ ¬Segment method

/-- the patterns take what the segments of the service's text say: one segment is the service, two are service and method -/
def FitsRegular (re : RegexEngine) (v : GrpcRouteRulesMatchesMethod) : Prop :=
  match splitPath (v.service.getD "") with
  | [] => ¬v.Names
  | [x] => StandsFor re (v.service.getD "") x
    ∧ ∀ method, v.method = some method → ∀ m, Segment m → re.isMatch method m = true
  | [x, y] => StandsFor re (v.service.getD "") x ∧ ∃ method, v.method = some method ∧ StandsFor re method y
  | _ => (∀ s, Segment s → re.isMatch (v.service.getD "") s = false)
    ∨ ∃ method, v.method = some method ∧ ∀ m, Segment m → re.isMatch method m = false

def Fits (re : RegexEngine) (v : GrpcRouteRulesMatchesMethod) : Prop :=
  match v.matchType with
  | .exact => v.FitsExact
  | .regular => v.FitsRegular re

/-- requests for `/s/m` find the rule exactly when the matcher asks for them, and one that names something leaves out a path -/
structure MeansWhatItSays (ω : IterOrder) (re : RegexEngine) (v : GrpcRouteRulesMatchesMethod) : Prop where
  accepts : ∀ (r : RouteRequest) (s m : String), Segment s → Segment m → r.path = "/" ++ s ++ "/" ++ m →
    (MethodAccepts ω re v r ↔ v.Satisfied re s m)
  rejects : v.Names → ∃ r, ¬MethodAccepts ω re v r

end GrpcRouteRulesMatchesMethod

open GrpcRouteRulesMatchesMethod

def requestAt (path : String) : RouteRequest := ⟨"", 80, path, "POST", [], none⟩

theorem segment_a : Segment "a" := ⟨by decide, by decide⟩

theorem segment_b : Segment "b" := ⟨by decide, by decide⟩

theorem satisfied_exact (hty : v.matchType = .exact) : v.Satisfied re s m
    ↔ (∀ service, v.service = some service → s = service) ∧ ∀ method, v.method = some method → m = method := by
  rw [Satisfied, hty]

theorem satisfied_regular (hty : v.matchType = .regular) : v.Satisfied re s m
    ↔ (∀ service, v.service = some service → re.isMatch service s = true)
      ∧ ∀ method, v.method = some method → re.isMatch method m = true := by
  rw [Satisfied, hty]

theorem means_exact_iff (hty : v.matchType = .exact) : v.MeansWhatItSays ω re ↔ v.FitsExact := by
  apply Iff.intro
  · rintro ⟨hmeans, -⟩
    have hsame : ∀ s m, Segment s → Segment m →
        ((∀ method, v.method = some method → s = v.service.getD "" ∧ m = method) ↔ v.Satisfied re s m) := by
      intro s m hs hm
      rw [← hmeans (requestAt ("/" ++ s ++ "/" ++ m)) s m hs hm rfl, accepts_exact hty hs hm rfl]
    cases hservice : v.service with
    | none =>
      cases hmethod : v.method with
      | none => exact .inl (by simp [hservice, hmethod])
      | some method =>
        refine .inr ⟨hservice, method, hmethod, fun hseg => ?_⟩
        -- `/a/method` is asked for, but the rule's path has no service
        have hasked : v.Satisfied re "a" method := by simp [satisfied_exact hty, hservice, hmethod]
        have htaken := ((hsame "a" method segment_a hseg).2 hasked) method hmethod
        simp [hservice] at htaken
    | some service =>
      cases hmethod : v.method with
      | none =>
        -- every path is taken, and two services are not one
        have hevery : ∀ s, Segment s → s = service := by
          intro s hs
          have hasked := (hsame s "a" hs segment_a).1 (by simp [hmethod])
          exact ((satisfied_exact hty).1 hasked).1 service hservice
        have hab := (hevery "a" segment_a).trans (hevery "b" segment_b).symm
        exact absurd hab (by decide)
      | some method => exact .inl (by simp [hservice, hmethod])
  · intro hfits
    refine ⟨fun r s m hs hm hpath => ?_, fun hnames => ⟨requestAt "", fun hall => ?_⟩⟩
    · rw [accepts_exact hty hs hm hpath, satisfied_exact hty]
      rcases hfits with hboth | ⟨hservice, method, hmethod, hnot⟩
      · cases hservice : v.service <;> cases hmethod : v.method <;> simp_all
      · simp only [hservice, hmethod, some.injEq, forall_eq']
        apply iff_of_false
        · exact fun h => hs.not_empty h.1
        · rintro ⟨-, rfl⟩
          exact hnot hm
    · obtain ⟨method, hmethod⟩ : ∃ method, v.method = some method := by
        rcases hfits with hboth | ⟨-, method, hmethod, -⟩
        · exact isSome_iff_exists.1 (hnames.elim hboth.1 id)
        · exact ⟨method, hmethod⟩
      rw [methodAccepts_iff, methodPath_eq, hty, hmethod] at hall
      have hempty : "" = "/" ++ v.service.getD "" ++ "/" ++ method := hall _ rfl
      have hlength := congrArg (fun t => t.toList.length) hempty
      simp at hlength

theorem means_regular_segments (hty : v.matchType = .regular) : v.MeansWhatItSays ω re ↔
    (∀ s m, Segment s → Segment m → (splitPath (v.service.getD "") <+: [s, m] ↔ v.Satisfied re s m))
      ∧ (v.Names → splitPath (v.service.getD "") ≠ []) := by
  apply Iff.intro
  · rintro ⟨haccepts, hrejects⟩
    refine ⟨fun s m hs hm => ?_, fun hnames hnil => ?_⟩
    · have hsplit : splitPath (requestAt ("/" ++ s ++ "/" ++ m)).path = [s, m] := splitPath_segments hs hm
      rw [← haccepts (requestAt ("/" ++ s ++ "/" ++ m)) s m hs hm rfl, accepts_regular hty, hsplit]
    · obtain ⟨r, hr⟩ := hrejects hnames
      rw [accepts_regular hty, hnil] at hr
      exact hr List.nil_prefix
  · rintro ⟨haccepts, hrejects⟩
    refine ⟨fun r s m hs hm hpath => ?_, fun hnames => ⟨requestAt "", ?_⟩⟩
    · rw [accepts_regular hty, hpath, splitPath_segments hs hm]
      exact haccepts s m hs hm
    · rw [accepts_regular hty]
      exact fun h => hrejects hnames (List.prefix_nil.1 h)

/-! ### Conditions on a service and on a method -/

section Pairs

variable {A B : String → Prop} {x y : String}

theorem service_only_iff (hx : Segment x) : (∀ s m, Segment s → Segment m → (s = x ↔ A s ∧ B m))
    ↔ (∀ s, Segment s → (A s ↔ s = x)) ∧ ∀ m, Segment m → B m := by
  apply Iff.intro
  · intro h
    have hB := fun m hm => ((h x m hx hm).1 rfl).2
    refine ⟨fun s hs => ⟨fun ha => (h s x hs hx).2 ⟨ha, hB x hx⟩, fun heq => ((h s x hs hx).1 heq).1⟩, hB⟩
  · rintro ⟨hA, hB⟩ s m hs hm
    rw [hA s hs, and_iff_left (hB m hm)]

theorem service_and_method_iff (hx : Segment x) (hy : Segment y) : (∀ s m, Segment s → Segment m → (s = x ∧ m = y ↔ A s ∧ B m))
      ↔ (∀ s, Segment s → (A s ↔ s = x)) ∧ ∀ m, Segment m → (B m ↔ m = y) := by
  apply Iff.intro
  · intro h
    obtain ⟨hAx, hBy⟩ := (h x y hx hy).1 ⟨rfl, rfl⟩
    refine ⟨fun s hs => ⟨fun ha => ((h s y hs hy).2 ⟨ha, hBy⟩).1, fun heq => heq ▸ hAx⟩,
      fun m hm => ⟨fun hb => ((h x m hx hm).2 ⟨hAx, hb⟩).2, fun heq => heq ▸ hBy⟩⟩
  · rintro ⟨hA, hB⟩ s m hs hm
    rw [hA s hs, hB m hm]

theorem no_pair_iff : (∀ s m, Segment s → Segment m → ¬(A s ∧ B m)) ↔ (∀ s, Segment s → ¬A s) ∨ ∀ m, Segment m → ¬B m := by
  apply Iff.intro
  · intro h
    by_contra hnot
    rw [not_or] at hnot
    obtain ⟨hsome, hmethod⟩ := hnot
    simp only [not_forall, not_not] at hsome hmethod
    obtain ⟨s, hs, ha⟩ := hsome
    obtain ⟨m, hm, hb⟩ := hmethod
    exact h s m hs hm ⟨ha, hb⟩
  · rintro (hA | hB) s m hs hm ⟨ha, hb⟩
    · exact hA s hs ha
    · exact hB m hm hb

end Pairs

theorem method_given {method : Option String} {P : String → Prop} (hP : ¬∀ m, Segment m → P m) :
    (∀ m, Segment m → ((∀ pattern, method = some pattern → re.isMatch pattern m = true) ↔ P m))
      ↔ ∃ pattern, method = some pattern ∧ ∀ m, Segment m → (re.isMatch pattern m = true ↔ P m) := by
  cases method with
  | none => simpa using hP
  | some pattern => simp

theorem means_regular_iff (hty : v.matchType = .regular) : v.MeansWhatItSays ω re ↔ v.FitsRegular re := by
  have hsegment : ∀ t ∈ splitPath (v.service.getD ""), Segment t := fun t ht =>
    ⟨by simpa using (List.mem_filter.1 ht).2, no_slash_of_mem_splitPath ht⟩
  -- a service whose text has a segment is given
  have hasked : splitPath (v.service.getD "") ≠ [] → ∀ s m, v.Satisfied re s m
      ↔ re.isMatch (v.service.getD "") s = true ∧ ∀ pattern, v.method = some pattern → re.isMatch pattern m = true := by
    intro hne s m
    rw [satisfied_regular hty]
    cases hservice : v.service with
    | none => simp [hservice, splitPath_empty] at hne
    | some service => simp
  have hne_all : ∀ y, ¬∀ m, Segment m → m = y := fun y h => absurd ((h "a" segment_a).trans (h "b" segment_b).symm) (by decide)
  rw [means_regular_segments hty, FitsRegular]
  generalize splitPath (v.service.getD "") = segments at hsegment hasked ⊢
  match segments with
  | [] =>
    simp only [ne_eq, not_true_eq_false]
    refine ⟨fun h => h.2, fun hnot => ⟨fun s m _ _ => ?_, hnot⟩⟩
    have hnone : v.service = none ∧ v.method = none := by simpa [Names] using hnot
    simp [satisfied_regular hty, hnone]
  | [x] =>
    have hx := hsegment x (by simp)
    simp only [hasked, List.cons_prefix_cons, List.nil_prefix, and_true, ne_eq, reduceCtorEq, not_false_eq_true,
      implies_true, eq_comm (a := x), service_only_iff hx]
    refine and_congr .rfl ?_
    exact ⟨fun h pattern hp m hm => h m hm pattern hp, fun h m hm pattern hp => h pattern hp m hm⟩
  | [x, y] =>
    have hx := hsegment x (by simp)
    have hy := hsegment y (by simp)
    simp only [hasked, List.cons_prefix_cons, List.nil_prefix, and_true, ne_eq, reduceCtorEq, not_false_eq_true,
      implies_true, eq_comm (a := x), eq_comm (a := y), service_and_method_iff hx hy]
    exact and_congr .rfl (method_given (hne_all y))
  | x :: y :: z :: rest =>
    have hlong : ∀ s m : String, ¬x :: y :: z :: rest <+: [s, m] := fun s m h => by simpa using h.length_le
    have hgiven : (∀ m, Segment m → ((∀ pattern, v.method = some pattern → re.isMatch pattern m = true) ↔ False))
        ↔ ∃ pattern, v.method = some pattern ∧ ∀ m, Segment m → (re.isMatch pattern m = true ↔ False) :=
      method_given fun h => h "a" segment_a
    simp only [hasked, hlong, false_iff, ne_eq, reduceCtorEq, not_false_eq_true, implies_true, and_true, no_pair_iff]
    simp only [iff_false] at hgiven
    simp only [hgiven, Bool.not_eq_true]

/-- **GRPC method matches.** A matcher accepts the services and methods it names, and not every path, exactly when an exact one
gives both parts or neither (or a method no path has), and the patterns of a regular one take the texts it is compared with. -/
theorem method_match_means_iff (ω : IterOrder) (re : RegexEngine) (v : GrpcRouteRulesMatchesMethod) :
    v.MeansWhatItSays ω re ↔ v.Fits re := by
  unfold Fits
  cases hty : v.matchType with
  | exact => exact means_exact_iff hty
  | regular => exact means_regular_iff hty

def usersService : GrpcRouteRulesMatchesMethod := { service := some "pkg.Users" }

theorem service_match_accepts_other_service :
    MethodAccepts IterOrder.stored ⟨fun _ => none⟩ usersService (requestAt "/pkg.Admin/Delete")
      ∧ ¬usersService.Satisfied ⟨fun _ => none⟩ "pkg.Admin" "Delete"
      ∧ ¬usersService.MeansWhatItSays IterOrder.stored ⟨fun _ => none⟩ := by
  have haccepts : MethodAccepts IterOrder.stored ⟨fun _ => none⟩ usersService (requestAt "/pkg.Admin/Delete") := by
    rw [methodAccepts_iff]
    intro pm hpm
    cases hpm
  have hnot : ¬usersService.Satisfied ⟨fun _ => none⟩ "pkg.Admin" "Delete" := by
    intro h
    exact absurd (h.1 "pkg.Users" rfl) (by decide)
  refine ⟨haccepts, hnot, fun h => hnot ?_⟩
  exact (h.accepts (requestAt "/pkg.Admin/Delete") "pkg.Admin" "Delete" ⟨by decide, by decide⟩ ⟨by decide, by decide⟩ rfl).1
    haccepts

end SunbeamProxy.Gateway
