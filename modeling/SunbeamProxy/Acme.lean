/-
The table of ACME challenges (`acme.rs`), kept by a watch on the Ingresses of a namespace.
-/
import SunbeamProxy.Core.Collections
import SunbeamProxy.Core.Text

namespace SunbeamProxy.Acme

open Text List Option HashMap

structure ServiceBackend where
  name : String
  /-- `port.number` -/
  port : Option ℤ
deriving DecidableEq, Repr

structure IngressPath where
  path : Option String
  service : Option ServiceBackend
deriving DecidableEq, Repr

structure Ingress where
  name : String
  spec : Option (Option (List (Option (List IngressPath))))
deriving DecidableEq, Repr

abbrev AcmeRoutes := HashMap String String

def challengePrefix : String := "/.well-known/acme-challenge/"

variable (ingress : Ingress)

def Ingress.paths : List IngressPath :=
  match ingress.spec with
  | none => []
  | some rules => (rules.getD []).flatMap fun http => http.getD []

def IngressPath.challenge (p : IngressPath) : Option String := p.path.filter fun path => startsWith path challengePrefix

def IngressPath.backend (ns : String) (p : IngressPath) : Option String :=
  p.service.bind fun svc => svc.port.map fun port => svc.name ++ "." ++ ns ++ ".svc.cluster.local:" ++ toString port

def upsertRoute (ns : String) (map : AcmeRoutes) (p : IngressPath) : AcmeRoutes :=
  match p.challenge with
  | none => map
  | some path =>
    match p.backend ns with
    | none => map
    | some backend => map.insert path backend

def upsertRoutes (ns : String) (ingress : Ingress) (map : AcmeRoutes) : AcmeRoutes := ingress.paths.foldl (upsertRoute ns) map

def removeRoute (map : AcmeRoutes) (p : IngressPath) : AcmeRoutes :=
  match p.challenge with
  | none => map
  | some path => map.erase path

def removeRoutes (map : AcmeRoutes) : AcmeRoutes := ingress.paths.foldl removeRoute map

inductive Event where
  | init
  | initApply (ingress : Ingress)
  | initDone
  | apply (ingress : Ingress)
  | delete (ingress : Ingress)
deriving DecidableEq, Repr

def handle (ns : String) (map : AcmeRoutes) : Event → AcmeRoutes
  | .initApply ingress => upsertRoutes ns ingress map
  | .apply ingress => upsertRoutes ns ingress map
  | .delete ingress => removeRoutes ingress map
  | _ => map

def Ingress.listed : List String := ingress.paths.filterMap IngressPath.challenge

def Ingress.challenges (ns : String) (ingress : Ingress) : List (String × String) :=
  ingress.paths.filterMap fun p => p.challenge.bind fun path => (p.backend ns).map fun backend => (path, backend)

variable {ns path : String}

theorem listed_of_challenges {ingress : Ingress} {backend : String} (h : (path, backend) ∈ ingress.challenges ns) :
    path ∈ ingress.listed := by
  obtain ⟨p, hp, hpair⟩ := mem_filterMap.1 h
  obtain ⟨q, hq, hpair⟩ := bind_eq_some_iff.1 hpair
  obtain ⟨b, -, hb⟩ := map_eq_some_iff.1 hpair
  cases hb
  exact mem_filterMap.2 ⟨p, hp, hq⟩

theorem upsertRoutes_eq (ns : String) (ingress : Ingress) (map : AcmeRoutes) :
    upsertRoutes ns ingress map = (ingress.challenges ns).foldl (fun m e => m.insert e.1 e.2) map := by
  unfold upsertRoutes Ingress.challenges
  rw [foldl_filterMap]
  congr 1
  funext m p
  unfold upsertRoute
  cases p.challenge with
  | none => rfl
  | some path => cases p.backend ns <;> rfl

theorem removeRoutes_eq (map : AcmeRoutes) :
    removeRoutes ingress map = ingress.listed.foldl (fun m path => m.erase path) map := by
  unfold removeRoutes Ingress.listed
  rw [foldl_filterMap]
  congr 1
  funext m p
  unfold removeRoute
  cases p.challenge <;> rfl

structure Cluster where
  ingresses : List Ingress
  distinct : (ingresses.map Ingress.name).Nodup

namespace Cluster

def empty : Cluster := ⟨[], nodup_nil⟩

variable (c : Cluster)

def find (name : String) : Option Ingress := c.ingresses.find? (·.name = name)

theorem distinct_filter (name : String) : ((c.ingresses.filter (·.name ≠ name)).map Ingress.name).Nodup :=
  (filter_sublist.map Ingress.name).nodup c.distinct

def drop (name : String) : Cluster := ⟨c.ingresses.filter (·.name ≠ name), c.distinct_filter name⟩

def put (ingress : Ingress) : Cluster := ⟨ingress :: c.ingresses.filter (·.name ≠ ingress.name), by
    rw [map_cons, nodup_cons]
    refine ⟨?_, c.distinct_filter ingress.name⟩
    simp⟩

variable {c : Cluster} {i : Ingress}

theorem mem_drop {name : String} : i ∈ (c.drop name).ingresses ↔ i ∈ c.ingresses ∧ i.name ≠ name := by simp [drop]

theorem mem_put {ingress : Ingress} : i ∈ (c.put ingress).ingresses ↔ i = ingress ∨ i ∈ c.ingresses ∧ i.name ≠ ingress.name := by
  simp [put]

theorem find_eq_some {name : String} : c.find name = some i ↔ i ∈ c.ingresses ∧ i.name = name := by
  apply Iff.intro
  · intro h
    exact ⟨mem_of_find?_eq_some h, by simpa using find?_some h⟩
  · rintro ⟨hmem, hname⟩
    have hsome : (c.find name).isSome = true := find?_isSome.2 ⟨i, hmem, by simpa using hname⟩
    obtain ⟨j, hj⟩ := isSome_iff_exists.1 hsome
    have hj' : j.name = name := by simpa using find?_some hj
    rw [hj, inj_on_of_nodup_map c.distinct (mem_of_find?_eq_some hj) hmem (hj'.trans hname.symm)]

end Cluster

/-- an ingress of the list has a challenge for the path -/
def Given (ns : String) (ingresses : List Ingress) (path : String) : Prop :=
  ∃ i ∈ ingresses, ∃ backend, (path, backend) ∈ i.challenges ns

/-- the table has the challenge paths of the Ingresses and no others, each with a backend one of them gives -/
structure Mirrors (ns : String) (c : Cluster) (routes : AcmeRoutes) : Prop where
  present : ∀ path, Given ns c.ingresses path → (routes.get path).isSome = true
  current : ∀ path backend, routes.get path = some backend → ∃ i ∈ c.ingresses, (path, backend) ∈ i.challenges ns

inductive Change where
  /-- the watch begins, or begins again: the cluster as it is listed then -/
  | relist (cluster : Cluster)
  /-- an object is created or updated -/
  | apply (ingress : Ingress)
  /-- the object of the name is deleted -/
  | delete (name : String)

structure World where
  cluster : Cluster
  routes : AcmeRoutes

def Change.cluster (c : Cluster) : Change → Cluster
  | .relist listed => listed
  | .apply ingress => c.put ingress
  | .delete name => c.drop name

def Change.events (c : Cluster) : Change → List Event
  | .relist listed => .init :: (listed.ingresses.map .initApply ++ [.initDone])
  | .apply ingress => [.apply ingress]
  | .delete name => ((c.find name).map .delete).toList

def World.step (ns : String) (w : World) (change : Change) : World :=
  ⟨change.cluster w.cluster, (change.events w.cluster).foldl (handle ns) w.routes⟩

def World.run (ns : String) (w : World) (changes : List Change) : World := changes.foldl (World.step ns) w

def World.start : World := ⟨.empty, ∅⟩

/-! ## One change -/

def Steady (ns : String) (w : World) : Change → Prop
  | .relist listed => ∀ path, Given ns w.cluster.ingresses path → Given ns listed.ingresses path
  | .apply ingress => ∀ path backend, w.routes.get path = some backend → ¬Given ns [ingress] path →
      ∃ i ∈ w.cluster.ingresses, i.name ≠ ingress.name ∧ (path, backend) ∈ i.challenges ns
  | .delete name => ∀ i ∈ w.cluster.ingresses, i.name = name → ∀ path ∈ i.listed,
      ¬Given ns (w.cluster.drop name).ingresses path

theorem get_upsertAll (ns : String) (ingresses : List Ingress) (routes : AcmeRoutes) (path : String) :
    get (ingresses.foldl (fun m i => upsertRoutes ns i m) routes) path
      = (get (ofPairs (ingresses.flatMap (Ingress.challenges ns))) path).or (routes.get path) := by
  rw [← get_foldl_insert, foldl_flatMap]
  simp [upsertRoutes_eq]

variable {ingresses : List Ingress}

theorem given_iff : Given ns ingresses path
      ↔ (get (ofPairs (ingresses.flatMap (Ingress.challenges ns))) path).isSome = true := by
  rw [isSome_get_ofPairs]
  simp only [mem_flatMap]
  exact ⟨fun ⟨i, hi, b, hb⟩ => ⟨b, i, hi, hb⟩, fun ⟨b, i, hi, hb⟩ => ⟨i, hi, b, hb⟩⟩

theorem isSome_upsertAll {routes : AcmeRoutes} :
    (get (ingresses.foldl (fun m i => upsertRoutes ns i m) routes) path).isSome = true
      ↔ Given ns ingresses path ∨ (routes.get path).isSome = true := by
  rw [get_upsertAll, isSome_or, Bool.or_eq_true, given_iff]

theorem upsertAll_eq_some {routes : AcmeRoutes} {backend : String}
    (h : get (ingresses.foldl (fun m i => upsertRoutes ns i m) routes) path = some backend) :
    (∃ i ∈ ingresses, (path, backend) ∈ i.challenges ns) ∨ (¬Given ns ingresses path ∧ routes.get path = some backend) := by
  rw [get_upsertAll] at h
  rcases or_eq_some_iff.1 h with hgiven | ⟨hnone, hold⟩
  · exact .inl (mem_flatMap.1 (mem_of_get_ofPairs hgiven))
  · refine .inr ⟨?_, hold⟩
    rw [given_iff, hnone]
    simp

theorem foldl_relist (ns : String) (w : World) (listed : Cluster) :
    (w.step ns (.relist listed)).routes = listed.ingresses.foldl (fun m i => upsertRoutes ns i m) w.routes := by
  simp [World.step, Change.events, foldl_map, handle]

variable {w : World}

theorem relist_mirrors_iff (h : Mirrors ns w.cluster w.routes) (listed : Cluster) :
    Mirrors ns listed (w.step ns (.relist listed)).routes ↔ Steady ns w (.relist listed) := by
  rw [foldl_relist]
  apply Iff.intro
  · intro h' path hgiven
    have hold : Given ns listed.ingresses path ∨ (w.routes.get path).isSome = true := .inr (h.present path hgiven)
    obtain ⟨backend, hbackend⟩ := isSome_iff_exists.1 (isSome_upsertAll.2 hold)
    obtain ⟨i, hi, hpair⟩ := h'.current path backend hbackend
    exact ⟨i, hi, backend, hpair⟩
  · intro hsteady
    refine ⟨fun path hgiven => isSome_upsertAll.2 (.inl hgiven), ?_⟩
    intro path backend hbackend
    rcases upsertAll_eq_some hbackend with hnew | ⟨hnot, hold⟩
    · exact hnew
    · obtain ⟨i, hi, hpair⟩ := h.current path backend hold
      exact absurd (hsteady path ⟨i, hi, backend, hpair⟩) hnot

theorem apply_mirrors_iff (h : Mirrors ns w.cluster w.routes) (ingress : Ingress) :
    Mirrors ns (w.cluster.put ingress) (w.step ns (.apply ingress)).routes ↔ Steady ns w (.apply ingress) := by
  change Mirrors ns _ ([ingress].foldl (fun m i => upsertRoutes ns i m) w.routes) ↔ _
  apply Iff.intro
  · intro h' path backend hbackend hnot
    have hkept : get ([ingress].foldl (fun m i => upsertRoutes ns i m) w.routes) path = some backend := by
      rw [given_iff, not_isSome_iff_eq_none] at hnot
      rw [get_upsertAll, hnot, none_or, hbackend]
    obtain ⟨i, hi, hpair⟩ := h'.current path backend hkept
    rcases Cluster.mem_put.1 hi with rfl | ⟨hmem, hname⟩
    · exact absurd ⟨i, mem_singleton.2 rfl, backend, hpair⟩ hnot
    · exact ⟨i, hmem, hname, hpair⟩
  · intro hsteady
    refine ⟨?_, ?_⟩
    · rintro path ⟨i, hi, backend, hpair⟩
      rcases Cluster.mem_put.1 hi with rfl | ⟨hmem, -⟩
      · exact isSome_upsertAll.2 (.inl ⟨i, mem_singleton.2 rfl, backend, hpair⟩)
      · exact isSome_upsertAll.2 (.inr (h.present path ⟨i, hmem, backend, hpair⟩))
    · intro path backend hbackend
      rcases upsertAll_eq_some hbackend with ⟨i, hi, hpair⟩ | ⟨hnot, hold⟩
      · exact ⟨i, Cluster.mem_put.2 (.inl (mem_singleton.1 hi)), hpair⟩
      · obtain ⟨i, hi, hname, hpair⟩ := hsteady path backend hold hnot
        exact ⟨i, Cluster.mem_put.2 (.inr ⟨hi, hname⟩), hpair⟩

theorem get_removeRoutes (routes : AcmeRoutes) (path : String) :
    get (removeRoutes ingress routes) path = if path ∈ ingress.listed then none else routes.get path := by
  rw [removeRoutes_eq, get_foldl_erase]

theorem delete_mirrors_iff (h : Mirrors ns w.cluster w.routes) (name : String) :
    Mirrors ns (w.cluster.drop name) (w.step ns (.delete name)).routes ↔ Steady ns w (.delete name) := by
  cases hfind : w.cluster.find name with
  | none =>
    -- nothing of the name exists, nothing changes
    have hname : ∀ i ∈ w.cluster.ingresses, i.name ≠ name := by
      intro i hi hname
      rw [Cluster.find_eq_some.2 ⟨hi, hname⟩] at hfind
      cases hfind
    have hroutes : (w.step ns (.delete name)).routes = w.routes := by simp [World.step, Change.events, hfind]
    rw [hroutes]
    refine iff_of_true ⟨?_, ?_⟩ fun i hi hi' => absurd hi' (hname i hi)
    · rintro path ⟨i, hi, hpair⟩
      exact h.present path ⟨i, (Cluster.mem_drop.1 hi).1, hpair⟩
    · intro path backend hbackend
      obtain ⟨i, hi, hpair⟩ := h.current path backend hbackend
      exact ⟨i, Cluster.mem_drop.2 ⟨hi, hname i hi⟩, hpair⟩
  | some gone =>
    obtain ⟨hgone, hgoneName⟩ := Cluster.find_eq_some.1 hfind
    have hroutes : (w.step ns (.delete name)).routes = removeRoutes gone w.routes := by
      simp [World.step, Change.events, hfind, handle]
    have honly : ∀ i ∈ w.cluster.ingresses, i.name = name → i = gone := by
      intro i hi hname
      have hi' := Cluster.find_eq_some.2 ⟨hi, hname⟩
      rw [hfind] at hi'
      exact (Option.some.inj hi').symm
    rw [hroutes]
    apply Iff.intro
    · intro h' i hi hname path hpath hgiven
      obtain rfl := honly i hi hname
      have hsome := h'.present path hgiven
      rw [get_removeRoutes, if_pos hpath] at hsome
      cases hsome
    · intro hsteady
      have hkept := fun path hgiven hpath => hsteady gone hgone hgoneName path hpath hgiven
      refine ⟨?_, ?_⟩
      · intro path hgiven
        rw [get_removeRoutes, if_neg (hkept path hgiven)]
        obtain ⟨i, hi, hpair⟩ := hgiven
        exact h.present path ⟨i, (Cluster.mem_drop.1 hi).1, hpair⟩
      · intro path backend hbackend
        rw [get_removeRoutes] at hbackend
        split_ifs at hbackend with hpath
        obtain ⟨i, hi, hpair⟩ := h.current path backend hbackend
        refine ⟨i, Cluster.mem_drop.2 ⟨hi, fun hname => hpath ?_⟩, hpair⟩
        rw [← honly i hi hname]
        exact listed_of_challenges hpair

/-- **One change.** From a table that mirrors the cluster, the next one does exactly when the change is steady. -/
theorem step_mirrors_iff (h : Mirrors ns w.cluster w.routes) (change : Change) :
    Mirrors ns (w.step ns change).cluster (w.step ns change).routes ↔ Steady ns w change := by
  cases change with
  | relist listed => exact relist_mirrors_iff h listed
  | apply ingress => exact apply_mirrors_iff h ingress
  | delete name => exact delete_mirrors_iff h name

def MirrorsThroughout (ns : String) : World → List Change → Prop
  | _, [] => True
  | w, change :: changes =>
    Mirrors ns (w.step ns change).cluster (w.step ns change).routes ∧ MirrorsThroughout ns (w.step ns change) changes

def SteadyThroughout (ns : String) : World → List Change → Prop
  | _, [] => True
  | w, change :: changes => Steady ns w change ∧ SteadyThroughout ns (w.step ns change) changes

theorem mirrors_start (ns : String) : Mirrors ns World.start.cluster World.start.routes := by
  refine ⟨?_, ?_⟩
  · rintro path ⟨i, hi, -⟩
    cases hi
  · intro path backend hbackend
    cases hbackend

/-- **The table mirrors the Ingresses** after every change of a run, exactly when every change is steady. -/
theorem mirrors_iff (ns : String) (changes : List Change) :
    MirrorsThroughout ns .start changes ↔ SteadyThroughout ns .start changes := by
  have hrun : ∀ w : World, Mirrors ns w.cluster w.routes → (MirrorsThroughout ns w changes ↔ SteadyThroughout ns w changes) := by
    -- the invariant is the property itself: each step starts from a table that mirrors the cluster
    induction changes with
    | nil => exact fun _ _ => .rfl
    | cons change changes ih =>
      intro w hw
      apply Iff.intro
      · rintro ⟨hstep, hrest⟩
        exact ⟨(step_mirrors_iff hw change).1 hstep, (ih _ hstep).1 hrest⟩
      · rintro ⟨hsteady, hrest⟩
        have hstep := (step_mirrors_iff hw change).2 hsteady
        exact ⟨hstep, (ih _ hstep).2 hrest⟩
  exact hrun _ (mirrors_start ns)

def solverIngress : Ingress :=
  { name := "challenge"
    spec := some (some [some [⟨some "/.well-known/acme-challenge/token", some ⟨"solver", some 8089⟩⟩]]) }

def solverCluster : Cluster := ⟨[solverIngress], by decide⟩

theorem missed_deletion_stays : (World.run "cert-manager" .start [.relist solverCluster, .relist .empty]).cluster.ingresses = []
      ∧ (World.run "cert-manager" .start [.relist solverCluster, .relist .empty]).routes.get "/.well-known/acme-challenge/token"
        = some "solver.cert-manager.svc.cluster.local:8089"
      ∧ ¬MirrorsThroughout "cert-manager" .start [.relist solverCluster, .relist .empty] := by
  have hstays : (World.run "cert-manager" .start [.relist solverCluster, .relist .empty]).routes.get
      "/.well-known/acme-challenge/token" = some "solver.cert-manager.svc.cluster.local:8089" := by decide
  refine ⟨rfl, hstays, ?_⟩
  rintro ⟨-, h, -⟩
  obtain ⟨i, hi, -⟩ := h.current _ _ hstays
  cases hi

end SunbeamProxy.Acme
