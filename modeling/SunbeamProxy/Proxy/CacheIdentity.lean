/-
What a cache key says about its request (`proxy/cache_hooks.rs`).
-/
import SunbeamProxy.Proxy.Cache

namespace SunbeamProxy

open Text List

def negotiatedNames : List String := ["accept-encoding", "accept-language", "accept"]

structure CacheIdentity where
  host : String
  path : String
  query : Option String
  credentials : Bool
  negotiated : List (Option String)
deriving DecidableEq, Repr

def cacheIdentity (s : Session) : CacheIdentity :=
  ⟨extractHost s, s.req.uri.path, s.req.uri.query, hasCredentials s, negotiatedNames.map (HeaderMap.getStr s.req.headers)⟩

/-- what stands between the bars of a key -/
def keyPieces (s : Session) : List String :=
  splitChar '|' (keyTarget s) ++ ((if hasCredentials s then ["auth"] else []) ++ (negotiation s).flatMap (splitChar '|'))

/-- an absolute path, and no separator where another part begins -/
structure PlainKey (s : Session) : Prop where
  host : '/' ∉ (extractHost s).toList
  absolute : startsWith s.req.uri.path "/" = true
  path : '?' ∉ s.req.uri.path.toList
  target : '|' ∉ (keyTarget s).toList
  values : ∀ v ∈ negotiation s, '|' ∉ v.toList

variable {s s₁ s₂ : Session}

theorem PlainKey.pieces (h : PlainKey s) :
    keyPieces s = keyTarget s :: ((if hasCredentials s then ["auth"] else []) ++ negotiation s) := by
  have hflat : (negotiation s).flatMap (splitChar '|') = negotiation s := by
    calc (negotiation s).flatMap (splitChar '|')
        = (negotiation s).flatMap fun v => [v] := flatMap_congr fun v hv => splitChar_of_notMem (h.values v hv)
      _ = negotiation s := flatMap_singleton' _
  rw [keyPieces, hflat, splitChar_of_notMem h.target]
  rfl

theorem cut_inj {c : Char} {a b a' b' : String} (ha : c ∉ a.toList) (hb : c ∉ b.toList)
    (h : a ++ (String.ofList [c] ++ a') = b ++ (String.ofList [c] ++ b')) : a = b ∧ a' = b' := by
  have hpieces := congrArg (splitChar c) h
  simp only [splitChar_append_sep, splitChar_of_notMem ha, splitChar_of_notMem hb] at hpieces
  obtain rfl := (cons.inj hpieces).1
  exact ⟨rfl, (String.append_right_inj _).1 ((String.append_right_inj _).1 h)⟩

theorem PlainKey.target_inj (h₁ : PlainKey s₁) (h₂ : PlainKey s₂) (h : keyTarget s₁ = keyTarget s₂) :
    extractHost s₁ = extractHost s₂ ∧ s₁.req.uri.path = s₂.req.uri.path ∧ s₁.req.uri.query = s₂.req.uri.query := by
  have hcut : ∀ s : Session, ∀ p, s.req.uri.path = "/" ++ p →
      keyTarget s = extractHost s ++ ("/" ++ (p ++ s.req.uri.query.elim "" ("?" ++ ·))) := by
    intro s p hp
    rw [keyTarget, hp]
    cases s.req.uri.query <;> simp [String.append_assoc]
  obtain ⟨p₁, hp₁⟩ := startsWith_iff.1 h₁.absolute
  obtain ⟨p₂, hp₂⟩ := startsWith_iff.1 h₂.absolute
  have hmark : '?' ∉ p₁.toList ∧ '?' ∉ p₂.toList := by
    constructor
    · exact fun hmem => h₁.path (by rw [hp₁, String.toList_append]; exact mem_append_right _ hmem)
    · exact fun hmem => h₂.path (by rw [hp₂, String.toList_append]; exact mem_append_right _ hmem)
  rw [hcut s₁ p₁ hp₁, hcut s₂ p₂ hp₂] at h
  obtain ⟨hhost, hrest⟩ := cut_inj (c := '/') h₁.host h₂.host h
  refine ⟨hhost, ?_⟩
  rw [hp₁, hp₂]
  cases hq₁ : s₁.req.uri.query with
  | none =>
    cases hq₂ : s₂.req.uri.query with
    | none => simpa [hq₁, hq₂] using hrest
    | some q => exact absurd (by simp [hq₁, hq₂] at hrest; simp [hrest]) hmark.1
  | some q =>
    cases hq₂ : s₂.req.uri.query with
    | none => exact absurd (by simp [hq₁, hq₂] at hrest; simp [← hrest]) hmark.2
    | some q' =>
      rw [hq₁, hq₂] at hrest
      obtain ⟨rfl, rfl⟩ := cut_inj (c := '?') hmark.1 hmark.2 hrest
      exact ⟨rfl, rfl⟩

theorem eq_of_filterMap_eq {f g : String → Option String} {names : List String}
    (hsome : names.map (fun n => (f n).isSome) = names.map fun n => (g n).isSome)
    (h : names.filterMap f = names.filterMap g) : names.map f = names.map g := by
  induction names with
  | nil => rfl
  | cons n names ih =>
    simp only [map_cons, cons.injEq] at hsome ⊢
    cases hf : f n with
    | none =>
      have hg : g n = none := by simpa [hf] using hsome.1
      rw [filterMap_cons_none hf, filterMap_cons_none hg] at h
      exact ⟨hg.symm, ih hsome.2 h⟩
    | some v =>
      obtain ⟨w, hg⟩ := Option.isSome_iff_exists.1 (hsome.1 ▸ hf ▸ rfl : (g n).isSome = true)
      rw [filterMap_cons_some hf, filterMap_cons_some hg, cons.injEq] at h
      exact ⟨by rw [hg, h.1], ih hsome.2 h.2⟩

theorem PlainKey.identity_inj (h₁ : PlainKey s₁) (h₂ : PlainKey s₂)
    (hpresent : (cacheIdentity s₁).negotiated.map Option.isSome = (cacheIdentity s₂).negotiated.map Option.isSome)
    (hpieces : keyPieces s₁ = keyPieces s₂) : cacheIdentity s₁ = cacheIdentity s₂ := by
  rw [h₁.pieces, h₂.pieces, cons.injEq] at hpieces
  obtain ⟨hhost, hpath, hquery⟩ := h₁.target_inj h₂ hpieces.1
  have hsome : negotiatedNames.map (fun n => (HeaderMap.getStr s₁.req.headers n).isSome)
      = negotiatedNames.map fun n => (HeaderMap.getStr s₂.req.headers n).isSome := by
    simpa [cacheIdentity] using hpresent
  have hcount : (negotiation s₁).length = (negotiation s₂).length := by
    simp only [negotiation, length_filterMap_eq_countP]
    have h := congrArg (countP id) hsome
    rwa [countP_map] at h
  obtain ⟨hauth, hvalues⟩ := append_inj' hpieces.2 hcount
  have hcredentials : hasCredentials s₁ = hasCredentials s₂ := by
    cases h₁ : hasCredentials s₁ <;> cases h₂ : hasCredentials s₂ <;> simp_all
  simp [cacheIdentity, hhost, hpath, hquery, hcredentials, eq_of_filterMap_eq hsome hvalues]

def barSession (query : String) : Session :=
  ⟨⟨"GET", { path := "/x", query := some query }, [("host", .ofString "app.example.com")]⟩, none, none⟩

end SunbeamProxy
