/-
Certificate sources by priority (`tls/source.rs`).

`add` sorts by the negated priority and `merge` folds from the lowest source to the highest, each overriding what is there.
-/
import SunbeamProxy.Gateway.CertificateRefresh

namespace SunbeamProxy.Gateway

open List Text

/-! ## Wildcards -/

/-- what `WildcardPattern::new` ensures -/
def Dotted (p : WildcardPattern) : Prop := ∃ rest, p.suffix = String.ofList ['.'] ++ rest

theorem pattern_unique {p q : WildcardPattern} (hp : Dotted p) (hq : Dotted q) {host : String}
    (hmp : p.matches_ host = true) (hmq : q.matches_ host = true) : p = q := by
  have hlabel : ∀ r : WildcardPattern, r.matches_ host = true →
      ∃ label, toLowercase host = label ++ r.suffix ∧ '.' ∉ label.toList := by
    intro r hr
    unfold WildcardPattern.matches_ at hr
    split at hr
    next label hstrip =>
      simp only [Bool.and_eq_true, Bool.not_eq_true', contains_eq_mem, decide_eq_false_iff_not] at hr
      exact ⟨label, stripEnd_eq_some.1 hstrip, hr.2⟩
    next => cases hr
  obtain ⟨lp, hlp, hdotp⟩ := hlabel p hmp
  obtain ⟨lq, hlq, hdotq⟩ := hlabel q hmq
  obtain ⟨rp, hrp⟩ := hp
  obtain ⟨rq, hrq⟩ := hq
  have hpieces := congrArg (splitChar '.') (hlp.symm.trans hlq)
  rw [hrp, hrq, splitChar_append_sep, splitChar_append_sep, splitChar_of_notMem hdotp, splitChar_of_notMem hdotq] at hpieces
  have hrest : rp = rq := splitChar_inj (cons.inj hpieces).2
  cases p
  cases q
  simp_all

section Merge

variable {κ : Type} (host : String)

def takes (e : WildcardPattern × κ) : Bool := e.1.matches_ host

variable (l : List (WildcardPattern × κ))

def firstWildcard : Option κ := (l.find? (takes host)).map (·.2)

def lastWildcard : Option κ := firstWildcard host l.reverse

theorem mergeWildcards_concat (lower higher : List (WildcardPattern × κ)) (e : WildcardPattern × κ) :
    mergeWildcards lower (higher ++ [e]) = (mergeWildcards lower higher).filter (·.1 ≠ e.1) ++ [e] := by simp [mergeWildcards]

theorem mem_mergeWildcards {lower higher : List (WildcardPattern × κ)} {e : WildcardPattern × κ} (h : e ∈ mergeWildcards lower higher) :
    e ∈ lower ∨ e ∈ higher := by
  induction higher using reverseRecOn with
  | nil => exact Or.inl h
  | append_singleton higher last ih =>
    rw [mergeWildcards_concat, mem_append, mem_filter] at h
    rcases h with h | h
    · exact (ih h.1).imp_right (mem_append_left _)
    · exact Or.inr (mem_append_right _ h)

variable {host}

theorem lastWildcard_concat (e : WildcardPattern × κ) :
    lastWildcard host (l ++ [e]) = if takes host e then some e.2 else lastWildcard host l := by
  rw [lastWildcard, reverse_append, reverse_singleton, singleton_append, firstWildcard, find?_cons]
  cases takes host e <;> rfl

theorem find?_filter_of_not_takes {e : WildcardPattern × κ} (h : ¬takes host e = true) (l : List (WildcardPattern × κ)) :
    (l.filter (·.1 ≠ e.1)).find? (takes host) = l.find? (takes host) := by
  rw [find?_filter]
  congr 1
  funext a
  have hne : takes host a = true → a.1 ≠ e.1 := fun hmatch he => h (by rwa [takes, ← he])
  simpa using hne

theorem firstWildcard_mergeWildcards {lower higher : List (WildcardPattern × κ)} (hlower : ∀ e ∈ lower, Dotted e.1)
    (hhigher : ∀ e ∈ higher, Dotted e.1) : firstWildcard host (mergeWildcards lower higher)
      = (lastWildcard host higher).or (firstWildcard host lower) := by
  induction higher using reverseRecOn with
  | nil => rfl
  | append_singleton higher e ih =>
    have hbefore := ih fun a ha => hhigher a (mem_append_left _ ha)
    rw [mergeWildcards_concat, lastWildcard_concat, firstWildcard, find?_append]
    by_cases htakes : takes host e = true
    · -- whatever else takes the host has the pattern that goes
      have hgone : ((mergeWildcards lower higher).filter (·.1 ≠ e.1)).find? (takes host) = none := by
        rw [find?_eq_none]
        intro a ha hmatch
        obtain ⟨ha, hne⟩ := mem_filter.1 ha
        have hdotted : Dotted a.1 :=
          (mem_mergeWildcards ha).elim (hlower a) fun h => hhigher a (mem_append_left _ h)
        exact of_decide_eq_true hne (pattern_unique hdotted (hhigher e (by simp)) hmatch htakes)
      rw [hgone]
      simp [htakes]
    · rw [find?_filter_of_not_takes htakes]
      simpa [firstWildcard, htakes] using hbefore

theorem lastWildcard_mergeWildcards (lower higher : List (WildcardPattern × κ)) :
    lastWildcard host (mergeWildcards lower higher) = (lastWildcard host higher).or (lastWildcard host lower) := by
  induction higher using reverseRecOn with
  | nil => rfl
  | append_singleton higher e ih =>
    rw [mergeWildcards_concat, lastWildcard_concat, lastWildcard_concat]
    by_cases htakes : takes host e = true
    · simp [htakes]
    · rw [if_neg htakes, if_neg htakes, ← ih, lastWildcard, ← filter_reverse, firstWildcard, find?_filter_of_not_takes htakes]
      rfl

def DottedPatterns (c : Certificates κ) : Prop := ∀ e ∈ c.1.wildcard, Dotted e.1

theorem resolve_eq (store : CertStore κ) (host : String) : store.resolve host = (store.exact.get (toLowercase host)).or
    ((firstWildcard (toLowercase host) store.wildcard).or store.default) := by
  have hfind : (store.wildcard.find? fun e => e.1.matches_ (toLowercase host)) = store.wildcard.find? (takes (toLowercase host)) := rfl
  simp only [CertStore.resolve, hfind, firstWildcard]
  cases store.exact.get (toLowercase host) <;> cases store.wildcard.find? (takes (toLowercase host)) <;> rfl

theorem DottedPatterns.merge {lower higher : Certificates κ} (hl : DottedPatterns lower) (hh : DottedPatterns higher) :
    DottedPatterns (mergeCertStore lower higher) := fun e he => (mem_mergeWildcards he).elim (hl e) (hh e)

theorem resolve_mergeCertStore {lower higher : Certificates κ} (hl : DottedPatterns lower) (hh : DottedPatterns higher) (host : String) :
    (mergeCertStore lower higher).1.resolve host
      = ((higher.1.exact.get (toLowercase host)).or (lower.1.exact.get (toLowercase host))).or
        (((lastWildcard (toLowercase host) higher.1.wildcard).or (firstWildcard (toLowercase host) lower.1.wildcard)).or
          (higher.1.default.or lower.1.default)) := by
  rw [resolve_eq, ← firstWildcard_mergeWildcards hl hh, ← HashMap.get_extend]
  rfl

theorem resolve_merge_assoc {a b c : Certificates κ} (ha : DottedPatterns a) (hb : DottedPatterns b) (hc : DottedPatterns c)
    (host : String) : (mergeCertStore (mergeCertStore a b) c).1.resolve host = (mergeCertStore a (mergeCertStore b c)).1.resolve host := by
  rw [resolve_mergeCertStore (ha.merge hb) hc, resolve_mergeCertStore ha (hb.merge hc)]
  simp only [mergeCertStore, HashMap.get_extend, firstWildcard_mergeWildcards ha hb, lastWildcard_mergeWildcards, Option.or_assoc]

def bestCertificate (ranked : List (Certificates κ)) (host : String) : Option κ :=
  (ranked.findSome? (·.1.exact.get (toLowercase host))).or
    ((ranked.findSome? fun c => lastWildcard (toLowercase host) c.1.wildcard).or (ranked.findSome? (·.1.default)))

def negI32 (p : ℤ) : ℤ := if p = -2 ^ 31 then p else -p

abbrev CompositeCertSource (κ : Type) := List (ℤ × Option (Certificates κ))

namespace CompositeCertSource

variable (c : CompositeCertSource κ)

def add (s : ℤ × Option (Certificates κ)) : CompositeCertSource κ :=
  stableSort (fun a b => decide (negI32 a.1 ≤ negI32 b.1)) (c ++ [s])

def merge : Certificates κ := c.reverse.foldl (fun merged s =>
  match s.2 with
  | some store => mergeCertStore merged store
  | none => merged) ({}, ∅)

theorem foldl_add_spec (added : CompositeCertSource κ) : (added.foldl add []).Perm added
    ∧ (added.foldl add []).Pairwise fun a b => negI32 a.1 ≤ negI32 b.1 := by
  induction added using reverseRecOn with
  | nil => exact ⟨List.Perm.refl _, List.Pairwise.nil⟩
  | append_singleton added s ih =>
    have : Std.Total fun a b : ℤ × Option (Certificates κ) => decide (negI32 a.1 ≤ negI32 b.1) = true :=
      ⟨fun a b => by simpa using le_total (negI32 a.1) (negI32 b.1)⟩
    have : IsTrans (ℤ × Option (Certificates κ)) fun a b => decide (negI32 a.1 ≤ negI32 b.1) = true :=
      ⟨fun a b c hab hbc => by simpa using le_trans (of_decide_eq_true hab) (of_decide_eq_true hbc)⟩
    rw [foldl_append, foldl_cons, foldl_nil, add]
    exact ⟨(stableSort_perm _ _).trans (ih.1.append_right _), (stableSort_pairwise _).imp fun h => of_decide_eq_true h⟩

theorem merge_fields (host : String) (h : ∀ s ∈ c, ∀ store, s.2 = some store → DottedPatterns store) :
    DottedPatterns (merge c) ∧ (merge c).1.exact.get host = (c.filterMap (·.2)).findSome? (·.1.exact.get host)
      ∧ firstWildcard host (merge c).1.wildcard = (c.filterMap (·.2)).findSome? (fun s => lastWildcard host s.1.wildcard)
      ∧ (merge c).1.default = (c.filterMap (·.2)).findSome? (·.1.default) := by
  induction c with
  | nil => exact ⟨by simp [DottedPatterns, merge], rfl, rfl, rfl⟩
  | cons s c ih =>
    obtain ⟨hdots, hexact, hwild, hdefault⟩ := ih fun s hs => h s (mem_cons_of_mem _ hs)
    obtain ⟨priority, _ | store⟩ := s
    · have hmerge : merge ((priority, none) :: c) = merge c := by simp [merge]
      rw [hmerge, filterMap_cons_none rfl]
      exact ⟨hdots, hexact, hwild, hdefault⟩
    · have hstore := h _ mem_cons_self store rfl
      have hmerge : merge ((priority, some store) :: c) = mergeCertStore (merge c) store := by simp [merge]
      have hfirst : ∀ f : Certificates κ → Option κ, (((priority, some store) :: c).filterMap (·.2)).findSome? f
          = (f store).or ((c.filterMap (·.2)).findSome? f) := by
        intro f
        simp only [filterMap_cons, findSome?_cons]
        cases f store <;> rfl
      rw [hmerge, hfirst, hfirst, hfirst, ← hexact, ← hwild, ← hdefault]
      exact ⟨hdots.merge hstore, HashMap.get_extend _ _ host, firstWildcard_mergeWildcards hdots hstore, rfl⟩

def least : ℤ := -2 ^ 31

/-- whether the source of the least priority may as well be asked first: where it has an entry for the host, and nothing before it in
the order exact, wildcard, default answers, no other source has a different one -/
def LeastAgrees (store : Certificates κ) (others : List (Certificates κ)) : List (Certificates κ → Option κ) → Prop
  | [] => True
  | f :: fs => (∀ x ∈ f store, ∀ y ∈ others.findSome? f, x = y)
      ∧ (f store = none → others.findSome? f = none → LeastAgrees store others fs)

def lookups (host : String) : List (Certificates κ → Option κ) :=
  [(·.1.exact.get (toLowercase host)), fun c => lastWildcard (toLowercase host) c.1.wildcard, (·.1.default)]

theorem or_or_comm_iff {a b x y : Option κ} : (a.or b).or x = (b.or a).or y
    ↔ (∀ u ∈ a, ∀ v ∈ b, u = v) ∧ (a = none → b = none → x = y) := by
  cases a <;> cases b <;> simp

theorem bestCertificate_least_iff (store : Certificates κ) (others : List (Certificates κ)) (host : String) :
    bestCertificate (store :: others) host = bestCertificate (others ++ [store]) host ↔ LeastAgrees store others (lookups host) := by
  have hfirst (f : Certificates κ → Option κ) : (store :: others).findSome? f = (f store).or (others.findSome? f) := by
    rw [findSome?_cons]
    cases f store <;> rfl
  have hlast (f : Certificates κ → Option κ) : (others ++ [store]).findSome? f = (others.findSome? f).or (f store) := by
    rw [findSome?_append, findSome?_cons, findSome?_nil]
    cases f store <;> rfl
  simp only [bestCertificate, hfirst, hlast, or_or_comm_iff, LeastAgrees, lookups]
  rw [← Option.or_none (o := (store.1.default.or _)), ← Option.or_none (o := (Option.or _ store.1.default)), or_or_comm_iff]
  simp

theorem negI32_le_iff {p q : ℤ} (hp : -2 ^ 31 ≤ p ∧ p < 2 ^ 31) (hq : -2 ^ 31 ≤ q ∧ q < 2 ^ 31) :
    negI32 p ≤ negI32 q ↔ p = least ∨ q ≠ least ∧ q ≤ p := by
  unfold negI32 least
  split_ifs <;> omega

theorem split_least {ranked : CompositeCertSource κ} (hi32 : ∀ s ∈ ranked, -2 ^ 31 ≤ s.1 ∧ s.1 < 2 ^ 31)
    (hranked : ranked.Pairwise fun a b => b.1 < a.1) :
    ∃ others last, ranked = others ++ last ∧ (∀ s ∈ others, s.1 ≠ least) ∧ (last = [] ∨ ∃ store, last = [(least, store)]) := by
  rcases eq_nil_or_concat' ranked with rfl | ⟨others, s, rfl⟩
  · exact ⟨[], [], rfl, by simp, .inl rfl⟩
  rw [pairwise_append] at hranked
  have hbefore : ∀ a ∈ others, a.1 ≠ least := by
    intro a ha hleast
    have hlt := hranked.2.2 a ha s (mem_singleton.2 rfl)
    have hge := (hi32 s (by simp)).1
    unfold least at hleast
    omega
  by_cases hs : s.1 = least
  · exact ⟨others, [s], rfl, hbefore, .inr ⟨s.2, by rw [← hs]⟩⟩
  · refine ⟨others ++ [s], [], (append_nil _).symm, ?_, .inl rfl⟩
    simpa [or_imp, forall_and, hs] using hbefore

/-- the wrapped negation puts a source of the least priority first -/
theorem foldl_add_eq {added others last : CompositeCertSource κ} (hi32 : ∀ s ∈ added, -2 ^ 31 ≤ s.1 ∧ s.1 < 2 ^ 31)
    (hdistinct : (added.map (·.1)).Nodup) (hperm : (others ++ last).Perm added)
    (hranked : (others ++ last).Pairwise fun a b => b.1 < a.1) (hothers : ∀ s ∈ others, s.1 ≠ least)
    (hlast : last = [] ∨ ∃ store, last = [(least, store)]) : added.foldl add [] = last ++ others := by
  obtain ⟨hsame, hsorted⟩ := foldl_add_spec added
  have hsplit : (last ++ others).Perm added := perm_append_comm.trans hperm
  refine List.Perm.eq_of_pairwise ?_ hsorted ?_ (hsame.trans hsplit.symm)
  · intro a b ha hb hab hba
    have ha' := hsame.mem_iff.1 ha
    have hb' := hsplit.mem_iff.1 hb
    rw [negI32_le_iff (hi32 a ha') (hi32 b hb')] at hab
    rw [negI32_le_iff (hi32 b hb') (hi32 a ha')] at hba
    have hpriority : a.1 = b.1 := by omega
    exact inj_on_of_nodup_map hdistinct ha' hb' hpriority
  · have hi32' : ∀ s ∈ last ++ others, -2 ^ 31 ≤ s.1 ∧ s.1 < 2 ^ 31 := fun s hs => hi32 s (hsplit.mem_iff.1 hs)
    have hdown : others.Pairwise fun a b => negI32 a.1 ≤ negI32 b.1 := by
      refine (pairwise_append.1 hranked).1.imp_of_mem ?_
      intro a b ha hb hlt
      rw [negI32_le_iff (hi32' a (mem_append_right _ ha)) (hi32' b (mem_append_right _ hb))]
      exact .inr ⟨hothers b hb, hlt.le⟩
    rcases hlast with rfl | ⟨store, rfl⟩
    · exact hdown
    · refine pairwise_cons.2 ⟨fun b hb => ?_, hdown⟩
      exact (negI32_le_iff (hi32' _ mem_cons_self) (hi32' b (mem_cons_of_mem _ hb))).2 (.inl rfl)

theorem resolve_merge {c : CompositeCertSource κ} (hdots : ∀ s ∈ c, ∀ store, s.2 = some store → DottedPatterns store) (host : String) :
    (merge c).1.resolve host = bestCertificate (c.filterMap (·.2)) host := by
  obtain ⟨-, hexact, hwild, hdefault⟩ := merge_fields c (toLowercase host) hdots
  rw [resolve_eq, hexact, hwild, hdefault]
  rfl

/-- **Sources by priority.** Sources with distinct priorities answer for a host as the sources from the highest priority down do,
exactly when a source of the least `i32`, which the wrapped negation sorts first, agrees with the others. -/
theorem merge_by_priority_iff {added ranked : CompositeCertSource κ} (hi32 : ∀ s ∈ added, -2 ^ 31 ≤ s.1 ∧ s.1 < 2 ^ 31)
    (hdistinct : (added.map (·.1)).Nodup) (hdots : ∀ s ∈ added, ∀ store, s.2 = some store → DottedPatterns store)
    (hperm : ranked.Perm added) (hranked : ranked.Pairwise fun a b => b.1 < a.1) (host : String) :
    ((merge (added.foldl add [])).1.resolve host = bestCertificate (ranked.filterMap (·.2)) host
        ↔ ∀ store, (least, some store) ∈ added →
          LeastAgrees store ((ranked.filter (·.1 ≠ least)).filterMap (·.2)) (lookups host))
      ∧ ∀ a b c : Certificates κ, DottedPatterns a → DottedPatterns b → DottedPatterns c →
        (mergeCertStore a b).1.resolve host
            = ((b.1.exact.get (toLowercase host)).or (a.1.exact.get (toLowercase host))).or
              (((lastWildcard (toLowercase host) b.1.wildcard).or (firstWildcard (toLowercase host) a.1.wildcard)).or
                (b.1.default.or a.1.default))
          ∧ (mergeCertStore (mergeCertStore a b) c).1.resolve host = (mergeCertStore a (mergeCertStore b c)).1.resolve host := by
  refine ⟨?_, fun a b c ha hb hc => ⟨resolve_mergeCertStore ha hb host, resolve_merge_assoc ha hb hc host⟩⟩
  obtain ⟨others, last, rfl, hothers, hlast⟩ := split_least (fun s hs => hi32 s (hperm.mem_iff.1 hs)) hranked
  have hadd := foldl_add_eq hi32 hdistinct hperm hranked hothers hlast
  have hmerge := resolve_merge (fun s hs => hdots s ((foldl_add_spec added).1.mem_iff.1 hs)) host
  have hleast (store : Certificates κ) : (least, some store) ∈ added ↔ (least, some store) ∈ last := by
    rw [← hperm.mem_iff, mem_append, or_iff_right fun h => hothers _ h rfl]
  have hfilter : others.filter (·.1 ≠ least) = others := filter_eq_self.2 fun s hs => decide_eq_true (hothers s hs)
  rw [hmerge, hadd, filter_append, hfilter]
  simp only [hleast]
  rcases hlast with rfl | ⟨_ | store, rfl⟩
  · simp
  · simp
  · simpa using bestCertificate_least_iff store (others.filterMap (·.2)) host

end CompositeCertSource

end Merge

/-- three sources, of which the one with the least priority has nothing for the host -/
theorem higher_source_answers :
    let sources : CompositeCertSource String := [(0, some ({ default := some "disk" }, ∅)),
      (-2 ^ 31, some ({ exact := (∅ : HashMap String String).insert "mail.example" "spare" }, ∅)),
      (10, some ({ default := some "edge" }, ∅))]
    (CompositeCertSource.merge (sources.foldl CompositeCertSource.add [])).1.resolve "shop.example" = some "edge" := by
  intro sources
  have hperm : (sources.drop 2 ++ sources.take 2).Perm sources := perm_append_comm
  have hanswer := CompositeCertSource.merge_by_priority_iff (by decide) (by decide) (by simp [sources, DottedPatterns]) hperm (by decide)
    "shop.example"
  refine (hanswer.1.2 ?_).trans rfl
  intro store hstore
  simp only [sources, CompositeCertSource.least, mem_cons, Prod.mk.injEq, Option.some.injEq, not_mem_nil] at hstore
  obtain rfl : store = _ := by simpa using hstore
  exact ⟨nofun, fun _ _ => ⟨nofun, fun _ _ => ⟨nofun, fun _ _ => trivial⟩⟩⟩

theorem least_priority_wins :
    let sources : CompositeCertSource String :=
      [(0, some ({ default := some "edge" }, ∅)), (-2 ^ 31, some ({ default := some "fallback" }, ∅))]
    (CompositeCertSource.merge (sources.foldl CompositeCertSource.add [])).1.resolve "shop.example" = some "fallback"
      ∧ bestCertificate (sources.filterMap (·.2)) "shop.example" = some "edge" := by
  decide

end SunbeamProxy.Gateway
