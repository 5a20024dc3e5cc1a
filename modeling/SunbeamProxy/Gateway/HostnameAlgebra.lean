/-
The hostname tests of `gateway/translate/hostnames.rs` against the hosts that patterns take.
-/
import SunbeamProxy.Gateway.Hostnames

namespace SunbeamProxy.Gateway

open Text String

variable {host : String}

@[simp] theorem hostMatches_exact {s : String} : HostMatches host (.exact s) ↔ host = s := by
  simp [HostMatches, toIrHostname, irHostnameMatches]

@[simp] theorem hostMatches_any (host : String) : HostMatches host .any := rfl

theorem hostMatches_wildcard {s : String} :
    HostMatches host (.wildcard s) ↔ '.' :: s.toList <:+ host.toList ∧ s.toList.length + 1 < host.toList.length := by
  unfold HostMatches
  rw [toIrHostname, irHostnameMatches_wildcard]
  apply Iff.intro
  · rintro ⟨rest, hne, rfl⟩
    have hpos : 0 < rest.toList.length := List.length_pos_of_ne_nil (by simpa using hne)
    have hlist : (rest ++ "." ++ s).toList = rest.toList ++ '.' :: s.toList := by simp
    rw [hlist]
    refine ⟨List.suffix_append _ _, ?_⟩
    simp only [List.length_append, List.length_cons]
    omega
  · rintro ⟨⟨rest, hrest⟩, hlen⟩
    refine ⟨ofList rest, ?_, ?_⟩
    · intro hnil
      obtain rfl : rest = [] := by simpa using hnil
      simp [← hrest] at hlen
    · apply toList_inj.1
      simp [← hrest]

theorem hostMatches_label (c : Char) (s : String) : HostMatches (ofList (c :: '.' :: s.toList)) (.wildcard s) := by
  rw [hostMatches_wildcard]
  simp

theorem isHostnameSubset_wildcard {c p : String} :
    isHostnameSubset (.wildcard c) (.wildcard p) = true ↔ '.' :: p.toList <:+ '.' :: c.toList := by
  rw [List.suffix_cons_iff]
  simp only [isHostnameSubset, Bool.or_eq_true, beq_iff_eq]
  apply Iff.intro
  · rintro (rfl | h)
    · exact .inl rfl
    · right
      cases hmid : stripEnd c p with
      | none => simp [hmid] at h
      | some mid =>
        rw [hmid] at h
        obtain ⟨inner, hinner⟩ := Option.isSome_iff_exists.1 h
        rw [stripEnd_eq_some.1 hmid, stripEnd_eq_some.1 hinner]
        exact ⟨inner.toList, by simp⟩
  · rintro (heq | ⟨inner, hinner⟩)
    · left
      exact toList_inj.1 (List.cons.inj heq).2.symm
    · right
      have hc : c = ofList inner ++ "." ++ p := by
        apply toList_inj.1
        simp [← hinner]
      simp [stripEnd_eq_some.2 hc, stripEnd_eq_some.2 rfl]

theorem isHostnameSubset_complete {c p : HostnameMatch} (h : ∀ host, HostMatches host c → HostMatches host p) :
    isHostnameSubset c p = true := by
  cases p with
  | any => simp [isHostnameSubset]
  | exact p =>
    cases c with
    | exact c => simpa [isHostnameSubset] using h c
    | wildcard c =>
      -- two hosts of the wildcard cannot both be `p`
      have ha := hostMatches_exact.1 (h _ (hostMatches_label 'a' c))
      have hb := hostMatches_exact.1 (h _ (hostMatches_label 'b' c))
      rw [← ha] at hb
      simp at hb
    | any =>
      have hlonger := hostMatches_exact.1 (h (p ++ "a") (hostMatches_any _))
      have hlen := congrArg length hlonger
      simp at hlen
  | wildcard p =>
    cases c with
    | exact c => exact h c (hostMatches_exact.2 rfl)
    | wildcard c =>
      obtain ⟨hsuffix, hlen⟩ := hostMatches_wildcard.1 (h _ (hostMatches_label 'a' c))
      rw [toList_ofList] at hsuffix hlen
      -- `.p` is shorter than the host, so it lies within `.c`
      rw [isHostnameSubset_wildcard]
      apply List.suffix_of_suffix_length_le hsuffix (List.suffix_cons _ _)
      simp only [List.length_cons] at hlen ⊢
      omega
    | any =>
      have hempty := hostMatches_wildcard.1 (h "" (hostMatches_any _))
      simp at hempty

theorem isHostnameSubset_iff (c p : HostnameMatch) :
    isHostnameSubset c p = true ↔ ∀ host, HostMatches host c → HostMatches host p :=
  ⟨fun h _ hc => isHostnameSubset_sound h hc, isHostnameSubset_complete⟩

variable {a b : HostnameMatch}

theorem subset_or_subset_of_common (ha : HostMatches host a) (hb : HostMatches host b) :
    isHostnameSubset a b = true ∨ isHostnameSubset b a = true := by
  cases a with
  | any => exact .inr (by simp [isHostnameSubset])
  | exact a =>
    obtain rfl := hostMatches_exact.1 ha
    left
    apply isHostnameSubset_complete
    intro other hother
    rwa [hostMatches_exact.1 hother]
  | wildcard a =>
    cases b with
    | any => exact .inl (by simp [isHostnameSubset])
    | exact b =>
      obtain rfl := hostMatches_exact.1 hb
      right
      apply isHostnameSubset_complete
      intro other hother
      rwa [hostMatches_exact.1 hother]
    | wildcard b =>
      -- both dotted suffixes end one host, so the shorter ends the longer
      have hsa := (hostMatches_wildcard.1 ha).1
      have hsb := (hostMatches_wildcard.1 hb).1
      simp only [isHostnameSubset_wildcard]
      exact (List.suffix_or_suffix_of_suffix hsa hsb).symm

theorem intersectHostnamePair_eq_none :
    intersectHostnamePair a b = none ↔ isHostnameSubset a b = false ∧ isHostnameSubset b a = false := by
  unfold intersectHostnamePair
  split_ifs with hab hba <;> simp [*]

theorem disjoint_of_not_subset (hab : isHostnameSubset a b = false) (hba : isHostnameSubset b a = false) :
    ¬∃ host, HostMatches host a ∧ HostMatches host b := by
  rintro ⟨host, ha, hb⟩
  rcases subset_or_subset_of_common ha hb with h | h <;> simp [hab, hba] at h

theorem exists_hostMatches (a : HostnameMatch) : ∃ host, HostMatches host a := by
  cases a with
  | any => exact ⟨"", hostMatches_any _⟩
  | exact s => exact ⟨s, hostMatches_exact.2 rfl⟩
  | wildcard s => exact ⟨_, hostMatches_label 'a' s⟩

theorem intersectHostnamePair_complete {m : HostnameMatch} (h : intersectHostnamePair a b = some m)
    (ha : HostMatches host a) (hb : HostMatches host b) : HostMatches host m := by
  unfold intersectHostnamePair at h
  split_ifs at h
  · obtain rfl := Option.some.inj h
    exact ha
  · obtain rfl := Option.some.inj h
    exact hb

/-- **Hostname algebra.** The intersection of two patterns is missing exactly when no host falls under both, and otherwise takes
exactly the hosts of both; the subset test is inclusion. -/
theorem hostname_algebra_exact (a b : HostnameMatch) :
    (intersectHostnamePair a b = none ↔ ¬∃ host, HostMatches host a ∧ HostMatches host b)
    ∧ (∀ m, intersectHostnamePair a b = some m → ∀ host, HostMatches host m ↔ HostMatches host a ∧ HostMatches host b)
    ∧ (isHostnameSubset a b = true ↔ ∀ host, HostMatches host a → HostMatches host b)
    ∧ hostnameIntersects a b = (intersectHostnamePair a b).isSome := by
  refine ⟨?_, ?_, isHostnameSubset_iff a b, ?_⟩
  · apply Iff.intro
    · intro hnone
      obtain ⟨hab, hba⟩ := intersectHostnamePair_eq_none.1 hnone
      exact disjoint_of_not_subset hab hba
    · intro hdisjoint
      cases hm : intersectHostnamePair a b with
      | none => rfl
      | some m =>
        obtain ⟨host, hhost⟩ := exists_hostMatches m
        exact absurd ⟨host, intersectHostnamePair_sound hm hhost⟩ hdisjoint
  · intro m hm host
    exact ⟨intersectHostnamePair_sound hm, fun h => intersectHostnamePair_complete hm h.1 h.2⟩
  · unfold hostnameIntersects intersectHostnamePair
    cases isHostnameSubset a b <;> cases isHostnameSubset b a <;> rfl

/-- a suffix counts only at a label boundary -/
example : isHostnameSubset (.wildcard "badexample.com") (.wildcard "example.com") = false := by decide

end SunbeamProxy.Gateway
