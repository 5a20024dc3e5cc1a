/-
Collections of the Rust standard library, over arbitrary types.
-/
import Mathlib.Data.List.AList
import Mathlib.Data.List.MinMax
import Mathlib.Data.List.Sort
import Mathlib.Data.List.TakeWhile
import Mathlib.Tactic

namespace SunbeamProxy

open List

abbrev HashMap (κ ν : Type) := AList fun _ : κ => ν

structure IterOrder where
  order : ∀ {α : Type}, List α → List α
  order_perm : ∀ {α : Type} (l : List α), (order l).Perm l

def IterOrder.stored : IterOrder := ⟨id, fun l => List.Perm.refl l⟩

def IterOrder.reversed : IterOrder := ⟨List.reverse, fun l => reverse_perm l⟩

variable {α : Type}

@[simp]
theorem IterOrder.order_singleton (ω : IterOrder) (a : α) : ω.order [a] = [a] := perm_singleton.1 (ω.order_perm [a])

@[simp]
theorem IterOrder.order_nil (ω : IterOrder) : ω.order ([] : List α) = [] := perm_nil.1 (ω.order_perm [])

namespace HashMap

variable {κ ν : Type}

variable (m : HashMap κ ν)

def pairs : List (κ × ν) := m.entries.map fun e => (e.1, e.2)

theorem nodup_keys_pairs : (m.pairs.map (·.1)).Nodup := by
  have h := m.nodupKeys
  rw [NodupKeys, List.keys] at h
  simpa [pairs, Function.comp_def] using h

def anyValue (p : ν → Bool) : Bool := m.entries.any fun e => p e.2

def mapValues {ν' : Type} (f : ν → ν') (m : HashMap κ ν) : HashMap κ ν' := ⟨m.entries.map fun e => ⟨e.1, f e.2⟩, by
    have h := m.nodupKeys
    rw [List.NodupKeys, List.keys] at h ⊢
    simpa [map_map, Function.comp_def] using h⟩

def retain (p : κ → ν → Bool) (m : HashMap κ ν) : HashMap κ ν :=
  ⟨m.entries.filter fun e => p e.1 e.2, m.nodupKeys.sublist filter_sublist⟩

section DecEq

variable [DecidableEq κ]

def get (m : HashMap κ ν) (k : κ) : Option ν := m.lookup k

variable (l : List (κ × ν)) (m : HashMap κ ν) (k : κ)

@[simp]
theorem get_empty : get (∅ : HashMap κ ν) k = none := rfl

theorem get_insert (k k' : κ) (v : ν) : get (m.insert k v) k' = if k' = k then some v else get m k' := by
  split_ifs with h
  · subst h
    exact AList.lookup_insert m
  · exact AList.lookup_insert_ne h

theorem get_erase (k k' : κ) : get (m.erase k) k' = if k' = k then none else get m k' := by
  split_ifs with h
  · subst h
    exact AList.lookup_erase k' m
  · exact AList.lookup_erase_ne h

theorem dlookup_map_values {ν' : Type} (f : ν → ν') (k : κ) (l : List (Sigma fun _ : κ => ν)) :
    (l.map fun e => (⟨e.1, f e.2⟩ : Sigma fun _ : κ => ν')).dlookup k = (l.dlookup k).map f := by
  induction l with
  | nil => rfl
  | cons e l ih =>
    obtain ⟨k', v⟩ := e
    by_cases h : k = k'
    · subst h
      simp
    · rw [map_cons, dlookup_cons_ne _ _ h, dlookup_cons_ne _ _ h, ih]

@[simp]
theorem get_mapValues {ν' : Type} (f : ν → ν') (m : HashMap κ ν) (k : κ) :
    get (mapValues f m) k = (get m k).map f := dlookup_map_values f k m.entries

@[simp]
theorem get_retain (p : κ → ν → Bool) (m : HashMap κ ν) (k : κ) : get (retain p m) k = (get m k).filter (p k) := by
  apply Option.ext
  intro v
  simp only [← Option.mem_def, Option.mem_filter_iff, get, AList.mem_lookup_iff]
  exact mem_filter

def push (m : HashMap κ (List ν)) (k : κ) (v : ν) : HashMap κ (List ν) := m.insert k ((get m k).getD [] ++ [v])

variable (key : ν → Option κ)

def pushAll (l : List ν) (m : HashMap κ (List ν)) : HashMap κ (List ν) :=
  l.foldl (fun m a => match key a with
    | some k => push m k a
    | none => m) m

theorem get_pushAll (l : List ν) (m : HashMap κ (List ν)) (k : κ) :
    (get (pushAll key l m) k).getD [] = (get m k).getD [] ++ l.filter fun a => key a = some k := by
  induction l generalizing m with
  | nil => simp [pushAll]
  | cons a l ih =>
    rw [pushAll, foldl_cons, ← pushAll, ih]
    cases hk : key a with
    | none => simp [hk]
    | some k' =>
      by_cases h : k' = k
      · subst h
        simp [push, get_insert, hk]
      · simp [push, get_insert, hk, h, Ne.symm h]

theorem get_pushAll_isSome (l : List ν) (m : HashMap κ (List ν)) (k : κ) :
    (get (pushAll key l m) k).isSome = true ↔ (get m k).isSome = true ∨ ∃ a ∈ l, key a = some k := by
  induction l generalizing m with
  | nil => simp [pushAll]
  | cons a l ih =>
    rw [pushAll, foldl_cons, ← pushAll, ih]
    cases hk : key a with
    | none => simp [hk]
    | some k' =>
      by_cases h : k' = k
      · simp [push, get_insert, hk, h]
      · simp [push, get_insert, hk, h, Ne.symm h]

theorem mem_pairs_iff {m : HashMap κ ν} {k : κ} {v : ν} : (k, v) ∈ m.pairs ↔ get m k = some v := by
  rw [get, ← Option.mem_def, AList.mem_lookup_iff, pairs, mem_map]
  constructor
  · rintro ⟨⟨k', v'⟩, h, he⟩
    cases he
    exact h
  · exact fun h => ⟨⟨k, v⟩, h, rfl⟩

theorem get_foldl_extend {α : Type} (key : α → κ) (val : α → List ν) (l : List α) (m : HashMap κ (List ν)) (k : κ) :
    (get (l.foldl (fun m a => m.insert (key a) ((get m (key a)).getD [] ++ val a)) m) k).getD []
      = (get m k).getD [] ++ (l.filter fun a => key a = k).flatMap val := by
  induction l generalizing m with
  | nil => simp
  | cons a l ih =>
    rw [foldl_cons, ih]
    by_cases h : key a = k
    · simp [get_insert, h]
    · simp [get_insert, h, Ne.symm h]

def ofPairs (l : List (κ × ν)) : HashMap κ ν := l.foldl (fun m e => m.insert e.1 e.2) ∅

theorem get_ofPairs : get (ofPairs l) k = (l.reverse.find? (·.1 = k)).map (·.2) := by
  induction l using reverseRecOn with
  | nil => rfl
  | append_singleton l e ih =>
    rw [ofPairs, foldl_append, foldl_cons, foldl_nil, get_insert, reverse_append, reverse_singleton, singleton_append, find?_cons]
    by_cases h : e.1 = k
    · simp [h]
    · rw [if_neg (Ne.symm h), decide_eq_false h]
      exact ih

theorem get_ofPairs_eq_some_iff (v : ν) :
    get (ofPairs l) k = some v ↔ ∃ pre post, l = pre ++ (k, v) :: post ∧ ∀ e ∈ post, e.1 ≠ k := by
  rw [get_ofPairs]
  simp only [Option.map_eq_some_iff, find?_eq_some_iff_append]
  apply Iff.intro
  · intro h
    obtain ⟨⟨k', v'⟩, ⟨hkey, post, pre, hrev, hpost⟩, hv⟩ := h
    obtain rfl : k' = k := by simpa using hkey
    obtain rfl : v' = v := hv
    refine ⟨pre.reverse, post.reverse, ?_, ?_⟩
    · rw [← reverse_reverse l, hrev]
      simp
    · intro e he
      simpa using hpost e (mem_reverse.1 he)
  · intro h
    obtain ⟨pre, post, rfl, hpost⟩ := h
    refine ⟨(k, v), ⟨by simp, post.reverse, pre.reverse, by simp, ?_⟩, rfl⟩
    intro e he
    simpa using hpost e (mem_reverse.1 he)

theorem mem_of_get_ofPairs {l : List (κ × ν)} {k : κ} {v : ν} (h : get (ofPairs l) k = some v) : (k, v) ∈ l := by
  obtain ⟨pre, post, rfl, -⟩ := (get_ofPairs_eq_some_iff l k v).1 h
  exact mem_append_right _ mem_cons_self

theorem isSome_get_ofPairs : (get (ofPairs l) k).isSome = true ↔ ∃ v, (k, v) ∈ l := by
  rw [get_ofPairs, Option.isSome_map, find?_isSome]
  apply Iff.intro
  · rintro ⟨e, he, hkey⟩
    obtain rfl : e.1 = k := of_decide_eq_true hkey
    exact ⟨e.2, mem_reverse.1 he⟩
  · rintro ⟨v, hv⟩
    exact ⟨(k, v), mem_reverse.2 hv, decide_eq_true rfl⟩

theorem get_foldl_insert : get (l.foldl (fun m e => m.insert e.1 e.2) m) k = (get (ofPairs l) k).or (get m k) := by
  induction l using reverseRecOn with
  | nil => rfl
  | append_singleton l e ih =>
    simp only [ofPairs, foldl_append, foldl_cons, foldl_nil, get_insert]
    split_ifs
    · rfl
    · exact ih

theorem get_foldl_erase (l : List κ) (m : HashMap κ ν) (k : κ) :
    get (l.foldl (fun m key => m.erase key) m) k = if k ∈ l then none else get m k := by
  induction l generalizing m with
  | nil => simp
  | cons key l ih =>
    rw [foldl_cons, ih, get_erase]
    by_cases hkey : k = key <;> by_cases hmem : k ∈ l <;> simp [hmem]

theorem get_ofPairs_iff {l : List (κ × ν)} (hkeys : (l.map (·.1)).Nodup) {k : κ} {v : ν} :
    get (ofPairs l) k = some v ↔ (k, v) ∈ l := by
  refine ⟨mem_of_get_ofPairs, fun h => ?_⟩
  have hfound : (l.reverse.find? (·.1 = k)).isSome := find?_isSome.2 ⟨(k, v), mem_reverse.2 h, decide_eq_true rfl⟩
  obtain ⟨e, hfind⟩ := Option.isSome_iff_exists.1 hfound
  have hkey : e.1 = k := by simpa using find?_some hfind
  have he := inj_on_of_nodup_map hkeys (mem_reverse.1 (mem_of_find?_eq_some hfind)) h hkey
  rw [get_ofPairs, hfind, he, Option.map_some]

def extend (m n : HashMap κ ν) : HashMap κ ν := n ∪ m

theorem get_extend (m n : HashMap κ ν) (k : κ) : get (extend m n) k = (get n k).or (get m k) := by
  by_cases h : k ∈ n
  · obtain ⟨v, hv⟩ := Option.isSome_iff_exists.1 (AList.lookup_isSome.2 h)
    have hv' : get n k = some v := hv
    rw [hv', Option.some_or, ← hv]
    exact AList.lookup_union_left h
  · have hn : get n k = none := AList.lookup_eq_none.2 h
    rw [hn]
    exact AList.lookup_union_right h

end DecEq

end HashMap

variable {β : Type}

section Fixed

variable {α : Type} {f : α → α} {l l' s : List α}

theorem map_of_fixed (hfixed : ∀ a ∈ s, f a = a) : s.map f = s := (map_congr_left (g := id) hfixed).trans (map_id s)

variable [DecidableEq α]

def fixedFront (f : α → α) (l : List α) : List α := l.takeWhile fun a => f a = a

theorem length_le_fixedFront (hfixed : ∀ a ∈ s, f a = a) (h : s <+: l) : s.length ≤ (fixedFront f l).length := by
  obtain ⟨rest, rfl⟩ := h
  rw [fixedFront, takeWhile_append_of_pos (by simpa using hfixed), length_append]
  omega

theorem prefix_of_map_eq (hmap : l.map f = l'.map f) (hfixed : ∀ a ∈ s, f a = a) (h : s <+: l)
    (hlen : s.length ≤ (fixedFront f l').length) : s <+: l' := by
  have hfront : l'.take s.length <+: fixedFront f l' := by
    apply prefix_of_prefix_length_le ( take_prefix _ _) ( takeWhile_prefix _)
    exact (length_take_le _ _).trans hlen
  have hfixed' : ∀ a ∈ l'.take s.length, f a = a := by
    intro a ha
    simpa using mem_takeWhile_imp (hfront.subset ha)
  have heq : s = l'.take s.length := by
    calc s = s.map f := (map_of_fixed hfixed).symm
      _ = (l.take s.length).map f := by rw [← prefix_iff_eq_take.1 h]
      _ = (l'.take s.length).map f := by simp [map_take, hmap]
      _ = l'.take s.length := map_of_fixed hfixed'
  rw [heq]
  exact take_prefix _ _

end Fixed

variable {ε : Type}

theorem bind_ok {x : Except ε α} {f : α → Except ε β} {b : β} (h : x >>= f = .ok b) : ∃ a, x = .ok a ∧ f a = .ok b := by
  cases x with
  | error e => cases h
  | ok a => exact ⟨a, rfl, h⟩

theorem exists_mem_of_forall₂ {α β : Type} {S : α → β → Prop} {l : List α} {m : List β} (h : Forall₂ S l m) {b : β}
    (hb : b ∈ m) : ∃ a ∈ l, S a b := by
  induction h with
  | nil => cases hb
  | @cons a b' l m ha _ ih =>
    rcases mem_cons.1 hb with rfl | hb
    · exact ⟨a, mem_cons_self .., ha⟩
    · obtain ⟨a', ha', hs⟩ := ih hb
      exact ⟨a', mem_cons_of_mem _ ha', hs⟩

theorem mapM_ok_rel {γ : Type} {R : β → γ → Prop} {f : α → Except ε β} {g : α → γ} {l : List α} {r : List β}
    (hf : ∀ a ∈ l, ∀ b, f a = .ok b → R b (g a)) (h : l.mapM f = .ok r) : Forall₂ R r (l.map g) := by
  induction l generalizing r with
  | nil =>
    cases h
    exact .nil
  | cons a l ih =>
    rw [mapM_cons] at h
    obtain ⟨b, hb, h⟩ := bind_ok h
    obtain ⟨bs, hbs, h⟩ := bind_ok h
    cases h
    exact .cons (hf a (mem_cons_self ..) b hb) (ih (fun a ha => hf a (mem_cons_of_mem _ ha)) hbs)

variable {σ : Type}

theorem foldlM_cons_ok {f : σ → α → Except ε σ} {a : α} {l : List α} {s t : σ} (h : (a :: l).foldlM f s = .ok t) :
    ∃ mid, f s a = .ok mid ∧ l.foldlM f mid = .ok t := by
  exact bind_ok h

theorem foldlM_append_ok {f : σ → α → Except ε σ} {l l' : List α} {s t : σ} (h : (l ++ l').foldlM f s = .ok t) :
    ∃ mid, l.foldlM f s = .ok mid ∧ l'.foldlM f mid = .ok t := by
  induction l generalizing s with
  | nil => exact ⟨s, rfl, h⟩
  | cons a l ih =>
    obtain ⟨next, hnext, h⟩ := foldlM_cons_ok h
    obtain ⟨mid, hmid, h⟩ := ih h
    refine ⟨mid, ?_, h⟩
    rw [foldlM_cons, hnext]
    exact hmid

theorem foldl_latest {step : σ → α → σ} (read : σ → Option β) {written : α → Option β}
    (hstep : ∀ s a, read (step s a) = (written a).or (read s)) (l : List α) (s : σ) :
    read (l.foldl step s) = (l.reverse.findSome? written).or (read s) := by
  induction l generalizing s with
  | nil => rfl
  | cons a l ih =>
    rw [foldl_cons, ih, hstep, reverse_cons, findSome?_append, Option.or_assoc]
    simp

def stableSort {α : Type} (before : α → α → Bool) (l : List α) : List α := l.insertionSort fun a b => before a b

theorem stableSort_perm (before : α → α → Bool) (l : List α) : (stableSort before l).Perm l := perm_insertionSort _ l

@[simp]
theorem mem_stableSort (before : α → α → Bool) (l : List α) (a : α) :
    a ∈ stableSort before l ↔ a ∈ l := (stableSort_perm before l).mem_iff

section TotalPreorder

variable {α : Type} {before : α → α → Bool} [Std.Total fun a b => before a b = true]
  [IsTrans α fun a b => before a b = true]

theorem stableSort_pairwise (l : List α) : (stableSort before l).Pairwise fun a b => before a b = true :=
  pairwise_insertionSort (fun a b => before a b = true) l

end TotalPreorder

def maxOf (l : List ℕ) : ℕ := l.foldl max 0

def maxByKey {α : Type} (key : α → ℕ) (l : List α) : Option α := l.reverse.argmax key

example : maxByKey (fun p : ℕ × ℕ => p.1) [(1, 0), (2, 0), (2, 1)] = some (2, 1) := by decide

end SunbeamProxy
