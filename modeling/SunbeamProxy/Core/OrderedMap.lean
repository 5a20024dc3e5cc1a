/-
A Rust `BTreeMap` and the grouping of a list by key, over arbitrary types.
-/
import Mathlib.Data.List.Dedup
import Mathlib.Data.List.Flatten
import SunbeamProxy.Core.Collections

namespace SunbeamProxy

open List

structure OrderedMap (κ ν : Type) [LinearOrder κ] where
  entries : List (κ × ν) := []
  sorted : entries.Pairwise fun a b => a.1 < b.1 := by exact List.Pairwise.nil

namespace OrderedMap

variable {κ ν : Type} [LinearOrder κ]

variable (m : OrderedMap κ ν)

def keys : List κ := m.entries.map (·.1)

def values : List ν := m.entries.map (·.2)

def get (k : κ) : Option ν := (m.entries.find? (·.1 = k)).map (·.2)

def upsertEntry (k : κ) (v : ν) (f : ν → ν) : List (κ × ν) → List (κ × ν)
  | [] => [(k, v)]
  | e :: rest =>
    if k = e.1 then (k, f e.2) :: rest
    else if k < e.1 then (k, v) :: e :: rest
    else e :: upsertEntry k v f rest

def insertKey (k : κ) : List κ → List κ
  | [] => [k]
  | k' :: rest => if k = k' then k :: rest else if k < k' then k :: k' :: rest else k' :: insertKey k rest

variable (m : OrderedMap κ ν) (k : κ) (v : ν) (f : ν → ν)

theorem map_fst_upsertEntry (l : List (κ × ν)) : (upsertEntry k v f l).map (·.1) = insertKey k (l.map (·.1)) := by
  induction l with
  | nil => rfl
  | cons e rest ih =>
    rw [upsertEntry, map_cons, insertKey]
    split_ifs
    · rfl
    · rfl
    · rw [map_cons, ih]

theorem mem_insertKey {k x : κ} {l : List κ} : x ∈ insertKey k l ↔ x = k ∨ x ∈ l := by
  induction l with
  | nil => simp [insertKey]
  | cons k' rest ih =>
    rw [insertKey]
    split_ifs with heq hlt
    · simp [heq]
    · simp
    · simp only [mem_cons]
      tauto

omit [LinearOrder κ] in
theorem lt_of_lt_head [Preorder κ] {α : Type} {f : α → κ} {e : α} {l : List α} {k : κ}
    (h : (e :: l).Pairwise fun a b => f a < f b) (hlt : k < f e) : ∀ x ∈ e :: l, k < f x := by
  intro x hx
  rcases mem_cons.1 hx with rfl | hx
  · exact hlt
  · exact hlt.trans (rel_of_pairwise_cons h hx)

theorem insertKey_pairwise {l : List κ} (h : l.Pairwise (· < ·)) : (insertKey k l).Pairwise (· < ·) := by
  induction l with
  | nil => simp [insertKey]
  | cons k' rest ih =>
    obtain ⟨hhead, hrest⟩ := pairwise_cons.1 h
    rw [insertKey]
    split_ifs with heq hlt
    · rw [heq]
      exact h
    · exact pairwise_cons.2 ⟨lt_of_lt_head (f := id) h hlt, h⟩
    · refine pairwise_cons.2 ⟨fun x hx => ?_, ih hrest⟩
      rcases mem_insertKey.1 hx with rfl | hx
      · exact lt_of_le_of_ne (not_lt.1 hlt) (Ne.symm heq)
      · exact hhead x hx

theorem pairwise_keys : m.keys.Pairwise (· < ·) := pairwise_map.2 m.sorted

def upsert (m : OrderedMap κ ν) (k : κ) (v : ν) (f : ν → ν) : OrderedMap κ ν where
  entries := upsertEntry k v f m.entries
  sorted := by
    rw [← pairwise_map (f := Prod.fst), map_fst_upsertEntry]
    exact insertKey_pairwise k m.pairwise_keys

theorem nodup_keys : m.keys.Nodup := m.pairwise_keys.imp fun h => ne_of_lt h

theorem get_of_mem {m : OrderedMap κ ν} {e : κ × ν} (he : e ∈ m.entries) : m.get e.1 = some e.2 := by
  have hfind : m.entries.find? (fun x => x.1 = e.1) = some e := by
    cases hf : m.entries.find? (fun x => x.1 = e.1) with
    | none =>
      have := find?_eq_none.1 hf e he
      simp at this
    | some x =>
      have hx : x.1 = e.1 := by simpa using find?_some hf
      exact congrArg some (inj_on_of_nodup_map m.nodup_keys (mem_of_find?_eq_some hf) he hx)
  rw [get, hfind]
  rfl

theorem map_get_keys : m.keys.map m.get = m.values.map some := by
  simp only [keys, values, map_map]
  exact map_congr_left fun e he => get_of_mem he

theorem mem_keys_iff {m : OrderedMap κ ν} {k : κ} : k ∈ m.keys ↔ (m.get k).isSome = true := by
  rw [get, Option.isSome_map, find?_isSome, keys, mem_map]
  simp only [decide_eq_true_eq]

theorem get_upsert (k k' : κ) (v : ν) (f : ν → ν) :
    (m.upsert k v f).get k' = if k' = k then some ((m.get k).elim v f) else m.get k' := by
  obtain ⟨entries, sorted⟩ := m
  simp only [get, upsert]
  induction entries with
  | nil =>
    by_cases h : k' = k
    · simp [upsertEntry, h]
    · simp [upsertEntry, h, Ne.symm h]
  | cons e rest ih =>
    have hrest := sorted.of_cons
    rw [upsertEntry]
    by_cases heq : k = e.1
    · subst heq
      by_cases hk : k' = e.1
      · simp [hk]
      · simp [hk, Ne.symm hk]
    · have he := Ne.symm heq
      rw [if_neg heq]
      by_cases hlt : k < e.1
      · have hvacant : (e :: rest).find? (fun x => x.1 = k) = none := by
          refine find?_eq_none.2 fun x hx => ?_
          simpa using ne_of_gt (lt_of_lt_head sorted hlt x hx)
        rw [if_pos hlt, hvacant]
        by_cases hk : k' = k
        · simp [hk]
        · simp [hk, Ne.symm hk]
      · rw [if_neg hlt, find?_cons_of_neg (a := e) (l := rest) (p := fun x => decide (x.1 = k)) (by simpa using he)]
        by_cases hek : e.1 = k'
        · have hk : k' ≠ k := fun h => he (hek.trans h)
          simp [hek, hk]
        · rw [find?_cons_of_neg (by simpa using hek), find?_cons_of_neg (by simpa using hek)]
          exact ih hrest

theorem find?_values {m : OrderedMap κ ν} {key : ν → κ} (hkey : ∀ e ∈ m.entries, key e.2 = e.1) (k : κ) :
    m.values.find? (fun v => key v = k) = m.get k := by
  rw [values, find?_map]
  refine congrArg _ (find?_congr fun e he => ?_)
  simp [hkey e he]

section Gather

variable {α : Type} (key : α → κ) (first : α → ν) (add : α → ν → ν)

variable (l : List α)

def gather : OrderedMap κ ν := l.foldl (fun m a => m.upsert (key a) (first a) (add a)) {}

def groupValue : List α → Option ν
  | [] => none
  | a :: l => some (l.foldl (fun v b => add b v) (first a))

theorem groupValue_concat (a : α) :
    groupValue first add (l ++ [a]) = some ((groupValue first add l).elim (first a) (add a)) := by
  cases l with
  | nil => rfl
  | cons b l => simp [groupValue]

theorem gather_concat (a : α) :
    gather key first add (l ++ [a]) = (gather key first add l).upsert (key a) (first a) (add a) := by
  rw [gather, foldl_append]
  rfl

/-- **Groups.** Under a key stands what the elements with that key make, in their order. -/
theorem get_gather (k : κ) :
    (gather key first add l).get k = groupValue first add (l.filter fun a => key a = k) := by
  induction l using reverseRecOn with
  | nil => rfl
  | append_singleton l a ih =>
    rw [gather_concat, get_upsert, filter_append]
    by_cases h : key a = k
    · subst h
      rw [if_pos rfl, filter_cons_of_pos (by simp), filter_nil, groupValue_concat, ih]
    · rw [if_neg (Ne.symm h), filter_cons_of_neg (by simpa using h), filter_nil, append_nil, ih]

theorem mem_keys_gather {l : List α} {k : κ} : k ∈ (gather key first add l).keys ↔ ∃ a ∈ l, key a = k := by
  rw [mem_keys_iff, get_gather]
  cases hfilter : l.filter (fun a => key a = k) with
  | nil =>
    have hnone := filter_eq_nil_iff.1 hfilter
    simpa [groupValue] using hnone
  | cons a rest =>
    have ha : a ∈ l.filter fun a => key a = k := by rw [hfilter]; exact mem_cons_self ..
    obtain ⟨hmem, hkey⟩ := mem_filter.1 ha
    simp only [groupValue, Option.isSome_some, true_iff]
    exact ⟨a, hmem, by simpa using hkey⟩

end Gather

end OrderedMap

theorem flatMap_filter_perm {α κ : Type} [DecidableEq κ] (key : α → κ) {keys : List κ} (hnodup : keys.Nodup) (l : List α)
    (hmem : ∀ a ∈ l, key a ∈ keys) : (keys.flatMap fun k => l.filter fun a => key a = k).Perm l := by
  induction l with
  | nil => simp
  | cons a l ih =>
    obtain ⟨s, t, rfl⟩ := append_of_mem (hmem a (mem_cons_self ..))
    have ih := ih fun b hb => hmem b (mem_cons_of_mem _ hb)
    -- the other groups do not see `a`
    have hother : ∀ ks : List κ, key a ∉ ks → (ks.flatMap fun k => (a :: l).filter fun b => key b = k)
        = ks.flatMap fun k => l.filter fun b => key b = k := by
      intro ks hks
      refine flatMap_congr fun k hk => filter_cons_of_neg ?_
      simpa using fun h : key a = k => hks (h ▸ hk)
    obtain ⟨hs, ht⟩ : key a ∉ s ∧ key a ∉ t := by simpa using (nodup_middle.1 hnodup).notMem
    rw [flatMap_append, flatMap_cons] at ih ⊢
    rw [hother s hs, hother t ht, filter_cons_of_pos (by simp)]
    exact perm_middle.trans (ih.cons a)

theorem flatMap_dedup_eq_iff {α β : Type} [DecidableEq α] (f : α → List β) (l : List α) :
    l.dedup.flatMap f = l.flatMap f ↔ ∀ a, f a ≠ [] → l.count a ≤ 1 := by
  induction l with
  | nil => simp
  | cons x l ih =>
    by_cases hx : x ∈ l
    · have hpos := count_pos_iff.2 hx
      rw [dedup_cons_of_mem hx]
      constructor
      · intro h
        -- the tail has no more than its distinct part, so `x` adds nothing
        have hsub := (dedup_sublist l).flatMap f
        have hlen := congrArg List.length h
        rw [flatMap_cons, length_append] at hlen
        have hle := hsub.length_le
        have hnil : f x = [] := eq_nil_of_length_eq_zero (by omega)
        rw [flatMap_cons, hnil] at h
        intro a ha
        have hax : x ≠ a := fun e => ha (e ▸ hnil)
        rw [count_cons_of_ne hax]
        exact ih.1 h a ha
      · intro h
        have hnil : f x = [] := by
          by_contra hne
          have := h x hne
          rw [count_cons_self] at this
          omega
        rw [flatMap_cons, hnil]
        exact ih.2 fun a ha => (count_le_count_cons ..).trans (h a ha)
    · have hzero := count_eq_zero.2 hx
      simp only [dedup_cons_of_notMem hx, flatMap_cons, append_cancel_left_eq, ih]
      refine forall₂_congr fun a _ => ?_
      by_cases hax : x = a
      · subst hax
        rw [count_cons_self, hzero]
        simp
      · rw [count_cons_of_ne hax]

theorem flatMap_eq_of_sublist {α β : Type} {f g : α → List β} {l : List α} (hsub : ∀ a ∈ l, (f a).Sublist (g a))
    (hlen : (l.flatMap f).length = (l.flatMap g).length) : ∀ a ∈ l, f a = g a := by
  induction l with
  | nil => simp
  | cons x l ih =>
    have hx := hsub x (mem_cons_self ..)
    have hl := fun a ha => hsub a (mem_cons_of_mem _ ha)
    have hle := (Sublist.flatMap_right l hl).length_le
    simp only [flatMap_cons, length_append] at hlen
    have hxle := hx.length_le
    refine forall_mem_cons.2 ⟨hx.eq_of_length (by omega), ih hl (by omega)⟩

end SunbeamProxy
