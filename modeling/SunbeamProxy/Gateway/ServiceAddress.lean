/-
The addresses of Services as strings: `parse_backend_ref` writes them, `parse_service_target` reads them from the right
(`endpoints.rs`) and `parse_backend_service` from the left (`backendtlspolicy.rs`).
-/
import SunbeamProxy.Gateway.Endpoints

namespace SunbeamProxy.Gateway

open List Text

def parseBackendService (backend : String) : Option (String × String) :=
  match splitChar '.' (((splitChar ':' backend).head?).getD "") with
  | name :: ns :: "svc" :: "cluster" :: _ => some (ns, name)
  | _ => none

theorem toDigit_of_isDigit {c : Char} (h : c.isDigit = true) : toDigit 10 c = some (c.toNat - '0'.toNat) := by
  simp only [Char.isDigit, Bool.and_eq_true, decide_eq_true_eq] at h
  have hle : c.toNat ≤ 57 := h.2
  have hrange : '0' ≤ c ∧ c ≤ '9' := h
  have hlt : c.toNat - '0'.toNat < 10 := by
    change c.toNat - 48 < 10
    omega
  simpa [toDigit, hrange, Option.filter] using hlt

theorem digitsValue_repr (n : ℕ) : digitsValue 10 n.repr.toList = n := by
  have hstep : ∀ (acc : ℕ), ∀ c ∈ n.repr.toList, acc * 10 + (toDigit 10 c).getD 0 = 10 * acc + (c.toNat - '0'.toNat) := by
    intro acc c hc
    rw [toDigit_of_isDigit (isDigit_of_mem_repr hc), Option.getD_some, Nat.mul_comm]
  rw [digitsValue, foldl_ext _ _ _ hstep, ← Nat.ofDigitChars_eq_foldl, Nat.repr, String.toList_ofList]
  exact Nat.ofDigitChars_toDigits (by decide) (by decide)

theorem digits_repr (n : ℕ) : n.repr.toList ≠ [] ∧ n.repr.toList.all (fun c => (toDigit 10 c).isSome) = true := by
  apply And.intro
  · rw [Nat.repr, String.toList_ofList]
    exact Nat.toDigits_ne_nil
  · rw [all_eq_true]
    intro c hc
    rw [toDigit_of_isDigit (isDigit_of_mem_repr hc), Option.isSome_some]

theorem parseUnsigned_repr {bound n : ℕ} (h : n < bound) : parseUnsigned bound n.repr = some n := by
  have hvalue := digitsValue_repr n
  obtain ⟨hne, hall⟩ := digits_repr n
  simp only [parseUnsigned]
  split
  next rest heq => exact absurd (isDigit_of_mem_repr (heq ▸ mem_cons_self : '+' ∈ n.repr.toList)) (by decide)
  next => rw [if_pos ⟨hne, hall, by omega⟩, hvalue]

theorem parseI32_toString {port : ℤ} (hlow : -2 ^ 31 ≤ port) (hhigh : port < 2 ^ 31) : parseI32 (toString port) = some port := by
  rw [Int.toString_eq_repr, Int.repr_eq_if]
  split_ifs with hpos
  · unfold parseI32
    split
    next ds heq => exact absurd (isDigit_of_mem_repr (heq ▸ mem_cons_self : '-' ∈ port.toNat.repr.toList)) (by decide)
    next =>
      rw [parseUnsigned_repr (by omega), Option.map_some]
      exact congrArg some (Int.toNat_of_nonneg hpos)
  · have hlist : ("-" ++ (-port).toNat.repr).toList = '-' :: (-port).toNat.repr.toList := by simp
    obtain ⟨hne, hall⟩ := digits_repr (-port).toNat
    have hvalue := digitsValue_repr (-port).toNat
    rw [parseI32, hlist]
    simp only
    rw [if_pos ⟨hne, hall, by omega⟩, hvalue]
    exact congrArg some (by omega)

/-! ## Reading an address -/

/-- a name as DNS labels have them -/
def IsDnsLabel (s : String) : Prop := ∀ c ∈ s.toList, c.isLower = true ∨ c.isDigit = true ∨ c = '-'

theorem trimStartMatches_of_none {p s : String} (h : stripStart s p = none) (n : ℕ) : trimStartMatches p n s = s := by
  cases n <;> simp [trimStartMatches, h]

theorem splitChar_append_of_pieces {c : Char} {s : String} {l : List String} {p : String} (h : splitChar c s = l ++ [p]) (t : String) :
    ∃ q rest, splitChar c (s ++ t) = l ++ q :: rest := by
  obtain ⟨front, x, y, back, hs, -, hst⟩ := splitChar_append c s t
  rw [h] at hs
  obtain ⟨rfl, -⟩ := append_inj' hs rfl
  exact ⟨x ++ y, back, hst⟩

theorem parseBackendService_scheme {scheme : String} (hcolon : ':' ∉ scheme.toList) (hdot : '.' ∉ scheme.toList) (rest : String) :
    parseBackendService (scheme ++ (String.ofList [':'] ++ rest)) = none := by
  rw [parseBackendService, splitChar_append_sep, splitChar_of_notMem hcolon]
  simp [splitChar_of_notMem hdot]

theorem exists_append_of_rsplitOnce {c : Char} {s before after : String} (h : rsplitOnce c s = some (before, after)) :
    ∃ t, before = ((splitChar c s).head?).getD "" ++ t := by
  unfold rsplitOnce at h
  split at h
  next last b rest hrev =>
    cases h
    have hsplit : splitChar c s = (b :: rest).reverse ++ [after] := by rw [← reverse_reverse (splitChar c s), hrev, reverse_cons]
    rw [hsplit]
    match hfront : (b :: rest).reverse with
    | [] => simp at hfront
    | [x] => exact ⟨"", by simp [joinChar_singleton]⟩
    | x :: y :: l => exact ⟨_, joinChar_cons_cons c x y l⟩
  next => cases h

theorem stripStart_of_parseBackendService (scheme : String) {backend : String} {service : String × String}
    (h : parseBackendService backend = some service) (hcolon : ':' ∉ scheme.toList) (hdot : '.' ∉ scheme.toList) :
    stripStart backend (scheme ++ "://") = none := by
  rw [stripStart_eq_none]
  intro hstart
  obtain ⟨rest, hrest⟩ := hstart
  have hsplit : backend = scheme ++ (String.ofList [':'] ++ ("//" ++ rest)) := by
    rw [hrest]
    apply String.toList_inj.1
    simp
  rw [hsplit, parseBackendService_scheme hcolon hdot] at h
  cases h

theorem exists_splitChar_stripEnd (host : String) :
    ∃ tail, splitChar '.' host = splitChar '.' ((stripEnd host ".").getD host) ++ tail := by
  cases hend : stripEnd host "." with
  | none => exact ⟨[], (append_nil _).symm⟩
  | some r =>
    refine ⟨splitChar '.' "", ?_⟩
    rw [stripEnd_eq_some.1 hend, Option.getD_some, ← splitChar_append_sep]
    rfl

theorem agree_iff {backend : String} {target : ServiceTarget} {ns name : String} (htarget : parseServiceTarget backend = some target)
    (hservice : parseBackendService backend = some (ns, name)) :
    (target.name = name ∧ target.namespace_ = ns) ↔ '.' ∉ target.name.toList := by
  have hhttps : stripStart backend "https://" = none := stripStart_of_parseBackendService "https" hservice (by decide) (by decide)
  have hhttp : stripStart backend "http://" = none := stripStart_of_parseBackendService "http" hservice (by decide) (by decide)
  simp only [parseServiceTarget, trimStartMatches_of_none hhttps, trimStartMatches_of_none hhttp] at htarget
  obtain ⟨⟨host, portStr⟩, hsplit, htarget⟩ := Option.bind_eq_some_iff.1 htarget
  obtain ⟨port, -, htarget⟩ := Option.bind_eq_some_iff.1 htarget
  dsimp only at htarget
  obtain ⟨t, rfl⟩ := exists_append_of_rsplitOnce hsplit
  unfold parseBackendService at hservice
  split at hservice
  next name' ns' tl hleft =>
    cases hservice
    -- all pieces of the left host but its last are pieces of the right host
    have hpieces : splitChar '.' (((splitChar ':' backend).head?).getD "")
        = name :: ns :: "svc" :: ("cluster" :: tl).dropLast ++ [("cluster" :: tl).getLast (cons_ne_nil _ _)] := by
      rw [hleft, cons_append, cons_append, cons_append, dropLast_append_getLast]
    obtain ⟨q, rest, hhost⟩ := splitChar_append_of_pieces hpieces t
    obtain ⟨tail, hcore⟩ := exists_splitChar_stripEnd (((splitChar ':' backend).head?).getD "" ++ t)
    have hname : '.' ∉ name.toList := notMem_of_mem_splitChar (hleft ▸ mem_cons_self)
    split at htarget
    next ns₂ names hright =>
      cases htarget
      rw [hhost, reverse_eq_iff.1 hright] at hcore
      simp only [reverse_cons, append_assoc, cons_append, nil_append] at hcore
      generalize names.reverse = front at hcore ⊢
      match front, hcore with
      | [], hcore => simp at hcore
      | [x], hcore =>
        simp only [cons_append, nil_append, cons.injEq] at hcore
        obtain ⟨rfl, rfl, -⟩ := hcore
        simp [joinChar_singleton, hname]
      | x :: y :: l, hcore =>
        have hdot : '.' ∈ (joinChar '.' (x :: y :: l)).toList := by simp [joinChar_cons_cons]
        refine iff_of_false ?_ (not_not.2 hdot)
        intro h
        have hjoin : joinChar '.' (x :: y :: l) = name := h.1
        exact hname (hjoin ▸ hdot)
    next => cases htarget
  next => cases hservice

section RoundTrip

variable {name ns : String} (port : ℤ) (hname : IsDnsLabel name) (hns : IsDnsLabel ns)

theorem IsDnsLabel.notMem {s : String} (h : IsDnsLabel s) {c : Char} (hc : ¬(c.isLower = true ∨ c.isDigit = true ∨ c = '-')) :
    c ∉ s.toList := fun hmem => hc (h c hmem)

include hname hns

theorem splitChar_colon_serviceAddress :
    splitChar ':' (serviceAddress name ns port) = [name ++ "." ++ ns ++ ".svc.cluster.local.", toString port] := by
  have hhost : ':' ∉ (name ++ "." ++ ns ++ ".svc.cluster.local.").toList := by
    simp [hname.notMem (c := ':') (by decide), hns.notMem (c := ':') (by decide)]
  have hcolon : serviceAddress name ns port
      = name ++ "." ++ ns ++ ".svc.cluster.local." ++ (String.ofList [':'] ++ toString port) := by
    apply String.toList_inj.1
    simp [serviceAddress]
  rw [hcolon, splitChar_append_sep, splitChar_of_notMem hhost,
    splitChar_of_notMem (notMem_toString_int (by decide) (by decide) port)]
  rfl

theorem stripStart_serviceAddress {p : String} (hp : '/' ∈ p.toList) : stripStart (serviceAddress name ns port) p = none := by
  rw [stripStart_eq_none]
  intro h
  obtain ⟨rest, hrest⟩ := h
  have hmem : '/' ∈ (serviceAddress name ns port).toList := by
    rw [hrest, String.toList_append]
    exact mem_append_left _ hp
  simp [serviceAddress, hname.notMem (c := '/') (by decide), hns.notMem (c := '/') (by decide)] at hmem
  exact notMem_toString_int (by decide) (by decide) port hmem

theorem splitChar_dot_host (tail : String) : splitChar '.' (name ++ "." ++ ns ++ ".svc.cluster" ++ (String.ofList ['.'] ++ tail))
    = name :: ns :: "svc" :: "cluster" :: splitChar '.' tail := by
  have hdots : name ++ "." ++ ns ++ ".svc.cluster" = name ++ (String.ofList ['.'] ++ (ns ++ (String.ofList ['.'] ++ ("svc"
      ++ (String.ofList ['.'] ++ "cluster"))))) := by
    apply String.toList_inj.1
    simp
  rw [splitChar_append_sep, hdots]
  simp only [splitChar_append_sep, splitChar_of_notMem (hname.notMem (c := '.') (by decide)),
    splitChar_of_notMem (hns.notMem (c := '.') (by decide))]
  rfl

/-- **Service addresses.** For DNS labels and any port, both parsers read an address back as it was written. -/
theorem service_address_round_trip (hlow : -2 ^ 31 ≤ port) (hhigh : port < 2 ^ 31) :
    parseServiceTarget (serviceAddress name ns port) = some ⟨name, ns, port⟩
      ∧ parseBackendService (serviceAddress name ns port) = some (ns, name)
      ∧ ∀ backend target ns' name', parseServiceTarget backend = some target → parseBackendService backend = some (ns', name') →
          ((target.name = name' ∧ target.namespace_ = ns') ↔ '.' ∉ target.name.toList) := by
  have hcolon := splitChar_colon_serviceAddress port hname hns
  have hstrip : stripEnd (name ++ "." ++ ns ++ ".svc.cluster.local.") "."
      = some (name ++ "." ++ ns ++ ".svc.cluster" ++ (String.ofList ['.'] ++ "local")) := by
    rw [stripEnd_eq_some]
    apply String.toList_inj.1
    simp
  have hhost : name ++ "." ++ ns ++ ".svc.cluster.local."
      = name ++ "." ++ ns ++ ".svc.cluster" ++ (String.ofList ['.'] ++ "local.") := by
    apply String.toList_inj.1
    simp
  refine ⟨?_, ?_, fun backend target ns' name' htarget hservice => agree_iff htarget hservice⟩
  · have hr : rsplitOnce ':' (serviceAddress name ns port) = some (name ++ "." ++ ns ++ ".svc.cluster.local.", toString port) := by
      rw [rsplitOnce, hcolon]
      exact congrArg (fun host => some (host, toString port)) (joinChar_singleton ':' _)
    have hhttps : stripStart (serviceAddress name ns port) "https://" = none := stripStart_serviceAddress port hname hns (by decide)
    have hhttp : stripStart (serviceAddress name ns port) "http://" = none := stripStart_serviceAddress port hname hns (by decide)
    simp only [parseServiceTarget, trimStartMatches_of_none hhttps, trimStartMatches_of_none hhttp, hr, Option.bind_some, parseI32_toString hlow hhigh, hstrip,
      Option.getD_some, splitChar_dot_host hname hns, splitChar_of_notMem (show '.' ∉ "local".toList by decide)]
    exact congrArg (fun name => some (ServiceTarget.mk name ns port)) (joinChar_singleton '.' name)
  · rw [parseBackendService, hcolon, head?_cons, Option.getD_some, hhost, splitChar_dot_host hname hns]
    rfl

end RoundTrip

theorem shop_address_round_trip : parseServiceTarget (serviceAddress "cart" "shop" 8080) = some ⟨"cart", "shop", 8080⟩ := by
  have hname : IsDnsLabel "cart" := by simp [IsDnsLabel]
  have hns : IsDnsLabel "shop" := by simp [IsDnsLabel]
  exact (service_address_round_trip 8080 hname hns (by decide) (by decide)).1

theorem dotted_name_read_differently :
    parseServiceTarget "a.b.svc.cluster.x.svc.cluster.local.:80" = some ⟨"a.b.svc.cluster", "x", 80⟩
      ∧ parseBackendService "a.b.svc.cluster.x.svc.cluster.local.:80" = some ("b", "a") := by
  decide

end SunbeamProxy.Gateway
