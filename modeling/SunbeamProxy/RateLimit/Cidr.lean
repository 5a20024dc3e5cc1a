/-
Membership in a CIDR block (`rate_limit/cidr.rs`), against the bits of the addresses.

Both addresses are read as 128-bit values, an IPv4 address as its IPv4-mapped form, and a block of IPv4 addresses fixes 96 bits
more than its length says.
-/
import SunbeamProxy.Net

namespace SunbeamProxy

theorem and_mask_eq_iff {w p : ℕ} (hp : p ≤ w) (x y : BitVec w) :
    x &&& (BitVec.allOnes w <<< (w - p)) = y &&& (BitVec.allOnes w <<< (w - p)) ↔ ∀ i < p, x.getMsbD i = y.getMsbD i := by
  -- bit `i` of the masked value, counted from the front
  have hbit : ∀ (z : BitVec w) (i : ℕ), (z &&& (BitVec.allOnes w <<< (w - p))).getMsbD i = (decide (i < p) && z.getMsbD i) := by
    intro z i
    rw [BitVec.getMsbD_and, BitVec.getMsbD_shiftLeft, BitVec.getMsbD_allOnes, Bool.and_comm]
    congr 2
    exact propext ⟨fun h => by omega, fun h => by omega⟩
  apply Iff.intro
  · intro h i hi
    have hi' := congrArg (fun z => BitVec.getMsbD z i) h
    simpa [hbit, hi] using hi'
  · intro h
    apply BitVec.eq_of_getMsbD_eq
    intro i _
    rw [hbit, hbit]
    by_cases hi : i < p
    · rw [h i hi]
    · simp [hi]

namespace CidrBlock

theorem hostBits_of_le {width prefixLen : ℕ} (hw : width ≤ 128) (h : prefixLen ≤ width) (hpos : prefixLen ≠ 0) :
    hostBits width prefixLen % width = width - prefixLen := by
  have hsub : hostBits width prefixLen = width - prefixLen := by
    unfold hostBits
    omega
  rw [hsub, Nat.mod_eq_of_lt (by omega)]

theorem v4Mask_of_le {prefixLen : ℕ} (h : prefixLen ≤ 32) : v4Mask prefixLen = BitVec.allOnes 32 <<< (32 - prefixLen) := by
  unfold v4Mask
  split_ifs with hzero
  · rw [hzero]
    decide
  · rw [hostBits_of_le (by decide) h hzero]

theorem v6Mask_of_le {prefixLen : ℕ} (h : prefixLen ≤ 128) : v6Mask prefixLen = BitVec.allOnes 128 <<< (128 - prefixLen) := by
  unfold v6Mask
  split_ifs with hzero
  · rw [hzero]
    decide
  · rw [hostBits_of_le (by decide) h hzero]

def maskOverflows (width prefixLen : ℕ) : Bool :=
  prefixLen != 0 && (decide (width < prefixLen) || decide (width ≤ hostBits width prefixLen))

def overflows (b : CidrBlock) (ip : IpAddr) : Bool :=
  match normalise b.addr, normalise ip with
  | .v4 _, .v4 _ => maskOverflows 32 b.prefixLen
  | .v6 _, .v6 _ => maskOverflows 128 b.prefixLen
  | _, _ => false

end CidrBlock

def IpAddr.value : IpAddr → BitVec 128
  | .v4 bits => 0xFFFF#96 ++ bits
  | .v6 bits => bits

def IpAddr.isIpv4 (ip : IpAddr) : Bool :=
  match CidrBlock.normalise ip with
  | .v4 _ => true
  | .v6 _ => false

namespace CidrBlock

variable (b : CidrBlock)

def prefixBits : ℕ :=
  match b.addr with
  | .v4 _ => 96 + b.prefixLen
  | .v6 _ => b.prefixLen

/-- the addresses have the bits of the prefix in common -/
def Agrees (ip : IpAddr) : Prop := ∀ i < b.prefixBits, b.addr.value.getMsbD i = ip.value.getMsbD i

theorem prefixLen_le_of_parse {s : String} {b : CidrBlock} (h : parse s = some b) :
    b.prefixLen ≤ (match b.addr with | .v4 _ => 32 | .v6 _ => 128) := by
  simp only [parse, Option.bind_eq_bind, Option.bind_eq_some_iff] at h
  obtain ⟨parts, -, len, -, addr, -, h⟩ := h
  cases addr
  all_goals
    simp only at h
    split_ifs at h with hlen
    cases h
    exact not_lt.1 hlen

theorem getMsbD_value_v4 (bits : BitVec 32) (i : ℕ) :
    (IpAddr.v4 bits).value.getMsbD i = if 96 ≤ i then bits.getMsbD (i - 96) else (0xFFFF#96).getMsbD i :=
  BitVec.getMsbD_append

theorem mapped_iff (bits : BitVec 128) : bits.toNat / 2 ^ 32 = 0xFFFF ↔ ∀ i < 96, (0xFFFF#96).getMsbD i = bits.getMsbD i := by
  have hfront : (bits.extractLsb' 32 96).toNat = bits.toNat / 2 ^ 32 := by
    rw [BitVec.extractLsb'_toNat, Nat.shiftRight_eq_div_pow, Nat.mod_eq_of_lt (by omega)]
  have hbit : ∀ i < 96, (bits.extractLsb' 32 96).getMsbD i = bits.getMsbD i := by
    intro i hi
    simp only [BitVec.getMsbD, BitVec.getLsbD_extractLsb', hi, decide_true, Bool.true_and, show i < 128 by omega,
      show 96 - 1 - i < 96 by omega]
    congr 1
    omega
  rw [← hfront]
  apply Iff.intro
  · intro h i hi
    rw [← hbit i hi]
    congr 1
    exact BitVec.eq_of_toNat_eq h.symm
  · intro h
    have heq : bits.extractLsb' 32 96 = 0xFFFF#96 := by
      apply BitVec.eq_of_getMsbD_eq
      intro i hi
      rw [hbit i hi, h i hi]
    rw [heq]
    rfl

theorem normalise_v6 (bits : BitVec 128) :
    normalise (.v6 bits) = if bits.toNat / 2 ^ 32 = 0xFFFF then .v4 (bits.setWidth 32) else .v6 bits := rfl

theorem value_normalise (ip : IpAddr) : (normalise ip).value = ip.value := by
  cases ip with
  | v4 bits => rfl
  | v6 bits =>
    rw [normalise_v6]
    split_ifs with hmapped
    · apply BitVec.eq_of_toNat_eq
      simp only [IpAddr.value, BitVec.toNat_append, BitVec.toNat_setWidth, BitVec.toNat_ofNat]
      rw [← Nat.shiftLeft_add_eq_or_of_lt (by omega)]
      omega
    · rfl

theorem not_mapped_of_normalise {ip : IpAddr} {bits : BitVec 128} (h : normalise ip = .v6 bits) :
    ¬∀ i < 96, (0xFFFF#96).getMsbD i = bits.getMsbD i := by
  rw [← mapped_iff]
  cases ip with
  | v4 _ => cases h
  | v6 own =>
    rw [normalise_v6] at h
    split_ifs at h with hmapped
    cases h
    exact hmapped

/-! ## Agreement -/

theorem agrees_normalise (ip : IpAddr) : b.Agrees (normalise ip) ↔ b.Agrees ip := by
  simp [Agrees, value_normalise]

theorem agrees_v4 (net candidate : BitVec 32) (len : ℕ) :
    Agrees ⟨.v4 net, len⟩ (.v4 candidate) ↔ ∀ i < len, net.getMsbD i = candidate.getMsbD i := by
  apply Iff.intro
  · intro h i hi
    have hi' := h (96 + i) (show 96 + i < 96 + len by omega)
    simpa [getMsbD_value_v4] using hi'
  · intro h i hi
    change i < 96 + len at hi
    simp only [getMsbD_value_v4]
    split_ifs with hfront
    · exact h (i - 96) (by omega)
    · rfl

theorem not_agrees_v4_v6 (net : BitVec 32) (len : ℕ) {ip : IpAddr} {bits : BitVec 128} (h : normalise ip = .v6 bits) :
    ¬Agrees ⟨.v4 net, len⟩ (.v6 bits) := by
  intro hagrees
  apply not_mapped_of_normalise h
  intro i hi
  have hi' := hagrees i (show i < 96 + len by omega)
  rwa [getMsbD_value_v4, if_neg (by omega)] at hi'

theorem maskOverflows_of_le {width prefixLen : ℕ} (hw : width ≤ 128) (h : prefixLen ≤ width) :
    maskOverflows width prefixLen = false := by
  unfold maskOverflows hostBits
  by_cases hzero : prefixLen = 0
  · simp [hzero]
  · have hsub : (256 + width - prefixLen) % 256 = width - prefixLen := by omega
    have hin : ¬width < prefixLen ∧ ¬width ≤ width - prefixLen := by omega
    simp [hsub, hin]

/-- **Membership.** A block that is not written with a mapped address contains exactly the addresses that agree with it on the
prefix, an IPv6 block the IPv4 addresses among them excepted; no evaluation overflows. -/
theorem contains_iff_agrees {s : String} {b : CidrBlock} (h : parse s = some b) (hwritten : normalise b.addr = b.addr)
    (ip : IpAddr) :
    (b.contains ip = true ↔ b.Agrees ip ∧ (b.addr.isIpv4 = false → ip.isIpv4 = false)) ∧ b.overflows ip = false := by
  have hlen := prefixLen_le_of_parse h
  obtain ⟨addr, len⟩ := b
  rw [← agrees_normalise]
  simp only [contains, overflows, IpAddr.isIpv4]
  rw [show normalise addr = addr from hwritten]
  cases addr with
  | v4 net =>
    cases hip : normalise ip with
    | v4 candidate =>
      refine ⟨?_, maskOverflows_of_le (by decide) hlen⟩
      rw [beq_iff_eq, v4Mask_of_le hlen, and_mask_eq_iff hlen, agrees_v4]
      simp
    | v6 candidate => exact ⟨iff_of_false (by simp) fun hagrees => not_agrees_v4_v6 net len hip hagrees.1, rfl⟩
  | v6 net =>
    cases hip : normalise ip with
    | v4 candidate => simp
    | v6 candidate =>
      refine ⟨?_, maskOverflows_of_le (by decide) hlen⟩
      rw [beq_iff_eq, v6Mask_of_le hlen, and_mask_eq_iff hlen]
      simp [Agrees, prefixBits, IpAddr.value]

theorem agrees_of_contains {s : String} {b : CidrBlock} (h : parse s = some b) {ip : IpAddr} (hip : b.contains ip = true) :
    b.Agrees ip := by
  by_cases hwritten : normalise b.addr = b.addr
  · exact ((contains_iff_agrees h hwritten ip).1.1 hip).1
  have hlen := prefixLen_le_of_parse h
  obtain ⟨addr, len⟩ := b
  cases addr with
  | v4 net => exact absurd rfl hwritten
  | v6 bits =>
    rw [← agrees_normalise]
    have hmapped : normalise (.v6 bits) = .v4 (bits.setWidth 32) := by
      rw [normalise_v6] at hwritten ⊢
      split_ifs at hwritten ⊢ with hm
      · rfl
      · exact absurd rfl hwritten
    have hvalue : (IpAddr.v6 bits).value = (IpAddr.v4 (bits.setWidth 32)).value := by rw [← hmapped, value_normalise]
    simp only [contains, hmapped] at hip
    cases hcandidate : normalise ip with
    | v6 candidate => simp [hcandidate] at hip
    | v4 candidate =>
      intro i hi
      change i < len at hi
      simp only [hvalue, getMsbD_value_v4]
      split_ifs with hfront
      · have hpos : len ≠ 0 := by omega
        have hshift : hostBits 32 len % 32 = 32 - (len - 96) := by
          unfold hostBits
          change len ≤ 128 at hlen
          omega
        simp only [hcandidate, beq_iff_eq, v4Mask, if_neg hpos, hshift] at hip
        change len ≤ 128 at hlen
        exact (and_mask_eq_iff (by omega) _ _).1 hip (i - 96) (by omega)
      · rfl

theorem contains_iff_agrees_private : parse "10.0.0.0/8" = some ⟨.v4 0x0A000000, 8⟩ ∧ normalise (.v4 0x0A000000) = .v4 0x0A000000
      ∧ Agrees ⟨.v4 0x0A000000, 8⟩ (.v6 0xFFFF0A010203) ∧ overflows ⟨.v4 0x0A000000, 8⟩ (.v6 0xFFFF0A010203) = false := by
  have h := contains_iff_agrees (s := "10.0.0.0/8") (b := ⟨.v4 0x0A000000, 8⟩) (by decide) (by decide) (.v6 0xFFFF0A010203)
  exact ⟨by decide, by decide, (h.1.1 (by decide)).1, h.2⟩

/-- the IPv6 block of everything leaves the IPv4 addresses out, and a block written with a mapped address takes the length of
the long form off 32 -/
theorem mixed_families_and_mapped_block :
    (parse "::/0" = some ⟨.v6 0, 0⟩ ∧ Agrees ⟨.v6 0, 0⟩ (.v4 0x01020304) ∧ contains ⟨.v6 0, 0⟩ (.v4 0x01020304) = false)
      ∧ parse "::ffff:10.0.0.0/104" = some ⟨.v6 0xFFFF0A000000, 104⟩
      ∧ overflows ⟨.v6 0xFFFF0A000000, 104⟩ (.v4 0x0A000001) = true := by
  refine ⟨⟨by decide, ?_, by decide⟩, by decide, by decide⟩
  intro i hi
  exact absurd hi (Nat.not_lt_zero i)

end CidrBlock

end SunbeamProxy
