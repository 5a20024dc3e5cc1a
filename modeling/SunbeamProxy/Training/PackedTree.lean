/-
Decision trees as they are trained and as they are shipped (`training/tree.rs`, `ensemble/tree.rs`).

The trainer builds a tree by recursion and flattens it into an array, where a node has the indices of its children in 16 bits
and 255 in place of a feature marks a leaf. Numbers are of any linear order with any arithmetic, since nothing here rests on
what the trainer computes.
-/
import SunbeamProxy.Core.Collections

namespace SunbeamProxy.Training

open List

structure Constants (F : Type) [LinearOrder F] where
  (zero quarter half threeQuarters one two epsilon : F)
  ordered : zero < quarter ∧ quarter < half ∧ half < threeQuarters ∧ threeQuarters < one

inductive TreeDecision where
  | block | allow | defer
deriving DecidableEq, Repr

structure TrainingSample (F : Type) where
  features : ℕ → F
  label : F
  weight : F

structure TreeConfig (F : Type) where
  maxDepth : ℕ
  minSamplesLeaf : ℕ
  minPurity : F
  numFeatures : ℕ

inductive BuildNode (F : Type) where
  | leaf (decision : TreeDecision)
  | split (feature : ℕ) (threshold : F) (left right : BuildNode F)

structure Best (F : Type) where
  gain : F
  feature : ℕ
  threshold : F
  (left right : List (TrainingSample F))

section Train

variable {F : Type} [LinearOrder F] [Add F] [Sub F] [Mul F] [Div F] (k : Constants F) (abs : F → F) (config : TreeConfig F)

def countSample (counts : F × F) (s : TrainingSample F) : F × F :=
  if k.half ≤ s.label then (counts.1 + s.weight, counts.2) else (counts.1, counts.2 + s.weight)

variable (samples : List (TrainingSample F))

def weightedCounts : F × F := samples.foldl (countSample k) (k.zero, k.zero)

def gini (a b : F) : F :=
  let total := a + b
  if total < k.epsilon then k.zero else k.one - a / total * (a / total) - b / total * (b / total)

def makeLeaf (attack normal : F) : BuildNode F :=
  let total := attack + normal
  if total < k.epsilon then .leaf .defer
  else if config.minPurity ≤ attack / total then .leaf .block
  else if config.minPurity ≤ normal / total then .leaf .allow
  else .leaf .defer

def scanStep (counts : F × F) (feat : ℕ) (vals : List (TrainingSample F)) (acc : (F × F) × Best F) (windowEnd : ℕ) :
    (F × F) × Best F :=
  match vals[windowEnd]?, vals[windowEnd + 1]? with
  | some s, some next =>
    let left := countSample k acc.1 s
    let leftCount := windowEnd + 1
    if abs (s.features feat - next.features feat) < k.epsilon then (left, acc.2)
    else if leftCount < config.minSamplesLeaf ∨ vals.length - leftCount < config.minSamplesLeaf then (left, acc.2)
    else
      let right := (counts.1 - left.1, counts.2 - left.2)
      let total := counts.1 + counts.2
      let weightedGini := (left.1 + left.2) / total * gini k left.1 left.2 + (right.1 + right.2) / total * gini k right.1 right.2
      let gain := gini k counts.1 counts.2 - weightedGini
      if acc.2.gain < gain then
        (left, ⟨gain, feat, (s.features feat + next.features feat) / k.two, vals.take leftCount, vals.drop leftCount⟩)
      else (left, acc.2)
  | _, _ => acc

def scanFeature (best : Best F) (feat : ℕ) : Best F :=
  let vals := stableSort (fun a b => decide (a.features feat ≤ b.features feat)) samples
  ((range (vals.length - 1)).foldl (scanStep k abs config (weightedCounts k samples) feat vals) ((k.zero, k.zero), best)).2

def bestSplit : Best F :=
  (range config.numFeatures).foldl (scanFeature k abs config samples) ⟨k.zero, 0, k.zero, [], []⟩

def buildNode : ℕ → List (TrainingSample F) → BuildNode F
  | 0, samples => makeLeaf k config (weightedCounts k samples).1 (weightedCounts k samples).2
  | depth + 1, samples =>
    let counts := weightedCounts k samples
    let total := counts.1 + counts.2
    let best := bestSplit k abs config samples
    if samples.length < 2 * config.minSamplesLeaf ∨ total < k.epsilon then makeLeaf k config counts.1 counts.2
    else if config.minPurity ≤ counts.1 / total ∨ config.minPurity ≤ counts.2 / total then makeLeaf k config counts.1 counts.2
    else if best.gain ≤ k.zero ∨ best.left = [] ∨ best.right = [] then makeLeaf k config counts.1 counts.2
    else .split best.feature best.threshold (buildNode depth best.left) (buildNode depth best.right)

end Train

/-! ## Packing and walking -/

structure PackedNode (F : Type) where
  feature : UInt8
  threshold : F
  left : UInt16
  right : UInt16

section Packed

variable {F : Type} [LinearOrder F] (k : Constants F)

def leafThreshold : TreeDecision → F
  | .allow => k.zero
  | .defer => k.half
  | .block => k.one

def flatten : BuildNode F → List (PackedNode F) → List (PackedNode F)
  | .leaf decision, out => out ++ [⟨255, leafThreshold k decision, 0, 0⟩]
  | .split feature threshold left right, out =>
    let reserved := out ++ [⟨0, k.zero, 0, 0⟩]
    let withLeft := flatten left reserved
    (flatten right withLeft).set out.length
      ⟨UInt8.ofNat feature, threshold, UInt16.ofNat reserved.length, UInt16.ofNat withLeft.length⟩

def treePredict (nodes : List (PackedNode F)) (features : List F) : ℕ → ℕ → Option TreeDecision
  | 0, _ => none
  | visits + 1, idx => nodes[idx]?.bind fun node =>
    if node.feature = 255 then
      some (if node.threshold < k.quarter then .allow else if k.threeQuarters < node.threshold then .block else .defer)
    else features[node.feature.toNat]?.bind fun value =>
      treePredict nodes features visits (if value ≤ node.threshold then node.left.toNat else node.right.toNat)

def ensembleTreePredict (nodes : List (PackedNode F)) (input : List F) : ℕ → ℕ → Option TreeDecision := treePredict k nodes input

namespace BuildNode

def reach (features : List F) : BuildNode F → Option TreeDecision
  | leaf decision => some decision
  | split feature threshold left right => features[feature]?.bind fun value =>
    if value ≤ threshold then left.reach features else right.reach features

def size : BuildNode F → ℕ
  | leaf _ => 1
  | split _ _ left right => 1 + left.size + right.size

def depth : BuildNode F → ℕ
  | leaf _ => 0
  | split _ _ left right => max left.depth right.depth + 1

def FeaturesBelow (n : ℕ) : BuildNode F → Prop
  | leaf _ => True
  | split feature _ left right => feature < n ∧ left.FeaturesBelow n ∧ right.FeaturesBelow n

instance decidableFeaturesBelow (n : ℕ) : (node : BuildNode F) → Decidable (node.FeaturesBelow n)
  | leaf _ => isTrue trivial
  | split feature _ left right =>
    have := decidableFeaturesBelow n left
    have := decidableFeaturesBelow n right
    inferInstanceAs (Decidable (feature < n ∧ left.FeaturesBelow n ∧ right.FeaturesBelow n))

theorem exists_reach {features : List F} {n : ℕ} (hn : n ≤ features.length) {node : BuildNode F} (h : node.FeaturesBelow n) :
    ∃ d, node.reach features = some d := by
  induction node with
  | leaf decision => exact ⟨decision, rfl⟩
  | split feature threshold left right ihl ihr =>
    rw [reach, getElem?_eq_getElem (h.1.trans_le hn), Option.bind_some]
    split_ifs
    · exact ihl h.2.1
    · exact ihr h.2.2

def packed (base : ℕ) : BuildNode F → List (PackedNode F)
  | leaf decision => [⟨255, leafThreshold k decision, 0, 0⟩]
  | split feature threshold left right =>
    ⟨UInt8.ofNat feature, threshold, UInt16.ofNat (base + 1), UInt16.ofNat (base + 1 + left.size)⟩
      :: (packed (base + 1) left ++ packed (base + 1 + left.size) right)

theorem length_packed (node : BuildNode F) (base : ℕ) : (node.packed k base).length = node.size := by
  induction node generalizing base with
  | leaf decision => rfl
  | split feature threshold left right ihl ihr =>
    simp only [packed, size, length_cons, length_append, ihl, ihr]
    omega

theorem flatten_eq (node : BuildNode F) (out : List (PackedNode F)) : flatten k node out = out ++ node.packed k out.length := by
  induction node generalizing out with
  | leaf decision => rfl
  | split feature threshold left right ihl ihr =>
    have hreserved : ∀ x : PackedNode F, (out ++ [x]).length = out.length + 1 := fun x => length_append
    have hleft : ∀ x : PackedNode F, (out ++ [x] ++ left.packed k (out.length + 1)).length = out.length + 1 + left.size := by
      intro x
      rw [length_append, hreserved, length_packed]
    rw [flatten, ihl, ihr, hreserved, hleft, append_assoc, append_assoc, set_append_right _ _ (le_refl _), Nat.sub_self]
    rfl

theorem leaf_read_back (decision : TreeDecision) : (if leafThreshold k decision < k.quarter then TreeDecision.allow
    else if k.threeQuarters < leafThreshold k decision then .block else .defer) = decision := by
  obtain ⟨h₁, h₂, h₃, h₄⟩ := k.ordered
  cases decision with
  | allow => rw [leafThreshold, if_pos h₁]
  | defer => rw [leafThreshold, if_neg h₂.not_gt, if_neg h₃.not_gt]
  | block => rw [leafThreshold, if_neg ((h₂.trans h₃).trans h₄).not_gt, if_pos h₄]

theorem treePredict_packed (features : List F) (node : BuildNode F) (hfeatures : node.FeaturesBelow 255)
    (pre post : List (PackedNode F)) (hsize : pre.length + node.size < 2 ^ 16) {visits : ℕ} (hvisits : node.depth < visits) :
    treePredict k (pre ++ node.packed k pre.length ++ post) features visits pre.length = node.reach features := by
  induction node generalizing pre post visits with
  | leaf decision =>
    obtain ⟨n, rfl⟩ := Nat.exists_eq_add_one_of_ne_zero hvisits.ne'
    simp [treePredict, packed, reach, leaf_read_back]
  | split feature threshold left right ihl ihr =>
    obtain ⟨hfeature, hleft, hright⟩ := hfeatures
    simp only [size] at hsize
    simp only [depth] at hvisits
    obtain ⟨n, rfl⟩ := Nat.exists_eq_add_one_of_ne_zero (Nat.ne_zero_of_lt hvisits)
    rw [packed]
    obtain ⟨node, hnode⟩ : ∃ node : PackedNode F, node = ⟨UInt8.ofNat feature, threshold, UInt16.ofNat (pre.length + 1),
      UInt16.ofNat (pre.length + 1 + left.size)⟩ := ⟨_, rfl⟩
    have hindex : node.feature.toNat = feature := by
      rw [hnode, UInt8.toNat_ofNat']
      omega
    have hinner : node.feature ≠ 255 := by
      intro h
      rw [h] at hindex
      exact absurd hindex hfeature.ne'
    have hto : node.left.toNat = pre.length + 1 ∧ node.right.toNat = pre.length + 1 + left.size ∧ node.threshold = threshold := by
      rw [hnode, UInt16.toNat_ofNat', UInt16.toNat_ofNat']
      exact ⟨Nat.mod_eq_of_lt (by omega), Nat.mod_eq_of_lt (by omega), rfl⟩
    -- the children follow their node, first all of the left one
    have hl := ihl hleft (pre ++ [node]) (right.packed k (pre.length + 1 + left.size) ++ post)
      (by simp only [length_append, length_singleton]; omega) (Nat.lt_of_le_of_lt (le_max_left _ _) (Nat.lt_of_succ_lt_succ hvisits))
    have hr := ihr hright (pre ++ [node] ++ left.packed k (pre.length + 1)) post
      (by simp only [length_append, length_singleton, length_packed]; omega)
      (Nat.lt_of_le_of_lt (le_max_right _ _) (Nat.lt_of_succ_lt_succ hvisits))
    simp only [length_append, length_singleton, length_packed] at hl hr
    have hget : (pre ++ (node :: (left.packed k (pre.length + 1) ++ right.packed k (pre.length + 1 + left.size))) ++ post)[pre.length]?
        = some node := by simp
    rw [← hnode, treePredict, hget, Option.bind_some, if_neg hinner, hindex, hto.1, hto.2.1, hto.2.2, reach]
    congr 1
    funext value
    by_cases hle : value ≤ threshold
    · rw [if_pos hle, if_pos hle, ← hl]
      simp only [append_assoc, cons_append, nil_append]
    · rw [if_neg hle, if_neg hle, ← hr]
      simp only [append_assoc, cons_append, nil_append]

end BuildNode

end Packed

section Trained

variable {F : Type} [LinearOrder F] [Add F] [Sub F] [Mul F] [Div F] (k : Constants F) (abs : F → F) (config : TreeConfig F)

def trainTree (samples : List (TrainingSample F)) : List (PackedNode F) := flatten k (buildNode k abs config config.maxDepth samples) []

theorem scanStep_feature {counts : F × F} {feat : ℕ} {vals : List (TrainingSample F)} {acc : (F × F) × Best F} {n : ℕ} (hfeat : feat < n)
    (h : acc.2.left = [] ∨ acc.2.feature < n) (windowEnd : ℕ) :
    (scanStep k abs config counts feat vals acc windowEnd).2.left = []
      ∨ (scanStep k abs config counts feat vals acc windowEnd).2.feature < n := by
  unfold scanStep
  split
  · dsimp only
    split_ifs
    · exact h
    · exact h
    · exact Or.inr hfeat
    · exact h
  · exact h

theorem bestSplit_feature (samples : List (TrainingSample F)) :
    (bestSplit k abs config samples).left = [] ∨ (bestSplit k abs config samples).feature < config.numFeatures := by
  refine foldlRecOn (motive := fun best : Best F => best.left = [] ∨ best.feature < config.numFeatures) _ _ (Or.inl rfl) ?_
  intro best hbest feat hfeat
  refine foldlRecOn (motive := fun acc : (F × F) × Best F => acc.2.left = [] ∨ acc.2.feature < config.numFeatures) _ _ hbest ?_
  intro acc hacc windowEnd _
  exact scanStep_feature k abs config (mem_range.1 hfeat) hacc windowEnd

theorem buildNode_bounds (n : ℕ) (samples : List (TrainingSample F)) : (buildNode k abs config n samples).depth ≤ n
    ∧ (buildNode k abs config n samples).FeaturesBelow config.numFeatures := by
  have hleaf : ∀ (m : ℕ) (a b : F), (makeLeaf k config a b).depth ≤ m ∧ (makeLeaf k config a b).FeaturesBelow config.numFeatures := by
    intro m a b
    unfold makeLeaf
    dsimp only
    split_ifs <;> exact ⟨Nat.zero_le m, trivial⟩
  induction n generalizing samples with
  | zero => exact hleaf _ _ _
  | succ n ih =>
    unfold buildNode
    dsimp only
    split_ifs with _ _ hfound
    · exact hleaf _ _ _
    · exact hleaf _ _ _
    · exact hleaf _ _ _
    · have hfeature := (bestSplit_feature k abs config samples).resolve_left fun h => hfound (Or.inr (Or.inl h))
      exact ⟨Nat.succ_le_succ (max_le (ih _).1 (ih _).1), hfeature, (ih _).2, (ih _).2⟩

/-- **Packed trees.** With fewer than 2^16 nodes and features below 255, the walk over the array stays inside it and comes, within
one node more than the depth allowed, to the decision of the tree. -/
theorem packed_tree_decides (samples : List (TrainingSample F)) (features : List F)
    (hnodes : (buildNode k abs config config.maxDepth samples).size < 2 ^ 16)
    (hfeatures : (buildNode k abs config config.maxDepth samples).FeaturesBelow 255) :
    treePredict k (trainTree k abs config samples) features (config.maxDepth + 1) 0
        = (buildNode k abs config config.maxDepth samples).reach features
      ∧ ensembleTreePredict k (trainTree k abs config samples) features (config.maxDepth + 1) 0
        = (buildNode k abs config config.maxDepth samples).reach features
      ∧ (config.numFeatures ≤ features.length →
        ∃ d, (buildNode k abs config config.maxDepth samples).reach features = some d) := by
  obtain ⟨hdepth, hbelow⟩ := buildNode_bounds k abs config config.maxDepth samples
  have hwalk := BuildNode.treePredict_packed k features _ hfeatures [] [] (by simpa using hnodes) (Nat.lt_succ_of_le hdepth)
  rw [nil_append, append_nil, length_nil, ← nil_append (BuildNode.packed k 0 _)] at hwalk
  have htrain := BuildNode.flatten_eq k (buildNode k abs config config.maxDepth samples) []
  rw [length_nil] at htrain
  rw [← htrain] at hwalk
  exact ⟨hwalk, hwalk, fun hlen => BuildNode.exists_reach hlen hbelow⟩

end Trained

theorem separated_classes_decided :
    let k : Constants ℚ := ⟨0, 1 / 4, 1 / 2, 3 / 4, 1, 2, 1 / 1000, by norm_num⟩
    let config : TreeConfig ℚ := ⟨2, 1, 9 / 10, 1⟩
    let samples : List (TrainingSample ℚ) := [⟨fun _ => 8, 1, 1⟩, ⟨fun _ => 2, 0, 1⟩]
    ∃ d, treePredict k (trainTree k (fun x => |x|) config samples) [9] 3 0 = some d := by
  intro k config samples
  obtain ⟨hwalk, -, hreach⟩ := packed_tree_decides k (fun x => |x|) config samples [9] (by decide +kernel) (by decide +kernel)
  obtain ⟨d, hd⟩ := hreach (by decide)
  exact ⟨d, hwalk.trans hd⟩

end SunbeamProxy.Training
