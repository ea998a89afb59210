import OtsConsensus.Bytes

/-!
# The consensus Merkle root

`buildMerkleRoot` of the transition engine and the RUID ordering of `calculateRootHash`. Leaves
are `keccak256(ruid)`; a layer of odd width duplicates its last node; each pair is hashed in byte
order, smaller first, as `keccak256(min ‖ max)`; the single node left is the root, and no RUIDs
give the zero hash.

`keccak256` (`crypto.Keccak256Hash`) is a parameter of every definition here. The layer loop
halves the width (rounding up) while it exceeds one, which is its termination measure
(`length_nextLayer`).

The root binds its RUIDs: two lists of RUIDs with one root hold the same RUIDs, unless two of the
byte strings hashed for the two roots (`merkleInputs`) collide or one of them hashes to zero. A
RUID is `Under` a node when the node is its leaf or the hash of a pair with the RUID under one
side; every RUID of the list is under the root (`under_buildMerkleRoot`), and with no collision
among the hashed strings only those are (`mem_of_under_buildMerkleRoot`), because each node then
has one preimage among them: a pair of nodes, of 64 bytes, or a RUID, of 32.
-/

namespace Ots

/-- `bytes.Compare(a, b)`: the lexicographic order of byte strings. -/
def bytesCompare : List UInt8 → List UInt8 → Ordering
  | [], [] => .eq
  | [], _ :: _ => .lt
  | _ :: _, [] => .gt
  | x :: xs, y :: ys => if x < y then .lt else if y < x then .gt else bytesCompare xs ys

/-- `bytes.Compare(a[:], b[:]) > 0`: `a` comes after `b` in byte order. -/
def hashAfter (a b : Hash) : Bool := bytesCompare a.bytes b.bytes == .gt

/-- One combine of `buildMerkleRoot`: the two nodes in byte order, concatenated and hashed. -/
def combinePair (keccak256 : List UInt8 → Hash) (left right : Hash) : Hash :=
  if hashAfter left right then keccak256 (right.bytes ++ left.bytes)
  else keccak256 (left.bytes ++ right.bytes)

/-- The pairs of a layer, combined; a last unpaired node is dropped (the caller pads first). -/
def pairLayer (keccak256 : List UInt8 → Hash) : List Hash → List Hash
  | a :: b :: rest => combinePair keccak256 a b :: pairLayer keccak256 rest
  | _ => []

/-- A layer of odd width gets its last node duplicated. -/
def padLayer (layer : List Hash) : List Hash :=
  if layer.length % 2 = 1 then layer ++ [layer.getLastD (ByteVec.zero 32)] else layer

/-- One pass of the layer loop. -/
def nextLayer (keccak256 : List UInt8 → Hash) (layer : List Hash) : List Hash :=
  pairLayer keccak256 (padLayer layer)

/-- Pairing halves a layer, rounding down. -/
theorem length_pairLayer (keccak256 : List UInt8 → Hash) (layer : List Hash) :
    (pairLayer keccak256 layer).length = layer.length / 2 := by
  induction layer using pairLayer.induct keccak256 with
  | case1 a b rest ih => simp only [pairLayer, List.length_cons, ih]; omega
  | case2 l h =>
    rw [pairLayer.eq_2 keccak256 l h]
    match l, h with
    | [], _ | [_], _ => simp
    | _ :: _ :: _, h => exact absurd rfl (h _ _ _)

/-- The next layer has half the nodes, rounding up. -/
theorem length_nextLayer (keccak256 : List UInt8 → Hash) (layer : List Hash) :
    (nextLayer keccak256 layer).length = (layer.length + 1) / 2 := by
  unfold nextLayer padLayer
  split <;> simp [length_pairLayer]; omega

/-- The loop `for len(currentLayer) > 1`; then `currentLayer[0]`. -/
def merkleLayers (keccak256 : List UInt8 → Hash) (layer : List Hash) : Hash :=
  if 1 < layer.length then merkleLayers keccak256 (nextLayer keccak256 layer)
  else layer.headD (ByteVec.zero 32)
termination_by layer.length
decreasing_by rw [length_nextLayer]; omega

/-- `buildMerkleRoot(ruids)`. -/
def buildMerkleRoot (keccak256 : List UInt8 → Hash) (ruids : List Hash) : Hash :=
  if ruids.isEmpty then ByteVec.zero 32
  else merkleLayers keccak256 (ruids.map fun ruid => keccak256 ruid.bytes)

/-- `sort.Slice(ruids, bytes.Compare(ruids[i][:], ruids[j][:]) < 0)`: byte order. Equal keys are
equal hashes, so every sorting algorithm gives this list. -/
def sortRUIDs (ruids : List Hash) : List Hash :=
  ruids.mergeSort fun a b => !hashAfter a b

/-! ## The root binds the RUIDs -/

/-- The bytes one combine hashes: the two nodes in byte order, concatenated. -/
def pairInput (left right : Hash) : List UInt8 :=
  if hashAfter left right then right.bytes ++ left.bytes else left.bytes ++ right.bytes

/-- The bytes the combines of one pass over a padded layer hash. -/
def pairInputs : List Hash → List (List UInt8)
  | a :: b :: rest => pairInput a b :: pairInputs rest
  | _ => []

/-- The bytes the layer loop hashes from a layer on: the pair inputs of every pass. -/
def layerInputs (keccak256 : List UInt8 → Hash) (layer : List Hash) : List (List UInt8) :=
  if 1 < layer.length then
    pairInputs (padLayer layer) ++ layerInputs keccak256 (nextLayer keccak256 layer)
  else []
termination_by layer.length
decreasing_by rw [length_nextLayer]; omega

/-- Every byte string `buildMerkleRoot` hashes: the RUIDs, for the leaves, then the pair inputs of
the layer loop. -/
def merkleInputs (keccak256 : List UInt8 → Hash) (ruids : List Hash) : List (List UInt8) :=
  ruids.map (·.bytes) ++ layerInputs keccak256 (ruids.map fun ruid => keccak256 ruid.bytes)

/-- Two different byte strings of `inputs` with one `keccak256`. -/
def Collision (keccak256 : List UInt8 → Hash) (inputs : List (List UInt8)) : Prop :=
  ∃ u ∈ inputs, ∃ v ∈ inputs, u ≠ v ∧ keccak256 u = keccak256 v

/-- RUID `r` is under node `v`, by hashes of byte strings of `inputs`: `v` is the leaf of `r`, or
the hash of two concatenated nodes, `r` being under one of them. -/
inductive Under (keccak256 : List UInt8 → Hash) (inputs : List (List UInt8)) : Hash → Hash → Prop
  | leaf (r : Hash) : r.bytes ∈ inputs → Under keccak256 inputs (keccak256 r.bytes) r
  | left {a r : Hash} (b : Hash) : a.bytes ++ b.bytes ∈ inputs → Under keccak256 inputs a r →
      Under keccak256 inputs (keccak256 (a.bytes ++ b.bytes)) r
  | right (a : Hash) {b r : Hash} : a.bytes ++ b.bytes ∈ inputs → Under keccak256 inputs b r →
      Under keccak256 inputs (keccak256 (a.bytes ++ b.bytes)) r

section Binding

variable {keccak256 : List UInt8 → Hash} {inputs : List (List UInt8)}

/-- A pair's hash is the hash of its `min || max` input. -/
theorem combinePair_eq (left right : Hash) :
    combinePair keccak256 left right = keccak256 (pairInput left right) := by
  unfold combinePair pairInput; split <;> rfl

/-- A pair input has 64 bytes. -/
theorem length_pairInput (left right : Hash) : (pairInput left right).length = 64 := by
  unfold pairInput; split <;> simp [ByteVec.length_bytes]

/-- Two nodes whose concatenation is a pair input are the pair, in some order. -/
theorem eq_of_append_eq_pairInput {a b c d : Hash} (h : c.bytes ++ d.bytes = pairInput a b) :
    c = a ∧ d = b ∨ c = b ∧ d = a := by
  have split : ∀ {x y z w : Hash}, x.bytes ++ y.bytes = z.bytes ++ w.bytes → x = z ∧ y = w :=
    fun e => (List.append_inj e (by rw [ByteVec.length_bytes, ByteVec.length_bytes])).imp
      ByteVec.ext_bytes ByteVec.ext_bytes
  unfold pairInput at h
  split at h
  · exact .inr (split h)
  · exact .inl (split h)

/-- A RUID under one side of a hashed pair is under the pair. -/
theorem under_pair {a b r : Hash} (hab : pairInput a b ∈ inputs)
    (h : Under keccak256 inputs a r ∨ Under keccak256 inputs b r) :
    Under keccak256 inputs (keccak256 (pairInput a b)) r := by
  unfold pairInput at hab ⊢
  by_cases hx : hashAfter a b
  · rw [if_pos hx] at hab ⊢; exact h.elim (.right b hab) (.left a hab)
  · rw [if_neg hx] at hab ⊢; exact h.elim (.left b hab) (.right a hab)

/-- What `Under` can say of a node: it is a leaf hash, or the hash of two concatenated nodes. -/
theorem Under.cases_hash {v r : Hash} (h : Under keccak256 inputs v r) :
    (r.bytes ∈ inputs ∧ v = keccak256 r.bytes) ∨
    ∃ a b : Hash, a.bytes ++ b.bytes ∈ inputs ∧ v = keccak256 (a.bytes ++ b.bytes) ∧
      (Under keccak256 inputs a r ∨ Under keccak256 inputs b r) := by
  cases h with
  | leaf _ hr => exact .inl ⟨hr, rfl⟩
  | left b hab ha => exact .inr ⟨_, b, hab, rfl, .inl ha⟩
  | right a hab hb => exact .inr ⟨a, _, hab, rfl, .inr hb⟩

/-- A node of a paired layer is the hash of a pair of the layer below. -/
theorem mem_pairLayer {L : List Hash} {w : Hash} (h : w ∈ pairLayer keccak256 L) :
    ∃ a ∈ L, ∃ b ∈ L, pairInput a b ∈ pairInputs L ∧ w = keccak256 (pairInput a b) := by
  induction L using pairLayer.induct keccak256 with
  | case1 a b rest ih =>
    rw [pairLayer, List.mem_cons, combinePair_eq] at h
    rcases h with rfl | h
    · exact ⟨a, by simp, b, by simp, by simp [pairInputs], rfl⟩
    · obtain ⟨x, hx, y, hy, hi, rfl⟩ := ih h
      exact ⟨x, by simp [hx], y, by simp [hy], by simp [pairInputs, hi], rfl⟩
  | case2 l hl =>
    rw [pairLayer.eq_2 keccak256 l hl] at h
    exact absurd h (List.not_mem_nil w)

/-- Every node of an even layer is one side of a pair that is hashed into the next. -/
theorem pairLayer_covers {L : List Hash} (he : L.length % 2 = 0) {v : Hash} (hv : v ∈ L) :
    ∃ a b, (v = a ∨ v = b) ∧ pairInput a b ∈ pairInputs L ∧
      keccak256 (pairInput a b) ∈ pairLayer keccak256 L := by
  induction L using pairLayer.induct keccak256 with
  | case1 a b rest ih =>
    simp only [List.mem_cons] at hv
    rcases hv with rfl | rfl | hv
    · exact ⟨v, b, .inl rfl, by simp [pairInputs], by simp [pairLayer, combinePair_eq]⟩
    · exact ⟨a, v, .inr rfl, by simp [pairInputs], by simp [pairLayer, combinePair_eq]⟩
    · obtain ⟨x, y, hxy, hi, hw⟩ := ih (by simp at he; omega) hv
      exact ⟨x, y, hxy, by simp [pairInputs, hi], by simp [pairLayer, hw]⟩
  | case2 l hl =>
    match l, hl with
    | [], _ => exact absurd hv (List.not_mem_nil v)
    | [_], _ => simp at he
    | _ :: _ :: _, hl => exact absurd rfl (hl _ _ _)

/-- Padding adds no new node. -/
theorem mem_padLayer {L : List Hash} {v : Hash} (h : v ∈ padLayer L) : v ∈ L := by
  unfold padLayer at h
  split at h
  · rcases List.mem_append.mp h with h | h
    · exact h
    · rw [List.mem_singleton.mp h]
      cases L with
      | nil => simp at *
      | cons x xs => rw [List.getLastD_cons]; exact List.getLastD_mem_cons xs x
  · exact h

/-- A padded layer has an even length. -/
theorem length_padLayer (L : List Hash) : (padLayer L).length % 2 = 0 := by
  unfold padLayer
  split_ifs with h
  · rw [List.length_append, List.length_singleton]; omega
  · omega

/-- The inputs hashed above a layer of two or more: its pairs, then the layers above. -/
theorem layerInputs_of_lt {L : List Hash} (h : 1 < L.length) :
    layerInputs keccak256 L =
      pairInputs (padLayer L) ++ layerInputs keccak256 (nextLayer keccak256 L) := by
  rw [layerInputs, if_pos h]

/-- A layer of two or more has the root of the layer above it. -/
theorem merkleLayers_of_lt {L : List Hash} (h : 1 < L.length) :
    merkleLayers keccak256 L = merkleLayers keccak256 (nextLayer keccak256 L) := by
  rw [merkleLayers, if_pos h]

/-- **What every node has, the root has**: a property of nodes that holds of a layer and of the
hash of any pair input of the tree whose nodes have it holds of the root. -/
theorem merkleLayers_inv (P : Hash → Prop)
    (hstep : ∀ a b, pairInput a b ∈ inputs → P a → P b → P (keccak256 (pairInput a b))) :
    ∀ L : List Hash, layerInputs keccak256 L ⊆ inputs → (∀ v ∈ L, P v) → L ≠ [] →
      P (merkleLayers keccak256 L) := by
  intro L
  induction L using merkleLayers.induct keccak256 with
  | case1 L hlt ih =>
    intro hin hP _
    rw [merkleLayers_of_lt hlt]
    rw [layerInputs_of_lt hlt, List.append_subset] at hin
    refine ih hin.2 (fun w hw => ?_) (by rw [← List.length_pos, length_nextLayer]; omega)
    obtain ⟨a, ha, b, hb, hi, rfl⟩ := mem_pairLayer hw
    exact hstep a b (hin.1 hi) (hP a (mem_padLayer ha)) (hP b (mem_padLayer hb))
  | case2 L hlt =>
    intro _ hP hne
    rw [merkleLayers, if_neg hlt]
    obtain ⟨v, rfl⟩ : ∃ v, L = [v] := by
      match L, hne with
      | [v], _ => exact ⟨v, rfl⟩
      | _ :: _ :: _, _ => simp at hlt
    exact hP v (List.mem_singleton_self v)

/-- **Every RUID under a node of a layer is under the root.** -/
theorem under_merkleLayers :
    ∀ L : List Hash, layerInputs keccak256 L ⊆ inputs → ∀ v ∈ L, ∀ r,
      Under keccak256 inputs v r → Under keccak256 inputs (merkleLayers keccak256 L) r := by
  intro L
  induction L using merkleLayers.induct keccak256 with
  | case1 L hlt ih =>
    intro hin v hv r hr
    rw [merkleLayers_of_lt hlt]
    rw [layerInputs_of_lt hlt, List.append_subset] at hin
    obtain ⟨a, b, hab, hi, hw⟩ := pairLayer_covers (length_padLayer L)
      (show v ∈ padLayer L by unfold padLayer; split <;> simp [hv])
    exact ih hin.2 _ hw r (under_pair (hin.1 hi) (hab.elim (fun h => .inl (h ▸ hr)) fun h => .inr (h ▸ hr)))
  | case2 L hlt =>
    intro _ v hv r hr
    rw [merkleLayers, if_neg hlt]
    match L, hv with
    | [_], List.Mem.head _ => exact hr
    | _ :: _ :: _, _ => simp at hlt

/-- `keccak256` one-to-one on `inputs`, when no two of them collide. -/
theorem injOn_of_not_collision (h : ¬Collision keccak256 inputs) :
    ∀ u ∈ inputs, ∀ v ∈ inputs, keccak256 u = keccak256 v → u = v := fun u hu v hv he =>
  Classical.byContradiction fun hne => h ⟨u, hu, v, hv, hne, he⟩

section Tree

variable {ruids : List Hash} (hin : merkleInputs keccak256 ruids ⊆ inputs)
include hin

/-- Every RUID's bytes are hashed as a leaf. -/
theorem merkleInputs_leaves : ∀ r ∈ ruids, r.bytes ∈ inputs := fun _ hr =>
  hin (List.mem_append_left _ (List.mem_map_of_mem _ hr))

/-- Every pair input of the layers is among the hashed inputs. -/
theorem merkleInputs_layers :
    layerInputs keccak256 (ruids.map fun ruid => keccak256 ruid.bytes) ⊆ inputs :=
  fun _ hx => hin (List.mem_append_right _ hx)

/-- **Every RUID is under the root.** -/
theorem under_buildMerkleRoot {r : Hash} (hr : r ∈ ruids) :
    Under keccak256 inputs (buildMerkleRoot keccak256 ruids) r := by
  rw [buildMerkleRoot, if_neg (by simp [List.ne_nil_of_mem hr])]
  exact under_merkleLayers _ (merkleInputs_layers hin) _ (List.mem_map_of_mem _ hr) r
    (.leaf r (merkleInputs_leaves hin r hr))

/-- **Only the RUIDs are under the root**, when no two hashed byte strings collide: going down
from the root, each node has one preimage among them, a pair of nodes (64 bytes) or a RUID
(32 bytes). -/
theorem mem_of_under_buildMerkleRoot (hinj : ∀ u ∈ inputs, ∀ v ∈ inputs, keccak256 u = keccak256 v → u = v)
    (hne : ruids ≠ []) {r : Hash} (hr : Under keccak256 inputs (buildMerkleRoot keccak256 ruids) r) :
    r ∈ ruids := by
  have h64 : ∀ (a b : Hash) (x : List UInt8), x.length = 32 → x ≠ pairInput a b := fun a b x hx e => by
    have := congrArg List.length e; rw [length_pairInput] at this; omega
  rw [buildMerkleRoot, if_neg (by simpa using hne)] at hr
  refine merkleLayers_inv (fun v => ∀ r, Under keccak256 inputs v r → r ∈ ruids) ?_ _
    (merkleInputs_layers hin) ?_ (by simpa using hne) r hr
  · intro a b hab ha hb r hr
    rcases hr.cases_hash with ⟨hrI, he⟩ | ⟨c, d, hcd, he, hsub⟩
    · exact absurd (hinj _ hrI _ hab he.symm) (h64 a b _ (ByteVec.length_bytes r))
    · rcases eq_of_append_eq_pairInput (hinj _ hcd _ hab he.symm) with ⟨rfl, rfl⟩ | ⟨rfl, rfl⟩
      · exact hsub.elim (ha r) (hb r)
      · exact hsub.elim (hb r) (ha r)
  · intro v hv r hr
    obtain ⟨r0, hr0, rfl⟩ := List.mem_map.mp hv
    rcases hr.cases_hash with ⟨hrI, he⟩ | ⟨c, d, hcd, he, -⟩
    · rw [ByteVec.ext_bytes (hinj _ hrI _ (merkleInputs_leaves hin r0 hr0) he.symm)]; exact hr0
    · have := congrArg List.length (hinj _ hcd _ (merkleInputs_leaves hin r0 hr0) he.symm)
      simp [ByteVec.length_bytes] at this

/-- The root of RUIDs is the hash of one of the byte strings hashed. -/
theorem buildMerkleRoot_hash (hne : ruids ≠ []) :
    ∃ x ∈ inputs, keccak256 x = buildMerkleRoot keccak256 ruids := by
  rw [buildMerkleRoot, if_neg (by simpa using hne)]
  refine merkleLayers_inv (fun v => ∃ x ∈ inputs, keccak256 x = v) (fun a b hab _ _ => ⟨_, hab, rfl⟩)
    _ (merkleInputs_layers hin) ?_ (by simpa using hne)
  intro v hv
  obtain ⟨r0, hr0, rfl⟩ := List.mem_map.mp hv
  exact ⟨_, merkleInputs_leaves hin r0 hr0, rfl⟩

end Tree

end Binding

/-- **The consensus Merkle root binds the RUID set.** Two lists of RUIDs whose sorted lists have
one `buildMerkleRoot` hold the same RUIDs, unless two of the byte strings hashed in building the
two roots collide under `keccak256`, or one of them hashes to the zero hash. -/
theorem merkleRoot_binds (keccak256 : List UInt8 → Hash) (R1 R2 : List Hash)
    (h : buildMerkleRoot keccak256 (sortRUIDs R1) = buildMerkleRoot keccak256 (sortRUIDs R2)) :
    (∀ r, r ∈ R1 ↔ r ∈ R2) ∨
      Collision keccak256 (merkleInputs keccak256 (sortRUIDs R1) ++
        merkleInputs keccak256 (sortRUIDs R2)) ∨
      ∃ u ∈ merkleInputs keccak256 (sortRUIDs R1) ++ merkleInputs keccak256 (sortRUIDs R2),
        keccak256 u = ByteVec.zero 32 := by
  set I := merkleInputs keccak256 (sortRUIDs R1) ++ merkleInputs keccak256 (sortRUIDs R2)
  have h1 : merkleInputs keccak256 (sortRUIDs R1) ⊆ I := List.subset_append_left _ _
  have h2 : merkleInputs keccak256 (sortRUIDs R2) ⊆ I := List.subset_append_right _ _
  have hmem : ∀ (R : List Hash) r, r ∈ sortRUIDs R ↔ r ∈ R := fun _ _ => List.mem_mergeSort
  by_cases hc : Collision keccak256 I
  · exact .inr (.inl hc)
  have hinj := injOn_of_not_collision hc
  have hzero : ∀ R, merkleInputs keccak256 (sortRUIDs R) ⊆ I → sortRUIDs R ≠ [] →
      buildMerkleRoot keccak256 (sortRUIDs R) = ByteVec.zero 32 → ∃ u ∈ I, keccak256 u = ByteVec.zero 32 :=
    fun R hR hne h0 => (buildMerkleRoot_hash hR hne).imp fun x hx => ⟨hx.1, hx.2.trans h0⟩
  by_cases e1 : sortRUIDs R1 = [] <;> by_cases e2 : sortRUIDs R2 = []
  · left; intro r; rw [← hmem R1, ← hmem R2, e1, e2]
  · exact .inr (.inr (hzero R2 h2 e2 (h.symm.trans (by rw [e1]; rfl))))
  · exact .inr (.inr (hzero R1 h1 e1 (h.trans (by rw [e2]; rfl))))
  · left
    intro r
    rw [← hmem R1 r, ← hmem R2 r]
    exact ⟨fun hr => mem_of_under_buildMerkleRoot h2 hinj e2 (h ▸ under_buildMerkleRoot h1 hr),
      fun hr => mem_of_under_buildMerkleRoot h1 hinj e1 (h ▸ under_buildMerkleRoot h2 hr)⟩

/-- With a `keccak256` that hashes everything to zero, no RUIDs and one RUID have one root: the
zero-hash alternative of the binding is needed. -/
theorem empty_and_zero_leaf_roots :
    let keccak256 : List UInt8 → Hash := fun _ => ByteVec.zero 32
    buildMerkleRoot keccak256 (sortRUIDs []) = buildMerkleRoot keccak256 (sortRUIDs [ByteVec.zero 32]) ∧
      ((∀ r, r ∈ ([] : List Hash) ↔ r ∈ [ByteVec.zero 32]) ∨
        Collision keccak256 (merkleInputs keccak256 (sortRUIDs []) ++
          merkleInputs keccak256 (sortRUIDs [ByteVec.zero 32])) ∨
        ∃ u ∈ merkleInputs keccak256 (sortRUIDs []) ++
            merkleInputs keccak256 (sortRUIDs [ByteVec.zero 32]),
          keccak256 u = ByteVec.zero 32) := by
  intro keccak256
  have h : buildMerkleRoot keccak256 (sortRUIDs []) =
      buildMerkleRoot keccak256 (sortRUIDs [ByteVec.zero 32]) := by
    have e1 : buildMerkleRoot keccak256 [ByteVec.zero 32] = ByteVec.zero 32 := by
      rw [buildMerkleRoot, if_neg (by decide), merkleLayers, if_neg (by decide)]; rfl
    rw [sortRUIDs, sortRUIDs, List.mergeSort_nil, List.mergeSort_singleton, e1]
    rfl
  exact ⟨h, merkleRoot_binds keccak256 [] [ByteVec.zero 32] h⟩

end Ots
