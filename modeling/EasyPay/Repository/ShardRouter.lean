import EasyPay.Domain

/-!
# Shard router

`internal/repository/shard_router.go`: the logical shards `0 .. L-1` are spread
over `P` physical pools in ranges of `L / P`.  A `Router` is what `OpenShards`
accepts: at least one pool, and a pool count that divides the logical count.
Opening the pools themselves (DSNs, connection limits) is left out; a pool is
its physical index.
-/

namespace EasyPay

open GoStrings

structure Router where
  logicalCount : UInt8
  pools : Nat
  pools_pos : 0 < pools
  pools_le : pools ≤ logicalCount.toNat
  pools_dvd : pools ∣ logicalCount.toNat

/-- `OpenShards` on the number of configured physical shards; none means the single
legacy pool. -/
def openShards (shards : Nat) (logicalCount : UInt8) : Res Router :=
  if logicalCount = 0 then .error (.new (bytes "logicalCount must be > 0"))
  else
    let n := if shards = 0 then 1 else shards
    if hlt : logicalCount.toNat < n then
      .error (.new (bytes "logical_shard_count (" ++ formatInt logicalCount.toNat ++
        bytes ") < len(shards) (" ++ formatInt n ++ bytes ")"))
    else if hdvd : logicalCount.toNat % n ≠ 0 then
      .error (.new (bytes "logical_shard_count (" ++ formatInt logicalCount.toNat ++
        bytes ") not divisible by len(shards) (" ++ formatInt n ++ bytes ")"))
    else
      .ok
        { logicalCount
          pools := n
          pools_pos := by
            show 0 < if shards = 0 then 1 else shards
            split <;> omega
          pools_le := Nat.le_of_not_lt hlt
          pools_dvd := Nat.dvd_of_mod_eq_zero (by simpa using hdvd) }

/-- What is accepted has the given counts. -/
theorem openShards_ok {shards : Nat} {logicalCount : UInt8} {r : Router}
    (h : openShards shards logicalCount = .ok r) :
    r.logicalCount = logicalCount ∧ r.pools = if shards = 0 then 1 else shards := by
  unfold openShards at h
  by_cases hzero : logicalCount = 0
  · rw [if_pos hzero] at h
    cases h
  by_cases hlt : logicalCount.toNat < if shards = 0 then 1 else shards
  · simp only [if_neg hzero, dif_pos hlt] at h
    cases h
  by_cases hdvd : logicalCount.toNat % (if shards = 0 then 1 else shards) ≠ 0
  · simp only [if_neg hzero, dif_neg hlt, dif_pos hdvd] at h
    cases h
  simp only [if_neg hzero, dif_neg hlt, dif_neg hdvd] at h
  cases h
  exact ⟨rfl, rfl⟩

theorem exists_openShards {shards : Nat} {logicalCount : UInt8} (hpos : logicalCount ≠ 0)
    (hle : (if shards = 0 then 1 else shards) ≤ logicalCount.toNat)
    (hdvd : logicalCount.toNat % (if shards = 0 then 1 else shards) = 0) :
    ∃ r, openShards shards logicalCount = .ok r := by
  unfold openShards
  simp only [if_neg hpos, dif_neg (Nat.not_lt.mpr hle), dif_neg (not_not.mpr hdvd)]
  exact ⟨_, rfl⟩

namespace Router

/-- The routing table: logical index `i` lives on pool `i * P / L`. -/
def physical (r : Router) (i : UInt8) : Nat := i.toNat * r.pools / r.logicalCount.toNat

/-- `logicalToDB`, the table `OpenShards` fills; `forIndex` reads it (`getElem?_logicalToDB`). -/
def logicalToDB (r : Router) : List Nat :=
  (List.range r.logicalCount.toNat).map fun i => r.physical i.toUInt8

/-- `ShardRouter.For`. -/
def forIndex (r : Router) (shardIndex : UInt8) : Res Nat :=
  if shardIndex ≥ r.logicalCount then
    .error (.because .unknownShard (formatInt shardIndex.toNat ++ bytes " (logical_shard_count=" ++
      formatInt r.logicalCount.toNat ++ bytes ")"))
  else .ok (r.physical shardIndex)

/-- A logical index that routes to each physical pool: the first of its range. -/
def physicalToFirstLogical (r : Router) (physicalCount : Nat) : List UInt8 :=
  let per := r.logicalCount.toNat / physicalCount
  (List.range physicalCount).map fun i => (i * per).toUInt8

theorem physical_lt (r : Router) (i : UInt8) (h : i < r.logicalCount) :
    r.physical i < r.pools := by
  have hi : i.toNat < r.logicalCount.toNat := UInt8.lt_iff_toNat_lt.mp h
  unfold physical
  rw [Nat.div_lt_iff_lt_mul (by omega), Nat.mul_comm]
  exact Nat.mul_lt_mul_of_pos_left hi r.pools_pos

theorem forIndex_ok {r : Router} {i : UInt8} {p : Nat} (h : r.forIndex i = .ok p) :
    p = r.physical i ∧ p < r.pools := by
  unfold forIndex at h
  split at h
  · cases h
  · next hlt =>
    obtain rfl := Except.ok.inj h
    exact ⟨rfl, r.physical_lt i (UInt8.not_le.mp hlt)⟩

theorem forIndex_of_lt {r : Router} {i : UInt8} (h : i < r.logicalCount) :
    r.forIndex i = .ok (r.physical i) := by
  unfold forIndex
  rw [if_neg (UInt8.not_le.mpr h)]

/-- The table has an entry for every logical index below the count, and `For` returns it. -/
theorem getElem?_logicalToDB {r : Router} {i : UInt8} (h : i < r.logicalCount) :
    r.logicalToDB[i.toNat]? = some (r.physical i) := by
  have hi : i.toNat < r.logicalCount.toNat := UInt8.lt_iff_toNat_lt.mp h
  unfold logicalToDB
  rw [List.getElem?_map, List.getElem?_range hi, Option.map_some, Nat.toUInt8_eq, UInt8.ofNat_toNat]

/-- The number of logical indices of a pool. -/
def per (r : Router) : Nat := r.logicalCount.toNat / r.pools

theorem logicalCount_eq (r : Router) : r.logicalCount.toNat = r.pools * r.per :=
  (Nat.mul_div_cancel' r.pools_dvd).symm

theorem per_pos (r : Router) : 0 < r.per :=
  Nat.div_pos r.pools_le r.pools_pos

/-- **Ranges.**  Pool `k` has the logical indices from `k * per` up to the first of the next pool. -/
theorem physical_eq_iff {r : Router} {i : UInt8} {k : Nat} :
    r.physical i = k ↔ k * r.per ≤ i.toNat ∧ i.toNat < (k + 1) * r.per := by
  have hdiv : r.physical i = i.toNat / r.per := by
    unfold physical
    rw [r.logicalCount_eq, Nat.mul_comm, Nat.mul_div_mul_left _ _ r.pools_pos]
  rw [hdiv, Nat.div_eq_iff r.per_pos, Nat.add_mul, Nat.one_mul]
  have := r.per_pos
  omega

theorem forIndex_ok_iff {r : Router} {i : UInt8} {k : Nat} (hk : k < r.pools) :
    r.forIndex i = .ok k ↔ k * r.per ≤ i.toNat ∧ i.toNat < (k + 1) * r.per := by
  constructor
  · intro h
    exact physical_eq_iff.mp (forIndex_ok h).1.symm
  · intro h
    have hlast : (k + 1) * r.per ≤ r.logicalCount.toNat := by
      rw [r.logicalCount_eq]
      exact Nat.mul_le_mul_right _ hk
    have hlt : i < r.logicalCount := UInt8.lt_iff_toNat_lt.mpr (by omega)
    rw [forIndex_of_lt hlt, physical_eq_iff.mpr h]

theorem getElem?_firstLogical {r : Router} {k : Nat} (hk : k < r.pools) :
    (r.physicalToFirstLogical r.pools)[k]? = some (k * r.per).toUInt8 := by
  unfold physicalToFirstLogical
  rw [List.getElem?_map, List.getElem?_range hk]
  rfl

/-- The first logical index of a pool routes to it. -/
theorem forIndex_firstLogical {r : Router} {k : Nat} (hk : k < r.pools) :
    r.forIndex ((r.physicalToFirstLogical r.pools).getD k 0) = .ok k := by
  have hlast : (k + 1) * r.per ≤ r.logicalCount.toNat := by
    rw [r.logicalCount_eq]
    exact Nat.mul_le_mul_right _ hk
  rw [Nat.add_mul, Nat.one_mul] at hlast
  have hmax := r.logicalCount.toNat_lt
  have hpos := r.per_pos
  -- a logical index fits a byte
  have hnat : ((k * r.per).toUInt8).toNat = k * r.per := by
    rw [Nat.toUInt8_eq, UInt8.toNat_ofNat']
    exact Nat.mod_eq_of_lt (by omega)
  rw [List.getD_eq_getElem?_getD, getElem?_firstLogical hk, Option.getD_some, forIndex_ok_iff hk, hnat,
    Nat.add_mul, Nat.one_mul]
  omega

/-- One pool for every logical shard. -/
def single : Router := ⟨1, 1, by decide, by decide, by decide⟩

end Router

end EasyPay
