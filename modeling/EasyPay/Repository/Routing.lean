import EasyPay.Config
import EasyPay.Repository.Snapshot

/-!
# Routing

A query that has no merchant to go by asks every pool.  It marks what it finds with a logical shard
index, and the updates that follow are routed by that index.

* `Addresses`: both updates run on the pool a shard index routes to.
* `rows_route_back`: whatever is read from a pool is written back to it, and whatever is inserted is
  found again, for all counts that `OpenShards` accepts.
-/

namespace EasyPay

open GoStrings Tables

namespace TransactionRepo

section
variable (R : TransactionRepo)

/-- With the shard index `x` both updates run on pool `k`, whatever is stored there. -/
structure Addresses (x : UInt8) (k : Nat) : Prop where
  updateStatus : ∀ (now : Time) (m o : Str) (st : TransactionStatus) (pi : Str) (db : Pools),
    ValidOrderID o → (∃ r ∈ db k, R.ofOrder m o r = true) →
    R.updateStatus now none x m o st pi db =
      (.ok (), Function.update db k (updateWhere (R.ofOrder m o) (setStatus now st pi) (db k)))
  updateCheckout : ∀ (now : Time) (m o sess pi : Str) (db : Pools),
    ValidOrderID o → (∃ r ∈ db k, R.ofOrder m o r = true) →
    R.updateCheckout now none x m o sess pi db =
      (.ok (), Function.update db k (updateWhere (R.ofOrder m o) (setCheckout now sess pi) (db k)))

/-- The transaction was read from a row of a pool that its shard index addresses. -/
def ReadBack (db : Pools) (t : Transaction) : Prop :=
  ∃ k < R.router.pools, ∃ r ∈ db k, ∃ t', scanTransaction r = .ok t' ∧
    t = withShard t.shardIndex t' ∧ R.Addresses t.shardIndex k

end

variable {R : TransactionRepo}

theorem addresses_of_forIndex {x : UInt8} {k : Nat} (h : R.router.forIndex x = .ok k) :
    R.Addresses x k := by
  constructor
  · rintro now m o st pi db hv ⟨r, hr, hof⟩
    exact R.updateOrder_of_row h hv hr hof _ _
  · rintro now m o sess pi db hv ⟨r, hr, hof⟩
    exact R.updateOrder_of_row h hv hr hof _ _

theorem ReadBack.of_withShard {db : Pools} {k : Nat} {r : Row} {t' : Transaction} {x : UInt8}
    (hk : k < R.router.pools) (hr : r ∈ db k) (hscan : scanTransaction r = .ok t')
    (hx : R.router.forIndex x = .ok k) : R.ReadBack db (withShard x t') :=
  ⟨k, hk, r, hr, t', hscan, rfl, addresses_of_forIndex hx⟩

theorem readBack_getByOrderIDAny {faults : Nat → Option Fault} {pick : Nat → Nat}
    {arrival : List Nat} {o : Str} {db : Pools} {t : Transaction}
    (h : R.getByOrderIDAny faults pick arrival o db = .ok t) : R.ReadBack db t := by
  obtain ⟨-, k, r, t', x, hk, hr, -, hscan, rfl, hx⟩ := R.getByOrderIDAny_ok h
  exact .of_withShard hk hr hscan hx

theorem readBack_getByPaymentIntentID {faults : Nat → Option Fault} {pick : Nat → Nat}
    {arrival : List Nat} {pi : Str} {db : Pools} {t : Transaction}
    (h : R.getByPaymentIntentID faults pick arrival pi db = .ok t) : R.ReadBack db t := by
  unfold getByPaymentIntentID at h
  split at h
  · cases h
  · obtain ⟨k, r, t', x, hk, hr, -, hscan, rfl, hx⟩ := R.scatterFirst_ok h
    exact .of_withShard hk hr hscan hx

theorem readBack_getPendingBefore {faults : Nat → Option Fault} {ties : Nat → List Nat}
    {arrival : List Nat} {before : Time} {limit : Int} {db : Pools} {ts : List Transaction}
    (h : R.getPendingBefore faults ties arrival before limit db = .ok ts) {t : Transaction}
    (ht : t ∈ ts) : R.ReadBack db t := by
  obtain ⟨k, r, t', x, hk, hr, -, hscan, rfl, hx⟩ := getPendingBefore_ok h ht
  exact .of_withShard hk hr hscan hx

/-- **What is inserted is found again**, by its transaction id: no other row of the pool has it. -/
theorem getByTransactionID_insert {now : Time} {t : Transaction} {db db' : Pools}
    (h : R.insert now none t db = (.ok (), db')) (pick : Nat) :
    ∃ r k t', R.row now t = .ok r ∧ R.router.forIndex t.shardIndex = .ok k ∧ r ∈ db' k ∧
      scanTransaction r = .ok t' ∧
      R.getByTransactionID none pick t.shardIndex t.merchantID t.transactionID db' =
        .ok (withShard t.shardIndex t') := by
  rcases R.insert_cases now none t db with
    ⟨r, k, hrow, hk, -, hfresh, he⟩ | ⟨r, k, -, -, -, -, he⟩ | ⟨e, -, he⟩
  · obtain ⟨htxn, hm, -⟩ := R.row_ok hrow
    rw [he] at h
    obtain ⟨-, rfl⟩ := Prod.mk.inj h
    have hmem : r ∈ Function.update db k (db k ++ [r]) k := by
      rw [Function.update_self]
      exact List.mem_append_right _ (List.mem_singleton.mpr rfl)
    have hcond : (R.collation.eq r.merchantID t.merchantID && r.transactionID == r.transactionID) =
        true := by
      rw [hm, R.collation.refl, beq_self_eq_true]
      rfl
    obtain ⟨y, hy, hyc, hquery⟩ := queryRow_none (p := fun y =>
      R.collation.eq y.merchantID t.merchantID && y.transactionID == r.transactionID) pick hmem hcond
    -- the row that was found is the one inserted
    have hyr : y = r := by
      rw [Function.update_self] at hy
      rcases List.mem_append.mp hy with hold | hnew
      · simp only [Bool.and_eq_true, beq_iff_eq] at hyc
        exact absurd hyc.2 (hfresh y hold)
      · exact List.mem_singleton.mp hnew
    obtain ⟨t', hscan⟩ := exists_scanTransaction r
    refine ⟨r, k, t', hrow, hk, hmem, hscan, ?_⟩
    unfold getByTransactionID
    rw [hk, htxn]
    simp only
    rw [hquery, hyr, hscan]
    rfl
  · rw [he] at h
    cases h
  · rw [he] at h
    cases h

end TransactionRepo

open TransactionRepo

/-- **Rows route back.**  The table of `OpenShards` has an existing pool for every logical index;
every pool has `L / P` consecutive ones, and `physicalToFirstLogical` picks one of its own.  So an
order that was found in a pool is updated in that pool, and an inserted one is found again. -/
theorem rows_route_back {shards : Nat} {L : UInt8} {r : Router} (h : openShards shards L = .ok r) :
    r.logicalCount = L ∧ r.pools = (if shards = 0 then 1 else shards) ∧
    (∀ i < L, ∃ k < r.pools, r.logicalToDB[i.toNat]? = some k ∧ r.forIndex i = .ok k) ∧
    (∀ k < r.pools, ∀ i, r.forIndex i = .ok k ↔
      k * (L.toNat / r.pools) ≤ i.toNat ∧ i.toNat < (k + 1) * (L.toNat / r.pools)) ∧
    (∀ k < r.pools, ∃ x, (r.physicalToFirstLogical r.pools)[k]? = some x ∧ r.forIndex x = .ok k) ∧
    ∀ R : TransactionRepo, R.router = r →
      (∀ faults pick arrival o db t, R.getByOrderIDAny faults pick arrival o db = .ok t →
        R.ReadBack db t) ∧
      (∀ faults pick arrival pi db t, R.getByPaymentIntentID faults pick arrival pi db = .ok t →
        R.ReadBack db t) ∧
      (∀ faults ties arrival before limit db ts,
        R.getPendingBefore faults ties arrival before limit db = .ok ts →
        ∀ t ∈ ts, R.ReadBack db t) ∧
      ∀ now t db db', R.insert now none t db = (.ok (), db') → ∀ pick, ∃ row k t',
        R.row now t = .ok row ∧ R.router.forIndex t.shardIndex = .ok k ∧ row ∈ db' k ∧
        scanTransaction row = .ok t' ∧
        R.getByTransactionID none pick t.shardIndex t.merchantID t.transactionID db' =
          .ok (withShard t.shardIndex t') := by
  obtain ⟨rfl, hpools⟩ := openShards_ok h
  refine ⟨rfl, hpools, ?_, ?_, ?_, ?_⟩
  · intro i hi
    exact ⟨r.physical i, r.physical_lt i hi, Router.getElem?_logicalToDB hi, Router.forIndex_of_lt hi⟩
  · intro k hk i
    exact Router.forIndex_ok_iff hk
  · intro k hk
    have hfirst := Router.forIndex_firstLogical hk
    rw [List.getD_eq_getElem?_getD, Router.getElem?_firstLogical hk] at hfirst
    exact ⟨_, Router.getElem?_firstLogical hk, hfirst⟩
  · rintro R -
    refine ⟨?_, ?_, ?_, ?_⟩
    · intro faults pick arrival o db t hget
      exact readBack_getByOrderIDAny hget
    · intro faults pick arrival pi db t hget
      exact readBack_getByPaymentIntentID hget
    · intro faults ties arrival before limit db ts hget t ht
      exact readBack_getPendingBefore hget ht
    · intro now t db db' hinsert pick
      exact getByTransactionID_insert hinsert pick

/-- Sixteen logical shards on two pools. -/
def Router.two : Router := ⟨16, 2, Nat.two_pos, by decide, by decide⟩

theorem rows_route_back_two :
    openShards 2 16 = .ok Router.two ∧ Router.two.forIndex 7 = .ok 0 ∧
      Router.two.forIndex 8 = .ok 1 ∧
      ∃ x, (Router.two.physicalToFirstLogical 2)[1]? = some x ∧ Router.two.forIndex x = .ok 1 := by
  have hopen : openShards 2 16 = .ok Router.two := rfl
  obtain ⟨-, -, -, hranges, hfirst, -⟩ := rows_route_back hopen
  refine ⟨hopen, ?_, ?_, hfirst 1 (by decide)⟩
  · exact (hranges 0 (by decide) 7).mpr (by decide)
  · exact (hranges 1 (by decide) 8).mpr (by decide)

end EasyPay
