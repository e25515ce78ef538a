import EasyPay.Lib.Partition
import EasyPay.Repository.Scatter
import EasyPay.Repository.Snapshot

/-!
# One table instead of many

The `transactions` table is kept in pools, each merchant's rows in the pool of the merchant's
logical shard.  `Router.onePool` is the router of the legacy deployment with a single DSN and the
same number of logical shards.  Let the pools be the parts of one table (`Split`).  Then every
method of the repository answers from the pools what it could answer from the one table, and
leaves the pools parts of what it would leave there.

* `insert_split`, `updateOrder_split`: the statements that write.
* `getByTransactionID_split`, `getByMerchantOrderID_split`: the lookups in one pool.
* `scatterFirst_split`, `getPendingBefore_split`: the queries to all pools; the single table may be
  asked for the row, and the order among ties, that the pools came up with.

Only the shard index on a transaction tells the two apart.
-/

namespace EasyPay

open GoStrings Tables

/-- All logical shards on one pool. -/
def Router.onePool (r : Router) : Router where
  logicalCount := r.logicalCount
  pools := 1
  pools_pos := Nat.one_pos
  pools_le := Nat.succ_le_of_lt (r.pools_pos.trans_le r.pools_le)
  pools_dvd := Nat.one_dvd _

namespace Router

/-- It is what `OpenShards` makes of the legacy configuration without a list of shards. -/
theorem openShards_legacy (r : Router) : openShards 0 r.logicalCount = .ok r.onePool := by
  have hpos : 0 < r.logicalCount.toNat := r.pools_pos.trans_le r.pools_le
  have hne : r.logicalCount ≠ 0 := by
    intro h
    rw [h] at hpos
    exact absurd hpos (by decide)
  have hle : (if (0 : Nat) = 0 then 1 else 0) ≤ r.logicalCount.toNat := by
    rw [if_pos rfl]
    exact hpos
  have hdvd : r.logicalCount.toNat % (if (0 : Nat) = 0 then 1 else 0) = 0 := by
    rw [if_pos rfl]
    exact Nat.mod_one _
  obtain ⟨r', hr'⟩ := exists_openShards hne hle hdvd
  obtain ⟨hL, hP⟩ := openShards_ok hr'
  rw [hr']
  obtain ⟨L, P, _, _, _⟩ := r'
  cases hL
  cases hP
  rfl

theorem onePool_forIndex {r : Router} {i : UInt8} (h : i < r.logicalCount) :
    r.onePool.forIndex i = .ok 0 := by
  have hi : i.toNat < r.logicalCount.toNat := UInt8.lt_iff_toNat_lt.mp h
  have hlt : i < r.onePool.logicalCount := h
  rw [forIndex_of_lt hlt]
  congr 1
  show i.toNat * 1 / r.logicalCount.toNat = 0
  rw [Nat.mul_one]
  exact Nat.div_eq_of_lt hi

theorem lt_of_forIndex {r : Router} {i : UInt8} {p : Nat} (h : r.forIndex i = .ok p) :
    i < r.logicalCount := by
  unfold forIndex at h
  split at h
  · cases h
  · next hlt => exact UInt8.not_le.mp hlt

theorem onePool_of_forIndex {r : Router} {i : UInt8} {p : Nat} (h : r.forIndex i = .ok p) :
    r.onePool.forIndex i = .ok 0 := onePool_forIndex (lt_of_forIndex h)

theorem onePool_firstLogical (r : Router) :
    (r.onePool.physicalToFirstLogical r.onePool.pools).getD 0 0 = 0 := by
  show ((List.range 1).map fun i => (i * (r.logicalCount.toNat / 1)).toUInt8).getD 0 0 = 0
  simp

end Router

namespace TransactionRepo

def unsharded (R : TransactionRepo) : TransactionRepo := { R with router := R.router.onePool }

variable {R : TransactionRepo} {pool : Str → Nat} {db one : Pools}

/-- The pool of a row. -/
def home (pool : Str → Nat) (r : Row) : Nat := pool r.merchantID

/-! ## Transactions up to their shard -/

@[simp] theorem withShard_withShard (x y : UInt8) (t : Transaction) :
    withShard x (withShard y t) = withShard x t := rfl

/-- The same answer, apart from the shard index of the row. -/
inductive SameRow : Res Transaction → Res Transaction → Prop
  | error (e : Err) : SameRow (.error e) (.error e)
  | ok {t t' : Transaction} : withShard 0 t = withShard 0 t' → SameRow (.ok t) (.ok t')

theorem SameRow.map_withShard (x y : UInt8) (a : Res Transaction) :
    SameRow (a.map (withShard x)) (a.map (withShard y)) := by
  cases a with
  | error e => exact .error e
  | ok t => exact .ok rfl

/-! ## One pool -/

/-- A clause that fixes the merchant, up to the comparison of the database, fixes the pool. -/
theorem queryRow_split (h : Split (home pool) (one 0) db) {cond : Row → Bool} {p : Nat}
    (hcond : ∀ r, cond r = true → home pool r = p) (fault : Option Fault) (pick : Nat) :
    queryRow fault pick cond (db p) = queryRow fault pick cond (one 0) := by
  unfold queryRow selectOne
  rw [h.filter_eq hcond]

theorem home_of_ofOrder (hcongr : ∀ m m', R.collation.eq m m' = true → pool m = pool m')
    {m o : Str} {r : Row} (h : R.ofOrder m o r = true) : home pool r = pool m := by
  unfold ofOrder at h
  rw [Bool.and_eq_true] at h
  exact hcongr _ _ h.1

theorem getByTransactionID_split (hcongr : ∀ m m', R.collation.eq m m' = true → pool m = pool m')
    (h : Split (home pool) (one 0) db) {i : UInt8} {m : Str}
    (hi : R.router.forIndex i = .ok (pool m)) (fault : Option Fault) (pick : Nat) (txn : Str) :
    R.getByTransactionID fault pick i m txn db =
      R.unsharded.getByTransactionID fault pick i m txn one := by
  have hone : R.unsharded.router.forIndex i = .ok 0 := Router.onePool_of_forIndex hi
  unfold getByTransactionID
  rw [hi, hone]
  simp only
  split
  · rfl
  · next id _ =>
    rw [queryRow_split h]
    · rfl
    · intro r hr
      rw [Bool.and_eq_true] at hr
      exact hcongr _ _ hr.1

/-- The two may be asked under different indices. -/
theorem getByMerchantOrderID_split
    (hcongr : ∀ m m', R.collation.eq m m' = true → pool m = pool m')
    (h : Split (home pool) (one 0) db) {i i' : UInt8} {m : Str}
    (hi : R.router.forIndex i = .ok (pool m)) (hi' : i' < R.router.logicalCount)
    (fault : Option Fault) (pick : Nat) (o : Str) :
    SameRow (R.getByMerchantOrderID fault pick i m o db)
        (R.unsharded.getByMerchantOrderID fault pick i' m o one) ∧
      (i = i' → R.getByMerchantOrderID fault pick i m o db =
        R.unsharded.getByMerchantOrderID fault pick i' m o one) := by
  have hone : R.unsharded.router.forIndex i' = .ok 0 := Router.onePool_forIndex hi'
  have hquery : queryRow fault pick (R.ofOrder m o) (db (pool m)) =
      queryRow fault pick (R.unsharded.ofOrder m o) (one 0) :=
    queryRow_split h (fun r hr => home_of_ofOrder hcongr hr) fault pick
  unfold getByMerchantOrderID
  rw [hi, hone]
  cases validateOrderID o with
  | error e => exact ⟨.error e, fun _ => rfl⟩
  | ok _ =>
    simp only [hquery]
    refine ⟨SameRow.map_withShard i i' _, ?_⟩
    rintro rfl
    rfl

/-- **Updates** of one order. -/
theorem updateOrder_split (hcongr : ∀ m m', R.collation.eq m m' = true → pool m = pool m')
    (h : Split (home pool) (one 0) db) {i i' : UInt8} {m : Str}
    (hi : R.router.forIndex i = .ok (pool m)) (hi' : i' < R.router.logicalCount) {f : Row → Row}
    (hf : ∀ r, (f r).merchantID = r.merchantID) (op : Str) (fault : Option Fault) (o : Str) :
    (R.updateOrder op fault i m o f db).1 = (R.unsharded.updateOrder op fault i' m o f one).1 ∧
      Split (home pool) ((R.unsharded.updateOrder op fault i' m o f one).2 0)
        (R.updateOrder op fault i m o f db).2 ∧
      ∀ r' ∈ (R.unsharded.updateOrder op fault i' m o f one).2 0,
        ∃ r ∈ one 0, r' = r ∨ r' = f r := by
  have hone : R.unsharded.router.forIndex i' = .ok 0 := Router.onePool_forIndex hi'
  have hany : (db (pool m)).any (R.ofOrder m o) = (one 0).any (R.unsharded.ofOrder m o) :=
    h.any_eq fun r hr => home_of_ofOrder hcongr hr
  have hsame : ∀ r ∈ one 0, ∃ r₀ ∈ one 0, r = r₀ ∨ r = f r₀ := fun r hr => ⟨r, hr, .inl rfl⟩
  unfold updateOrder
  rw [hi, hone]
  cases validateOrderID o with
  | error e => exact ⟨rfl, h, hsame⟩
  | ok _ =>
    cases fault with
    | some g => exact ⟨rfl, h, hsame⟩
    | none =>
      simp only [hany]
      split
      · refine ⟨rfl, ?_, ?_⟩
        · simp only [Function.update_self]
          exact h.updateWhere (fun r hr => home_of_ofOrder hcongr hr) fun r => by
            unfold home
            rw [hf]
        · intro r' hr'
          simp only [Function.update_self] at hr'
          obtain ⟨r, hr, rfl⟩ := mem_updateWhere.mp hr'
          refine ⟨r, hr, ?_⟩
          split
          · exact .inr rfl
          · exact .inl rfl
      · exact ⟨rfl, h, hsame⟩

/-- **INSERT.**  The unique key is checked in one pool; that is as good as in all of them if a taken
id is taken in the same pool. -/
theorem insert_split (h : Split (home pool) (one 0) db) {t : Transaction}
    (hi : R.router.forIndex t.shardIndex = .ok (pool t.merchantID)) (now : Time)
    (hids : ∀ row, R.row now t = .ok row → ∀ r ∈ one 0, r.transactionID = row.transactionID →
      home pool r = home pool row) (fault : Option Fault) :
    (R.insert now fault t db).1 = (R.unsharded.insert now fault t one).1 ∧
      Split (home pool) ((R.unsharded.insert now fault t one).2 0) (R.insert now fault t db).2 ∧
      ∀ r' ∈ (R.unsharded.insert now fault t one).2 0, r' ∈ one 0 ∨ R.row now t = .ok r' := by
  have hone : R.unsharded.router.forIndex t.shardIndex = .ok 0 := Router.onePool_of_forIndex hi
  have hrow : R.unsharded.row now t = R.row now t := rfl
  have hsame : ∀ r' ∈ one 0, r' ∈ one 0 ∨ R.row now t = .ok r' := fun r hr => .inl hr
  unfold insert
  rw [hrow, hi, hone]
  cases hr : R.row now t with
  | error e => exact ⟨rfl, h, fun r hr => .inl hr⟩
  | ok row =>
    have hm : home pool row = pool t.merchantID := by
      unfold home
      rw [(R.row_stored hr).merchantID]
    have htaken : insertUnique Row.transactionID row (db (pool t.merchantID)) = none ↔
        insertUnique Row.transactionID row (one 0) = none := by
      rw [insertUnique_eq_none, insertUnique_eq_none]
      constructor
      · rintro ⟨y, hy, hk⟩
        exact ⟨y, (h.mem_iff.mp hy).1, hk⟩
      · rintro ⟨y, hy, hk⟩
        exact ⟨y, h.mem_iff.mpr ⟨hy, (hids row hr y hy hk).trans hm⟩, hk⟩
    cases fault with
    | some g => exact ⟨rfl, h, fun r hr => .inl hr⟩
    | none =>
      cases hins : insertUnique Row.transactionID row (db (pool t.merchantID)) with
      | none =>
        simp only [hins, htaken.mp hins]
        exact ⟨trivial, h, fun r hr => .inl hr⟩
      | some table =>
        cases hins' : insertUnique Row.transactionID row (one 0) with
        | none => cases hins.symm.trans (htaken.mpr hins')
        | some table' =>
          obtain ⟨-, rfl⟩ := insertUnique_eq_some.mp hins
          obtain ⟨-, rfl⟩ := insertUnique_eq_some.mp hins'
          simp only [hins, hins', Function.update_self]
          refine ⟨trivial, ?_, ?_⟩
          · have := h.concat row
            rwa [hm] at this
          · intro r' hr'
            rcases List.mem_append.mp hr' with hr' | hr'
            · exact .inl hr'
            · rw [List.mem_singleton] at hr'
              exact .inr (by rw [hr'])

/-! ## All pools -/

/-- A row found in one of the pools, and the same row found in the one table. -/
inductive Found (R : TransactionRepo) (pool : Str → Nat) : Res Transaction → Res Transaction → Prop
  | error (e : Err) : Found R pool (.error e) (.error e)
  | ok {t : Transaction} : R.router.forIndex t.shardIndex = .ok (pool t.merchantID) →
      Found R pool (.ok t) (.ok (withShard 0 t))

/-- A query that fails, or finds nothing. -/
theorem queryRow_error {fault : Option Fault} {pick : Nat} {cond : Row → Bool} {table : List Row}
    {e : Err} (h : queryRow fault pick cond table = .error e) :
    (∃ f, fault = some f ∧ e = .wrap (bytes "scan transaction: ") (.new f.msg)) ∨
      (fault = none ∧ e = .of .notFound ∧ ∀ r ∈ table, cond r = false) := by
  unfold queryRow at h
  split at h
  · next f =>
    cases h
    exact .inl ⟨f, rfl, rfl⟩
  · split at h
    · next hsel =>
      cases h
      exact .inr ⟨rfl, rfl, selectOne_none.mp hsel⟩
    · next r _ =>
      -- a stored row is read without an error
      rw [scanTransaction_eq] at h
      cases h

/-- The single pool's answer is passed on. -/
theorem scatterFirst_onePool (fault : Option Fault) (pick : Nat) (cond : Row → Bool) :
    R.unsharded.scatterFirst (fun _ => fault) (fun _ => pick) [] cond one =
      (queryRow fault pick cond (one 0)).map (withShard 0) := by
  have hfirst := R.router.onePool_firstLogical
  show gather (receive (R.router.onePool.physicalToFirstLogical R.router.onePool.pools) 1
    [(0, queryRow fault pick cond (one 0))] 0 none) = _
  unfold receive
  cases hq : queryRow fault pick cond (one 0) with
  | ok t =>
    simp only [hfirst]
    rfl
  | error e =>
    simp only
    cases he : e.is .notFound with
    | false =>
      simp [receive, gather, Except.map]
    | true =>
      rcases queryRow_error hq with ⟨f, -, rfl⟩ | ⟨-, rfl, -⟩
      · cases he
      · simp [receive, gather, Except.map]

/-- **`scatterFirst`.** -/
theorem scatterFirst_split (h : Split (home pool) (one 0) db)
    (hlt : ∀ r ∈ one 0, home pool r < R.router.pools) (faults : Nat → Option Fault)
    (pick : Nat → Nat) (arrival : List Nat) (cond : Row → Bool) :
    ∃ fault pick', Found R pool (R.scatterFirst faults pick arrival cond db)
      (R.unsharded.scatterFirst (fun _ => fault) (fun _ => pick') [] cond one) := by
  have hclass := scatterFirst_classified R faults pick arrival cond db
  have hone : ∀ fault pick', R.unsharded.scatterFirst (fun _ => fault) (fun _ => pick') [] cond one =
      (queryRow fault pick' cond (one 0)).map (withShard 0) :=
    fun fault pick' => scatterFirst_onePool fault pick' cond
  simp only [hone]
  generalize R.scatterFirst faults pick arrival cond db = res at hclass ⊢
  by_cases hrow : ∃ i < R.router.pools, ∃ t, queryRow (faults i) (pick i) cond (db i) = .ok t
  · -- some pool has the row: ask the table for that one
    obtain ⟨t, ht⟩ := hclass.row_iff.mpr hrow
    obtain ⟨-, i, hi, t', ht', rfl⟩ := hclass.row t ht
    obtain ⟨r, hr, hcond, hscan⟩ := queryRow_ok ht'
    obtain ⟨hrone, hhome⟩ := h.mem_iff.mp hr
    obtain ⟨n, hn⟩ := exists_pickFrom (List.mem_filter.mpr ⟨hrone, hcond⟩)
    refine ⟨none, n, ?_⟩
    have hquery : queryRow none n cond (one 0) = .ok t' := by
      unfold queryRow selectOne
      simp only [hn, hscan]
    rw [hquery]
    cases results_row ht
    refine .ok ?_
    rw [show (withShard ((R.router.physicalToFirstLogical R.router.pools).getD i 0) t').merchantID =
      t'.merchantID from rfl, (scanTransaction_ok hscan).1]
    exact (Router.forIndex_firstLogical hi).trans (by rw [← hhome]; rfl)
  · have hno : ∀ i < R.router.pools, ∀ t, queryRow (faults i) (pick i) cond (db i) ≠ .ok t :=
      fun i hi t ht => hrow ⟨i, hi, t, ht⟩
    by_cases hmiss : ∀ i < R.router.pools, Missed (queryRow (faults i) (pick i) cond (db i))
    · -- no pool has it
      have hres := hclass.notFound_iff.mpr hmiss
      refine ⟨none, 0, ?_⟩
      have hquery : queryRow none 0 cond (one 0) = .error (.of .notFound) := by
        have hsel : selectOne 0 cond (one 0) = none := by
          rw [selectOne_none]
          intro r hr
          obtain ⟨e, he, hnf⟩ := hmiss _ (hlt r hr)
          rcases queryRow_error he with ⟨f, -, rfl⟩ | ⟨-, -, hnone⟩
          · cases hnf
          · exact hnone r (h.mem_own hr)
        unfold queryRow
        simp only [hsel]
      rw [hquery, results_failed hres]
      exact .error _
    · -- a pool has failed: so may the table
      obtain ⟨i, hi⟩ := not_forall.mp hmiss
      obtain ⟨hi, hmiss⟩ := Classical.not_imp.mp hi
      obtain ⟨e, hres, hother, before, j, after, harr, -⟩ := hclass.failure hno ⟨i, hi, hmiss⟩
      have hmem : (j, .error e) ∈ arrived R faults pick arrival cond db := by
        rw [harr]
        simp
      obtain ⟨hj, he⟩ := (mem_answers (shuffle_perm _ _)).mp hmem
      rcases queryRow_error he.symm with ⟨f, -, rfl⟩ | ⟨-, rfl, -⟩
      rotate_left
      · cases hother
      refine ⟨some f, 0, ?_⟩
      rw [results_failed hres]
      exact .error _

/-! ## Stuck orders -/

/-- Sorting leaves alone what is sorted. -/
theorem sortTransactionsByCreatedAt_of_older {ts : List Transaction} (h : ts.Pairwise Older) :
    sortTransactionsByCreatedAt ts = ts := by
  have hfold : ∀ (ts sorted : List Transaction), (sorted.reverse ++ ts).Pairwise Older →
      ts.foldl (fun sorted b => sinkBack b sorted) sorted = ts.reverse ++ sorted := by
    intro ts
    induction ts with
    | nil => exact fun sorted _ => rfl
    | cons b ts ih =>
      intro sorted h
      have hsink : sinkBack b sorted = b :: sorted := by
        cases sorted with
        | nil => rfl
        | cons a rest =>
          have hab : Older a b := (List.pairwise_append.mp h).2.2 a (by simp) b (by simp)
          unfold sinkBack
          exact if_pos hab
      rw [List.foldl_cons, hsink, ih (b :: sorted)]
      · simp
      · simpa using h
  unfold sortTransactionsByCreatedAt
  rw [hfold ts [] (by simpa using h)]
  simp

/-- The stuck orders of the pools, and the same ones listed from the one table. -/
inductive SameList (R : TransactionRepo) (pool : Str → Nat) :
    Res (List Transaction) → Res (List Transaction) → Prop
  | error (e e' : Err) : SameList R pool (.error e) (.error e')
  | ok {ts : List Transaction} :
      (∀ t ∈ ts, R.router.forIndex t.shardIndex = .ok (pool t.merchantID)) →
      SameList R pool (.ok ts) (.ok (ts.map (withShard 0)))

theorem withShard_shown (i : Nat) (r : Row) :
    withShard 0 (R.shown i r) = R.unsharded.shown 0 r := by
  unfold shown
  rw [withShard_withShard]
  show withShard 0 (scanned r) =
    withShard ((R.router.onePool.physicalToFirstLogical R.router.onePool.pools).getD 0 0) (scanned r)
  rw [R.router.onePool_firstLogical]

/-- The table may list the rows that a snapshot of the pools shows, in that order. -/
theorem exists_pendingRows (h : Split (home pool) (one 0) db)
    (hlt : ∀ r ∈ one 0, home pool r < R.router.pools) {before : Time} {limit : Nat}
    {ts : List Transaction} (hold : OldestStuck R before limit db ts) :
    ∃ ties, ts.map (withShard 0) =
      (pendingRows ties before limit (one 0)).map (R.unsharded.shown 0) := by
  obtain ⟨taken, omitted, hperm, rfl, hmin⟩ := hold.rows
  -- the rows of the snapshot first, then the others by age
  have hall : (taken.map Prod.snd ++ omitted.map Prod.snd).Perm ((one 0).filter (stuck before)) := by
    have hrows : ((R.allRows db).map Prod.snd).Perm (one 0) := by
      unfold allRows
      rw [List.map_flatMap]
      simp only [List.map_map, Function.comp_def, List.map_id']
      exact h.perm hlt
    rw [← List.map_append]
    refine (hperm.map _).trans ?_
    rw [show (fun x : Nat × Row => stuck before x.2) = stuck before ∘ Prod.snd from rfl,
      ← List.filter_map]
    exact hrows.filter _
  have hage : Std.Total fun a b : Row => a.createdAt ≤ b.createdAt := ⟨fun a b => le_total _ _⟩
  have htrans : IsTrans Row fun a b : Row => a.createdAt ≤ b.createdAt := ⟨fun a b c => le_trans⟩
  have hsorted : (taken.map Prod.snd ++ (omitted.map Prod.snd).insertionSort
      fun a b => a.createdAt ≤ b.createdAt).Pairwise fun a b => a.createdAt ≤ b.createdAt := by
    refine List.pairwise_append.mpr ⟨?_, List.pairwise_insertionSort _ _, ?_⟩
    · have := hold.sorted.imp Older.createdAt_le
      rw [List.pairwise_map] at this ⊢
      simpa only [shown_createdAt] using this
    · intro a ha b hb
      rw [List.mem_insertionSort] at hb
      obtain ⟨x, hx, rfl⟩ := List.mem_map.mp ha
      obtain ⟨y, hy, rfl⟩ := List.mem_map.mp hb
      exact not_lt.mp (hmin x hx y hy)
  have hcut : taken.map Prod.snd = (taken.map Prod.snd ++ (omitted.map Prod.snd).insertionSort
      fun a b => a.createdAt ≤ b.createdAt).take limit := by
    have hlen := hold.length
    rw [List.length_map, List.countP_eq_length_filter, ← hperm.length_eq, List.length_append] at hlen
    rw [List.take_append, List.length_map]
    have htake : limit - taken.length = 0 ∨ omitted = [] := by
      rcases Nat.eq_zero_or_pos omitted.length with hzero | hpos
      · exact .inr (List.length_eq_zero_iff.mp hzero)
      · exact .inl (by omega)
    rw [List.take_of_length_le (by rw [List.length_map]; omega)]
    rcases htake with hzero | rfl
    · rw [hzero, List.take_zero, List.append_nil]
    · simp
  obtain ⟨ties, hties⟩ := answers_iff.mp ⟨_, ((List.perm_insertionSort _ _).append_left _).trans hall,
    hsorted, hcut⟩
  refine ⟨ties, ?_⟩
  rw [hties, List.map_map, List.map_map]
  exact List.map_congr_left fun x _ => withShard_shown x.1 x.2

/-- **`GetPendingBefore`.** -/
theorem getPendingBefore_split (h : Split (home pool) (one 0) db)
    (hlt : ∀ r ∈ one 0, home pool r < R.router.pools) (faults : Nat → Option Fault)
    (ties : Nat → List Nat) (arrival : List Nat) (before : Time) (limit : Int) :
    ∃ fault ties', SameList R pool (R.getPendingBefore faults ties arrival before limit db)
      (R.unsharded.getPendingBefore (fun _ => fault) (fun _ => ties') [] before limit one) := by
  by_cases hlimit : 0 < limit
  · cases hres : R.getPendingBefore faults ties arrival before limit db with
    | error e =>
      -- a pool has failed: so may the table
      have hfault : ∃ i f, faults i = some f := by
        by_contra hnone
        have hf : ∀ i < R.router.pools, faults i = none := by
          intro i _
          cases hi : faults i with
          | none => rfl
          | some f => exact absurd ⟨i, f, hi⟩ hnone
        rw [getPendingBefore_eq hf hlimit] at hres
        cases hres
      obtain ⟨i, f, -⟩ := hfault
      refine ⟨some f, [], ?_⟩
      cases hone : R.unsharded.getPendingBefore (fun _ => some f) (fun _ => []) [] before limit one with
      | error e' => exact .error e e'
      | ok ts => cases no_fault_of_ok hone hlimit 0 R.router.onePool.pools_pos
    | ok ts =>
      rw [getPendingBefore_eq (no_fault_of_ok hres hlimit) hlimit] at hres
      cases hres
      have hold : OldestStuck R before limit.toNat db
        (R.snapshot ties arrival before limit.toNat db) := snapshot_oldest
      obtain ⟨ties', hties⟩ := exists_pendingRows h hlt hold
      refine ⟨none, ties', ?_⟩
      rw [getPendingBefore_eq (fun _ _ => rfl) hlimit]
      have hone : R.unsharded.snapshot (fun _ => ties') [] before limit.toNat one =
          (R.snapshot ties arrival before limit.toNat db).map (withShard 0) := by
        have hmerged : R.unsharded.merged (fun _ => ties') [] before limit.toNat one =
            (pendingRows ties' before limit.toNat (one 0)).map (R.unsharded.shown 0) := by
          show [0].flatMap _ = _
          exact List.flatMap_singleton _ _
        unfold snapshot at hties ⊢
        rw [hmerged, ← hties, sortTransactionsByCreatedAt_of_older, List.take_of_length_le]
        · rw [List.length_map]
          exact List.length_take_le _ _
        · rw [List.pairwise_map]
          exact hold.sorted.imp fun hab => hab
      rw [hone]
      refine .ok fun t ht => ?_
      obtain ⟨i, r, hi, hr, -, rfl⟩ := mem_snapshot ht
      obtain ⟨hroute, hm, -⟩ := R.shown_spec hi r
      rw [hroute, hm, ← (h.mem_iff.mp hr).2]
      rfl
  · refine ⟨none, [], ?_⟩
    unfold getPendingBefore
    rw [if_pos (not_lt.mp hlimit), if_pos (not_lt.mp hlimit)]
    have hnil : SameList R pool (.ok []) (.ok ([].map (withShard 0))) := .ok fun t ht => by cases ht
    exact hnil

end TransactionRepo

end EasyPay
