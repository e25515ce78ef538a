import EasyPay.Repository.TransactionRepo

/-!
# Snapshots of the stuck orders

`GetPendingBefore` asks every pool for its oldest open orders, up to the limit, and takes the
oldest of all answers.

* `getPendingBefore_eq`: the snapshot as a list, when no pool fails.
* `getPendingBefore_ok`: what a snapshot shows is a stuck row of one of the pools.
* `snapshot_countP`, `snapshot_countP_old`: a snapshot shows the oldest rows, as many as the limit
  allows.
* `snapshot_oldest`, `snapshot_arrival`: it is sorted, leaves out no older row, and does not depend
  on which pool answers first.
-/

namespace EasyPay

open GoStrings Tables

namespace TransactionRepo

/-! ## Scanning -/

/-- The transaction a stored row is read as. -/
def scanned (r : Row) : Transaction :=
  (scanTransaction r).toOption.get (by
    obtain ⟨t, ht⟩ := exists_scanTransaction r
    rw [ht]
    rfl)

theorem scanTransaction_eq (r : Row) : scanTransaction r = .ok (scanned r) := by
  obtain ⟨t, ht⟩ := exists_scanTransaction r
  unfold scanned
  simp only [ht]
  rfl

@[simp] theorem scanned_createdAt (r : Row) : (scanned r).createdAt = r.createdAt := by
  have h := scanTransaction_eq r
  unfold scanTransaction at h
  split at h
  · cases h
  split at h
  · cases h
  · rw [← Except.ok.inj h]

theorem scanAll_eq (rs : List Row) : scanAll rs = .ok (rs.map scanned) := by
  induction rs with
  | nil => rfl
  | cons r rs ih =>
    unfold scanAll
    rw [scanTransaction_eq, ih]
    rfl

/-! ## Putting the answers together -/

theorem collect_map_ok (tss : List (List Transaction)) : collect (tss.map .ok) = .ok tss.flatten := by
  induction tss with
  | nil => rfl
  | cons ts tss ih =>
    rw [List.map_cons]
    unfold collect
    rw [ih]
    rfl

/-- The whole answer is put together from answers without an error. -/
theorem collect_ok {answers : List (Res (List Transaction))} {all : List Transaction}
    (h : collect answers = .ok all) :
    ∃ tss : List (List Transaction), answers = tss.map .ok ∧ all = tss.flatten := by
  induction answers generalizing all with
  | nil =>
    cases h
    exact ⟨[], rfl, rfl⟩
  | cons a answers ih =>
    cases a with
    | error e => cases h
    | ok ts =>
      unfold collect at h
      split at h
      · cases h
      next rest hrest =>
      cases h
      obtain ⟨tss, rfl, rfl⟩ := ih hrest
      exact ⟨ts :: tss, rfl, rfl⟩

/-! ## Sorting -/

theorem sinkBack_perm (b : Transaction) (sorted : List Transaction) :
    (sinkBack b sorted).Perm (b :: sorted) := by
  induction sorted with
  | nil => exact .refl _
  | cons a rest ih =>
    unfold sinkBack
    split
    · exact .refl _
    · exact (ih.cons a).trans (.swap b a rest)

/-- Sorting keeps the transactions. -/
theorem sortTransactionsByCreatedAt_perm (txns : List Transaction) :
    (sortTransactionsByCreatedAt txns).Perm txns := by
  have hfold : ∀ (txns sorted : List Transaction),
      (txns.foldl (fun sorted b => sinkBack b sorted) sorted).Perm (sorted ++ txns) := by
    intro txns
    induction txns with
    | nil => simp
    | cons b txns ih =>
      intro sorted
      refine (ih (sinkBack b sorted)).trans ?_
      exact ((sinkBack_perm b sorted).append_right txns).trans List.perm_middle.symm
  exact (List.reverse_perm _).trans (hfold txns [])

/-- The order of the snapshot: by `created_at`, then by `transaction_id`. -/
def Older (a b : Transaction) : Prop :=
  a.createdAt < b.createdAt ∨ (a.createdAt = b.createdAt ∧ a.transactionID ≤ b.transactionID)

namespace Older
variable {a b c : Transaction}

theorem createdAt_le (h : Older a b) : a.createdAt ≤ b.createdAt := by
  rcases h with hlt | ⟨heq, -⟩
  · exact le_of_lt hlt
  · exact le_of_eq heq

theorem trans (hab : Older a b) (hbc : Older b c) : Older a c := by
  rcases hab with hlt | ⟨heq, hid⟩
  · exact .inl (hlt.trans_le hbc.createdAt_le)
  rcases hbc with hlt' | ⟨heq', hid'⟩
  · exact .inl (heq.trans_lt hlt')
  · exact .inr ⟨heq.trans heq', List.le_trans hid hid'⟩

theorem of_not (h : ¬ Older a b) : Older b a := by
  have hle : b.createdAt ≤ a.createdAt := not_lt.mp fun hlt => h (.inl hlt)
  rcases lt_or_eq_of_le hle with hlt | heq
  · exact .inl hlt
  · refine .inr ⟨heq, ?_⟩
    rcases List.le_total a.transactionID b.transactionID with hid | hid
    · exact absurd (.inr ⟨heq.symm, hid⟩) h
    · exact hid

/-- Two transactions that are older than each other have the same id. -/
theorem transactionID_eq (hab : Older a b) (hba : Older b a) : a.transactionID = b.transactionID := by
  have hle := hab.createdAt_le
  rcases hab with hlt | ⟨-, hid⟩
  · exact absurd hba.createdAt_le (not_le.mpr hlt)
  rcases hba with hlt' | ⟨-, hid'⟩
  · exact absurd hle (not_le.mpr hlt')
  · exact List.le_antisymm hid hid'

end Older

/-- The inner loop keeps the prefix in order, which is given back to front. -/
theorem sinkBack_sorted (b : Transaction) {sorted : List Transaction}
    (h : sorted.Pairwise fun x y => Older y x) : (sinkBack b sorted).Pairwise fun x y => Older y x := by
  induction sorted with
  | nil => exact List.pairwise_singleton _ b
  | cons a rest ih =>
    obtain ⟨ha, hrest⟩ := List.pairwise_cons.mp h
    unfold sinkBack
    split
    · next hab =>
      have hab : Older a b := hab
      refine List.pairwise_cons.mpr ⟨fun y hy => ?_, h⟩
      rcases List.mem_cons.mp hy with rfl | hy
      · exact hab
      · exact (ha y hy).trans hab
    · next hab =>
      have hba : Older b a := .of_not hab
      refine List.pairwise_cons.mpr ⟨fun y hy => ?_, ih hrest⟩
      rcases List.mem_cons.mp ((sinkBack_perm b rest).mem_iff.mp hy) with rfl | hy
      · exact hba
      · exact ha y hy

/-- Sorting puts the oldest first, by `transaction_id` where they are of one age. -/
theorem sortTransactionsByCreatedAt_older (txns : List Transaction) :
    (sortTransactionsByCreatedAt txns).Pairwise Older := by
  have hfold : ∀ (txns sorted : List Transaction), (sorted.Pairwise fun x y => Older y x) →
      (txns.foldl (fun sorted b => sinkBack b sorted) sorted).Pairwise fun x y => Older y x := by
    intro txns
    induction txns with
    | nil => exact fun sorted h => h
    | cons b txns ih => exact fun sorted h => ih (sinkBack b sorted) (sinkBack_sorted b h)
  exact List.pairwise_reverse.mpr (hfold txns [] .nil)

theorem sortTransactionsByCreatedAt_sorted (txns : List Transaction) :
    (sortTransactionsByCreatedAt txns).Pairwise fun x y => x.createdAt ≤ y.createdAt :=
  (sortTransactionsByCreatedAt_older txns).imp Older.createdAt_le

/-- What is sorted does not depend on the order it comes in, if the ids are distinct. -/
theorem sortTransactionsByCreatedAt_eq {txns txns' : List Transaction} (h : txns.Perm txns')
    (hids : (txns.map Transaction.transactionID).Nodup) :
    sortTransactionsByCreatedAt txns = sortTransactionsByCreatedAt txns' := by
  have hperm : (sortTransactionsByCreatedAt txns).Perm (sortTransactionsByCreatedAt txns') :=
    (sortTransactionsByCreatedAt_perm txns).trans
      (h.trans (sortTransactionsByCreatedAt_perm txns').symm)
  refine hperm.eq_of_pairwise ?_ (sortTransactionsByCreatedAt_older _)
    (sortTransactionsByCreatedAt_older _)
  intro a b ha hb hab hba
  have ha := (sortTransactionsByCreatedAt_perm txns).mem_iff.mp ha
  have hb := (sortTransactionsByCreatedAt_perm txns).mem_iff.mp (hperm.mem_iff.mpr hb)
  exact List.inj_on_of_nodup_map hids ha hb (hab.transactionID_eq hba)

/-! ## One pool -/

theorem mem_pendingRows {ties : List Nat} {cutoff : Time} {limit : Nat} {table : List Row} {r : Row}
    (h : r ∈ pendingRows ties cutoff limit table) : r ∈ table ∧ stuck cutoff r = true := by
  have hsorted := List.mem_of_mem_take h
  rw [List.mem_insertionSort, (shuffle_perm _ _).mem_iff, List.mem_filter] at hsorted
  exact hsorted

/-- A pool shows its oldest rows. -/
theorem pendingRows_sorted (ties : List Nat) (cutoff : Time) (table : List Row) :
    ((shuffle ties (table.filter (stuck cutoff))).insertionSort
      fun a b => a.createdAt ≤ b.createdAt).Pairwise fun a b => a.createdAt ≤ b.createdAt := by
  have : Std.Total fun a b : Row => a.createdAt ≤ b.createdAt := ⟨fun a b => le_total _ _⟩
  have : IsTrans Row fun a b : Row => a.createdAt ≤ b.createdAt := ⟨fun a b c => le_trans⟩
  exact List.pairwise_insertionSort _ _

/-- What `ORDER BY created_at ASC LIMIT limit` may answer: the stuck rows of the table in an order by
`created_at`, cut. -/
def Answers (cutoff : Time) (limit : Nat) (table rows : List Row) : Prop :=
  ∃ s : List Row, s.Perm (table.filter (stuck cutoff)) ∧
    (s.Pairwise fun a b => a.createdAt ≤ b.createdAt) ∧ rows = s.take limit

/-- Every such answer is one of the model's. -/
theorem answers_iff {cutoff : Time} {limit : Nat} {table rows : List Row} :
    Answers cutoff limit table rows ↔ ∃ ties, pendingRows ties cutoff limit table = rows := by
  constructor
  · rintro ⟨s, hs, hsorted, rfl⟩
    obtain ⟨ties, hties⟩ := exists_shuffle hs
    refine ⟨ties, ?_⟩
    unfold pendingRows
    rw [hties, hsorted.insertionSort_eq]
  · rintro ⟨ties, rfl⟩
    exact ⟨_, (List.perm_insertionSort _ _).trans (shuffle_perm _ _),
      pendingRows_sorted ties cutoff table, rfl⟩

/-- What is counted in a pool is counted among the stuck rows of its table. -/
theorem sorted_countP (p : Row → Bool) (ties : List Nat) (cutoff : Time) (table : List Row) :
    ((shuffle ties (table.filter (stuck cutoff))).insertionSort
      fun a b => a.createdAt ≤ b.createdAt).countP p = table.countP fun r => stuck cutoff r && p r := by
  rw [(List.perm_insertionSort _ _).countP_eq, (shuffle_perm _ _).countP_eq, List.countP_filter]
  refine List.countP_congr fun r _ => ?_
  simp [and_comm]

/-! ## All pools -/

section
variable (R : TransactionRepo)

/-- A row of pool `i`, as a snapshot shows it. -/
def shown (i : Nat) (r : Row) : Transaction :=
  withShard ((R.router.physicalToFirstLogical R.router.pools).getD i 0) (scanned r)

/-- All rows, each with its pool. -/
def allRows (db : Pools) : List (Nat × Row) :=
  (List.range R.router.pools).flatMap fun i => (db i).map (Prod.mk i)

/-- The answers of the pools, in their order of arrival. -/
def merged (ties : Nat → List Nat) (arrival : List Nat) (before : Time) (limit : Nat) (db : Pools) :
    List Transaction :=
  (shuffle arrival (List.range R.router.pools)).flatMap fun i =>
    (pendingRows (ties i) before limit (db i)).map (R.shown i)

/-- The snapshot of `GetPendingBefore`, when no pool fails. -/
def snapshot (ties : Nat → List Nat) (arrival : List Nat) (before : Time) (limit : Nat)
    (db : Pools) : List Transaction :=
  (sortTransactionsByCreatedAt (R.merged ties arrival before limit db)).take limit

end

@[simp] theorem shown_transactionID (R : TransactionRepo) (i : Nat) (r : Row) :
    (R.shown i r).transactionID = hexLower r.transactionID :=
  (scanTransaction_ok (scanTransaction_eq r)).2.1

theorem shown_spec (R : TransactionRepo) {i : Nat} (hi : i < R.router.pools) (r : Row) :
    R.router.forIndex (R.shown i r).shardIndex = .ok i ∧ (R.shown i r).merchantID = r.merchantID ∧
      (R.shown i r).orderID = r.orderID ∧
      (R.shown i r).stripePaymentIntentID = stringOf r.stripePiID := by
  obtain ⟨hm, -, ho, -, -, -, -, -, hpi⟩ := scanTransaction_ok (scanTransaction_eq r)
  exact ⟨Router.forIndex_firstLogical hi, hm, ho, hpi⟩

@[simp] theorem shown_createdAt (R : TransactionRepo) (i : Nat) (r : Row) :
    (R.shown i r).createdAt = r.createdAt := scanned_createdAt r

theorem mem_allRows {R : TransactionRepo} {db : Pools} {i : Nat} {r : Row} :
    (i, r) ∈ R.allRows db ↔ i < R.router.pools ∧ r ∈ db i := by
  unfold allRows
  rw [List.mem_flatMap]
  constructor
  · rintro ⟨j, hj, h⟩
    obtain ⟨r', hr', h⟩ := List.mem_map.mp h
    cases h
    exact ⟨List.mem_range.mp hj, hr'⟩
  · rintro ⟨hi, hr⟩
    exact ⟨i, List.mem_range.mpr hi, List.mem_map_of_mem hr⟩

/-- Pool by pool, row by row. -/
theorem forall₂_allRows {R : TransactionRepo} {S : Nat × Row → Nat × Row → Prop} {db db' : Pools}
    (h : ∀ i, List.Forall₂ (fun r r' => S (i, r) (i, r')) (db i) (db' i)) :
    List.Forall₂ S (R.allRows db) (R.allRows db') := by
  unfold allRows
  induction List.range R.router.pools with
  | nil => exact .nil
  | cons i is ih =>
    rw [List.flatMap_cons, List.flatMap_cons]
    refine List.rel_append ?_ ih
    rw [List.forall₂_map_left_iff, List.forall₂_map_right_iff]
    exact h i

variable {R : TransactionRepo} {faults : Nat → Option Fault} {ties : Nat → List Nat}
  {arrival : List Nat} {before : Time} {limit : Int} {db : Pools}

theorem getPendingBefore_eq (hf : ∀ i < R.router.pools, faults i = none) (hlimit : 0 < limit) :
    R.getPendingBefore faults ties arrival before limit db =
      .ok (R.snapshot ties arrival before limit.toNat db) := by
  have hanswers : (List.range R.router.pools).map (fun i =>
      shardPending (faults i) i ((R.router.physicalToFirstLogical R.router.pools).getD i 0)
        (pendingRows (ties i) before limit.toNat (db i))) =
      ((List.range R.router.pools).map fun i =>
        (pendingRows (ties i) before limit.toNat (db i)).map (R.shown i)).map .ok := by
    rw [List.map_map]
    refine List.map_congr_left fun i hi => ?_
    unfold shardPending
    rw [hf i (List.mem_range.mp hi), scanAll_eq]
    simp only [List.map_map]
    rfl
  unfold getPendingBefore
  rw [if_neg (by omega)]
  simp only [hanswers, shuffle_map, collect_map_ok]
  rfl

/-- A pool that fails leaves no snapshot. -/
theorem no_fault_of_ok {ts : List Transaction}
    (h : R.getPendingBefore faults ties arrival before limit db = .ok ts) (hlimit : 0 < limit) :
    ∀ i < R.router.pools, faults i = none := by
  intro i hi
  unfold getPendingBefore at h
  rw [if_neg (by omega)] at h
  simp only at h
  split at h
  · cases h
  next all hall =>
  obtain ⟨tss, hanswers, -⟩ := collect_ok hall
  have hmem : shardPending (faults i) i ((R.router.physicalToFirstLogical R.router.pools).getD i 0)
      (pendingRows (ties i) before limit.toNat (db i)) ∈ tss.map .ok := by
    rw [← hanswers, (shuffle_perm _ _).mem_iff]
    exact List.mem_map_of_mem (List.mem_range.mpr hi)
  obtain ⟨ts', -, hok⟩ := List.mem_map.mp hmem
  cases hfault : faults i with
  | none => rfl
  | some f =>
    rw [hfault] at hok
    cases hok

theorem mem_snapshot {limit : Nat} {t : Transaction}
    (h : t ∈ R.snapshot ties arrival before limit db) :
    ∃ i r, i < R.router.pools ∧ r ∈ db i ∧ stuck before r = true ∧ t = R.shown i r := by
  have hmerged := (sortTransactionsByCreatedAt_perm _).mem_iff.mp (List.mem_of_mem_take h)
  obtain ⟨i, hi, ht⟩ := List.mem_flatMap.mp hmerged
  obtain ⟨r, hr, rfl⟩ := List.mem_map.mp ht
  obtain ⟨hr, hstuck⟩ := mem_pendingRows hr
  exact ⟨i, r, List.mem_range.mp ((shuffle_perm _ _).mem_iff.mp hi), hr, hstuck, rfl⟩

/-- What a snapshot shows is a stuck row of one of the pools. -/
theorem getPendingBefore_shown {ts : List Transaction}
    (h : R.getPendingBefore faults ties arrival before limit db = .ok ts) {t : Transaction}
    (ht : t ∈ ts) :
    ∃ i r, i < R.router.pools ∧ r ∈ db i ∧ stuck before r = true ∧ t = R.shown i r := by
  by_cases hlimit : 0 < limit
  · rw [getPendingBefore_eq (no_fault_of_ok h hlimit) hlimit] at h
    cases h
    exact mem_snapshot ht
  · unfold getPendingBefore at h
    rw [if_pos (by omega)] at h
    cases h
    cases ht

theorem getPendingBefore_ok {ts : List Transaction}
    (h : R.getPendingBefore faults ties arrival before limit db = .ok ts) {t : Transaction}
    (ht : t ∈ ts) :
    ∃ i r t' x, i < R.router.pools ∧ r ∈ db i ∧ stuck before r = true ∧
      scanTransaction r = .ok t' ∧ t = withShard x t' ∧ R.router.forIndex x = .ok i := by
  obtain ⟨i, r, hi, hr, hstuck, rfl⟩ := getPendingBefore_shown h ht
  exact ⟨i, r, scanned r, _, hi, hr, hstuck, scanTransaction_eq r, rfl,
    Router.forIndex_firstLogical hi⟩

/-- A pool that fails leaves an error, whatever the others have answered. -/
theorem collect_error {answers : List (Res (List Transaction))} (h : ∃ e, .error e ∈ answers) :
    ∃ e, .error e ∈ answers ∧ collect answers = .error e := by
  cases hall : collect answers with
  | ok all =>
    obtain ⟨tss, rfl, -⟩ := collect_ok hall
    obtain ⟨e, he⟩ := h
    obtain ⟨ts, -, heq⟩ := List.mem_map.mp he
    cases heq
  | error e =>
    refine ⟨e, ?_, rfl⟩
    clear h
    induction answers with
    | nil => cases hall
    | cons a answers ih =>
      cases a with
      | error e' =>
        cases hall
        exact List.mem_cons_self
      | ok ts =>
        unfold collect at hall
        split at hall
        · next heq =>
          cases hall
          exact List.mem_cons_of_mem _ (ih heq)
        · cases hall

/-- What is counted in a snapshot is counted among the stuck rows. -/
theorem snapshot_countP (p : Transaction → Bool) {limit : Nat} :
    (R.snapshot ties arrival before limit db).countP p ≤
      (R.allRows db).countP fun x => stuck before x.2 && p (R.shown x.1 x.2) := by
  refine (List.take_sublist _ _).countP_le.trans ?_
  rw [(sortTransactionsByCreatedAt_perm _).countP_eq]
  unfold merged allRows
  rw [((shuffle_perm arrival (List.range R.router.pools)).flatMap_right _).countP_eq]
  induction List.range R.router.pools with
  | nil => exact le_refl 0
  | cons i is ih =>
    rw [List.flatMap_cons, List.flatMap_cons, List.countP_append, List.countP_append]
    refine Nat.add_le_add ?_ ih
    -- one pool
    rw [List.countP_map, List.countP_map]
    refine (List.take_sublist _ _).countP_le.trans (le_of_eq ?_)
    rw [sorted_countP]
    rfl

/-- **The oldest first.**  A snapshot has as many old rows as there are, up to the limit. -/
theorem snapshot_countP_old (k : Time) {limit : Nat} :
    min limit ((R.allRows db).countP fun x => stuck before x.2 && decide (x.2.createdAt < k)) ≤
      (R.snapshot ties arrival before limit db).countP fun t => decide (t.createdAt < k) := by
  have hsorted : (sortTransactionsByCreatedAt (R.merged ties arrival before limit db)).Pairwise
      fun a b => decide (b.createdAt < k) = true → decide (a.createdAt < k) = true := by
    refine (sortTransactionsByCreatedAt_sorted _).imp fun hle hlt => ?_
    exact decide_eq_true (hle.trans_lt (of_decide_eq_true hlt))
  unfold snapshot
  rw [countP_take hsorted, (sortTransactionsByCreatedAt_perm _).countP_eq]
  suffices hmerged : min limit ((R.allRows db).countP fun x =>
      stuck before x.2 && decide (x.2.createdAt < k)) ≤
      (R.merged ties arrival before limit db).countP fun t => decide (t.createdAt < k) by omega
  unfold merged allRows
  rw [((shuffle_perm arrival (List.range R.router.pools)).flatMap_right _).countP_eq]
  induction List.range R.router.pools with
  | nil => simp
  | cons i is ih =>
    rw [List.flatMap_cons, List.flatMap_cons, List.countP_append, List.countP_append]
    -- one pool
    have hpool : ((pendingRows (ties i) before limit (db i)).map (R.shown i)).countP
        (fun t => decide (t.createdAt < k)) =
          min limit ((db i).countP fun r => stuck before r && decide (r.createdAt < k)) := by
      have hsorted : ((shuffle (ties i) ((db i).filter (stuck before))).insertionSort
          fun a b => a.createdAt ≤ b.createdAt).Pairwise
          fun a b => decide (b.createdAt < k) = true → decide (a.createdAt < k) = true := by
        refine (pendingRows_sorted (ties i) before (db i)).imp fun hle hlt => ?_
        exact decide_eq_true (hle.trans_lt (of_decide_eq_true hlt))
      rw [List.countP_map, ← sorted_countP _ (ties i), ← countP_take hsorted]
      refine List.countP_congr fun r _ => ?_
      simp
    have hrows : ((db i).map (Prod.mk i)).countP
        (fun x => stuck before x.2 && decide (x.2.createdAt < k)) =
          (db i).countP fun r => stuck before r && decide (r.createdAt < k) := List.countP_map
    rw [hpool, hrows]
    omega

/-! ## The oldest of all -/

/-- The pools' answers, each row with its pool. -/
theorem merged_eq {limit : Nat} :
    R.merged ties arrival before limit db =
      ((shuffle arrival (List.range R.router.pools)).flatMap fun i =>
        (pendingRows (ties i) before limit (db i)).map (Prod.mk i)).map fun x => R.shown x.1 x.2 := by
  unfold merged
  rw [List.map_flatMap]
  simp only [List.map_map]
  rfl

/-- What a pool would answer without a limit, each row with the pool. -/
def ordered (ties : Nat → List Nat) (before : Time) (db : Pools) (i : Nat) : List (Nat × Row) :=
  ((shuffle (ties i) ((db i).filter (stuck before))).insertionSort
    fun a b => a.createdAt ≤ b.createdAt).map (Prod.mk i)

theorem flatMap_ordered_perm :
    ((List.range R.router.pools).flatMap (ordered ties before db)).Perm
      ((R.allRows db).filter fun x => stuck before x.2) := by
  unfold allRows
  rw [List.filter_flatMap]
  refine List.Perm.flatMap_left _ fun i _ => ?_
  rw [List.filter_map]
  exact ((List.perm_insertionSort _ _).trans (shuffle_perm _ _)).map _

/-- The snapshot: sorted, rows that are stuck and each of them once, as many as the limit allows, and
none of those left out is older. -/
structure OldestStuck (R : TransactionRepo) (before : Time) (limit : Nat) (db : Pools)
    (ts : List Transaction) : Prop where
  sorted : ts.Pairwise Older
  rows : ∃ taken omitted : List (Nat × Row),
    (taken ++ omitted).Perm ((R.allRows db).filter fun x => stuck before x.2) ∧
    ts = taken.map (fun x => R.shown x.1 x.2) ∧
    ∀ x ∈ taken, ∀ y ∈ omitted, ¬ y.2.createdAt < x.2.createdAt
  length : ts.length = min limit ((R.allRows db).countP fun x => stuck before x.2)

theorem snapshot_oldest {limit : Nat} :
    OldestStuck R before limit db (R.snapshot ties arrival before limit db) := by
  have hsort := sortTransactionsByCreatedAt_perm (R.merged ties arrival before limit db)
  nth_rewrite 2 [merged_eq] at hsort
  obtain ⟨m, hm, hmap⟩ := exists_perm_of_perm_map hsort
  have hcut : m.Perm (((List.range R.router.pools).map (ordered ties before db)).flatMap
      fun s => s.take limit) := by
    refine hm.trans (((shuffle_perm arrival _).flatMap_right _).trans ?_)
    rw [List.flatMap_map]
    refine .of_eq (List.flatMap_congr fun i _ => ?_)
    exact List.map_take
  have hsorted : m.Pairwise fun a b => a.2.createdAt ≤ b.2.createdAt := by
    have h := sortTransactionsByCreatedAt_sorted (R.merged ties arrival before limit db)
    rw [← hmap, List.pairwise_map] at h
    simpa only [shown_createdAt] using h
  have hparts : ∀ s ∈ (List.range R.router.pools).map (ordered ties before db),
      s.Pairwise fun a b => a.2.createdAt ≤ b.2.createdAt := by
    intro s hs
    obtain ⟨i, -, rfl⟩ := List.mem_map.mp hs
    exact List.pairwise_map.mpr (pendingRows_sorted (ties i) before (db i))
  obtain ⟨omitted, hperm, hlength, hold⟩ := take_merged hparts hcut hsorted
  have hall : ((List.range R.router.pools).map (ordered ties before db)).flatten.Perm
      ((R.allRows db).filter fun x => stuck before x.2) := flatMap_ordered_perm
  have htaken : R.snapshot ties arrival before limit db =
      (m.take limit).map fun x => R.shown x.1 x.2 := by
    rw [List.map_take, hmap]
    rfl
  refine ⟨(sortTransactionsByCreatedAt_older _).take,
    ⟨m.take limit, omitted, hperm.trans hall, htaken, ?_⟩, ?_⟩
  · exact fun x hx y hy => not_lt.mpr (hold x hx y hy)
  · rw [htaken, List.length_map, hlength, hall.length_eq, List.countP_eq_length_filter]

/-- Which rows are shown, and in which order, does not depend on the order of arrival. -/
theorem snapshot_arrival {limit : Nat} (arrival' : List Nat)
    (hids : ((List.range R.router.pools).flatMap fun i =>
      (pendingRows (ties i) before limit (db i)).map Row.transactionID).Nodup) :
    R.snapshot ties arrival before limit db = R.snapshot ties arrival' before limit db := by
  have hperm : ∀ arrival, (R.merged ties arrival before limit db).Perm
      ((List.range R.router.pools).flatMap fun i =>
        (pendingRows (ties i) before limit (db i)).map (R.shown i)) :=
    fun arrival => (shuffle_perm arrival _).flatMap_right _
  unfold snapshot
  rw [sortTransactionsByCreatedAt_eq ((hperm arrival).trans (hperm arrival').symm)]
  -- the ids are shown in hex
  rw [((hperm arrival).map _).nodup_iff, List.map_flatMap]
  have hshown : ∀ i ∈ List.range R.router.pools,
      ((pendingRows (ties i) before limit (db i)).map (R.shown i)).map Transaction.transactionID =
        ((pendingRows (ties i) before limit (db i)).map Row.transactionID).map hexLower := by
    intro i _
    simp [Function.comp_def]
  rw [List.flatMap_congr hshown, ← List.map_flatMap]
  refine hids.map fun a b h => hexEncode_injective ?_
  rwa [hexLower_eq, hexLower_eq] at h

end TransactionRepo

open TransactionRepo

/-- **The globally oldest stuck orders**, for any number of pools, any rows, any choice among ties and
any order of arrival; and no rows at all if a pool fails. -/
theorem getPendingBefore_oldest (R : TransactionRepo) (before : Time) (limit : Int) (db : Pools)
    (hlimit : 1 ≤ limit) :
    (∀ faults ties arrival, (∀ i < R.router.pools, faults i = none) →
      ∃ ts, R.getPendingBefore faults ties arrival before limit db = .ok ts ∧
        OldestStuck R before limit.toNat db ts ∧
        -- the answers of the pools given, the order of arrival does not matter
        (((List.range R.router.pools).flatMap fun i =>
            (pendingRows (ties i) before limit.toNat (db i)).map Row.transactionID).Nodup →
          ∀ arrival', R.getPendingBefore faults ties arrival' before limit db = .ok ts)) ∧
    (∀ faults ties arrival, (∃ i < R.router.pools, faults i ≠ none) →
      ∃ e, R.getPendingBefore faults ties arrival before limit db = .error e) ∧
    -- a pool may also fail while its rows are read
    (∀ answers, (∃ e, .error e ∈ answers) → ∃ e, .error e ∈ answers ∧ collect answers = .error e) ∧
    -- all answers of a pool and all orders of arrival are meant
    (∀ i rows, Answers before limit.toNat (db i) rows ↔
      ∃ ties, pendingRows ties before limit.toNat (db i) = rows) ∧
    ∀ order : List Nat, order.Perm (List.range R.router.pools) ↔
      ∃ arrival, shuffle arrival (List.range R.router.pools) = order := by
  refine ⟨?_, ?_, fun _ => collect_error, fun _ _ => answers_iff, ?_⟩
  · intro faults ties arrival hf
    refine ⟨_, getPendingBefore_eq hf hlimit, snapshot_oldest, fun hids arrival' => ?_⟩
    rw [getPendingBefore_eq hf hlimit, snapshot_arrival arrival hids]
  · intro faults ties arrival ⟨i, hi, hfault⟩
    cases h : R.getPendingBefore faults ties arrival before limit db with
    | ok ts => exact absurd (no_fault_of_ok h hlimit i hi) hfault
    | error e => exact ⟨e, rfl⟩
  · intro order
    constructor
    · exact exists_shuffle
    · rintro ⟨arrival, rfl⟩
      exact shuffle_perm _ _

/-- An order that is open since `createdAt`. -/
def Row.openSince (id : UInt8) (createdAt : Time) : Row :=
  { transactionID := List.replicate 16 id
    merchantID := bytes "shop"
    orderID := bytes "open"
    amount := 100
    currencyCode := 978
    status := encodeStatus .created
    paymentMethod := 0
    stripePiID := none
    stripeSession := none
    createdAt := createdAt
    updatedAt := createdAt
    transactionID_length := List.length_replicate
    merchantID_length := by decide
    orderID_valid := by decide
    currency_known := by decide
    status_known := by decide }

/-- Two pools, the older order in the second. -/
theorem getPendingBefore_oldest_two :
    ∃ (R : TransactionRepo) (db : Pools) (ts : List Transaction), R.router.pools = 2 ∧
      db = (fun i => if i = 0 then [Row.openSince 1 9] else [Row.openSince 2 8]) ∧
      R.getPendingBefore (fun _ => none) (fun _ => []) [1] 10 1 db = .ok ts ∧
      ts.map Transaction.createdAt = [8] ∧ OldestStuck R 10 1 db ts := by
  let R : TransactionRepo := ⟨Unicode.ascii, Collation.binary, ⟨2, 2, by decide, by decide, by decide⟩⟩
  let db : Pools := fun i => if i = 0 then [Row.openSince 1 9] else [Row.openSince 2 8]
  obtain ⟨ts, hts, hold, -⟩ := (getPendingBefore_oldest R 10 1 db (by decide)).1 (fun _ => none)
    (fun _ => []) [1] (fun _ _ => rfl)
  refine ⟨R, db, ts, rfl, rfl, hts, ?_, hold⟩
  have heval : (R.getPendingBefore (fun _ => none) (fun _ => []) [1] 10 1 db).map
      (List.map Transaction.createdAt) = .ok [8] := by decide
  rw [hts] at heval
  exact Except.ok.inj heval

end EasyPay
