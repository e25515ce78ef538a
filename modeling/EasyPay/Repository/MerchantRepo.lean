import Mathlib.Data.List.Dedup
import Mathlib.Data.List.FinRange
import Mathlib.Logic.Relation
import EasyPay.System

/-!
# Merchant repository

`Insert` of `internal/repository/merchant_repo.go`: a new merchant goes to the logical shard that
has the fewest, the smallest such index first.

    rows ~ shardCounts L t  →  LeastLoaded L t (leastLoaded rows)          (leastLoaded_spec)
    Inserts w w', the loads of w differ by at most 1  →  so do those of w'  (Inserts.balanced)

The counts come from a grouped query, which has no row for an empty shard and gives its rows in no
particular order.
-/

namespace EasyPay

open GoStrings Ports Tables

/-- `NewMerchantRepository` clamps a zero shard count up to one. -/
structure MerchantRepo where
  logicalShardCount : UInt8
  pos : 0 < logicalShardCount

def newMerchantRepository (logicalShardCount : UInt8) : MerchantRepo :=
  if h : logicalShardCount = 0 then ⟨1, by decide⟩
  else ⟨logicalShardCount, UInt8.pos_iff_ne_zero.mpr h⟩

namespace MerchantRepo

variable (r : MerchantRepo)

/-! ## Picking a shard -/

/-- The loop over the rows of the query, on the zeros of `make`. -/
def counts (rows : List (UInt8 × Int)) : Vector Int r.logicalShardCount.toNat :=
  rows.foldl
    (fun counts row =>
      if h : row.1 < r.logicalShardCount then
        counts.set row.1.toNat row.2 (UInt8.lt_iff_toNat_lt.mp h)
      else counts)
    (Vector.replicate _ 0)

def shardZero : Fin r.logicalShardCount.toNat := ⟨0, UInt8.lt_iff_toNat_lt.mp r.pos⟩

/-- `pickLeastLoadedShard` on the rows of the query: its loop keeps the best index and its count. -/
def leastLoaded (rows : List (UInt8 × Int)) : UInt8 :=
  let counts := r.counts rows
  let best := (List.finRange r.logicalShardCount.toNat).tail.foldl
    (fun best i => if counts.get i < best.2 then (i, counts.get i) else best)
    (r.shardZero, counts.get r.shardZero)
  best.1.val.toUInt8

theorem toNat_toUInt8 (i : Fin r.logicalShardCount.toNat) : i.val.toUInt8.toNat = i := by
  rw [Nat.toUInt8_eq, UInt8.toNat_ofNat']
  exact Nat.mod_eq_of_lt (i.isLt.trans r.logicalShardCount.toNat_lt)

/-- The merchant goes to one of the logical shards. -/
theorem leastLoaded_lt (rows : List (UInt8 × Int)) : r.leastLoaded rows < r.logicalShardCount := by
  rw [UInt8.lt_iff_toNat_lt]
  unfold leastLoaded
  rw [toNat_toUInt8]
  exact Fin.isLt _

/-- `Insert`; the shard index is written back into the merchant.  The empty status, which `Insert`
would make active, does not occur here. -/
def insert (m : Merchant) : Svc (Res Merchant) := do
  match ← Svc.ask (.countByShard r.logicalShardCount) with
  | .error e => return .error (e.wrap (bytes "pick shard: "))
  | .ok counts =>
    let m : Merchant :=
      { m with
        shardIndex := r.leastLoaded counts
        rateLimit := if m.rateLimit = 0 then 1000 else m.rateLimit }
    match ← Svc.ask (.insertMerchant m) with
    | .error e => return .error e
    | .ok _ => return .ok m

/-! ## The least loaded shard -/

end MerchantRepo

/-- `i` has the fewest merchants of the shards below `L`, and is the smallest such index. -/
structure LeastLoaded (L : UInt8) (t : List Merchant) (i : UInt8) : Prop where
  lt : i < L
  le : ∀ j < L, load Merchant.shardIndex t i ≤ load Merchant.shardIndex t j
  first : ∀ j < i, load Merchant.shardIndex t i < load Merchant.shardIndex t j

/-- A row of the query is a shard and its load... -/
theorem snd_of_mem_shardCounts {L : UInt8} {t : List Merchant} {row : UInt8 × Int}
    (h : row ∈ shardCounts L t) : row.2 = load Merchant.shardIndex t row.1 := by
  unfold shardCounts at h
  obtain ⟨i, -, rfl⟩ := List.mem_map.mp h
  rfl

/-- ... and a shard below `L` without a row has no merchants. -/
theorem load_of_notMem_shardCounts {L : UInt8} {t : List Merchant} {i : UInt8} (hi : i < L)
    (h : ∀ row ∈ shardCounts L t, row.1 ≠ i) : load Merchant.shardIndex t i = 0 := by
  rw [load_eq_zero]
  rintro m hm rfl
  refine h (m.shardIndex, _) (List.mem_map.mpr ⟨m.shardIndex, ?_, rfl⟩) rfl
  rw [List.mem_dedup, List.mem_filter]
  exact ⟨List.mem_map_of_mem hm, decide_eq_true hi⟩

namespace MerchantRepo

variable (r : MerchantRepo)

/-- The loop over the rows: if every row is right, and every shard without a row is right to begin
with, all are right in the end. -/
theorem get_foldl_set {f : UInt8 → Int} {rows : List (UInt8 × Int)}
    (hrows : ∀ row ∈ rows, row.2 = f row.1) {v : Vector Int r.logicalShardCount.toNat}
    (hv : ∀ i : Fin r.logicalShardCount.toNat, (∀ row ∈ rows, row.1 ≠ i.val.toUInt8) →
      v.get i = f i.val.toUInt8) (i : Fin r.logicalShardCount.toNat) :
    (rows.foldl
      (fun counts row =>
        if h : row.1 < r.logicalShardCount then
          counts.set row.1.toNat row.2 (UInt8.lt_iff_toNat_lt.mp h)
        else counts) v).get i = f i.val.toUInt8 := by
  induction rows generalizing v with
  | nil => exact hv i fun row hrow => by cases hrow
  | cons row rows ih =>
    rw [List.foldl_cons]
    refine ih (fun row' hrow' => hrows row' (List.mem_cons_of_mem _ hrow')) fun j hj => ?_
    by_cases hjrow : row.1 = j.val.toUInt8
    · have hlt : row.1 < r.logicalShardCount := by
        rw [UInt8.lt_iff_toNat_lt, hjrow, r.toNat_toUInt8]
        exact j.isLt
      have htoNat : row.1.toNat = j := by rw [hjrow, r.toNat_toUInt8]
      rw [dif_pos hlt, ← hjrow, ← hrows row List.mem_cons_self]
      show (v.set row.1.toNat row.2 _)[j.val] = row.2
      rw [Vector.getElem_set, if_pos htoNat]
    · have hkeep : v.get j = f j.val.toUInt8 := by
        refine hv j fun row' hrow' => ?_
        rcases List.mem_cons.mp hrow' with rfl | hrow'
        · exact hjrow
        · exact hj row' hrow'
      split
      · have htoNat : row.1.toNat ≠ j := by
          rw [← r.toNat_toUInt8 j]
          exact fun h => hjrow (UInt8.toNat_inj.mp h)
        show (v.set row.1.toNat row.2 _)[j.val] = _
        rw [Vector.getElem_set, if_neg htoNat]
        exact hkeep
      · exact hkeep

/-- The table of counts has the load of every shard. -/
theorem counts_get {t : List Merchant} {rows : List (UInt8 × Int)}
    (h : rows.Perm (shardCounts r.logicalShardCount t)) (i : Fin r.logicalShardCount.toNat) :
    (r.counts rows).get i = load Merchant.shardIndex t i.val.toUInt8 := by
  unfold counts
  refine r.get_foldl_set (f := fun i => load Merchant.shardIndex t i)
    (fun row hrow => snd_of_mem_shardCounts (h.mem_iff.mp hrow)) (fun j hj => ?_) i
  have hlt : j.val.toUInt8 < r.logicalShardCount := by
    rw [UInt8.lt_iff_toNat_lt, r.toNat_toUInt8]
    exact j.isLt
  rw [load_of_notMem_shardCounts hlt fun row hrow => hj row (h.mem_iff.mpr hrow)]
  show (Vector.replicate r.logicalShardCount.toNat (0 : Int))[j.val] = 0
  rw [Vector.getElem_replicate]

/-- The loop starts at the first index and goes through the others. -/
theorem finRange_eq_cons :
    List.finRange r.logicalShardCount.toNat =
      r.shardZero :: (List.finRange r.logicalShardCount.toNat).tail := by
  have hcons : ∀ (n : Nat) (h : 0 < n), List.finRange n = ⟨0, h⟩ :: (List.finRange n).tail := by
    intro n h
    cases n with
    | zero => omega
    | succ n =>
      rw [List.finRange_succ]
      rfl
  exact hcons _ _

/-- **The pick is a least loaded shard**, and the first, whatever the order of the rows. -/
theorem leastLoaded_spec {t : List Merchant} {rows : List (UInt8 × Int)}
    (h : rows.Perm (shardCounts r.logicalShardCount t)) :
    LeastLoaded r.logicalShardCount t (r.leastLoaded rows) := by
  obtain ⟨m, hm, hfold⟩ := foldl_least id (r.counts rows).get r.shardZero
    (List.finRange r.logicalShardCount.toNat).tail
  have hpick : r.leastLoaded rows = m.val.toUInt8 :=
    congrArg (fun best => best.1.val.toUInt8) hfold
  rw [← r.finRange_eq_cons, List.mem_argmin_iff] at hm
  obtain ⟨-, hle, hfirst⟩ := hm
  -- a shard as an index of the table
  have hindex : ∀ j < r.logicalShardCount, ∃ k : Fin r.logicalShardCount.toNat,
      k.val = j.toNat ∧ (r.counts rows).get k = load Merchant.shardIndex t j := by
    intro j hj
    refine ⟨⟨j.toNat, UInt8.lt_iff_toNat_lt.mp hj⟩, rfl, ?_⟩
    rw [r.counts_get h]
    simp
  have hload := r.counts_get h m
  refine ⟨r.leastLoaded_lt rows, fun j hj => ?_, fun j hj => ?_⟩
  · obtain ⟨k, -, hk⟩ := hindex j hj
    have := hle k (List.mem_finRange k)
    rw [hk, hload] at this
    rw [hpick]
    exact_mod_cast this
  · obtain ⟨k, hkj, hk⟩ := hindex j (UInt8.lt_trans hj (r.leastLoaded_lt rows))
    rw [hpick, UInt8.lt_iff_toNat_lt, r.toNat_toUInt8] at hj
    rw [hpick]
    by_contra hge
    have hidx := hfirst k (List.mem_finRange k) (by rw [hk, hload]; exact_mod_cast not_lt.mp hge)
    rw [List.idxOf_finRange, List.idxOf_finRange] at hidx
    omega

-- shard 0 has a merchant, the other fifteen have none and no row
example : (newMerchantRepository 16).leastLoaded [(0, 1)] = 1 := by decide

/-! ## Sequences of inserts -/

/-- What `Insert` writes into the merchant. -/
def placed (m : Merchant) (i : UInt8) : Merchant :=
  { m with
    shardIndex := i
    rateLimit := if m.rateLimit = 0 then 1000 else m.rateLimit }

/-- Once the query has answered, the merchant is stored on the shard that was picked, and
returned. -/
theorem runs_insert (m : Merchant) (rows : List (UInt8 × Int)) :
    ∃ k : (Op.insertMerchant (placed m (r.leastLoaded rows))).Ans → Svc (Res Merchant),
      Prog.Runs (r.insert m) [(Op.countByShard r.logicalShardCount).gave (.ok rows)]
        (.call (P := gateway) (.insertMerchant (placed m (r.leastLoaded rows))) k) ∧
      (∀ u, k (.ok u) = .ret (.ok (placed m (r.leastLoaded rows)))) ∧
      ∀ e, k (.error e) = .ret (.error e) :=
  ⟨_, .cons (P := gateway) (Op.countByShard r.logicalShardCount) _ (Except.ok rows) (.nil _),
    fun _ => rfl, fun _ => rfl⟩

/-- The statement fails and leaves the table alone, or adds the merchant. -/
theorem insertMerchant_cases (C : Collation) (fault : Option Fault) (m : Merchant)
    (t : List Merchant) :
    (∃ e, insertMerchant C fault m t = (.error e, t)) ∨
      insertMerchant C fault m t = (.ok (), t ++ [m]) := by
  unfold insertMerchant
  split
  · exact .inl ⟨_, rfl⟩
  · split
    · exact .inl ⟨_, rfl⟩
    · exact .inr rfl

/-- An `Insert` fails and leaves the table alone, or adds the merchant on a least loaded shard. -/
theorem executes_insert {D : Deployment} {E : Op → Choice → Prop} {m : Merchant} {w w' : World}
    {res : Res Merchant} (h : Prog.Executes (exec D) E (r.insert m) w res w') :
    ((∃ e, res = .error e) ∧ w'.merchants = w.merchants) ∨
      ∃ i, LeastLoaded r.logicalShardCount w.merchants i ∧ res = .ok (placed m i) ∧
        w'.merchants = w.merchants ++ [placed m i] := by
  obtain ⟨c, -, h⟩ := Svc.executes_ask h
  simp only [exec] at h
  cases hfault : c.fault with
  | some f =>
    rw [hfault] at h
    obtain ⟨rfl, rfl⟩ := Prog.executes_ret h
    exact .inl ⟨⟨_, rfl⟩, rfl⟩
  | none =>
    rw [hfault] at h
    obtain ⟨c', -, h⟩ := Svc.executes_ask h
    have hleast := r.leastLoaded_spec (.refl (shardCounts r.logicalShardCount w.merchants))
    generalize r.leastLoaded (shardCounts r.logicalShardCount w.merchants) = i at h hleast
    have hstmt := insertMerchant_cases D.collation c'.fault (placed m i) w.merchants
    split at h
    · next e hans =>
      obtain ⟨rfl, rfl⟩ := Prog.executes_ret h
      rcases hstmt with ⟨e', hstmt⟩ | hstmt
      · exact .inl ⟨⟨e, rfl⟩, congrArg Prod.snd hstmt⟩
      · cases (congrArg Prod.fst hstmt).symm.trans hans
    · next hans =>
      obtain ⟨rfl, rfl⟩ := Prog.executes_ret h
      rcases hstmt with ⟨e', hstmt⟩ | hstmt
      · cases (congrArg Prod.fst hstmt).symm.trans hans
      · exact .inr ⟨i, hleast, rfl, congrArg Prod.snd hstmt⟩

/-- One `Insert`, whatever becomes of its calls. -/
def Inserts (D : Deployment) (w w' : World) : Prop :=
  ∃ m res, Prog.Executes (exec D) (fun _ _ => True) (r.insert m) w res w'

/-- An insert of which neither call fails. -/
theorem inserts_placed (D : Deployment) {m : Merchant} {w : World} {i : UInt8} {t : List Merchant}
    (hi : r.leastLoaded (shardCounts r.logicalShardCount w.merchants) = i)
    (hstmt : insertMerchant D.collation none (placed m i) w.merchants = (.ok (), t)) :
    r.Inserts D w { w with merchants := t } := by
  subst hi
  refine ⟨m, .ok (placed m (r.leastLoaded (shardCounts r.logicalShardCount w.merchants))), ?_⟩
  refine .call (P := gateway) (c := {}) trivial (.call (P := gateway) (c := {}) trivial ?_)
  simp only [exec, placed] at hstmt ⊢
  rw [hstmt]
  exact .ret _ _

/-- Every insert keeps the loads balanced. -/
theorem Inserts.balanced {r : MerchantRepo} {D : Deployment} {w w' : World} (h : r.Inserts D w w')
    (hw : Balanced {i | i < r.logicalShardCount} (load Merchant.shardIndex w.merchants)) :
    Balanced {i | i < r.logicalShardCount} (load Merchant.shardIndex w'.merchants) := by
  obtain ⟨m, res, h⟩ := h
  rcases r.executes_insert h with ⟨-, hsame⟩ | ⟨i, hleast, -, hadd⟩
  · rw [hsame]
    exact hw
  · rw [hadd, load_concat]
    exact hw.place hleast.le

end MerchantRepo

/-- **Balanced placement.**  On every table, with the rows of the query in any order, `Insert` goes
on to store the merchant on the first of the least loaded shards, and returns it.  So after any
number of inserts into an empty table, the loads of the logical shards differ by at most one. -/
theorem placement_balanced (D : Deployment) (r : MerchantRepo) :
    (∀ (t : List Merchant) (rows : List (UInt8 × Int)) (m : Merchant),
      rows.Perm (shardCounts r.logicalShardCount t) →
      ∃ i, LeastLoaded r.logicalShardCount t i ∧
        ∃ k : Res Unit → Svc (Res Merchant),
          Prog.Runs (r.insert m) [(Op.countByShard r.logicalShardCount).gave (.ok rows)]
            (.call (P := gateway) (.insertMerchant (MerchantRepo.placed m i)) k) ∧
          k (.ok ()) = .ret (.ok (MerchantRepo.placed m i))) ∧
    ∀ w w' : World, w.merchants = [] → Relation.ReflTransGen (r.Inserts D) w w' →
      ∀ i < r.logicalShardCount, ∀ j < r.logicalShardCount,
        load Merchant.shardIndex w'.merchants i ≤ load Merchant.shardIndex w'.merchants j + 1 := by
  constructor
  · intro t rows m hrows
    obtain ⟨k, hruns, hk, -⟩ := r.runs_insert m rows
    exact ⟨r.leastLoaded rows, r.leastLoaded_spec hrows, k, hruns, hk ()⟩
  · intro w w' hempty hruns
    show Balanced {i | i < r.logicalShardCount} (load Merchant.shardIndex w'.merchants)
    induction hruns with
    | refl =>
      rw [hempty]
      exact fun i _ j _ => Nat.zero_le _
    | tail _ hstep ih => exact hstep.balanced ih

/-- Two merchants, one after the other. -/
theorem placement_balanced_two :
    let r := newMerchantRepository 2
    let t := [Merchant.onShard (bytes "m1") 0, .onShard (bytes "m2") 1]
    Relation.ReflTransGen (r.Inserts (.sample .binary)) (.fresh []) (.fresh t) ∧
      ∀ i < 2, ∀ j < 2, load Merchant.shardIndex t i ≤ load Merchant.shardIndex t j + 1 := by
  intro r t
  have hfirst : r.Inserts (.sample .binary) (.fresh []) (.fresh [.onShard (bytes "m1") 0]) :=
    r.inserts_placed _ (m := .named (bytes "m1")) (i := 0) (by decide) (by decide)
  have hsecond : r.Inserts (.sample .binary) (.fresh [.onShard (bytes "m1") 0]) (.fresh t) :=
    r.inserts_placed _ (m := .named (bytes "m2")) (i := 1) (by decide) (by decide)
  have hruns : Relation.ReflTransGen (r.Inserts (.sample .binary)) (.fresh []) (.fresh t) :=
    .tail (.single hfirst) hsecond
  exact ⟨hruns, (placement_balanced (.sample .binary) r).2 (.fresh []) (.fresh t) rfl hruns⟩

end EasyPay
