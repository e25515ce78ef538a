import Mathlib.Tactic.Linarith
import Mathlib.Algebra.Order.Field.Rat
import EasyPay.Gateway

/-!
# Token bucket

`internal/cache/token_bucket.go`: the bucket all pods draw on before they call Stripe.  It is a
Redis hash with the tokens that are left and the time of the last call, in milliseconds of the
calling pod's clock.  A call refills the bucket for the time that has passed, and takes a token if
there is one.  The script runs as one step, its numbers are taken as exact, and the expiry of the
key is left out.

A call writes its own time even when that is earlier than the one stored.  The time between them is
then refilled once more.

* `exec_allow`: what `Allow` answers, the port of the services can answer.
* `tbScript_spec`: what one call does; `draw_spec`, by the calls: the tokens stay between 0 and the
  capacity, and the calls let through are paid for by the capacity and the forward steps of the
  clocks (`rise`).
* `allowed_le_of_rise`: so they are within the time the clocks span, if the forward steps are.
* `allowed_clock_back`: clocks that go back and forth once let an extra call through.
-/

namespace EasyPay

open GoStrings Ports

namespace TokenBucket

structure Bucket where
  tokens : ℚ
  ts : Int
  deriving DecidableEq, Repr

/-- The tokens after a refill; those of an absent bucket are all there. -/
def refilled (capacity : Int) (refill : ℚ) (nowMs : Int) (data : Option Bucket) : ℚ :=
  let tokens : ℚ := match data with
    | some b => b.tokens
    | none => capacity
  let ts := match data with
    | some b => b.ts
    | none => nowMs
  let elapsed : ℚ := (max 0 (nowMs - ts) : Int) / 1000
  min capacity (tokens + elapsed * refill)

def tbScript (capacity : Int) (refill : ℚ) (nowMs : Int) (data : Option Bucket) :
    (Int × Int) × Bucket :=
  let tokens := refilled capacity refill nowMs data
  if 1 ≤ tokens then ((1, 0), ⟨tokens - 1, nowMs⟩)
  else ((0, ((1 - tokens) / refill * 1000).ceil), ⟨tokens, nowMs⟩)

/-- `Allow`.  When it fails, the script has run or not. -/
def allow (fault : Option Fault) (reached : Bool) (capacity : Int) (refill : ℚ) (nowMs : Int)
    (data : Option Bucket) : Res Unit × Option Bucket :=
  let r := tbScript capacity refill nowMs data
  match fault with
  | some f =>
    (.error (.wrap (bytes "token bucket eval: ") (.new f.msg)), if reached then some r.2 else data)
  | none => (if r.1.1 = 1 then .ok () else .error (.of .rateLimited), some r.2)

/-- What `Allow` answers is what the gateway's port can answer. -/
theorem exec_allow (D : Deployment) (w : World) (fault : Option Fault) (reached : Bool)
    (capacity : Int) (refill : ℚ) (nowMs : Int) (data : Option Bucket) :
    ∃ c, c.fault = fault ∧
      exec D .allow c w = ((allow fault reached capacity refill nowMs data).1, w) := by
  cases fault with
  | some f => exact ⟨{ fault := some f }, rfl, rfl⟩
  | none =>
    unfold allow
    by_cases hone : (tbScript capacity refill nowMs data).1.1 = 1
    · refine ⟨{}, rfl, ?_⟩
      simp only [if_pos hone]
      rfl
    · refine ⟨{ refused := true }, rfl, ?_⟩
      simp only [if_neg hone]
      rfl

/-! ## Runs -/

/-- The bucket, and how many calls were let through. -/
structure Drawn where
  bucket : Option Bucket
  allowed : Nat

def Drawn.draw (capacity : Int) (refill : ℚ) (d : Drawn) (nowMs : Int) : Drawn :=
  let r := tbScript capacity refill nowMs d.bucket
  ⟨some r.2, if r.1.1 = 1 then d.allowed + 1 else d.allowed⟩

/-- The script is executed at each of the times, in this order. -/
def drawn (capacity : Int) (refill : ℚ) (b : Option Bucket) (times : List Int) : Drawn :=
  times.foldl (Drawn.draw capacity refill) ⟨b, 0⟩

/-- The forward steps of the clocks, from one call to the next. -/
def riseFrom (ts : Int) : List Int → Int
  | [] => 0
  | x :: xs => max 0 (x - ts) + riseFrom x xs

def rise : List Int → Int
  | [] => 0
  | x :: xs => riseFrom x xs

/-- The bucket is absent or full. -/
def Full (capacity : Int) (data : Option Bucket) : Prop := ∀ b ∈ data, b.tokens = capacity

section
variable {capacity : Int} {refill : ℚ} {b : Bucket}

theorem refilled_some (nowMs : Int) :
    refilled capacity refill nowMs (some b) =
      min (capacity : ℚ) (b.tokens + ((max 0 (nowMs - b.ts) : Int) : ℚ) / 1000 * refill) := rfl

theorem refilled_le (nowMs : Int) (data : Option Bucket) :
    refilled capacity refill nowMs data ≤ capacity := min_le_left _ _

theorem elapsed_nonneg (hrefill : 0 < refill) (d : Int) :
    0 ≤ ((max 0 d : Int) : ℚ) / 1000 * refill := by
  have hd : (0 : ℚ) ≤ ((max 0 d : Int) : ℚ) := by exact_mod_cast le_max_left 0 d
  exact mul_nonneg (div_nonneg hd (by norm_num)) hrefill.le

theorem refilled_nonneg (hcap : 0 ≤ capacity) (hrefill : 0 < refill) (h : 0 ≤ b.tokens)
    (nowMs : Int) : 0 ≤ refilled capacity refill nowMs (some b) := by
  rw [refilled_some]
  have hcap' : (0 : ℚ) ≤ capacity := by exact_mod_cast hcap
  exact le_min hcap' (add_nonneg h (elapsed_nonneg hrefill _))

/-- A bucket that is absent or full is full after the refill. -/
theorem refilled_full (hrefill : 0 < refill) {data : Option Bucket}
    (h : Full capacity data) (nowMs : Int) :
    refilled capacity refill nowMs data = capacity := by
  refine min_eq_left ?_
  cases data with
  | none => exact le_add_of_nonneg_right (elapsed_nonneg hrefill _)
  | some b =>
    simp only [h b rfl]
    exact le_add_of_nonneg_right (elapsed_nonneg hrefill _)

/-- What a call does with the tokens: it takes one if it can. -/
theorem tbScript_spec (capacity : Int) (refill : ℚ) (nowMs : Int) (data : Option Bucket)
    (h : 0 ≤ refilled capacity refill nowMs data) :
    (tbScript capacity refill nowMs data).2.ts = nowMs ∧
      0 ≤ (tbScript capacity refill nowMs data).2.tokens ∧
      (tbScript capacity refill nowMs data).2.tokens ≤ refilled capacity refill nowMs data ∧
      (if (tbScript capacity refill nowMs data).1.1 = 1 then (1 : ℚ) else 0) +
        (tbScript capacity refill nowMs data).2.tokens = refilled capacity refill nowMs data := by
  unfold tbScript
  by_cases hone : 1 ≤ refilled capacity refill nowMs data
  · simp only [if_pos hone]
    refine ⟨trivial, ?_, ?_, ?_⟩
    · linarith
    · linarith
    · simp
  · simp only [if_neg hone]
    refine ⟨trivial, h, le_refl _, ?_⟩
    simp

theorem Drawn.allowed_draw (d : Drawn) (nowMs : Int) :
    ((d.draw capacity refill nowMs).allowed : ℚ) =
      d.allowed + if (tbScript capacity refill nowMs d.bucket).1.1 = 1 then (1 : ℚ) else 0 := by
  unfold draw
  simp only
  split
  · exact Nat.cast_succ d.allowed
  · exact (add_zero _).symm

/-- **A run**, by its calls: each one let through is paid for. -/
theorem draw_spec (hcap : 0 ≤ capacity) (hrefill : 0 < refill) (times : List Int) (n : Nat)
    (h0 : 0 ≤ b.tokens) (h1 : b.tokens ≤ capacity) :
    ∃ b', (times.foldl (Drawn.draw capacity refill) ⟨some b, n⟩).bucket = some b' ∧
      0 ≤ b'.tokens ∧ b'.tokens ≤ capacity ∧
      ((times.foldl (Drawn.draw capacity refill) ⟨some b, n⟩).allowed : ℚ) + b'.tokens ≤
        n + b.tokens + refill * (riseFrom b.ts times : Int) / 1000 := by
  induction times generalizing b n with
  | nil => exact ⟨b, rfl, h0, h1, by simp [riseFrom]⟩
  | cons x times ih =>
    obtain ⟨hts, hlo, hhi, hsum⟩ := tbScript_spec capacity refill x (some b)
      (refilled_nonneg hcap hrefill h0 x)
    rw [List.foldl_cons]
    obtain ⟨b', hb', hlo', hhi', hpaid⟩ := ih
      (Drawn.draw capacity refill ⟨some b, n⟩ x).allowed hlo (hhi.trans (refilled_le x _))
    refine ⟨b', hb', hlo', hhi', hpaid.trans ?_⟩
    -- the tokens before the call, and what was refilled, pay for it
    have hrefilled : refilled capacity refill x (some b) ≤
        b.tokens + ((max 0 (x - b.ts) : Int) : ℚ) / 1000 * refill := min_le_right _ _
    rw [Drawn.allowed_draw, hts, riseFrom, Int.cast_add]
    linarith

end

/-! ## The bound -/

/-- **The bound on the calls let through.**  The tokens of a bucket that was absent or full are always
between 0 and the capacity.  If the forward steps of the clocks are no more than the time from one
reading to another, the calls let through are within what is refilled in that time. -/
theorem allowed_le_of_rise (capacity : Int) (refill : ℚ) (start : Option Bucket) (times : List Int)
    (hcap : 1 ≤ capacity) (hrefill : 0 < refill) (hstart : Full capacity start) :
    (∀ b ∈ (drawn capacity refill start times).bucket, 0 ≤ b.tokens ∧ b.tokens ≤ capacity) ∧
    ∀ lo ∈ times, ∀ hi ∈ times, rise times ≤ hi - lo →
      ((drawn capacity refill start times).allowed : ℚ) ≤
        capacity + refill * ((hi : ℚ) - lo) / 1000 := by
  have hcap' : (0 : ℚ) ≤ capacity := by exact_mod_cast (by omega : 0 ≤ capacity)
  cases times with
  | nil =>
    refine ⟨fun b hb => ?_, fun lo hlo => (List.not_mem_nil hlo).elim⟩
    rw [hstart b hb]
    exact ⟨hcap', le_refl _⟩
  | cons x times =>
    have hfull := refilled_full hrefill hstart x
    obtain ⟨hts, hlo, hhi, hsum⟩ := tbScript_spec capacity refill x start (hfull ▸ hcap')
    obtain ⟨b', hb', hlo', hhi', hpaid⟩ := draw_spec (by omega) hrefill times
      (Drawn.draw capacity refill ⟨start, 0⟩ x).allowed hlo (hhi.trans (refilled_le x _))
    constructor
    · intro b hb
      cases hb'.symm.trans hb
      exact ⟨hlo', hhi'⟩
    · intro lo _ hi _ hrise
      have hspan : (riseFrom x times : ℚ) ≤ (hi : ℚ) - lo := by exact_mod_cast hrise
      have hmul := mul_le_mul_of_nonneg_left hspan hrefill.le
      have hcount : ((Drawn.draw capacity refill ⟨start, 0⟩ x).allowed : ℚ) =
          0 + if (tbScript capacity refill x start).1.1 = 1 then (1 : ℚ) else 0 := by
        rw [Drawn.allowed_draw, Nat.cast_zero]
      rw [hcount, hts] at hpaid
      show ((times.foldl (Drawn.draw capacity refill) ⟨some (tbScript capacity refill x start).2,
        (Drawn.draw capacity refill ⟨start, 0⟩ x).allowed⟩).allowed : ℚ) ≤ _
      linarith

/-- Clocks that never go back rise by the time they span. -/
theorem riseFrom_of_sorted {x : Int} {times : List Int} (h : (x :: times).Pairwise (· ≤ ·)) :
    riseFrom x times = (x :: times).getLast (List.cons_ne_nil _ _) - x := by
  induction times generalizing x with
  | nil => simp [riseFrom]
  | cons y times ih =>
    obtain ⟨hx, hrest⟩ := List.pairwise_cons.mp h
    have hle := hx y List.mem_cons_self
    rw [riseFrom, ih hrest, List.getLast_cons_cons, max_eq_right (by omega)]
    omega

theorem allowed_clock_forward :
    (∀ b ∈ (drawn 1 1 none [0, 1000, 1500]).bucket, 0 ≤ b.tokens ∧ b.tokens ≤ (1 : Int)) ∧
      ((drawn 1 1 none [0, 1000, 1500]).allowed : ℚ) ≤
        (1 : Int) + 1 * (((1500 : Int) : ℚ) - (0 : Int)) / 1000 :=
  have h := allowed_le_of_rise 1 1 none [0, 1000, 1500] (by decide) (by decide)
    fun b hb => by cases hb
  ⟨h.1, h.2 0 (by decide) 1500 (by decide) (Int.le_of_eq (riseFrom_of_sorted (by decide)))⟩

/-! A clock goes back by a second and forth again: three calls pass, where the second that the clocks
span allows for two. -/

theorem allowed_clock_back :
    (drawn 1 1 none [0, 1000, 0, 1000]).allowed = 3 ∧
      ¬ (((drawn 1 1 none [0, 1000, 0, 1000]).allowed : ℚ) ≤
        (1 : Int) + 1 * (((1000 : Int) : ℚ) - (0 : Int)) / 1000) := by
  have hthree : (drawn 1 1 none [0, 1000, 0, 1000]).allowed = 3 := by decide +kernel
  refine ⟨hthree, ?_⟩
  rw [hthree]
  norm_num

/-! ## Clocks that go back

Each forward step of the clocks is refilled in full, if the bucket is large and calls come often
enough to drain it. -/

theorem tbScript_congr {capacity : Int} {refill : ℚ} {nowMs : Int} {data data' : Option Bucket}
    (h : refilled capacity refill nowMs data = refilled capacity refill nowMs data') :
    tbScript capacity refill nowMs data = tbScript capacity refill nowMs data' := by
  unfold tbScript
  rw [h]

section
variable {N : Nat}

/-- A token a millisecond is refilled. -/
theorem refilled_millis {k : Nat} {ts x : Int} (h : k + max 0 (x - ts) ≤ N) :
    refilled N 1000 x (some ⟨k, ts⟩) = k + (max 0 (x - ts) : Int) := by
  have hle : (k : ℚ) + (max 0 (x - ts) : Int) ≤ N := by exact_mod_cast h
  rw [refilled_some, div_mul_cancel₀ _ (by norm_num)]
  exact min_eq_right hle

theorem refilled_again {k : Nat} (hk : k ≤ N) (x : Int) :
    refilled N 1000 x (some ⟨k, x⟩) = k := by
  rw [refilled_millis (by simp; exact hk)]
  simp

/-- Calls at one time drain the bucket. -/
theorem draw_replicate {k n : Nat} (hk : k ≤ N) (hn : k ≤ n) (x : Int) (m : Nat) :
    (List.replicate n x).foldl (Drawn.draw N 1000) ⟨some ⟨k, x⟩, m⟩ = ⟨some ⟨0, x⟩, m + k⟩ := by
  induction n generalizing k m with
  | zero =>
    cases Nat.le_zero.mp hn
    rfl
  | succ n ih =>
    rw [List.replicate_succ, List.foldl_cons]
    cases k with
    | zero =>
      have hsame : Drawn.draw N 1000 ⟨some ⟨(0 : Nat), x⟩, m⟩ x = ⟨some ⟨(0 : Nat), x⟩, m⟩ := by
        unfold Drawn.draw tbScript
        rw [refilled_again hk]
        rfl
      rw [hsame]
      exact ih (Nat.zero_le _) (Nat.zero_le _) m
    | succ k =>
      have hnext : Drawn.draw N 1000 ⟨some ⟨(k + 1 : Nat), x⟩, m⟩ x = ⟨some ⟨k, x⟩, m + 1⟩ := by
        unfold Drawn.draw tbScript
        rw [refilled_again hk]
        simp
      rw [hnext, ih (by omega) (by omega)]
      congr 1
      omega

/-- Calls at one time get what is refilled by then. -/
theorem draw_refilled {data : Option Bucket} {k n : Nat} {x : Int}
    (h : refilled N 1000 x data = k) (hn : k ≤ n) (hpos : 1 ≤ n) (m : Nat) :
    (List.replicate n x).foldl (Drawn.draw N 1000) ⟨data, m⟩ = ⟨some ⟨0, x⟩, m + k⟩ := by
  have hk : k ≤ N := by
    have hle : refilled N 1000 x data ≤ (N : Int) := refilled_le x data
    rw [h] at hle
    exact_mod_cast hle
  obtain ⟨n, rfl⟩ := Nat.exists_eq_add_of_le' hpos
  rw [← draw_replicate hk hn, List.replicate_succ, List.foldl_cons, List.foldl_cons]
  unfold Drawn.draw
  simp only
  rw [tbScript_congr (h.trans (refilled_again hk x).symm)]

theorem riseFrom_nonneg (ts : Int) (times : List Int) : 0 ≤ riseFrom ts times := by
  induction times generalizing ts with
  | nil => exact Int.le_refl 0
  | cons x times ih => exact Int.add_nonneg (le_max_left _ _) (ih x)

/-- A drained bucket lets through a call for each millisecond the clocks go forward. -/
theorem draw_drained {n : Nat} {ts : Int} {times : List Int} (hrise : riseFrom ts times ≤ N)
    (hn : N ≤ n) (hpos : 1 ≤ n) (m : Nat) :
    (((times.flatMap (List.replicate n)).foldl (Drawn.draw N 1000) ⟨some ⟨0, ts⟩, m⟩).allowed : Int) =
      m + riseFrom ts times := by
  induction times generalizing ts m with
  | nil => simp [riseFrom]
  | cons x times ih =>
    rw [riseFrom] at hrise
    have hrest := riseFrom_nonneg x times
    obtain ⟨k, hk⟩ := Int.eq_ofNat_of_zero_le (le_max_left 0 (x - ts))
    have hrefilled : refilled N 1000 x (some ⟨0, ts⟩) = k := by
      have hmillis : refilled N 1000 x (some ⟨(0 : Nat), ts⟩) = _ := refilled_millis (by omega)
      rw [hk] at hmillis
      simpa using hmillis
    rw [List.flatMap_cons, List.foldl_append, draw_refilled hrefilled (by omega) hpos,
      ih (by omega), riseFrom, hk]
    push_cast
    omega

end

/-- **The bound fails for other clocks.**  If their forward steps are more than a time span, some
bucket lets more calls through than are refilled in that time. -/
theorem exists_allowed_gt_of_rise {times : List Int} (hne : times ≠ []) {span : Int}
    (h : span < rise times) : ∃ (capacity : Int) (refill : ℚ) (n : Nat), 1 ≤ capacity ∧ 0 < refill ∧
      capacity + refill * (span : ℚ) / 1000 <
        (drawn capacity refill none (times.flatMap (List.replicate n))).allowed := by
  obtain ⟨x, times, rfl⟩ := List.exists_cons_of_ne_nil hne
  obtain ⟨r, hr⟩ := Int.eq_ofNat_of_zero_le (riseFrom_nonneg x times)
  have hallowed : ((drawn (r + 1 : Nat) 1000 none
      ((x :: times).flatMap (List.replicate (r + 1)))).allowed : Int) = (r + 1 : Nat) + r := by
    have hfull : refilled (r + 1 : Nat) 1000 x none = (r + 1 : Nat) :=
      refilled_full (by norm_num) (fun b hb => by cases hb) x
    unfold drawn
    rw [List.flatMap_cons, List.foldl_append, draw_refilled hfull (Nat.le_refl _) (by omega),
      draw_drained (by omega) (Nat.le_refl _) (by omega), hr]
    push_cast
    omega
  refine ⟨(r + 1 : Nat), 1000, r + 1, by omega, by norm_num, ?_⟩
  have hspan : (span : ℚ) < r := by
    have h' : span < (r : Int) := hr ▸ h
    exact_mod_cast h'
  have hallowed' : ((drawn (r + 1 : Nat) 1000 none
      ((x :: times).flatMap (List.replicate (r + 1)))).allowed : ℚ) = (r + 1 : Nat) + r := by
    exact_mod_cast hallowed
  rw [hallowed']
  push_cast
  linarith

end TokenBucket

end EasyPay
