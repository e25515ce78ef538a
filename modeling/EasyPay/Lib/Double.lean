import Mathlib.Algebra.Group.Nat.Defs
import Mathlib.Data.Int.Order.Basic

/-!
# Integers in double precision

`round n` is the number of IEEE 754 double precision next to the integer `n`, the even one of two: 53
bits are kept.  Numbers too large for a double are not looked at.

* `round_mono`: rounding keeps the order.
* `round_of_lt`: it leaves integers below 2^53 as they are.
* `round_near`: it moves an integer below 2^61 by 128 at most.
-/

namespace Double

/-- The distance between the doubles around `n`. -/
def ulp (n : Nat) : Nat := 2 ^ (n.log2 - 52)

def roundNat (n : Nat) : Nat :=
  let q := n / ulp n
  let r := n % ulp n
  if 2 * r < ulp n ∨ (2 * r = ulp n ∧ q % 2 = 0) then q * ulp n else (q + 1) * ulp n

def round : Int → Int
  | .ofNat n => roundNat n
  | .negSucc n => -roundNat (n + 1)

theorem ulp_pos (n : Nat) : 0 < ulp n := Nat.two_pow_pos _

/-- Rounding goes to one of the two doubles around the number. -/
theorem roundNat_cases (n : Nat) :
    (roundNat n = n / ulp n * ulp n ∧ 2 * (n % ulp n) ≤ ulp n) ∨
      (roundNat n = (n / ulp n + 1) * ulp n ∧ ulp n ≤ 2 * (n % ulp n)) := by
  unfold roundNat
  simp only
  split
  · next h => exact .inl ⟨rfl, by omega⟩
  · next h => exact .inr ⟨rfl, by omega⟩

theorem le_roundNat (n : Nat) : n / ulp n * ulp n ≤ roundNat n := by
  rcases roundNat_cases n with ⟨h, -⟩ | ⟨h, -⟩
  · exact Nat.le_of_eq h.symm
  · rw [h]
    exact Nat.mul_le_mul_right _ (Nat.le_succ _)

theorem roundNat_le (n : Nat) : roundNat n ≤ (n / ulp n + 1) * ulp n := by
  rcases roundNat_cases n with ⟨h, -⟩ | ⟨h, -⟩
  · rw [h]
    exact Nat.mul_le_mul_right _ (Nat.le_succ _)
  · exact Nat.le_of_eq h

/-- Half the distance between two doubles is the most a number is moved by. -/
theorem roundNat_near (n : Nat) :
    2 * roundNat n ≤ 2 * n + ulp n ∧ 2 * n ≤ 2 * roundNat n + ulp n := by
  have hn : n / ulp n * ulp n + n % ulp n = n := Nat.div_add_mod' n (ulp n)
  have hr := Nat.mod_lt n (ulp_pos n)
  rcases roundNat_cases n with ⟨h, hle⟩ | ⟨h, hle⟩
  · omega
  · rw [Nat.add_mul, Nat.one_mul] at h
    omega

theorem roundNat_of_lt {n : Nat} (h : n < 2 ^ 53) : roundNat n = n := by
  have hulp : ulp n = 1 := by
    have hlog : n.log2 < 53 := by
      by_cases hzero : n = 0
      · rw [hzero]
        decide
      · exact (Nat.log2_lt hzero).mpr h
    unfold ulp
    rw [show n.log2 - 52 = 0 by omega, Nat.pow_zero]
  have hnear := roundNat_near n
  omega

/-! ## Order -/

/-- A power of two is one of the doubles. -/
theorem ulp_dvd (n : Nat) {k : Nat} (h : n.log2 ≤ k) : ulp n ∣ 2 ^ k :=
  Nat.pow_dvd_pow 2 (by omega)

theorem roundNat_le_pow (n : Nat) : roundNat n ≤ 2 ^ (n.log2 + 1) := by
  obtain ⟨c, hc⟩ := ulp_dvd n (Nat.le_succ n.log2)
  have hlt : n / ulp n < c := by
    refine Nat.div_lt_of_lt_mul ?_
    rw [← hc]
    exact Nat.lt_log2_self
  calc roundNat n ≤ (n / ulp n + 1) * ulp n := roundNat_le n
    _ ≤ c * ulp n := Nat.mul_le_mul_right _ hlt
    _ = 2 ^ (n.log2 + 1) := by rw [hc, Nat.mul_comm]

theorem pow_le_roundNat {n : Nat} (h : n ≠ 0) : 2 ^ n.log2 ≤ roundNat n := by
  obtain ⟨c, hc⟩ := ulp_dvd n (Nat.le_refl n.log2)
  have hle : c ≤ n / ulp n := by
    refine (Nat.le_div_iff_mul_le (ulp_pos n)).mpr ?_
    rw [Nat.mul_comm, ← hc]
    exact Nat.log2_self_le h
  calc 2 ^ n.log2 = c * ulp n := by rw [hc, Nat.mul_comm]
    _ ≤ n / ulp n * ulp n := Nat.mul_le_mul_right _ hle
    _ ≤ roundNat n := le_roundNat n

theorem roundNat_mono {m n : Nat} (h : m ≤ n) : roundNat m ≤ roundNat n := by
  by_cases hm : m = 0
  · rw [hm]
    exact Nat.zero_le _
  have hn : n ≠ 0 := by omega
  have hlog : m.log2 ≤ n.log2 :=
    (Nat.le_log2 hn).mpr (Nat.le_trans (Nat.log2_self_le hm) h)
  rcases Nat.lt_or_eq_of_le hlog with hlt | heq
  · -- a power of two is between them
    calc roundNat m ≤ 2 ^ (m.log2 + 1) := roundNat_le_pow m
      _ ≤ 2 ^ n.log2 := Nat.pow_le_pow_right (by decide) hlt
      _ ≤ roundNat n := pow_le_roundNat hn
  · have hulp : ulp m = ulp n := by
      unfold ulp
      rw [heq]
    rcases Nat.lt_or_eq_of_le (Nat.div_le_div_right (c := ulp n) h) with hq | hq
    · calc roundNat m ≤ (m / ulp m + 1) * ulp m := roundNat_le m
        _ ≤ n / ulp n * ulp n := by
          rw [hulp]
          exact Nat.mul_le_mul_right _ hq
        _ ≤ roundNat n := le_roundNat n
    · -- between the same two doubles, what is larger is not nearer to the lower one
      have hr : m % ulp n ≤ n % ulp n := by
        have h₁ := Nat.div_add_mod' m (ulp n)
        have h₂ := Nat.div_add_mod' n (ulp n)
        rw [hq] at h₁
        omega
      unfold roundNat
      simp only [hulp, hq]
      split
      · split
        · exact Nat.le_refl _
        · exact Nat.mul_le_mul_right _ (Nat.le_succ _)
      · next hup =>
        have hup' : ¬ (2 * (n % ulp n) < ulp n ∨ (2 * (n % ulp n) = ulp n ∧ n / ulp n % 2 = 0)) := by
          omega
        exact Nat.le_of_eq (if_neg hup').symm

theorem round_mono {m n : Int} (h : m ≤ n) : round m ≤ round n := by
  match m, n with
  | .ofNat m, .ofNat n => exact Int.ofNat_le.mpr (roundNat_mono (Int.ofNat_le.mp h))
  | .ofNat m, .negSucc n =>
    have hneg := Int.negSucc_lt_zero n
    have hpos : (0 : Int) ≤ Int.ofNat m := Int.natCast_nonneg m
    omega
  | .negSucc m, .ofNat n =>
    show -(roundNat (m + 1) : Int) ≤ (roundNat n : Int)
    omega
  | .negSucc m, .negSucc n =>
    have hle : roundNat (n + 1) ≤ roundNat (m + 1) := roundNat_mono (by omega)
    show -(roundNat (m + 1) : Int) ≤ -(roundNat (n + 1) : Int)
    omega

/-! ## Distance -/

theorem round_of_lt {n : Int} (h : n.natAbs < 2 ^ 53) : round n = n := by
  cases n with
  | ofNat n => exact congrArg Int.ofNat (roundNat_of_lt h)
  | negSucc n =>
    have hsame : roundNat (n + 1) = n + 1 := roundNat_of_lt h
    show -(roundNat (n + 1) : Int) = _
    rw [hsame]
    rfl

theorem ulp_le {n : Nat} (h : n < 2 ^ 61) : ulp n ≤ 256 := by
  by_cases hzero : n = 0
  · rw [hzero]
    decide
  · have hlog := (Nat.log2_lt hzero).mpr h
    exact Nat.pow_le_pow_right (n := 2) (j := 8) (by decide) (by omega)

theorem round_near {n : Int} (h : n.natAbs < 2 ^ 61) : n - 128 ≤ round n ∧ round n ≤ n + 128 := by
  have hnear := roundNat_near n.natAbs
  have hulp := ulp_le h
  cases n with
  | ofNat n =>
    show (n : Int) - 128 ≤ (roundNat n : Int) ∧ (roundNat n : Int) ≤ (n : Int) + 128
    simp only [Int.ofNat_eq_natCast, Int.natAbs_natCast] at hnear hulp
    omega
  | negSucc n =>
    show Int.negSucc n - 128 ≤ -(roundNat (n + 1) : Int) ∧ -(roundNat (n + 1) : Int) ≤ Int.negSucc n + 128
    simp only [Int.natAbs_negSucc, Nat.succ_eq_add_one] at hnear hulp
    omega

end Double
