import EasyPay.Lib.Table
import Mathlib.Logic.Function.Basic

/-!
# Tables in parts

A table may be kept in parts, each row in the part its key says (`Split`).  A statement whose
WHERE clause fixes the key then does to one part what it would do to the whole table, and
finds there what it would find in the whole: `Split.filter_eq`, `Split.any_eq`,
`Split.updateWhere`, `Split.concat`.  The parts together are the table: `Split.perm`.
-/

namespace Tables

variable {α κ : Type} [DecidableEq κ]

/-- Each part has the rows of its key, in the order of the table. -/
def Split (key : α → κ) (t : List α) (parts : κ → List α) : Prop :=
  ∀ k, parts k = t.filter fun x => key x = k

/-- An update and a selection that it does not change. -/
theorem filter_updateWhere {p q : α → Bool} {f : α → α} (hf : ∀ x, q (f x) = q x) (t : List α) :
    (updateWhere p f t).filter q = updateWhere p f (t.filter q) := by
  unfold updateWhere
  rw [List.filter_map]
  congr 1
  refine List.filter_congr fun x _ => ?_
  simp only [Function.comp_apply]
  split
  · exact hf x
  · rfl

/-- An update of nothing. -/
theorem updateWhere_eq_self {p : α → Bool} {f : α → α} {t : List α} (h : ∀ x ∈ t, p x = false) :
    updateWhere p f t = t := by
  refine (List.map_congr_left fun x hx => ?_).trans (List.map_id _)
  rw [h x hx]
  rfl

namespace Split

variable {key : α → κ} {t : List α} {parts : κ → List α}

theorem mem_iff (h : Split key t parts) {x : α} {k : κ} : x ∈ parts k ↔ x ∈ t ∧ key x = k := by
  rw [h k, List.mem_filter, decide_eq_true_iff]

theorem mem_own (h : Split key t parts) {x : α} (hx : x ∈ t) : x ∈ parts (key x) :=
  h.mem_iff.mpr ⟨hx, rfl⟩

/-- A clause that fixes the key selects the same rows in the part. -/
theorem filter_eq (h : Split key t parts) {p : α → Bool} {k : κ}
    (hp : ∀ x, p x = true → key x = k) : (parts k).filter p = t.filter p := by
  rw [h k, List.filter_filter]
  refine List.filter_congr fun x _ => ?_
  by_cases hx : p x = true
  · simp [hx, hp x hx]
  · simp [hx]

theorem any_eq (h : Split key t parts) {p : α → Bool} {k : κ}
    (hp : ∀ x, p x = true → key x = k) : (parts k).any p = t.any p := by
  rw [Bool.eq_iff_iff, List.any_eq_true, List.any_eq_true]
  constructor
  · rintro ⟨x, hx, hpx⟩
    exact ⟨x, (h.mem_iff.mp hx).1, hpx⟩
  · rintro ⟨x, hx, hpx⟩
    exact ⟨x, h.mem_iff.mpr ⟨hx, hp x hpx⟩, hpx⟩

/-- A new row goes to the part of its key. -/
theorem concat (h : Split key t parts) (x : α) :
    Split key (t ++ [x]) (Function.update parts (key x) (parts (key x) ++ [x])) := by
  intro k
  rw [List.filter_append]
  by_cases hk : key x = k
  · subst hk
    rw [Function.update_self, h (key x)]
    simp
  · rw [Function.update_of_ne (Ne.symm hk), h k]
    simp [hk]

/-- An update whose clause fixes the key, and that keeps it, is an update of one part. -/
theorem updateWhere (h : Split key t parts) {p : α → Bool} {f : α → α} {k : κ}
    (hp : ∀ x, p x = true → key x = k) (hf : ∀ x, key (f x) = key x) :
    Split key (updateWhere p f t) (Function.update parts k (Tables.updateWhere p f (parts k))) := by
  intro k'
  rw [filter_updateWhere fun x => by rw [hf x]]
  by_cases hk : k' = k
  · subst hk
    rw [Function.update_self, h k']
  · rw [Function.update_of_ne hk, h k']
    -- the clause holds of no row of another part
    refine (updateWhere_eq_self fun x hx => Bool.eq_false_iff.mpr fun hpx => hk ?_).symm
    have hx : key x = k' := of_decide_eq_true (List.mem_filter.mp hx).2
    exact hx.symm.trans (hp x hpx)

end Split

/-- The parts together are the table. -/
theorem Split.perm {key : α → Nat} {t : List α} {parts : Nat → List α} (h : Split key t parts)
    {n : Nat} (hlt : ∀ x ∈ t, key x < n) : ((List.range n).flatMap parts).Perm t := by
  have hbelow : ∀ n, ((List.range n).flatMap parts).Perm (t.filter fun x => key x < n) := by
    intro n
    induction n with
    | zero => simp
    | succ n ih =>
      rw [List.range_succ, List.flatMap_append, List.flatMap_singleton, h n]
      refine (ih.append_right _).trans ?_
      have hsplit := List.filter_append_perm (fun x => decide (key x < n))
        (t.filter fun x => key x < n + 1)
      rw [List.filter_filter, List.filter_filter] at hsplit
      refine .trans (.of_eq ?_) hsplit
      congr 1
      · refine List.filter_congr fun x _ => ?_
        by_cases hx : key x < n
        · simp [hx, Nat.lt_succ_of_lt hx]
        · simp [hx]
      · refine List.filter_congr fun x _ => ?_
        rw [Bool.eq_iff_iff]
        simp only [decide_eq_true_eq, Bool.and_eq_true, Bool.not_eq_true', decide_eq_false_iff_not]
        omega
  refine (hbelow n).trans (.of_eq ?_)
  rw [List.filter_eq_self]
  exact fun x hx => decide_eq_true (hlt x hx)

end Tables
