import Mathlib.Data.List.Forall2
import Mathlib.Data.List.MinMax
import Mathlib.Data.List.Nodup
import Mathlib.Data.List.Perm.Basic
import Mathlib.Order.Lattice
import Mathlib.Order.Nat

/-!
# Tables

An SQL table is a list of rows.  One statement is one function on it:

* `insertUnique key x t`: INSERT under a unique key, refused when the key is taken;
* `updateWhere p f t`: UPDATE of every row that satisfies the WHERE clause `p`;
* `selectOne n p t`: SELECT with LIMIT 1, where the database is free to return any
  row that satisfies `p`; the number `n` says which.

What an update leaves alone is said by columns: a column `g` that the new row
keeps has the same values before and after (`map_updateWhere`); or row by row
(`forall₂_updateWhere`).  `shuffle` is any order in which a list of answers can
come in.

`load col t k` counts the rows with the value `k` in a column; rows that always get the
value with the fewest rows keep the loads `Balanced`.
-/

namespace Tables

variable {α β κ : Type}

/-! ## Free choices -/

/-- The entry of `l` that the number `n` stands for, if `l` has any. -/
def pickFrom (n : Nat) (l : List α) : Option α := l[n % l.length]?

theorem pickFrom_mem {n : Nat} {l : List α} {a : α} (h : pickFrom n l = some a) : a ∈ l :=
  List.mem_of_getElem? h

theorem pickFrom_eq_none {n : Nat} {l : List α} : pickFrom n l = none ↔ l = [] := by
  unfold pickFrom
  rw [List.getElem?_eq_none_iff]
  constructor
  · intro h
    by_contra hne
    have := Nat.mod_lt n (List.length_pos_iff.mpr hne)
    omega
  · rintro rfl
    exact Nat.zero_le _

theorem exists_pickFrom {l : List α} {a : α} (h : a ∈ l) : ∃ n, pickFrom n l = some a := by
  obtain ⟨n, hn, rfl⟩ := List.mem_iff_getElem.mp h
  refine ⟨n, ?_⟩
  unfold pickFrom
  rw [Nat.mod_eq_of_lt hn, List.getElem?_eq_getElem hn]

/-- Take entries out one after another, as the numbers say; the rest stays in order. -/
def shuffle : List Nat → List α → List α
  | [], l => l
  | n :: ns, l =>
    match pickFrom n l with
    | some a => a :: shuffle ns (l.eraseIdx (n % l.length))
    | none => []

theorem shuffle_perm (ns : List Nat) (l : List α) : (shuffle ns l).Perm l := by
  induction ns generalizing l with
  | nil => exact .refl l
  | cons n ns ih =>
    unfold shuffle
    cases h : pickFrom n l with
    | none =>
      rw [pickFrom_eq_none.mp h]
    | some a =>
      unfold pickFrom at h
      obtain ⟨hlt, ha⟩ := List.getElem?_eq_some_iff.mp h
      refine ((ih _).cons a).trans ?_
      rw [← ha]
      exact List.getElem_cons_eraseIdx_perm hlt

theorem shuffle_map (f : α → β) (ns : List Nat) (l : List α) :
    shuffle ns (l.map f) = (shuffle ns l).map f := by
  induction ns generalizing l with
  | nil => rfl
  | cons n ns ih =>
    have hpick : pickFrom n (l.map f) = (pickFrom n l).map f := by
      unfold pickFrom
      rw [List.length_map, List.getElem?_map]
    unfold shuffle
    rw [hpick]
    cases pickFrom n l with
    | none => rfl
    | some a => simp [List.eraseIdx_map, ih]

/-- Every order is a shuffle. -/
theorem exists_shuffle {l' l : List α} (h : l'.Perm l) : ∃ ns, shuffle ns l = l' := by
  induction l' generalizing l with
  | nil =>
    rw [← h.nil_eq]
    exact ⟨[], rfl⟩
  | cons a l' ih =>
    obtain ⟨k, hk⟩ := List.mem_iff_getElem?.mp (h.mem_iff.mp List.mem_cons_self)
    obtain ⟨hlt, ha⟩ := List.getElem?_eq_some_iff.mp hk
    have hrest : l'.Perm (l.eraseIdx k) := by
      refine List.Perm.cons_inv (a := a) (h.trans ?_)
      rw [← ha]
      exact (List.getElem_cons_eraseIdx_perm hlt).symm
    obtain ⟨ns, hns⟩ := ih hrest
    refine ⟨k :: ns, ?_⟩
    unfold shuffle pickFrom
    rw [Nat.mod_eq_of_lt hlt, hk]
    simp only [hns]

/-- Reordering the images is reordering what they are of. -/
theorem exists_perm_of_perm_map {f : α → β} {l : List α} {l' : List β} (h : l'.Perm (l.map f)) :
    ∃ m : List α, m.Perm l ∧ m.map f = l' := by
  obtain ⟨ns, rfl⟩ := exists_shuffle h
  exact ⟨shuffle ns l, shuffle_perm ns l, (shuffle_map f ns l).symm⟩

/-! ## INSERT -/

section
variable [DecidableEq κ]

def insertUnique (key : α → κ) (x : α) (t : List α) : Option (List α) :=
  if t.any fun y => key y = key x then none else some (t ++ [x])

theorem insertUnique_eq_none {key : α → κ} {x : α} {t : List α} :
    insertUnique key x t = none ↔ ∃ y ∈ t, key y = key x := by
  unfold insertUnique
  split
  · next h => simpa using h
  · next h => simpa using h

theorem insertUnique_eq_some {key : α → κ} {x : α} {t t' : List α} :
    insertUnique key x t = some t' ↔ (∀ y ∈ t, key y ≠ key x) ∧ t' = t ++ [x] := by
  unfold insertUnique
  split
  · next h =>
    obtain ⟨y, hy, hk⟩ := List.any_eq_true.mp h
    constructor
    · intro h'
      cases h'
    · rintro ⟨hne, -⟩
      exact absurd (of_decide_eq_true hk) (hne y hy)
  · next h =>
    have hne : ∀ y ∈ t, key y ≠ key x := by simpa using h
    constructor
    · intro h'
      exact ⟨hne, (Option.some.inj h').symm⟩
    · rintro ⟨-, rfl⟩
      rfl

end

/-! ## UPDATE -/

def updateWhere (p : α → Bool) (f : α → α) (t : List α) : List α :=
  t.map fun x => if p x then f x else x

theorem mem_updateWhere {p : α → Bool} {f : α → α} {t : List α} {y : α} :
    y ∈ updateWhere p f t ↔ ∃ x ∈ t, y = if p x then f x else x := by
  unfold updateWhere
  rw [List.mem_map]
  exact ⟨fun ⟨x, hx, e⟩ => ⟨x, hx, e.symm⟩, fun ⟨x, hx, e⟩ => ⟨x, hx, e.symm⟩⟩

/-- An update keeps every column that the new row keeps. -/
theorem map_updateWhere (g : α → β) {p : α → Bool} {f : α → α} (h : ∀ x, g (f x) = g x)
    (t : List α) : (updateWhere p f t).map g = t.map g := by
  unfold updateWhere
  rw [List.map_map]
  apply List.map_congr_left
  intro x _
  show g (if p x then f x else x) = g x
  split
  · exact h x
  · rfl

/-- Row by row, an update is what it does to each. -/
theorem forall₂_updateWhere {R : α → α → Prop} {p : α → Bool} {f : α → α} {t : List α} :
    List.Forall₂ R t (updateWhere p f t) ↔ ∀ x ∈ t, R x (if p x then f x else x) := by
  unfold updateWhere
  rw [List.forall₂_map_right_iff, List.forall₂_same]

/-- Of two tables that agree row by row, each row has its counterpart in the other. -/
theorem exists_right_of_forall₂ {R : α → β → Prop} {s : List α} {t : List β}
    (h : List.Forall₂ R s t) {x : α} (hx : x ∈ s) : ∃ y ∈ t, R x y := by
  induction h with
  | nil => cases hx
  | @cons a b s t hab _ ih =>
    rcases List.mem_cons.mp hx with rfl | hx
    · exact ⟨b, List.mem_cons_self, hab⟩
    · obtain ⟨y, hy, hxy⟩ := ih hx
      exact ⟨y, List.mem_cons_of_mem _ hy, hxy⟩

theorem exists_left_of_forall₂ {R : α → β → Prop} {s : List α} {t : List β}
    (h : List.Forall₂ R s t) {y : β} (hy : y ∈ t) : ∃ x ∈ s, R x y :=
  exists_right_of_forall₂ (R := flip R) h.flip hy

theorem getElem?_of_forall₂ {R : α → β → Prop} {s : List α} {t : List β} (h : List.Forall₂ R s t)
    {n : Nat} {x : α} (hx : s[n]? = some x) : ∃ y, t[n]? = some y ∧ R x y := by
  obtain ⟨hlt, rfl⟩ := List.getElem?_eq_some_iff.mp hx
  have hlt' : n < t.length := h.length_eq ▸ hlt
  exact ⟨t[n], List.getElem?_eq_getElem hlt', h.get hlt hlt'⟩

theorem forall₂_mem_right {R : α → β → Prop} {s : List α} {t : List β} (h : List.Forall₂ R s t) :
    List.Forall₂ (fun x y => R x y ∧ y ∈ t) s t := by
  induction h with
  | nil => exact .nil
  | cons hab _ ih =>
    refine .cons ⟨hab, List.mem_cons_self⟩ (ih.imp fun x y hxy => ?_)
    exact ⟨hxy.1, List.mem_cons_of_mem _ hxy.2⟩

theorem forall₂_trans {γ : Type} {R : α → β → Prop} {R' : β → γ → Prop} {T : α → γ → Prop}
    (htrans : ∀ a b c, R a b → R' b c → T a c) {s : List α} {t : List β} {u : List γ}
    (h : List.Forall₂ R s t) (h' : List.Forall₂ R' t u) : List.Forall₂ T s u := by
  induction h generalizing u with
  | nil =>
    cases h'
    exact .nil
  | @cons a b s t hab _ ih =>
    cases h' with
    | @cons _ c _ u hbc htu => exact .cons (htrans a b c hab hbc) (ih htu)

/-- A row with a key of its own is put at the end of a table with unique keys. -/
theorem nodup_map_concat {key : α → β} {t : List α} {x : α} (ht : (t.map key).Nodup)
    (hx : ∀ y ∈ t, key y ≠ key x) : ((t ++ [x]).map key).Nodup := by
  rw [List.map_append, List.nodup_append]
  refine ⟨ht, List.nodup_singleton _, ?_⟩
  rintro a ha b hb rfl
  obtain ⟨y, hy, rfl⟩ := List.mem_map.mp ha
  exact hx y hy (List.mem_singleton.mp hb)

/-! ## SELECT ... LIMIT 1 -/

def selectOne (n : Nat) (p : α → Bool) (t : List α) : Option α := pickFrom n (t.filter p)

theorem selectOne_some {n : Nat} {p : α → Bool} {t : List α} {x : α}
    (h : selectOne n p t = some x) : x ∈ t ∧ p x = true :=
  List.mem_filter.mp (pickFrom_mem h)

theorem selectOne_none {n : Nat} {p : α → Bool} {t : List α} :
    selectOne n p t = none ↔ ∀ x ∈ t, p x = false := by
  unfold selectOne
  rw [pickFrom_eq_none, List.filter_eq_nil_iff]
  simp

/-! ## SELECT ... ORDER BY ... LIMIT -/

/-- Of the entries that come before all others the limit leaves out none it has room for. -/
theorem countP_take {p : α → Bool} {l : List α} (hl : l.Pairwise fun a b => p b = true → p a = true)
    (n : Nat) : (l.take n).countP p = min n (l.countP p) := by
  induction l generalizing n with
  | nil => simp
  | cons a l ih =>
    obtain ⟨ha, hl⟩ := List.pairwise_cons.mp hl
    cases n with
    | zero => simp
    | succ n =>
      rw [List.take_succ_cons]
      by_cases hpa : p a = true
      · rw [List.countP_cons_of_pos hpa, List.countP_cons_of_pos hpa, ih hl]
        omega
      · -- then none comes after `a`
        have hnone : l.countP p = 0 := by
          rw [List.countP_eq_zero]
          exact fun b hb hpb => hpa (ha b hb hpb)
        rw [List.countP_cons_of_neg hpa, List.countP_cons_of_neg hpa, ih hl, hnone]
        omega

/-- Cutting each part to `k` entries does not show in the first `k`. -/
theorem min_length_flatMap_take (k : Nat) (parts : List (List α)) :
    min k (parts.flatMap fun s => s.take k).length = min k parts.flatten.length := by
  induction parts with
  | nil => rfl
  | cons s parts ih =>
    rw [List.flatMap_cons, List.flatten_cons, List.length_append, List.length_append, List.length_take]
    omega

theorem perm_take_drop (k : Nat) (parts : List (List α)) :
    ((parts.flatMap fun s => s.take k) ++ parts.flatMap fun s => s.drop k).Perm parts.flatten := by
  have h := List.flatMap_append_perm parts (fun s => s.take k) fun s => s.drop k
  simp only [List.take_append_drop] at h
  rwa [List.flatMap_id'] at h

/-- **The first of all.**  Let every part be in order, and `m` the first `k` entries of each, all of
them in order.  Then the first `k` entries of `m` are the first of all: what is left out is not
before any of them. -/
theorem take_merged [LinearOrder κ] {key : α → κ} {k : Nat} {parts : List (List α)} {m : List α}
    (hparts : ∀ s ∈ parts, s.Pairwise fun a b => key a ≤ key b)
    (hm : m.Perm (parts.flatMap fun s => s.take k)) (hsorted : m.Pairwise fun a b => key a ≤ key b) :
    ∃ omitted, (m.take k ++ omitted).Perm parts.flatten ∧
      (m.take k).length = min k parts.flatten.length ∧
      ∀ x ∈ m.take k, ∀ y ∈ omitted, key x ≤ key y := by
  refine ⟨m.drop k ++ parts.flatMap fun s => s.drop k, ?_, ?_, ?_⟩
  · rw [← List.append_assoc, List.take_append_drop]
    exact (hm.append_right _).trans (perm_take_drop k parts)
  · rw [List.length_take, hm.length_eq, min_length_flatMap_take]
  intro x hx y hy
  rcases List.mem_append.mp hy with hy | hy
  · rw [← List.take_append_drop k m, List.pairwise_append] at hsorted
    exact hsorted.2.2 x hx y hy
  -- a part that is cut has `k` entries before `y`, and these alone fill the first `k` of `m`
  obtain ⟨s, hs, hy⟩ := List.mem_flatMap.mp hy
  have hfirst : ∀ a ∈ s.take k, decide (key a ≤ key y) = true := by
    have hpart := hparts s hs
    rw [← List.take_append_drop k s, List.pairwise_append] at hpart
    exact fun a ha => decide_eq_true (hpart.2.2 a ha y hy)
  have hcount : k ≤ m.countP fun a => decide (key a ≤ key y) := by
    have hlong : k < s.length := by
      have := List.length_pos_of_mem hy
      rw [List.length_drop] at this
      omega
    have hsub : (s.take k).countP (fun a => decide (key a ≤ key y)) ≤
        m.countP fun a => decide (key a ≤ key y) := by
      rw [hm.countP_eq]
      obtain ⟨l₁, l₂, rfl⟩ := List.append_of_mem hs
      rw [List.flatMap_append, List.flatMap_cons, List.countP_append, List.countP_append]
      omega
    rw [List.countP_eq_length.mpr hfirst, List.length_take] at hsub
    omega
  have htake := countP_take (p := fun a => decide (key a ≤ key y))
    (hsorted.imp fun hab hb => decide_eq_true (hab.trans (of_decide_eq_true hb))) k
  have hall : (m.take k).countP (fun a => decide (key a ≤ key y)) = (m.take k).length := by
    have hle := List.countP_le_length (p := fun a => decide (key a ≤ key y)) (l := m.take k)
    have hlen := List.length_take_le k m
    omega
  exact of_decide_eq_true (List.countP_eq_length.mp hall x hx)

/-! ## The least row -/

/-- A loop that keeps the name and the value of the least row so far ends with the first of the
least rows. -/
theorem foldl_least [LinearOrder β] (name : α → κ) (val : α → β) (x : α) (t : List α) :
    ∃ m ∈ (x :: t).argmin val,
      t.foldl (fun best y => if val y < best.2 then (name y, val y) else best) (name x, val x) =
        (name m, val m) := by
  induction t using List.reverseRecOn with
  | nil => exact ⟨x, List.argmin_singleton, rfl⟩
  | append_singleton t y ih =>
    obtain ⟨m, hm, hfold⟩ := ih
    have hargmin : (x :: (t ++ [y])).argmin val = if val y < val m then some y else some m := by
      rw [← List.cons_append, List.argmin_concat, Option.mem_def.mp hm]
    rw [List.foldl_append, hfold, List.foldl_cons, List.foldl_nil, hargmin]
    by_cases hlt : val y < val m
    · rw [if_pos hlt]
      exact ⟨y, rfl, if_pos hlt⟩
    · rw [if_neg hlt]
      exact ⟨m, rfl, if_neg hlt⟩

/-! ## COUNT -/

/-- Row by row, what is counted in the second table is counted in the first... -/
theorem countP_le_of_forall₂ {R : α → β → Prop} {p : α → Bool} {p' : β → Bool}
    (hR : ∀ a b, R a b → p' b = true → p a = true) {s : List α} {t : List β}
    (h : List.Forall₂ R s t) : t.countP p' ≤ s.countP p := by
  induction h with
  | nil => exact le_refl 0
  | @cons a b s t hab _ ih =>
    by_cases hb : p' b = true
    · rw [List.countP_cons_of_pos hb, List.countP_cons_of_pos (hR a b hab hb)]
      omega
    · rw [List.countP_cons_of_neg hb]
      exact ih.trans (List.sublist_cons_self a s).countP_le

/-- ... and one row is counted in the first only. -/
theorem countP_lt_of_forall₂ {R : α → β → Prop} {p : α → Bool} {p' : β → Bool}
    (hR : ∀ a b, R a b → p' b = true → p a = true) {s : List α} {t : List β}
    (h : List.Forall₂ R s t) {x : α} (hx : x ∈ s) (hpx : p x = true)
    (hstop : ∀ y, R x y → p' y = false) : t.countP p' < s.countP p := by
  induction h with
  | nil => cases hx
  | @cons a b s t hab hst ih =>
    rcases List.mem_cons.mp hx with rfl | hx
    · have hle := countP_le_of_forall₂ hR hst
      rw [List.countP_cons_of_pos hpx, List.countP_cons_of_neg (by rw [hstop b hab]; decide)]
      omega
    · have hlt := ih hx
      by_cases hb : p' b = true
      · rw [List.countP_cons_of_pos hb, List.countP_cons_of_pos (hR a b hab hb)]
        omega
      · rw [List.countP_cons_of_neg hb]
        exact hlt.trans_le (List.sublist_cons_self a s).countP_le

section
variable [DecidableEq κ]

/-- How many rows have the value `k` in the column `col`. -/
def load (col : α → κ) (t : List α) (k : κ) : Nat := t.countP fun x => col x = k

/-- Loads of which no two differ by more than one. -/
def Balanced (s : Set κ) (f : κ → Nat) : Prop := ∀ i ∈ s, ∀ j ∈ s, f i ≤ f j + 1

theorem load_concat (col : α → κ) (t : List α) (x : α) :
    load col (t ++ [x]) = Function.update (load col t) (col x) (load col t (col x) + 1) := by
  funext k
  unfold load
  rw [List.countP_append, List.countP_singleton]
  by_cases hk : k = col x
  · subst hk
    simp
  · rw [Function.update_of_ne hk, if_neg (by simpa using Ne.symm hk), Nat.add_zero]

theorem load_eq_zero {col : α → κ} {t : List α} {k : κ} :
    load col t k = 0 ↔ ∀ x ∈ t, col x ≠ k := by
  unfold load
  simp

/-- One more at a least loaded place. -/
theorem Balanced.place {s : Set κ} {f : κ → Nat} (h : Balanced s f) {k : κ}
    (hk : ∀ j ∈ s, f k ≤ f j) : Balanced s (Function.update f k (f k + 1)) := by
  have hmono : ∀ j, f j ≤ Function.update f k (f k + 1) j := by
    intro j
    by_cases hj : j = k
    · subst hj
      rw [Function.update_self]
      omega
    · rw [Function.update_of_ne hj]
  intro i hi j hj
  by_cases hik : i = k
  · subst hik
    rw [Function.update_self]
    exact Nat.succ_le_succ ((hk j hj).trans (hmono j))
  · rw [Function.update_of_ne hik]
    exact (h i hi j hj).trans (Nat.succ_le_succ (hmono j))

end

end Tables
