import EasyPay.Repository.Routing

/-!
# Scatter-gather

`scatterFirst` sends one query to every pool and takes the answers as they arrive.

* `receive_eq`: its receiving loop in closed form: the first row to arrive; or, if there is none, the count of
  the pools that have no row decides.
* `scatterFirst_classifies`: so the outcome is what the pools reported, in whatever order.
-/

namespace EasyPay

open GoStrings Tables

namespace TransactionRepo

/-! ## Answers -/

/-- The pool has no such row. -/
def Missed (a : Res Transaction) : Prop := ∃ e, a = .error e ∧ e.is .notFound = true

/-- The pool could not say. -/
def Failed (a : Res Transaction) : Prop := ∃ e, a = .error e ∧ e.is .notFound = false

/-- The row of an answer, with the shard index of its pool. -/
def row? (logical : List UInt8) : Nat × Res Transaction → Option Transaction
  | (i, .ok t) => some (withShard (logical.getD i 0) t)
  | (_, .error _) => none

/-- The error of an answer, unless it is that there is no row. -/
def failure? : Nat × Res Transaction → Option Err
  | (_, .ok _) => none
  | (_, .error e) => if e.is .notFound then none else some e

def missed : Nat × Res Transaction → Bool
  | (_, .ok _) => false
  | (_, .error e) => e.is .notFound

theorem row?_eq_some {logical : List UInt8} {a : Nat × Res Transaction} {t : Transaction} :
    row? logical a = some t ↔ ∃ t', a.2 = .ok t' ∧ t = withShard (logical.getD a.1 0) t' := by
  obtain ⟨i, x⟩ := a
  cases x with
  | ok t' => simp [row?, eq_comm]
  | error e => simp [row?]

theorem failure?_eq_some {a : Nat × Res Transaction} {e : Err} :
    failure? a = some e ↔ a.2 = .error e ∧ e.is .notFound = false := by
  obtain ⟨i, x⟩ := a
  cases x with
  | ok t => simp [failure?]
  | error e' =>
    cases h : e'.is .notFound with
    | true =>
      simp only [failure?, h, if_true, Except.error.injEq]
      constructor
      · intro hnone
        cases hnone
      · rintro ⟨rfl, hfalse⟩
        cases h.symm.trans hfalse
    | false =>
      simp only [failure?, h, Bool.false_eq_true, if_false, Option.some.injEq, Except.error.injEq]
      constructor
      · rintro rfl
        exact ⟨rfl, h⟩
      · exact fun heq => heq.1

theorem missed_iff {a : Nat × Res Transaction} : missed a = true ↔ Missed a.2 := by
  obtain ⟨i, x⟩ := a
  cases x with
  | ok t => simp [missed, Missed]
  | error e => simp [missed, Missed]

/-! ## The loop -/

/-- **The loop in closed form.** -/
theorem receive_eq (logical : List UInt8) (pools : Nat) (answers : List (Nat × Res Transaction))
    (misses : Nat) (firstErr : Option Err) :
    receive logical pools answers misses firstErr =
      match answers.findSome? (row? logical) with
      | some t => (some t, none)
      | none =>
        if misses + answers.countP missed = pools then (none, some (.of .notFound))
        else (none, firstErr <|> answers.findSome? failure?) := by
  induction answers generalizing misses firstErr with
  | nil => simp [receive]
  | cons a answers ih =>
    obtain ⟨i, x⟩ := a
    cases x with
    | ok t => rfl
    | error e =>
      unfold receive
      rw [List.findSome?_cons, List.countP_cons, List.findSome?_cons]
      cases h : e.is .notFound with
      | true =>
        simp only [if_true, ih, row?, failure?, missed, h]
        rw [show misses + 1 + answers.countP missed = misses + (answers.countP missed + 1) by omega]
      | false =>
        simp only [Bool.false_eq_true, if_false, ih, row?, failure?, missed, h, Nat.add_zero]
        cases firstErr with
        | none => rfl
        | some e' => rfl

theorem receive_start (logical : List UInt8) (pools : Nat) (answers : List (Nat × Res Transaction)) :
    receive logical pools answers 0 none =
      match answers.findSome? (row? logical) with
      | some t => (some t, none)
      | none =>
        if answers.countP missed = pools then (none, some (.of .notFound))
        else (none, answers.findSome? failure?) := by
  rw [receive_eq, Nat.zero_add]
  rfl

/-! ## What the outcome says -/

/-- The two results say what the pools `0 .. pools - 1` have reported, the answers having arrived in
the order of the list. -/
structure Classified (logical : List UInt8) (pools : Nat) (outcome : Nat → Res Transaction)
    (answers : List (Nat × Res Transaction)) (res : Option Transaction × Option Err) : Prop where
  /-- There is a row just when some pool has one... -/
  row_iff : (∃ t, res.1 = some t) ↔ ∃ i < pools, ∃ t, outcome i = .ok t
  /-- ... and it is a row some pool has. -/
  row : ∀ t, res.1 = some t → res.2 = none ∧
    ∃ i < pools, ∃ t', outcome i = .ok t' ∧ t = withShard (logical.getD i 0) t'
  notFound_iff : res = (none, some (.of .notFound)) ↔ ∀ i < pools, Missed (outcome i)
  /-- Otherwise the error is the first failure to arrive. -/
  failure : (∀ i < pools, ∀ t, outcome i ≠ .ok t) → (∃ i < pools, ¬ Missed (outcome i)) →
    ∃ e, res = (none, some e) ∧ e.is .notFound = false ∧
      ∃ before i after, answers = before ++ (i, .error e) :: after ∧ ∀ a ∈ before, ¬ Failed a.2

theorem exists_failure {answers : List (Nat × Res Transaction)}
    (herr : ∀ a ∈ answers, ∀ t, a.2 ≠ .ok t) (hsome : ∃ a ∈ answers, ¬ Missed a.2) :
    ∃ e, answers.findSome? failure? = some e ∧ e.is .notFound = false ∧
      ∃ before i after, answers = before ++ (i, .error e) :: after ∧ ∀ a ∈ before, ¬ Failed a.2 := by
  cases hfind : answers.findSome? failure? with
  | none =>
    -- an error that is not a failure is a miss
    obtain ⟨⟨i, x⟩, ha, hmiss⟩ := hsome
    have hnone := List.findSome?_eq_none_iff.mp hfind _ ha
    cases x with
    | ok t => exact absurd rfl (herr _ ha t)
    | error e =>
      cases h : e.is .notFound with
      | true => exact absurd ⟨e, rfl, h⟩ hmiss
      | false =>
        rw [failure?_eq_some.mpr ⟨rfl, h⟩] at hnone
        cases hnone
  | some e =>
    obtain ⟨before, ⟨i, x⟩, after, rfl, ha, hbefore⟩ := List.findSome?_eq_some_iff.mp hfind
    obtain ⟨rfl, hother⟩ := failure?_eq_some.mp ha
    refine ⟨e, rfl, hother, before, i, after, rfl, fun b hb => ?_⟩
    rintro ⟨e', he', hother'⟩
    have hnone := hbefore b hb
    rw [failure?_eq_some.mpr ⟨he', hother'⟩] at hnone
    cases hnone

variable {pools : Nat} {outcome : Nat → Res Transaction}
  {answers : List (Nat × Res Transaction)}

theorem mem_answers (h : answers.Perm ((List.range pools).map fun i => (i, outcome i)))
    {a : Nat × Res Transaction} : a ∈ answers ↔ a.1 < pools ∧ a.2 = outcome a.1 := by
  rw [h.mem_iff, List.mem_map]
  constructor
  · rintro ⟨i, hi, rfl⟩
    exact ⟨List.mem_range.mp hi, rfl⟩
  · rintro ⟨hi, ha⟩
    exact ⟨a.1, List.mem_range.mpr hi, by rw [← ha]⟩

/-- Every answer is a miss if their count is that of the pools. -/
theorem countP_missed (h : answers.Perm ((List.range pools).map fun i => (i, outcome i))) :
    answers.countP missed = pools ↔ ∀ i < pools, Missed (outcome i) := by
  have hlength : answers.length = pools := by
    rw [h.length_eq, List.length_map, List.length_range]
  constructor
  · intro hcount i hi
    have hall := List.countP_eq_length.mp (hcount.trans hlength.symm)
    exact missed_iff.mp (hall (i, outcome i) ((mem_answers h).mpr ⟨hi, rfl⟩))
  · intro hall
    have hcount : answers.countP missed = answers.length := by
      refine List.countP_eq_length.mpr fun a ha => ?_
      obtain ⟨hi, ha⟩ := (mem_answers h).mp ha
      rw [missed_iff, ha]
      exact hall a.1 hi
    exact hcount.trans hlength

/-- The first row to arrive. -/
theorem Classified.of_row {logical : List UInt8} {i : Nat} {t : Transaction} (hi : i < pools)
    (ht : outcome i = .ok t) :
    Classified logical pools outcome answers (some (withShard (logical.getD i 0) t), none) := by
  refine ⟨⟨fun _ => ⟨i, hi, t, ht⟩, fun _ => ⟨_, rfl⟩⟩, ?_, ?_, ?_⟩
  · rintro _ ⟨⟩
    exact ⟨rfl, i, hi, t, ht, rfl⟩
  · constructor
    · intro heq
      cases heq
    · intro hall
      obtain ⟨e, he, -⟩ := hall i hi
      cases ht.symm.trans he
  · intro hnone
    exact absurd ht (hnone i hi t)

/-- All pools have answered that there is none. -/
theorem Classified.of_missed {logical : List UInt8} (hall : ∀ i < pools, Missed (outcome i)) :
    Classified logical pools outcome answers (none, some (.of .notFound)) := by
  refine ⟨⟨?_, ?_⟩, ?_, ⟨fun _ => hall, fun _ => rfl⟩, ?_⟩
  · rintro ⟨t, ⟨⟩⟩
  · rintro ⟨i, hi, t, ht⟩
    obtain ⟨e, he, -⟩ := hall i hi
    cases ht.symm.trans he
  · rintro t ⟨⟩
  · rintro - ⟨i, hi, hmiss⟩
    exact absurd (hall i hi) hmiss

/-- No pool has a row, and one has failed. -/
theorem Classified.of_failed {logical : List UInt8} {e : Err}
    (herr : ∀ i < pools, ∀ t, outcome i ≠ .ok t) (hmiss : ¬ ∀ i < pools, Missed (outcome i))
    (hother : e.is .notFound = false) (hfirst : ∃ before i after,
      answers = before ++ (i, .error e) :: after ∧ ∀ a ∈ before, ¬ Failed a.2) :
    Classified logical pools outcome answers (none, some e) := by
  refine ⟨⟨?_, ?_⟩, ?_, ⟨?_, fun hall => absurd hall hmiss⟩, fun _ _ => ⟨e, rfl, hother, hfirst⟩⟩
  · rintro ⟨t, ⟨⟩⟩
  · rintro ⟨i, hi, t, ht⟩
    exact absurd ht (herr i hi t)
  · rintro t ⟨⟩
  · intro heq
    cases heq
    cases hother

/-- **Every order of arrival.** -/
theorem receive_classified (logical : List UInt8)
    (h : answers.Perm ((List.range pools).map fun i => (i, outcome i))) :
    Classified logical pools outcome answers (receive logical pools answers 0 none) := by
  rw [receive_start]
  cases hrow : answers.findSome? (row? logical) with
  | some t =>
    obtain ⟨a, ha, hat⟩ := List.exists_of_findSome?_eq_some hrow
    obtain ⟨hi, ha⟩ := (mem_answers h).mp ha
    obtain ⟨t', ht', rfl⟩ := row?_eq_some.mp hat
    rw [ha] at ht'
    exact .of_row hi ht'
  | none =>
    have herrs : ∀ a ∈ answers, ∀ t, a.2 ≠ .ok t := by
      intro a ha t hat
      have hnone := List.findSome?_eq_none_iff.mp hrow a ha
      rw [row?_eq_some.mpr ⟨t, hat, rfl⟩] at hnone
      cases hnone
    have herr : ∀ i < pools, ∀ t, outcome i ≠ .ok t :=
      fun i hi => herrs (i, outcome i) ((mem_answers h).mpr ⟨hi, rfl⟩)
    by_cases hall : ∀ i < pools, Missed (outcome i)
    · simp only [if_pos ((countP_missed h).mpr hall)]
      exact .of_missed hall
    · obtain ⟨i, hi⟩ := not_forall.mp hall
      obtain ⟨hi, hmiss⟩ := Classical.not_imp.mp hi
      obtain ⟨e, hfind, hother, hfirst⟩ := exists_failure herrs
        ⟨(i, outcome i), (mem_answers h).mpr ⟨hi, rfl⟩, hmiss⟩
      simp only [if_neg fun heq => hall ((countP_missed h).mp heq), hfind]
      exact .of_failed herr hall hother hfirst

/-- A pool that is out of order is a failure. -/
theorem failed_queryRow (f : Fault) (pick : Nat) (p : Row → Bool) (table : List Row) :
    Failed (queryRow (some f) pick p table) := ⟨_, rfl, rfl⟩

/-- The two results of the Go function. -/
def results : Res Transaction → Option Transaction × Option Err
  | .ok t => (some t, none)
  | .error e => (none, some e)

theorem results_row {res : Res Transaction} {t : Transaction} (h : (results res).1 = some t) :
    res = .ok t := by
  cases res with
  | ok t' =>
    cases h
    rfl
  | error e => cases h

theorem results_failed {res : Res Transaction} {e : Err} (h : results res = (none, some e)) :
    res = .error e := by
  cases res with
  | ok t => cases h
  | error e' =>
    cases h
    rfl

/-- One of the two results is `nil`, and not both. -/
theorem Classified.results_gather {logical : List UInt8} {res : Option Transaction × Option Err}
    (h : Classified logical pools outcome answers res) : results (gather res) = res := by
  obtain ⟨t?, e?⟩ := res
  cases t? with
  | some t =>
    cases (h.row t rfl).1
    rfl
  | none =>
    cases e? with
    | some e => rfl
    | none =>
      have herr : ∀ i < pools, ∀ t, outcome i ≠ .ok t := by
        intro i hi t ht
        obtain ⟨t', ht'⟩ := h.row_iff.mpr ⟨i, hi, t, ht⟩
        cases ht'
      by_cases hall : ∀ i < pools, Missed (outcome i)
      · cases h.notFound_iff.mpr hall
      · obtain ⟨i, hi⟩ := not_forall.mp hall
        obtain ⟨e, he, -⟩ := h.failure herr ⟨i, Classical.not_imp.mp hi⟩
        cases he

section
variable (R : TransactionRepo) (faults : Nat → Option Fault) (pick : Nat → Nat)
  (arrival : List Nat) (cond : Row → Bool) (db : Pools)

/-- What pool `i` answers. -/
def outcomes (i : Nat) : Res Transaction := queryRow (faults i) (pick i) cond (db i)

/-- The answers in the order in which they arrive. -/
def arrived : List (Nat × Res Transaction) :=
  shuffle arrival ((List.range R.router.pools).map fun i => (i, outcomes faults pick cond db i))

theorem scatterFirst_classified :
    Classified (R.router.physicalToFirstLogical R.router.pools) R.router.pools
      (outcomes faults pick cond db) (arrived R faults pick arrival cond db)
      (results (R.scatterFirst faults pick arrival cond db)) := by
  have hperm : (arrived R faults pick arrival cond db).Perm
      ((List.range R.router.pools).map fun i => (i, outcomes faults pick cond db i)) :=
    shuffle_perm arrival _
  have hclass := receive_classified (R.router.physicalToFirstLogical R.router.pools) hperm
  rw [← hclass.results_gather] at hclass
  exact hclass

end

theorem scatterFirst_failed {R : TransactionRepo} {faults : Nat → Option Fault} {pick : Nat → Nat}
    {arrival : List Nat} {cond : Row → Bool} {db : Pools} {e : Err}
    (hout : ∃ i < R.router.pools, faults i ≠ none)
    (h : R.scatterFirst faults pick arrival cond db = .error e) : e.is .notFound = false := by
  obtain ⟨i, hi, hfault⟩ := hout
  have hmiss : ¬ Missed (outcomes faults pick cond db i) := by
    cases hf : faults i with
    | none => exact absurd hf hfault
    | some f =>
      rintro ⟨e', he', hnotFound⟩
      obtain ⟨e'', he'', hother⟩ := failed_queryRow f (pick i) cond (db i)
      rw [outcomes, hf] at he'
      cases he'.symm.trans he''
      cases hnotFound.symm.trans hother
  have hclass := scatterFirst_classified R faults pick arrival cond db
  rw [h] at hclass
  have hrow : ∀ i < R.router.pools, ∀ t, outcomes faults pick cond db i ≠ .ok t := by
    intro i' hi' t ht
    obtain ⟨t', ht'⟩ := hclass.row_iff.mpr ⟨i', hi', t, ht⟩
    cases ht'
  obtain ⟨e', heq, hother, -⟩ := hclass.failure hrow ⟨i, hi, hmiss⟩
  cases heq
  exact hother

end TransactionRepo

open TransactionRepo

/-- **Outcomes are classified correctly**, for any number of pools, any outcomes and any order of
arrival; so an order is never reported as missing while a pool is out of order. -/
theorem scatterFirst_classifies :
    (∀ (logical : List UInt8) (pools : Nat) (outcome : Nat → Res Transaction)
      (answers : List (Nat × Res Transaction)),
      answers.Perm ((List.range pools).map fun i => (i, outcome i)) →
      Classified logical pools outcome answers (receive logical pools answers 0 none)) ∧
    (∀ (R : TransactionRepo) (faults : Nat → Option Fault) (pick : Nat → Nat) (arrival : List Nat)
      (cond : Row → Bool) (db : Pools),
      Classified (R.router.physicalToFirstLogical R.router.pools) R.router.pools
        (outcomes faults pick cond db) (arrived R faults pick arrival cond db)
        (results (R.scatterFirst faults pick arrival cond db))) ∧
    ∀ (R : TransactionRepo) (faults : Nat → Option Fault) (pick : Nat → Nat) (arrival : List Nat)
      (db : Pools), (∃ i < R.router.pools, faults i ≠ none) →
      (∀ o e, R.getByOrderIDAny faults pick arrival o db = .error e → e.is .notFound = false) ∧
      ∀ pi e, pi ≠ [] → R.getByPaymentIntentID faults pick arrival pi db = .error e →
        e.is .notFound = false := by
  refine ⟨?_, ?_, ?_⟩
  · intro logical pools outcome answers h
    exact receive_classified logical h
  · exact scatterFirst_classified
  · intro R faults pick arrival db hout
    constructor
    · intro o e h
      unfold getByOrderIDAny at h
      split at h
      · next he =>
        cases h
        rw [Err.is, validateOrderID_error he]
        rfl
      · exact scatterFirst_failed hout h
    · intro pi e hpi h
      unfold getByPaymentIntentID at h
      rw [if_neg hpi] at h
      exact scatterFirst_failed hout h

/-- A repository over two pools. -/
def twoPools : TransactionRepo := ⟨.ascii, .binary, .two⟩

/-- The second of the two pools is out of order. -/
def secondOut (i : Nat) : Option Fault := if i = 1 then some .badConnection else none

/-- The first pool has no row and the second cannot say, whichever answers first. -/
theorem scatterFirst_classifies_outage :
    (∃ e, results (twoPools.scatterFirst secondOut (fun _ => 0) [1] (fun _ => true) fun _ => []) =
      (none, some e) ∧ e.is .notFound = false) ∧
    ∃ e, twoPools.getByOrderIDAny secondOut (fun _ => 0) [0] (bytes "o") (fun _ => []) = .error e ∧
      e.is .notFound = false := by
  obtain ⟨-, hclass, hout⟩ := scatterFirst_classifies
  constructor
  · have hfailed : ∀ i < 2, ∀ t,
        outcomes secondOut (fun _ => 0) (fun _ => true) (fun _ => []) i ≠ .ok t := by
      intro i hi t ht
      rcases (by omega : i = 0 ∨ i = 1) with rfl | rfl
      · cases ht
      · cases ht
    have hmiss : ¬ Missed (outcomes secondOut (fun _ => 0) (fun _ => true) (fun _ => []) 1) := by
      rintro ⟨e, he, hnotFound⟩
      cases he
      cases hnotFound
    obtain ⟨e, he, hother, -⟩ := (hclass twoPools secondOut (fun _ => 0) [1] (fun _ => true)
      fun _ => []).failure hfailed ⟨1, by decide, hmiss⟩
    exact ⟨e, he, hother⟩
  · exact ⟨_, rfl, (hout twoPools secondOut (fun _ => 0) [0] (fun _ => [])
      ⟨1, by decide, nofun⟩).1 (bytes "o") _ rfl⟩

end EasyPay
