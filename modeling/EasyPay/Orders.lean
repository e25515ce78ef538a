import EasyPay.System

/-!
# The orders of a run

Started with empty tables, in every state of every run of the gateway the rows are those
of the `Create` calls whose insert went through, one row each, and their facts stay as
they were inserted (`orders_invariant`).  A `Create` that lost the race reads the order of
the one that won it (`lookups_invariant`).

The other jobs of the run are arbitrary: they change the status, the session and the
payment intent of a row, nothing that identifies it.
-/

namespace EasyPay

open GoStrings Tables Ports

/-- What `Create` stores for a request whose currency has the code `code`. -/
def factsOf (D : Deployment) (M : Merchant) (inp : CreatePaymentInput) (code : UInt16) : Facts :=
  { transactionID := D.hash16 (hashInput M.merchantID inp.orderID)
    merchantID := M.merchantID
    orderID := inp.orderID
    amount := inp.amount.toUInt64
    currencyCode := code
    paymentMethod := encodeMethod D.unicode (primaryMethod D.unicode inp) }

theorem Deployment.hash16_length (D : Deployment) (s : Str) : (D.hash16 s).length = 16 := by
  unfold Deployment.hash16
  rw [List.length_take, D.sha256_length]
  rfl

theorem decodeHex16_deriveTransactionID (D : Deployment) (m o : Str) :
    decodeHex16 (deriveTransactionID D m o) = .ok (D.hash16 (hashInput m o)) :=
  decodeHex16_hexEncode _ (D.hash16_length _)

theorem PaymentService.row_newRow {s : PaymentService} {D : Deployment} {M : Merchant}
    {inp : CreatePaymentInput} {now : Time} {r : Row}
    (h : D.row now (s.newRow D M inp) = .ok r) :
    ∃ code, encodeCurrency D.unicode (s.normalizedCurrency D inp) = .ok code ∧
      r.facts = factsOf D M inp code := by
  obtain ⟨htxn, hm, ho, -, ha, hc, -, hpm, -, -⟩ := D.row_ok h
  refine ⟨r.currencyCode, hc, ?_⟩
  have htxn : D.hash16 (hashInput M.merchantID inp.orderID) = r.transactionID := by
    have := (decodeHex16_deriveTransactionID D M.merchantID inp.orderID).symm.trans htxn
    exact Except.ok.inj this
  unfold Row.facts factsOf
  rw [htxn, hm, ho, ha, hpm]
  rfl

theorem PaymentService.Accepts.unique {inp : CreatePaymentInput} {M M' : Merchant}
    (h : Accepts inp M) (h' : Accepts inp M') : M = M' :=
  Option.some.inj (h.1.symm.trans h'.1)

section
variable (D : Deployment) (js : List Job)

/-- Job `i` is the `Create` of `inp` for `M`, and its insert went through. -/
def Won (hist : List CallEvent) (i : Nat) (s : PaymentService) (inp : CreatePaymentInput)
    (M : Merchant) : Prop :=
  js[i]? = some (.create s inp) ∧ PaymentService.Accepts inp M ∧
    (Op.insert (s.newRow D M inp)).gave (.ok ()) ∈ callsOf i hist

/-- Job `i` is the `Create` of `inp` for `M`, and found its transaction id taken. -/
def Lost (hist : List CallEvent) (i : Nat) (s : PaymentService) (inp : CreatePaymentInput)
    (M : Merchant) : Prop :=
  js[i]? = some (.create s inp) ∧ PaymentService.Accepts inp M ∧
    ∃ e, e.is .duplicateTransaction = true ∧
      (Op.insert (s.newRow D M inp)).gave (.error e) ∈ callsOf i hist

/-- The facts of the orders in pool `p`. -/
def World.facts (w : World) (p : Nat) : List Facts := (w.pools p).map Row.facts

structure OrdersInv (S : System) : Prop where
  /-- A row belongs to a `Create` that won. -/
  won_of_row : ∀ p, ∀ f ∈ S.world.facts p, ∃ i s inp M code, Won D js S.hist i s inp M ∧
    D.router.forIndex M.shardIndex = .ok p ∧
    encodeCurrency D.unicode (s.normalizedCurrency D inp) = .ok code ∧ f = factsOf D M inp code
  /-- A `Create` that won has its row. -/
  row_of_won : ∀ i s inp M, Won D js S.hist i s inp M → ∃ p code,
    D.router.forIndex M.shardIndex = .ok p ∧
    encodeCurrency D.unicode (s.normalizedCurrency D inp) = .ok code ∧
    factsOf D M inp code ∈ S.world.facts p
  /-- For a `Create` that lost there is a row with its transaction id. -/
  row_of_lost : ∀ i s inp M, Lost D js S.hist i s inp M → ∃ p, ∃ f ∈ S.world.facts p,
    D.router.forIndex M.shardIndex = .ok p ∧
    f.transactionID = D.hash16 (hashInput M.merchantID inp.orderID)
  /-- Transaction ids are unique in a pool. -/
  distinct : ∀ p, ((S.world.facts p).map Facts.transactionID).Nodup
  /-- Of the `Create` calls with one transaction id in one pool, one has won. -/
  one_winner : ∀ i s inp M i' s' inp' M' p, Won D js S.hist i s inp M →
    Won D js S.hist i' s' inp' M' → D.router.forIndex M.shardIndex = .ok p →
    D.router.forIndex M'.shardIndex = .ok p →
    D.hash16 (hashInput M.merchantID inp.orderID) =
      D.hash16 (hashInput M'.merchantID inp'.orderID) → i = i'

end

/-! ## One step -/

section
variable {D : Deployment} {js : List Job} {S : System}

theorem Won.mono {hist hist' : List CallEvent} {i : Nat} {s : PaymentService}
    {inp : CreatePaymentInput} {M : Merchant} (h : Won D js hist i s inp M)
    (hh : ∀ x ∈ callsOf i hist, x ∈ callsOf i hist') : Won D js hist' i s inp M :=
  ⟨h.1, h.2.1, hh _ h.2.2⟩

/-- A call that changes no facts and lets nobody win keeps the invariant, if a new loser
has its row. -/
theorem OrdersInv.same (hS : OrdersInv D js S) {S' : System}
    (hfacts : ∀ p, S'.world.facts p = S.world.facts p)
    (hwon : ∀ i s inp M, Won D js S'.hist i s inp M ↔ Won D js S.hist i s inp M)
    (hlost : ∀ i s inp M, Lost D js S'.hist i s inp M → ∃ p, ∃ f ∈ S.world.facts p,
      D.router.forIndex M.shardIndex = .ok p ∧
      f.transactionID = D.hash16 (hashInput M.merchantID inp.orderID)) : OrdersInv D js S' := by
  constructor
  · intro p f hf
    rw [hfacts] at hf
    simp only [hwon]
    exact hS.won_of_row p f hf
  · intro i s inp M h
    simp only [hfacts]
    exact hS.row_of_won i s inp M ((hwon _ _ _ _).mp h)
  · intro i s inp M h
    simp only [hfacts]
    exact hlost i s inp M h
  · intro p
    rw [hfacts]
    exact hS.distinct p
  · intro i s inp M i' s' inp' M' p h h'
    exact hS.one_winner i s inp M i' s' inp' M' p ((hwon _ _ _ _).mp h) ((hwon _ _ _ _).mp h')

/-- A call that is not an insert neither wins nor loses. -/
theorem OrdersInv.after_other (hS : OrdersInv D js S) {i : Nat} {c : Choice} {o : Op}
    {k : o.Ans → Svc Outcome} (ho : ∀ t, o ≠ .insert t) : OrdersInv D js (S.after D i c o k) := by
  have hfacts : ∀ p, (S.after D i c o k).world.facts p = S.world.facts p :=
    fun p => exec_facts D ho c S.world p
  have hnew : ∀ i' t a, (Op.insert t).gave a ∈ callsOf i' (S.after D i c o k).hist ↔
      (Op.insert t).gave a ∈ callsOf i' S.hist := by
    intro i' t a
    rw [System.mem_callsOf_after]
    constructor
    · rintro (h | ⟨-, h⟩)
      · exact h
      · exact absurd (congrArg Sigma.fst h) (ho t)
    · exact Or.inl
  have hwon : ∀ i' s inp M, Won D js (S.after D i c o k).hist i' s inp M ↔
      Won D js S.hist i' s inp M := by
    intro i' s inp M
    unfold Won
    rw [hnew]
  refine hS.same hfacts hwon fun i' s inp M h => hS.row_of_lost i' s inp M ?_
  unfold Lost at h ⊢
  simpa only [hnew] using h

/-- Who has won after an insert: those who had, and the caller if it went through. -/
theorem won_after_insert {i : Nat} {c : Choice} {s : PaymentService} {inp : CreatePaymentInput}
    {M : Merchant} {k : (Op.insert (s.newRow D M inp)).Ans → Svc Outcome}
    (hj : js[i]? = some (.create s inp)) (hM : PaymentService.Accepts inp M) {i' : Nat}
    {s' : PaymentService} {inp' : CreatePaymentInput} {M' : Merchant} :
    Won D js (S.after D i c (.insert (s.newRow D M inp)) k).hist i' s' inp' M' ↔
      Won D js S.hist i' s' inp' M' ∨
        ((exec D (.insert (s.newRow D M inp)) c S.world).1 = .ok () ∧
          i' = i ∧ s' = s ∧ inp' = inp ∧ M' = M) := by
  constructor
  · rintro ⟨hj', hM', hmem⟩
    rcases System.mem_callsOf_after.mp hmem with h | ⟨rfl, h⟩
    · exact .inl ⟨hj', hM', h⟩
    · rw [hj] at hj'
      cases hj'
      obtain rfl := hM'.unique hM
      exact .inr ⟨Op.gave_inj.mp h, rfl, rfl, rfl, rfl⟩
  · rintro (h | ⟨hok, rfl, rfl, rfl, rfl⟩)
    · exact h.mono (System.callsOf_after_mono i')
    · refine ⟨hj, hM, System.mem_callsOf_after.mpr (.inr ⟨rfl, ?_⟩)⟩
      rw [hok]

theorem lost_after_insert {i : Nat} {c : Choice} {s : PaymentService} {inp : CreatePaymentInput}
    {M : Merchant} {k : (Op.insert (s.newRow D M inp)).Ans → Svc Outcome}
    (hj : js[i]? = some (.create s inp)) (hM : PaymentService.Accepts inp M) {i' : Nat}
    {s' : PaymentService} {inp' : CreatePaymentInput} {M' : Merchant}
    (h : Lost D js (S.after D i c (.insert (s.newRow D M inp)) k).hist i' s' inp' M') :
    Lost D js S.hist i' s' inp' M' ∨
      (∃ e, (exec D (.insert (s.newRow D M inp)) c S.world).1 = .error e ∧
        e.is .duplicateTransaction = true) ∧ inp' = inp ∧ M' = M := by
  obtain ⟨hj', hM', e, he, hmem⟩ := h
  rcases System.mem_callsOf_after.mp hmem with h | ⟨rfl, h⟩
  · exact .inl ⟨hj', hM', e, he, h⟩
  · rw [hj] at hj'
    cases hj'
    obtain rfl := hM'.unique hM
    exact .inr ⟨⟨e, Op.gave_inj.mp h, he⟩, rfl, rfl⟩

/-- An insert that went through adds the facts of the request to its pool... -/
theorem facts_after_won {i : Nat} {c : Choice} {s : PaymentService} {inp : CreatePaymentInput}
    {M : Merchant} {k : (Op.insert (s.newRow D M inp)).Ans → Svc Outcome} {r : Row} {p : Nat}
    {code : UInt16} (hrf : r.facts = factsOf D M inp code)
    (he : D.insert c.now c.fault (s.newRow D M inp) S.world.pools =
      (.ok (), Function.update S.world.pools p (S.world.pools p ++ [r]))) (q : Nat) :
    (S.after D i c (.insert (s.newRow D M inp)) k).world.facts q =
      if q = p then S.world.facts q ++ [factsOf D M inp code] else S.world.facts q := by
  show (((exec D (.insert (s.newRow D M inp)) c S.world).2.pools) q).map Row.facts = _
  simp only [exec, he]
  by_cases hq : q = p
  · subst hq
    rw [Function.update_self, if_pos rfl, List.map_append, List.map_singleton, hrf]
    rfl
  · rw [Function.update_of_ne hq, if_neg hq]
    rfl

/-- ... where nobody had won with this transaction id. -/
theorem OrdersInv.not_won_before (hS : OrdersInv D js S) {txn : Str} {p : Nat}
    (hfresh : ∀ f ∈ S.world.facts p, f.transactionID ≠ txn) {i : Nat} {s : PaymentService}
    {inp : CreatePaymentInput} {M : Merchant} (h : Won D js S.hist i s inp M)
    (hp : D.router.forIndex M.shardIndex = .ok p) :
    D.hash16 (hashInput M.merchantID inp.orderID) ≠ txn := by
  obtain ⟨q, code, hq, -, hf⟩ := hS.row_of_won i s inp M h
  rw [hp] at hq
  cases hq
  exact hfresh _ hf

/-- An insert that went through adds the row of a new winner. -/
theorem OrdersInv.after_won (hS : OrdersInv D js S) {i : Nat} {c : Choice} {s : PaymentService}
    {inp : CreatePaymentInput} {M : Merchant}
    {k : (Op.insert (s.newRow D M inp)).Ans → Svc Outcome}
    (hj : js[i]? = some (.create s inp)) (hM : PaymentService.Accepts inp M) {r : Row} {p : Nat}
    (hr : D.row c.now (s.newRow D M inp) = .ok r) (hp : D.router.forIndex M.shardIndex = .ok p)
    (hne : ∀ y ∈ S.world.pools p, y.transactionID ≠ r.transactionID)
    (he : D.insert c.now c.fault (s.newRow D M inp) S.world.pools =
      (.ok (), Function.update S.world.pools p (S.world.pools p ++ [r]))) :
    OrdersInv D js (S.after D i c (.insert (s.newRow D M inp)) k) := by
  have hok : (exec D (.insert (s.newRow D M inp)) c S.world).1 = .ok () := by
    simp only [exec, he]
  obtain ⟨code, hcode, hrf⟩ := PaymentService.row_newRow hr
  have hfacts := facts_after_won (i := i) (k := k) hrf he
  have hfresh : ∀ f ∈ S.world.facts p,
      f.transactionID ≠ D.hash16 (hashInput M.merchantID inp.orderID) := by
    intro f hf
    obtain ⟨y, hy, rfl⟩ := List.mem_map.mp hf
    have : r.facts.transactionID = D.hash16 (hashInput M.merchantID inp.orderID) := by rw [hrf]; rfl
    rw [← this]
    exact hne y hy
  have hkeep : ∀ q, ∀ f ∈ S.world.facts q,
      f ∈ (S.after D i c (.insert (s.newRow D M inp)) k).world.facts q := by
    intro q f hf
    rw [hfacts]
    split
    · exact List.mem_append_left _ hf
    · exact hf
  constructor
  · intro q f hf
    by_cases hold : f ∈ S.world.facts q
    · obtain ⟨i', s', inp', M', code', hw, h⟩ := hS.won_of_row q f hold
      exact ⟨i', s', inp', M', code', (won_after_insert hj hM).mpr (.inl hw), h⟩
    · rw [hfacts] at hf
      split at hf
      · next hq =>
        have hnew := List.mem_singleton.mp ((List.mem_append.mp hf).resolve_left hold)
        exact ⟨i, s, inp, M, code, (won_after_insert hj hM).mpr (.inr ⟨hok, rfl, rfl, rfl, rfl⟩),
          hq ▸ hp, hcode, hnew⟩
      · exact absurd hf hold
  · intro i' s' inp' M' h
    rcases (won_after_insert hj hM).mp h with h | ⟨-, rfl, rfl, rfl, rfl⟩
    · obtain ⟨q, code', hq, hcode', hf⟩ := hS.row_of_won i' s' inp' M' h
      exact ⟨q, code', hq, hcode', hkeep q _ hf⟩
    · refine ⟨p, code, hp, hcode, ?_⟩
      rw [hfacts, if_pos rfl]
      exact List.mem_append_right _ (List.mem_singleton.mpr rfl)
  · intro i' s' inp' M' h
    rcases lost_after_insert hj hM h with h | ⟨⟨e, he', -⟩, -⟩
    · obtain ⟨q, f, hf, h⟩ := hS.row_of_lost i' s' inp' M' h
      exact ⟨q, f, hkeep q f hf, h⟩
    · rw [hok] at he'
      cases he'
  · intro q
    rw [hfacts]
    split
    · next hq =>
      subst hq
      exact nodup_map_concat (hS.distinct q) hfresh
    · exact hS.distinct q
  · intro i₁ s₁ inp₁ M₁ i₂ s₂ inp₂ M₂ q h₁ h₂ hp₁ hp₂ heq
    rcases (won_after_insert hj hM).mp h₁ with w₁ | ⟨-, rfl, rfl, rfl, rfl⟩
    · rcases (won_after_insert hj hM).mp h₂ with w₂ | ⟨-, rfl, rfl, rfl, rfl⟩
      · exact hS.one_winner _ _ _ _ _ _ _ _ q w₁ w₂ hp₁ hp₂ heq
      · rw [hp] at hp₂
        cases hp₂
        exact absurd heq (hS.not_won_before hfresh w₁ hp₁)
    · rcases (won_after_insert hj hM).mp h₂ with w₂ | ⟨-, rfl, rfl, rfl, rfl⟩
      · rw [hp] at hp₁
        cases hp₁
        exact absurd heq.symm (hS.not_won_before hfresh w₂ hp₂)
      · rfl

/-- An insert that did not go through changes no table; a loser has its row. -/
theorem OrdersInv.after_not_won (hS : OrdersInv D js S) {i : Nat} {c : Choice}
    {s : PaymentService} {inp : CreatePaymentInput} {M : Merchant}
    {k : (Op.insert (s.newRow D M inp)).Ans → Svc Outcome}
    (hj : js[i]? = some (.create s inp)) (hM : PaymentService.Accepts inp M) {e : Err}
    (he : D.insert c.now c.fault (s.newRow D M inp) S.world.pools = (.error e, S.world.pools))
    (hdup : e.is .duplicateTransaction = true → ∃ p, ∃ f ∈ S.world.facts p,
      D.router.forIndex M.shardIndex = .ok p ∧
      f.transactionID = D.hash16 (hashInput M.merchantID inp.orderID)) :
    OrdersInv D js (S.after D i c (.insert (s.newRow D M inp)) k) := by
  have hans : (exec D (.insert (s.newRow D M inp)) c S.world).1 = .error e := by
    simp only [exec, he]
  have hfacts : ∀ p, (S.after D i c (.insert (s.newRow D M inp)) k).world.facts p =
      S.world.facts p := by
    intro p
    show (((exec D (.insert (s.newRow D M inp)) c S.world).2.pools) p).map Row.facts = _
    simp only [exec, he]
    rfl
  have hwon : ∀ i' s' inp' M',
      Won D js (S.after D i c (.insert (s.newRow D M inp)) k).hist i' s' inp' M' ↔
        Won D js S.hist i' s' inp' M' := by
    intro i' s' inp' M'
    rw [won_after_insert hj hM, hans]
    constructor
    · rintro (h | ⟨h, -⟩)
      · exact h
      · cases h
    · exact Or.inl
  refine hS.same hfacts hwon fun i' s' inp' M' h => ?_
  rcases lost_after_insert hj hM h with h | ⟨⟨e', he', hd⟩, rfl, rfl⟩
  · exact hS.row_of_lost i' s' inp' M' h
  · rw [hans] at he'
    cases he'
    exact hdup hd

/-- Every call keeps the invariant. -/
theorem OrdersInv.after (hS : OrdersInv D js S) {i : Nat} {c : Choice} {o : Op}
    {k : o.Ans → Svc Outcome} {j : Job} (hj : js[i]? = some j)
    (hcall : JobCall D j (callsOf i S.hist) o) : OrdersInv D js (S.after D i c o k) := by
  by_cases ho : ∀ t, o ≠ .insert t
  · exact hS.after_other ho
  · simp only [not_forall, not_not] at ho
    obtain ⟨t, rfl⟩ := ho
    obtain ⟨s, inp, M, rfl, hM, -, rfl⟩ := hcall.insert_inv
    rcases D.insert_cases c.now c.fault (s.newRow D M inp) S.world.pools with
      ⟨r, p, hr, hp, -, hne, he⟩ | ⟨r, p, hr, hp, -, ⟨y, hy, hyr⟩, he⟩ | ⟨e, hnd, he⟩
    · exact hS.after_won hj hM hr hp hne he
    · refine hS.after_not_won hj hM he fun _ => ⟨p, y.facts, List.mem_map_of_mem hy, hp, ?_⟩
      obtain ⟨code, -, hrf⟩ := PaymentService.row_newRow hr
      have : r.facts.transactionID = D.hash16 (hashInput M.merchantID inp.orderID) := by
        rw [hrf]
        rfl
      rw [← this]
      exact hyr
    · refine hS.after_not_won hj hM he fun hd => ?_
      rw [hnd] at hd
      cases hd

end

/-- **The orders of a run** are those of the `Create` calls that won. -/
theorem orders_invariant (D : Deployment) (js : List Job) {w : World} (hw : ∀ p, w.pools p = [])
    (xs : List (Nat × Choice)) : OrdersInv D js (System.run D w js xs) := by
  refine System.invariant D w js ?_ (fun S i c o k j hS hj hcall => hS.after hj hcall) xs
  have hempty : ∀ p, w.facts p = [] := by
    intro p
    unfold World.facts
    rw [hw]
    rfl
  constructor
  · intro p f hf
    rw [show (Sys.start w (js.map (Job.prog D)) : System).world = w from rfl, hempty] at hf
    cases hf
  · rintro i s inp M ⟨-, -, h⟩
    cases h
  · rintro i s inp M ⟨-, -, e, -, h⟩
    cases h
  · intro p
    rw [show (Sys.start w (js.map (Job.prog D)) : System).world = w from rfl, hempty]
    exact List.nodup_nil
  · rintro i s inp M i' s' inp' M' p ⟨-, -, h⟩
    cases h

/-- A `Create` inserts once, as its first call. -/
theorem insert_first (D : Deployment) (w : World) (js : List Job) (xs : List (Nat × Choice))
    {e : CallEvent} (he : e ∈ (System.run D w js xs).hist) {t : Transaction}
    (hop : e.op = .insert t) :
    ∃ s inp M rest, js[e.pid]? = some (.create s inp) ∧ PaymentService.Accepts inp M ∧
      t = s.newRow D M inp ∧ callsOf e.pid (System.run D w js xs).hist = e.step :: rest := by
  revert e t
  refine System.invariant D w js (Q := fun S => ∀ {e : CallEvent}, e ∈ S.hist →
    ∀ {t : Transaction}, e.op = .insert t → ∃ s inp M rest, js[e.pid]? = some (.create s inp) ∧
      PaymentService.Accepts inp M ∧ t = s.newRow D M inp ∧
      callsOf e.pid S.hist = e.step :: rest) ?_ ?_ xs
  · intro e he
    cases he
  · intro S i c o k j hQ hj hcall e he t hop
    rcases System.mem_hist_after.mp he with he | rfl
    · obtain ⟨s, inp, M, rest, hje, hM, ht, hcalls⟩ := hQ he hop
      refine ⟨s, inp, M, ?_⟩
      by_cases hi : i = e.pid
      · subst hi
        rw [System.callsOf_after_self, hcalls]
        exact ⟨_, hje, hM, ht, rfl⟩
      · rw [System.callsOf_after_ne hi, hcalls]
        exact ⟨_, hje, hM, ht, rfl⟩
    · simp only at hop
      subst hop
      obtain ⟨s, inp, M, rfl, hM, hnil, ht⟩ := hcall.insert_inv
      refine ⟨s, inp, M, [], hj, hM, ht, ?_⟩
      rw [System.callsOf_after_self, hnil]
      rfl

/-- Nobody both wins and loses. -/
theorem Won.not_lost {D : Deployment} {w : World} {js : List Job} {xs : List (Nat × Choice)}
    {i : Nat} {s s' : PaymentService} {inp inp' : CreatePaymentInput} {M M' : Merchant}
    (hwon : Won D js (System.run D w js xs).hist i s inp M) :
    ¬ Lost D js (System.run D w js xs).hist i s' inp' M' := by
  rintro ⟨hj', hM', err, -, hlost⟩
  obtain ⟨hj, hM, hwon⟩ := hwon
  cases hj.symm.trans hj'
  obtain rfl := hM.unique hM'
  obtain ⟨e, he, hpid, hstep⟩ := mem_callsOf.mp hwon
  obtain ⟨e', he', hpid', hstep'⟩ := mem_callsOf.mp hlost
  obtain ⟨-, -, -, rest, -, -, -, hcalls⟩ := insert_first D w js xs he (congrArg Sigma.fst hstep)
  obtain ⟨-, -, -, rest', -, -, -, hcalls'⟩ :=
    insert_first D w js xs he' (congrArg Sigma.fst hstep')
  rw [hpid, hstep] at hcalls
  rw [hpid', hstep', hcalls] at hcalls'
  cases Op.gave_inj.mp (List.cons.inj hcalls').1

/-! ## Reading an order back -/

/-- `t` is the order that the request `inp` of `M` stored. -/
structure IsOrderOf (D : Deployment) (s : PaymentService) (M : Merchant)
    (inp : CreatePaymentInput) (t : Transaction) : Prop where
  merchantID : t.merchantID = M.merchantID
  orderID : t.orderID = inp.orderID
  transactionID : t.transactionID = deriveTransactionID D M.merchantID inp.orderID
  amount : t.amount = inp.amount
  currency : t.currency = s.normalizedCurrency D inp
  paymentMethod :
    t.paymentMethod = decodeMethod (encodeMethod D.unicode (primaryMethod D.unicode inp))

theorem PaymentService.toUpper_normalizedCurrency (s : PaymentService) (D : Deployment)
    (inp : CreatePaymentInput) :
    toUpper D.unicode (s.normalizedCurrency D inp) = s.normalizedCurrency D inp := by
  unfold PaymentService.normalizedCurrency
  rw [toUpper_idem]

theorem isOrderOf_of_scan {D : Deployment} {s : PaymentService} {M : Merchant}
    {inp : CreatePaymentInput} {code : UInt16} {r : Row} {t : Transaction} {i : UInt8}
    (hcode : encodeCurrency D.unicode (s.normalizedCurrency D inp) = .ok code)
    (hr : r.facts = factsOf D M inp code) (hs : scanTransaction r = .ok t) :
    IsOrderOf D s M inp (TransactionRepo.withShard i t) := by
  obtain ⟨hm, htxn, ho, ha, hc, -, hpm, -, -⟩ := TransactionRepo.scanTransaction_ok hs
  unfold Row.facts factsOf at hr
  injection hr with f1 f2 f3 f4 f5 f6
  constructor
  · exact hm.trans f2
  · exact ho.trans f3
  · show t.transactionID = _
    rw [htxn, f1, hexLower_eq]
    rfl
  · show t.amount = _
    rw [ha, f4]
    exact Int64.toInt64_toUInt64 _
  · -- the stored currency is upper-case already
    rw [f5, decodeCurrency_encodeCurrency hcode] at hc
    have := Except.ok.inj hc
    rw [s.toUpper_normalizedCurrency] at this
    exact this.symm
  · show t.paymentMethod = _
    rw [hpm, f6]

section
variable {D : Deployment} {js : List Job} {S : System}

/-- A row of pool `p` is the row of a `Create` that won there. -/
theorem OrdersInv.winner_of_row (hS : OrdersInv D js S) {p : Nat} {r : Row}
    (hr : r ∈ S.world.pools p) :
    ∃ i s inp M code, Won D js S.hist i s inp M ∧ D.router.forIndex M.shardIndex = .ok p ∧
      encodeCurrency D.unicode (s.normalizedCurrency D inp) = .ok code ∧
      r.facts = factsOf D M inp code :=
  hS.won_of_row p r.facts (List.mem_map_of_mem hr)

/-- What a lookup by transaction id returns is the order of a winner with that id. -/
theorem OrdersInv.lookup_ok (hS : OrdersInv D js S) {fault : Option Fault} {pick : Nat}
    {i : UInt8} {m o : Str} {t : Transaction}
    (h : D.getByTransactionID fault pick i m (deriveTransactionID D m o) S.world.pools = .ok t) :
    ∃ p i' s' inp' M', Won D js S.hist i' s' inp' M' ∧ D.router.forIndex i = .ok p ∧
      D.router.forIndex M'.shardIndex = .ok p ∧ D.collation.eq M'.merchantID m = true ∧
      D.hash16 (hashInput M'.merchantID inp'.orderID) = D.hash16 (hashInput m o) ∧
      IsOrderOf D s' M' inp' t := by
  obtain ⟨p, txn, r, t', hp, htxn, hr, hm, hrt, hs, rfl⟩ := D.getByTransactionID_ok h
  rw [decodeHex16_deriveTransactionID] at htxn
  obtain ⟨i', s', inp', M', code, hw, hp', hcode, hf⟩ := hS.winner_of_row hr
  have hf1 : r.transactionID = D.hash16 (hashInput M'.merchantID inp'.orderID) :=
    congrArg Facts.transactionID hf
  have hf2 : r.merchantID = M'.merchantID := congrArg Facts.merchantID hf
  rw [hf2] at hm
  refine ⟨p, i', s', inp', M', hw, hp, hp', hm, ?_, isOrderOf_of_scan hcode hf hs⟩
  rw [← hf1, hrt]
  exact (Except.ok.inj htxn).symm

/-- A query that does not fail finds the order of a row with the transaction id asked for, if
the row's merchant is the one asked for. -/
theorem exists_lookup (pick : Nat) {p : Nat} {i : UInt8} {m o : Str} {y : Row}
    (hp : D.router.forIndex i = .ok p) (hy : y ∈ S.world.pools p)
    (ht : y.transactionID = D.hash16 (hashInput m o)) (hm : D.collation.eq y.merchantID m = true) :
    ∃ t, D.getByTransactionID none pick i m (deriveTransactionID D m o) S.world.pools = .ok t := by
  have hwhere : (D.collation.eq y.merchantID m &&
      y.transactionID == D.hash16 (hashInput m o)) = true := by
    rw [hm, ht, beq_self_eq_true]
    rfl
  obtain ⟨y', -, -, hq⟩ := TransactionRepo.queryRow_none pick
    (p := fun r => D.collation.eq r.merchantID m && r.transactionID == D.hash16 (hashInput m o))
    hy hwhere
  obtain ⟨t, ht⟩ := TransactionRepo.exists_scanTransaction y'
  refine ⟨TransactionRepo.withShard i t, ?_⟩
  unfold TransactionRepo.getByTransactionID
  rw [hp, decodeHex16_deriveTransactionID]
  simp only
  rw [hq, ht]
  rfl

/-! ## The loser's lookup -/

/-- A `Create` call looks its order up after it has lost. -/
theorem JobCall.lookup_inv {s : PaymentService} {inp : CreatePaymentInput} {t : Calls} {i : UInt8}
    {m txn : Str} (h : JobCall D (.create s inp) t (.getByTransactionID i m txn)) :
    ∃ M e, PaymentService.Accepts inp M ∧ e.is .duplicateTransaction = true ∧
      t = [(Op.insert (s.newRow D M inp)).gave (.error e)] ∧ i = M.shardIndex ∧
      m = M.merchantID ∧ txn = deriveTransactionID D M.merchantID inp.orderID := by
  cases h with
  | create hM hc =>
    cases hc with
    | lookup e he => exact ⟨_, e, hM, he, rfl, rfl, rfl, rfl⟩

/-- The answer to the lookup `e` of the `Create` of `inp` for `M`: the query failed, or some
`Create` has won with the caller's transaction id in the caller's pool, and its order came
back unless SQL tells the two merchants apart. -/
def LookupAnswered (D : Deployment) (js : List Job) (hist : List CallEvent) (M : Merchant)
    (inp : CreatePaymentInput) (e : CallEvent) (i : UInt8) (m txn : Str) : Prop :=
  (e.choice.fault ≠ none ∧ ∃ err, e.step = (Op.getByTransactionID i m txn).gave (.error err)) ∨
    ∃ p i' s' inp' M', Won D js hist i' s' inp' M' ∧ D.router.forIndex M.shardIndex = .ok p ∧
      D.router.forIndex M'.shardIndex = .ok p ∧
      D.hash16 (hashInput M'.merchantID inp'.orderID) =
        D.hash16 (hashInput M.merchantID inp.orderID) ∧
      ((∃ existing, e.step = (Op.getByTransactionID i m txn).gave (.ok existing) ∧
          IsOrderOf D s' M' inp' existing) ∨
        D.collation.eq M'.merchantID M.merchantID = false ∧
          ∃ err, e.step = (Op.getByTransactionID i m txn).gave (.error err))

/-- How the lookups of `Create` calls have been answered so far. -/
def LookupsInv (D : Deployment) (js : List Job) (S : System) : Prop :=
  ∀ e ∈ S.hist, ∀ i m txn s inp M, e.op = .getByTransactionID i m txn →
    js[e.pid]? = some (.create s inp) → PaymentService.Accepts inp M →
    LookupAnswered D js S.hist M inp e i m txn

theorem LookupAnswered.mono {hist hist' : List CallEvent} {M : Merchant} {inp : CreatePaymentInput}
    {e : CallEvent} {i : UInt8} {m txn : Str} (h : LookupAnswered D js hist M inp e i m txn)
    (hh : ∀ i, ∀ x ∈ callsOf i hist, x ∈ callsOf i hist') :
    LookupAnswered D js hist' M inp e i m txn := by
  rcases h with h | ⟨p, i', s', inp', M', hw, h⟩
  · exact .inl h
  · exact .inr ⟨p, i', s', inp', M', hw.mono (hh i'), h⟩

/-- The answer to a lookup that is being made. -/
theorem OrdersInv.lookupAnswered (hO : OrdersInv D js S) {i : Nat} {c : Choice}
    {s : PaymentService} {inp : CreatePaymentInput} {M : Merchant}
    (hlost : Lost D js S.hist i s inp M) :
    LookupAnswered D js S.hist M inp
      ⟨i, c, .getByTransactionID M.shardIndex M.merchantID
          (deriveTransactionID D M.merchantID inp.orderID),
        D.getByTransactionID c.fault (c.pick 0) M.shardIndex M.merchantID
          (deriveTransactionID D M.merchantID inp.orderID) S.world.pools⟩
      M.shardIndex M.merchantID (deriveTransactionID D M.merchantID inp.orderID) := by
  cases hans : D.getByTransactionID c.fault (c.pick 0) M.shardIndex M.merchantID
      (deriveTransactionID D M.merchantID inp.orderID) S.world.pools with
  | ok t =>
    obtain ⟨p, i', s', inp', M', hw, hp, hp', -, hhash, hord⟩ := hO.lookup_ok hans
    exact .inr ⟨p, i', s', inp', M', hw, hp, hp', hhash, .inl ⟨t, rfl, hord⟩⟩
  | error err =>
    by_cases hf : c.fault = none
    · obtain ⟨p, f, hfm, hp, hft⟩ := hO.row_of_lost i s inp M hlost
      obtain ⟨y, hy, rfl⟩ := List.mem_map.mp hfm
      obtain ⟨i', s', inp', M', code, hw, hp', -, hyf⟩ := hO.winner_of_row hy
      have hyt : y.transactionID = D.hash16 (hashInput M'.merchantID inp'.orderID) :=
        congrArg Facts.transactionID hyf
      have hym : y.merchantID = M'.merchantID := congrArg Facts.merchantID hyf
      refine .inr ⟨p, i', s', inp', M', hw, hp, hp', hyt.symm.trans hft, .inr ⟨?_, err, rfl⟩⟩
      -- were the merchants equal for SQL, the query would have found the row
      rw [Bool.eq_false_iff]
      intro heq
      rw [← hym] at heq
      obtain ⟨t, ht⟩ := exists_lookup (c.pick 0) hp hy hft heq
      rw [hf, ht] at hans
      cases hans
    · exact .inl ⟨hf, err, rfl⟩

theorem LookupsInv.after (hO : OrdersInv D js S) (hL : LookupsInv D js S)
    {i : Nat} {c : Choice} {o : Op} {k : o.Ans → Svc Outcome} {j : Job} (hj : js[i]? = some j)
    (hcall : JobCall D j (callsOf i S.hist) o) : LookupsInv D js (S.after D i c o k) := by
  intro e he ix m txn s inp M hop hje hM
  rcases System.mem_hist_after.mp he with he | rfl
  · exact (hL e he ix m txn s inp M hop hje hM).mono System.callsOf_after_mono
  · cases hj.symm.trans hje
    simp only at hop
    subst hop
    obtain ⟨M', err, hM', herr, hcalls, rfl, rfl, rfl⟩ := hcall.lookup_inv
    obtain rfl := hM'.unique hM
    have hlost : Lost D js S.hist i s inp M' := by
      refine ⟨hj, hM, err, herr, ?_⟩
      rw [hcalls]
      exact List.mem_singleton.mpr rfl
    exact (hO.lookupAnswered hlost).mono System.callsOf_after_mono

end

/-- **Every lookup of a loser** is answered with the order of a winner. -/
theorem lookups_invariant (D : Deployment) (js : List Job) {w : World} (hw : ∀ p, w.pools p = [])
    (xs : List (Nat × Choice)) : LookupsInv D js (System.run D w js xs) := by
  refine System.run_rule D w js ?_ ?_ xs
  · intro e he
    cases he
  · intro ys i c o k j hL hj hcall
    exact hL.after (orders_invariant D js hw ys) hj hcall

/-! ## Orders read by name -/

/-- Every order read under a name was stored by a `Create`, under a name that SQL takes for
the one asked for. -/
def ReadsInv (D : Deployment) (js : List Job) (S : System) : Prop :=
  ∀ e ∈ S.hist, ∀ i m o order, e.step = (Op.getByMerchantOrderID i m o).gave (.ok order) →
    ∃ k s inp M, Won D js S.hist k s inp M ∧ order.merchantID = M.merchantID ∧
      order.orderID = inp.orderID ∧ D.collation.eq order.merchantID m = true ∧
      D.collation.eq order.orderID o = true

/-- The answer to a read that is being made. -/
theorem OrdersInv.read_ok {D : Deployment} {js : List Job} {S : System} (hO : OrdersInv D js S)
    {fault : Option Fault} {pick : Nat} {i : UInt8} {m o : Str} {order : Transaction}
    (h : D.getByMerchantOrderID fault pick i m o S.world.pools = .ok order) :
    ∃ p, ∃ r ∈ S.world.pools p, ∃ k s inp M, Won D js S.hist k s inp M ∧
      r.merchantID = M.merchantID ∧ r.orderID = inp.orderID ∧
      order.merchantID = r.merchantID ∧ order.orderID = r.orderID ∧
      order.stripeSessionID = stringOf r.stripeSession ∧
      D.collation.eq r.merchantID m = true ∧ D.collation.eq r.orderID o = true := by
  obtain ⟨p, r, t, -, -, hr, hwhere, hs, rfl⟩ := D.getByMerchantOrderID_ok h
  obtain ⟨k, s, inp, M, code, hwon, -, -, hf⟩ := hO.winner_of_row hr
  obtain ⟨hm, -, ho, -, -, -, -, hsess, -⟩ := TransactionRepo.scanTransaction_ok hs
  unfold TransactionRepo.ofOrder at hwhere
  rw [Bool.and_eq_true] at hwhere
  exact ⟨p, r, hr, k, s, inp, M, hwon, congrArg Facts.merchantID hf, congrArg Facts.orderID hf, hm,
    ho, hsess, hwhere.1, hwhere.2⟩

theorem reads_invariant (D : Deployment) (js : List Job) {w : World} (hw : ∀ p, w.pools p = [])
    (xs : List (Nat × Choice)) : ReadsInv D js (System.run D w js xs) := by
  refine System.run_rule D w js ?_ ?_ xs
  · intro e he
    cases he
  · intro ys i c o k j hR hj hcall e he ix m oid order hstep
    rcases System.mem_hist_after.mp he with he | rfl
    · obtain ⟨k', s, inp, M, hwon, h⟩ := hR e he ix m oid order hstep
      exact ⟨k', s, inp, M, hwon.mono (System.callsOf_after_mono k'), h⟩
    · have ho : o = .getByMerchantOrderID ix m oid := congrArg Sigma.fst hstep
      subst ho
      obtain ⟨p, r, -, k', s, inp, M, hwon, hrm, hro, hm, ho, -, hcm, hco⟩ :=
        (orders_invariant D js hw ys).read_ok (Op.gave_inj.mp hstep)
      exact ⟨k', s, inp, M, hwon.mono (System.callsOf_after_mono k'), hm.trans hrm,
        ho.trans hro, hm ▸ hcm, ho ▸ hco⟩

end EasyPay
