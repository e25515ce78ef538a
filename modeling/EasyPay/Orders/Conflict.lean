import EasyPay.Orders

/-!
# Retry or conflict

A `Create` for an order that another `Create` has stored answers from the stored order, or
reports a conflict.  It compares the amount, the currency and the flow; the flow of the
stored order is read off its payment method, that of the request off its first payment
method type.  So a method type that is named like the crypto flow is taken for it.

* `sameMaterialPayment_iff`: what the comparison comes to, in terms of the two requests.
* `retry_decided_iff`: when the answer is the one the two requests call for.
-/

namespace EasyPay

open GoStrings Tables Ports

/-! ## The comparison -/

/-- The stored order of `inp` reads back as a crypto payment. -/
def readsAsCrypto (U : Unicode) (inp : CreatePaymentInput) : Bool :=
  decide (toLower U (primaryMethod U inp) = bytes "crypto_eth")

/-- The request `inp` is taken for a crypto payment in a retry. -/
def asksForCrypto (U : Unicode) (inp : CreatePaymentInput) : Bool :=
  hasPrefix (primaryMethod U inp) (bytes "crypto")

/-- Supported currencies that fold to one another are equal. -/
theorem equalFold_currency {U : Unicode} {a b : Str} {x y : UInt16}
    (ha : encodeCurrency U a = .ok x) (hb : encodeCurrency U b = .ok y) :
    equalFold U (toUpper U a) (toUpper U b) = true ↔ toUpper U a = toUpper U b := by
  have hma := encodeCurrency_ascii ha
  have hmb := encodeCurrency_ascii hb
  have haA := (decodeCurrency_of_mem _ hma).2.1
  have hbA := (decodeCurrency_of_mem _ hmb).2.1
  constructor
  · intro h
    exact currency_fold_injective _ hma _ hmb (map_lowerByte_of_equalFold U _ _ haA hbA h)
  · intro h
    rw [h]
    exact equalFold_refl_ascii U _ hbA

/-- **The comparison**, in terms of the request that stored the order and of the retry. -/
theorem sameMaterialPayment_iff {D : Deployment} {s₁ s₂ : PaymentService} {M : Merchant}
    {in₁ in₂ : CreatePaymentInput} {t : Transaction} {x y : UInt16} (ht : IsOrderOf D s₁ M in₁ t)
    (h₁ : encodeCurrency D.unicode (s₁.normalizedCurrency D in₁) = .ok x)
    (h₂ : encodeCurrency D.unicode (s₂.normalizedCurrency D in₂) = .ok y) :
    sameMaterialPayment D.unicode t in₂.amount (s₂.normalizedCurrency D in₂)
        (primaryMethod D.unicode in₂) = true ↔
      in₁.amount = in₂.amount ∧ s₁.normalizedCurrency D in₁ = s₂.normalizedCurrency D in₂ ∧
        readsAsCrypto D.unicode in₁ = asksForCrypto D.unicode in₂ := by
  have hcur := equalFold_currency h₁ h₂
  rw [s₁.toUpper_normalizedCurrency, s₂.toUpper_normalizedCurrency] at hcur
  unfold sameMaterialPayment readsAsCrypto asksForCrypto
  rw [ht.amount, ht.currency, ht.paymentMethod, hasPrefix_decodeMethod_encodeMethod]
  by_cases ha : in₁.amount = in₂.amount
  · rw [if_neg (not_not.mpr ha)]
    by_cases hc : s₁.normalizedCurrency D in₁ = s₂.normalizedCurrency D in₂
    · rw [hcur.mpr hc]
      simp [ha, hc]
    · rw [Bool.eq_false_iff.mpr fun h => hc (hcur.mp h)]
      simp [hc]
  · rw [if_pos ha]
    simp [ha]

/-- The first payment method type of a request is not stored as the crypto flow's. -/
def StoredPlainly (U : Unicode) (inp : CreatePaymentInput) : Prop :=
  isCrypto U inp = true ∨
    ∀ t, inp.paymentMethodTypes.head? = some t → toLower U t ≠ bytes "crypto_eth"

/-- The first payment method type of a request does not start like the crypto flow's. -/
def AskedPlainly (U : Unicode) (inp : CreatePaymentInput) : Prop :=
  isCrypto U inp = true ∨
    ∀ t, inp.paymentMethodTypes.head? = some t → hasPrefix t (bytes "crypto") = false

theorem primaryMethod_cases (U : Unicode) (inp : CreatePaymentInput) :
    (isCrypto U inp = true ∧ primaryMethod U inp = bytes "crypto_eth") ∨
      (isCrypto U inp = false ∧ ∃ t, inp.paymentMethodTypes.head? = some t ∧
        primaryMethod U inp = t) ∨
      (isCrypto U inp = false ∧ inp.paymentMethodTypes.head? = none ∧
        primaryMethod U inp = bytes "card") := by
  unfold primaryMethod
  cases hc : isCrypto U inp with
  | true => exact .inl ⟨rfl, rfl⟩
  | false =>
    cases hp : inp.paymentMethodTypes with
    | nil => exact .inr (.inr ⟨rfl, rfl, rfl⟩)
    | cons t ts => exact .inr (.inl ⟨rfl, t, rfl, rfl⟩)

/-- A test of the method that the crypto flow's passes, and the card's does not. -/
theorem primaryMethod_test_iff (U : Unicode) (inp : CreatePaymentInput) {f : Str → Bool}
    (hcrypto : f (bytes "crypto_eth") = true) (hcard : f (bytes "card") = false) :
    f (primaryMethod U inp) = isCrypto U inp ↔
      isCrypto U inp = true ∨ ∀ t, inp.paymentMethodTypes.head? = some t → f t = false := by
  rcases primaryMethod_cases U inp with ⟨hc, hp⟩ | ⟨hc, t, ht, hp⟩ | ⟨hc, hn, hp⟩
  · rw [hc, hp]
    exact ⟨fun _ => .inl rfl, fun _ => hcrypto⟩
  · rw [hc, hp, ht]
    simp
  · rw [hc, hp, hn]
    exact ⟨fun _ => .inr (fun t h => by cases h), fun _ => hcard⟩

theorem readsAsCrypto_eq_isCrypto (U : Unicode) (inp : CreatePaymentInput) :
    readsAsCrypto U inp = isCrypto U inp ↔ StoredPlainly U inp := by
  have h := primaryMethod_test_iff U inp (f := fun t => decide (toLower U t = bytes "crypto_eth"))
    rfl rfl
  simp only [decide_eq_false_iff_not] at h
  exact h

theorem asksForCrypto_eq_isCrypto (U : Unicode) (inp : CreatePaymentInput) :
    asksForCrypto U inp = isCrypto U inp ↔ AskedPlainly U inp :=
  primaryMethod_test_iff U inp (f := fun t => hasPrefix t (bytes "crypto")) rfl rfl

/-- The crypto flow is recognised on both sides. -/
theorem crypto_recognised (U : Unicode) (inp : CreatePaymentInput) (h : isCrypto U inp = true) :
    readsAsCrypto U inp = true ∧ asksForCrypto U inp = true :=
  ⟨((readsAsCrypto_eq_isCrypto U inp).mpr (.inl h)).trans h,
    ((asksForCrypto_eq_isCrypto U inp).mpr (.inl h)).trans h⟩

/-! ## The retry in a run -/

/-- In this run the `Create` of `in₁` by job `i` has stored its order, and job `j` is a `Create`
of `in₂` for the same merchant and order, in a supported currency; no call of it fails. -/
structure Retry (D : Deployment) (w : World) (js : List Job) (xs : List (Nat × Choice)) (i j : Nat)
    (s₁ s₂ : PaymentService) (in₁ in₂ : CreatePaymentInput) (M : Merchant) : Prop where
  empty : ∀ p, w.pools p = []
  won : Won D js (System.run D w js xs).hist i s₁ in₁ M
  job : js[j]? = some (.create s₂ in₂)
  other : i ≠ j
  accepts : PaymentService.Accepts in₂ M
  order : in₁.orderID = in₂.orderID
  currency : ∃ y, encodeCurrency D.unicode (s₂.normalizedCurrency D in₂) = .ok y
  faultless : ∀ e ∈ (System.run D w js xs).hist, e.pid = j → e.choice.fault = none

namespace Retry

variable {D : Deployment} {w : World} {js : List Job} {xs : List (Nat × Choice)} {i j : Nat}
  {s₁ s₂ : PaymentService} {in₁ in₂ : CreatePaymentInput} {M : Merchant}

/-- A job with the transaction id of the winner in its pool is the winner. -/
theorem winner_unique (h : Retry D w js xs i j s₁ s₂ in₁ in₂ M) {p i' : Nat} {s' : PaymentService}
    {inp' : CreatePaymentInput} {M' : Merchant}
    (hw : Won D js (System.run D w js xs).hist i' s' inp' M')
    (hp : D.router.forIndex M.shardIndex = .ok p) (hp' : D.router.forIndex M'.shardIndex = .ok p)
    (hhash : D.hash16 (hashInput M'.merchantID inp'.orderID) =
      D.hash16 (hashInput M.merchantID in₂.orderID)) : i' = i ∧ s' = s₁ ∧ inp' = in₁ ∧ M' = M := by
  have hO := orders_invariant D js h.empty xs
  rw [← h.order] at hhash
  have hi := hO.one_winner i' s' inp' M' i s₁ in₁ M p hw h.won hp' hp hhash
  subst hi
  cases hw.1.symm.trans h.won.1
  exact ⟨rfl, rfl, rfl, hw.2.1.unique h.won.2.1⟩

/-- The retry loses the race. -/
theorem insert_duplicate (h : Retry D w js xs i j s₁ s₂ in₁ in₂ M)
    {a : (Op.insert (s₂.newRow D M in₂)).Ans}
    (ha : (Op.insert (s₂.newRow D M in₂)).gave a ∈ callsOf j (System.run D w js xs).hist) :
    a = .error (.of .duplicateTransaction) := by
  have hO := orders_invariant D js h.empty xs
  obtain ⟨p, code, hp, -, hf⟩ := hO.row_of_won i s₁ in₁ M h.won
  obtain ⟨r₁, -, hr₁⟩ := List.mem_map.mp hf
  have hlen : M.merchantID.length ≤ 16 := by
    have hm : r₁.merchantID = M.merchantID := congrArg Facts.merchantID hr₁
    rw [← hm]
    exact r₁.merchantID_length
  obtain ⟨e, he, hpid, -, w', rfl⟩ := System.answered_of_mem D w js ha
  obtain ⟨y, hy⟩ := h.currency
  obtain ⟨r, hr⟩ := D.exists_row (t := s₂.newRow D M in₂) e.choice.now hlen
    (decodeHex16_deriveTransactionID D M.merchantID in₂.orderID) h.accepts.2.1 h.accepts.2.2 hy
  have hans : (exec D (.insert (s₂.newRow D M in₂)) e.choice w').1 =
      (D.insert e.choice.now none (s₂.newRow D M in₂) w'.pools).1 := by
    rw [← h.faultless e he hpid]
    rfl
  rw [hans] at ha ⊢
  rcases D.insert_ok_or_duplicate hr hp w'.pools with hok | hdup
  · rw [hok] at ha
    have hwon : Won D js (System.run D w js xs).hist j s₂ in₂ M := ⟨h.job, h.accepts, ha⟩
    exact absurd (h.winner_unique hwon hp hp rfl).1.symm h.other
  · exact hdup

/-- The retry reads the order of the winner. -/
theorem lookup_winner (h : Retry D w js xs i j s₁ s₂ in₁ in₂ M) {ix : UInt8} {m txn : Str}
    {a : (Op.getByTransactionID ix m txn).Ans}
    (ha : (Op.getByTransactionID ix m txn).gave a ∈ callsOf j (System.run D w js xs).hist) :
    ∃ existing, a = .ok existing ∧ IsOrderOf D s₁ M in₁ existing := by
  obtain ⟨e, he, hpid, hstep⟩ := mem_callsOf.mp ha
  have hj : js[e.pid]? = some (.create s₂ in₂) := by rw [hpid, h.job]
  rcases lookups_invariant D js h.empty xs e he ix m txn s₂ in₂ M (congrArg Sigma.fst hstep) hj
    h.accepts with ⟨hf, -⟩ | ⟨p, i', s', inp', M', hw, hp, hp', hhash, hans⟩
  · exact absurd (h.faultless e he hpid) hf
  obtain ⟨-, rfl, rfl, rfl⟩ := h.winner_unique hw hp hp' hhash
  rcases hans with ⟨existing, hstep', hord⟩ | ⟨hne, -⟩
  · exact ⟨existing, Op.gave_inj.mp (hstep.symm.trans hstep'), hord⟩
  · rw [D.collation.refl] at hne
    cases hne

/-- **The answer to a retry** is decided by the comparison with the winner's order. -/
theorem answer (h : Retry D w js xs i j s₁ s₂ in₁ in₂ M) {r : Res CreatePaymentResult}
    (hr : (System.run D w js xs).procs[j]? = some (.ret (.created r))) :
    ∃ existing, IsOrderOf D s₁ M in₁ existing ∧
      ((sameMaterialPayment D.unicode existing in₂.amount (s₂.normalizedCurrency D in₂)
          (primaryMethod D.unicode in₂) = false ∧
        ∃ e, r = .error e ∧ e.is .transactionConflict = true) ∨
      (sameMaterialPayment D.unicode existing in₂.amount (s₂.normalizedCurrency D in₂)
          (primaryMethod D.unicode in₂) = true ∧
        ∃ res, r = .ok res ∧ res.cryptoPayload.isSome = readsAsCrypto D.unicode in₁)) := by
  obtain ⟨q, hq, hruns⟩ := System.run_runs D w js h.job xs
  cases hr.symm.trans hq
  obtain ⟨r', hruns, heq⟩ := Prog.runs_map_ret hruns
  cases heq
  rw [s₂.create_eq D h.accepts] at hruns
  rcases Svc.runs_ask.mp hruns with ⟨-, hq⟩ | ⟨a, t', hcalls, hrest⟩
  · cases hq
  have hins : (Op.insert (s₂.newRow D M in₂)).gave a ∈ callsOf j (System.run D w js xs).hist := by
    rw [hcalls]
    exact List.mem_cons_self
  obtain rfl := h.insert_duplicate hins
  obtain ⟨b, t'', rfl, hb⟩ := s₂.answerRetry_ret D hrest
  have hlook : (Op.getByTransactionID M.shardIndex M.merchantID
      (deriveTransactionID D M.merchantID in₂.orderID)).gave b ∈
        callsOf j (System.run D w js xs).hist := by
    rw [hcalls]
    exact List.mem_cons_of_mem _ List.mem_cons_self
  obtain ⟨existing, rfl, hord⟩ := h.lookup_winner hlook
  refine ⟨existing, hord, ?_⟩
  rcases hb with ⟨e, he, -⟩ | ⟨existing', he, ⟨hne, hr'⟩ | ⟨hsame, res, hr', -, -, hpay⟩⟩
  · cases he
  · cases he
    exact .inl ⟨hne, _, hr', rfl⟩
  · cases he
    refine .inr ⟨hsame, res, hr', ?_⟩
    rw [hpay, hord.paymentMethod, hasPrefix_decodeMethod_encodeMethod]
    rfl

/-- No step of the retry changes a table. -/
theorem pools_unchanged (h : Retry D w js xs i j s₁ s₂ in₁ in₂ M) {ys zs : List (Nat × Choice)}
    {c : Choice} (hxs : xs = ys ++ (j, c) :: zs) :
    (System.run D w js (ys ++ [(j, c)])).world.pools = (System.run D w js ys).world.pools := by
  have hlater : ∀ x ∈ callsOf j (System.run D w js (ys ++ [(j, c)])).hist,
      x ∈ callsOf j (System.run D w js xs).hist := by
    intro x hx
    rw [hxs, ← List.singleton_append, ← List.append_assoc]
    exact System.mem_callsOf_run D w js hx
  rcases System.step_call D w js ys j c with heq | ⟨jb, o, k, hj, -, hcall, heq⟩
  · rw [heq]
  cases h.job.symm.trans hj
  rw [heq] at hlater ⊢
  show (exec D o c (System.run D w js ys).world).2.pools = _
  have hnot : (Op.insert (s₂.newRow D M in₂)).gave (.ok ()) ∉
      callsOf j ((System.run D w js ys).after D j c o k).hist := by
    intro hmem
    cases h.insert_duplicate (hlater _ hmem)
  cases hcall with
  | create hM hc =>
    obtain rfl := h.accepts.unique hM
    generalize hcalls : callsOf j (System.run D w js ys).hist = calls at hc
    cases hc with
    | insert =>
      rcases D.insert_cases c.now c.fault (s₂.newRow D M in₂)
        (System.run D w js ys).world.pools with
        ⟨r, p, -, -, -, -, he⟩ | ⟨r, p, -, -, -, -, he⟩ | ⟨e, -, he⟩
      · refine absurd (System.mem_callsOf_after.mpr (.inr ⟨rfl, ?_⟩)) hnot
        simp only [exec, he]
      · simp only [exec, he]
      · simp only [exec, he]
    | lookup e he => rfl
    | session _ _ =>
      refine absurd (System.mem_callsOf_after.mpr (.inl ?_)) hnot
      rw [hcalls]
      exact List.mem_cons_self
    | store sess _ _ =>
      refine absurd (System.mem_callsOf_after.mpr (.inl ?_)) hnot
      rw [hcalls]
      exact List.mem_cons_self
    | clock t => rfl

end Retry

/-! ## When the answer is the right one -/

/-- The two requests differ in something that makes them different payments. -/
def Differ (D : Deployment) (s₁ s₂ : PaymentService) (in₁ in₂ : CreatePaymentInput) : Prop :=
  in₁.amount ≠ in₂.amount ∨ s₁.normalizedCurrency D in₁ ≠ s₂.normalizedCurrency D in₂ ∨
    isCrypto D.unicode in₁ ≠ isCrypto D.unicode in₂

def Conflicts (r : Res CreatePaymentResult) : Prop :=
  ∃ e, r = .error e ∧ e.is .transactionConflict = true

/-- The answer `r` to job `j`, the retry with `in₂` of `in₁`: a conflict if and only if the
requests differ, with the tables as they were; otherwise a result of the flow of `in₁`. -/
structure RetryDecided (D : Deployment) (w : World) (js : List Job) (xs : List (Nat × Choice))
    (j : Nat) (s₁ s₂ : PaymentService) (in₁ in₂ : CreatePaymentInput)
    (r : Res CreatePaymentResult) : Prop where
  conflict_iff : Conflicts r ↔ Differ D s₁ s₂ in₁ in₂
  unchanged : Conflicts r → ∀ ys c zs, xs = ys ++ (j, c) :: zs →
    (System.run D w js (ys ++ [(j, c)])).world.pools = (System.run D w js ys).world.pools
  payload : ¬ Conflicts r →
    ∃ res, r = .ok res ∧ res.cryptoPayload.isSome = isCrypto D.unicode in₁

/-- Two flows that are told apart differ exactly if both are taken for what they are. -/
theorem flows_differ_iff : ∀ {f₁ f₂ c₁ c₂ : Bool}, (f₁ = true → c₁ = true) →
    (f₂ = true → c₂ = true) → c₁ ≠ c₂ → (f₁ ≠ f₂ ↔ c₁ = f₁ ∧ c₂ = f₂) := by
  decide

/-- **Retry or conflict.**  The answer to a retry is the one the two requests call for exactly
when they differ in amount or currency, or the first payment method type of neither is
mistaken for the crypto flow. -/
theorem retry_decided_iff {D : Deployment} {w : World} {js : List Job} {xs : List (Nat × Choice)}
    {i j : Nat} {s₁ s₂ : PaymentService} {in₁ in₂ : CreatePaymentInput} {M : Merchant}
    (h : Retry D w js xs i j s₁ s₂ in₁ in₂ M) {r : Res CreatePaymentResult}
    (hr : (System.run D w js xs).procs[j]? = some (.ret (.created r))) :
    RetryDecided D w js xs j s₁ s₂ in₁ in₂ r ↔
      in₁.amount ≠ in₂.amount ∨ s₁.normalizedCurrency D in₁ ≠ s₂.normalizedCurrency D in₂ ∨
        (StoredPlainly D.unicode in₁ ∧ AskedPlainly D.unicode in₂) := by
  obtain ⟨existing, hord, hans⟩ := h.answer hr
  obtain ⟨p, code, -, hcode, -⟩ := (orders_invariant D js h.empty xs).row_of_won i s₁ in₁ M h.won
  obtain ⟨y, hy⟩ := h.currency
  have hsame := sameMaterialPayment_iff hord hcode hy
  rw [← readsAsCrypto_eq_isCrypto, ← asksForCrypto_eq_isCrypto]
  have h₁ := fun hc => (crypto_recognised D.unicode in₁ hc).1
  have h₂ := fun hc => (crypto_recognised D.unicode in₂ hc).2
  rcases hans with ⟨hne, hconf⟩ | ⟨heq, res, rfl, hpay⟩
  · -- a conflict was reported: it has to be one
    have hdec : RetryDecided D w js xs j s₁ s₂ in₁ in₂ r ↔ Differ D s₁ s₂ in₁ in₂ := by
      constructor
      · intro hd
        exact hd.conflict_iff.mp hconf
      · intro hd
        refine ⟨⟨fun _ => hd, fun _ => hconf⟩, fun _ ys c zs hxs => h.pools_unchanged hxs, ?_⟩
        intro hn
        exact absurd hconf hn
    rw [hdec]
    unfold Differ
    by_cases ha : in₁.amount = in₂.amount
    · by_cases hc : s₁.normalizedCurrency D in₁ = s₂.normalizedCurrency D in₂
      · have hflow : readsAsCrypto D.unicode in₁ ≠ asksForCrypto D.unicode in₂ := by
          intro hflow
          rw [hsame.mpr ⟨ha, hc, hflow⟩] at hne
          cases hne
        simp only [ha, hc, ne_eq, not_true_eq_false, false_or]
        exact flows_differ_iff h₁ h₂ hflow
      · exact ⟨fun _ => .inr (.inl hc), fun _ => .inr (.inl hc)⟩
    · exact ⟨fun _ => .inl ha, fun _ => .inl ha⟩
  · -- none was: there has to be none, and the flow is the one read off the stored order
    obtain ⟨ha, hc, hflow⟩ := hsame.mp heq
    have hok : ¬ Conflicts (.ok res) := by
      rintro ⟨e, he, -⟩
      cases he
    constructor
    · intro hd
      have hdiff : ¬ Differ D s₁ s₂ in₁ in₂ := fun hdiff => hok (hd.conflict_iff.mpr hdiff)
      obtain ⟨res', heq', hpay'⟩ := hd.payload hok
      cases heq'
      have hf : isCrypto D.unicode in₁ = isCrypto D.unicode in₂ := by
        by_contra hf
        exact hdiff (.inr (.inr hf))
      refine .inr (.inr ⟨hpay.symm.trans hpay', ?_⟩)
      rw [← hflow, ← hpay, hpay', hf]
    · rintro (hna | hnc | ⟨hr₁, hr₂⟩)
      · exact absurd ha hna
      · exact absurd hc hnc
      · refine ⟨⟨fun hconf => absurd hconf hok, ?_⟩, fun hconf => absurd hconf hok,
          fun _ => ⟨res, rfl, hpay.trans hr₁⟩⟩
        rintro (hna | hnc | hnf)
        · exact absurd ha hna
        · exact absurd hc hnc
        · rw [← hr₁, ← hr₂] at hnf
          exact absurd hflow hnf

/-! ## One request, sent twice -/

/-- The same request twice, both in lazy mode, the second after the first. -/
def sentTwice (inp : CreatePaymentInput) : List Job :=
  [.create (.mode true) inp, .create (.mode true) inp]

def oneAfterTheOther : List (Nat × Choice) := [(0, {}), (1, {}), (1, {})]

def sentTwiceRun (inp : CreatePaymentInput) : System :=
  System.run (Deployment.sample .binary) (World.fresh []) (sentTwice inp) oneAfterTheOther

/-- The first call of a run is an insert, and it goes through. -/
theorem won_first {D : Deployment} {w : World} {js : List Job} {i : Nat} {s : PaymentService}
    {inp : CreatePaymentInput} {M : Merchant} (hj : js[i]? = some (.create s inp))
    (hM : PaymentService.Accepts inp M) {c : Choice}
    (hins : (exec D (.insert (s.newRow D M inp)) c w).1 = .ok ()) (xs : List (Nat × Choice)) :
    Won D js (System.run D w js ((i, c) :: xs)).hist i s inp M := by
  refine ⟨hj, hM, ?_⟩
  have hprog : ∃ k, (js.map (Job.prog D))[i]? =
      some (.call (.insert (s.newRow D M inp)) k) := by
    rw [List.getElem?_map, hj, Option.map_some, Job.prog, s.create_eq D hM]
    exact ⟨_, rfl⟩
  obtain ⟨k, hk⟩ := hprog
  have hmem := Sys.mem_callsOf_first (exec D) (s := Sys.start w (js.map (Job.prog D))) hk c xs
  rw [← hins]
  exact hmem

theorem retry_sentTwice (inp : CreatePaymentInput) {M : Merchant}
    (hwon : Won (Deployment.sample .binary) (sentTwice inp) (sentTwiceRun inp).hist 0 (.mode true)
      inp M) :
    Retry (Deployment.sample .binary) (World.fresh []) (sentTwice inp) oneAfterTheOther 0 1
      (.mode true) (.mode true) inp inp M := by
  obtain ⟨p, code, -, hcode, -⟩ :=
    (orders_invariant (Deployment.sample .binary) (sentTwice inp) (w := World.fresh [])
      (fun _ => rfl) oneAfterTheOther).row_of_won 0 (.mode true) inp M hwon
  refine ⟨fun _ => rfl, hwon, rfl, by decide, hwon.2.1, rfl, ⟨code, hcode⟩, ?_⟩
  intro e he _
  have hmem := System.mem_schedule _ _ _ he
  simp only [oneAfterTheOther, List.mem_cons, List.not_mem_nil, or_false, Prod.mk.injEq] at hmem
  rcases hmem with ⟨-, hc⟩ | ⟨-, hc⟩ | ⟨-, hc⟩ <;> rw [hc]

/-- A card payment whose first payment method type is called `crypto`. -/
def cryptoNamed : CreatePaymentInput :=
  { CreatePaymentInput.card (.named (bytes "m1")) (bytes "o-1") 100 with
    paymentMethodTypes := [bytes "crypto"] }

/-- The identical request conflicts with itself. -/
theorem retry_conflicts_with_itself :
    Retry (Deployment.sample .binary) (World.fresh []) (sentTwice cryptoNamed) oneAfterTheOther 0 1
        (.mode true) (.mode true) cryptoNamed cryptoNamed (.named (bytes "m1")) ∧
      ∃ e, (sentTwiceRun cryptoNamed).procs[1]? = some (.ret (.created (.error e))) ∧
        e.is .transactionConflict = true ∧
        ¬ RetryDecided (Deployment.sample .binary) (World.fresh []) (sentTwice cryptoNamed)
          oneAfterTheOther 1 (.mode true) (.mode true) cryptoNamed cryptoNamed (.error e) := by
  refine ⟨retry_sentTwice cryptoNamed ?_, .because .transactionConflict
    (bytes "amount/currency/method mismatch with order o-1"),
    Prog.getElem?_of_result? (by decide +kernel), rfl, ?_⟩
  · exact won_first rfl ⟨rfl, (validateOrderID_ok_iff _).mp rfl, by decide⟩ (by decide +kernel) _
  · intro h
    rcases h.conflict_iff.mp ⟨_, rfl, rfl⟩ with hne | hne | hne <;> exact hne rfl

/-- An ordinary card payment sent twice is answered from its row. -/
theorem retry_decided_card :
    ∃ res, (sentTwiceRun (.card (.named (bytes "m1")) (bytes "o-1") 100)).procs[1]? =
        some (.ret (.created (.ok res))) ∧
      RetryDecided (Deployment.sample .binary) (World.fresh [])
        (sentTwice (.card (.named (bytes "m1")) (bytes "o-1") 100)) oneAfterTheOther 1 (.mode true)
        (.mode true) (.card (.named (bytes "m1")) (bytes "o-1") 100)
        (.card (.named (bytes "m1")) (bytes "o-1") 100) (.ok res) := by
  have hretry := retry_sentTwice (.card (.named (bytes "m1")) (bytes "o-1") 100)
    (won_first rfl ⟨rfl, (validateOrderID_ok_iff _).mp rfl, by decide⟩ (by decide +kernel) _)
  have hret : (sentTwiceRun (.card (.named (bytes "m1")) (bytes "o-1") 100)).procs[1]? =
      some (.ret (.created (.ok
        { orderID := bytes "o-1"
          transactionID := bytes "67e517abe49208ac1dc4f023c683351d"
          stripeSessionID := []
          checkoutURL := bytes "https://pay.example/pay/m1/o-1"
          stripePaymentIntentID := []
          clientSecret := []
          status := bytes "accepted"
          cryptoPayload := none }))) :=
    Prog.getElem?_of_result? (by decide +kernel)
  refine ⟨_, hret, (retry_decided_iff hretry hret).mpr (.inr (.inr ⟨.inr ?_, .inr ?_⟩))⟩
  · intro t ht
    cases ht
  · intro t ht
    cases ht

end EasyPay
