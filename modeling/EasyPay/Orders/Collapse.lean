import EasyPay.Orders

/-!
# Create collapses to one row and one Stripe call

Any number of `Create` calls for any merchants and orders, interleaved with anything else
the gateway does.  If transaction ids tell the orders of these calls apart, a merchant
stays on its shard and SQL compares bytes, every order has one row under its own
transaction id, at most one call for a session, and one answer.
-/

namespace EasyPay

open GoStrings Tables Ports

/-- The payment a `Create` job is about: merchant id and order id. -/
def Job.payment? : Job → Option (Str × Str)
  | .create _ inp => inp.merchant.map fun M => (M.merchantID, inp.orderID)
  | _ => none

/-- A `Create` for the order asks Stripe for a session. -/
def sessionCallOf (js : List Job) (m o : Str) (e : CallEvent) : Bool :=
  match e.op with
  | .createCheckoutSession _ _ => js[e.pid]?.bind Job.payment? == some (m, o)
  | _ => false

/-- What the collapse rests on. -/
structure CollapseSetup (D : Deployment) (js : List Job) : Prop where
  binary : D.collation = Collation.binary
  fixed_shard : ∀ s inp M s' inp' M', Job.create s inp ∈ js → Job.create s' inp' ∈ js →
    PaymentService.Accepts inp M → PaymentService.Accepts inp' M' →
    M.merchantID = M'.merchantID → M.shardIndex = M'.shardIndex
  injective : ∀ s inp M s' inp' M', Job.create s inp ∈ js → Job.create s' inp' ∈ js →
    PaymentService.Accepts inp M → PaymentService.Accepts inp' M' →
    deriveTransactionID D M.merchantID inp.orderID =
      deriveTransactionID D M'.merchantID inp'.orderID →
    M.merchantID = M'.merchantID ∧ inp.orderID = inp'.orderID

section
variable {D : Deployment} {js : List Job} {S : System}

theorem Won.mem {hist : List CallEvent} {i : Nat} {s : PaymentService} {inp : CreatePaymentInput}
    {M : Merchant} (h : Won D js hist i s inp M) : Job.create s inp ∈ js :=
  List.mem_of_getElem? h.1

/-- Two winners of one transaction id have the same merchant and order. -/
theorem CollapseSetup.same_order (hD : CollapseSetup D js) {s s' : PaymentService}
    {inp inp' : CreatePaymentInput} {M M' : Merchant} (hj : Job.create s inp ∈ js)
    (hj' : Job.create s' inp' ∈ js) (hM : PaymentService.Accepts inp M)
    (hM' : PaymentService.Accepts inp' M')
    (h : D.hash16 (hashInput M.merchantID inp.orderID) =
      D.hash16 (hashInput M'.merchantID inp'.orderID)) :
    M.merchantID = M'.merchantID ∧ inp.orderID = inp'.orderID :=
  hD.injective s inp M s' inp' M' hj hj' hM hM' (congrArg hexEncode h)

/-- Of the `Create` calls for one order, one has won. -/
theorem OrdersInv.one_winner_of_order (hS : OrdersInv D js S) (hD : CollapseSetup D js)
    {i i' : Nat} {s s' : PaymentService} {inp inp' : CreatePaymentInput} {M M' : Merchant}
    (h : Won D js S.hist i s inp M) (h' : Won D js S.hist i' s' inp' M')
    (hm : M.merchantID = M'.merchantID) (ho : inp.orderID = inp'.orderID) : i = i' := by
  have hsh := hD.fixed_shard s inp M s' inp' M' h.mem h'.mem h.2.1 h'.2.1 hm
  obtain ⟨p, code, hp, -, -⟩ := hS.row_of_won i s inp M h
  refine hS.one_winner i s inp M i' s' inp' M' p h h' hp (by rw [← hsh, hp]) ?_
  rw [hm, ho]

/-- **One row per order**, in all pools together. -/
theorem OrdersInv.one_row (hS : OrdersInv D js S) (hD : CollapseSetup D js) {p p' n n' : Nat}
    {r r' : Row} (hr : (S.world.pools p)[n]? = some r) (hr' : (S.world.pools p')[n']? = some r')
    (hm : r.merchantID = r'.merchantID) (ho : r.orderID = r'.orderID) : p = p' ∧ n = n' := by
  obtain ⟨i, s, inp, M, code, hw, hp, -, hf⟩ := hS.winner_of_row (List.mem_of_getElem? hr)
  obtain ⟨i', s', inp', M', code', hw', hp', -, hf'⟩ :=
    hS.winner_of_row (List.mem_of_getElem? hr')
  have e1 : r.merchantID = M.merchantID := congrArg Facts.merchantID hf
  have e2 : r'.merchantID = M'.merchantID := congrArg Facts.merchantID hf'
  have e3 : r.orderID = inp.orderID := congrArg Facts.orderID hf
  have e4 : r'.orderID = inp'.orderID := congrArg Facts.orderID hf'
  have hmm : M.merchantID = M'.merchantID := by rw [← e1, hm, e2]
  have hoo : inp.orderID = inp'.orderID := by rw [← e3, ho, e4]
  have hpp : p = p' := by
    rw [hD.fixed_shard s inp M s' inp' M' hw.mem hw'.mem hw.2.1 hw'.2.1 hmm, hp'] at hp
    exact (Except.ok.inj hp).symm
  subst hpp
  refine ⟨rfl, ?_⟩
  -- equal transaction ids in one pool are at one place
  have ht : r.transactionID = r'.transactionID := by
    have t1 : r.transactionID = D.hash16 (hashInput M.merchantID inp.orderID) :=
      congrArg Facts.transactionID hf
    have t2 : r'.transactionID = D.hash16 (hashInput M'.merchantID inp'.orderID) :=
      congrArg Facts.transactionID hf'
    rw [t1, t2, hmm, hoo]
  have hnd := hS.distinct p
  have hlen : ((S.world.facts p).map Facts.transactionID).length = (S.world.pools p).length := by
    unfold World.facts
    rw [List.length_map, List.length_map]
  refine (List.getElem?_inj ?_ hnd).mp ?_
  · rw [hlen]
    exact (List.getElem?_eq_some_iff.mp hr).1
  · unfold World.facts
    simp only [List.getElem?_map, hr, hr', Option.map_some]
    exact congrArg some ht

/-- **Derived transaction ids.** -/
theorem OrdersInv.derived (hS : OrdersInv D js S) {p : Nat} {r : Row} (hr : r ∈ S.world.pools p) :
    hexLower r.transactionID = deriveTransactionID D r.merchantID r.orderID := by
  obtain ⟨i, s, inp, M, code, -, -, -, hf⟩ := hS.winner_of_row hr
  have e1 : r.transactionID = D.hash16 (hashInput M.merchantID inp.orderID) :=
    congrArg Facts.transactionID hf
  have e2 : r.merchantID = M.merchantID := congrArg Facts.merchantID hf
  have e3 : r.orderID = inp.orderID := congrArg Facts.orderID hf
  unfold deriveTransactionID
  rw [hexLower_eq, e1, e2, e3]

/-- **A loser finds the winner**: its lookup is answered with the order of a `Create` for the
same merchant and order that won, unless the query failed. -/
theorem LookupsInv.finds_winner (hL : LookupsInv D js S) (hD : CollapseSetup D js) {e : CallEvent}
    (he : e ∈ S.hist) {i : UInt8} {m txn : Str} {s : PaymentService} {inp : CreatePaymentInput}
    {M : Merchant} (hop : e.op = .getByTransactionID i m txn)
    (hj : js[e.pid]? = some (.create s inp)) (hM : PaymentService.Accepts inp M) :
    (e.choice.fault ≠ none ∧ ∃ err, e.step = (Op.getByTransactionID i m txn).gave (.error err)) ∨
      ∃ existing i' s' inp' M', e.step = (Op.getByTransactionID i m txn).gave (.ok existing) ∧
        Won D js S.hist i' s' inp' M' ∧ M'.merchantID = M.merchantID ∧
        inp'.orderID = inp.orderID ∧ IsOrderOf D s' M' inp' existing := by
  rcases hL e he i m txn s inp M hop hj hM with h | ⟨p, i', s', inp', M', hw, -, -, hhash, h⟩
  · exact .inl h
  obtain ⟨hm, ho⟩ := hD.same_order hw.mem (List.mem_of_getElem? hj) hw.2.1 hM hhash
  rcases h with ⟨existing, hstep, hord⟩ | ⟨hne, -⟩
  · exact .inr ⟨existing, i', s', inp', M', hstep, hw, hm, ho, hord⟩
  · rw [hm, D.collation.refl] at hne
    cases hne

/-- A `Create` whose insert was refused as a duplicate goes on to look the order up. -/
theorem PaymentService.create_looks_up {s : PaymentService} {inp : CreatePaymentInput} {M : Merchant}
    (hM : PaymentService.Accepts inp M) {t : Calls} {q : Svc (Res CreatePaymentResult)}
    (h : Prog.Runs (s.create D inp) t q) {err : Err} (hdup : err.is .duplicateTransaction = true)
    (hmem : (Op.insert (s.newRow D M inp)).gave (.error err) ∈ t) :
    (∃ k, q = .call (.getByTransactionID M.shardIndex M.merchantID
        (deriveTransactionID D M.merchantID inp.orderID)) k) ∨
      ∃ a, (Op.getByTransactionID M.shardIndex M.merchantID
        (deriveTransactionID D M.merchantID inp.orderID)).gave a ∈ t := by
  -- the insert is the first call there is
  obtain ⟨t₁, t₂, rfl⟩ := List.append_of_mem hmem
  obtain ⟨k, hk⟩ := h.before
  obtain ⟨M', -, hcall⟩ := s.create_next D hk
  have hfirst : ∀ {row : Transaction}, s.CreateCall D M' inp t₁ (.insert row) → t₁ = [] := by
    intro row h
    cases h with
    | insert => rfl
  cases hfirst hcall
  rw [s.create_eq D hM] at h
  rcases Svc.runs_ask.mp h with ⟨hnil, -⟩ | ⟨a, t', heq, h'⟩
  · cases hnil
  obtain ⟨hgave, rfl⟩ := List.cons.inj heq
  cases Op.gave_inj.mp hgave
  have hretry : ¬ (!err.is .duplicateTransaction) = true := by
    rw [hdup]
    exact Bool.false_ne_true
  simp only [if_neg hretry] at h'
  unfold answerRetry at h'
  rcases Svc.runs_ask.mp h' with ⟨rfl, rfl⟩ | ⟨a, t'', rfl, -⟩
  · exact .inl ⟨_, rfl⟩
  · exact .inr ⟨a, List.mem_cons_of_mem _ List.mem_cons_self⟩

/-- **A loser looks the winner up**: that is its next call, or it has made it. -/
theorem Lost.looks_up {w : World} {xs : List (Nat × Choice)} {i : Nat} {s : PaymentService}
    {inp : CreatePaymentInput} {M : Merchant} (h : Lost D js (System.run D w js xs).hist i s inp M) :
    (∃ k, (System.run D w js xs).procs[i]? = some (.call (.getByTransactionID M.shardIndex M.merchantID
        (deriveTransactionID D M.merchantID inp.orderID)) k)) ∨
      ∃ e ∈ (System.run D w js xs).hist, e.pid = i ∧ e.op = .getByTransactionID M.shardIndex
        M.merchantID (deriveTransactionID D M.merchantID inp.orderID) := by
  obtain ⟨hj, hM, err, hdup, hmem⟩ := h
  obtain ⟨q, hq, hruns⟩ := System.run_runs D w js hj xs
  have hmade : (∃ a, (Op.getByTransactionID M.shardIndex M.merchantID
      (deriveTransactionID D M.merchantID inp.orderID)).gave a ∈
        callsOf i (System.run D w js xs).hist) →
      ∃ e ∈ (System.run D w js xs).hist, e.pid = i ∧ e.op = .getByTransactionID M.shardIndex
        M.merchantID (deriveTransactionID D M.merchantID inp.orderID) := by
    rintro ⟨a, ha⟩
    obtain ⟨e, he, hpid, hstep⟩ := mem_callsOf.mp ha
    exact ⟨e, he, hpid, congrArg Sigma.fst hstep⟩
  rcases Prog.runs_bind hruns with ⟨o, k, hr, rfl⟩ | ⟨t₁, r, t₂, ht, hr, hret⟩
  · rcases PaymentService.create_looks_up hM hr hdup hmem with ⟨k', hcall⟩ | hlookup
    · cases hcall
      exact .inl ⟨_, hq⟩
    · exact .inr (hmade hlookup)
  · obtain ⟨rfl, -⟩ := Prog.runs_ret.mp hret
    rw [List.append_nil] at ht
    subst ht
    rcases PaymentService.create_looks_up hM hr hdup hmem with ⟨k', hcall⟩ | hlookup
    · cases hcall
    · exact .inr (hmade hlookup)

/-! ## The winner's session -/

/-- Only a winner asks for a session, and nobody else asks for that order's. -/
structure SessionCallsInv (D : Deployment) (js : List Job) (S : System) : Prop where
  by_winner : ∀ e ∈ S.hist, ∀ m o, sessionCallOf js m o e = true →
    ∃ s inp M, Won D js S.hist e.pid s inp M ∧ M.merchantID = m ∧ inp.orderID = o
  at_most_one : ∀ m o, S.hist.countP (sessionCallOf js m o) ≤ 1

theorem sessionCallOf_iff {m o : Str} {e : CallEvent} :
    sessionCallOf js m o e = true ↔
      (∃ req key, e.op = .createCheckoutSession req key) ∧
        ∃ s inp M, js[e.pid]? = some (.create s inp) ∧ inp.merchant = some M ∧
          M.merchantID = m ∧ inp.orderID = o := by
  unfold sessionCallOf
  split
  · next req key hop =>
    constructor
    · intro h
      refine ⟨⟨req, key, hop⟩, ?_⟩
      rw [beq_iff_eq, Option.bind_eq_some_iff] at h
      obtain ⟨j, hj, hpay⟩ := h
      cases j with
      | create s inp =>
        obtain ⟨M, hM, heq⟩ := Option.map_eq_some_iff.mp hpay
        cases heq
        exact ⟨s, inp, M, hj, hM, rfl, rfl⟩
      | _ => cases hpay
    · rintro ⟨-, s, inp, M, hj, hM, rfl, rfl⟩
      rw [hj]
      simp [Job.payment?, hM]
  · next hop =>
    constructor
    · intro h
      cases h
    · rintro ⟨⟨req, key, h⟩, -⟩
      exact absurd h (hop req key)

/-- A `Create` call asks for a session right after its insert went through. -/
theorem JobCall.session_inv {s : PaymentService} {inp : CreatePaymentInput} {t : Calls}
    {req : CreateCheckoutRequest} {key : Str}
    (h : JobCall D (.create s inp) t (.createCheckoutSession req key)) :
    ∃ M, PaymentService.Accepts inp M ∧ t = [(Op.insert (s.newRow D M inp)).gave (.ok ())] ∧
      req = s.checkoutRequest D M inp ∧ key = deriveTransactionID D M.merchantID inp.orderID := by
  cases h with
  | create hM hc =>
    cases hc with
    | session _ _ => exact ⟨_, hM, rfl, rfl, rfl⟩

theorem SessionCallsInv.after (hD : CollapseSetup D js) (hO : OrdersInv D js S)
    (hC : SessionCallsInv D js S) {i : Nat} {c : Choice} {o : Op} {k : o.Ans → Svc Outcome}
    {j : Job} (hj : js[i]? = some j) (hcall : JobCall D j (callsOf i S.hist) o) :
    SessionCallsInv D js (S.after D i c o k) := by
  -- the caller of a session call has won, and has not asked before
  have hnew : ∀ m oid, sessionCallOf js m oid ⟨i, c, o, (exec D o c S.world).1⟩ = true →
      ∃ s inp M, Won D js S.hist i s inp M ∧ M.merchantID = m ∧ inp.orderID = oid ∧
        callsOf i S.hist = [(Op.insert (s.newRow D M inp)).gave (.ok ())] := by
    intro m oid h
    obtain ⟨⟨req, key, hop⟩, s, inp, M, hje, hM, hm, ho⟩ := sessionCallOf_iff.mp h
    simp only at hop hje
    subst hop
    cases hj.symm.trans hje
    obtain ⟨M', hM', hcalls, -, -⟩ := hcall.session_inv
    have hMM : M' = M := Option.some.inj (hM'.1.symm.trans hM)
    subst hMM
    refine ⟨s, inp, M', ⟨hj, hM', ?_⟩, hm, ho, hcalls⟩
    rw [hcalls]
    exact List.mem_singleton.mpr rfl
  constructor
  · intro e he m oid h
    rcases System.mem_hist_after.mp he with he | rfl
    · obtain ⟨s, inp, M, hw, hm, ho⟩ := hC.by_winner e he m oid h
      exact ⟨s, inp, M, hw.mono (System.callsOf_after_mono _), hm, ho⟩
    · obtain ⟨s, inp, M, hw, hm, ho, -⟩ := hnew m oid h
      exact ⟨s, inp, M, hw.mono (System.callsOf_after_mono _), hm, ho⟩
  · intro m oid
    show (S.hist ++ [(⟨i, c, o, (exec D o c S.world).1⟩ : CallEvent)]).countP
      (sessionCallOf js m oid) ≤ 1
    rw [List.countP_append, List.countP_singleton]
    split
    · next h =>
      obtain ⟨s, inp, M, hw, hm, ho, hcalls⟩ := hnew m oid h
      have hzero : S.hist.countP (sessionCallOf js m oid) = 0 := by
        rw [List.countP_eq_zero]
        intro e he hse
        obtain ⟨s', inp', M', hw', hm', ho'⟩ := hC.by_winner e he m oid hse
        have hie : i = e.pid :=
          hO.one_winner_of_order hD hw hw' (hm.trans hm'.symm) (ho.trans ho'.symm)
        obtain ⟨⟨req, key, hop⟩, -⟩ := sessionCallOf_iff.mp hse
        have hmem : e.step ∈ callsOf i S.hist := mem_callsOf.mpr ⟨e, he, hie.symm, rfl⟩
        rw [hcalls, List.mem_singleton] at hmem
        have : e.op = .insert (s.newRow D M inp) := congrArg Sigma.fst hmem
        rw [hop] at this
        cases this
      omega
    · exact hC.at_most_one m oid

theorem sessionCalls_invariant (hD : CollapseSetup D js) {w : World} (hw : ∀ p, w.pools p = [])
    (xs : List (Nat × Choice)) : SessionCallsInv D js (System.run D w js xs) := by
  refine System.run_rule D w js ?_ ?_ xs
  · constructor
    · intro e he
      cases he
    · intro m o
      exact Nat.zero_le _
  · intro ys i c o k j hC hj hcall
    exact hC.after hD (orders_invariant D js hw ys) hj hcall

end

/-! ## The whole run -/

/-- The state of a run in which `Create` has collapsed. -/
structure Collapsed (D : Deployment) (js : List Job) (S : System) : Prop where
  /-- At most one row per merchant and order, in all pools together. -/
  one_row : ∀ (p p' n n' : Nat) (r r' : Row), (S.world.pools p)[n]? = some r →
    (S.world.pools p')[n']? = some r' → r.merchantID = r'.merchantID → r.orderID = r'.orderID →
    p = p' ∧ n = n'
  /-- Every row has the transaction id of its merchant and order. -/
  derived : ∀ p, ∀ r ∈ S.world.pools p,
    hexLower r.transactionID = deriveTransactionID D r.merchantID r.orderID
  /-- At most one call for a session per merchant and order. -/
  one_session_call : ∀ m o, S.hist.countP (sessionCallOf js m o) ≤ 1
  /-- A `Create` that lost the insert race looks the order up: that is its next call, or it has made
  it. -/
  loser_looks_up : ∀ i s inp M, Lost D js S.hist i s inp M →
    (∃ k, S.procs[i]? = some (.call (.getByTransactionID M.shardIndex M.merchantID
        (deriveTransactionID D M.merchantID inp.orderID)) k)) ∨
      ∃ e ∈ S.hist, e.pid = i ∧ e.op = .getByTransactionID M.shardIndex M.merchantID
        (deriveTransactionID D M.merchantID inp.orderID)
  /-- A loser's lookup is answered with the winner's order, unless the query failed. -/
  loser_finds_winner : ∀ e ∈ S.hist, ∀ i m txn s inp M, e.op = .getByTransactionID i m txn →
    js[e.pid]? = some (.create s inp) → PaymentService.Accepts inp M → e.choice.fault = none →
    ∃ existing i' s' inp' M', e.step = (Op.getByTransactionID i m txn).gave (.ok existing) ∧
      Won D js S.hist i' s' inp' M' ∧ M'.merchantID = M.merchantID ∧
      inp'.orderID = inp.orderID ∧ IsOrderOf D s' M' inp' existing
  /-- Results for one merchant and order agree on its ids. -/
  same_ids : ∀ (i i' : Nat) (s s' : PaymentService) (inp inp' : CreatePaymentInput)
    (M M' : Merchant) (res res' : CreatePaymentResult), js[i]? = some (.create s inp) →
    js[i']? = some (.create s' inp') → PaymentService.Accepts inp M →
    PaymentService.Accepts inp' M' → M.merchantID = M'.merchantID → inp.orderID = inp'.orderID →
    S.procs[i]? = some (.ret (.created (.ok res))) →
    S.procs[i']? = some (.ret (.created (.ok res'))) →
    res.orderID = res'.orderID ∧ res.transactionID = res'.transactionID

/-- A successful `Create` answers with the ids of its own order. -/
theorem created_ids {D : Deployment} {w : World} {js : List Job} {xs : List (Nat × Choice)}
    (hD : CollapseSetup D js) (hL : LookupsInv D js (System.run D w js xs)) {i : Nat}
    {s : PaymentService} {inp : CreatePaymentInput} {M : Merchant} {res : CreatePaymentResult}
    (hj : js[i]? = some (.create s inp)) (hM : PaymentService.Accepts inp M)
    (hres : (System.run D w js xs).procs[i]? = some (.ret (.created (.ok res)))) :
    res.orderID = inp.orderID ∧
      res.transactionID = deriveTransactionID D M.merchantID inp.orderID := by
  obtain ⟨q, hq, hr⟩ := System.run_runs D w js hj xs
  rw [hres] at hq
  cases hq
  obtain ⟨r, hr, heq⟩ := Prog.runs_map_ret hr
  cases heq
  obtain ⟨M', hM', ⟨t', -, ho, ht⟩ | ⟨e, existing, t', -, hcalls, ho, ht⟩⟩ := s.create_ok D hr
  · obtain rfl := hM'.unique hM
    exact ⟨ho, ht⟩
  · obtain rfl := hM'.unique hM
    have hmem : (Op.getByTransactionID M'.shardIndex M'.merchantID
        (deriveTransactionID D M'.merchantID inp.orderID)).gave (.ok existing) ∈
          callsOf i (System.run D w js xs).hist := by
      rw [hcalls]
      exact List.mem_cons_of_mem _ List.mem_cons_self
    obtain ⟨ev, hev, hpid, hstep⟩ := mem_callsOf.mp hmem
    have hj' : js[ev.pid]? = some (.create s inp) := by rw [hpid, hj]
    rcases hL.finds_winner hD hev (congrArg Sigma.fst hstep) hj' hM' with
      ⟨-, err, hstep'⟩ | ⟨existing', i', s', inp', M'', hstep', -, hm, hoo, hord⟩
    · cases Op.gave_inj.mp (hstep.symm.trans hstep')
    · cases Op.gave_inj.mp (hstep.symm.trans hstep')
      rw [ho, ht, hord.orderID, hord.transactionID, hm, hoo]
      exact ⟨rfl, rfl⟩

/-- **Create collapses.**  In every state of every run from empty tables there is one row,
one call for a session and one answer per merchant and order, and every loser of an insert
race finds the winner's order. -/
theorem create_collapses (D : Deployment) (js : List Job) (hD : CollapseSetup D js) (w : World)
    (hw : ∀ p, w.pools p = []) (xs : List (Nat × Choice)) :
    Collapsed D js (System.run D w js xs) := by
  have hO := orders_invariant D js hw xs
  have hL := lookups_invariant D js hw xs
  have hC := sessionCalls_invariant hD hw xs
  constructor
  · intro p p' n n' r r' hr hr' hm ho
    exact hO.one_row hD hr hr' hm ho
  · intro p r hr
    exact hO.derived hr
  · exact hC.at_most_one
  · intro i s inp M hlost
    exact hlost.looks_up
  · intro e he i m txn s inp M hop hj hM hf
    rcases hL.finds_winner hD he hop hj hM with ⟨hf', -⟩ | h
    · exact absurd hf hf'
    · exact h
  · intro i i' s s' inp inp' M M' res res' hj hj' hM hM' hm ho hres hres'
    obtain ⟨h1, h2⟩ := created_ids hD hL hj hM hres
    obtain ⟨h1', h2'⟩ := created_ids hD hL hj' hM' hres'
    rw [h1, h2, h1', h2', hm, ho]
    exact ⟨rfl, rfl⟩

/-- Two requests for one order and one for another. -/
def sampleCreates : List Job :=
  [.create (.mode false) (.card (.named (bytes "m1")) (bytes "o-1") 100),
   .create (.mode false) (.card (.named (bytes "m1")) (bytes "o-1") 100),
   .create (.mode true) (.card (.named (bytes "m1")) (bytes "o-2") 100)]

theorem create_collapses_sample :
    let D := Deployment.sample .binary
    let S := System.run D (World.fresh []) sampleCreates
      [(0, {}), (1, {}), (0, {}), (2, {}), (1, {}), (0, {})]
    CollapseSetup D sampleCreates ∧ (S.world.pools 0).length = 2 ∧ S.world.sessions.length = 1 ∧
      Collapsed D sampleCreates S := by
  have hD : CollapseSetup (Deployment.sample .binary) sampleCreates := by
    constructor
    · rfl
    · rintro s inp M s' inp' M' hj hj' ⟨hM, -⟩ ⟨hM', -⟩ -
      simp only [sampleCreates, List.mem_cons, List.not_mem_nil, or_false, Job.create.injEq]
        at hj hj'
      rcases hj with ⟨-, rfl⟩ | ⟨-, rfl⟩ | ⟨-, rfl⟩ <;>
        rcases hj' with ⟨-, rfl⟩ | ⟨-, rfl⟩ | ⟨-, rfl⟩ <;> cases hM <;> cases hM' <;> rfl
    · rintro s inp M s' inp' M' hj hj' ⟨hM, -⟩ ⟨hM', -⟩ h
      simp only [sampleCreates, List.mem_cons, List.not_mem_nil, or_false, Job.create.injEq]
        at hj hj'
      rcases hj with ⟨-, rfl⟩ | ⟨-, rfl⟩ | ⟨-, rfl⟩ <;>
        rcases hj' with ⟨-, rfl⟩ | ⟨-, rfl⟩ | ⟨-, rfl⟩ <;> cases hM <;> cases hM' <;>
        revert h <;> decide +kernel
  exact ⟨hD, by decide +kernel, by decide +kernel, create_collapses _ _ hD _ (fun _ => rfl) _⟩

end EasyPay
