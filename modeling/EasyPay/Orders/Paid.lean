import EasyPay.Onchain.Recording
import EasyPay.Orders
import EasyPay.Orders.Facts
import EasyPay.Webhook.CrossCheck

/-!
# What an order is paid on

Three kinds of jobs set orders to `paid`: deliveries of success events, the order reconciler, and
the confirmation tracker.  Each has its `Grounds`: Stripe's event, Stripe's answer for a payment
intent, a payment on the chain.  The third goes through two jobs, one that records the payment and
one that confirms it.

* `paid_grounded`: from empty tables on, every order that is paid was created by a `Create`, and there
  are grounds for it, which on the chain are for its amount.
* `announced_grounded`: so it is with every order that is announced as paid.
-/

namespace EasyPay

open GoStrings Tables Ports

/-- What the order `o` of `m` over `amount` has been set to `paid` on. -/
inductive Grounds (js : List Job) (S : System) (m o : Str) (amount : Int64) : Prop
  /-- A success event for it, confirmed by Stripe if it names a payment intent. -/
  | event {i : Nat} {s : WebhookService} {payload sig : Str} {e : StripeEvent} {obj : StripeObject} :
      js[i]? = some (.process s payload sig) →
      s.verifyWebhookSignature payload sig s.webhookSecret = .ok e → e.kind = .succeeded →
      s.decodeStripeObject e = .ok obj → obj.merchantID = m → obj.orderID = o →
      (obj.piID ≠ [] → StripeConfirmed s e (callsOf i S.hist)) → Grounds js S m o amount
  /-- Stripe's answer for the payment intent of the order. -/
  | intent {i : Nat} {r : OrderReconciliation} {before : Time} {limit : Int}
      {stuck : List Transaction} {order : Transaction} {pi : PaymentIntent} :
      js[i]? = some (.reconcile r) →
      (Op.getPendingBefore before limit).gave (.ok stuck) ∈ callsOf i S.hist → order ∈ stuck →
      order.merchantID = m → order.orderID = o → order.amount = amount →
      (Op.getPaymentIntent order.stripePaymentIntentID).gave (.ok pi) ∈ callsOf i S.hist →
      pi.status = bytes "succeeded" → Grounds js S m o amount
  /-- A log of a payment for it, in a transaction that has succeeded and is deep enough.  The amount
  is compared in its low 64 bits. -/
  | chain {i l : Nat} {c : ConfirmationTracker} {listener : ListenerJob} {cfg : ChainConfig}
      {lg : Log} {parsed : ParsedPaymentEvent} {latest : UInt64} {receipt : Receipt} :
      js[i]? = some (.confirm c) → js[l]? = some (.listen listener) → cfg.chainID = c.chainID →
      Delivered listener (callsOf l S.hist) cfg lg → parsePaymentEvent lg = .ok parsed →
      parsed.orderID = o → Int64.ofInt parsed.amount = amount →
      Op.blockNumber.gave (.ok latest) ∈ callsOf i S.hist →
      lg.blockNumber.toNat + cfg.requiredConfirmations.toNat ≤ latest.toNat →
      (Op.transactionReceipt lg.txHash.hex).gave (.ok (some receipt)) ∈ callsOf i S.hist →
      receipt.status = 1 → Grounds js S m o amount

section
variable {D : Deployment} {w : World} {js : List Job}

/-! ## Payments on the chain -/

/-- The row is that of a log the listener was given. -/
def RecordedFrom (D : Deployment) (js : List Job) (S : System) (p : OnchainTransaction) : Prop :=
  ∃ l listener cfg lg parsed owner, js[l]? = some (.listen listener) ∧
    Delivered listener (callsOf l S.hist) cfg lg ∧ parsePaymentEvent lg = .ok parsed ∧
    p.facts = (newOnchainTx D.addressHex cfg lg parsed owner).facts

theorem RecordedFrom.mono {S S' : System} {p : OnchainTransaction} (h : RecordedFrom D js S p)
    (hmono : ∀ i, ∀ x ∈ callsOf i S.hist, x ∈ callsOf i S'.hist) : RecordedFrom D js S' p := by
  obtain ⟨l, listener, cfg, lg, parsed, owner, hl, hdel, h⟩ := h
  exact ⟨l, listener, cfg, lg, parsed, owner, hl, hdel.mono (hmono l), h⟩

/-- From an empty table on, every row is recorded from a log. -/
theorem recorded_from (hchain : w.onchain = []) (xs : List (Nat × Choice)) :
    ∀ p ∈ (System.run D w js xs).world.onchain, RecordedFrom D js (System.run D w js xs) p := by
  refine System.invariant D w js
    (Q := fun S => ∀ p ∈ S.world.onchain, RecordedFrom D js S p) ?_ ?_ xs
  · intro p hp
    have hp : p ∈ w.onchain := hp
    rw [hchain] at hp
    cases hp
  intro S i c o k j hS hj hcall p hp
  have hmono := System.callsOf_after_mono (D := D) (s := S) (i := i) (c := c) (o := o) (k := k)
  have hp : p ∈ (exec D o c S.world).2.onchain := hp
  rcases exec_onchain_cases D o c S.world with
    he | ⟨tx, rfl, -, -, -, he⟩ | ⟨txHash, n, st, rfl, -, he⟩
  · rw [he] at hp
    exact (hS p hp).mono hmono
  · rw [he] at hp
    rcases List.mem_append.mp hp with hp | hp
    · exact (hS p hp).mono hmono
    · obtain ⟨l, rfl, cfg, lg, parsed, order, rfl, hdel, hparse, -⟩ := hcall.create_inv
      rw [List.mem_singleton.mp hp, storedTx_newOnchainTx]
      exact ⟨i, l, cfg, lg, parsed, order, hj, hdel.mono (hmono i), hparse, rfl⟩
  · rw [he] at hp
    obtain ⟨p', hp', rfl⟩ := mem_updateWhere.mp hp
    obtain ⟨l, listener, cfg, lg, parsed, owner, hl, hdel, hparse, hfacts⟩ := (hS p' hp').mono hmono
    refine ⟨l, listener, cfg, lg, parsed, owner, hl, hdel, hparse, Eq.trans ?_ hfacts⟩
    split
    · rfl
    · rfl

/-- What a tick has listed was recorded before. -/
theorem listed_recorded (hchain : w.onchain = []) {xs : List (Nat × Choice)} {i : Nat}
    {chainID : Int64} {limit : Int} {pendings : List OnchainTransaction} {p : OnchainTransaction}
    (hlist : (Op.listPendingByChain chainID limit).gave (.ok pendings) ∈
      callsOf i (System.run D w js xs).hist) (hp : p ∈ pendings) :
    p.chainID = chainID ∧ RecordedFrom D js (System.run D w js xs) p := by
  obtain ⟨c, he⟩ := exists_event (P := gateway) hlist
  obtain ⟨ys, zs, -, rfl, -, hans⟩ := System.happened D w js he
  simp only [exec] at hans
  split at hans
  · cases hans
  cases hans
  obtain ⟨hmem, hchainID, -⟩ := mem_listPending hp
  exact ⟨hchainID, (recorded_from hchain ys p hmem).mono fun _ _ hx => System.mem_callsOf_run D w js hx⟩

/-! ## One order, one row -/

/-- Two rows of a pool with the same names are the same order. -/
theorem facts_unique (hempty : ∀ p, w.pools p = []) {xs : List (Nat × Choice)} {q : Nat} {r r' : Row}
    (hr : r ∈ (System.run D w js xs).world.pools q) (hr' : r' ∈ (System.run D w js xs).world.pools q)
    (hm : r.merchantID = r'.merchantID) (ho : r.orderID = r'.orderID) : r.facts = r'.facts := by
  have hinv := orders_invariant D js hempty xs
  have htxn : ∀ y ∈ (System.run D w js xs).world.pools q,
      y.transactionID = D.hash16 (hashInput y.merchantID y.orderID) := by
    intro y hy
    obtain ⟨i, s, inp, M, code, -, -, -, hf⟩ := hinv.winner_of_row hy
    have h₁ : y.transactionID = D.hash16 (hashInput M.merchantID inp.orderID) :=
      congrArg Facts.transactionID hf
    have h₂ : y.merchantID = M.merchantID := congrArg Facts.merchantID hf
    have h₃ : y.orderID = inp.orderID := congrArg Facts.orderID hf
    rw [h₁, h₂, h₃]
  refine List.inj_on_of_nodup_map (hinv.distinct q) (List.mem_map_of_mem hr)
    (List.mem_map_of_mem hr') ?_
  show r.transactionID = r'.transactionID
  rw [htxn r hr, htxn r' hr', hm, ho]

/-- The row an order was read from is the one that is written under its names. -/
theorem amount_of_read (hbinary : D.collation = .binary) (hempty : ∀ p, w.pools p = [])
    {xs : List (Nat × Choice)} {i : Nat} {x : Prog.Step gateway} {order : Transaction} {q : Nat} {r : Row}
    (hx : x ∈ callsOf i (System.run D w js xs).hist) (hread : HasRead order x)
    (hshard : D.router.forIndex order.shardIndex = .ok q)
    (hr : r ∈ (System.run D w js xs).world.pools q)
    (hof : D.ofOrder order.merchantID order.orderID r = true) : order.amount = r.amount.toInt64 := by
  obtain ⟨q', -, hq', r', hr', hm, ho, hamount, -⟩ := read_kept D w js hx hread
  cases hshard.symm.trans hq'
  unfold TransactionRepo.ofOrder at hof
  rw [hbinary, Bool.and_eq_true, Collation.binary_eq, Collation.binary_eq] at hof
  have hfacts := facts_unique hempty hr hr' (hof.1.trans hm) (hof.2.trans ho)
  rw [hamount, ← hfacts]
  rfl

/-- An order that was found by its id has it. -/
theorem orderID_of_found (hbinary : D.collation = .binary) {xs : List (Nat × Choice)} {i : Nat} {o : Str}
    {order : Transaction} (h : (Op.getByOrderIDAny o).gave (.ok order) ∈
      callsOf i (System.run D w js xs).hist) : order.orderID = o := by
  obtain ⟨ev, -, -, -, w', hans⟩ := System.answered_of_mem D w js h
  obtain ⟨-, q, r, t, y, -, -, heq, hscan, rfl, -⟩ := D.getByOrderIDAny_ok hans.symm
  rw [hbinary, Collation.binary_eq] at heq
  obtain ⟨-, -, ho, -⟩ := TransactionRepo.scanTransaction_ok hscan
  exact ho.trans heq

/-! ## Who sets an order to `paid` -/

theorem verdict_paid {pi : PaymentIntent} (h : pi.verdict = .paid) : pi.status = bytes "succeeded" := by
  unfold PaymentIntent.verdict at h
  split at h
  · assumption
  split at h
  · cases h
  · cases h

/-- Only success events set orders to `paid`. -/
theorem EventKind.eq_succeeded {kind : EventKind} (h : kind.status = some .paid) :
    kind = .succeeded := by
  cases kind with
  | succeeded => rfl
  | _ => cases h

/-- **The grounds of a write.** -/
theorem grounds_of_written (hbinary : D.collation = .binary) (hempty : ∀ p, w.pools p = [])
    (hchain : w.onchain = []) {xs : List (Nat × Choice)} {i : Nat} {x : UInt8} {m o pi : Str} {q : Nat}
    {r : Row} (hwritten : (Op.updateStatus x m o .paid pi).gave (.ok ()) ∈
      callsOf i (System.run D w js xs).hist) (hx : D.router.forIndex x = .ok q)
    (hr : r ∈ (System.run D w js xs).world.pools q) (hof : D.ofOrder m o r = true) :
    Grounds js (System.run D w js xs) r.merchantID r.orderID r.amount.toInt64 := by
  obtain ⟨j, t, k, hj, hruns, ht⟩ := System.callsOf_runs D w js hwritten
  have hnames : r.merchantID = m ∧ r.orderID = o := by
    unfold TransactionRepo.ofOrder at hof
    rwa [hbinary, Bool.and_eq_true, Collation.binary_eq, Collation.binary_eq] at hof
  have hcall := Job.next hruns
  cases hcall with
  | create _ hc => cases hc
  | resolve hc => cases hc
  | @handle s payload sig e t op k he hr =>
    have hk : e.kind = .succeeded := by
      cases s.handle_next hr with
      | write _ _ _ _ _ hst => exact EventKind.eq_succeeded hst
    obtain ⟨obj, hobj, -, -, hconf⟩ := saysPaid_cases hj he hk (.inl ⟨x, m, o, pi, hwritten⟩)
    rw [WebhookService.handle_succeeded hk] at hr
    obtain ⟨obj', hobj', -, -, ⟨-, -, hop⟩ | ⟨t₁, t₂, -, -, h⟩⟩ := s.handleSucceeded_next hr
    · cases hop
    cases hobj.symm.trans hobj'
    rcases h with hop | ⟨y, hop⟩ | ⟨y, -, hop | hop | ⟨order, now, hop, -⟩⟩
    · cases hop
    · cases hop
      exact .event hj he hk hobj hnames.1.symm hnames.2.symm hconf
    · cases hop
    · cases hop
    · cases hop
  | @reconcile rc _ _ _ =>
    obtain ⟨k', hruns⟩ := Prog.runs_map_call hruns
    have hat : rc.TickAt t (some (.updateStatus x m o .paid pi)) := rc.tick_at hruns
    cases hat with
    | @order now os os' order t t' _ _ hat =>
      have hlist : (Op.getPendingBefore (now - rc.stuckAfter) rc.batchSize).gave
          (.ok (os ++ order :: os')) ∈ callsOf i (System.run D w js xs).hist := ht _ (by simp)
      have hmem : order ∈ os ++ order :: os' := by simp
      generalize hop : some (Op.updateStatus x m o .paid pi) = op at hat
      cases hat with
      | @confirm pi' hv =>
        cases hop
        have hamount := amount_of_read hbinary hempty hlist (.snapshot _ _ hmem) hx hr hof
        refine .intent hj hlist hmem hnames.1.symm hnames.2.symm hamount (ht _ ?_) (verdict_paid hv)
        simp [OrderReconciliation.asked]
      | _ => cases hop
  | @confirm c _ _ _ =>
    obtain ⟨k', hruns⟩ := Prog.runs_map_call hruns
    have hat : c.TickAt t (some (.updateStatus x m o .paid pi)) := c.tick_at hruns
    cases hat with
    | @payment latest ps ps' p t t' _ _ hat =>
      cases hat with
      | @deep receipt t' _ hstatus hdeep hat =>
        cases hat with
        | @pay order hmatch =>
          have hfound : (Op.getByOrderIDAny p.orderID).gave (.ok order) ∈
              callsOf i (System.run D w js xs).hist := ht _ (by simp [ConfirmationTracker.found])
          have hamount := amount_of_read hbinary hempty hfound (.any _) hx hr hof
          have hlisted : (Op.listPendingByChain c.chainID c.batchLimit).gave (.ok (ps ++ p :: ps')) ∈
              callsOf i (System.run D w js xs).hist := ht _ (.tail _ (.head _))
          obtain ⟨hchainID, l, listener, cfg, lg, parsed, owner, hl, hdel, hparse, hfacts⟩ :=
            listed_recorded hchain hlisted (p := p) (by simp)
          have horder := orderID_of_found hbinary hfound
          have hmatch : amountMismatch p order = false := hmatch.2.2
          unfold amountMismatch at hmatch
          rw [show p.amount = some (parsed.amount : Int) from
            congrArg OnchainTransaction.amount hfacts] at hmatch
          have hreceipt := ht ((Op.transactionReceipt p.txHash).gave (.ok (some receipt))) (by simp)
          rw [show p.txHash = lg.txHash.hex from congrArg OnchainTransaction.txHash hfacts] at hreceipt
          unfold ConfirmationTracker.DeepEnough at hdeep
          rw [show p.blockNumber = lg.blockNumber from congrArg OnchainTransaction.blockNumber hfacts,
            show p.requiredConfirm = cfg.requiredConfirmations from
              congrArg OnchainTransaction.requiredConfirm hfacts] at hdeep
          refine .chain hj hl ?_ hdel hparse ?_ ?_ (ht _ (.head _)) hdeep hreceipt hstatus
          · exact (congrArg OnchainTransaction.chainID hfacts).symm.trans hchainID
          · exact (congrArg OnchainTransaction.orderID hfacts).symm.trans
              (horder.symm.trans hnames.2.symm)
          · exact (not_not.mp (of_decide_eq_false hmatch)).trans hamount
  | listen hc => cases hc

/-- **Paid on grounds.**  From empty tables on, an order that is paid is one that was created, and
there are grounds for it. -/
theorem paid_grounded (hbinary : D.collation = .binary) (hempty : ∀ p, w.pools p = [])
    (hchain : w.onchain = []) {xs : List (Nat × Choice)} {q : Nat} {r : Row}
    (hr : r ∈ (System.run D w js xs).world.pools q) (hpaid : r.status = statusPaid) :
    (∃ i s inp M, Won D js (System.run D w js xs).hist i s inp M ∧ r.merchantID = M.merchantID ∧
      r.orderID = inp.orderID ∧ r.amount.toInt64 = inp.amount) ∧
    Grounds js (System.run D w js xs) r.merchantID r.orderID r.amount.toInt64 := by
  constructor
  · obtain ⟨i, s, inp, M, code, hwon, -, -, hf⟩ := (orders_invariant D js hempty xs).winner_of_row hr
    refine ⟨i, s, inp, M, hwon, congrArg Facts.merchantID hf, congrArg Facts.orderID hf, ?_⟩
    rw [show r.amount = inp.amount.toUInt64 from congrArg Facts.amount hf]
    exact Int64.toInt64_toUInt64 _
  obtain ⟨n, hn⟩ := List.mem_iff_getElem?.mp hr
  rcases status_history D w js xs q n r hn with
    ⟨r₀, hr₀, -⟩ | ⟨i, t, a, hins, hst⟩ | ⟨i, x, m, o, st, pi, hwritten, hx, hof, hst⟩
  · rw [hempty] at hr₀
    cases hr₀
  · -- a new order is not paid
    obtain ⟨j, t', k, -, hruns, -⟩ := System.callsOf_runs D w js hins
    obtain ⟨s, inp, M, -, -, -, rfl⟩ := (Job.next hruns).insert_inv
    have hst : statusPaid = encodeStatus .created := hpaid.symm.trans hst
    exact absurd hst (by decide)
  · obtain rfl : st = .paid :=
      (eq_encodeStatus_iff (decodeStatus_encodeStatus st) .paid).mp (hst.symm.trans hpaid)
    exact grounds_of_written hbinary hempty hchain hwritten hx hr hof

/-! ## Who announces an order as paid -/

/-- The event has the names, the amount and the currency of the row. -/
def PaymentConfirmedEvent.Copied (ev : PaymentConfirmedEvent) (r : Row) : Prop :=
  r.merchantID = ev.merchantID ∧ r.orderID = ev.orderID ∧ r.amount.toInt64 = ev.amount ∧
    decodeCurrency r.currencyCode = .ok ev.currency

/-- The order a job announces as paid is one it has read and set to `paid`: under the names of the order,
or under those it was read by. -/
theorem announces_paid {j : Job} {t : Calls} {ev : PaymentConfirmedEvent} {k : Res Unit → Svc Outcome}
    (h : Prog.Runs (j.prog D) t (.call (.publishPaymentConfirmed ev) k))
    (hpaid : ev.status = TransactionStatus.paid.text) :
    ∃ order x m o pi, ev.Copies order ∧ (Op.updateStatus x m o .paid pi).gave (.ok ()) ∈ t ∧
      ((Op.getByMerchantOrderID x m o).gave (.ok order) ∈ t ∨
        (x = order.shardIndex ∧ m = order.merchantID ∧ o = order.orderID ∧
          ∃ y ∈ t, HasRead order y)) := by
  have hcall := Job.next h
  cases hcall with
  | create _ hc => cases hc
  | resolve hr => cases hr
  | @handle s payload sig e t op k he hr =>
    have hk : e.kind = .succeeded := by
      cases s.handle_next hr with
      | announce order st now hst =>
        obtain rfl : st = .paid := by
          have hpaid : st.text = TransactionStatus.paid.text := hpaid
          revert hpaid
          cases st <;> decide
        exact EventKind.eq_succeeded hst
    rw [WebhookService.handle_succeeded hk] at hr
    obtain ⟨obj, -, -, -, ⟨-, -, hop⟩ | ⟨t₁, t₂, rfl, -, h⟩⟩ := s.handleSucceeded_next hr
    · cases hop
    rcases h with hop | ⟨y, hop⟩ | ⟨y, hwritten, hop | hop | ⟨order, now, hop, hread⟩⟩
    · cases hop
    · cases hop
    · cases hop
    · cases hop
    · cases hop
      exact ⟨order, y, obj.merchantID, obj.orderID, obj.piID, ⟨rfl, rfl, rfl, rfl⟩,
        .tail _ (List.mem_append_right _ hwritten), .inl (.tail _ (List.mem_append_right _ hread))⟩
  | @reconcile r _ _ _ =>
    obtain ⟨k', hruns⟩ := Prog.runs_map_call h
    have hat : r.TickAt t (some (.publishPaymentConfirmed ev)) := r.tick_at hruns
    cases hat with
    | @order now os os' o t t' _ _ ho =>
      cases ho with
      | @announce pi now _ =>
        refine ⟨o, _, _, _, pi.id, ⟨rfl, rfl, rfl, rfl⟩, ?_, .inr ⟨rfl, rfl, rfl, _,
          .tail _ (.head _), .snapshot _ _ (by simp)⟩⟩
        simp [OrderReconciliation.write]
  | @confirm c _ _ _ =>
    obtain ⟨k', hruns⟩ := Prog.runs_map_call h
    have hat : c.TickAt t (some (.publishPaymentConfirmed ev)) := c.tick_at hruns
    cases hat with
    | @payment latest ps ps' p t t' _ _ hp =>
      cases hp with
      | deep _ _ hp =>
        cases hp with
        | @announce order now _ =>
          refine ⟨order, _, _, _, [], ⟨rfl, rfl, rfl, rfl⟩, ?_, .inr ⟨rfl, rfl, rfl,
            ConfirmationTracker.found p order, ?_, .any _⟩⟩
          · simp [ConfirmationTracker.paid]
          · simp
  | listen hc => cases hc

/-- What is announced is a row. -/
theorem announced_row (hquiet : w.published = []) {xs : List (Nat × Choice)}
    {ev : PaymentConfirmedEvent} (hev : ev ∈ (System.run D w js xs).world.published) :
    ∃ q, ∃ r ∈ (System.run D w js xs).world.pools q, ev.Copied r := by
  rcases mem_published.mp hev with hev | ⟨i, hpublished⟩
  · rw [hquiet] at hev
    cases hev
  obtain ⟨j, t, k, -, hruns, ht⟩ := System.callsOf_runs D w js hpublished
  obtain ⟨order, ⟨hm, ho, ha, hc⟩, y, hy, hread⟩ := announces_read hruns
  obtain ⟨q, -, -, r, hr, hm', ho', ha', hc'⟩ := read_kept D w js (ht y hy) hread
  exact ⟨q, r, hr, (hm.trans hm').symm, (ho.trans ho').symm, (ha.trans ha').symm, by rw [hc]; exact hc'⟩

/-- **Announced on grounds.**  An order that is announced as paid is a row, with the facts of the
announcement, and there are grounds for it. -/
theorem announced_grounded (hbinary : D.collation = .binary) (hempty : ∀ p, w.pools p = [])
    (hchain : w.onchain = []) (hquiet : w.published = []) {xs : List (Nat × Choice)}
    {ev : PaymentConfirmedEvent} (hev : ev ∈ (System.run D w js xs).world.published)
    (hpaid : ev.status = TransactionStatus.paid.text) :
    ∃ q, ∃ r ∈ (System.run D w js xs).world.pools q, ev.Copied r ∧
      Grounds js (System.run D w js xs) r.merchantID r.orderID r.amount.toInt64 := by
  rcases mem_published.mp hev with hev | ⟨i, hpublished⟩
  · rw [hquiet] at hev
    cases hev
  obtain ⟨j, t, k, -, hruns, ht⟩ := System.callsOf_runs D w js hpublished
  obtain ⟨order, x, m, o, pi, ⟨hm, ho, ha, hc⟩, hwritten, hread⟩ := announces_paid hruns hpaid
  -- the names the order was written under are its own
  obtain ⟨rfl, rfl, rfl, y, hy, hread⟩ : x = order.shardIndex ∧ m = order.merchantID ∧
      o = order.orderID ∧ ∃ y ∈ t, HasRead order y := by
    rcases hread with hread | h
    · obtain ⟨ev', -, -, -, w', hans⟩ := System.answered_of_mem D w js (ht _ hread)
      obtain ⟨q, r, t', -, -, -, hof, hscan, rfl⟩ := D.getByMerchantOrderID_ok hans.symm
      obtain ⟨hm', -, ho', -⟩ := TransactionRepo.scanTransaction_ok hscan
      unfold TransactionRepo.ofOrder at hof
      rw [hbinary, Bool.and_eq_true, Collation.binary_eq, Collation.binary_eq] at hof
      exact ⟨rfl, hof.1.symm.trans hm'.symm, hof.2.symm.trans ho'.symm, _, hread, .one _ _ _⟩
    · exact h
  obtain ⟨q, -, hq, r, hr, hm', ho', ha', hc'⟩ := read_kept D w js (ht y hy) hread
  have hof : D.ofOrder order.merchantID order.orderID r = true := by
    rw [hm', ho']
    exact D.ofOrder_self r
  refine ⟨q, r, hr, ⟨(hm.trans hm').symm, (ho.trans ho').symm, (ha.trans ha').symm, ?_⟩,
    grounds_of_written hbinary hempty hchain (ht _ hwritten) hq hr hof⟩
  rw [hc]
  exact hc'

end

/-- An order is created, a payment for it is recorded, and the payment is confirmed. -/
def createRecordTrack : List Job :=
  [.create (.mode true) (.card (.named (bytes "m1")) (bytes "o-1") 100), .socket firstPayment, .track]

def paidOnChain : System :=
  System.run (Deployment.sample .binary) (World.fresh [.named (bytes "m1")]) createRecordTrack
    (steps 0 1 ++ steps 1 4 ++ List.replicate 8 (2, .onChain))

theorem paid_grounded_chain :
    ∃ r ∈ paidOnChain.world.pools 0, r.status = statusPaid ∧
      Grounds createRecordTrack paidOnChain r.merchantID r.orderID r.amount.toInt64 := by
  have hstatus : (paidOnChain.world.pools 0).map Row.status = [statusPaid] := by decide +kernel
  obtain ⟨r, hr, hpaid⟩ := List.map_eq_singleton_iff.mp hstatus
  have hmem : r ∈ paidOnChain.world.pools 0 := by
    rw [hr]
    exact List.mem_singleton.mpr rfl
  have hbinary : (Deployment.sample .binary).collation = .binary := rfl
  have hempty : ∀ p, (World.fresh [.named (bytes "m1")]).pools p = [] := fun _ => rfl
  have hchain : (World.fresh [.named (bytes "m1")]).onchain = [] := rfl
  unfold paidOnChain at hmem ⊢
  exact ⟨r, hmem, hpaid, (paid_grounded hbinary hempty hchain hmem hpaid).2⟩

end EasyPay
