import EasyPay.Orders.Facts
import EasyPay.Webhook.Acknowledge

/-!
# Refunds

Stripe sends a `charge.refunded` event for every refund of a charge; the field `refunded` of the
charge is true once all of it is refunded.  The handler decodes the field and does not look at it.

* `JobCall.refund_inv`: only the handler of a refund event sets an order to refunded or announces
  it so, and it is the order its event is resolved to.
* `refunded_in_full`: so an order is refunded in full, if all of its refund events are of full
  refunds.
-/

namespace EasyPay

open GoStrings Tables Ports

/-! ## The calls of the refund handler -/

/-- What the refund handler does, it does to the order its event is resolved to. -/
def RefundCall (s : WebhookService) (e : StripeEvent) (t : Calls) : Op → Prop
  | .updateStatus _ m o _ _ => Names s e (· ∈ t) m o
  | .publishPaymentConfirmed ev => ∃ i m o order now, Names s e (· ∈ t) m o ∧
      ev = confirmedEvent order .refunded now ∧
      (Op.getByMerchantOrderID i m o).gave (.ok order) ∈ t
  | _ => True

section
variable {s : WebhookService} {e : StripeEvent}

theorem refundedOrder_meets (hk : e.kind = .refunded) {o : StripeObject}
    (ho : s.decodeStripeObject e = .ok o) :
    Prog.Meets (P := gateway) (RefundCall s e)
      (fun t res => Names s e (· ∈ t) res.2.1 res.1) (WebhookService.refundedOrder o) [] := by
  unfold WebhookService.refundedOrder
  split
  · refine Svc.meets_ask trivial fun a => ?_
    cases a with
    | error err => exact ⟨o, ho, .inl ⟨rfl, rfl⟩⟩
    | ok tx => exact ⟨o, ho, .inr ⟨hk, tx, by simp, rfl, rfl⟩⟩
  · exact ⟨o, ho, .inl ⟨rfl, rfl⟩⟩

theorem refundShard_meets (m : Str) (shard : Option UInt8) (t : Calls) :
    Prog.Meets (P := gateway) (RefundCall s e) (fun t' _ => ∀ x ∈ t, x ∈ t')
      (WebhookService.refundShard m shard) t := by
  cases shard with
  | some i => exact fun x hx => hx
  | none =>
    refine Svc.meets_ask trivial fun a => ?_
    cases a with
    | error err => exact fun x hx => List.mem_append_left _ hx
    | ok M => exact fun x hx => List.mem_append_left _ hx

theorem handleRefunded_meets (hk : e.kind = .refunded) :
    Prog.Meets (P := gateway) (RefundCall s e) (fun _ _ => True) (s.handleRefunded e) [] := by
  unfold WebhookService.handleRefunded
  cases ho : s.decodeStripeObject e with
  | error err => trivial
  | ok obj =>
    refine Prog.meets_bind (refundedOrder_meets hk ho) ?_
    rintro t ⟨o, m, shard⟩ hnames
    simp only
    split
    · trivial
    refine Prog.meets_bind (refundShard_meets m shard t) fun t' a ht => ?_
    cases a with
    | error err => trivial
    | ok i =>
      have hnames : Names s e (· ∈ t') m o := hnames.imp fun x _ hx => ht x hx
      refine Svc.meets_ask hnames fun a => ?_
      cases a with
      | error err => trivial
      | ok u =>
        refine Svc.meets_ask trivial fun a => ?_
        cases a with
        | error err => trivial
        | ok order =>
          refine Svc.meets_ask trivial fun now => ⟨?_, fun _ => trivial⟩
          refine ⟨i, m, o, order, now, hnames.imp fun x _ hx => ?_, rfl, by simp⟩
          simp [hx]

end

/-! ## Who refunds an order -/

/-- The call sets an order to refunded, or announces it so. -/
def Op.SaysRefunded : Op → Prop
  | .updateStatus _ _ _ st _ => st = .refunded
  | .publishPaymentConfirmed ev => ev.status = TransactionStatus.refunded.text
  | _ => False

theorem EventKind.eq_refunded {kind : EventKind} (h : kind.status = some .refunded) :
    kind = .refunded := by
  cases kind <;> first | rfl | cases h

theorem TransactionStatus.text_refunded {st : TransactionStatus}
    (h : st.text = TransactionStatus.refunded.text) : st = .refunded := by
  cases st <;> first | rfl | exact absurd h (by decide)

/-- **Only a refund event** refunds an order, one that is verified and no duplicate. -/
theorem JobCall.refund_inv {D : Deployment} {j : Job} {t : Calls} {op : Op} (h : JobCall D j t op)
    (hop : op.SaysRefunded) :
    ∃ s payload sig e, j = .process s payload sig ∧
      s.verifyWebhookSignature payload sig s.webhookSecret = .ok e ∧ e.kind = .refunded ∧
      claimed e true ∈ t ∧ RefundCall s e t op := by
  have hpaid : TransactionStatus.paid.text ≠ TransactionStatus.refunded.text := by decide
  cases h with
  | create _ hc => cases hc <;> cases hop
  | resolve hr => cases hr <;> cases hop
  | claim => cases hop
  | @handle s payload sig e t op k he hr =>
    have hk : e.kind = .refunded := by
      cases s.handle_next hr with
      | write _ _ _ _ st hst =>
        cases hop
        exact EventKind.eq_refunded hst
      | announce _ st _ hst =>
        rw [TransactionStatus.text_refunded hop] at hst
        exact EventKind.eq_refunded hst
      | _ => cases hop
    rw [WebhookService.handle_refunded hk] at hr
    refine ⟨s, payload, sig, e, rfl, he, hk, List.mem_cons_self, ?_⟩
    have hcall := (handleRefunded_meets hk).call hr
    cases op with
    | updateStatus i m o st pi => exact Names.imp hcall fun x _ hx => List.mem_cons_of_mem _ hx
    | publishPaymentConfirmed ev =>
      obtain ⟨i, m, o, order, now, hnames, rfl, hread⟩ := hcall
      exact ⟨i, m, o, order, now, hnames.imp fun x _ hx => List.mem_cons_of_mem _ hx, rfl,
        List.mem_cons_of_mem _ hread⟩
    | _ => trivial
  | reconcile hr =>
    cases hr with
    | announce => exact absurd hop hpaid
    | _ => cases hop
  | confirm hc =>
    cases hc with
    | announce => exact absurd hop hpaid
    | _ => cases hop
  | listen hc => cases hc <;> cases hop

/-! ## Full refunds -/

/-- Job `i` has processed a refund event with this object for the order: the event is verified,
is no duplicate, and was resolved to the order. -/
def RefundEvent (D : Deployment) (js : List Job) (S : System) (i : Nat) (obj : StripeObject)
    (merchantID orderID : Str) : Prop :=
  ∃ s payload sig e m o, js[i]? = some (.process s payload sig) ∧
    s.verifyWebhookSignature payload sig s.webhookSecret = .ok e ∧ e.kind = .refunded ∧
    s.decodeStripeObject e = .ok obj ∧ claimed e true ∈ callsOf i S.hist ∧
    Names s e (· ∈ callsOf i S.hist) m o ∧
    D.collation.eq merchantID m = true ∧ D.collation.eq orderID o = true

/-- Every order that is refunded, or was announced so, has had a refund event. -/
def RefundInv (D : Deployment) (js : List Job) (S : System) : Prop :=
  (∀ p, ∀ r ∈ S.world.pools p, r.status = statusRefunded →
    ∃ i obj, RefundEvent D js S i obj r.merchantID r.orderID) ∧
  ∀ ev ∈ S.world.published, ev.status = TransactionStatus.refunded.text →
    ∃ i obj, RefundEvent D js S i obj ev.merchantID ev.orderID

section
variable {D : Deployment} {w : World} {js : List Job} {xs : List (Nat × Choice)}

/-- A job that refunds an order, or announces it so, has a refund event that is resolved to it. -/
theorem refundEvent_of_call {i : Nat} {op : Op} {a : op.Ans}
    (h : op.gave a ∈ callsOf i (System.run D w js xs).hist) (hop : op.SaysRefunded) :
    ∃ s e t obj, t ⊆ callsOf i (System.run D w js xs).hist ∧ RefundCall s e t op ∧
      ∀ m o merchantID orderID, Names s e (· ∈ t) m o → D.collation.eq merchantID m = true →
        D.collation.eq orderID o = true →
        RefundEvent D js (System.run D w js xs) i obj merchantID orderID := by
  obtain ⟨j, t, k, hj, hruns, ht⟩ := System.callsOf_runs D w js h
  obtain ⟨s, payload, sig, e, rfl, hver, hk, hclaim, hcall⟩ := (Job.next hruns).refund_inv hop
  obtain ⟨obj, hobj⟩ : ∃ obj, s.decodeStripeObject e = .ok obj := by
    cases op with
    | updateStatus i m o st pi =>
      obtain ⟨obj, hobj, -⟩ := hcall
      exact ⟨obj, hobj⟩
    | publishPaymentConfirmed ev =>
      obtain ⟨_, _, _, _, _, ⟨obj, hobj, -⟩, -⟩ := hcall
      exact ⟨obj, hobj⟩
    | _ => cases hop
  refine ⟨s, e, t, obj, ht, hcall, fun m o merchantID orderID hnames hm ho => ?_⟩
  exact ⟨s, payload, sig, e, m, o, hj, hver, hk, hobj, ht _ hclaim,
    hnames.imp fun x _ hx => ht x hx, hm, ho⟩

/-- **In every state of every run.** -/
theorem refund_invariant (hrows : ∀ p, ∀ r ∈ w.pools p, r.status ≠ statusRefunded)
    (hpublished : ∀ ev ∈ w.published, ev.status ≠ TransactionStatus.refunded.text)
    (xs : List (Nat × Choice)) : RefundInv D js (System.run D w js xs) := by
  constructor
  · intro p r hr hst
    obtain ⟨n, hn⟩ := List.mem_iff_getElem?.mp hr
    have hdecode : ∀ {st : TransactionStatus}, r.status = encodeStatus st → st = .refunded := by
      intro st h
      have hboth : encodeStatus st = encodeStatus .refunded := h.symm.trans hst
      rw [eq_encodeStatus_iff (decodeStatus_encodeStatus st)] at hboth
      exact hboth
    rcases status_history D w js xs p n r hn with
      ⟨r₀, hr₀, h⟩ | ⟨i, t, a, hins, h⟩ | ⟨i, x, m, o, st, pi, hcall, -, hof, h⟩
    · exact absurd (h.symm.trans hst) (hrows p r₀ (List.mem_of_getElem? hr₀))
    · -- a fresh row is not refunded
      obtain ⟨j, t', k, hj, hruns, -⟩ := System.callsOf_runs D w js hins
      obtain ⟨s, inp, M, -, -, -, rfl⟩ := (Job.next hruns).insert_inv
      cases hdecode h
    · obtain ⟨s, e, t, obj, -, hnames, hevent⟩ := refundEvent_of_call hcall (hdecode h)
      have heq := Bool.and_eq_true_iff.mp hof
      exact ⟨i, obj, hevent m o _ _ hnames heq.1 heq.2⟩
  · intro ev hev hst
    obtain ⟨i, hcall⟩ := (mem_published.mp hev).resolve_left fun h => hpublished ev h hst
    obtain ⟨s, e, t, obj, ht, ⟨x, m, o, order, now, hnames, rfl, hread⟩, hevent⟩ :=
      refundEvent_of_call hcall hst
    -- the order was read from the rows the event is resolved to
    obtain ⟨rd, -, -, -, w', hans⟩ := System.answered_of_mem D w js (ht hread)
    obtain ⟨q, r, t', -, -, -, hof, hscan, rfl⟩ := D.getByMerchantOrderID_ok hans.symm
    obtain ⟨hm, -, horder, -⟩ := TransactionRepo.scanTransaction_ok hscan
    have heq := Bool.and_eq_true_iff.mp hof
    rw [← hm, ← horder] at heq
    exact ⟨i, obj, hevent m o _ _ hnames heq.1 heq.2⟩

/-- **Refunded in full.**  An order is refunded, or announced as refunded, on a processed event
with `refunded` set only, if all the refund events that are processed for it have it set. -/
theorem refunded_in_full (hrows : ∀ p, ∀ r ∈ w.pools p, r.status ≠ statusRefunded)
    (hpublished : ∀ ev ∈ w.published, ev.status ≠ TransactionStatus.refunded.text)
    {merchantID orderID : Str}
    (hfull : ∀ i obj, RefundEvent D js (System.run D w js xs) i obj merchantID orderID →
      obj.refunded = true) :
    (∀ p, ∀ r ∈ (System.run D w js xs).world.pools p, r.merchantID = merchantID →
      r.orderID = orderID → r.status = statusRefunded →
      ∃ i obj, RefundEvent D js (System.run D w js xs) i obj merchantID orderID ∧
        obj.refunded = true) ∧
    ∀ ev ∈ (System.run D w js xs).world.published, ev.merchantID = merchantID →
      ev.orderID = orderID → ev.status = TransactionStatus.refunded.text →
      ∃ i obj, RefundEvent D js (System.run D w js xs) i obj merchantID orderID ∧
        obj.refunded = true := by
  have hinv : RefundInv D js (System.run D w js xs) := refund_invariant hrows hpublished xs
  constructor
  · rintro p r hr rfl rfl hst
    obtain ⟨i, obj, h⟩ := hinv.1 p r hr hst
    exact ⟨i, obj, h, hfull i obj h⟩
  · rintro ev hev rfl rfl hst
    obtain ⟨i, obj, h⟩ := hinv.2 ev hev hst
    exact ⟨i, obj, h, hfull i obj h⟩

end

/-! Part of a charge is refunded, and its order with it: found by the metadata of the charge, or by
its payment intent. -/

def Row.paid : Row :=
  { Row.sample with
    status := statusPaid
    stripePiID := some (bytes "pi_1")
    status_known := by decide }

def World.paidOrder : World := { World.oneOrder with pools := fun _ => [Row.paid] }

/-- A charge of the order, refunded in part. -/
def partlyRefunded : StripeObject :=
  .ofOrder (bytes "ch_1") (bytes "charge") (bytes "pi_1") (bytes "m1") (bytes "o-1")

/-- The same charge without our metadata. -/
def anonymousCharge : StripeObject := { partlyRefunded with metadata := [] }

def StripeObject.refundEvent (o : StripeObject) : StripeEvent :=
  o.event (bytes "evt_r") (bytes "charge.refunded")

/-- The delivery of a refund of the charge, one call after another. -/
def refundRun (o : StripeObject) : System :=
  System.run (Deployment.sample .binary) World.paidOrder [.deliver o.refundEvent o] (steps 0 6)

theorem refundRun_eq (o : StripeObject) :
    refundRun o = System.run (Deployment.sample .binary) World.paidOrder
      [.process (.decoded o.refundEvent o) [] []] (steps 0 6) := by
  refine System.run_congr ?_ _
  simp only [List.map_cons, List.map_nil, Job.prog_deliver]

theorem refunded_in_part :
    partlyRefunded.refunded = false ∧ anonymousCharge.refunded = false ∧
      ((refundRun partlyRefunded).world.pools 0).map Row.status = [statusRefunded] ∧
      (refundRun partlyRefunded).world.published.map (fun ev => (ev.orderID, ev.status)) =
        [(bytes "o-1", bytes "refunded")] ∧
      ((refundRun anonymousCharge).world.pools 0).map Row.status = [statusRefunded] ∧
      (refundRun anonymousCharge).world.published.map (fun ev => (ev.orderID, ev.status)) =
        [(bytes "o-1", bytes "refunded")] := by
  rw [refundRun_eq, refundRun_eq]
  refine ⟨rfl, rfl, ?_, ?_, ?_, ?_⟩
  · decide
  · decide
  · decide
  · decide

/-! The whole charge is refunded. -/

def fullyRefunded : StripeObject := { partlyRefunded with refunded := true }

theorem refunded_in_full_sample :
    ((refundRun fullyRefunded).world.pools 0).map Row.status = [statusRefunded] ∧
      ∃ i obj, RefundEvent (Deployment.sample .binary) [.deliver fullyRefunded.refundEvent fullyRefunded]
        (refundRun fullyRefunded) i obj (bytes "m1") (bytes "o-1") ∧ obj.refunded = true := by
  have hfull : ∀ i obj, RefundEvent (Deployment.sample .binary)
      [.deliver fullyRefunded.refundEvent fullyRefunded] (refundRun fullyRefunded) i obj
      (bytes "m1") (bytes "o-1") → obj.refunded = true := by
    rintro i obj ⟨s, payload, sig, e, m, o, hj, he, -, hobj, -⟩
    obtain rfl : i = 0 := by
      have hlt := (List.getElem?_eq_some_iff.mp hj).1
      simp only [List.length_cons, List.length_nil] at hlt
      omega
    cases hj
    cases (WebhookService.verify_live _ _).symm.trans he
    cases (WebhookService.decodeStripeObject_live _ _).symm.trans hobj
    rfl
  have hrows : ∀ p, ∀ r ∈ World.paidOrder.pools p, r.status ≠ statusRefunded := by
    intro p r hr
    rw [List.mem_singleton.mp hr]
    decide
  have hst : ((refundRun fullyRefunded).world.pools 0).map
      (fun r => (r.merchantID, r.orderID, r.status)) =
        [(bytes "m1", bytes "o-1", statusRefunded)] := by
    rw [refundRun_eq]
    decide
  obtain ⟨r, hr, hids⟩ : ∃ r ∈ (refundRun fullyRefunded).world.pools 0,
      (r.merchantID, r.orderID, r.status) = (bytes "m1", bytes "o-1", statusRefunded) := by
    rw [← List.mem_map (f := fun r : Row => (r.merchantID, r.orderID, r.status)), hst]
    exact List.mem_singleton.mpr rfl
  obtain ⟨hm, horder, hstatus⟩ : r.merchantID = bytes "m1" ∧ r.orderID = bytes "o-1" ∧
      r.status = statusRefunded := by
    simpa using hids
  refine ⟨by rw [refundRun_eq]; decide, ?_⟩
  unfold refundRun at hr hfull ⊢
  exact (refunded_in_full hrows (fun ev hev => by cases hev) hfull).1 0 r hr hm horder hstatus

end EasyPay
