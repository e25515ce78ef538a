import EasyPay.System

/-!
# Paid on Stripe's word

A success event is cross-checked with Stripe before the order is marked paid, "never trust
the webhook body alone".  The check is about the payment intent that the object of the event
names; an object that names none is not checked.

* `handled_call`: what a delivery calls, apart from claiming the event, its handler calls.
* `paid_on_word_iff`: a success event marks orders as paid on Stripe's word only, exactly
  when its object names a payment intent or no order.
-/

namespace EasyPay

open GoStrings Tables Ports

/-! ## The calls of a delivery -/

section
variable {D : Deployment} {w : World} {js : List Job} {xs : List (Nat × Choice)} {i : Nat}
  {s : WebhookService} {payload sig : Str} {e : StripeEvent}

/-- A call of a delivery is its claim, or one of the handler of the event after the handler's
calls so far. -/
theorem handled_call (hj : js[i]? = some (.process s payload sig))
    (he : s.verifyWebhookSignature payload sig s.webhookSecret = .ok e) {op : Op} {a : op.Ans}
    (hmem : op.gave a ∈ callsOf i (System.run D w js xs).hist) :
    op = .setNX (dedupKey e) (bytes "1") day ∨
      ∃ t k, Prog.Runs (s.handle e) t (.call op k) ∧
        ∀ x ∈ t, x ∈ callsOf i (System.run D w js xs).hist := by
  obtain ⟨ev, hev, rfl, hstep⟩ := mem_callsOf.mp hmem
  obtain ⟨j, t, hj', hcall, ht⟩ := System.job_call D w js hev
  cases hj.symm.trans hj'
  have hop : ev.op = op := congrArg Sigma.fst hstep
  rw [hop] at hcall
  cases hcall with
  | claim he' =>
    cases he.symm.trans he'
    exact .inl rfl
  | handle he' hr =>
    cases he.symm.trans he'
    exact .inr ⟨_, _, hr, fun x hx => ht x (List.mem_cons_of_mem _ hx)⟩

/-- A status that was written was written for a valid order id. -/
theorem valid_of_updated {x : UInt8} {m o pi : Str} {st : TransactionStatus}
    (hmem : (Op.updateStatus x m o st pi).gave (.ok ()) ∈
      callsOf i (System.run D w js xs).hist) : ValidOrderID o := by
  obtain ⟨ev, -, -, -, w', hans⟩ := System.answered_of_mem D w js hmem
  rcases D.updateOrder_cases (bytes "update status: ") ev.choice.fault x m o
    (TransactionRepo.setStatus ev.choice.now st pi) w'.pools with ⟨p, -, hv, -⟩ | ⟨err, he⟩
  · exact hv
  · have hans : (D.updateOrder (bytes "update status: ") ev.choice.fault x m o
        (TransactionRepo.setStatus ev.choice.now st pi) w'.pools).1 = .ok () := hans.symm
    rw [he] at hans
    cases hans

end

/-! ## Stripe's word -/

/-- An order was set to paid, or announced as paid. -/
def SaysPaid (calls : Calls) : Prop :=
  (∃ x m o pi, (Op.updateStatus x m o .paid pi).gave (.ok ()) ∈ calls) ∨
    ∃ ev, ev.status = TransactionStatus.paid.text ∧
      (Op.publishPaymentConfirmed ev).gave (.ok ()) ∈ calls

/-- The object names this payment intent. -/
def StripeObject.NamesIntent (o : StripeObject) (id : Str) : Prop :=
  id ≠ [] ∧ (id = o.paymentIntent ∨ (o.object = bytes "payment_intent" ∧ id = o.id))

/-- Stripe was asked about a payment intent of the event, and said it has succeeded. -/
def StripeConfirmed (s : WebhookService) (e : StripeEvent) (calls : Calls) : Prop :=
  ∃ o id pi, s.decodeStripeObject e = .ok o ∧ o.NamesIntent id ∧
    (Op.getPaymentIntent id).gave (.ok pi) ∈ calls ∧ pi.status = bytes "succeeded"

theorem StripeObject.namesIntent_piID {o : StripeObject} (h : o.piID ≠ []) :
    o.NamesIntent o.piID := by
  refine ⟨h, ?_⟩
  unfold StripeObject.piID
  split
  · next hobj => exact .inr ⟨hobj.2, rfl⟩
  · exact .inl rfl

section
variable {s : WebhookService} {payload sig : Str} {e : StripeEvent}

/-- If a delivery says paid, its object names an order, and Stripe has confirmed the payment
intent if it names one. -/
theorem saysPaid_cases {D : Deployment} {w : World} {js : List Job} {xs : List (Nat × Choice)}
    {i : Nat} (hj : js[i]? = some (.process s payload sig))
    (he : s.verifyWebhookSignature payload sig s.webhookSecret = .ok e) (hk : e.kind = .succeeded)
    (hpaid : SaysPaid (callsOf i (System.run D w js xs).hist)) :
    ∃ o, s.decodeStripeObject e = .ok o ∧ ValidOrderID o.orderID ∧ o.merchantID ≠ [] ∧
      (o.piID ≠ [] → StripeConfirmed s e (callsOf i (System.run D w js xs).hist)) := by
  have hconfirm : ∀ {o : StripeObject} {t₁ t : Calls}, s.decodeStripeObject e = .ok o →
      WebhookService.CrossChecked o.piID t₁ → (∀ x ∈ t₁, x ∈ t) → o.piID ≠ [] →
      StripeConfirmed s e t := by
    intro o t₁ t ho hcc ht hpi
    rcases hcc with ⟨hnil, -⟩ | ⟨-, pi, rfl, hst⟩
    · exact absurd hnil hpi
    · exact ⟨o, o.piID, pi, ho, o.namesIntent_piID hpi, ht _ (List.mem_singleton.mpr rfl), hst⟩
  rcases hpaid with ⟨x, m, oid, pi, hmem⟩ | ⟨ev, -, hmem⟩
  · rcases handled_call hj he hmem with hop | ⟨t, k, hr, ht⟩
    · cases hop
    rw [WebhookService.handle_succeeded hk] at hr
    obtain ⟨o, ho, -, hm, ⟨-, -, hop⟩ | ⟨t₁, t₂, rfl, hcc, h⟩⟩ := s.handleSucceeded_next hr
    · cases hop
    rcases h with hop | ⟨y, hop⟩ | ⟨y, -, hop | hop | ⟨order, now, hop, -⟩⟩
    · cases hop
    · cases hop
      exact ⟨o, ho, valid_of_updated hmem, hm,
        hconfirm ho hcc fun x hx => ht x (List.mem_append_left _ hx)⟩
    · cases hop
    · cases hop
    · cases hop
  · rcases handled_call hj he hmem with hop | ⟨t, k, hr, ht⟩
    · cases hop
    rw [WebhookService.handle_succeeded hk] at hr
    obtain ⟨o, ho, -, hm, ⟨-, -, hop⟩ | ⟨t₁, t₂, rfl, hcc, h⟩⟩ := s.handleSucceeded_next hr
    · cases hop
    rcases h with hop | ⟨y, hop⟩ | ⟨y, hupd, -⟩
    · cases hop
    · cases hop
    · exact ⟨o, ho, valid_of_updated (ht _ (List.mem_append_right _ hupd)), hm,
        hconfirm ho hcc fun x hx => ht x (List.mem_append_left _ hx)⟩

/-! ## The unchecked event

An object that names an order and no payment intent, delivered where the tables compare the
names of orders so coarsely that its only row is meant. -/

/-- The comparison that tells no two strings apart. -/
def Collation.coarse : Collation := ⟨fun _ _ => true, fun _ => rfl⟩

/-- With no payment intent to ask about, the handler goes straight to the merchant and the
update. -/
theorem handleSucceeded_unchecked {o : StripeObject} (ho : s.decodeStripeObject e = .ok o)
    (hord : o.orderID ≠ []) (hm : o.merchantID ≠ []) (hpi : o.piID = []) (M : Merchant) :
    ∃ q, Prog.Runs (s.handleSucceeded e)
      [(Op.getByMerchantID o.merchantID).gave (.ok M),
       (Op.updateStatus M.shardIndex o.merchantID o.orderID .paid o.piID).gave (.ok ())] q := by
  unfold WebhookService.handleSucceeded WebhookService.crossCheck
  rw [ho]
  simp only
  rw [if_neg (not_or.mpr ⟨hord, hm⟩), if_pos hpi]
  exact ⟨_, .cons _ _ _ (.cons _ _ _ (.nil _))⟩

/-- A delivery of such an event, if it is all that happens, has the order set to paid. -/
theorem unchecked_run (he : s.verifyWebhookSignature payload sig s.webhookSecret = .ok e)
    (hk : e.kind = .succeeded) {o : StripeObject} (ho : s.decodeStripeObject e = .ok o)
    (hv : ValidOrderID o.orderID) (hm : o.merchantID ≠ []) (hpi : o.piID = []) :
    callsOf 0 (System.run (Deployment.sample .coarse) World.oneOrder [.process s payload sig]
        (steps 0 3)).hist =
      [(Op.setNX (dedupKey e) (bytes "1") day).gave (.ok true),
       (Op.getByMerchantID o.merchantID).gave (.ok (.named (bytes "m1"))),
       (Op.updateStatus 0 o.merchantID o.orderID .paid o.piID).gave (.ok ())] := by
  obtain ⟨q, hr⟩ := handleSucceeded_unchecked ho hv.1 hm hpi (.named (bytes "m1"))
  rw [← WebhookService.handle_succeeded hk] at hr
  have hvalid : validateOrderID o.orderID = .ok () := (validateOrderID_ok_iff _).mpr hv
  have hans : Sys.Answers (exec (Deployment.sample .coarse)) World.oneOrder [{}, {}, {}]
      [(Op.setNX (dedupKey e) (bytes "1") day).gave (.ok true),
       (Op.getByMerchantID o.merchantID).gave (.ok (.named (bytes "m1"))),
       (Op.updateStatus 0 o.merchantID o.orderID .paid o.piID).gave (.ok ())] := by
    refine ⟨rfl, rfl, ?_, trivial⟩
    show (TransactionRepo.updateOrder _ _ _ _ _ _ _ _).1 = _
    unfold TransactionRepo.updateOrder
    rw [hvalid]
    rfl
  exact Sys.run_alone (exec (Deployment.sample .coarse))
    ((s.process_runs he hr).bind fun r => Prog.ret (Outcome.processed r))
    (s := Sys.start World.oneOrder [Job.prog _ (.process s payload sig)]) rfl hans

/-- **Paid on Stripe's word only**: a success event whose object names an order must name a
payment intent too. -/
theorem paid_on_word_iff (he : s.verifyWebhookSignature payload sig s.webhookSecret = .ok e)
    (hk : e.kind = .succeeded) :
    (∀ (D : Deployment) (w : World) (js : List Job) (xs : List (Nat × Choice)) (i : Nat),
      js[i]? = some (.process s payload sig) →
      SaysPaid (callsOf i (System.run D w js xs).hist) →
      StripeConfirmed s e (callsOf i (System.run D w js xs).hist)) ↔
    ∀ o, s.decodeStripeObject e = .ok o → ValidOrderID o.orderID → o.merchantID ≠ [] →
      o.piID ≠ [] := by
  constructor
  · intro h o ho hv hm hpi
    have hrun := unchecked_run he hk ho hv hm hpi
    have hconf := h (Deployment.sample .coarse) World.oneOrder [.process s payload sig]
      (steps 0 3) 0 rfl
    rw [hrun] at hconf
    obtain ⟨_, id, pi, -, -, hmem, -⟩ := hconf (.inl ⟨0, o.merchantID, o.orderID, o.piID, by simp⟩)
    simp [Op.gave] at hmem
  · intro h D w js xs i hj hpaid
    obtain ⟨o, ho, hv, hm, hconf⟩ := saysPaid_cases hj he hk hpaid
    exact hconf (h o ho hv hm)

end

theorem not_stripeConfirmed {s : WebhookService} {e : StripeEvent} {calls : Calls}
    (h : ∀ id, Op.getPaymentIntent id ∉ calls.map Sigma.fst) : ¬ StripeConfirmed s e calls := by
  rintro ⟨o, id, pi, -, -, hmem, -⟩
  exact h id (List.mem_map_of_mem hmem)

/-- A completed session without a payment intent. -/
def completedObject : StripeObject :=
  .ofOrder (bytes "cs_1") (bytes "checkout.session") [] (bytes "m1") (bytes "o-1")

def completedEvent : StripeEvent :=
  completedObject.event (bytes "evt_1") (bytes "checkout.session.completed")

def completedRun : System :=
  System.run (Deployment.sample .binary) World.oneOrder
    [.deliver completedEvent completedObject] (steps 0 6)

theorem completedRun_eq :
    completedRun = System.run (Deployment.sample .binary) World.oneOrder
      [.process (.decoded completedEvent completedObject) [] []] (steps 0 6) := by
  refine System.run_congr ?_ _
  simp only [List.map_cons, List.map_nil, Job.prog_deliver]

/-- The order is paid and announced as paid, and Stripe was never asked. -/
theorem paid_on_body_alone :
    completedEvent.kind = .succeeded ∧
      (WebhookService.live completedEvent completedObject).verifyWebhookSignature
        completedEvent.json completedEvent.signature
        (WebhookService.live completedEvent completedObject).webhookSecret = .ok completedEvent ∧
      completedRun.procs[0]? = some (.ret (.processed (.ok ()))) ∧
      (completedRun.world.pools 0).map Row.status = [encodeStatus .paid] ∧
      completedRun.world.published.map PaymentConfirmedEvent.status = [bytes "paid"] ∧
      SaysPaid (callsOf 0 completedRun.hist) ∧
      ¬ StripeConfirmed (.live completedEvent completedObject) completedEvent
        (callsOf 0 completedRun.hist) := by
  refine ⟨by decide, WebhookService.verify_live _ _, ?_⟩
  rw [completedRun_eq]
  refine ⟨rfl, by decide, by decide, .inl ?_, not_stripeConfirmed ?_⟩
  · exact ⟨0, bytes "m1", bytes "o-1", [], List.mem_of_getElem? (i := 2) rfl⟩
  · intro id hmem
    have hcalls : Op.getPaymentIntent id ∈ [.setNX (bytes "webhook:evt_1") (bytes "1") day,
      .getByMerchantID (bytes "m1"), .updateStatus 0 (bytes "m1") (bytes "o-1") .paid [],
      .getByMerchantOrderID 0 (bytes "m1") (bytes "o-1"), .timeNow,
      .publishPaymentConfirmed
        ⟨bytes "o-1", bytes "m1", bytes "paid", [], 100, bytes "USD", (unix 1).toInt⟩] := hmem
    simp at hcalls

/-- An object that is a payment intent is checked. -/
theorem paid_on_word_intent :
    succeededEvent.kind = .succeeded ∧
    ∀ (D : Deployment) (w : World) (js : List Job) (xs : List (Nat × Choice)) (i : Nat),
      js[i]? = some (.deliver succeededEvent intentObject) →
      SaysPaid (callsOf i (System.run D w js xs).hist) →
      StripeConfirmed (.live succeededEvent intentObject) succeededEvent
        (callsOf i (System.run D w js xs).hist) := by
  refine ⟨by decide, (paid_on_word_iff (WebhookService.verify_live succeededEvent intentObject)
    (by decide)).mpr ?_⟩
  intro o ho _ _
  cases (WebhookService.decodeStripeObject_live succeededEvent intentObject).symm.trans ho
  decide

end EasyPay
