import EasyPay.Webhook.Acknowledge

/-!
# Replayed success events

Any number of deliveries of success events for one order run at the same time, some of them of
the same event.

* `handleSucceeded_meets`: the calls of a success handler, and what it has done when it returns.
* `ReplayInv`: as long as no call fails, every handler goes through, and the order stays paid from
  the first write on.
* `replays_converge`: each event takes effect once, and the order is paid.
-/

namespace EasyPay

open GoStrings Tables Ports

/-! ## What a success handler does -/

/-- The calls of a success handler for the order `o` of `m`, on the shard of `m`. -/
def SuccessCall (m o : Str) (t : Calls) : Op → Prop
  | .getPaymentIntent _ => True
  | .getByMerchantID m' => m' = m
  | .updateStatus i m' o' st _ => m' = m ∧ o' = o ∧ st = .paid ∧
      ∃ M, (Op.getByMerchantID m).gave (.ok M) ∈ t ∧ i = M.shardIndex
  | .getByMerchantOrderID i m' o' => m' = m ∧ o' = o ∧
      ∃ M, (Op.getByMerchantID m).gave (.ok M) ∈ t ∧ i = M.shardIndex
  | .timeNow => True
  | .publishPaymentConfirmed _ => True
  | _ => False

/-- What it has done when it returns: a call has failed, or the order is written and announced,
once. -/
def SuccessDone (m o : Str) (t : Calls) (r : Res Unit) : Prop :=
  (∃ err, r = .error err ∧ ∃ x ∈ t, x.1.Failed x.2) ∨
    (r = .ok () ∧ ∃ i pi order now, (Op.updateStatus i m o .paid pi).gave (.ok ()) ∈ t ∧
      (Op.getByMerchantOrderID i m o).gave (.ok order) ∈ t ∧
      t.filterMap publishedStep = [confirmedEvent order .paid now])

section
variable {m o : Str}

theorem crossCheck_meets (piID : Str) :
    Prog.Meets (P := gateway) (SuccessCall m o)
      (fun t a => (∃ err, a = .error err ∧ ∃ x ∈ t, x.1.Failed x.2) ∨
        (a = .ok () ∧ t.filterMap publishedStep = [])) (WebhookService.crossCheck piID) [] := by
  unfold WebhookService.crossCheck
  split
  · exact .inr ⟨rfl, rfl⟩
  · refine Svc.meets_ask trivial fun a => ?_
    cases a with
    | error err =>
      refine .inl ⟨_, rfl, _, List.mem_singleton.mpr rfl, ?_⟩
      rintro pi ⟨⟩
    | ok pi =>
      simp only
      split
      · next hst =>
        refine .inl ⟨_, rfl, _, List.mem_singleton.mpr rfl, ?_⟩
        rintro pi' ⟨⟩
        exact hst
      · exact .inr ⟨rfl, rfl⟩

theorem resolveShard_meets {t : Calls} (ht : t.filterMap publishedStep = []) :
    Prog.Meets (P := gateway) (SuccessCall m o)
      (fun t' a => (∃ err, a = .error err ∧ ∃ x ∈ t', x.1.Failed x.2) ∨
        ∃ M, a = .ok M.shardIndex ∧ (Op.getByMerchantID m).gave (.ok M) ∈ t' ∧
          t'.filterMap publishedStep = []) (resolveShard m) t := by
  unfold resolveShard
  refine Svc.meets_ask rfl fun a => ?_
  cases a with
  | error err => exact .inl ⟨_, rfl, _, List.mem_concat_self, err, rfl⟩
  | ok M =>
    refine .inr ⟨M, rfl, List.mem_concat_self, ?_⟩
    rw [List.filterMap_append, ht]
    rfl

/-- Reading the order back and announcing it, once the status is written. -/
theorem announcePaid_meets {i : UInt8} {piID : Str} {t : Calls} {M : Merchant}
    (hM : (Op.getByMerchantID m).gave (.ok M) ∈ t) (hi : i = M.shardIndex)
    (hwritten : (Op.updateStatus i m o .paid piID).gave (.ok ()) ∈ t)
    (ht : t.filterMap publishedStep = []) :
    Prog.Meets (P := gateway) (SuccessCall m o) (SuccessDone m o) (announce i m o .paid) t := by
  unfold announce
  refine Svc.meets_ask ⟨rfl, rfl, M, hM, hi⟩ fun a => ?_
  cases a with
  | error err => exact .inl ⟨_, rfl, _, List.mem_concat_self, err, rfl⟩
  | ok order =>
    refine Svc.meets_ask trivial fun now => ⟨trivial, fun a => ?_⟩
    cases a with
    | error err => exact .inl ⟨_, rfl, _, List.mem_concat_self, err, rfl⟩
    | ok u =>
      refine .inr ⟨rfl, i, piID, order, now, by simp [hwritten], by simp, ?_⟩
      simp only [List.filterMap_append, ht]
      rfl

/-- **A success handler.** -/
theorem handleSucceeded_meets {s : WebhookService} {e : StripeEvent} {obj : StripeObject}
    (hobj : s.decodeStripeObject e = .ok obj) (hm : obj.merchantID = m) (ho : obj.orderID = o)
    (hm' : m ≠ []) (ho' : o ≠ []) :
    Prog.Meets (P := gateway) (SuccessCall m o) (SuccessDone m o) (s.handleSucceeded e) [] := by
  unfold WebhookService.handleSucceeded
  rw [hobj]
  simp only
  rw [hm, ho, if_neg (not_or.mpr ⟨ho', hm'⟩)]
  refine Prog.meets_bind (crossCheck_meets obj.piID) ?_
  rintro t a (⟨err, rfl, hfailed⟩ | ⟨rfl, ht⟩)
  · exact .inl ⟨err, rfl, hfailed⟩
  refine Prog.meets_bind (resolveShard_meets ht) ?_
  rintro t' a (⟨err, rfl, hfailed⟩ | ⟨M, rfl, hM, ht'⟩)
  · exact .inl ⟨err, rfl, hfailed⟩
  refine Svc.meets_ask ⟨rfl, rfl, rfl, M, hM, rfl⟩ fun a => ?_
  cases a with
  | error err => exact .inl ⟨_, rfl, _, List.mem_concat_self, err, rfl⟩
  | ok u =>
    refine announcePaid_meets (List.mem_append_left _ hM) rfl List.mem_concat_self ?_
    rw [List.filterMap_append, ht']
    rfl

end

/-! ## Runs in which nothing fails -/

/-- Job `i` is a delivery of the event. -/
def DeliveryOf (js : List Job) (i : Nat) (e : StripeEvent) : Prop :=
  ∃ s payload sig, js[i]? = some (.process s payload sig) ∧
    s.verifyWebhookSignature payload sig s.webhookSecret = .ok e

/-- The call does not fail, and if it is about a payment, Stripe says that it has succeeded. -/
def GoesWell (ev : CallEvent) : Prop :=
  ev.choice.fault = none ∧ ev.choice.refused = false ∧
    ∀ id, ev.op = .getPaymentIntent id → ev.choice.intent.status = bytes "succeeded"

/-- Deliveries of success events for the order of `row`, which is stored in the pool of its
merchant `M`.  No call fails, and every dedupe key is claimed within its life only. -/
structure Replays (D : Deployment) (row : Row) (M : Merchant) (p : Nat) (w : World)
    (js : List Job) (xs : List (Nat × Choice)) : Prop where
  stored : row ∈ w.pools p
  merchant : getMerchant D.collation none row.merchantID w.merchants = .ok M
  routed : D.router.forIndex M.shardIndex = .ok p
  named : row.merchantID ≠ []
  events : ∀ j ∈ js, ∃ s payload sig e obj, j = .process s payload sig ∧
    s.verifyWebhookSignature payload sig s.webhookSecret = .ok e ∧ e.kind = .succeeded ∧
    s.decodeStripeObject e = .ok obj ∧ obj.merchantID = row.merchantID ∧
    obj.orderID = row.orderID
  fresh : ∀ i e, DeliveryOf js i e → AList.lookup (dedupKey e) w.redis = none
  unexpired : ∀ i e, DeliveryOf js i e → ∃ t₀, ∀ ev ∈ (System.run D w js xs).hist,
    ev.op = .setNX (dedupKey e) (bytes "1") day → t₀ ≤ ev.choice.now ∧ ev.choice.now < t₀ + day
  well : ∀ ev ∈ (System.run D w js xs).hist, GoesWell ev

/-- What holds in every state of such a run. -/
structure ReplayInv (D : Deployment) (row : Row) (M : Merchant) (p : Nat) (S : System) : Prop where
  merchant : getMerchant D.collation none row.merchantID S.world.merchants = .ok M
  stored : ∃ r ∈ S.world.pools p, D.ofOrder row.merchantID row.orderID r = true
  shard : ∀ i M', (Op.getByMerchantID row.merchantID).gave (.ok M') ∈ callsOf i S.hist → M' = M
  passed : ∀ i, ∀ x ∈ callsOf i S.hist, ¬ x.1.Failed x.2
  paid : ∀ i x pi, (Op.updateStatus x row.merchantID row.orderID .paid pi).gave (.ok ()) ∈
    callsOf i S.hist → ∀ r ∈ S.world.pools p, D.ofOrder row.merchantID row.orderID r = true →
      r.status = statusPaid

section
variable {D : Deployment} {row : Row} {M : Merchant} {p : Nat} {w : World} {js : List Job}
  {xs : List (Nat × Choice)}

/-- A delivery claims its key or makes a call of its handler. -/
theorem Replays.call (h : Replays D row M p w js xs) {i : Nat} {j : Job} {t : Calls} {op : Op}
    (hj : js[i]? = some j) (hcall : JobCall D j t op) :
    (∃ e, DeliveryOf js i e ∧ op = .setNX (dedupKey e) (bytes "1") day) ∨
      ∃ t', (∀ x ∈ t', x ∈ t) ∧ SuccessCall row.merchantID row.orderID t' op := by
  obtain ⟨s, payload, sig, e, obj, rfl, he, hk, hobj, hm, ho⟩ :=
    h.events j (List.mem_of_getElem? hj)
  cases hcall with
  | claim he' => exact .inl ⟨_, ⟨s, payload, sig, hj, he'⟩, rfl⟩
  | handle he' hr =>
    cases he.symm.trans he'
    rw [WebhookService.handle_succeeded hk] at hr
    have hmeets := handleSucceeded_meets hobj hm ho h.named row.orderID_valid.1
    exact .inr ⟨_, fun x hx => List.mem_cons_of_mem _ hx, hmeets.call hr⟩

/-- The calls of such a run: a claim, or one of a handler that has been told its calls `t`. -/
def ReplayCall (row : Row) (t : Calls) (op : Op) : Prop :=
  (∃ key, op = .setNX key (bytes "1") day) ∨ SuccessCall row.merchantID row.orderID t op

section
variable {S : System} (hinv : ReplayInv D row M p S)
  (hrouted : D.router.forIndex M.shardIndex = .ok p) {i : Nat} {t : Calls} {c : Choice} {o : Op}
  (ht : ∀ x ∈ t, x ∈ callsOf i S.hist) (hcall : ReplayCall row t o) (hfault : c.fault = none)
include hinv hrouted ht hcall hfault

/-- **No call fails.** -/
theorem ReplayInv.not_failed (hrefused : c.refused = false)
    (hintent : ∀ id, o = .getPaymentIntent id → c.intent.status = bytes "succeeded") :
    ¬ o.Failed (exec D o c S.world).1 := by
  obtain ⟨r, hr, hof⟩ := hinv.stored
  have hvalid : ValidOrderID row.orderID := row.orderID_valid
  have hok : ∀ {α : Type} {x : Res α} {a : α}, x = .ok a → ¬ ∃ err, x = .error err := by
    rintro α x a rfl ⟨err, herr⟩
    cases herr
  rcases hcall with ⟨key, rfl⟩ | hcall
  · exact id
  cases o with
  | getPaymentIntent id =>
    have hans : (exec D (.getPaymentIntent id) c S.world).1 = .ok c.intent := by
      simp only [exec, throughBreaker, hfault, hrefused, Bool.false_eq_true, if_false]
    intro hbad
    exact hbad c.intent hans (hintent id rfl)
  | getByMerchantID m =>
    cases hcall
    refine hok (a := M) ?_
    simp only [exec, hfault]
    exact hinv.merchant
  | updateStatus x m oid st pi =>
    obtain ⟨rfl, rfl, rfl, M', hM', rfl⟩ := hcall
    rw [hinv.shard i M' (ht _ hM')]
    refine hok (a := ()) ?_
    simp only [exec, hfault, TransactionRepo.updateStatus]
    rw [D.updateOrder_of_row hrouted hvalid hr hof]
  | getByMerchantOrderID x m oid =>
    obtain ⟨rfl, rfl, M', hM', rfl⟩ := hcall
    rw [hinv.shard i M' (ht _ hM')]
    obtain ⟨tx, htx⟩ := D.exists_getByMerchantOrderID hrouted hvalid hr hof (c.pick 0)
    refine hok (a := tx) ?_
    simp only [exec, hfault]
    exact htx
  | publishPaymentConfirmed event =>
    refine hok (a := ()) ?_
    simp only [exec, hfault]
  | timeNow => exact id
  | _ => exact hcall.elim

/-- The tables change by the write of a handler only, which sets the order to paid. -/
theorem ReplayInv.pools_after :
    ((∀ x m oid st pi, o ≠ .updateStatus x m oid st pi) ∧
        (exec D o c S.world).2.pools = S.world.pools) ∨
      ∃ pi, (exec D o c S.world).2.pools = Function.update S.world.pools p
        (updateWhere (D.ofOrder row.merchantID row.orderID)
          (TransactionRepo.setStatus c.now .paid pi) (S.world.pools p)) := by
  by_cases ho : ∃ x m oid st pi, o = .updateStatus x m oid st pi
  · obtain ⟨x, m, oid, st, pi, rfl⟩ := ho
    right
    rcases hcall with ⟨key, hkey⟩ | ⟨rfl, rfl, rfl, M', hM', rfl⟩
    · cases hkey
    obtain ⟨r, hr, hof⟩ := hinv.stored
    rw [hinv.shard i M' (ht _ hM')]
    refine ⟨pi, ?_⟩
    simp only [exec, hfault, TransactionRepo.updateStatus]
    rw [D.updateOrder_of_row hrouted row.orderID_valid hr hof]
  · left
    have hne : ∀ x m oid st pi, o ≠ .updateStatus x m oid st pi :=
      fun x m oid st pi h => ho ⟨x, m, oid, st, pi, h⟩
    refine ⟨hne, ?_⟩
    refine exec_pools_same ?_ hne ?_ c S.world
    · rintro tx rfl
      rcases hcall with ⟨key, hkey⟩ | hcall
      · cases hkey
      · exact hcall.elim
    · rintro x m oid sess pi rfl
      rcases hcall with ⟨key, hkey⟩ | hcall
      · cases hkey
      · exact hcall.elim

/-- **One call.** -/
theorem ReplayInv.after (hrefused : c.refused = false)
    (hintent : ∀ id, o = .getPaymentIntent id → c.intent.status = bytes "succeeded")
    (k : o.Ans → Svc Outcome) : ReplayInv D row M p (S.after D i c o k) := by
  have hpassed := hinv.not_failed hrouted ht hcall hfault hrefused hintent
  have hpools := hinv.pools_after hrouted ht hcall hfault
  -- an update of the order leaves its ids as they are
  have hkeep : ∀ {pi : Str} {r : Row}, D.ofOrder row.merchantID row.orderID
      (if D.ofOrder row.merchantID row.orderID r then TransactionRepo.setStatus c.now .paid pi r
        else r) = D.ofOrder row.merchantID row.orderID r := by
    intro pi r
    split
    · rfl
    · rfl
  constructor
  · show getMerchant D.collation none row.merchantID (exec D o c S.world).2.merchants = .ok M
    rw [exec_merchants]
    · exact hinv.merchant
    · rintro m rfl
      rcases hcall with ⟨key, hkey⟩ | hcall
      · cases hkey
      · exact hcall
  · show ∃ r ∈ (exec D o c S.world).2.pools p, D.ofOrder row.merchantID row.orderID r = true
    obtain ⟨r, hr, hof⟩ := hinv.stored
    rcases hpools with ⟨-, he⟩ | ⟨pi, he⟩
    · rw [he]
      exact ⟨r, hr, hof⟩
    · rw [he, Function.update_self]
      exact ⟨_, mem_updateWhere.mpr ⟨r, hr, rfl⟩, hkeep.trans hof⟩
  · intro i' M' hmem
    rcases System.mem_callsOf_after.mp hmem with hold | ⟨-, hnew⟩
    · exact hinv.shard i' M' hold
    · obtain rfl : o = .getByMerchantID row.merchantID := congrArg Sigma.fst hnew
      have hans := Op.gave_inj.mp hnew
      simp only [exec, hfault] at hans
      exact Except.ok.inj (hans.symm.trans hinv.merchant)
  · intro i' x hx
    rcases System.mem_callsOf_after.mp hx with hold | ⟨-, rfl⟩
    · exact hinv.passed i' x hold
    · exact hpassed
  · intro i' x pi hmem r hr hof
    have hr : r ∈ (exec D o c S.world).2.pools p := hr
    rcases hpools with ⟨hne, he⟩ | ⟨pi', he⟩
    · rcases System.mem_callsOf_after.mp hmem with hold | ⟨-, hnew⟩
      · rw [he] at hr
        exact hinv.paid i' x pi hold r hr hof
      · exact absurd (congrArg Sigma.fst hnew) (hne _ _ _ _ _)
    · rw [he, Function.update_self] at hr
      obtain ⟨r', -, rfl⟩ := mem_updateWhere.mp hr
      rw [hkeep] at hof
      rw [if_pos hof]
      rfl

end

/-- **In every state of the run.** -/
theorem Replays.invariant (h : Replays D row M p w js xs) :
    ReplayInv D row M p (System.run D w js xs) := by
  refine System.run_rule D w js
    (Q := fun S => (∀ ev ∈ S.hist, GoesWell ev) → ReplayInv D row M p S) ?_ ?_ xs h.well
  · intro _
    constructor
    · exact h.merchant
    · exact ⟨row, h.stored, D.ofOrder_self row⟩
    · intro i M' hmem
      cases hmem
    · intro i x hx
      cases hx
    · intro i x pi hmem
      cases hmem
  · intro ys i c o k j hQ hj hcall hwell
    have hinv := hQ fun ev hev => hwell ev (System.mem_hist_after.mpr (.inl hev))
    obtain ⟨hfault, hrefused, hintent⟩ := hwell _ (System.mem_hist_after.mpr (.inr rfl))
    rcases h.call hj hcall with ⟨e, -, rfl⟩ | ⟨t, ht, hsuccess⟩
    · exact hinv.after h.routed (fun x hx => hx) (.inl ⟨_, rfl⟩) hfault hrefused hintent k
    · exact hinv.after h.routed ht (.inr hsuccess) hfault hrefused hintent k

/-! ## What the deliveries have done -/

/-- No claim of a key fails. -/
theorem Replays.claim_ok (h : Replays D row M p w js xs) {i : Nat} {key value : Str} {ttl : Time}
    {err : Err} :
    (Op.setNX key value ttl).gave (.error err) ∉ callsOf i (System.run D w js xs).hist := by
  intro hmem
  obtain ⟨ev, hev, -, -, w', hans⟩ := System.answered_of_mem D w js hmem
  have hfault := (h.well ev hev).1
  simp only [exec, hfault] at hans
  cases hans

/-- What a delivery has done: nothing yet; or it was refused the key, and has returned; or it has
the key, and if it has returned, it has written and announced the order. -/
theorem Replays.delivery_state (h : Replays D row M p w js xs) {i : Nat} {e : StripeEvent}
    (hd : DeliveryOf js i e) :
    (callsOf i (System.run D w js xs).hist = [] ∧
        ∀ r, (System.run D w js xs).procs[i]? ≠ some (.ret r)) ∨
      (callsOf i (System.run D w js xs).hist = [claimed e false] ∧
        (System.run D w js xs).procs[i]? =
          some (.ret (.processed (.error (.of .webhookDuplicate))))) ∨
      ∃ t, callsOf i (System.run D w js xs).hist = claimed e true :: t ∧
        ∀ r, (System.run D w js xs).procs[i]? = some (.ret (.processed r)) → r = .ok () ∧
          SuccessDone row.merchantID row.orderID t r := by
  obtain ⟨s, payload, sig, hj, he⟩ := hd
  obtain ⟨_, _, _, e', obj, hj', he', hk, hobj, hm, ho⟩ := h.events _ (List.mem_of_getElem? hj)
  cases hj'
  cases he.symm.trans he'
  rcases process_calls hj he with hidle | ⟨err, ht, -⟩ | hrefused | ⟨t, ht, hrun⟩
  · exact .inl hidle
  · have hmem : (Op.setNX (dedupKey e) (bytes "1") day).gave (.error err) ∈
        callsOf i (System.run D w js xs).hist := by
      rw [ht]
      exact List.mem_singleton.mpr rfl
    exact absurd hmem h.claim_ok
  · exact .inr (.inl hrefused)
  · refine .inr (.inr ⟨t, ht, fun r hr => ?_⟩)
    have hhandled := hrun r hr
    rw [WebhookService.handle_succeeded hk] at hhandled
    have hdone := (handleSucceeded_meets hobj hm ho h.named row.orderID_valid.1).ret hhandled
    refine ⟨?_, hdone⟩
    rcases hdone with ⟨err, -, x, hx, hfailed⟩ | ⟨rfl, -⟩
    · exact absurd hfailed (h.invariant.passed i x (ht ▸ List.mem_cons_of_mem _ hx))
    · rfl

/-- The key of an event is claimed by nobody, or by one delivery. -/
theorem Replays.holder (h : Replays D row M p w js xs) {i : Nat} {e : StripeEvent}
    (hd : DeliveryOf js i e) :
    (∀ i' b, claimed e b ∉ callsOf i' (System.run D w js xs).hist) ∨
      ∃ i₀, claimed e true ∈ callsOf i₀ (System.run D w js xs).hist ∧
        ∀ i', claimed e true ∈ callsOf i' (System.run D w js xs).hist → i' = i₀ := by
  obtain ⟨t₀, htime⟩ := h.unexpired i e hd
  have hinv : DedupInv e t₀ (System.run D w js xs) := dedup_invariant (h.fresh i e hd) htime
  rcases hinv with ⟨-, hno⟩ | ⟨i₀, -, -, -, hclaim, huniq⟩
  · exact .inl hno
  · exact .inr ⟨i₀, hclaim, huniq⟩

theorem claimed_congr {e e' : StripeEvent} (h : e'.id = e.id) (b : Bool) :
    claimed e' b = claimed e b := by
  unfold claimed dedupKey
  rw [h]

/-- Whoever has claimed a key is a delivery of an event with its id. -/
theorem deliveryOf_of_claimed {i : Nat} {e : StripeEvent} {b : Bool}
    (hmem : claimed e b ∈ callsOf i (System.run D w js xs).hist) :
    ∃ e₀, DeliveryOf js i e₀ ∧ e₀.id = e.id := by
  obtain ⟨j, t, k, hj, hruns, -⟩ := System.callsOf_runs D w js hmem
  obtain ⟨s, payload, sig, e₀, rfl, he₀, hkey, -, -⟩ := (Job.next hruns).setNX_inv
  exact ⟨e₀, ⟨s, payload, sig, hj, he₀⟩, (dedupKey_inj hkey).symm⟩

/-- The event says that the order is paid. -/
def Confirms (D : Deployment) (row : Row) (ev : PaymentConfirmedEvent) : Prop :=
  ev.status = TransactionStatus.paid.text ∧ D.collation.eq ev.merchantID row.merchantID = true ∧
    D.collation.eq ev.orderID row.orderID = true

/-- A delivery that had the key and has returned has published one event, and written the order. -/
theorem Replays.holder_done (h : Replays D row M p w js xs) {i : Nat} {e : StripeEvent} {r : Res Unit}
    (hd : DeliveryOf js i e) (hclaim : claimed e true ∈ callsOf i (System.run D w js xs).hist)
    (hret : (System.run D w js xs).procs[i]? = some (.ret (.processed r))) :
    (∃ x pi, (Op.updateStatus x row.merchantID row.orderID .paid pi).gave (.ok ()) ∈
        callsOf i (System.run D w js xs).hist) ∧
      ∃ ev, (callsOf i (System.run D w js xs).hist).filterMap publishedStep = [ev] ∧
        Confirms D row ev := by
  rcases h.delivery_state hd with ⟨-, hnot⟩ | ⟨hcalls, -⟩ | ⟨t, hcalls, hdone⟩
  · exact absurd hret (hnot _)
  · rw [hcalls, List.mem_singleton, Op.gave_inj] at hclaim
    cases hclaim
  obtain ⟨rfl, hsuccess⟩ := hdone r hret
  rcases hsuccess with ⟨err, hbad, -⟩ | ⟨-, x, pi, order, now, hwrite, hread, hpublished⟩
  · cases hbad
  have hsub : ∀ y ∈ t, y ∈ callsOf i (System.run D w js xs).hist := by
    intro y hy
    rw [hcalls]
    exact List.mem_cons_of_mem _ hy
  refine ⟨⟨x, pi, hsub _ hwrite⟩, confirmedEvent order .paid now, ?_, rfl, ?_⟩
  · rw [hcalls, List.filterMap_cons_none rfl, hpublished]
  · obtain ⟨rd, -, -, -, w', hans⟩ := System.answered_of_mem D w js (hsub _ hread)
    obtain ⟨q, r, t', -, -, -, hof, hscan, rfl⟩ := D.getByMerchantOrderID_ok hans.symm
    obtain ⟨hm, -, horder, -⟩ := TransactionRepo.scanTransaction_ok hscan
    have heq := Bool.and_eq_true_iff.mp hof
    rw [← hm, ← horder] at heq
    exact heq

/-- What the hypotheses say of a run they say of each of its states. -/
theorem Replays.of_append {ys zs : List (Nat × Choice)} (h : Replays D row M p w js (ys ++ zs)) :
    Replays D row M p w js ys := by
  have hsub : ∀ ev ∈ (System.run D w js ys).hist, ev ∈ (System.run D w js (ys ++ zs)).hist :=
    fun ev hev => System.mem_hist_run D w js hev
  constructor
  · exact h.stored
  · exact h.merchant
  · exact h.routed
  · exact h.named
  · exact h.events
  · exact h.fresh
  · intro i e hd
    obtain ⟨t₀, htime⟩ := h.unexpired i e hd
    exact ⟨t₀, fun ev hev => htime ev (hsub ev hev)⟩
  · exact fun ev hev => h.well ev (hsub ev hev)

/-- A delivery that has not claimed its key has not called yet, or was refused it. -/
theorem Replays.idle_or_refused (h : Replays D row M p w js xs) {i : Nat} {e : StripeEvent}
    (hd : DeliveryOf js i e) (hnot : claimed e true ∉ callsOf i (System.run D w js xs).hist) :
    (callsOf i (System.run D w js xs).hist = [] ∧
        ∀ r, (System.run D w js xs).procs[i]? ≠ some (.ret r)) ∨
      (callsOf i (System.run D w js xs).hist = [claimed e false] ∧
        (System.run D w js xs).procs[i]? =
          some (.ret (.processed (.error (.of .webhookDuplicate))))) := by
  rcases h.delivery_state hd with hidle | hrefused | ⟨t, hcalls, -⟩
  · exact .inl hidle
  · exact .inr hrefused
  · rw [hcalls] at hnot
    exact absurd List.mem_cons_self hnot

/-- **When all have returned**, one delivery of each event id has published. -/
theorem Replays.published_once (h : Replays D row M p w js xs)
    (hall : ∀ i e, DeliveryOf js i e →
      ∃ r, (System.run D w js xs).procs[i]? = some (.ret (.processed r)))
    {i : Nat} {e : StripeEvent} (hd : DeliveryOf js i e) :
    ∃ i₀ e₀ ev, DeliveryOf js i₀ e₀ ∧ e₀.id = e.id ∧
      (callsOf i₀ (System.run D w js xs).hist).filterMap publishedStep = [ev] ∧
      Confirms D row ev ∧
      ∀ i' e', DeliveryOf js i' e' → e'.id = e.id → i' ≠ i₀ →
        (callsOf i' (System.run D w js xs).hist).filterMap publishedStep = [] := by
  -- somebody has claimed the key, for this delivery has returned
  have hsome : ∃ b, claimed e b ∈ callsOf i (System.run D w js xs).hist := by
    obtain ⟨r, hr⟩ := hall i e hd
    rcases h.delivery_state hd with ⟨-, hnot⟩ | ⟨hcalls, -⟩ | ⟨t, hcalls, -⟩
    · exact absurd hr (hnot _)
    · exact ⟨false, hcalls ▸ List.mem_singleton.mpr rfl⟩
    · exact ⟨true, hcalls ▸ List.mem_cons_self⟩
  obtain ⟨b, hb⟩ := hsome
  rcases h.holder hd with hno | ⟨i₀, hclaim, huniq⟩
  · exact absurd hb (hno i b)
  obtain ⟨e₀, hd₀, hid₀⟩ := deliveryOf_of_claimed hclaim
  obtain ⟨r₀, hr₀⟩ := hall i₀ e₀ hd₀
  rw [← claimed_congr hid₀] at hclaim
  obtain ⟨-, ev, hpublished, hconfirms⟩ := h.holder_done hd₀ hclaim hr₀
  refine ⟨i₀, e₀, ev, hd₀, hid₀, hpublished, hconfirms, fun i' e' hd' hid' hne => ?_⟩
  have hnot : claimed e' true ∉ callsOf i' (System.run D w js xs).hist := by
    intro hclaim'
    rw [claimed_congr hid'] at hclaim'
    exact hne (huniq i' hclaim')
  rcases h.idle_or_refused hd' hnot with ⟨hcalls, -⟩ | ⟨hcalls, -⟩
  · rw [hcalls]
    rfl
  · rw [hcalls]
    rfl

/-- **Once a delivery has returned without an error**, the order is paid. -/
theorem Replays.paid_after {ys zs : List (Nat × Choice)} (h : Replays D row M p w js (ys ++ zs))
    {i : Nat} (hret : (System.run D w js ys).procs[i]? = some (.ret (.processed (.ok ())))) :
    ∀ r ∈ (System.run D w js (ys ++ zs)).world.pools p,
      D.ofOrder row.merchantID row.orderID r = true → r.status = statusPaid := by
  obtain ⟨j, hj⟩ := System.run_getElem? D w js hret
  obtain ⟨s, payload, sig, e, obj, rfl, he, -⟩ := h.events j (List.mem_of_getElem? hj)
  have hd : DeliveryOf js i e := ⟨s, payload, sig, hj, he⟩
  have hclaim : claimed e true ∈ callsOf i (System.run D w js ys).hist := by
    by_contra hnot
    rcases h.of_append.idle_or_refused hd hnot with ⟨-, hidle⟩ | ⟨-, hrefused⟩
    · exact hidle _ hret
    · cases hret.symm.trans hrefused
  obtain ⟨⟨x, pi, hwrite⟩, -⟩ := h.of_append.holder_done hd hclaim hret
  exact h.invariant.paid i x pi (System.mem_callsOf_run D w js hwrite)

/-- **Replays take effect once, and success events converge.**

* At most one delivery of an event id has claimed its key.
* Any other has done nothing, or was refused the key, and has returned `ErrWebhookDuplicate`
  without another call.
* When all have returned, one delivery of each event id has published one event, which says that
  the order is paid, and the others have published nothing.
* What is published is what the deliveries have published.
* Once a delivery has returned without an error, the order is paid in every later state. -/
theorem replays_converge (h : Replays D row M p w js xs) :
    (∀ i i' e e', DeliveryOf js i e → DeliveryOf js i' e' → e'.id = e.id →
      claimed e true ∈ callsOf i (System.run D w js xs).hist →
      claimed e' true ∈ callsOf i' (System.run D w js xs).hist → i' = i) ∧
    (∀ i e, DeliveryOf js i e → claimed e true ∉ callsOf i (System.run D w js xs).hist →
      (callsOf i (System.run D w js xs).hist = [] ∧
        ∀ r, (System.run D w js xs).procs[i]? ≠ some (.ret r)) ∨
      (callsOf i (System.run D w js xs).hist = [claimed e false] ∧
        (System.run D w js xs).procs[i]? =
          some (.ret (.processed (.error (.of .webhookDuplicate)))))) ∧
    ((∀ i e, DeliveryOf js i e →
        ∃ r, (System.run D w js xs).procs[i]? = some (.ret (.processed r))) →
      ∀ i e, DeliveryOf js i e → ∃ i₀ e₀ ev, DeliveryOf js i₀ e₀ ∧ e₀.id = e.id ∧
        (callsOf i₀ (System.run D w js xs).hist).filterMap publishedStep = [ev] ∧
        Confirms D row ev ∧
        ∀ i' e', DeliveryOf js i' e' → e'.id = e.id → i' ≠ i₀ →
          (callsOf i' (System.run D w js xs).hist).filterMap publishedStep = []) ∧
    (System.run D w js xs).world.published = w.published ++
      ((System.run D w js xs).hist.map Event.step).filterMap publishedStep ∧
    ∀ (ys zs : List (Nat × Choice)) (i : Nat), xs = ys ++ zs →
      (System.run D w js ys).procs[i]? = some (.ret (.processed (.ok ()))) →
      (∃ r ∈ (System.run D w js xs).world.pools p,
        D.ofOrder row.merchantID row.orderID r = true) ∧
      ∀ r ∈ (System.run D w js xs).world.pools p,
        D.ofOrder row.merchantID row.orderID r = true → r.status = statusPaid := by
  refine ⟨?_, ?_, ?_, published_history D w js xs, ?_⟩
  · intro i i' e e' hd _ hid hclaim hclaim'
    rw [claimed_congr hid] at hclaim'
    rcases h.holder hd with hno | ⟨i₀, -, huniq⟩
    · exact absurd hclaim (hno i true)
    · rw [huniq i hclaim, huniq i' hclaim']
  · intro i e hd hnot
    exact h.idle_or_refused hd hnot
  · intro hall i e hd
    exact h.published_once hall hd
  · rintro ys zs i rfl hret
    exact ⟨h.invariant.stored, h.paid_after hret⟩

end

/-! ## Three deliveries of two events -/

/-- A second success event for the order. -/
def succeededAgain : StripeEvent :=
  intentObject.event (bytes "evt_2") (bytes "payment_intent.succeeded")

def replayedDeliveries : List Job :=
  [.deliver succeededEvent intentObject, .deliver succeededEvent intentObject,
   .deliver succeededAgain intentObject]

/-- Both events are processed at the same time, and the replay arrives in between. -/
def replayedSchedule : List (Nat × Choice) :=
  [0, 2, 0, 2, 1, 0, 0, 2, 2, 0, 2, 0, 2, 0, 2].map
    fun i => (i, { intent := ⟨bytes "pi_1", bytes "succeeded"⟩ })

def replayedRun : System :=
  System.run (Deployment.sample .binary) World.oneOrder replayedDeliveries replayedSchedule

theorem replayedRun_eq : replayedRun = System.run (Deployment.sample .binary) World.oneOrder
    [.process (.decoded succeededEvent intentObject) [] [],
     .process (.decoded succeededEvent intentObject) [] [],
     .process (.decoded succeededAgain intentObject) [] []] replayedSchedule := by
  refine System.run_congr ?_ _
  simp only [replayedDeliveries, List.map_cons, List.map_nil, Job.prog_deliver]

theorem deliveryOf_replayed {i : Nat} {e : StripeEvent} (h : DeliveryOf replayedDeliveries i e) :
    i = 0 ∨ i = 1 ∨ i = 2 := by
  obtain ⟨s, payload, sig, hj, -⟩ := h
  have hlt : i < replayedDeliveries.length := (List.getElem?_eq_some_iff.mp hj).1
  simp only [replayedDeliveries, List.length_cons, List.length_nil] at hlt
  omega

theorem replays_replayed : Replays (Deployment.sample .binary) Row.sample (.named (bytes "m1")) 0
    World.oneOrder replayedDeliveries replayedSchedule := by
  have hchoice : ∀ ev ∈ replayedRun.hist,
      ev.choice = { intent := ⟨bytes "pi_1", bytes "succeeded"⟩ } := by
    intro ev hev
    obtain ⟨i, -, hi⟩ := List.mem_map.mp (System.mem_schedule _ _ _ hev)
    exact (congrArg Prod.snd hi).symm
  constructor
  · exact List.mem_singleton.mpr rfl
  · rfl
  · rfl
  · decide
  · intro j hj
    simp only [replayedDeliveries, List.mem_cons, List.not_mem_nil, or_false] at hj
    rcases hj with rfl | rfl | rfl
    all_goals
      exact ⟨_, _, _, _, intentObject, rfl, WebhookService.verify_live _ _, by decide,
        WebhookService.decodeStripeObject_live _ _, rfl, rfl⟩
  · intro i e _
    rfl
  · intro i e _
    refine ⟨0, fun ev hev _ => ?_⟩
    rw [hchoice ev hev]
    decide
  · intro ev hev
    unfold GoesWell
    rw [hchoice ev hev]
    exact ⟨rfl, rfl, fun _ _ => rfl⟩

theorem replays_converge_sample :
    replayedRun.world.published.map PaymentConfirmedEvent.orderID = [bytes "o-1", bytes "o-1"] ∧
      (replayedRun.world.pools 0).map Row.status = [statusPaid] ∧
      replayedRun.procs[1]? = some (.ret (.processed (.error (.of .webhookDuplicate)))) ∧
      ∃ i₀ e₀ ev, DeliveryOf replayedDeliveries i₀ e₀ ∧ e₀.id = bytes "evt_1" ∧
        (callsOf i₀ replayedRun.hist).filterMap publishedStep = [ev] ∧
        Confirms (Deployment.sample .binary) Row.sample ev ∧
        ∀ i' e', DeliveryOf replayedDeliveries i' e' → e'.id = bytes "evt_1" → i' ≠ i₀ →
          (callsOf i' replayedRun.hist).filterMap publishedStep = [] := by
  have hret : ∀ i e, DeliveryOf replayedDeliveries i e →
      ∃ r, replayedRun.procs[i]? = some (.ret (.processed r)) := by
    intro i e hd
    rw [replayedRun_eq]
    rcases deliveryOf_replayed hd with rfl | rfl | rfl
    · exact ⟨_, rfl⟩
    · exact ⟨_, rfl⟩
    · exact ⟨_, rfl⟩
  have hd : DeliveryOf replayedDeliveries 1 succeededEvent :=
    ⟨_, _, _, rfl, WebhookService.verify_live _ _⟩
  refine ⟨?_, ?_, ?_, (replays_converge replays_replayed).2.2.1 hret 1 succeededEvent hd⟩
  · rw [replayedRun_eq]
    decide +kernel
  · rw [replayedRun_eq]
    decide +kernel
  · rw [replayedRun_eq]
    rfl

end EasyPay
