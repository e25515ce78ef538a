import EasyPay.Api.Mediation

/-!
# What a client error means

A reply of 4xx says that the request was at fault.  Then nothing has come of it
(`client_error_harmless`): no row, no session at Stripe, no merchant and no announcement, and Stripe has
not been asked for a refund.  An error of the service itself may come after a write and is answered
with 5xx.  The webhook route is apart: it answers 400 for failures after a write, too, for Stripe to
deliver the event again.
-/

namespace EasyPay

open GoStrings Ports Tables

/-- What lasts of the world. -/
def World.books (w : World) :
    Pools × List Merchant × List StripeSession × List PaymentConfirmedEvent ×
      List OnchainTransaction :=
  (w.pools, w.merchants, w.sessions, w.published, w.onchain)

def Op.asksRefund : Op → Bool
  | .createRefund _ _ => true
  | _ => false

/-- The answer to the call shows that nothing has come of it. -/
def Harmless (D : Deployment) (x : Prog.Step gateway) : Prop :=
  x.1.asksRefund = false ∧
    ∀ c w, (exec D x.1 c w).1 = x.2 → (exec D x.1 c w).2.books = w.books

/-- The call may be answered so. -/
def Real (D : Deployment) (x : Prog.Step gateway) : Prop := ∃ c w, (exec D x.1 c w).1 = x.2

/-- Results with the property `bad` come of harmless calls. -/
def Blames {α : Type} (D : Deployment) (bad : α → Prop) (t : Calls) (a : α) : Prop :=
  (∀ x ∈ t, Real D x) → bad a → ∀ x ∈ t, Harmless D x

section
variable {D : Deployment}

theorem blames_of_harmless {α : Type} {bad : α → Prop} {t : Calls} {a : α}
    (h : ∀ x ∈ t, Harmless D x) : Blames D bad t a := fun _ _ => h

theorem blames_of_not {α : Type} {bad : α → Prop} {t : Calls} {a : α} (h : ¬ bad a) :
    Blames D bad t a := fun _ hbad => absurd hbad h

theorem harmless_concat {t : Calls} {x : Prog.Step gateway} (ht : ∀ y ∈ t, Harmless D y)
    (hx : Harmless D x) : ∀ y ∈ t ++ [x], Harmless D y := by
  intro y hy
  rcases List.mem_append.mp hy with hy | hy
  · exact ht y hy
  · rw [List.mem_singleton.mp hy]
    exact hx

/-! ## Harmless calls -/

theorem harmless_insert (tx : Transaction) (e : Err) :
    Harmless D ((Op.insert tx).gave (.error e)) := by
  refine ⟨rfl, fun c w hans => ?_⟩
  have hans : (D.insert c.now c.fault tx w.pools).1 = .error e := hans
  have hpools : (D.insert c.now c.fault tx w.pools).2 = w.pools := by
    rcases D.insert_cases c.now c.fault tx w.pools with ⟨r, p, -, -, -, -, h⟩ |
      ⟨r, p, -, -, -, -, h⟩ | ⟨e', -, h⟩
    · rw [h] at hans
      cases hans
    · rw [h]
    · rw [h]
  show World.books { w with pools := _ } = _
  rw [hpools]

theorem harmless_insertMerchant (m : Merchant) (e : Err) :
    Harmless D ((Op.insertMerchant m).gave (.error e)) := by
  refine ⟨rfl, fun c w hans => ?_⟩
  have hans : (insertMerchant D.collation c.fault m w.merchants).1 = .error e := hans
  have hmerchants : (insertMerchant D.collation c.fault m w.merchants).2 = w.merchants := by
    unfold insertMerchant at hans ⊢
    split
    · rfl
    split
    · rfl
    · next hfault hnew =>
      simp only [hfault, if_neg hnew] at hans
      cases hans
  show World.books { w with merchants := _ } = _
  rw [hmerchants]

/-- Errors of Stripe and of the repository are not those of the services. -/
def Foreign (e : Err) : Prop :=
  e.is .invalidRequest = false ∧ e.is .transactionConflict = false ∧ e.is .orderNotFound = false

theorem Foreign.wrap {e : Err} (h : Foreign e) (pre : Str) : Foreign (e.wrap pre) := h

theorem foreign_of_chain {e : Err} {s : Sentinel} (h : e.chain = [s]) (h₁ : s ≠ .invalidRequest)
    (h₂ : s ≠ .transactionConflict) (h₃ : s ≠ .orderNotFound) : Foreign e := by
  unfold Foreign Err.is
  rw [h]
  simp [h₁.symm, h₂.symm, h₃.symm]

theorem foreign_createCheckoutSession {req : CreateCheckoutRequest} {key : Str} {e : Err}
    (h : Real D ((Op.createCheckoutSession req key).gave (.error e))) : Foreign e := by
  obtain ⟨c, w, hans⟩ := h
  have hans : throughBreaker c (D.stripe.create req key w.sessions).1 = .error e := hans
  unfold throughBreaker at hans
  split at hans
  · cases hans
    exact foreign_of_chain rfl (by decide) (by decide) (by decide)
  split at hans
  · cases hans
    exact ⟨rfl, rfl, rfl⟩
  · cases hans

theorem foreign_updateCheckout {i : UInt8} {m o sess pi : Str} {e : Err}
    (h : Real D ((Op.updateCheckout i m o sess pi).gave (.error e))) : Foreign e := by
  obtain ⟨c, w, hans⟩ := h
  have hans : (D.updateCheckout c.now c.fault i m o sess pi w.pools).1 = .error e := hans
  unfold TransactionRepo.updateCheckout TransactionRepo.updateOrder at hans
  split at hans
  · next e' he =>
    cases hans
    exact foreign_of_chain (validateOrderID_error he) (by decide) (by decide) (by decide)
  split at hans
  · next e' he =>
    cases hans
    exact Foreign.wrap (foreign_of_chain (TransactionRepo.forIndex_error he) (by decide) (by decide)
      (by decide)) _
  split at hans
  · cases hans
    exact ⟨rfl, rfl, rfl⟩
  split at hans
  · cases hans
  · cases hans
    exact foreign_of_chain rfl (by decide) (by decide) (by decide)

/-! ## The services -/

/-- The result of a service with the error `s`. -/
def Fails {α : Type} (s : Sentinel) (r : Res α) : Prop := ∃ e, r = .error e ∧ e.is s = true

/-- What `PaymentHandler` answers with 400 or 409. -/
def Refused (r : Res CreatePaymentResult) : Prop :=
  Fails .invalidRequest r ∨ Fails .transactionConflict r

theorem not_refused_ok (res : CreatePaymentResult) : ¬ Refused (.ok res) := by
  rintro (⟨e, h, -⟩ | ⟨e, h, -⟩) <;> cases h

theorem Foreign.not_refused {e : Err} (h : Foreign e) : ¬ Refused (.error e) := by
  rintro (⟨e', he, his⟩ | ⟨e', he, his⟩)
  · cases he
    rw [h.1] at his
    cases his
  · cases he
    rw [h.2.1] at his
    cases his

theorem harmless_timeNow (now : Time) : Harmless D (Op.timeNow.gave now) := ⟨rfl, fun _ _ _ => rfl⟩

/-- After the insert, `Create` does not blame the request. -/
theorem startFlow_blames (s : PaymentService) (M : Merchant) (inp : CreatePaymentInput) (t : Calls) :
    Prog.Meets (P := gateway) (fun _ _ => True) (Blames D Refused) (s.startFlow D M inp) t := by
  unfold PaymentService.startFlow
  simp only
  split
  · exact blames_of_not (not_refused_ok _)
  split
  · exact Prog.meets_bind (Prog.meets_true _ _) fun t' url _ => blames_of_not (not_refused_ok _)
  refine Svc.meets_ask trivial fun a => ?_
  cases a with
  | error e =>
    intro hreal hbad
    have hforeign : Foreign e := foreign_createCheckoutSession
      (hreal _ (List.mem_append_right _ List.mem_cons_self))
    exact absurd hbad (hforeign.wrap _).not_refused
  | ok sess =>
    refine Svc.meets_ask trivial fun b => ?_
    cases b with
    | error e =>
      intro hreal hbad
      have hforeign : Foreign e := foreign_updateCheckout
        (hreal _ (List.mem_append_right _ List.mem_cons_self))
      exact absurd hbad (hforeign.wrap _).not_refused
    | ok _ => exact blames_of_not (not_refused_ok _)

theorem create_blames (s : PaymentService) (inp : CreatePaymentInput) :
    Prog.Meets (P := gateway) (fun _ _ => True) (Blames D Refused) (s.create D inp) [] := by
  rcases s.accepts_or_refuses D inp with ⟨M, hM⟩ | ⟨e, he⟩
  · rw [s.create_eq D hM]
    refine Svc.meets_ask trivial fun a => ?_
    cases a with
    | ok _ => exact startFlow_blames s M inp _
    | error e =>
      have ht : ∀ y ∈ [] ++ [(Op.insert (s.newRow D M inp)).gave (.error e)], Harmless D y :=
        harmless_concat (fun y hy => by cases hy) (harmless_insert _ e)
      simp only
      split
      · exact blames_of_harmless ht
      unfold PaymentService.answerRetry
      refine Svc.meets_ask trivial fun b => ?_
      have ht' := harmless_concat ht (x := (Op.getByTransactionID M.shardIndex M.merchantID
        (deriveTransactionID D M.merchantID inp.orderID)).gave b) ⟨rfl, fun _ _ _ => rfl⟩
      cases b with
      | error e => exact blames_of_harmless ht'
      | ok existing =>
        simp only
        split
        · exact blames_of_harmless ht'
        · exact Prog.meets_bind (Prog.meets_true _ _) fun _ _ _ => blames_of_not (not_refused_ok _)
  · rw [he]
    exact blames_of_harmless fun x hx => by cases hx

/-- Real answers do not lead to a result with the property `bad`. -/
def Never {α : Type} (D : Deployment) (bad : α → Prop) (t : Calls) (a : α) : Prop :=
  (∀ x ∈ t, Real D x) → ¬ bad a

theorem Never.blames {α : Type} {bad : α → Prop} {t : Calls} {a : α} (h : Never D bad t a) :
    Blames D bad t a := fun hreal hbad => absurd hbad (h hreal)

theorem not_fails_ok {α : Type} (s : Sentinel) (a : α) : ¬ Fails s (.ok a : Res α) := by
  rintro ⟨e, h, -⟩
  cases h

theorem not_fails_of {α : Type} {s s' : Sentinel} (h : s ≠ s') :
    ¬ Fails s (.error (.of s') : Res α) := by
  rintro ⟨e, he, his⟩
  cases he
  simp [Err.is, Err.of, h] at his

section
variable (r : CheckoutResolver) (i : UInt8) (m o : Str)

theorem resolveAfterLock_never (t : Calls) :
    Prog.Meets (P := gateway) (fun _ _ => True) (Never D (Fails .orderNotFound))
      (r.resolveAfterLock i m o) t := by
  unfold CheckoutResolver.resolveAfterLock
  refine Svc.meets_ask trivial fun a => ?_
  cases a with
  | error e => exact fun _ => not_fails_of (by decide)
  | ok order =>
    simp only
    split
    · exact Prog.meets_bind (Prog.meets_true _ _) fun _ _ _ _ => not_fails_ok _ _
    · exact fun _ => not_fails_of (by decide)

theorem openSession_never (order : Transaction) (t : Calls) :
    Prog.Meets (P := gateway) (fun _ _ => True) (Never D (Fails .orderNotFound))
      (r.openSession D.unicode i m o order) t := by
  unfold CheckoutResolver.openSession CheckoutResolver.createSession
  refine Svc.meets_ask trivial fun a => ?_
  cases a with
  | error e =>
    simp only
    split
    · exact fun _ => not_fails_of (by decide)
    · rintro hreal ⟨e', he, his⟩
      cases he
      have hforeign : Foreign e := foreign_createCheckoutSession
        (hreal _ (List.mem_append_right _ List.mem_cons_self))
      rw [hforeign.2.2] at his
      cases his
  | ok sess =>
    refine Svc.meets_ask trivial fun _ => ?_
    exact Prog.meets_bind (Prog.meets_true _ _) fun _ _ _ _ => not_fails_ok _ _

theorem underLock_never (order : Transaction) (t : Calls) :
    Prog.Meets (P := gateway) (fun _ _ => True) (Never D (Fails .orderNotFound))
      (r.underLock D.unicode i m o order) t := by
  unfold CheckoutResolver.underLock
  refine Svc.meets_ask trivial fun again => ?_
  simp only
  split
  · exact Prog.meets_bind (Prog.meets_true _ _) fun _ _ _ _ => not_fails_ok _ _
  · refine Prog.meets_bind (Prog.meets_true _ _) fun t' ok _ => ?_
    split
    · exact openSession_never r i m o order t'
    · exact fun _ => not_fails_of (by decide)

theorem openLazily_never (order : Transaction) (t : Calls) :
    Prog.Meets (P := gateway) (fun _ _ => True) (Never D (Fails .orderNotFound))
      (r.openLazily D.unicode i m o order) t := by
  unfold CheckoutResolver.openLazily
  refine Svc.meets_ask trivial fun a => ?_
  cases a with
  | error e => exact resolveAfterLock_never r i m o _
  | ok lock =>
    refine Prog.meets_bind (underLock_never r i m o order _) fun t' res hres => ?_
    refine Svc.meets_ask trivial fun _ => ?_
    exact fun hreal => hres fun x hx => hreal x (List.mem_append_left _ hx)

theorem resolveOn_blames {t : Calls} (ht : ∀ x ∈ t, Harmless D x) :
    Prog.Meets (P := gateway) (fun _ _ => True) (Blames D (Fails .orderNotFound))
      (r.resolveOn D.unicode i m o) t := by
  unfold CheckoutResolver.resolveOn
  refine Svc.meets_ask trivial fun a => ?_
  have ht' := harmless_concat ht (x := (Op.getByMerchantOrderID i m o).gave a)
    ⟨rfl, fun _ _ _ => rfl⟩
  cases a with
  | error e =>
    simp only
    split <;> exact blames_of_harmless ht'
  | ok order =>
    simp only
    split
    · exact Prog.meets_bind (Prog.meets_true _ _) fun _ _ _ => blames_of_not (not_fails_ok _ _)
    · exact (openLazily_never r i m o order _).imp fun _ _ h => h.blames

end

theorem resolve_blames (r : CheckoutResolver) (m o : Str) {t : Calls}
    (ht : ∀ x ∈ t, Harmless D x) :
    Prog.Meets (P := gateway) (fun _ _ => True) (Blames D (Fails .orderNotFound))
      (r.resolve D.unicode m o) t := by
  unfold CheckoutResolver.resolve CheckoutResolver.cachedURL
  refine Prog.meets_bind (R := fun t' _ => ∀ x ∈ t', Harmless D x) ?_ fun t' url ht' => ?_
  · split
    · refine Svc.meets_ask trivial fun a => ?_
      exact harmless_concat ht ⟨rfl, fun _ _ _ => rfl⟩
    · exact ht
  cases url with
  | some url => exact blames_of_not (not_fails_ok _ _)
  | none =>
    refine Svc.meets_ask trivial fun a => ?_
    have hread := harmless_concat ht' (x := (Op.getByMerchantID m).gave a) ⟨rfl, fun _ _ _ => rfl⟩
    cases a with
    | error e =>
      simp only
      split <;> exact blames_of_harmless hread
    | ok M => exact resolveOn_blames r M.shardIndex m o hread

/-! ## The handlers -/

def Reply.ClientError (reply : Reply) : Prop := 400 ≤ reply.status ∧ reply.status < 500

theorem Blames.map {α β : Type} {bad : α → Prop} {bad' : β → Prop} {t : Calls} {a : α} {b : β}
    (h : Blames D bad t a) (hb : bad' b → bad a) : Blames D bad' t b :=
  fun hreal hbad => h hreal (hb hbad)

theorem refused_of_clientError {r : Res CreatePaymentResult}
    (h : (Server.paymentReply r).ClientError) : Refused r := by
  cases r with
  | ok res => exact absurd h.1 (by simp [Server.paymentReply])
  | error e =>
    simp only [Server.paymentReply] at h
    split at h
    · next hinvalid => exact .inl ⟨e, rfl, hinvalid⟩
    split at h
    · next hconflict => exact .inr ⟨e, rfl, hconflict⟩
    · exact absurd h.2 (by simp [fail])

variable {S : Server}

theorem createPayment_blames (req : Request) (M : Merchant) :
    Prog.Meets (P := gateway) (fun _ _ => True) (Blames D Reply.ClientError)
      (S.createPayment D req M) [] := by
  unfold Server.createPayment
  split
  · exact blames_of_harmless fun x hx => by cases hx
  · exact Prog.meets_bind (create_blames _ _) fun t r hr => hr.map refused_of_clientError

theorem getPayment_blames (id : Str) (M : Merchant) :
    Prog.Meets (P := gateway) (fun _ _ => True) (Blames D Reply.ClientError)
      (S.getPayment id M) [] := by
  unfold Server.getPayment
  split
  · exact blames_of_harmless fun x hx => by cases hx
  refine Svc.meets_ask trivial fun a => ?_
  have ht : ∀ y ∈ [] ++ [(Op.getByMerchantOrderID M.shardIndex M.merchantID id).gave a],
      Harmless D y := harmless_concat (fun y hy => by cases hy) ⟨rfl, fun _ _ _ => rfl⟩
  cases a with
  | error e =>
    simp only
    split <;> exact blames_of_harmless ht
  | ok order => exact blames_of_harmless ht

/-- A refund that was asked for is not answered with a client error. -/
theorem refundPayment_blames (req : Request) (id : Str) (M : Merchant) :
    Prog.Meets (P := gateway) (fun _ _ => True) (Blames D Reply.ClientError)
      (S.refundPayment req id M) [] := by
  unfold Server.refundPayment RefundHandler.create
  simp only
  split
  · exact blames_of_harmless fun x hx => by cases hx
  refine Prog.meets_bind (R := fun _ res => ¬ (Server.refundReply res).ClientError) ?_
    fun t res hres => blames_of_not hres
  refine Prog.meets_bind (Prog.meets_true _ _) fun t r _ => ?_
  cases r with
  | error e => exact fun h => absurd h.2 (by simp [Server.refundReply, fail])
  | ok res => exact fun h => absurd h.1 (by simp [Server.refundReply])

theorem createMerchant_blames (body : Str) :
    Prog.Meets (P := gateway) (fun _ _ => True) (Blames D Reply.ClientError)
      (S.createMerchant body) [] := by
  unfold Server.createMerchant
  split
  · exact blames_of_harmless fun x hx => by cases hx
  next inp _ =>
  suffices hcreate : Prog.Meets (P := gateway) (fun _ _ => True) (Blames D (Fails .invalidRequest))
      (MerchantService.create S.merchants inp) [] by
    refine Prog.meets_bind hcreate fun t r hr => hr.map fun hclient => ?_
    cases r with
    | ok res => exact absurd hclient.1 (by simp [Server.merchantReply])
    | error e =>
      simp only [Server.merchantReply] at hclient
      split at hclient
      · next hinvalid => exact ⟨e, rfl, hinvalid⟩
      · exact absurd hclient.2 (by simp [fail])
  have hnil : ∀ x ∈ ([] : Calls), Harmless D x := fun x hx => by cases hx
  unfold MerchantService.create randomHex
  simp only
  split
  · exact blames_of_harmless hnil
  split
  · exact blames_of_harmless hnil
  refine Svc.meets_ask trivial fun a => ?_
  have hone := harmless_concat hnil (x := (Op.randRead 32).gave a) ⟨rfl, fun _ _ _ => rfl⟩
  cases a with
  | error e => exact blames_of_harmless hone
  | ok key =>
    refine Svc.meets_ask trivial fun b => ?_
    have htwo := harmless_concat hone (x := (Op.randRead 32).gave b) ⟨rfl, fun _ _ _ => rfl⟩
    cases b with
    | error e => exact blames_of_harmless htwo
    | ok secret =>
      unfold MerchantService.store MerchantRepo.insert
      refine Svc.meets_ask trivial fun counts => ?_
      have hthree := harmless_concat htwo
        (x := (Op.countByShard S.merchants.logicalShardCount).gave counts) ⟨rfl, fun _ _ _ => rfl⟩
      cases counts with
      | error e => exact blames_of_harmless hthree
      | ok counts =>
        refine Svc.meets_ask trivial fun done => ?_
        cases done with
        | error e => exact blames_of_harmless (harmless_concat hthree (harmless_insertMerchant _ e))
        | ok _ => exact blames_of_not (not_fails_ok _ _)

theorem redirect_blames (m o token : Str) :
    Prog.Meets (P := gateway) (fun _ _ => True)
      (fun t page => Blames D Reply.ClientError t (Server.pageReply page))
      (S.checkout.redirect D m o token) [] := by
  have hnil : ∀ x ∈ ([] : Calls), Harmless D x := fun x hx => by cases hx
  have hanswer : ∀ t : Calls, (∀ x ∈ t, Harmless D x) → Prog.Meets (P := gateway) (fun _ _ => True)
      (fun t page => Blames D Reply.ClientError t (Server.pageReply page))
      (S.checkout.answer D m o) t := by
    intro t ht
    unfold CheckoutHandler.answer
    refine Prog.meets_bind (resolve_blames _ m o ht) fun t' r hr => ?_
    cases r with
    | ok url => exact blames_of_not fun h => absurd h.1 (by simp [Server.pageReply])
    | error e =>
      simp only
      split
      · next hmissing => exact hr.map fun _ => ⟨e, rfl, hmissing⟩
      split
      · exact blames_of_not fun h => absurd h.2 (by simp [Server.pageReply])
      · exact blames_of_not fun h => absurd h.2 (by simp [Server.pageReply])
  unfold CheckoutHandler.redirect
  split
  · exact blames_of_harmless hnil
  split
  · exact hanswer [] hnil
  split
  · exact blames_of_harmless hnil
  refine Svc.meets_ask trivial fun now => ?_
  have hclock := harmless_concat hnil (harmless_timeNow now)
  split
  · exact blames_of_harmless hclock
  · exact hanswer _ hclock

/-! ## Requests -/

/-- The calls of a request that are calls of services. -/
def svcCalls (t : List (Prog.Step web)) : Calls := t.filterMap fun
  | ⟨.inl o, a⟩ => some (o.gave a)
  | ⟨.inr _, _⟩ => none

theorem svcCalls_append (t u : List (Prog.Step web)) :
    svcCalls (t ++ u) = svcCalls t ++ svcCalls u := List.filterMap_append

theorem svcCalls_map_inl (t : Calls) : svcCalls (t.map Prog.Step.inl) = t := by
  induction t with
  | nil => rfl
  | cons x t ih => exact congrArg (x :: ·) ih

theorem mem_svcCalls {t : List (Prog.Step web)} {o : Op} {a : o.Ans} :
    o.gave a ∈ svcCalls t ↔ Web.gave o a ∈ t := by
  unfold svcCalls
  rw [List.mem_filterMap]
  constructor
  · rintro ⟨⟨o' | o', a'⟩, hmem, heq⟩
    · cases heq
      exact hmem
    · cases heq
  · exact fun h => ⟨_, h, rfl⟩

/-- The middleware is harmless. -/
theorem harmless_middleware {t : List (Prog.Step web)} (h : ∀ x ∈ t, ofMiddleware x.1) :
    ∀ x ∈ svcCalls t, Harmless D x := by
  rintro ⟨o, a⟩ hx
  obtain rfl : o = .timeNow := h _ (mem_svcCalls.mp hx)
  exact harmless_timeNow a

theorem merchantAPI_blames {req : Request} {handler : Merchant → Svc Reply}
    (hhandler : ∀ M, Prog.Meets (P := gateway) (fun _ _ => True) (Blames D Reply.ClientError)
      (handler M) []) {t : List (Prog.Step web)} {reply : Reply}
    (h : Prog.Runs (S.merchantAPI D req handler) t (.ret reply)) :
    Blames D Reply.ClientError (svcCalls t) reply := by
  obtain ⟨t₀, ht₀, ⟨rfl, -⟩ | ⟨M, t₁, rate, r, rfl, -, hr, rfl⟩⟩ := merchantAPI_ret h
  · exact blames_of_harmless (harmless_middleware ht₀)
  · intro hreal hclient x hx
    rw [svcCalls_append, svcCalls_map_inl] at hreal hx
    rcases List.mem_append.mp hx with hx | hx
    · exact harmless_middleware ht₀ x hx
    · exact (hhandler M).ret hr (fun y hy => hreal y (List.mem_append_right _ hy)) hclient x hx

theorem svc_blames {p : Svc Reply}
    (hp : Prog.Meets (P := gateway) (fun _ _ => True) (Blames D Reply.ClientError) p [])
    {t : List (Prog.Step web)} {reply : Reply} (h : Prog.Runs (Web.svc p) t (.ret reply)) :
    Blames D Reply.ClientError (svcCalls t) reply := by
  obtain ⟨t', q, rfl, hq, hr⟩ := Prog.runs_inl h
  cases q with
  | call o k => cases hq
  | ret a =>
    cases hq
    rw [svcCalls_map_inl]
    exact hp.ret hr

theorem serve_blames {req : Request} {p : Web Reply} (hserve : S.serve D req = some p)
    (hroute : S.endpoint req ≠ some .stripeWebhook) {t : List (Prog.Step web)} {reply : Reply}
    (h : Prog.Runs p t (.ret reply)) : Blames D Reply.ClientError (svcCalls t) reply := by
  obtain ⟨e, he, hresp⟩ := Option.bind_eq_some_iff.mp hserve
  cases e with
  | createPayment =>
    cases hresp
    exact merchantAPI_blames (createPayment_blames req) h
  | getPayment id =>
    cases hresp
    exact merchantAPI_blames (getPayment_blames id) h
  | refundPayment id =>
    cases hresp
    exact merchantAPI_blames (refundPayment_blames req id) h
  | createMerchant =>
    simp only [Server.respond] at hresp
    split at hresp
    · cases hresp
    split at hresp
    · cases hresp
      obtain ⟨rfl, -⟩ := Prog.runs_ret.mp h
      exact blames_of_harmless fun x hx => by cases hx
    · cases hresp
      exact svc_blames (createMerchant_blames _) h
  | stripeWebhook => exact absurd he hroute
  | pay m o =>
    cases hresp
    refine svc_blames ?_ h
    exact Prog.meets_bind (redirect_blames m o _) fun _ _ hpage => hpage

/-- **Client errors are harmless.**  If a request is answered with 4xx, then none of its calls has
changed anything that lasts, and it has not asked Stripe for a refund. -/
theorem client_error_harmless {w : WebWorld} {reqs : List Request} {ps : List (Web Reply)}
    (hps : List.Forall₂ (fun req p => S.serve D req = some p) reqs ps) {xs : List (Nat × Choice)}
    {i : Nat} {req : Request} {reply : Reply} (hreq : reqs[i]? = some req)
    (hroute : S.endpoint req ≠ some .stripeWebhook)
    (hret : (Serving.run D w ps xs).procs[i]? = some (.ret reply)) (hclient : reply.ClientError) :
    (∀ r key a, Web.gave (.createRefund r key) a ∉ callsOf i (Serving.run D w ps xs).hist) ∧
    ∀ ys c zs, xs = ys ++ (i, c) :: zs →
      (Serving.run D w ps (ys ++ [(i, c)])).world.world.books =
        (Serving.run D w ps ys).world.world.books := by
  obtain ⟨p, hp, hserve⟩ := getElem?_of_forall₂ hps hreq
  obtain ⟨q, hq, hruns⟩ := Sys.run_runs (P := web) (webExec D) w ps xs hp
  cases hret.symm.trans hq
  have hreal : ∀ x ∈ svcCalls (callsOf i (Serving.run D w ps xs).hist), Real D x := by
    rintro ⟨o, a⟩ hx
    obtain ⟨c, ys, -, hans⟩ :=
      Sys.answered_since (webExec D) (s := Sys.start w ps) rfl (mem_svcCalls.mp hx)
    exact ⟨c, _, hans.symm⟩
  have hharmless := serve_blames hserve hroute hruns hreal hclient
  refine ⟨fun r key a hmem => ?_, ?_⟩
  · have := (hharmless _ (mem_svcCalls.mpr hmem)).1
    cases this
  rintro ys c zs rfl
  have hrun : Serving.run D w ps (ys ++ [(i, c)]) =
      Sys.step (webExec D) (Serving.run D w ps ys) (i, c) :=
    Sys.run_concat (P := web) (webExec D) _ ys (i, c)
  rw [hrun]
  rcases Sys.step_cases (webExec D) (Serving.run D w ps ys) (i, c) with h | ⟨o, k, hproc, h⟩
  · rw [h]
  rw [h]
  -- the call is one of the history at the end
  have hmem : ⟨o, (webExec D o c (Serving.run D w ps ys).world).1⟩ ∈
      callsOf i (Serving.run D w ps (ys ++ (i, c) :: zs)).hist := by
    have hlast := Sys.mem_callsOf_first (webExec D) hproc c zs
    have happend : Serving.run D w ps (ys ++ (i, c) :: zs) =
        Sys.run (webExec D) (Serving.run D w ps ys) ((i, c) :: zs) :=
      Sys.run_append (P := web) (webExec D) _ ys _
    rw [happend]
    exact hlast
  cases o with
  | inl o => exact (hharmless _ (mem_svcCalls.mpr hmem)).2 c _ rfl
  | inr o => cases o <;> rfl

end

/-- A server that reads the amount off the body: 100 if it is empty, otherwise 200. -/
def Server.ofBody : Server :=
  { Server.sample with
    parsePayment := fun body => .ok ⟨bytes "o-1", if body = [] then 100 else 200, [], [], [], [], []⟩ }

/-- The order of `Request.payment` with another amount. -/
def Request.conflicting : Request :=
  { Request.payment with
    body := bytes "200"
    signature := Hmac.sign Sha256.hmac [] (signedRequest (bytes "0") (bytes "200")) }

def ofBodyProg (req : Request) : Web Reply :=
  Server.ofBody.merchantAPI (.sample .binary) req (Server.ofBody.createPayment (.sample .binary) req)

theorem serve_conflicting :
    List.Forall₂ (fun req p => Server.ofBody.serve (.sample .binary) req = some p)
      [.payment, .conflicting] [ofBodyProg .payment, ofBodyProg .conflicting] := by
  have hfirst : Server.ofBody.endpoint .payment = some .createPayment := by decide
  have hsecond : Server.ofBody.endpoint .conflicting = some .createPayment := by decide
  refine .cons ?_ (.cons ?_ .nil)
  · unfold Server.serve
    rw [hfirst]
    rfl
  · unfold Server.serve
    rw [hsecond]
    rfl

def conflicted (xs : List (Nat × Choice)) : Serving :=
  Serving.run (.sample .binary) .sample [ofBodyProg .payment, ofBodyProg .conflicting] xs

/-- One payment after the other. -/
def oneThenOther : List (Nat × Choice) :=
  List.replicate 8 (0, { now := unixEpoch }) ++ List.replicate 8 (1, { now := unixEpoch })

/-- The status a request was answered with. -/
def statusOf (p : Web Reply) : Option Nat :=
  match p with
  | .ret reply => some reply.status
  | .call _ _ => none

theorem eq_ret_of_statusOf {p : Web Reply} {status : Nat} (h : statusOf p = some status) :
    ∃ reply, p = .ret reply ∧ reply.status = status := by
  cases p with
  | ret reply => exact ⟨reply, rfl, Option.some.inj h⟩
  | call o k => cases h

/-- The second payment is refused as a conflict and leaves everything as the first has made it. -/
theorem client_error_harmless_conflict :
    (∃ reply, (conflicted oneThenOther).procs[1]? = some (.ret reply) ∧ reply.status = 409) ∧
      ∀ ys c zs, oneThenOther = ys ++ (1, c) :: zs →
        (conflicted (ys ++ [(1, c)])).world.world.books = (conflicted ys).world.world.books := by
  have hstatus : (conflicted oneThenOther).procs[1]?.bind statusOf = some 409 := by decide +kernel
  obtain ⟨p, hp, hst⟩ := Option.bind_eq_some_iff.mp hstatus
  obtain ⟨reply, rfl, h409⟩ := eq_ret_of_statusOf hst
  have hclient : reply.ClientError := by
    unfold Reply.ClientError
    rw [h409]
    decide
  have hroute : Server.ofBody.endpoint .conflicting ≠ some .stripeWebhook := by decide
  unfold conflicted at *
  have h := client_error_harmless (i := 1) serve_conflicting rfl hroute hp hclient
  exact ⟨⟨reply, hp, h409⟩, h.2⟩

end EasyPay
