import EasyPay.Orders
import EasyPay.Service.MerchantService

/-!
# What is admitted can be served

The rules for merchant ids, order ids and amounts stand in the onboarding of merchants, in
`Create`, in `Insert`, in the columns of the tables and in the layout of the payment event.

* `crypto_payable_iff`: an accepted order id can be named by a payment event if it has at most 32
  bytes.
* `onboarded_served_iff`: the payments of an onboarded merchant fail only because of the database, an
  earlier order or Stripe, if its id has at most 16 bytes.
-/

namespace EasyPay

open GoStrings Tables Ports

/-! ## Orders that are paid on chain -/

/-- `Create` accepts the order, with method `crypto`. -/
structure TakesCrypto (D : Deployment) (s : PaymentService) (inp : CreatePaymentInput) : Prop where
  crypto : isCrypto D.unicode inp = true
  accepted : ∃ t res, Prog.Runs (s.create D inp) t (.ret (.ok res))

theorem ValidOrderID.head?_ne {o : Str} (h : ValidOrderID o) : o.head? ≠ some 0 := by
  intro hzero
  have hbyte : orderIDByte 0 = true := h.2.2 0 (List.mem_of_mem_head? hzero)
  exact absurd hbyte (by decide)

/-- **An accepted crypto order can be paid** just when its id has at most 32 bytes. -/
theorem crypto_payable_iff {D : Deployment} {s : PaymentService} {inp : CreatePaymentInput}
    (h : TakesCrypto D s inp) : (∃ topic, Carries topic inp.orderID) ↔ inp.orderID.length ≤ 32 := by
  obtain ⟨t, res, hrun⟩ := h.accepted
  obtain ⟨M, ⟨-, hvalid, -⟩, -⟩ := s.create_ok D hrun
  rw [exists_carries_iff]
  constructor
  · exact fun hfits => hfits.1
  · exact fun hle => ⟨hle, hvalid.head?_ne⟩

theorem takesCrypto_of_run {D : Deployment} {w : World} {js : List Job} {xs : List (Nat × Choice)}
    {i : Nat} {s : PaymentService} {inp : CreatePaymentInput} {res : CreatePaymentResult}
    (hj : js[i]? = some (.create s inp)) (hcrypto : isCrypto D.unicode inp = true)
    (hres : (System.run D w js xs).procs[i]? = some (.ret (.created (.ok res)))) :
    TakesCrypto D s inp := by
  obtain ⟨q, hq, hr⟩ := System.run_runs D w js hj xs
  cases hres.symm.trans hq
  obtain ⟨r, hr, heq⟩ := Prog.runs_map_ret hr
  cases heq
  exact ⟨hcrypto, _, res, hr⟩

/-- A crypto payment of `M`. -/
def CreatePaymentInput.crypto (M : Merchant) (orderID : Str) (amount : Int64) : CreatePaymentInput :=
  { CreatePaymentInput.card M orderID amount with method := bytes "crypto" }

def cryptoJobs (orderID : Str) : List Job :=
  [.create (.mode false) (.crypto (.named (bytes "m1")) orderID 100)]

/-- The one call of `Create`, its insert. -/
def cryptoRun (orderID : Str) : System :=
  System.run (Deployment.sample .binary) (World.fresh [.named (bytes "m1")]) (cryptoJobs orderID)
    (steps 0 1)

/-- What `Create` tells the payer. -/
def cryptoResult (orderID : Str) : CreatePaymentResult :=
  { orderID := orderID
    transactionID := deriveTransactionID (Deployment.sample .binary) (bytes "m1") orderID
    stripeSessionID := []
    checkoutURL := []
    stripePaymentIntentID := []
    clientSecret := []
    status := bytes "accepted"
    cryptoPayload := some ⟨bytes "0xc0", orderID, 100, 1⟩ }

/-- An order id of 33 bytes is accepted, and no event can name it. -/
theorem crypto_order_unpayable :
    (cryptoRun (List.replicate 33 97)).procs[0]? =
        some (.ret (.created (.ok (cryptoResult (List.replicate 33 97))))) ∧
      ¬ ∃ topic, Carries topic (List.replicate 33 97) := by
  refine ⟨Prog.getElem?_of_result? (by decide +kernel), ?_⟩
  rw [exists_carries_iff]
  decide

theorem crypto_payable_sample :
    (cryptoRun (bytes "o-1")).procs[0]? = some (.ret (.created (.ok (cryptoResult (bytes "o-1"))))) ∧
      ∃ topic, Carries topic (bytes "o-1") := by
  have hres : (cryptoRun (bytes "o-1")).procs[0]? =
      some (.ret (.created (.ok (cryptoResult (bytes "o-1"))))) :=
    Prog.getElem?_of_result? (by decide +kernel)
  exact ⟨hres, (crypto_payable_iff (takesCrypto_of_run rfl (by decide) hres)).mpr (by decide)⟩

/-! ## Merchants that are onboarded -/

/-- The widths of the columns of `transactions`; a text of so many bytes has at most so many
characters. -/
structure Row.Fits (r : Row) : Prop where
  transactionID : r.transactionID.length = 16
  merchantID : r.merchantID.length ≤ 16
  orderID : r.orderID.length ≤ 64
  stripePiID : ∀ x, r.stripePiID = some x → x.length ≤ 64
  stripeSession : ∀ x, r.stripeSession = some x → x.length ≤ 96

section
variable (D : Deployment)

/-- A payment `Create` has to take: a valid order id, a positive amount, a supported currency. -/
structure Payable (s : PaymentService) (M : Merchant) (inp : CreatePaymentInput) : Prop where
  accepts : PaymentService.Accepts inp M
  /-- A request without a currency is in the currency of the service. -/
  currency : ∃ code,
    encodeCurrency D.unicode (if inp.currency = [] then s.currency else inp.currency) = .ok code

/-- Every payment of `M` passes the checks of `Insert`, is routed to a pool, and fits its columns. -/
def Insertable (M : Merchant) : Prop :=
  ∀ s inp now, Payable D s M inp → ∃ r p, D.row now (s.newRow D M inp) = .ok r ∧ r.Fits ∧
    D.router.forIndex M.shardIndex = .ok p

/-- What a failed `Create` of job `i` can be put down to. -/
inductive Excused (hist : List CallEvent) (i : Nat) : Prop
  /-- The database failed. -/
  | insert {c : Choice} {t : Transaction} {a : Res Unit} :
      ⟨i, c, .insert t, a⟩ ∈ hist → c.fault ≠ none → Excused hist i
  | persist {c : Choice} {x : UInt8} {m o sess pi : Str} {a : Res Unit} :
      ⟨i, c, .updateCheckout x m o sess pi, a⟩ ∈ hist → c.fault ≠ none → Excused hist i
  /-- There is an order with this transaction id. -/
  | order {t : Transaction} {e : Err} : e.is .duplicateTransaction = true →
      (Op.insert t).gave (.error e) ∈ callsOf i hist → Excused hist i
  | stripe {req : CreateCheckoutRequest} {key : Str} {e : Err} :
      (Op.createCheckoutSession req key).gave (.error e) ∈ callsOf i hist → Excused hist i

/-- No payment of `M` fails in a run for another reason. -/
def FailsExcused (M : Merchant) : Prop :=
  ∀ w js xs i s inp e, js[i]? = some (.create s inp) → Payable D s M inp →
    (System.run D w js xs).procs[i]? = some (.ret (.created (.error e))) →
    Excused (System.run D w js xs).hist i

end

section
variable {D : Deployment} {M : Merchant}

/-- Upper-casing does not change whether a currency is supported. -/
theorem Payable.encodeCurrency {s : PaymentService} {inp : CreatePaymentInput} (h : Payable D s M inp) :
    ∃ code, encodeCurrency D.unicode (s.newRow D M inp).currency = .ok code := by
  obtain ⟨code, hcode⟩ := h.currency
  refine ⟨code, ?_⟩
  show EasyPay.encodeCurrency D.unicode (s.normalizedCurrency D inp) = .ok code
  unfold EasyPay.encodeCurrency at hcode ⊢
  rw [s.toUpper_normalizedCurrency]
  unfold PaymentService.normalizedCurrency
  split at hcode
  · exact hcode
  · cases hcode

theorem insertable (hM : M.merchantID.length ≤ 16) (hshard : M.shardIndex < D.router.logicalCount) :
    Insertable D M := by
  intro s inp now h
  obtain ⟨code, hcode⟩ := h.encodeCurrency
  obtain ⟨-, hvalid, hamount⟩ := h.accepts
  obtain ⟨r, hr⟩ := D.exists_row (t := s.newRow D M inp) now hM
    (decodeHex16_deriveTransactionID D M.merchantID inp.orderID) hvalid hamount hcode
  refine ⟨r, _, hr, ?_, Router.forIndex_of_lt hshard⟩
  obtain ⟨-, -, -, -, -, -, -, -, hpi, hsess⟩ := D.row_ok hr
  refine ⟨r.transactionID_length, r.merchantID_length, r.orderID_valid.2.1, fun x hx => ?_,
    fun x hx => ?_⟩
  · cases hpi.symm.trans hx
  · cases hsess.symm.trans hx

/-- An insert that the database answers says yes or that there is an order. -/
theorem exec_insert_cases (h : Insertable D M) {s : PaymentService} {inp : CreatePaymentInput}
    (hp : Payable D s M inp) {c : Choice} {w : World} {e : Err}
    (he : (exec D (.insert (s.newRow D M inp)) c w).1 = .error e) :
    c.fault ≠ none ∨ e.is .duplicateTransaction = true := by
  obtain ⟨r, p, hr, -, hpool⟩ := h s inp c.now hp
  by_cases hfault : c.fault = none
  · right
    have he : (D.insert c.now c.fault (s.newRow D M inp) w.pools).1 = .error e := he
    rw [hfault] at he
    rcases D.insert_ok_or_duplicate hr hpool w.pools with hok | hdup
    · cases hok.symm.trans he
    · cases hdup.symm.trans he
      rfl
  · exact .inl hfault

/-- The row of a `Create` stays where it was inserted. -/
theorem row_of_insert {w : World} {js : List Job} {xs : List (Nat × Choice)} {i : Nat}
    {t : Transaction} (h : (Op.insert t).gave (.ok ()) ∈ callsOf i (System.run D w js xs).hist) :
    ∃ now r p, D.row now t = .ok r ∧ D.router.forIndex t.shardIndex = .ok p ∧
      ∃ r' ∈ (System.run D w js xs).world.pools p, r'.facts = r.facts := by
  obtain ⟨c, he⟩ := exists_event h
  obtain ⟨ys, zs, k, rfl, hproc, hans⟩ := System.happened D w js he
  have hins : (D.insert c.now c.fault t (System.run D w js ys).world.pools).1 = .ok () := hans.symm
  rcases D.insert_cases c.now c.fault t (System.run D w js ys).world.pools with
    ⟨r, p, hr, hp, -, -, heq⟩ | ⟨-, -, -, -, -, -, heq⟩ | ⟨e, -, heq⟩
  · refine ⟨c.now, r, p, hr, hp, ?_⟩
    have hkept := rows_kept D w js (ys ++ [(i, c)]) zs
    rw [List.append_assoc] at hkept
    refine hkept.exists_of_mem ?_
    rw [(System.step_of_call D w js hproc c).2]
    show r ∈ (D.insert c.now c.fault t (System.run D w js ys).world.pools).2 p
    rw [heq]
    simp
  · rw [heq] at hins
    cases hins
  · rw [heq] at hins
    cases hins

/-- An update of an order that is there fails with the database only. -/
theorem exec_persist_cases {w : World} {x : UInt8} {m o sess pi : Str} {p : Nat} {r : Row} {c : Choice}
    {e : Err} (hp : D.router.forIndex x = .ok p) (hr : r ∈ w.pools p) (hm : r.merchantID = m)
    (ho : r.orderID = o) (he : (exec D (.updateCheckout x m o sess pi) c w).1 = .error e) :
    c.fault ≠ none := by
  intro hfault
  have he : (D.updateCheckout c.now c.fault x m o sess pi w.pools).1 = .error e := he
  subst hm ho
  unfold TransactionRepo.updateCheckout at he
  rw [hfault, D.updateOrder_of_row hp r.orderID_valid hr (D.ofOrder_self r)] at he
  cases he

/-- The row of a `Create` is there when its session is to be stored. -/
theorem persist_fault {w : World} {js : List Job} {xs : List (Nat × Choice)} {i : Nat}
    {s : PaymentService} {inp : CreatePaymentInput} (hj : js[i]? = some (.create s inp))
    (hM : PaymentService.Accepts inp M) {c : Choice} {sess pi : Str} {e : Err}
    (hev : ⟨i, c, .updateCheckout M.shardIndex M.merchantID inp.orderID sess pi, .error e⟩ ∈
      (System.run D w js xs).hist) : c.fault ≠ none := by
  obtain ⟨ys, zs, k, rfl, hproc, hans⟩ := System.happened D w js hev
  have hins : (Op.insert (s.newRow D M inp)).gave (.ok ()) ∈ callsOf i (System.run D w js ys).hist := by
    obtain ⟨q, hq, hruns⟩ := System.run_runs D w js hj ys
    cases hproc.symm.trans hq
    obtain ⟨k', hruns⟩ := Prog.runs_map_call hruns
    obtain ⟨M', hM', hcall⟩ := s.create_next D hruns
    obtain rfl := hM'.unique hM
    exact hcall.inserted
  obtain ⟨now, r, p, hr, hpool, r', hr', hfacts⟩ := row_of_insert hins
  obtain ⟨-, hm, ho, -⟩ := D.row_ok hr
  have hm' : r'.merchantID = M.merchantID := (congrArg Facts.merchantID hfacts).trans hm
  have ho' : r'.orderID = inp.orderID := (congrArg Facts.orderID hfacts).trans ho
  exact exec_persist_cases hpool hr' hm' ho' hans.symm

theorem failsExcused (h : Insertable D M) : FailsExcused D M := by
  intro w js xs i s inp e hj hp hres
  obtain ⟨q, hq, hruns⟩ := System.run_runs D w js hj xs
  cases hres.symm.trans hq
  obtain ⟨r, hruns, heq⟩ := Prog.runs_map_ret hruns
  cases heq
  rcases s.create_error D hp.accepts hruns with ⟨e', t', ht⟩ | ⟨t', ht, hflow⟩
  · -- its insert failed
    have hmem : (Op.insert (s.newRow D M inp)).gave (.error e') ∈
        callsOf i (System.run D w js xs).hist := by
      rw [ht]
      exact List.mem_cons_self
    obtain ⟨c, hev⟩ := exists_event hmem
    obtain ⟨w', hans⟩ := System.answered D w js hev
    rcases exec_insert_cases h hp hans.symm with hfault | hdup
    · exact .insert hev hfault
    · exact .order hdup hmem
  rcases s.startFlow_error D hflow with ⟨e', rfl⟩ | ⟨sess, e', rfl⟩
  · have hmem : (Op.createCheckoutSession (s.checkoutRequest D M inp)
        (deriveTransactionID D M.merchantID inp.orderID)).gave (.error e') ∈
          callsOf i (System.run D w js xs).hist := by
      rw [ht]
      exact List.mem_cons_of_mem _ List.mem_cons_self
    exact .stripe hmem
  · have hmem : (Op.updateCheckout M.shardIndex M.merchantID inp.orderID sess.id
        sess.paymentIntentID).gave (.error e') ∈ callsOf i (System.run D w js xs).hist := by
      rw [ht]
      exact List.mem_cons_of_mem _ (List.mem_cons_of_mem _ List.mem_cons_self)
    obtain ⟨c, hev⟩ := exists_event hmem
    exact .persist hev (persist_fault hj hp.accepts hev)

/-- A payment of one dollar. -/
def CreatePaymentInput.dollar (M : Merchant) : CreatePaymentInput :=
  { CreatePaymentInput.card M (bytes "o-1") 100 with currency := bytes "USD" }

theorem payable_dollar (D : Deployment) (s : PaymentService) (M : Merchant) :
    Payable D s M (.dollar M) where
  accepts := ⟨rfl, show ValidOrderID (bytes "o-1") by decide, show (0 : Int64) < 100 by decide⟩
  currency := ⟨840, rfl⟩

end

/-- **An onboarded merchant can take payments** just when its id has at most 16 bytes: they pass the
checks of `Insert`, and fail because of the database, an order that exists or Stripe only. -/
theorem onboarded_served_iff {D : Deployment} {repo : MerchantRepo} {M : Merchant}
    (hrepo : repo.logicalShardCount = D.router.logicalCount)
    (hM : MerchantService.Onboarded repo M) :
    (Insertable D M ∧ FailsExcused D M) ↔ M.merchantID.length ≤ 16 := by
  have hshard : M.shardIndex < D.router.logicalCount := by
    rw [← hrepo]
    exact hM.shardIndex_lt
  constructor
  · rintro ⟨h, -⟩
    obtain ⟨r, p, hr, hfits, -⟩ := h (.mode true) (.dollar M) 1 (payable_dollar D _ M)
    obtain ⟨-, hm, -⟩ := D.row_ok hr
    have hlength := hfits.merchantID
    rw [hm] at hlength
    exact hlength
  · intro hlength
    have h := insertable hlength hshard
    exact ⟨h, failsExcused h⟩

/-- The merchant `id` on the one shard there is, with keys of zero bytes. -/
def Merchant.onboarded (id : Str) : Merchant :=
  { merchantID := id
    name := bytes "shop"
    apiKey := hexEncode (List.replicate 32 0)
    secretKey := hexEncode (List.replicate 32 0)
    callbackURL := []
    rateLimit := 1000
    status := .active
    shardIndex := 0 }

/-- The run of `MerchantService.Create` in which every call succeeds. -/
theorem onboarded_of_trimmed {id : Str} (htrim : trimSpace id = id) (hne : id ≠ [])
    (hlength : id.length ≤ 64) :
    MerchantService.Onboarded (newMerchantRepository 1) (.onboarded id) := by
  have hid : ¬ (trimSpace id = [] ∨ (trimSpace id).length > 64) := by
    rw [htrim]
    rintro (h | h)
    · exact hne h
    · omega
  refine ⟨⟨id, bytes "shop", [], 0⟩, ?_⟩
  unfold MerchantService.create
  simp only
  rw [if_neg hid, if_neg (by decide), htrim]
  refine ⟨_, _, .cons (P := gateway) (Op.randRead 32) _ (Except.ok (List.replicate 32 0) : Res Str)
    (.cons (P := gateway) (Op.randRead 32) _ (Except.ok (List.replicate 32 0) : Res Str)
      (.cons (P := gateway) (Op.countByShard 1) _ (Except.ok [] : Res (List (UInt8 × Int)))
        (.cons (P := gateway) (Op.insertMerchant (.onboarded id)) _ (Except.ok () : Res Unit)
          (.nil _)))), ?_⟩
  simp [Op.gave]

/-- The one job: the merchant's payment of a dollar. -/
def dollarRun (id : Str) : System :=
  System.run (Deployment.sample .binary) (World.fresh [.onboarded id])
    [.create (.mode true) (.dollar (.onboarded id))] (steps 0 1)

/-- A merchant id of 17 bytes is onboarded, and none of its payments can be stored. -/
theorem onboarded_unserved :
    MerchantService.Onboarded (newMerchantRepository 1) (.onboarded (List.replicate 17 97)) ∧
      Payable (Deployment.sample .binary) (.mode true) (.onboarded (List.replicate 17 97))
        (.dollar (.onboarded (List.replicate 17 97))) ∧
      (dollarRun (List.replicate 17 97)).procs[0]? = some (.ret (.created (.error
        (.wrap (bytes "insert order: ") (.new (bytes "merchant_id too long: 17 bytes (max 16)")))))) ∧
      ¬ Excused (dollarRun (List.replicate 17 97)).hist 0 := by
  refine ⟨onboarded_of_trimmed (by decide) (by decide) (by decide), payable_dollar _ _ _,
    Prog.getElem?_of_result? (by decide +kernel), ?_⟩
  have hhist : (dollarRun (List.replicate 17 97)).hist =
      [⟨0, {}, .insert ((PaymentService.mode true).newRow (Deployment.sample .binary)
        (.onboarded (List.replicate 17 97)) (.dollar (.onboarded (List.replicate 17 97)))),
        .error (.new (bytes "merchant_id too long: 17 bytes (max 16)"))⟩] := rfl
  rintro (⟨hev, hfault⟩ | ⟨hev, hfault⟩ | ⟨hdup, hmem⟩ | ⟨hmem⟩)
  · rw [hhist, List.mem_singleton] at hev
    cases hev
    exact hfault rfl
  · rw [hhist, List.mem_singleton] at hev
    cases hev
  · obtain ⟨c, hev⟩ := exists_event hmem
    rw [hhist, List.mem_singleton] at hev
    cases hev
    exact absurd hdup (by decide)
  · obtain ⟨c, hev⟩ := exists_event hmem
    rw [hhist, List.mem_singleton] at hev
    cases hev

theorem onboarded_served_sample :
    MerchantService.Onboarded (newMerchantRepository 1) (.onboarded (bytes "m1")) ∧
      Insertable (Deployment.sample .binary) (.onboarded (bytes "m1")) ∧
      FailsExcused (Deployment.sample .binary) (.onboarded (bytes "m1")) := by
  have hM : MerchantService.Onboarded (newMerchantRepository 1) (.onboarded (bytes "m1")) :=
    onboarded_of_trimmed (by decide) (by decide) (by decide)
  have hrepo : (newMerchantRepository 1).logicalShardCount =
      (Deployment.sample .binary).router.logicalCount := rfl
  exact ⟨hM, (onboarded_served_iff hrepo hM).mpr (by decide)⟩

end EasyPay
