import EasyPay.Orders.Collapse
import EasyPay.Api.Jobs

/-!
# Accepted payments can be looked up

A merchant who was told 202 for a payment finds the order from then on: `GET /api/payments/:id` under the
same API key answers with the ids that came with the 202 and the amount that was asked for, whoever
inserted the row and whatever else the gateway is doing (`accepted_payment_visible`).
-/

namespace EasyPay

open GoStrings Ports Tables

/-! ## What a successful `Create` leaves behind -/

/-- The row a success is about is of the amount of the request. -/
theorem PaymentService.create_ok_amount {s : PaymentService} {D : Deployment}
    {inp : CreatePaymentInput} {M : Merchant} {t : Calls} {res : CreatePaymentResult}
    (hM : Accepts inp M) (h : Prog.Runs (s.create D inp) t (.ret (.ok res))) :
    (Op.insert (s.newRow D M inp)).gave (.ok ()) ∈ t ∨
      ∃ existing, (Op.getByTransactionID M.shardIndex M.merchantID
        (deriveTransactionID D M.merchantID inp.orderID)).gave (.ok existing) ∈ t ∧
          existing.amount = inp.amount := by
  rw [s.create_eq D hM] at h
  rcases Svc.runs_ask.mp h with ⟨rfl, hq⟩ | ⟨a, t', rfl, h'⟩
  · cases hq
  cases a with
  | ok u => exact .inl List.mem_cons_self
  | error e =>
    simp only at h'
    split at h'
    · cases h'
    obtain ⟨a, t'', rfl, ⟨e', rfl, hr⟩ | ⟨existing, rfl, ⟨-, hr⟩ | ⟨hsame, -⟩⟩⟩ :=
      s.answerRetry_ret D h'
    · cases hr
    · cases hr
    refine .inr ⟨existing, List.mem_cons_of_mem _ List.mem_cons_self, ?_⟩
    unfold sameMaterialPayment at hsame
    split at hsame
    · cases hsame
    · next hamount => exact not_not.mp hamount

section
variable {D : Deployment} {w : World} {js : List Job}

/-- The `Create` whose row a success is about. -/
theorem exists_winner (hD : CollapseSetup D js) (hw : ∀ p, w.pools p = []) {xs : List (Nat × Choice)}
    {i : Nat} {s : PaymentService} {inp : CreatePaymentInput} {M : Merchant}
    {res : CreatePaymentResult} (hj : js[i]? = some (.create s inp))
    (hM : PaymentService.Accepts inp M)
    (hres : (System.run D w js xs).procs[i]? = some (.ret (.created (.ok res)))) :
    ∃ i' s' inp' M', Won D js (System.run D w js xs).hist i' s' inp' M' ∧
      M'.merchantID = M.merchantID ∧ inp'.orderID = inp.orderID ∧ inp'.amount = inp.amount := by
  obtain ⟨q, hq, hr⟩ := System.run_runs D w js hj xs
  cases hres.symm.trans hq
  obtain ⟨r, hr, heq⟩ := Prog.runs_map_ret hr
  cases heq
  rcases PaymentService.create_ok_amount hM hr with hwon | ⟨existing, hmem, hamount⟩
  · exact ⟨i, s, inp, M, ⟨hj, hM, hwon⟩, rfl, rfl, rfl⟩
  · obtain ⟨ev, hev, hpid, hstep⟩ := mem_callsOf.mp hmem
    have hj' : js[ev.pid]? = some (.create s inp) := by rw [hpid, hj]
    rcases (lookups_invariant D js hw xs).finds_winner hD hev (congrArg Sigma.fst hstep) hj' hM with
      ⟨-, err, hstep'⟩ | ⟨existing', i', s', inp', M', hstep', hwon, hm, ho, hord⟩
    · cases Op.gave_inj.mp (hstep.symm.trans hstep')
    · cases Op.gave_inj.mp (hstep.symm.trans hstep')
      exact ⟨i', s', inp', M', hwon, hm, ho, hord.amount.symm.trans hamount⟩

/-- **A created order is found.** -/
theorem created_found (hD : CollapseSetup D js) (hw : ∀ p, w.pools p = []) {xs : List (Nat × Choice)}
    {i : Nat} {s : PaymentService} {inp : CreatePaymentInput} {M : Merchant}
    {res : CreatePaymentResult} (hj : js[i]? = some (.create s inp))
    (hM : PaymentService.Accepts inp M)
    (hres : (System.run D w js xs).procs[i]? = some (.ret (.created (.ok res)))) (pick : Nat) :
    ∃ order, D.getByMerchantOrderID none pick M.shardIndex M.merchantID inp.orderID
        (System.run D w js xs).world.pools = .ok order ∧
      order.orderID = res.orderID ∧ order.transactionID = res.transactionID ∧
      order.amount = inp.amount := by
  have hO := orders_invariant D js hw xs
  obtain ⟨hresO, hresT⟩ := created_ids hD (lookups_invariant D js hw xs) hj hM hres
  obtain ⟨i', s', inp', M', hwon, hm, ho, hamount⟩ := exists_winner hD hw hj hM hres
  obtain ⟨p, code, hp, hcode, hfacts⟩ := hO.row_of_won i' s' inp' M' hwon
  obtain ⟨y, hy, hyf⟩ := List.mem_map.mp hfacts
  have hshard : M'.shardIndex = M.shardIndex :=
    hD.fixed_shard s' inp' M' s inp M hwon.mem (List.mem_of_getElem? hj) hwon.2.1 hM hm
  have hym : y.merchantID = M.merchantID := (congrArg Facts.merchantID hyf).trans hm
  have hyo : y.orderID = inp.orderID := (congrArg Facts.orderID hyf).trans ho
  have hwhere : D.ofOrder M.merchantID inp.orderID y = true := by
    unfold TransactionRepo.ofOrder
    rw [hym, hyo, D.collation.refl, D.collation.refl]
    rfl
  obtain ⟨y', hy', hwhere', hquery⟩ := TransactionRepo.queryRow_none pick hy hwhere
  -- no other row is of this order
  have hsame : y' = y := by
    unfold TransactionRepo.ofOrder at hwhere'
    rw [hD.binary, Bool.and_eq_true] at hwhere'
    have hm' : y'.merchantID = M.merchantID := eq_of_beq hwhere'.1
    have ho' : y'.orderID = inp.orderID := eq_of_beq hwhere'.2
    obtain ⟨n, hn⟩ := List.mem_iff_getElem?.mp hy
    obtain ⟨n', hn'⟩ := List.mem_iff_getElem?.mp hy'
    obtain ⟨-, rfl⟩ := hO.one_row hD hn' hn (hm'.trans hym.symm) (ho'.trans hyo.symm)
    exact Option.some.inj (hn'.symm.trans hn)
  obtain ⟨t, ht⟩ := TransactionRepo.exists_scanTransaction y
  have hord := isOrderOf_of_scan (i := M.shardIndex) hcode hyf ht
  refine ⟨TransactionRepo.withShard M.shardIndex t, ?_, ?_, ?_, ?_⟩
  · unfold TransactionRepo.getByMerchantOrderID
    rw [(validateOrderID_ok_iff _).mpr hM.2.1, ← hshard, hp]
    simp only
    rw [hquery, hsame, ht]
    rfl
  · rw [hord.orderID, ho, hresO]
  · rw [hord.transactionID, hm, ho, hresT]
  · rw [hord.amount, hamount]

end

/-! ## Over HTTP -/

/-- The jobs of the workers. -/
def Job.isWorker : Job → Bool
  | .reconcile _ | .confirm _ | .listen _ => true
  | .create _ _ | .resolve _ _ _ | .process _ _ _ => false

/-- The gateway starts without orders and onboards nobody; the orders it is asked for have transaction
ids of their own. -/
structure Intake (D : Deployment) (S : Server) (as : List Activity) (w : World) : Prop where
  binary : D.collation = .binary
  empty : ∀ p, w.pools p = []
  onboarded : ∀ req, .request req ∈ as → S.endpoint req ≠ some .createMerchant
  workers : ∀ j, .worker j ∈ as → j.isWorker = true
  shard : ∀ M ∈ w.merchants, ∀ M' ∈ w.merchants, M.merchantID = M'.merchantID →
    M.shardIndex = M'.shardIndex
  separate : ∀ M ∈ w.merchants, ∀ M' ∈ w.merchants, ∀ req req' r r', .request req ∈ as →
    .request req' ∈ as → S.parsePayment req.body = .ok r → S.parsePayment req'.body = .ok r' →
    deriveTransactionID D M.merchantID r.orderID = deriveTransactionID D M'.merchantID r'.orderID →
    M.merchantID = M'.merchantID ∧ r.orderID = r'.orderID

section
variable {D : Deployment} {S : Server} {as : List Activity} {ps : List (Web Finish)} {w : WebWorld}

/-- What the status handler replies. -/
theorem getPayment_ret {id : Str} {M : Merchant} {t : Calls} {r : Reply}
    (hid : id ≠ []) (h : Prog.Runs (S.getPayment id M) t (.ret r)) :
    ∃ a, t = [(Op.getByMerchantOrderID M.shardIndex M.merchantID id).gave a] ∧
      ∀ order, a = .ok order → r = { status := 200, body := .order (S.statusOf order) } := by
  unfold Server.getPayment at h
  rw [if_neg hid] at h
  rcases Svc.runs_ask.mp h with ⟨rfl, hq⟩ | ⟨a, t', rfl, h'⟩
  · cases hq
  cases a with
  | error e =>
    simp only at h'
    split at h' <;>
    · cases h'
      exact ⟨.error e, rfl, fun order h => by cases h⟩
  | ok order =>
    cases h'
    refine ⟨.ok order, rfl, ?_⟩
    rintro order' ⟨⟩
    rfl

section
variable (hps : List.Forall₂ (fun a p => a.prog D S = some p) as ps)
  (hadmin : ∀ req, .request req ∈ as → S.endpoint req ≠ some .createMerchant)
include hps hadmin

theorem running_merchants (xs : List (Nat × Choice)) :
    (Running.run D w ps xs).world.world.merchants = w.world.merchants := by
  obtain ⟨js, xs', hcarried, -⟩ := exists_carried hps hadmin (.reconcile ⟨0, 0⟩) w xs
  rw [← hcarried.world]
  exact System.run_merchants D w.world js xs'

/-- A key is always found to be the same merchant's. -/
theorem key_found {xs : List (Nat × Choice)} {i : Nat} {key : Str} {M : Merchant}
    (hmem : Web.edgeGave (.getByAPIKey key) (.ok M) ∈ callsOf i (Running.run D w ps xs).hist) :
    MerchantLookup.query D.collation none (.byAPIKey key) w.world.merchants = .ok M := by
  obtain ⟨c, ys, -, hans⟩ := Sys.answered_since (webExec D) (s := Sys.start w ps) rfl hmem
  have hquery : .ok M = MerchantLookup.query D.collation c.fault (.byAPIKey key)
      (Running.run D w ps ys).world.world.merchants := hans
  rw [running_merchants hps hadmin] at hquery
  cases hfault : c.fault with
  | none => rw [hquery, hfault]
  | some f =>
    rw [hfault] at hquery
    cases hquery

end

/-- A payment is replied for a `Create` that went well. -/
theorem Says.created {out : Outcome} {reply : Reply} (h : Says out (.replied reply))
    {res : CreatePaymentResult} (hbody : reply.body = .payment res) : out = .created (.ok res) := by
  cases h with
  | payment r rate =>
    cases r with
    | ok res' =>
      cases hbody
      rfl
    | error e =>
      simp only [Server.paymentReply] at hbody
      split at hbody
      · cases hbody
      split at hbody <;> cases hbody
  | page r => cases hbody
  | event r => cases hbody

section
variable (hps : List.Forall₂ (fun a p => a.prog D S = some p) as ps)
  (hin : Intake D S as w.world)
include hps hin

/-- The state after `xs`, as the state of jobs whose orders have transaction ids of their own. -/
theorem exists_jobs_apart (xs : List (Nat × Choice)) :
    ∃ js xs', CollapseSetup D js ∧
      (System.run D w.world js xs').world = (Running.run D w ps xs).world.world ∧
      ∀ (i : Nat) (req : Request) (reply : Reply) (res : CreatePaymentResult),
        as[i]? = some (.request req) →
        (Running.run D w ps xs).procs[i]? = some (.ret (.replied reply)) → reply.body = .payment res →
          ∃ M r method, MerchantLookup.query D.collation none (.byAPIKey req.apiKey)
              w.world.merchants = .ok M ∧ S.parsePayment req.body = .ok r ∧
            js[i]? = some (.create S.payments (Server.paymentInput M r method)) ∧
            (System.run D w.world js xs').procs[i]? = some (.ret (.created (.ok res))) := by
  obtain ⟨js, xs', hcarried, -⟩ := exists_carried hps hin.onboarded (.reconcile ⟨0, 0⟩) w xs
  -- every creation is for a merchant of the table, and an order of a request
  have hcreate : ∀ s inp, Job.create s inp ∈ js → ∃ M ∈ w.world.merchants, ∃ req r method,
      .request req ∈ as ∧ S.parsePayment req.body = .ok r ∧ inp = Server.paymentInput M r method := by
    intro s inp hmem
    obtain ⟨i, hi⟩ := List.mem_iff_getElem?.mp hmem
    obtain ⟨a, ha⟩ : ∃ a, as[i]? = some a :=
      ⟨_, List.getElem?_eq_getElem (hcarried.jobs_length hps ▸ (List.getElem?_eq_some_iff.mp hi).1)⟩
    rcases hcarried.activity hps ha with ⟨hidle, -⟩ | ⟨t, j, hj, hjob, hcalls, -⟩
    · cases hi.symm.trans hidle
    cases hi.symm.trans hj
    cases hjob with
    | worker =>
      have := hin.workers _ (List.mem_of_getElem? ha)
      cases this
    | @payment req t M r hroute hauth hadm hparse =>
      have hfound : Web.edgeGave (.getByAPIKey req.apiKey) (.ok M) ∈
          callsOf i (Running.run D w ps xs).hist := by
        rw [hcalls]
        exact List.mem_append_left _ hauth.found
      exact ⟨M, MerchantLookup.mem_of_query (key_found hps hin.onboarded hfound), req, r, _,
        List.mem_of_getElem? ha, hparse, rfl⟩
  refine ⟨js, xs', ⟨hin.binary, ?_, ?_⟩, hcarried.world, ?_⟩
  · intro s inp M s' inp' M' hmem hmem' hM hM' hid
    obtain ⟨N, hN, req, r, method, -, -, rfl⟩ := hcreate s inp hmem
    obtain ⟨N', hN', req', r', method', -, -, rfl⟩ := hcreate s' inp' hmem'
    cases hM.1
    cases hM'.1
    exact hin.shard M hN M' hN' hid
  · intro s inp M s' inp' M' hmem hmem' hM hM' hid
    obtain ⟨N, hN, req, r, method, hreq, hparse, rfl⟩ := hcreate s inp hmem
    obtain ⟨N', hN', req', r', method', hreq', hparse', rfl⟩ := hcreate s' inp' hmem'
    cases hM.1
    cases hM'.1
    exact hin.separate M hN M' hN' req req' r r' hreq hreq' hparse hparse' hid
  · intro i req reply res hreq hret hbody
    rcases hcarried.activity hps hreq with ⟨-, -, hplain⟩ | ⟨t, j, hj, hjob, hcalls, hout⟩
    · obtain ⟨_, reply', -, hfin, hplain | ⟨-, _, _, _, _, -, hrefund⟩⟩ := hplain _ hret
      · cases hfin
        rw [hbody] at hplain
        exact hplain.elim
      · cases hfin
        cases hbody.symm.trans hrefund
    obtain ⟨out, hout, hsays⟩ := hout _ hret
    obtain rfl := hsays.created hbody
    obtain ⟨q, hq, hruns⟩ := System.run_runs D w.world js hj xs'
    cases hout.symm.trans hq
    cases hjob with
    | @payment _ _ M r hroute hauth hadm hparse =>
      have hfound : Web.edgeGave (.getByAPIKey req.apiKey) (.ok M) ∈
          callsOf i (Running.run D w ps xs).hist := by
        rw [hcalls]
        exact List.mem_append_left _ hauth.found
      exact ⟨M, r, _, key_found hps hin.onboarded hfound, hparse, hj, hout⟩
    -- other jobs have other outcomes
    | checkout _ _ =>
      obtain ⟨_, -, h⟩ := Prog.runs_map_ret hruns
      cases h
    | event _ =>
      obtain ⟨_, -, h⟩ := Prog.runs_map_ret hruns
      cases h

/-- In every state in which a payment has been accepted, its order is there. -/
theorem accepted_found {xs : List (Nat × Choice)} {i : Nat} {req : Request} {reply : Reply}
    {res : CreatePaymentResult} (hreq : as[i]? = some (.request req))
    (haccepted : (Running.run D w ps xs).procs[i]? = some (.ret (.replied reply)))
    (hbody : reply.body = .payment res) :
    ∃ M r, MerchantLookup.query D.collation none (.byAPIKey req.apiKey) w.world.merchants = .ok M ∧
      S.parsePayment req.body = .ok r ∧ res.orderID ≠ [] ∧ ∀ pick, ∃ order,
        D.getByMerchantOrderID none pick M.shardIndex M.merchantID res.orderID
          (Running.run D w ps xs).world.world.pools = .ok order ∧
        order.orderID = res.orderID ∧ order.transactionID = res.transactionID ∧
        order.amount = r.amount := by
  obtain ⟨js, xs', hD, hworld, hjobs⟩ := exists_jobs_apart hps hin xs
  obtain ⟨M, r, method, hM, hparse, hj, hout⟩ := hjobs i req reply res hreq haccepted hbody
  obtain ⟨q, hq, hruns⟩ := System.run_runs D w.world js hj xs'
  cases hout.symm.trans hq
  obtain ⟨_, hruns, h⟩ := Prog.runs_map_ret hruns
  cases h
  obtain ⟨M', hacc, -⟩ := S.payments.create_ok D hruns
  cases hacc.1
  obtain ⟨hid, -⟩ := created_ids hD (lookups_invariant D js hin.empty xs') hj hacc hout
  have hfound := created_found hD hin.empty hj hacc hout
  rw [← hworld, hid]
  have hne : (Server.paymentInput M r method).orderID ≠ [] := hacc.2.1.1
  refine ⟨M, r, hM, hparse, hne, fun pick => ?_⟩
  obtain ⟨order, hlookup, horder, htxn, hamount⟩ := hfound pick
  exact ⟨order, hlookup, horder.trans hid, htxn, hamount⟩

/-- **Accepted payments can be looked up.**  Once a payment has been accepted, a request for its order
under the same key that starts then and meets no failure is answered with the order, unless it is not
let through. -/
theorem accepted_payment_visible {xs ys : List (Nat × Choice)} {i g : Nat} {req get : Request}
    {reply reply' : Reply} {res : CreatePaymentResult} (hreq : as[i]? = some (.request req))
    (hget : as[g]? = some (.request get)) (hroute : S.endpoint get = some (.getPayment res.orderID))
    (hkey : get.apiKey = req.apiKey)
    (haccepted : (Running.run D w ps xs).procs[i]? = some (.ret (.replied reply)))
    (hbody : reply.body = .payment res) (hlater : callsOf g (Running.run D w ps xs).hist = [])
    (hok : ∀ c, (g, c) ∈ ys → c.fault = none)
    (hdone : (Running.run D w ps (xs ++ ys)).procs[g]? = some (.ret (.replied reply'))) :
    reply'.status = 401 ∨ reply'.status = 429 ∨
      (reply'.status = 200 ∧ ∃ out r, reply'.body = .order out ∧ S.parsePayment req.body = .ok r ∧
        out.orderID = res.orderID ∧ out.transactionID = res.transactionID ∧
        out.amount = r.amount) := by
  -- what the request has done
  obtain ⟨p, hp, hprog⟩ := getElem?_of_forall₂ hps hget
  obtain ⟨q, hq, hruns⟩ := Sys.run_runs (P := web) (webExec D) w ps (xs ++ ys) hp
  cases hdone.symm.trans hq
  obtain ⟨p', hserve, rfl⟩ := Option.map_eq_some_iff.mp hprog
  have hp' : p' = S.merchantAPI D get (S.getPayment res.orderID) := by
    obtain ⟨e, he, hresp⟩ := Option.bind_eq_some_iff.mp hserve
    cases he.symm.trans hroute
    exact (Option.some.inj hresp).symm
  subst hp'
  obtain ⟨_, hruns, hfin⟩ := Prog.runs_map_ret hruns
  cases hfin
  obtain ⟨t₀, -, ⟨-, hstatus⟩ | ⟨M, t₁, rate, r, hcalls, hfound, hhandler, rfl⟩⟩ := merchantAPI_ret hruns
  · exact hstatus.imp_right .inl
  refine .inr (.inr ?_)
  have hcalls : callsOf g (Running.run D w ps (xs ++ ys)).hist = t₀ ++ t₁.map Prog.Step.inl := hcalls
  have hfound : Web.edgeGave (.getByAPIKey get.apiKey) (.ok M) ∈
      callsOf g (Running.run D w ps (xs ++ ys)).hist := hcalls ▸ List.mem_append_left _ hfound
  have hM := key_found hps hin.onboarded hfound
  obtain ⟨-, -, -, -, hne, -⟩ := accepted_found hps hin hreq haccepted hbody
  obtain ⟨a, rfl, hreply⟩ := getPayment_ret hne hhandler
  -- the lookup was made after the payment had been accepted
  have hlookup : Web.gave (.getByMerchantOrderID M.shardIndex M.merchantID res.orderID) a ∈
      callsOf g (Running.run D w ps (xs ++ ys)).hist := by
    rw [hcalls]
    exact List.mem_append_right _ List.mem_cons_self
  have hrun : ∀ zs, Running.run D w ps (xs ++ zs) = Sys.run (webExec D) (Running.run D w ps xs) zs :=
    Sys.run_append (P := web) (webExec D) _ xs
  rw [hrun] at hlookup
  obtain ⟨c, ys₁, hc, hans⟩ := Sys.answered_since (webExec D) hlater hlookup
  have hstill : (Running.run D w ps (xs ++ ys₁)).procs[i]? = some (.ret (.replied reply)) := by
    rw [hrun]
    exact Sys.run_returned (webExec D) haccepted ys₁
  obtain ⟨M', r', hM', hparse, -, hfound'⟩ := accepted_found hps hin hreq hstill hbody
  rw [hkey] at hM
  cases hM.symm.trans hM'
  obtain ⟨order, hfind, horder, htxn, hamount⟩ := hfound' (c.pick 0)
  have hfault : c.fault = none := hok c hc
  have hans : a = D.getByMerchantOrderID c.fault (c.pick 0) M.shardIndex M.merchantID res.orderID
      (Running.run D w ps (xs ++ ys₁)).world.world.pools := by
    rw [hrun]
    exact hans
  rw [hfault, hfind] at hans
  obtain rfl := hreply order hans
  exact ⟨rfl, S.statusOf order, r', rfl, hparse, horder, htxn, hamount⟩

end

end

/-! ## A payment that is looked up -/

/-- A request for the order of `Request.payment`, with the same credentials. -/
def Request.status : Request :=
  { Request.payment with method := .get, target := bytes "/api/payments/o-1" }

def paymentAndStatus : List Activity := [.request .payment, .request .status]

def paymentAndStatusProgs : List (Web Finish) :=
  [paymentProg >>= fun reply => .ret (.replied reply),
    Server.merchantAPI (.sample .binary) .sample .status (Server.sample.getPayment (bytes "o-1")) >>=
      fun reply => .ret (.replied reply)]

theorem endpoint_status : Server.sample.endpoint .status = some (.getPayment (bytes "o-1")) := by decide

theorem prog_paymentAndStatus :
    List.Forall₂ (fun a p => Activity.prog (.sample .binary) .sample a = some p) paymentAndStatus
      paymentAndStatusProgs := by
  cases serve_payment with
  | cons hserve _ =>
    have hstatus : Server.serve (.sample .binary) .sample .status = some (Server.merchantAPI
        (.sample .binary) .sample .status (Server.sample.getPayment (bytes "o-1"))) := by
      show Option.bind (Server.sample.endpoint .status) _ = _
      rw [endpoint_status]
      rfl
    refine .cons ?_ (.cons ?_ .nil)
    · simp only [Activity.prog, hserve, Option.map_some]
    · simp only [Activity.prog, hstatus, Option.map_some]

theorem intake_paymentAndStatus :
    Intake (.sample .binary) .sample paymentAndStatus WebWorld.sample.world where
  binary := rfl
  empty _ := rfl
  onboarded req hreq := by
    rcases List.mem_pair.mp hreq with h | h
    · cases h
      decide
    · cases h
      decide
  workers j hj := by
    rcases List.mem_pair.mp hj with h | h <;> cases h
  shard M hM M' hM' _ := by
    rw [List.mem_singleton.mp hM, List.mem_singleton.mp hM']
  separate M hM M' hM' req req' r r' _ _ hr hr' _ := by
    cases hr
    cases hr'
    rw [List.mem_singleton.mp hM, List.mem_singleton.mp hM']
    exact ⟨rfl, rfl⟩

/-- Four calls of one request. -/
def callsBy (i : Nat) : List (Nat × Choice) := List.replicate 4 (i, { now := unixEpoch })

/-- The payment is accepted, then its order is asked for. -/
def lookedUp (xs : List (Nat × Choice)) : Running :=
  Running.run (.sample .binary) .sample paymentAndStatusProgs xs

/-- The status a request was answered with, and the order id of an accepted payment. -/
def Running.repliedTo (s : Running) (i : Nat) : Option (Nat × Option Str) :=
  match s.procs[i]? with
  | some (.ret (.replied reply)) =>
    some (reply.status, match reply.body with
      | .payment res => some res.orderID
      | _ => none)
  | _ => none

theorem Running.exists_reply {s : Running} {i status : Nat} {id : Option Str}
    (h : s.repliedTo i = some (status, id)) :
    ∃ reply, s.procs[i]? = some (.ret (.replied reply)) ∧ reply.status = status ∧
      ∀ o, id = some o → ∃ res, reply.body = .payment res ∧ res.orderID = o := by
  unfold repliedTo at h
  split at h
  · next reply hreply =>
    cases h
    refine ⟨reply, hreply, rfl, fun o ho => ?_⟩
    split at ho
    · next res hres =>
      cases ho
      exact ⟨res, hres, rfl⟩
    · cases ho
  · cases h

theorem accepted_payment_visible_status :
    ∃ reply', (lookedUp (callsBy 0 ++ callsBy 1)).procs[1]? = some (.ret (.replied reply')) ∧
      reply'.status = 200 ∧ ∃ out r, reply'.body = .order out ∧
        Server.sample.parsePayment Request.payment.body = .ok r ∧ out.orderID = bytes "o-1" ∧
        out.amount = r.amount := by
  have hfirst : (lookedUp (callsBy 0)).repliedTo 0 = some (202, some (bytes "o-1")) := by
    decide +kernel
  have hlater : callsOf 1 (lookedUp (callsBy 0)).hist = [] := by decide +kernel
  have hsecond : (lookedUp (callsBy 0 ++ callsBy 1)).repliedTo 1 = some (200, none) := by
    decide +kernel
  obtain ⟨reply, haccepted, -, hid⟩ := Running.exists_reply hfirst
  obtain ⟨res, hbody, hres⟩ := hid _ rfl
  obtain ⟨reply', hdone, hstatus, -⟩ := Running.exists_reply hsecond
  have hok : ∀ c, (1, c) ∈ callsBy 1 → c.fault = none := by
    intro c hc
    cases List.eq_of_mem_replicate hc
    rfl
  have hreq : paymentAndStatus[0]? = some (.request .payment) := rfl
  have hget : paymentAndStatus[1]? = some (.request .status) := rfl
  have hroute : Server.sample.endpoint .status = some (.getPayment res.orderID) := by
    rw [hres]
    exact endpoint_status
  unfold lookedUp at *
  rcases accepted_payment_visible prog_paymentAndStatus intake_paymentAndStatus hreq hget hroute rfl
    haccepted hbody hlater hok hdone with h | h | ⟨-, out, r, h⟩
  · cases hstatus.symm.trans h
  · cases hstatus.symm.trans h
  · exact ⟨reply', hdone, hstatus, out, r, h.1, h.2.1, h.2.2.1.trans hres, h.2.2.2.2⟩

end EasyPay
