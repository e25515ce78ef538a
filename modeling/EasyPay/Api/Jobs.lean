import EasyPay.Lib.Wrapping
import EasyPay.Api.Mediation

/-!
# The gateway as its jobs

`cmd/server/main.go` serves requests and runs its workers at the same time.  Seen from the database,
from Redis, from Kafka and from the sessions at Stripe, what a request does is a job of the services
(`JobOf`): a creation for the merchant who signed it, a checkout for the link that was followed, the
processing of an event.  Everything else it does leaves the `World` alone.  That goes for a refund as
well, which is made at Stripe and is not part of the `World`: a reply of the refund route speaks of one
that Stripe has made (`RefundMade`).

So a run of the gateway is a run of jobs (`gateway_runs_jobs`), and what holds in every state that jobs
can reach holds in every state that requests can reach.
-/

namespace EasyPay

open GoStrings Ports Tables

/-- What goes on in the gateway. -/
inductive Activity
  | request (req : Request)
  | worker (j : Job)

/-- How an activity ends. -/
inductive Finish
  | replied (reply : Reply)
  | worked (out : Outcome)

/-- The program of an activity; a request may be for no route. -/
def Activity.prog (D : Deployment) (S : Server) : Activity → Option (Web Finish)
  | .request req => (S.serve D req).map fun p => p >>= fun reply => .ret (.replied reply)
  | .worker j => some (Web.svc (j.prog D) >>= fun out => .ret (.worked out))

abbrev Running := Sys web WebWorld Choice Finish

/-- The state after the schedule `xs`. -/
def Running.run (D : Deployment) (w : WebWorld) (ps : List (Web Finish)) (xs : List (Nat × Choice)) :
    Running :=
  Sys.run (webExec D) (Sys.start w ps) xs

/-! ## Which job a request is -/

section
variable (D : Deployment) (S : Server)

/-- The job of an activity that has made the calls `t`. -/
inductive JobOf : Activity → List (Prog.Step web) → Job → Prop
  | worker (j : Job) : JobOf (.worker j) [] j
  | payment {req : Request} {t : List (Prog.Step web)} {M : Merchant} {r : CreatePaymentRequest} :
      S.endpoint req = some .createPayment → Authenticated D S req t M → Admitted t M →
      S.parsePayment req.body = .ok r →
      JobOf (.request req) t (.create S.payments (Server.paymentInput M r
        (Target.value (bytes "method") (Target.query req.target))))
  | checkout {req : Request} {t : List (Prog.Step web)} {m o : Str} :
      S.endpoint req = some (.pay m o) → LinkToken D S req t m o →
      JobOf (.request req) t (.resolve S.checkout.resolver m o)
  | event {req : Request} : S.endpoint req = some .stripeWebhook →
      JobOf (.request req) [] (.process S.webhooks req.body req.stripeSignature)

end

/-- The page for what `Resolve` returns. -/
def pageOf : Res Str → CheckoutResponse
  | .ok url => .redirect url
  | .error e =>
    if e.is .orderNotFound then .notFound
    else if e.is .orderNotReady then .notReady
    else .unavailable

/-- What is replied for the outcome of a job. -/
inductive Says : Outcome → Finish → Prop
  | payment (r : Res CreatePaymentResult) (rate : Option (Str × Str)) :
      Says (.created r) (.replied { Server.paymentReply r with rate := rate })
  | page (r : Res Str) : Says (.resolved r) (.replied (Server.pageReply (pageOf r)))
  | event (r : Res Unit) : Says (.processed r) (.replied (Server.webhookReply (webhookResponse r)))
  | worked (out : Outcome) : Says out (.worked out)

/-- Replies that tell of nothing done. -/
def ReplyBody.Plain : ReplyBody → Prop
  | .payment _ | .webhook _ | .refund _ | .merchant _ => False
  | .page p => p = .invalid
  | .error _ _ | .order _ => True

/-- A reply that tells of a refund Stripe has made in the calls `t`. -/
def RefundMade (t : List (Prog.Step web)) (body : ReplyBody) : Prop :=
  ∃ r key refund orderID, Web.gave (.createRefund r key) (.ok refund) ∈ t ∧
    body = .refund ⟨orderID, refund.id, refund.status, refund.amount, refund.currency⟩

/-- What is replied without a job, after the calls `t`. -/
def WithoutJob (S : Server) (req : Request) (t : List (Prog.Step web)) (body : ReplyBody) : Prop :=
  body.Plain ∨ (∃ id, S.endpoint req = some (.refundPayment id)) ∧ RefundMade t body

/-- A request around its job. -/
def Request.wrapper (D : Deployment) (S : Server) (req : Request) :
    Prog.Wrapper gateway edge Job Reply Outcome where
  quiet o := ∀ c w, (webExec D o c w).2.world = w.world
  job t j := JobOf D S (.request req) t j
  result t out reply :=
    match out with
    | some out => Says out (.replied reply)
    | none => WithoutJob S req t reply.body

def Activity.wrapper (D : Deployment) (S : Server) (a : Activity) :
    Prog.Wrapper gateway edge Job Finish Outcome where
  quiet o := ∀ c w, (webExec D o c w).2.world = w.world
  job t j := JobOf D S a t j
  result t out fin :=
    match out with
    | some out => Says out fin
    | none => ∃ req reply, a = .request req ∧ fin = .replied reply ∧ WithoutJob S req t reply.body

section
variable {D : Deployment} {S : Server} {req : Request}

/-! ## Requests wrap jobs -/

/-- Behind the middleware, which is quiet. -/
theorem merchantAPI_wraps {handler : Merchant → Svc Reply}
    (h : ∀ M t rate, Authenticated D S req t M → Admitted t M →
      Prog.Wraps (Job.prog D) (req.wrapper D S) t
        (Web.svc (handler M >>= fun reply => .ret { reply with rate := rate }))) :
    Prog.Wraps (Job.prog D) (req.wrapper D S) [] (S.merchantAPI D req handler) := by
  unfold Server.merchantAPI
  refine Prog.wraps_bind (hmacAuth_meets (D := D) (S := S) (fun _ _ => rfl) fun _ _ _ => rfl)
    fun t a ha => ?_
  cases a with
  | unauthorized code msg => exact .ret (.inl trivial)
  | next M =>
    refine Prog.wraps_bind (rateLimit_meets fun _ _ => rfl) fun t' r hr => ?_
    obtain ⟨hsub, hadmitted⟩ := hr
    obtain ⟨rate, allowed⟩ := r
    cases allowed with
    | false => exact .ret (.inl trivial)
    | true =>
      have hwraps := h M t' rate ((ha M rfl).mono hsub) (hadmitted rfl)
      rwa [Web.svc, Prog.inl_bind] at hwraps

theorem createPayment_wraps (hroute : S.endpoint req = some .createPayment) (M : Merchant)
    (t : List (Prog.Step web)) (rate : Option (Str × Str)) (hauth : Authenticated D S req t M)
    (hadmitted : Admitted t M) :
    Prog.Wraps (Job.prog D) (req.wrapper D S) t
      (Web.svc (S.createPayment D req M >>= fun reply => .ret { reply with rate := rate })) := by
  unfold Server.createPayment
  split
  · exact .ret (.inl trivial)
  next r hparse =>
  -- the reply to any other outcome does not matter
  let reply : Outcome → Reply
    | .created res => { Server.paymentReply res with rate := rate }
    | _ => fail 500 [] []
  rw [Prog.bind_bind]
  exact Prog.wraps_job (g := Outcome.created) rfl reply (fun _ => rfl)
    (.payment hroute hauth hadmitted hparse) fun res => .payment res rate

/-- A handler that leaves the world alone. -/
theorem quiet_wraps {p : Svc Reply} {t : List (Prog.Step web)} {rate : Option (Str × Str)}
    (h : Prog.Meets (P := gateway) (fun _ o => ∀ c w, (exec D o c w).2 = w)
      (fun t reply => WithoutJob S req (t.map Prog.Step.inl) reply.body) p []) :
    Prog.Wraps (Job.prog D) (req.wrapper D S) t (Web.svc (p >>= fun reply => .ret { reply with rate := rate })) := by
  rw [Web.svc, Prog.inl_bind]
  refine Prog.wraps_bind (S := fun t (reply : Reply) => WithoutJob S req t reply.body) ?_
    fun t reply hreply => .ret (show WithoutJob S req t reply.body from hreply)
  refine Prog.meets_inl (fun t' o k hr c w => h.call hr c w.world) fun t' reply hr => ?_
  refine (h.ret hr).imp_right fun hrefund => hrefund.imp_right ?_
  rintro ⟨r, key, refund, orderID, hmem, hbody⟩
  exact ⟨r, key, refund, orderID, List.mem_append_right _ hmem, hbody⟩

theorem getPayment_quiet (id : Str) (M : Merchant) :
    Prog.Meets (P := gateway) (fun _ o => ∀ c w, (exec D o c w).2 = w)
      (fun t reply => WithoutJob S req (t.map Prog.Step.inl) reply.body) (S.getPayment id M) [] := by
  unfold Server.getPayment
  split
  · exact .inl trivial
  refine Svc.meets_ask (fun _ _ => rfl) fun a => ?_
  cases a with
  | error e =>
    simp only
    split
    · exact .inl trivial
    · exact .inl trivial
  | ok order => exact .inl trivial

/-- What `CreateRefund` returns is a refund that Stripe has made. -/
theorem createRefund_quiet (inp : RefundInput) :
    Prog.Meets (P := gateway) (fun _ o => ∀ c w, (exec D o c w).2 = w)
      (fun t a => ∀ res, a = .ok res → RefundMade (t.map Prog.Step.inl) (.refund res))
      (WebhookService.createRefund inp) [] := by
  unfold WebhookService.createRefund
  split
  · exact fun _ h => by cases h
  split
  · exact fun _ h => by cases h
  refine Svc.meets_ask (fun _ _ => rfl) fun a => ?_
  cases a with
  | error e => exact fun _ h => by cases h
  | ok order =>
    simp only
    split
    · exact fun _ h => by cases h
    refine Svc.meets_ask (fun _ _ => rfl) fun b => ?_
    cases b with
    | error e => exact fun _ h => by cases h
    | ok refund =>
      rintro _ ⟨⟩
      exact ⟨inp.request order, inp.key order, refund, order.orderID,
        List.mem_map_of_mem List.mem_concat_self, rfl⟩

theorem refundPayment_quiet {id : Str} (hroute : S.endpoint req = some (.refundPayment id))
    (M : Merchant) :
    Prog.Meets (P := gateway) (fun _ o => ∀ c w, (exec D o c w).2 = w)
      (fun t reply => WithoutJob S req (t.map Prog.Step.inl) reply.body) (S.refundPayment req id M)
      [] := by
  unfold Server.refundPayment RefundHandler.create
  simp only
  split
  · exact .inl trivial
  refine Prog.meets_bind (R := fun t res => ∀ r, res = .accepted r →
    RefundMade (t.map Prog.Step.inl) (.refund r))
    (Prog.meets_bind (createRefund_quiet _) fun t a ha => ?_) fun t res hres => ?_
  · cases a with
    | error e => exact fun _ h => by cases h
    | ok r =>
      rintro _ ⟨⟩
      exact ha r rfl
  · cases res with
    | accepted r => exact .inr ⟨⟨id, hroute⟩, hres r rfl⟩
    | unauthorized code msg => exact .inl trivial
    | badRequest code msg => exact .inl trivial
    | internalError code msg => exact .inl trivial

theorem answer_eq (h : CheckoutHandler) (m o : Str) :
    h.answer D m o = h.resolver.resolve D.unicode m o >>= fun r => .ret (pageOf r) := by
  unfold CheckoutHandler.answer
  refine congrArg (h.resolver.resolve D.unicode m o >>= ·) (funext fun r => ?_)
  cases r with
  | ok url => rfl
  | error e =>
    simp only [pageOf]
    split
    · rfl
    split
    · rfl
    · rfl

theorem answer_wraps {m o : Str} {t : List (Prog.Step web)} (hroute : S.endpoint req = some (.pay m o))
    (htoken : LinkToken D S req t m o) :
    Prog.Wraps (Job.prog D) (req.wrapper D S) t
      (Web.svc (S.checkout.answer D m o >>= fun page => .ret (Server.pageReply page))) := by
  let reply : Outcome → Reply
    | .resolved r => Server.pageReply (pageOf r)
    | _ => fail 500 [] []
  rw [answer_eq, Prog.bind_bind]
  exact Prog.wraps_job (g := Outcome.resolved) rfl reply (fun _ => rfl) (.checkout hroute htoken)
    fun r => .page r

theorem redirect_wraps {m o : Str} (hroute : S.endpoint req = some (.pay m o)) :
    Prog.Wraps (Job.prog D) (req.wrapper D S) [] (Web.svc (S.checkout.redirect D m o
      (Target.value (bytes "t") (Target.query req.target)) >>= fun page =>
        .ret (Server.pageReply page))) := by
  unfold CheckoutHandler.redirect
  split
  · exact .ret (.inl rfl)
  split
  · next hsecret => exact answer_wraps hroute (.inl hsecret)
  split
  · exact .ret (.inl rfl)
  refine .call (fun _ _ => rfl) fun now => ?_
  cases hverify : CheckoutToken.verify D.hmacSHA256 now S.checkout.tokenSecret m o
      (Target.value (bytes "t") (Target.query req.target)) with
  | error e =>
    simp only [Prog.bind, hverify]
    exact .ret (.inl rfl)
  | ok _ =>
    simp only [Prog.bind, hverify]
    exact answer_wraps hroute (.inr ⟨now, by simp, hverify⟩)

theorem process_wraps (hroute : S.endpoint req = some .stripeWebhook) :
    Prog.Wraps (Job.prog D) (req.wrapper D S) [] (Web.svc (S.webhooks.process req.body req.stripeSignature >>=
      fun r => .ret (Server.webhookReply (webhookResponse r)))) := by
  let reply : Outcome → Reply
    | .processed r => Server.webhookReply (webhookResponse r)
    | _ => fail 500 [] []
  exact Prog.wraps_job (g := Outcome.processed) rfl reply (fun _ => rfl) (.event hroute)
    fun r => .event r

theorem serve_wraps {p : Web Reply} (h : S.serve D req = some p)
    (hadmin : S.endpoint req ≠ some .createMerchant) : Prog.Wraps (Job.prog D) (req.wrapper D S) [] p := by
  obtain ⟨e, hroute, he⟩ := Option.bind_eq_some_iff.mp h
  cases e with
  | createPayment =>
    cases he
    exact merchantAPI_wraps (createPayment_wraps hroute)
  | getPayment id =>
    cases he
    exact merchantAPI_wraps fun M t rate _ _ => quiet_wraps (getPayment_quiet id M)
  | refundPayment id =>
    cases he
    exact merchantAPI_wraps fun M t rate _ _ => quiet_wraps (refundPayment_quiet hroute M)
  | createMerchant => exact absurd hroute hadmin
  | stripeWebhook =>
    cases he
    exact process_wraps hroute
  | pay m o =>
    cases he
    exact redirect_wraps hroute

theorem activity_wraps {a : Activity} {p : Web Finish} (h : a.prog D S = some p)
    (hadmin : ∀ req, a = .request req → S.endpoint req ≠ some .createMerchant) :
    Prog.Wraps (Job.prog D) (a.wrapper D S) [] p := by
  cases a with
  | request req =>
    obtain ⟨p', hserve, rfl⟩ := Option.map_eq_some_iff.mp h
    refine (serve_wraps hserve (hadmin req rfl)).map Finish.replied (fun _ ho => ho) (fun _ _ hj => hj)
      fun t out reply hres => ?_
    cases out with
    | none => exact ⟨req, reply, rfl, rfl, hres⟩
    | some out => exact hres
  | worker j =>
    cases h
    exact .job (.worker j) fun _ out _ => .worked out

/-- The wrappers of the activities, by their place. -/
def wrapperAt (D : Deployment) (S : Server) (as : List Activity) (idle : Job) (i : Nat) :
    Prog.Wrapper gateway edge Job Finish Outcome :=
  (as.getD i (.worker idle)).wrapper D S

theorem wrapperAt_of_getElem? {as : List Activity} {i : Nat} {a : Activity} (idle : Job)
    (ha : as[i]? = some a) : wrapperAt D S as idle i = a.wrapper D S := by
  unfold wrapperAt
  rw [List.getD_eq_getElem?_getD, ha]
  rfl

/-- The activities have come as far as the jobs `js` under the schedule `xs'`. -/
def Carried (D : Deployment) (S : Server) (as : List Activity) (idle : Job) (w : WebWorld)
    (T : Running) (js : List Job) (xs' : List (Nat × Choice)) : Prop :=
  Sys.Carries (Job.prog D) idle (wrapperAt D S as idle) WebWorld.world (exec D) w.world T js xs'

section
variable {as : List Activity} {ps : List (Web Finish)}
  (hps : List.Forall₂ (fun a p => a.prog D S = some p) as ps) {idle : Job} {w : WebWorld}
  {xs xs' : List (Nat × Choice)} {js : List Job}

include hps in
theorem exists_carried
    (hadmin : ∀ req, .request req ∈ as → S.endpoint req ≠ some .createMerchant) (idle : Job)
    (w : WebWorld) (xs : List (Nat × Choice)) :
    ∃ js xs', Carried D S as idle w (Running.run D w ps xs) js xs' ∧ xs'.Sublist xs := by
  have hwraps : ∀ i p, ps[i]? = some p → Prog.Wraps (Job.prog D) (wrapperAt D S as idle i) [] p := by
    intro i p hp
    obtain ⟨a, ha, hprog⟩ := getElem?_of_forall₂ hps.flip hp
    rw [wrapperAt_of_getElem? idle ha]
    refine activity_wraps hprog fun req hreq => hadmin req ?_
    rw [← hreq]
    exact List.mem_of_getElem? ha
  exact Sys.exists_run_inside (webExec D) (exec D) WebWorld.world (fun o c w => ⟨rfl, rfl⟩)
    (fun i o ho => ho) idle hwraps w xs

theorem Carried.world (h : Carried D S as idle w (Running.run D w ps xs) js xs') :
    (System.run D w.world js xs').world = (Running.run D w ps xs).world.world :=
  Sys.Carries.world h

include hps in
theorem Carried.jobs_length (h : Carried D S as idle w (Running.run D w ps xs) js xs') :
    js.length = as.length := by
  rw [Sys.Carries.length h, Running.run, Sys.run_procs_length, hps.length_eq]

include hps in
/-- An activity is before its job, and what it may reply then is without one; or it is in it. -/
theorem Carried.activity (h : Carried D S as idle w (Running.run D w ps xs) js xs') {i : Nat}
    {a : Activity} (ha : as[i]? = some a) :
    (js[i]? = some idle ∧ callsOf i (System.run D w.world js xs').hist = [] ∧
      ∀ fin, (Running.run D w ps xs).procs[i]? = some (.ret fin) →
        ∃ req reply, a = .request req ∧ fin = .replied reply ∧
          WithoutJob S req (callsOf i (Running.run D w ps xs).hist) reply.body) ∨
    ∃ t j, js[i]? = some j ∧ JobOf D S a t j ∧
      callsOf i (Running.run D w ps xs).hist =
        t ++ (callsOf i (System.run D w.world js xs').hist).map Prog.Step.inl ∧
      ∀ fin, (Running.run D w ps xs).procs[i]? = some (.ret fin) →
        ∃ out, (System.run D w.world js xs').procs[i]? = some (.ret out) ∧ Says out fin := by
  obtain ⟨p₀, hp₀, -⟩ := getElem?_of_forall₂ hps ha
  obtain ⟨p, hp, -⟩ := Sys.run_runs (P := web) (webExec D) w ps xs hp₀
  have hat := Sys.Carries.within h hp
  rw [wrapperAt_of_getElem? idle ha] at hat
  rcases hat with ⟨hidle, hnone, hplain⟩ | ⟨t, j, hj, hjob, hcalls, hret⟩
  · refine .inl ⟨hidle, hnone, fun fin hfin => ?_⟩
    exact hplain fin (Option.some.inj (hp.symm.trans hfin))
  · refine .inr ⟨t, j, hj, hjob, hcalls, fun fin hfin => ?_⟩
    exact hret fin (Option.some.inj (hp.symm.trans hfin))

end

/-- **A run of the gateway is a run of jobs.**  What requests and workers do to the world, jobs do
under a part of their schedule.  Each activity either leaves the world alone and does not claim
otherwise, but for a refund that Stripe has made, its job put down as `idle`; or it has come to its job:
it has made quiet calls and then those of the job, and when it is over, so is the job, and the reply says
what came of it. -/
theorem gateway_runs_jobs {as : List Activity} {ps : List (Web Finish)}
    (hps : List.Forall₂ (fun a p => a.prog D S = some p) as ps)
    (hadmin : ∀ req, .request req ∈ as → S.endpoint req ≠ some .createMerchant) (idle : Job)
    (w : WebWorld) (xs : List (Nat × Choice)) :
    ∃ (js : List Job) (xs' : List (Nat × Choice)), js.length = as.length ∧ xs'.Sublist xs ∧
      (System.run D w.world js xs').world = (Running.run D w ps xs).world.world ∧
      ∀ i a, as[i]? = some a →
        (js[i]? = some idle ∧ callsOf i (System.run D w.world js xs').hist = [] ∧
          ∀ fin, (Running.run D w ps xs).procs[i]? = some (.ret fin) →
            ∃ req reply, a = .request req ∧ fin = .replied reply ∧
              WithoutJob S req (callsOf i (Running.run D w ps xs).hist) reply.body) ∨
        ∃ t j, js[i]? = some j ∧ JobOf D S a t j ∧
          callsOf i (Running.run D w ps xs).hist =
            t ++ (callsOf i (System.run D w.world js xs').hist).map Prog.Step.inl ∧
          ∀ fin, (Running.run D w ps xs).procs[i]? = some (.ret fin) →
            ∃ out, (System.run D w.world js xs').procs[i]? = some (.ret out) ∧ Says out fin := by
  obtain ⟨js, xs', hcarried, hsub⟩ := exists_carried hps hadmin idle w xs
  exact ⟨js, xs', hcarried.jobs_length hps, hsub, hcarried.world, fun i a ha =>
    hcarried.activity hps ha⟩

end

/-- A payment, and a tick of the reconciler. -/
def paymentAndTick : List Activity := [.request .payment, .worker (.reconcile ⟨0, 10⟩)]

def paymentAndTickProgs : List (Web Finish) :=
  [paymentProg >>= fun reply => .ret (.replied reply),
    Web.svc ((Job.reconcile ⟨0, 10⟩).prog (.sample .binary)) >>= fun out => .ret (.worked out)]

theorem prog_paymentAndTick :
    List.Forall₂ (fun a p => Activity.prog (.sample .binary) .sample a = some p) paymentAndTick
      paymentAndTickProgs := by
  cases serve_payment with
  | cons hserve _ =>
    refine .cons ?_ (.cons rfl .nil)
    simp only [Activity.prog, hserve, Option.map_some]

/-- The payment is being made, and the tick has begun. -/
def paymentAndTickRun : Running :=
  Running.run (.sample .binary) .sample paymentAndTickProgs
    (throughMiddleware ++ [(1, { now := unixEpoch }), (0, { now := unixEpoch })])

theorem gateway_runs_jobs_payment :
    (paymentAndTickRun.world.world.pools 0).length = 1 ∧
      ∃ js xs', js.length = 2 ∧
        (System.run (.sample .binary) WebWorld.sample.world js xs').world =
          paymentAndTickRun.world.world := by
  have hadmin : ∀ req, .request req ∈ paymentAndTick →
      Server.sample.endpoint req ≠ some .createMerchant := by
    intro req hreq
    rcases List.mem_pair.mp hreq with h | h
    · cases h
      decide
    · cases h
  have hpool : (paymentAndTickRun.world.world.pools 0).length = 1 := by decide +kernel
  unfold paymentAndTickRun at *
  obtain ⟨js, xs', hlen, -, hworld, -⟩ := gateway_runs_jobs prog_paymentAndTick hadmin
    (.reconcile ⟨0, 10⟩) .sample (throughMiddleware ++ [(1, { now := unixEpoch }), (0, { now := unixEpoch })])
  exact ⟨hpool, js, xs', hlen, hworld⟩

end EasyPay
