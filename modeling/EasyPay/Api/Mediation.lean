import EasyPay.Lib.Partition
import EasyPay.Api.Server

/-!
# Who may do what

Every call that a request makes is one it has earned by its route (`Mediated`): below `/api` with the
API key and signature of a merchant, for that merchant's own orders; below `/admin` with the admin key;
on a pay page with the token of its link, for the order of the link; on the webhook with Stripe's
signature.  `complete_mediation` says so of every request in every run.

So no request of a merchant changes a row of another, or is told of one, and what it refunds are its
own payments (`tenant_isolated`).
-/

namespace EasyPay

open GoStrings Ports Tables

section
variable (D : Deployment) (S : Server) (req : Request)

/-- The calls `t` show that the request is signed by the merchant `M`, and that its timestamp has passed
the skew check.  The check is the code's: the difference is one of `int64`, and may wrap. -/
structure Authenticated (t : List (Prog.Step web)) (M : Merchant) : Prop where
  found : Web.edgeGave (.getByAPIKey req.apiKey) (.ok M) ∈ t
  active : M.status = .active
  signed : Hmac.verify D.hmacSHA256 M.secretKey (signedRequest req.timestamp req.body)
    req.signature = true
  recent : ∃ now ts, Web.gave .timeNow now ∈ t ∧ parseInt req.timestamp = some ts ∧
    abs64 (unix now - ts) ≤ S.hmacSkew

/-- The rate limiter has let the merchant through, or has failed. -/
def Admitted (t : List (Prog.Step web)) (M : Merchant) : Prop :=
  ∃ a, Web.edgeGave (.rateAllow M.merchantID (limitOf M)) a ∈ t ∧ ∀ n, a ≠ .ok (false, n)

/-- Calls about the orders of the merchant `M`. -/
inductive OwnCall (t : List (Prog.Step web)) (M : Merchant) : Op → Prop
  | insert {x : Transaction} : x.merchantID = M.merchantID → x.shardIndex = M.shardIndex →
      OwnCall t M (.insert x)
  | lookup (id : Str) : OwnCall t M (.getByTransactionID M.shardIndex M.merchantID id)
  | read (o : Str) : OwnCall t M (.getByMerchantOrderID M.shardIndex M.merchantID o)
  | session {r : CreateCheckoutRequest} (key : Str) :
      (bytes "merchant_id", M.merchantID) ∈ r.metadata → OwnCall t M (.createCheckoutSession r key)
  | store (o sess pi : Str) : OwnCall t M (.updateCheckout M.shardIndex M.merchantID o sess pi)
  | refund {r : CreateRefundRequest} (key o : Str) {order : Transaction} :
      Web.gave (.getByMerchantOrderID M.shardIndex M.merchantID o) (.ok order) ∈ t →
      r.paymentIntentID = order.stripePaymentIntentID → OwnCall t M (.createRefund r key)
  | clock : OwnCall t M .timeNow

/-- Calls that onboard a merchant. -/
inductive AdminCall : Op → Prop
  | random (n : Nat) : AdminCall (.randRead n)
  | count : AdminCall (.countByShard S.merchants.logicalShardCount)
  | insert (m : Merchant) : AdminCall (.insertMerchant m)

/-- The link of an order: its token is good, unless there is no secret for tokens. -/
def LinkToken (t : List (Prog.Step web)) (m o : Str) : Prop :=
  S.checkout.tokenSecret = [] ∨ ∃ now, Web.gave .timeNow now ∈ t ∧
    CheckoutToken.verify D.hmacSHA256 now S.checkout.tokenSecret m o
      (Target.value (bytes "t") (Target.query req.target)) = .ok ()

/-- What a request of a merchant may call after the calls `t`. -/
inductive MerchantCall (t : List (Prog.Step web)) : web.Op → Prop
  | clock : MerchantCall t (.inl .timeNow)
  | key : MerchantCall t (.inr (.getByAPIKey req.apiKey))
  | limiter {M : Merchant} : Authenticated D S req t M →
      MerchantCall t (.inr (.rateAllow M.merchantID (limitOf M)))
  | own {M : Merchant} {o : Op} : Authenticated D S req t M → Admitted t M → OwnCall t M o →
      MerchantCall t (.inl o)

/-- What the page of a link may call after the calls `t`: the clock, to check the token, and with a
good token what resolves the order of the link. -/
inductive PayerCall (t : List (Prog.Step web)) (m ord : Str) : Op → Prop
  | clock : PayerCall t m ord .timeNow
  | resolve {t' : Calls} {o : Op} : LinkToken D S req t m ord → (∀ x ∈ t', x.inl ∈ t) →
      S.checkout.resolver.ResolveCall D.unicode m ord t' o → PayerCall t m ord o

/-- What a request for an endpoint may call after the calls `t`. -/
def Mediated (t : List (Prog.Step web)) : Endpoint → web.Op → Prop
  | .createPayment, o | .getPayment _, o | .refundPayment _, o => MerchantCall D S req t o
  | .createMerchant, o =>
    S.adminAPIKey ≠ [] ∧ req.adminKey = S.adminAPIKey ∧ ∃ o', o = .inl o' ∧ AdminCall S o'
  | .pay m ord, o => ∃ o', o = .inl o' ∧ PayerCall D S req t m ord o'
  | .stripeWebhook, o => (∃ o', o = .inl o') ∧ ∃ e,
    S.webhooks.verifyWebhookSignature req.body req.stripeSignature S.webhooks.webhookSecret = .ok e

end

section
variable {D : Deployment} {S : Server} {req : Request}

theorem Authenticated.mono {t t' : List (Prog.Step web)} {M : Merchant}
    (h : Authenticated D S req t M) (ht : t ⊆ t') : Authenticated D S req t' M := by
  obtain ⟨now, ts, hnow, hts⟩ := h.recent
  exact ⟨ht h.found, h.active, h.signed, now, ts, ht hnow, hts⟩

theorem Admitted.mono {t t' : List (Prog.Step web)} {M : Merchant} (h : Admitted t M)
    (ht : t ⊆ t') : Admitted t' M := by
  obtain ⟨a, ha, hok⟩ := h
  exact ⟨a, ht ha, hok⟩

theorem OwnCall.mono {t t' : List (Prog.Step web)} {M : Merchant} {o : Op} (h : OwnCall t M o)
    (ht : t ⊆ t') : OwnCall t' M o := by
  cases h with
  | insert hm hi => exact .insert hm hi
  | lookup id => exact .lookup id
  | read o => exact .read o
  | session key hmem => exact .session key hmem
  | store o sess pi => exact .store o sess pi
  | refund key o hread hpi => exact .refund key o (ht hread) hpi
  | clock => exact .clock

/-! ## The middleware -/

theorem HMACAuth.authenticate_next {hmac : (secret msg : Str) → Str} {getByAPIKey : Str → Res Merchant}
    {r : AuthRequest} {M : Merchant} (h : HMACAuth.authenticate hmac getByAPIKey r = .next M) :
    getByAPIKey r.apiKey = .ok M ∧ M.status = .active ∧
      Hmac.verify hmac M.secretKey (signedRequest r.timestamp r.body) r.signature = true := by
  unfold HMACAuth.authenticate at h
  split at h
  · cases h
  next m hm =>
  split at h
  · cases h
  next hactive =>
  split at h
  · cases h
  next hverify =>
  cases h
  exact ⟨hm, not_not.mp hactive, not_not.mp hverify⟩

/-- The middleware reads the clock and looks up the key.  It finds a merchant who has signed the
request, or stops it. -/
theorem hmacAuth_meets {I : List (Prog.Step web) → web.Op → Prop} (hclock : I [] (.inl .timeNow))
    (hkey : ∀ now, I [Web.gave .timeNow now] (.inr (.getByAPIKey req.apiKey))) :
    Prog.Meets I (fun t a => ∀ M, a = .next M → Authenticated D S req t M)
      (hmacAuth D S.hmacSkew req.auth) [] := by
  unfold hmacAuth HMACAuth.middleware
  split
  · exact fun M h => by cases h
  split
  · exact fun M h => by cases h
  next ts hts =>
  refine Prog.meets_perform (P := web) hclock fun now => ?_
  simp only
  split
  · exact fun M h => by cases h
  next hnear =>
  refine Prog.meets_perform (P := web) (o := .inr (.getByAPIKey req.apiKey)) (hkey now) fun a => ?_
  intro M hM
  obtain ⟨rfl, hactive, hverify⟩ := HMACAuth.authenticate_next hM
  exact
    { found := by simp
      active := hactive
      signed := hverify
      recent := ⟨now, ts, by simp, hts, Int64.not_lt.mp hnear⟩ }

theorem rateLimit_meets {I : List (Prog.Step web) → web.Op → Prop} {t : List (Prog.Step web)}
    {M : Merchant} (h : I t (.inr (.rateAllow M.merchantID (limitOf M)))) :
    Prog.Meets I (fun t' r => t ⊆ t' ∧ (r.2 = true → Admitted t' M)) (rateLimit M) t := by
  unfold rateLimit
  refine Prog.meets_perform (P := web) (o := .inr (.rateAllow M.merchantID (limitOf M))) h fun a => ?_
  have hsub : t ⊆ t ++ [Web.edgeGave (.rateAllow M.merchantID (limitOf M)) a] :=
    List.subset_append_left _ _
  have hlast : Web.edgeGave (.rateAllow M.merchantID (limitOf M)) a ∈
      t ++ [Web.edgeGave (.rateAllow M.merchantID (limitOf M)) a] := by simp
  match a with
  | .error e => exact ⟨hsub, fun _ => ⟨.error e, hlast, fun n h => by cases h⟩⟩
  | .ok (allowed, remaining) =>
    refine ⟨hsub, fun (hok : allowed = true) => ⟨_, hlast, fun n h => ?_⟩⟩
    cases h
    cases hok

/-- A handler that keeps to the orders of its merchant, behind the middleware. -/
theorem merchantAPI_meets {handler : Merchant → Svc Reply}
    (hown : ∀ M t o k, Prog.Runs (handler M) t (.call o k) → OwnCall (t.map Prog.Step.inl) M o) :
    Prog.Meets (P := web) (MerchantCall D S req) (fun _ _ => True) (S.merchantAPI D req handler) [] := by
  unfold Server.merchantAPI
  refine Prog.meets_bind (hmacAuth_meets .clock fun _ => .key) fun t a ha => ?_
  cases a with
  | unauthorized code msg => exact trivial
  | next M =>
    have hauth := ha M rfl
    refine Prog.meets_bind (rateLimit_meets (.limiter hauth)) fun t' r hr => ?_
    obtain ⟨hsub, hadmitted⟩ := hr
    obtain ⟨rate, allowed⟩ := r
    cases allowed with
    | false => exact trivial
    | true =>
      have hauth' := hauth.mono hsub
      refine Prog.meets_bind (R := fun _ _ => True) (Prog.meets_inl (fun u o k hu => ?_)
        fun _ _ _ => trivial) fun _ _ _ => trivial
      have hpre : t' ⊆ t' ++ u.map Prog.Step.inl := List.subset_append_left _ _
      exact .own (hauth'.mono hpre) ((hadmitted rfl).mono hpre)
        ((hown M u o k hu).mono (List.subset_append_right _ _))

/-- The calls of the middleware. -/
def ofMiddleware : web.Op → Prop
  | .inl o => o = .timeNow
  | .inr _ => True

/-- The replies of the group `/api`: those of the middleware, and those of the handler for the merchant
it has found. -/
theorem merchantAPI_ret {handler : Merchant → Svc Reply} {t : List (Prog.Step web)} {reply : Reply}
    (h : Prog.Runs (S.merchantAPI D req handler) t (.ret reply)) :
    ∃ t₀, (∀ x ∈ t₀, ofMiddleware x.1) ∧
      ((t = t₀ ∧ (reply.status = 401 ∨ reply.status = 429)) ∨
        ∃ M t₁ rate r, t = t₀ ++ t₁.map Prog.Step.inl ∧
          Web.edgeGave (.getByAPIKey req.apiKey) (.ok M) ∈ t₀ ∧
          Prog.Runs (handler M) t₁ (.ret r) ∧ reply = { r with rate := rate }) := by
  suffices hmeets : Prog.Meets (fun _ _ => True) (fun t reply => ∃ t₀, (∀ x ∈ t₀, ofMiddleware x.1) ∧
      ((t = t₀ ∧ (reply.status = 401 ∨ reply.status = 429)) ∨
        ∃ M t₁ rate r, t = t₀ ++ t₁.map Prog.Step.inl ∧
          Web.edgeGave (.getByAPIKey req.apiKey) (.ok M) ∈ t₀ ∧
          Prog.Runs (handler M) t₁ (.ret r) ∧ reply = { r with rate := rate }))
      (S.merchantAPI D req handler) [] from hmeets.ret h
  unfold Server.merchantAPI
  have hauth : Prog.Meets (fun _ o => ofMiddleware o)
      (fun t a => (∀ x ∈ t, ofMiddleware x.1) ∧ ∀ M, a = .next M → Authenticated D S req t M)
      (hmacAuth D S.hmacSkew req.auth) [] :=
    (hmacAuth_meets rfl fun _ => trivial).steps fun x hx => by cases hx
  refine Prog.meets_bind (hauth.weaken fun _ _ _ => trivial) fun t a ha => ?_
  obtain ⟨ht, ha⟩ := ha
  cases a with
  | unauthorized code msg => exact ⟨t, ht, .inl ⟨rfl, .inl rfl⟩⟩
  | next M =>
    have hrate := (rateLimit_meets (I := fun _ o => ofMiddleware o) (t := t) (M := M) trivial).steps ht
    refine Prog.meets_bind (hrate.weaken fun _ _ _ => trivial) fun t' x hx => ?_
    obtain ⟨ht', hsub, -⟩ := hx
    obtain ⟨rate, allowed⟩ := x
    cases allowed with
    | false => exact ⟨t', ht', .inl ⟨rfl, .inr rfl⟩⟩
    | true =>
      refine Prog.meets_bind (R := fun u r => ∃ t₁, u = t' ++ t₁.map Prog.Step.inl ∧
        Prog.Runs (handler M) t₁ (.ret r)) ?_ fun u r hr => ?_
      · exact Prog.meets_inl (fun _ _ _ _ => trivial) fun t₁ r hr => ⟨t₁, rfl, hr⟩
      · obtain ⟨t₁, rfl, hr⟩ := hr
        exact ⟨t', ht', .inr ⟨M, t₁, rate, r, rfl, hsub (ha M rfl).found, hr, rfl⟩⟩

/-! ## The handlers -/

theorem createPayment_own (M : Merchant) (t : Calls) (o : Op) (k : o.Ans → Svc Reply)
    (h : Prog.Runs (S.createPayment D req M) t (.call o k)) :
    OwnCall (t.map Prog.Step.inl) M o := by
  unfold Server.createPayment at h
  split at h
  · cases h
  obtain ⟨k', hr⟩ := Prog.runs_map_call h
  obtain ⟨M', ⟨hM, -⟩, hcall⟩ := S.payments.create_next D hr
  cases hM
  cases hcall with
  | insert => exact .insert rfl rfl
  | lookup e _ => exact .lookup _
  | session _ _ => exact .session _ (by simp [PaymentService.checkoutRequest])
  | store sess _ _ => exact .store _ _ _
  | clock => exact .clock

theorem getPayment_own (id : Str) (M : Merchant) (t : Calls) (o : Op) (k : o.Ans → Svc Reply)
    (h : Prog.Runs (S.getPayment id M) t (.call o k)) : OwnCall (t.map Prog.Step.inl) M o := by
  unfold Server.getPayment at h
  split at h
  · cases h
  rcases Svc.runs_ask.mp h with ⟨rfl, hq⟩ | ⟨a, t', rfl, h'⟩
  · cases hq
    exact .read id
  · cases a with
    | error e =>
      simp only at h'
      split at h' <;> cases h'
    | ok order => cases h'

/-- A refund reads the order and asks Stripe about its payment intent. -/
theorem createRefund_calls {inp : RefundInput} {M : Merchant} (hM : inp.merchant = some M) {t : Calls}
    {o : Op} {k : o.Ans → Svc (Res RefundResult)}
    (h : Prog.Runs (WebhookService.createRefund inp) t (.call o k)) :
    o = .getByMerchantOrderID M.shardIndex M.merchantID inp.orderID ∨
      ∃ order, (Op.getByMerchantOrderID M.shardIndex M.merchantID inp.orderID).gave (.ok order) ∈ t ∧
        o = .createRefund (inp.request order) (inp.key order) := by
  unfold WebhookService.createRefund at h
  rw [hM] at h
  simp only at h
  split at h
  · cases h
  rcases Svc.runs_ask.mp h with ⟨rfl, hq⟩ | ⟨a, t', rfl, h'⟩
  · cases hq
    exact .inl rfl
  cases a with
  | error e => cases h'
  | ok order =>
    simp only at h'
    split at h'
    · cases h'
    rcases Svc.runs_ask.mp h' with ⟨rfl, hq⟩ | ⟨b, t'', rfl, h''⟩
    · cases hq
      exact .inr ⟨order, List.mem_cons_self, rfl⟩
    · cases b <;> cases h''

theorem refundPayment_own (id : Str) (M : Merchant) (t : Calls) (o : Op) (k : o.Ans → Svc Reply)
    (h : Prog.Runs (S.refundPayment req id M) t (.call o k)) :
    OwnCall (t.map Prog.Step.inl) M o := by
  unfold Server.refundPayment at h
  obtain ⟨k₁, h⟩ := Prog.runs_map_call h
  unfold RefundHandler.create at h
  simp only at h
  split at h
  · cases h
  rcases Prog.runs_bind h with ⟨o', k', hr, hq⟩ | ⟨t₁, a, t₂, -, -, hr⟩
  · cases hq
    rcases createRefund_calls rfl hr with rfl | ⟨order, hread, rfl⟩
    · exact .read id
    · exact .refund _ id (List.mem_map_of_mem hread) rfl
  · cases a <;> cases hr

theorem createMerchant_calls {body : Str} {t : Calls} {o : Op} {k : o.Ans → Svc Reply}
    (h : Prog.Runs (S.createMerchant body) t (.call o k)) : AdminCall S o := by
  have hstore : ∀ mID name inp apiKey secretKey (t : Calls),
      Prog.Meets (P := gateway) (fun _ o => AdminCall S o) (fun _ _ => True)
        (MerchantService.store S.merchants mID name inp apiKey secretKey) t := by
    intro mID name inp apiKey secretKey t
    unfold MerchantService.store MerchantRepo.insert
    refine Svc.meets_ask .count fun a => ?_
    cases a with
    | error e => exact trivial
    | ok counts =>
      refine Svc.meets_ask (.insert _) fun b => ?_
      cases b <;> exact trivial
  unfold Server.createMerchant at h
  split at h
  · cases h
  next inp _ =>
  have hcreate : Prog.Meets (P := gateway) (fun _ o => AdminCall S o) (fun _ _ => True)
      (MerchantService.create S.merchants inp) [] := by
    unfold MerchantService.create
    simp only
    split
    · exact trivial
    split
    · exact trivial
    unfold randomHex
    refine Svc.meets_ask (.random 32) fun a => ?_
    cases a with
    | error e => exact trivial
    | ok apiKey =>
      refine Svc.meets_ask (.random 32) fun b => ?_
      cases b with
      | error e => exact trivial
      | ok secretKey => exact hstore _ _ _ _ _ _
  obtain ⟨k', hr⟩ := Prog.runs_map_call h
  exact hcreate.call hr

/-- What comes of a link once its token is checked. -/
theorem answer_calls {h : CheckoutHandler} {m ord : Str} {t : Calls} {o : Op}
    {k : o.Ans → Svc CheckoutResponse} (hr : Prog.Runs (h.answer D m ord) t (.call o k)) :
    h.resolver.ResolveCall D.unicode m ord t o := by
  unfold CheckoutHandler.answer at hr
  rcases Prog.runs_bind hr with ⟨o', k', hresolve, hq⟩ | ⟨t₁, a, t₂, -, -, hpage⟩
  · cases hq
    exact h.resolver.resolve_next D.unicode hresolve
  · cases a with
    | ok url => cases hpage
    | error e =>
      simp only at hpage
      split at hpage
      · cases hpage
      split at hpage <;> cases hpage

theorem redirect_calls {m ord : Str} {t : Calls} {o : Op} {k : o.Ans → Svc CheckoutResponse}
    (hr : Prog.Runs (S.checkout.redirect D m ord
      (Target.value (bytes "t") (Target.query req.target))) t (.call o k)) :
    PayerCall D S req (t.map Prog.Step.inl) m ord o := by
  unfold CheckoutHandler.redirect at hr
  split at hr
  · cases hr
  split at hr
  · next hsecret =>
    exact .resolve (.inl hsecret) (fun x hx => List.mem_map_of_mem hx) (answer_calls hr)
  split at hr
  · cases hr
  rcases Svc.runs_ask.mp hr with ⟨rfl, hq⟩ | ⟨now, t', rfl, hlink⟩
  · cases hq
    exact .clock
  · split at hlink
    · cases hlink
    · next hverify =>
      refine .resolve (.inr ⟨now, List.mem_map_of_mem List.mem_cons_self, hverify⟩) (fun x hx => ?_)
        (answer_calls hlink)
      exact List.mem_map_of_mem (List.mem_cons_of_mem _ hx)

/-- **A request** makes no call it has not earned. -/
theorem respond_meets {e : Endpoint} {p : Web Reply} (h : S.respond D req e = some p) :
    Prog.Meets (P := web) (fun t o => Mediated D S req t e o) (fun _ _ => True) p [] := by
  cases e with
  | createPayment =>
    cases h
    exact merchantAPI_meets createPayment_own
  | getPayment id =>
    cases h
    exact merchantAPI_meets (getPayment_own id)
  | refundPayment id =>
    cases h
    exact merchantAPI_meets (refundPayment_own id)
  | createMerchant =>
    simp only [Server.respond, adminAuth] at h
    by_cases hkey : S.adminAPIKey = []
    · rw [if_pos hkey] at h
      cases h
    rw [if_neg hkey, if_neg hkey] at h
    by_cases hbad : req.adminKey = [] ∨ req.adminKey ≠ S.adminAPIKey
    · rw [if_pos hbad] at h
      cases h
      exact trivial
    · rw [if_neg hbad] at h
      cases h
      have hgot : req.adminKey = S.adminAPIKey := not_not.mp (not_or.mp hbad).2
      exact Prog.meets_inl (fun t o k hr => ⟨hkey, hgot, o, rfl, createMerchant_calls hr⟩)
        fun _ _ _ => trivial
  | stripeWebhook =>
    cases h
    refine Prog.meets_inl (fun t o k hr => ?_) fun _ _ _ => trivial
    obtain ⟨k', hr⟩ := Prog.runs_map_call hr
    obtain ⟨e, hverify, -⟩ := S.webhooks.process_next hr
    exact ⟨⟨o, rfl⟩, e, hverify⟩
  | pay m ord =>
    cases h
    refine Prog.meets_inl (fun t o k hr => ?_) fun _ _ _ => trivial
    obtain ⟨k', hr⟩ := Prog.runs_map_call hr
    exact ⟨o, rfl, redirect_calls hr⟩

theorem serve_meets {p : Web Reply} (h : S.serve D req = some p) : ∃ e, S.endpoint req = some e ∧
    Prog.Meets (P := web) (fun t o => Mediated D S req t e o) (fun _ _ => True) p [] := by
  obtain ⟨e, he, hp⟩ := Option.bind_eq_some_iff.mp h
  exact ⟨e, he, respond_meets hp⟩

/-- **Complete mediation.**  In every run, whatever a request is about to call it has earned by the
calls it has made so far, as its route asks for. -/
theorem complete_mediation {w : WebWorld} {reqs : List Request} {ps : List (Web Reply)}
    (hps : List.Forall₂ (fun req p => S.serve D req = some p) reqs ps) (xs : List (Nat × Choice))
    {i : Nat} {o : web.Op} {k : web.Ans o → Web Reply}
    (hi : (Serving.run D w ps xs).procs[i]? = some (.call o k)) :
    ∃ req e, reqs[i]? = some req ∧ S.endpoint req = some e ∧
      Mediated D S req (callsOf i (Serving.run D w ps xs).hist) e o := by
  obtain ⟨p, hp⟩ : ∃ p, ps[i]? = some p := by
    have hlt := (List.getElem?_eq_some_iff.mp hi).1
    have hlen : (Serving.run D w ps xs).procs.length = ps.length :=
      Sys.run_procs_length (P := web) (webExec D) w ps xs
    rw [hlen] at hlt
    exact ⟨_, List.getElem?_eq_getElem hlt⟩
  obtain ⟨q, hq, hruns⟩ := Sys.run_runs (P := web) (webExec D) w ps xs hp
  cases hi.symm.trans hq
  obtain ⟨req, hreq, hserve⟩ := getElem?_of_forall₂ hps.flip hp
  obtain ⟨e, he, hmeets⟩ := serve_meets hserve
  exact ⟨req, e, hreq, he, hmeets.call hruns⟩

/-! ## Merchants apart -/

def Endpoint.isAPI : Endpoint → Bool
  | createPayment | getPayment _ | refundPayment _ => true
  | createMerchant | stripeWebhook | pay _ _ => false

/-- A request for the group `/api`. -/
def Server.forAPI (S : Server) (req : Request) : Prop :=
  ∃ e, S.endpoint req = some e ∧ e.isAPI = true

theorem serve_meets_api {p : Web Reply} (h : S.serve D req = some p) (hapi : S.forAPI req) :
    Prog.Meets (P := web) (MerchantCall D S req) (fun _ _ => True) p [] := by
  obtain ⟨e, he, hisapi⟩ := hapi
  obtain ⟨e', he', hmeets⟩ := serve_meets h
  cases he.symm.trans he'
  cases e with
  | createPayment => exact hmeets
  | getPayment id => exact hmeets
  | refundPayment id => exact hmeets
  | createMerchant => cases hisapi
  | stripeWebhook => cases hisapi
  | pay m ord => cases hisapi

/-- The rows that are not of the merchant, by the comparison of the database. -/
def notOf (C : Collation) (M : Merchant) (rows : List Row) : List Row :=
  rows.filter fun r => !C.eq r.merchantID M.merchantID

/-- A call about a merchant's own orders changes no other rows, and beyond the tables at most the
sessions at Stripe. -/
theorem OwnCall.effect {t : List (Prog.Step web)} {M : Merchant} {o : Op} (h : OwnCall t M o)
    (c : Choice) (w : World) :
    (exec D o c w).2 =
        { w with pools := (exec D o c w).2.pools, sessions := (exec D o c w).2.sessions } ∧
      ∀ p, notOf D.collation M ((exec D o c w).2.pools p) = notOf D.collation M (w.pools p) := by
  refine ⟨?_, fun p => ?_⟩
  · have heff := exec_effect D o c w
    generalize (exec D o c w).2 = w' at heff ⊢
    cases heff with
    | none _ _ => rfl
    | insert _ => rfl
    | updateCheckout _ _ _ _ _ => rfl
    | session _ _ _ => rfl
    | updateStatus _ _ _ _ _ => cases h
    | insertMerchant _ => cases h
    | setNX _ _ _ => cases h
    | acquire _ _ => cases h
    | release _ => cases h
    | cachePut _ _ _ => cases h
    | publish _ => cases h
    | confirmations _ _ _ => cases h
    | createTx _ => cases h
    | cursor _ _ => cases h
  · rcases exec_pools_cases D o c w with
      he | ⟨x, r, q, rfl, hr, -, -, he⟩ | ⟨i, m, ord, f, q, ⟨st, pi, rfl, -⟩ | ⟨sess, pi, rfl, rfl⟩, -, -, -, he⟩
    · rw [he]
    · -- the new row is the merchant's
      cases h with
      | insert hm _ =>
        rw [he]
        by_cases hq : p = q
        · subst hq
          have hown : D.collation.eq r.merchantID M.merchantID = true := by
            rw [(D.row_ok hr).2.1, hm]
            exact D.collation.refl _
          rw [Function.update_self]
          unfold notOf
          rw [List.filter_append, List.filter_singleton]
          simp [hown]
        · rw [Function.update_of_ne hq]
    · cases h
    · cases h with
      | store _ _ _ =>
        rw [he]
        by_cases hq : p = q
        · subst hq
          rw [Function.update_self]
          have hkeeps : ∀ r, (!D.collation.eq (TransactionRepo.setCheckout c.now sess pi r).merchantID
              M.merchantID) = !D.collation.eq r.merchantID M.merchantID := fun r => rfl
          unfold notOf
          rw [filter_updateWhere hkeeps]
          refine updateWhere_eq_self fun r hr => Bool.eq_false_iff.mpr fun hord => ?_
          have hother := (List.mem_filter.mp hr).2
          unfold TransactionRepo.ofOrder at hord
          rw [(Bool.and_eq_true_iff.mp hord).1] at hother
          cases hother
        · rw [Function.update_of_ne hq]

/-- The order an answer shows. -/
def Tells : Prog.Step web → Transaction → Prop
  | ⟨.inl (.getByTransactionID _ _ _), a⟩, order => a = .ok order
  | ⟨.inl (.getByMerchantOrderID _ _ _), a⟩, order => a = .ok order
  | ⟨.inl (.getByOrderIDAny _), a⟩, order => a = .ok order
  | ⟨.inl (.getByPaymentIntentID _), a⟩, order => a = .ok order
  | ⟨.inl (.getPendingBefore _ _), a⟩, order => ∃ orders, a = .ok orders ∧ order ∈ orders
  | _, _ => False

/-- A merchant is shown its own orders. -/
theorem OwnCall.tells {t : List (Prog.Step web)} {M : Merchant} {o : Op} (h : OwnCall t M o)
    (c : Choice) (w : World) {order : Transaction}
    (hshows : Tells ⟨.inl o, (exec D o c w).1⟩ order) :
    D.collation.eq order.merchantID M.merchantID = true := by
  cases h with
  | insert _ _ => cases hshows
  | session _ _ => cases hshows
  | store _ _ _ => cases hshows
  | refund _ _ _ _ => cases hshows
  | clock => cases hshows
  | lookup id =>
    obtain ⟨-, -, r, t', -, -, -, hm, -, hscan, rfl⟩ := D.getByTransactionID_ok hshows
    show D.collation.eq t'.merchantID M.merchantID = true
    rw [(TransactionRepo.scanTransaction_ok hscan).1]
    exact hm
  | read ord =>
    obtain ⟨-, r, t', -, -, -, hord, hscan, rfl⟩ := D.getByMerchantOrderID_ok hshows
    show D.collation.eq t'.merchantID M.merchantID = true
    rw [(TransactionRepo.scanTransaction_ok hscan).1]
    exact (Bool.and_eq_true_iff.mp hord).1

section
variable {w : WebWorld} {reqs : List Request} {ps : List (Web Reply)}
  (hps : List.Forall₂ (fun req p => S.serve D req = some p) reqs ps)
include hps

/-- The calls of a request for `/api`, over a run: for the merchant it is authenticated as, and answered
by the gateway. -/
theorem own_calls (xs : List (Nat × Choice)) {i : Nat} (hreq : reqs[i]? = some req)
    (hapi : S.forAPI req) :
    ∀ o a, Web.gave o a ∈ callsOf i (Serving.run D w ps xs).hist → o = .timeNow ∨ ∃ M c w',
      Authenticated D S req (callsOf i (Serving.run D w ps xs).hist) M ∧
        OwnCall (callsOf i (Serving.run D w ps xs).hist) M o ∧ a = (exec D o c w').1 := by
  refine Sys.run_induction (P := web) (webExec D) w ps
    (Q := fun s => ∀ o a, Web.gave o a ∈ callsOf i s.hist → o = .timeNow ∨ ∃ M c w',
      Authenticated D S req (callsOf i s.hist) M ∧ OwnCall (callsOf i s.hist) M o ∧
        a = (exec D o c w').1) ?_ ?_ xs
  · intro o a h
    cases h
  intro s j c o k p hQ hp hproc hruns o' a hmem
  have hmono : callsOf i s.hist ⊆ callsOf i (s.after (webExec D) j c o k).hist :=
    fun y hy => mem_callsOf_concat.mpr (.inl hy)
  rcases mem_callsOf_concat.mp hmem with hold | ⟨rfl, hnew⟩
  · obtain rfl | ⟨M, c', w', hauth, hown, ha⟩ := hQ o' a hold
    · exact .inl rfl
    · exact .inr ⟨M, c', w', hauth.mono hmono, hown.mono hmono, ha⟩
  · obtain ⟨req', hreq', hserve⟩ := getElem?_of_forall₂ hps.flip hp
    cases hreq.symm.trans hreq'
    obtain rfl : o = .inl o' := congrArg Sigma.fst hnew
    have hans : (exec D o' c s.world.world).1 = a := eq_of_heq (Sigma.mk.inj_iff.mp hnew).2
    cases (serve_meets_api hserve hapi).call hruns with
    | clock => exact .inl rfl
    | own hauth _ hcall => exact .inr ⟨_, c, _, hauth.mono hmono, hcall.mono hmono, hans.symm⟩

/-- What a request has been shown, over a run. -/
theorem told_own (xs : List (Nat × Choice)) {i : Nat} (hreq : reqs[i]? = some req)
    (hapi : S.forAPI req) :
    ∀ x ∈ callsOf i (Serving.run D w ps xs).hist, ∀ order, Tells x order →
      ∃ M, Authenticated D S req (callsOf i (Serving.run D w ps xs).hist) M ∧
        D.collation.eq order.merchantID M.merchantID = true := by
  rintro ⟨o | o, a⟩ hx order hshows
  · obtain rfl | ⟨M, c, w', hauth, hown, rfl⟩ := own_calls hps xs hreq hapi o a hx
    · cases hshows
    · exact ⟨M, hauth, hown.tells c w' hshows⟩
  · cases hshows

/-- What it refunds, over a run. -/
theorem refunded_own (xs : List (Nat × Choice)) {i : Nat} (hreq : reqs[i]? = some req)
    (hapi : S.forAPI req) {r : CreateRefundRequest} {key : Str} {a : (Op.createRefund r key).Ans}
    (h : Web.gave (.createRefund r key) a ∈ callsOf i (Serving.run D w ps xs).hist) :
    ∃ M order, Authenticated D S req (callsOf i (Serving.run D w ps xs).hist) M ∧
      D.collation.eq order.merchantID M.merchantID = true ∧
      r.paymentIntentID = order.stripePaymentIntentID ∧
      ∃ x ∈ callsOf i (Serving.run D w ps xs).hist, Tells x order := by
  obtain hclock | ⟨M, c, w', hauth, hown, -⟩ := own_calls hps xs hreq hapi _ _ h
  · cases hclock
  cases hown with
  | @refund _ _ o order hread hpi =>
    obtain hclock | ⟨M', c', w'', hauth', hown', hans⟩ := own_calls hps xs hreq hapi _ _ hread
    · cases hclock
    · exact ⟨M', order, hauth', hown'.tells c' w'' hans.symm, hpi, _, hread, rfl⟩

/-- What a step of a merchant's request keeps to. -/
structure KeepsApart (D : Deployment) (S : Server) (req : Request) (i : Nat) (before after : Serving) :
    Prop where
  world : after.world.world =
    { before.world.world with
      pools := after.world.world.pools
      sessions := after.world.world.sessions }
  rows : after.world.world.pools = before.world.world.pools ∨
    ∃ M, Authenticated D S req (callsOf i before.hist) M ∧
      ∀ p, notOf D.collation M (after.world.world.pools p) =
        notOf D.collation M (before.world.world.pools p)
  windows : after.world.windows = before.world.windows ∨
    ∃ M, Authenticated D S req (callsOf i before.hist) M ∧
      ∀ key, key ≠ RateLimiter.rateKey M.merchantID →
        after.world.windows key = before.world.windows key
  sessions : ∀ r key a, Web.gave (.createCheckoutSession r key) a ∈ callsOf i after.hist →
    ∃ M, Authenticated D S req (callsOf i after.hist) M ∧
      (bytes "merchant_id", M.merchantID) ∈ r.metadata
  refunds : ∀ r key a, Web.gave (.createRefund r key) a ∈ callsOf i after.hist →
    ∃ M order, Authenticated D S req (callsOf i after.hist) M ∧
      D.collation.eq order.merchantID M.merchantID = true ∧
      r.paymentIntentID = order.stripePaymentIntentID ∧ ∃ x ∈ callsOf i after.hist, Tells x order
  told : ∀ x ∈ callsOf i after.hist, ∀ order, Tells x order →
    ∃ M, Authenticated D S req (callsOf i after.hist) M ∧
      D.collation.eq order.merchantID M.merchantID = true

/-- **Merchants are kept apart.**  Whatever else goes on, a step of a merchant's request leaves the
world as it was but for the order tables, the windows of the limiter and the sessions at Stripe.  Of
the tables it changes only rows of the merchant whose signature it has checked, of the windows only
that merchant's.  The sessions it asks for carry that merchant's id, the refunds it asks for are of the
payment intents of that merchant's orders, and every order it has been shown is one of these. -/
theorem tenant_isolated (xs : List (Nat × Choice)) {i : Nat} (c : Choice) {req : Request}
    (hreq : reqs[i]? = some req) (hapi : S.forAPI req) :
    KeepsApart D S req i (Serving.run D w ps xs) (Serving.run D w ps (xs ++ [(i, c)])) := by
  have hsessions : ∀ r key a, Web.gave (.createCheckoutSession r key) a ∈
      callsOf i (Serving.run D w ps (xs ++ [(i, c)])).hist →
      ∃ M, Authenticated D S req (callsOf i (Serving.run D w ps (xs ++ [(i, c)])).hist) M ∧
        (bytes "merchant_id", M.merchantID) ∈ r.metadata := by
    intro r key a h
    obtain hclock | ⟨M, -, -, hauth, hown, -⟩ := own_calls hps _ hreq hapi _ _ h
    · cases hclock
    · cases hown with
      | session _ hmeta => exact ⟨M, hauth, hmeta⟩
  suffices hstep : _ ∧ _ ∧ _ from
    { world := hstep.1
      rows := hstep.2.1
      windows := hstep.2.2
      sessions := hsessions
      refunds := fun r key a h => refunded_own hps _ hreq hapi h
      told := told_own hps _ hreq hapi }
  have hrun : Serving.run D w ps (xs ++ [(i, c)]) =
      (Serving.run D w ps xs).step (webExec D) (i, c) :=
    Sys.run_concat (P := web) (webExec D) _ xs (i, c)
  rcases Sys.step_cases (webExec D) (Serving.run D w ps xs) (i, c) with h | ⟨o, k, hproc, h⟩
  · rw [hrun, h]
    exact ⟨rfl, .inl rfl, .inl rfl⟩
  rw [hrun, h]
  have hmed : MerchantCall D S req (callsOf i (Serving.run D w ps xs).hist) o := by
    obtain ⟨p, hp, hserve⟩ := getElem?_of_forall₂ hps hreq
    obtain ⟨q, hq, hruns⟩ := Sys.run_runs (P := web) (webExec D) w ps xs hp
    cases hproc.symm.trans hq
    exact (serve_meets_api hserve hapi).call hruns
  cases hmed with
  | clock => exact ⟨rfl, .inl rfl, .inl rfl⟩
  | key => exact ⟨rfl, .inl rfl, .inl rfl⟩
  | limiter hauth =>
    exact ⟨rfl, .inl rfl, .inr ⟨_, hauth, fun key hkey => RateLimiter.allow_of_ne _ hkey _⟩⟩
  | own hauth _ hcall =>
    obtain ⟨hrest, hrows⟩ := hcall.effect c (Serving.run D w ps xs).world.world
    exact ⟨hrest, .inr ⟨_, hauth, hrows⟩, .inl rfl⟩

end

end

/-! ## A request that is served -/

/-- What the parameters of a pattern are, segment by segment. -/
def matchSegments : List Str → List Str → Option (List Str)
  | [], [] => some []
  | p :: ps, s :: ss =>
    if p.head? = some 58 then (matchSegments ps ss).map (s :: ·)
    else if p = s then matchSegments ps ss
    else none
  | _, _ => none

/-- A server that reads every body as a payment of 100 for the order `o-1`. -/
def Server.sample : Server where
  payments := .mode true
  webhooks := ⟨fun _ _ _ => .error (.of .signatureMissing), fun _ => .error (.new []), []⟩
  checkout := ⟨.onPod 0, []⟩
  merchants := newMerchantRepository 1
  hmacSkew := 300
  adminAPIKey := []
  parsePayment _ := .ok ⟨bytes "o-1", 100, [], [], [], [], []⟩
  parseRefund _ := .ok ⟨0, []⟩
  parseMerchant _ := .error (.new [])
  formatUTC _ := []
  params pattern path := matchSegments (pattern.splitOn 47) (path.splitOn 47)

/-- A payment of the merchant `m1`, signed at the time 0. -/
def Request.payment : Request where
  method := .post
  target := bytes "/api/payments"
  apiKey := bytes "m1"
  timestamp := bytes "0"
  signature := Hmac.sign Sha256.hmac [] (signedRequest (bytes "0") [])
  adminKey := []
  stripeSignature := []
  requestID := []
  generated := []
  body := []

def WebWorld.sample : WebWorld := ⟨.fresh [.named (bytes "m1")], fun _ => none⟩

/-- The clock, the key, the limiter. -/
def throughMiddleware : List (Nat × Choice) := List.replicate 3 (0, { now := unixEpoch })

def paymentProg : Web Reply :=
  Server.sample.merchantAPI (.sample .binary) .payment
    (Server.sample.createPayment (.sample .binary) .payment)

theorem endpoint_payment : Server.sample.endpoint .payment = some .createPayment := by decide

theorem serve_payment :
    List.Forall₂ (fun req p => Server.sample.serve (.sample .binary) req = some p)
      [.payment] [paymentProg] := by
  refine .cons ?_ .nil
  unfold Server.serve
  rw [endpoint_payment]
  rfl

/-- The payment has passed the middleware. -/
def servedRun : Serving := Serving.run (.sample .binary) .sample [paymentProg] throughMiddleware

/-- The row a call inserts. -/
def inserts : web.Op → Option Transaction
  | .inl (.insert t) => some t
  | _ => none

theorem complete_mediation_payment :
    ∃ o t, servedRun.procs[0]?.bind Prog.next? = some o ∧ inserts o = some t ∧
      Mediated (.sample .binary) .sample .payment (callsOf 0 servedRun.hist) .createPayment o := by
  have hins : ((servedRun.procs[0]?.bind Prog.next?).bind inserts).isSome = true := by
    decide +kernel
  obtain ⟨t, ht⟩ := Option.isSome_iff_exists.mp hins
  obtain ⟨o, ho, hot⟩ := Option.bind_eq_some_iff.mp ht
  obtain ⟨k, hcall⟩ := Prog.getElem?_of_next? ho
  obtain ⟨req, e, hreq, he, hmed⟩ := complete_mediation serve_payment throughMiddleware hcall
  cases hreq
  cases endpoint_payment.symm.trans he
  exact ⟨o, t, ho, hot, hmed⟩

theorem forAPI_payment : Server.sample.forAPI .payment := ⟨.createPayment, endpoint_payment, rfl⟩

/-- The pool has an order of the merchant `m2`. -/
def WebWorld.beside : WebWorld :=
  ⟨{ World.fresh [.named (bytes "m1")] with pools := fun _ => [Row.paidOther] }, fun _ => none⟩

/-- The payment comes to a pool with another merchant's order. -/
def besideRun (xs : List (Nat × Choice)) : Serving :=
  Serving.run (.sample .binary) .beside [paymentProg] xs

/-- The insert of the payment leaves the other order alone. -/
theorem tenant_isolated_payment :
    ((besideRun throughMiddleware).world.world.pools 0 = [Row.paidOther] ∧
      ((besideRun (throughMiddleware ++ [(0, { now := unixEpoch })])).world.world.pools 0).length = 2) ∧
    KeepsApart (.sample .binary) .sample .payment 0 (besideRun throughMiddleware)
      (besideRun (throughMiddleware ++ [(0, { now := unixEpoch })])) := by
  have hgrew : (besideRun throughMiddleware).world.world.pools 0 = [Row.paidOther] ∧
      ((besideRun (throughMiddleware ++ [(0, { now := unixEpoch })])).world.world.pools 0).length =
        2 := by decide +kernel
  exact ⟨hgrew, tenant_isolated serve_payment throughMiddleware { now := unixEpoch } rfl
    forAPI_payment⟩

end EasyPay
