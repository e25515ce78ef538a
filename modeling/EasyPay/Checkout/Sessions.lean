import EasyPay.Orders

/-!
# Stripe sessions

`Create` in eager mode and `Resolve` both ask Stripe for a session, `Create` under the
transaction id as idempotency key, `Resolve` under a key made of the ids of the order.

* `stripe_invariant`: Stripe's sessions are those of the requests that reached it, one for
  each key.
* `session_request`: the request and the key of each call for a session.
* `one_session_iff`: an order has one session exactly when its `Create` calls and its
  `Resolve` calls did not both reach Stripe.
-/

namespace EasyPay

open GoStrings Tables Ports

/-! ## Sessions and requests -/

/-- Stripe's sessions in a state of a run. -/
structure StripeInv (D : Deployment) (S : System) : Prop where
  minted : ∀ n ss, S.world.sessions[n]? = some ss → ss.session = D.stripe.mint n
  /-- One session for each key... -/
  distinct : (S.world.sessions.map StripeSession.key).Nodup
  /-- ... that was asked for, in a request that reached Stripe. -/
  asked : ∀ ss ∈ S.world.sessions, ∃ e ∈ S.hist,
    e.op = .createCheckoutSession ss.req ss.key ∧ e.choice.reaches
  /-- Every request that reached Stripe has its session... -/
  made : ∀ e ∈ S.hist, ∀ req key, e.op = .createCheckoutSession req key → e.choice.reaches →
    ∃ ss ∈ S.world.sessions, ss.key = key
  /-- ... and is answered with it, if it is answered. -/
  answered : ∀ e ∈ S.hist, ∀ req key sess,
    e.step = (Op.createCheckoutSession req key).gave (.ok sess) →
    ∃ ss ∈ S.world.sessions, ss.key = key ∧ ss.session = sess

section
variable {D : Deployment} {S : System}

/-- A call that makes no session: it is no request, does not reach Stripe, or repeats a key. -/
theorem StripeInv.after_same (h : StripeInv D S) {i : Nat} {c : Choice} {o : Op}
    {k : o.Ans → Svc Outcome}
    (hsame : (exec D o c S.world).2.sessions = S.world.sessions)
    (hmade : ∀ req key, o = .createCheckoutSession req key → c.reaches →
      ∃ ss ∈ S.world.sessions, ss.key = key ∧
        ss.session = (D.stripe.create req key S.world.sessions).1) :
    StripeInv D (S.after D i c o k) := by
  have hsess : (S.after D i c o k).world.sessions = S.world.sessions := hsame
  constructor
  · rw [hsess]
    exact h.minted
  · rw [hsess]
    exact h.distinct
  · rw [hsess]
    intro ss hss
    obtain ⟨e, he, h⟩ := h.asked ss hss
    exact ⟨e, System.mem_hist_after.mpr (.inl he), h⟩
  · rw [hsess]
    intro e he req key hop hreach
    rcases System.mem_hist_after.mp he with he | rfl
    · exact h.made e he req key hop hreach
    · obtain ⟨ss, hss, hkey, -⟩ := hmade req key hop hreach
      exact ⟨ss, hss, hkey⟩
  · rw [hsess]
    intro e he req key sess hstep
    rcases System.mem_hist_after.mp he with he | rfl
    · exact h.answered e he req key sess hstep
    · have ho : o = .createCheckoutSession req key := congrArg Sigma.fst hstep
      subst ho
      obtain ⟨hreach, hs⟩ := throughBreaker_ok (Op.gave_inj.mp hstep)
      obtain ⟨ss, hss, hkey, hs'⟩ := hmade req key rfl hreach
      exact ⟨ss, hss, hkey, hs'.trans hs⟩

/-- A request under a new key. -/
theorem StripeInv.after_fresh (h : StripeInv D S) {i : Nat} {c : Choice}
    {req : CreateCheckoutRequest} {key : Str}
    {k : (Op.createCheckoutSession req key).Ans → Svc Outcome} (hreach : c.reaches)
    (hne : ∀ ss ∈ S.world.sessions, ss.key ≠ key)
    (hcreate : D.stripe.create req key S.world.sessions =
      (D.stripe.mint S.world.sessions.length,
        S.world.sessions ++ [⟨key, req, D.stripe.mint S.world.sessions.length⟩])) :
    StripeInv D (S.after D i c (.createCheckoutSession req key) k) := by
  have hsess : (S.after D i c (.createCheckoutSession req key) k).world.sessions =
      S.world.sessions ++ [⟨key, req, D.stripe.mint S.world.sessions.length⟩] := by
    show (exec D (.createCheckoutSession req key) c S.world).2.sessions = _
    unfold Choice.reaches at hreach
    simp only [exec, if_neg hreach, hcreate]
  constructor
  · rw [hsess]
    intro n ss hn
    rw [List.getElem?_append] at hn
    split at hn
    · exact h.minted n ss hn
    · next hlt =>
      rw [List.getElem?_singleton] at hn
      split at hn
      · cases hn
        have hlen : n = S.world.sessions.length := by omega
        rw [hlen]
      · cases hn
  · rw [hsess]
    exact nodup_map_concat h.distinct hne
  · rw [hsess]
    intro ss hss
    rcases List.mem_append.mp hss with hss | hss
    · obtain ⟨e, he, h⟩ := h.asked ss hss
      exact ⟨e, System.mem_hist_after.mpr (.inl he), h⟩
    · rw [List.mem_singleton] at hss
      subst hss
      exact ⟨_, System.mem_hist_after.mpr (.inr rfl), rfl, hreach⟩
  · rw [hsess]
    intro e he req' key' hop hr
    rcases System.mem_hist_after.mp he with he | rfl
    · obtain ⟨ss, hss, hkey⟩ := h.made e he req' key' hop hr
      exact ⟨ss, List.mem_append_left _ hss, hkey⟩
    · cases hop
      exact ⟨_, List.mem_append_right _ (List.mem_singleton.mpr rfl), rfl⟩
  · rw [hsess]
    intro e he req' key' sess hstep
    rcases System.mem_hist_after.mp he with he | rfl
    · obtain ⟨ss, hss, hkey, hs⟩ := h.answered e he req' key' sess hstep
      exact ⟨ss, List.mem_append_left _ hss, hkey, hs⟩
    · have ho := congrArg Sigma.fst hstep
      cases ho
      have hs := (throughBreaker_ok (Op.gave_inj.mp hstep)).2
      rw [hcreate] at hs
      exact ⟨_, List.mem_append_right _ (List.mem_singleton.mpr rfl), rfl, hs⟩

theorem StripeInv.after (h : StripeInv D S) {i : Nat} {c : Choice} {o : Op}
    {k : o.Ans → Svc Outcome} : StripeInv D (S.after D i c o k) := by
  rcases exec_sessions_cases D o c S.world with ⟨hsame, hreq⟩ | ⟨req, key, rfl, hreach, hnew⟩
  · exact h.after_same hsame fun req key ho hreach => absurd hreach (hreq req key ho)
  · rcases D.stripe.create_cases req key S.world.sessions with ⟨ss, hss, hkey, he⟩ | ⟨hne, he⟩
    · rw [he] at hnew
      refine h.after_same hnew fun req' key' ho _ => ?_
      cases ho
      exact ⟨ss, hss, hkey, by rw [he]⟩
    · exact h.after_fresh hreach hne he

end

/-- **Stripe's sessions** are those of the requests that reached it. -/
theorem stripe_invariant (D : Deployment) {w : World} (hw : w.sessions = []) (js : List Job)
    (xs : List (Nat × Choice)) : StripeInv D (System.run D w js xs) := by
  refine System.invariant D w js ?_ (fun S i c o k j hS _ _ => hS.after) xs
  have hnil : (Sys.start w (js.map (Job.prog D)) : System).world.sessions = [] := hw
  constructor
  · intro n ss hn
    rw [hnil] at hn
    cases hn
  · rw [hnil]
    exact List.nodup_nil
  · intro ss hss
    rw [hnil] at hss
    cases hss
  · intro e he
    cases he
  · intro e he
    cases he

/-- A key has one session. -/
theorem StripeInv.eq_of_key {D : Deployment} {S : System} (h : StripeInv D S)
    {ss ss' : StripeSession} (hss : ss ∈ S.world.sessions) (hss' : ss' ∈ S.world.sessions)
    (hkey : ss.key = ss'.key) : ss = ss' :=
  List.inj_on_of_nodup_map h.distinct hss hss' hkey

/-- A session id has one session. -/
theorem StripeInv.eq_of_id {D : Deployment} {S : System} (h : StripeInv D S)
    {ss ss' : StripeSession} (hss : ss ∈ S.world.sessions) (hss' : ss' ∈ S.world.sessions)
    (hid : ss.session.id = ss'.session.id) : ss = ss' := by
  obtain ⟨n, hn⟩ := List.mem_iff_getElem?.mp hss
  obtain ⟨n', hn'⟩ := List.mem_iff_getElem?.mp hss'
  rw [h.minted n ss hn, h.minted n' ss' hn'] at hid
  have := D.stripe.mint_injective n n' hid
  subst this
  exact Option.some.inj (hn.symm.trans hn')

/-! ## Who asks for a session -/

/-- Only `Create` and `Resolve` ask for a session. -/
theorem JobCall.session_cases {D : Deployment} {j : Job} {t : Calls} {req : CreateCheckoutRequest}
    {key : Str} (h : JobCall D j t (.createCheckoutSession req key)) :
    (∃ s inp M, j = .create s inp ∧ PaymentService.Accepts inp M ∧
      req = s.checkoutRequest D M inp ∧ key = deriveTransactionID D M.merchantID inp.orderID) ∨
    (∃ r m o i order, j = .resolve r m o ∧ CheckoutResolver.readBy i m o order ∈ t ∧
      req = r.sessionRequest D.unicode order ∧ key = checkoutIdemKey order) := by
  cases h with
  | create hM hc =>
    cases hc
    exact .inl ⟨_, _, _, rfl, hM, rfl, rfl⟩
  | resolve hr =>
    cases hr with
    | create i order hread => exact .inr ⟨_, _, _, i, order, rfl, hread, rfl, rfl⟩
  | @handle s payload sig e t op k he hr => cases s.handle_next hr
  | reconcile hr => cases hr
  | confirm hc => cases hc
  | listen hc => cases hc

/-- **The requests for sessions** of a run. -/
theorem session_request {D : Deployment} {w : World} {js : List Job} {xs : List (Nat × Choice)}
    {e : CallEvent} (he : e ∈ (System.run D w js xs).hist) {req : CreateCheckoutRequest} {key : Str}
    (hop : e.op = .createCheckoutSession req key) :
    (∃ s inp M, js[e.pid]? = some (.create s inp) ∧ PaymentService.Accepts inp M ∧
      req = s.checkoutRequest D M inp ∧ key = deriveTransactionID D M.merchantID inp.orderID) ∨
    (∃ r m o i order, js[e.pid]? = some (.resolve r m o) ∧
      CheckoutResolver.readBy i m o order ∈ callsOf e.pid (System.run D w js xs).hist ∧
      req = r.sessionRequest D.unicode order ∧ key = checkoutIdemKey order) := by
  obtain ⟨j, t, hj, hcall, ht⟩ := System.job_call D w js he
  rw [hop] at hcall
  rcases hcall.session_cases with ⟨s, inp, M, rfl, h⟩ | ⟨r, m, o, i, order, rfl, hread, h⟩
  · exact .inl ⟨s, inp, M, hj, h⟩
  · exact .inr ⟨r, m, o, i, order, hj, ht _ hread, h⟩

/-- A key of `Create` is hexadecimal, a key of `Resolve` is not. -/
theorem deriveTransactionID_ne_checkout (D : Deployment) (m o s : Str) :
    deriveTransactionID D m o ≠ bytes "checkout:" ++ s := by
  intro h
  have hdec : hexDecode (deriveTransactionID D m o) = some (D.hash16 (hashInput m o)) :=
    hexDecode_hexEncode _
  have hnone : hexDecode (bytes "checkout:" ++ s) = none := rfl
  rw [h, hnone] at hdec
  cases hdec

/-! ## One order -/

/-- The order that a `Create` or a `Resolve` is for. -/
def Job.order? : Job → Option (Str × Str)
  | .create _ inp => inp.merchant.map fun M => (M.merchantID, inp.orderID)
  | .resolve _ m o => some (m, o)
  | _ => none

/-- A session request of a `Create` has reached Stripe. -/
def CreateReached (js : List Job) (hist : List CallEvent) : Prop :=
  ∃ e ∈ hist, ∃ s inp req key, js[e.pid]? = some (.create s inp) ∧
    e.op = .createCheckoutSession req key ∧ e.choice.reaches

/-- A session request of a `Resolve` has reached Stripe. -/
def ResolveReached (js : List Job) (hist : List CallEvent) : Prop :=
  ∃ e ∈ hist, ∃ r m o req key, js[e.pid]? = some (.resolve r m o) ∧
    e.op = .createCheckoutSession req key ∧ e.choice.reaches

section
variable {D : Deployment} {w : World} {js : List Job} {m o : Str}

theorem order_of_accepts (hjs : ∀ j ∈ js, ∀ x, j.order? = some x → x = (m, o)) {i : Nat}
    {s : PaymentService} {inp : CreatePaymentInput} {M : Merchant}
    (hj : js[i]? = some (.create s inp)) (hM : PaymentService.Accepts inp M) :
    M.merchantID = m ∧ inp.orderID = o := by
  have horder : (Job.create s inp).order? = some (M.merchantID, inp.orderID) := by
    show inp.merchant.map _ = _
    rw [hM.1]
    rfl
  have := hjs _ (List.mem_of_getElem? hj) _ horder
  exact ⟨congrArg Prod.fst this, congrArg Prod.snd this⟩

/-- The keys under which sessions for the one order are asked for. -/
theorem session_key (hw : ∀ p, w.pools p = [])
    (hjs : ∀ j ∈ js, ∀ x, j.order? = some x → x = (m, o)) {xs : List (Nat × Choice)} {e : CallEvent}
    (he : e ∈ (System.run D w js xs).hist) {req : CreateCheckoutRequest} {key : Str}
    (hop : e.op = .createCheckoutSession req key) :
    ((∃ s inp, js[e.pid]? = some (.create s inp)) ∧ key = deriveTransactionID D m o) ∨
      ((∃ r m' o', js[e.pid]? = some (.resolve r m' o')) ∧
        key = bytes "checkout:" ++ cacheKey m o) := by
  rcases session_request he hop with
    ⟨s, inp, M, hj, hM, -, hkey⟩ | ⟨r, m', o', i, order, hj, hread, -, hkey⟩
  · obtain ⟨rfl, rfl⟩ := order_of_accepts hjs hj hM
    exact .inl ⟨⟨s, inp, hj⟩, hkey⟩
  · refine .inr ⟨⟨r, m', o', hj⟩, ?_⟩
    -- the order that was read is the one all `Create` calls are for
    obtain ⟨e', he', -, hstep⟩ := mem_callsOf.mp hread
    obtain ⟨k, s, inp, M, hwon, hm, ho, -, -⟩ :=
      reads_invariant D js hw xs e' he' i m' o' order hstep
    obtain ⟨rfl, rfl⟩ := order_of_accepts hjs hwon.1 hwon.2.1
    rw [hkey, checkoutIdemKey, hm, ho]

/-- **One session per order.**  In every state of every run of `Create` and `Resolve` calls for
one order, with anything else going on: there is at most one session if and only if the
requests of `Create` calls and those of `Resolve` calls have not both reached Stripe. -/
theorem one_session_iff (hp : ∀ p, w.pools p = []) (hs : w.sessions = [])
    (hjs : ∀ j ∈ js, ∀ x, j.order? = some x → x = (m, o)) (xs : List (Nat × Choice)) :
    (∀ ss ∈ (System.run D w js xs).world.sessions, ∀ ss' ∈ (System.run D w js xs).world.sessions,
        ss.session.id = ss'.session.id) ↔
      ¬ (CreateReached js (System.run D w js xs).hist ∧
        ResolveReached js (System.run D w js xs).hist) := by
  have hS := stripe_invariant D hs js xs
  have hne := deriveTransactionID_ne_checkout D m o (cacheKey m o)
  constructor
  · rintro hone ⟨⟨e₁, he₁, s, inp, req₁, key₁, hj₁, hop₁, hr₁⟩,
      ⟨e₂, he₂, r, m', o', req₂, key₂, hj₂, hop₂, hr₂⟩⟩
    obtain ⟨ss₁, hss₁, hkey₁⟩ := hS.made e₁ he₁ req₁ key₁ hop₁ hr₁
    obtain ⟨ss₂, hss₂, hkey₂⟩ := hS.made e₂ he₂ req₂ key₂ hop₂ hr₂
    obtain rfl := hS.eq_of_id hss₁ hss₂ (hone ss₁ hss₁ ss₂ hss₂)
    have hk₁ : key₁ = deriveTransactionID D m o := by
      rcases session_key hp hjs he₁ hop₁ with ⟨-, h⟩ | ⟨⟨_, _, _, h⟩, -⟩
      · exact h
      · cases hj₁.symm.trans h
    have hk₂ : key₂ = bytes "checkout:" ++ cacheKey m o := by
      rcases session_key hp hjs he₂ hop₂ with ⟨⟨_, _, h⟩, -⟩ | ⟨-, h⟩
      · cases hj₂.symm.trans h
      · exact h
    exact hne (hk₁.symm.trans (hkey₁.symm.trans (hkey₂.trans hk₂)))
  · intro hnot ss hss ss' hss'
    obtain ⟨e, he, hop, hr⟩ := hS.asked ss hss
    obtain ⟨e', he', hop', hr'⟩ := hS.asked ss' hss'
    have hsame : ss.key = ss'.key := by
      rcases session_key hp hjs he hop with ⟨⟨s, inp, hj⟩, hk⟩ | ⟨⟨r, m', o', hj⟩, hk⟩
      · rcases session_key hp hjs he' hop' with ⟨-, hk'⟩ | ⟨⟨r, m', o', hj'⟩, -⟩
        · exact hk.trans hk'.symm
        · exact absurd ⟨⟨e, he, s, inp, _, _, hj, hop, hr⟩,
            ⟨e', he', r, m', o', _, _, hj', hop', hr'⟩⟩ hnot
      · rcases session_key hp hjs he' hop' with ⟨⟨s, inp, hj'⟩, -⟩ | ⟨-, hk'⟩
        · exact absurd ⟨⟨e', he', s, inp, _, _, hj', hop', hr'⟩,
            ⟨e, he, r, m', o', _, _, hj, hop, hr⟩⟩ hnot
        · exact hk.trans hk'.symm
    rw [hS.eq_of_key hss hss' hsame]

end

/-- A `Create` in eager or lazy mode, and a `Resolve` of the same order. -/
def createAndResolve (lazyCheckout : Bool) : List Job :=
  [.create (.mode lazyCheckout) (.card (.named (bytes "m1")) (bytes "o-1") 100),
   .resolve (.onPod 0) (bytes "m1") (bytes "o-1")]

theorem createAndResolve_order (lazyCheckout : Bool) : ∀ j ∈ createAndResolve lazyCheckout, ∀ x,
    j.order? = some x → x = (bytes "m1", bytes "o-1") := by
  intro j hj x hx
  simp only [createAndResolve, List.mem_cons, List.not_mem_nil, or_false] at hj
  rcases hj with rfl | rfl
  · exact (Option.some.inj hx).symm
  · exact (Option.some.inj hx).symm

/-- An eager `Create` gets its session from Stripe and cannot store it; then the customer opens
the hosted checkout. -/
def lostSession : System :=
  System.run (Deployment.sample .binary) (World.fresh [.named (bytes "m1")])
    (createAndResolve false)
    (steps 0 2 ++ [(0, { fault := some .badConnection })] ++ steps 1 9)

/-- The order has two sessions. -/
theorem two_sessions :
    lostSession.world.sessions.map (fun ss => ss.session.id) = [bytes "cs_0", bytes "cs_1"] ∧
      (∀ ss ∈ lostSession.world.sessions,
        ss.req.metadata.get (bytes "merchant_id") = bytes "m1" ∧
          ss.req.metadata.get (bytes "order_id") = bytes "o-1") ∧
      ¬ ∀ ss ∈ lostSession.world.sessions, ∀ ss' ∈ lostSession.world.sessions,
        ss.session.id = ss'.session.id := by
  decide +kernel

/-- In lazy mode the one session is that of `Resolve`. -/
theorem one_session_lazy :
    (System.run (Deployment.sample .binary) (World.fresh [.named (bytes "m1")])
        (createAndResolve true) (steps 0 1 ++ steps 1 9)).world.sessions.length = 1 ∧
      ∀ ss ∈ (System.run (Deployment.sample .binary) (World.fresh [.named (bytes "m1")])
        (createAndResolve true) (steps 0 1 ++ steps 1 9)).world.sessions,
      ∀ ss' ∈ (System.run (Deployment.sample .binary) (World.fresh [.named (bytes "m1")])
        (createAndResolve true) (steps 0 1 ++ steps 1 9)).world.sessions,
        ss.session.id = ss'.session.id := by
  refine ⟨by decide +kernel, (one_session_iff (fun _ => rfl) rfl (createAndResolve_order true)
    (steps 0 1 ++ steps 1 9)).mpr ?_⟩
  rintro ⟨⟨e, he, s, inp, req, key, hj, hop, -⟩, -⟩
  -- the `Create` is in lazy mode, and would have to be in eager mode
  obtain ⟨j, t, hj', hcall, -⟩ := System.job_call _ _ _ he
  cases hj.symm.trans hj'
  rw [hop] at hcall
  cases hcall with
  | create hM hc =>
    cases hc with
    | session _ hlazy =>
      have hmem := List.mem_of_getElem? hj
      simp only [createAndResolve, List.mem_cons, List.not_mem_nil, or_false, Job.create.injEq,
        reduceCtorEq] at hmem
      rw [hmem.1] at hlazy
      cases hlazy

end EasyPay
