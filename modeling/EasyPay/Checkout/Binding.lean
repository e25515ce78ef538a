import EasyPay.Checkout.Sessions
import EasyPay.Service.MerchantService

/-!
# A checkout belongs to its order

A hosted-checkout link carries a token for its merchant id and order id, and `Resolve`
turns the two ids into the URL of a Stripe session.  The token, the key of the URL cache,
the lock and the idempotency key all join the two ids with a colon, which both may contain.

* `token_bound_iff`: a token is good for one order only, exactly when the colon between the
  ids cannot be moved.
* `resolve_own_session`: if no two orders of a run can be taken for each other, every URL
  `Resolve` returns shows a session of the order it was asked for.
-/

namespace EasyPay

open GoStrings Tables Ports

/-! ## Tokens -/

/-- **Tokens.**  If HMAC does not collide, a token for `m`, `o` is accepted for these two ids
only, at any time and with any lifetime, exactly when moving the separator does not turn
them into the other two. -/
theorem token_bound_iff (hmac : (secret msg : Str) → Str) {secret : Str}
    (hinj : Function.Injective (hmac secret)) (m o m' o' : Str) :
    (∀ now now' lifetime, CheckoutToken.verify hmac now' secret m' o'
        (CheckoutToken.sign hmac now secret m o lifetime) = .ok () → m = m' ∧ o = o') ↔
      ¬ Shifted 58 m o m' o' ∧ ¬ Shifted 58 m' o' m o := by
  constructor
  · intro h
    -- a token that has just been signed has not expired
    have hverify : ∀ hshift : CheckoutToken.message m' o' (unix 0) =
        CheckoutToken.message m o (unix 0), m = m' ∧ o = o' := by
      intro hshift
      refine h 0 0 0 ((CheckoutToken.verify_signWithExpiry _ _ _ _ _ _ _).mpr ⟨?_, ?_⟩)
      · exact Int64.le_refl _
      · exact (CheckoutToken.signWithExpiry_eq_iff hinj _ _ _ _ _).mpr hshift
    constructor
    · intro hs
      have heq := hverify ((CheckoutToken.message_eq_iff _ _ _ _ _).mpr (.inr (.inr hs)))
      exact absurd hs.length_lt (by rw [heq.1]; exact lt_irrefl _)
    · intro hs
      have heq := hverify ((CheckoutToken.message_eq_iff _ _ _ _ _).mpr (.inr (.inl hs)))
      exact absurd hs.length_lt (by rw [heq.1]; exact lt_irrefl _)
  · rintro ⟨hs, hs'⟩ now now' lifetime hok
    obtain ⟨-, hsig⟩ := (CheckoutToken.verify_signWithExpiry _ _ _ _ _ _ _).mp hok
    have hmsg := (CheckoutToken.signWithExpiry_eq_iff hinj _ _ _ _ _).mp hsig
    rcases (CheckoutToken.message_eq_iff _ _ _ _ _).mp hmsg with ⟨rfl, rfl⟩ | h | h
    · exact ⟨rfl, rfl⟩
    · exact absurd h hs'
    · exact absurd h hs

/-- The token for order `b:c` of merchant `a` is good for order `c` of merchant `a:b`. -/
theorem token_not_bound :
    MerchantService.Accepted (newMerchantRepository 1) (bytes "a") ∧
      MerchantService.Accepted (newMerchantRepository 1) (bytes "a:b") ∧
      ValidOrderID (bytes "b:c") ∧ ValidOrderID (bytes "c") ∧
      CheckoutToken.verify (fun _ msg => msg) 0 (bytes "key") (bytes "a:b") (bytes "c")
        (CheckoutToken.sign (fun _ msg => msg) 0 (bytes "key") (bytes "a") (bytes "b:c") second) =
        .ok () := by
  refine ⟨?_, ?_, by decide, by decide, ?_⟩
  · exact (MerchantService.accepted_iff _ _).mpr ⟨⟨bytes "a", by decide⟩, by decide, by decide⟩
  · exact (MerchantService.accepted_iff _ _).mpr ⟨⟨bytes "a:b", by decide⟩, by decide, by decide⟩
  · rfl

/-- Ids without a colon are safe. -/
theorem token_bound_sample :
    ValidOrderID (bytes "o-1") ∧ ∀ now now' lifetime,
      CheckoutToken.verify (fun _ msg => msg) now' (bytes "key") (bytes "m2") (bytes "o-1")
        (CheckoutToken.sign (fun _ msg => msg) now (bytes "key") (bytes "m1") (bytes "o-1")
          lifetime) = .ok () → bytes "m1" = bytes "m2" ∧ bytes "o-1" = bytes "o-1" := by
  refine ⟨by decide, (token_bound_iff (fun _ msg => msg) (fun _ _ h => h) _ _ _ _).mpr ⟨?_, ?_⟩⟩
  · intro hs
    exact absurd hs.length_lt (by decide)
  · intro hs
    exact absurd hs.length_lt (by decide)

/-! ## Orders that cannot be taken for each other -/

/-- Some `Create` or `Resolve` of the run is for this order. -/
def Involved (js : List Job) (m o : Str) : Prop := ∃ j ∈ js, j.order? = some (m, o)

/-- No two orders of the run have the same ids once joined with a colon, or the same ids for
SQL. -/
structure Unambiguous (D : Deployment) (js : List Job) : Prop where
  colon : ∀ m o m' o', Involved js m o → Involved js m' o' → cacheKey m o = cacheKey m' o' →
    m = m' ∧ o = o'
  sql : ∀ m o m' o', Involved js m o → Involved js m' o' → D.collation.eq m m' = true →
    D.collation.eq o o' = true → m = m' ∧ o = o'

/-- SHA-256, cut to 16 bytes, does not collide on the orders of the run. -/
def HashInjective (D : Deployment) (js : List Job) : Prop :=
  ∀ m o m' o', Involved js m o → Involved js m' o' →
    D.hash16 (hashInput m o) = D.hash16 (hashInput m' o') → hashInput m o = hashInput m' o'

/-- The order in the metadata of a session. -/
def StripeSession.merchantID (ss : StripeSession) : Str := ss.req.metadata.get (bytes "merchant_id")

def StripeSession.orderID (ss : StripeSession) : Str := ss.req.metadata.get (bytes "order_id")

/-- A session of this order, with this id. -/
def OwnSession (w : World) (m o id : Str) : Prop :=
  ∃ ss ∈ w.sessions, ss.session.id = id ∧ ss.merchantID = m ∧ ss.orderID = o

/-- The URL shows a session of this order. -/
def OwnURL (D : Deployment) (w : World) (m o url : Str) : Prop :=
  ∃ id, D.stripe.page url = some id ∧ OwnSession w m o id

section
variable {D : Deployment} {w : World} {js : List Job} {xs : List (Nat × Choice)}

theorem Won.involved {hist : List CallEvent} {i : Nat} {s : PaymentService}
    {inp : CreatePaymentInput} {M : Merchant} (h : Won D js hist i s inp M) :
    Involved js M.merchantID inp.orderID := by
  refine ⟨_, List.mem_of_getElem? h.1, ?_⟩
  show inp.merchant.map _ = _
  rw [h.2.1.1]
  rfl

/-- What `Resolve(m, o)` reads is the order `m`, `o`. -/
theorem read_own (hp : ∀ p, w.pools p = []) (hjs : Unambiguous D js) {i : Nat}
    {r : CheckoutResolver} {m o : Str} (hj : js[i]? = some (.resolve r m o)) {x : UInt8}
    {order : Transaction}
    (hread : CheckoutResolver.readBy x m o order ∈ callsOf i (System.run D w js xs).hist) :
    order.merchantID = m ∧ order.orderID = o := by
  obtain ⟨e, he, -, hstep⟩ := mem_callsOf.mp hread
  obtain ⟨k, s, inp, M, hwon, hm, ho, hcm, hco⟩ := reads_invariant D js hp xs e he x m o order hstep
  have hinv : Involved js order.merchantID order.orderID := by
    rw [hm, ho]
    exact hwon.involved
  exact hjs.sql _ _ _ _ hinv ⟨_, List.mem_of_getElem? hj, rfl⟩ hcm hco

/-- Every session was asked for under a key of the order in its metadata. -/
theorem session_own_key (hp : ∀ p, w.pools p = []) (hs : w.sessions = []) {ss : StripeSession}
    (hss : ss ∈ (System.run D w js xs).world.sessions) :
    Involved js ss.merchantID ss.orderID ∧
      (ss.key = deriveTransactionID D ss.merchantID ss.orderID ∨
        ss.key = bytes "checkout:" ++ cacheKey ss.merchantID ss.orderID) := by
  obtain ⟨e, he, hop, -⟩ := (stripe_invariant D hs js xs).asked ss hss
  rcases session_request he hop with
    ⟨s, inp, M, hj, hM, hreq, hkey⟩ | ⟨r, m, o, i, order, hj, hread, hreq, hkey⟩
  · have hm : ss.merchantID = M.merchantID := by rw [StripeSession.merchantID, hreq]; rfl
    have ho : ss.orderID = inp.orderID := by rw [StripeSession.orderID, hreq]; rfl
    rw [hm, ho]
    refine ⟨⟨_, List.mem_of_getElem? hj, ?_⟩, .inl hkey⟩
    show inp.merchant.map _ = _
    rw [hM.1]
    rfl
  · have hm : ss.merchantID = order.merchantID := by rw [StripeSession.merchantID, hreq]; rfl
    have ho : ss.orderID = order.orderID := by rw [StripeSession.orderID, hreq]; rfl
    obtain ⟨e', he', -, hstep⟩ := mem_callsOf.mp hread
    obtain ⟨k, s, inp, M, hwon, hm', ho', -, -⟩ :=
      reads_invariant D js hp xs e' he' i m o order hstep
    rw [hm, ho]
    refine ⟨?_, .inr hkey⟩
    rw [hm', ho']
    exact hwon.involved

/-- A session that Stripe answers to a request under a key of an order is a session of that
order. -/
theorem answered_own (hp : ∀ p, w.pools p = []) (hs : w.sessions = []) (hjs : Unambiguous D js)
    (hhash : HashInjective D js) {i : Nat} {req : CreateCheckoutRequest} {key m o : Str}
    {sess : CheckoutSession} (hinv : Involved js m o)
    (hkey : key = deriveTransactionID D m o ∨ key = bytes "checkout:" ++ cacheKey m o)
    (hmem : (Op.createCheckoutSession req key).gave (.ok sess) ∈
      callsOf i (System.run D w js xs).hist) :
    ∃ ss ∈ (System.run D w js xs).world.sessions, ss.session = sess ∧ ss.merchantID = m ∧
      ss.orderID = o := by
  obtain ⟨e, he, -, hstep⟩ := mem_callsOf.mp hmem
  obtain ⟨ss, hss, hsk, rfl⟩ := (stripe_invariant D hs js xs).answered e he req key sess hstep
  obtain ⟨hinv', hkey'⟩ := session_own_key hp hs hss
  refine ⟨ss, hss, rfl, ?_⟩
  rw [hsk] at hkey'
  rcases hkey with rfl | rfl
  · rcases hkey' with hk | hk
    · have hh := hhash _ _ _ _ hinv hinv' (hexEncode_injective hk)
      obtain ⟨h1, h2⟩ := hjs.colon _ _ _ _ hinv hinv' hh
      exact ⟨h1.symm, h2.symm⟩
    · exact absurd hk (deriveTransactionID_ne_checkout D _ _ _)
  · rcases hkey' with hk | hk
    · exact absurd hk.symm (deriveTransactionID_ne_checkout D _ _ _)
    · obtain ⟨h1, h2⟩ := hjs.colon _ _ _ _ hinv hinv' (List.append_cancel_left hk)
      exact ⟨h1.symm, h2.symm⟩

end

/-! ## What is stored, cached and read -/

/-- In this state, the session in a row, the URL in a cache, and what `Resolve` calls have got
from either, are of the order they stand under. -/
structure BindingInv (D : Deployment) (js : List Job) (S : System) : Prop where
  rows : ∀ p, ∀ r ∈ S.world.pools p, ∀ id, r.stripeSession = some id → id ≠ [] →
    OwnSession S.world r.merchantID r.orderID id
  caches : ∀ pod key e, (S.world.urlCaches pod).data.lookup key = some e →
    ∃ m o, Involved js m o ∧ key = cacheKey m o ∧ OwnURL D S.world m o e.url
  reads : ∀ i r m o, js[i]? = some (.resolve r m o) → ∀ x order,
    CheckoutResolver.readBy x m o order ∈ callsOf i S.hist → order.stripeSessionID ≠ [] →
    OwnSession S.world m o order.stripeSessionID
  hits : ∀ i r m o, js[i]? = some (.resolve r m o) → ∀ pod url,
    (Op.cacheGet pod (cacheKey m o)).gave (some url) ∈ callsOf i S.hist → OwnURL D S.world m o url

theorem OwnSession.mono {w w' : World} {m o id : Str} (h : OwnSession w m o id)
    (hw : ∀ ss ∈ w.sessions, ss ∈ w'.sessions) : OwnSession w' m o id := by
  obtain ⟨ss, hss, h⟩ := h
  exact ⟨ss, hw ss hss, h⟩

theorem OwnURL.mono {D : Deployment} {w w' : World} {m o url : Str} (h : OwnURL D w m o url)
    (hw : ∀ ss ∈ w.sessions, ss ∈ w'.sessions) : OwnURL D w' m o url := by
  obtain ⟨id, hpage, h⟩ := h
  exact ⟨id, hpage, h.mono hw⟩

/-- A `Create` or `Resolve` stores a session it was given, in the order it is for. -/
theorem JobCall.store_inv {D : Deployment} {j : Job} {t : Calls} {i : UInt8} {m o sid pi : Str}
    (h : JobCall D j t (.updateCheckout i m o sid pi)) :
    ∃ req key sess, (Op.createCheckoutSession req key).gave (.ok sess) ∈ t ∧ sid = sess.id ∧
      j.order? = some (m, o) ∧
      (key = deriveTransactionID D m o ∨
        ∃ r x order, j = .resolve r m o ∧ CheckoutResolver.readBy x m o order ∈ t ∧
          key = checkoutIdemKey order) := by
  cases h with
  | create hM hc =>
    cases hc with
    | store sess _ _ =>
      refine ⟨_, _, sess, List.mem_cons_of_mem _ List.mem_cons_self, rfl, ?_, .inl rfl⟩
      show Option.map _ _ = _
      rw [hM.1]
      rfl
  | resolve hr =>
    cases hr with
    | store i order sess hread hmade =>
      exact ⟨_, _, sess, hmade, rfl, rfl, .inr ⟨_, i, order, rfl, hread, rfl⟩⟩
  | @handle s payload sig e t op k he hr => cases s.handle_next hr
  | reconcile hr => cases hr
  | confirm hc => cases hc
  | listen hc => cases hc

/-- Only `Resolve` fills a cache, under the key of its order. -/
theorem JobCall.cachePut_inv {D : Deployment} {j : Job} {t : Calls} {pod : Nat} {key url : Str}
    (h : JobCall D j t (.cachePut pod key url)) :
    ∃ r m o, j = .resolve r m o ∧ key = cacheKey m o ∧ r.Sourced D.unicode m o t url := by
  cases h with
  | create hM hc => cases hc
  | resolve hr =>
    cases hr with
    | warm url hsrc => exact ⟨_, _, _, rfl, rfl, hsrc⟩
  | @handle s payload sig e t op k he hr => cases s.handle_next hr
  | reconcile hr => cases hr
  | confirm hc => cases hc
  | listen hc => cases hc

section
variable {D : Deployment} {w : World} {js : List Job}

/-- The id of a session leads to it. -/
theorem OwnSession.page (hs : w.sessions = []) {xs : List (Nat × Choice)} {m o id : Str}
    (h : OwnSession (System.run D w js xs).world m o id) :
    OwnURL D (System.run D w js xs).world m o (stripeCheckoutURL id) := by
  obtain ⟨ss, hss, rfl, h⟩ := h
  obtain ⟨n, hn⟩ := List.mem_iff_getElem?.mp hss
  refine ⟨ss.session.id, ?_, ss, hss, rfl, h⟩
  rw [(stripe_invariant D hs js xs).minted n ss hn]
  exact D.stripe.page_id n

section
variable (hp : ∀ p, w.pools p = []) (hs : w.sessions = []) (hjs : Unambiguous D js)
  (hhash : HashInjective D js)

include hp hs hjs hhash

/-- A URL that `Resolve(m, o)` gets from a row or from Stripe shows a session of the order. -/
theorem sourced_own {xs : List (Nat × Choice)} (hB : BindingInv D js (System.run D w js xs))
    {i : Nat} {r : CheckoutResolver} {m o url : Str} (hj : js[i]? = some (.resolve r m o))
    (hsrc : r.Sourced D.unicode m o (callsOf i (System.run D w js xs).hist) url) :
    OwnURL D (System.run D w js xs).world m o url := by
  cases hsrc with
  | stored x order hread hne => exact (hB.reads i r m o hj x order hread hne).page hs
  | made x order session hread hmade =>
    obtain ⟨hm, ho⟩ := read_own hp hjs hj hread
    have hkey : checkoutIdemKey order = bytes "checkout:" ++ cacheKey m o := by
      rw [checkoutIdemKey, hm, ho]
    obtain ⟨ss, hss, rfl, h⟩ := answered_own hp hs hjs hhash
      ⟨_, List.mem_of_getElem? hj, rfl⟩ (.inr hkey) hmade
    obtain ⟨n, hn⟩ := List.mem_iff_getElem?.mp hss
    refine ⟨ss.session.id, ?_, ss, hss, rfl, h⟩
    rw [(stripe_invariant D hs js xs).minted n ss hn]
    exact D.stripe.page_url n

/-- A session that is about to be stored is one of the order it is stored for. -/
theorem stored_own {xs : List (Nat × Choice)} {i : Nat} {j : Job} (hj : js[i]? = some j) {x : UInt8} {m o sid pi : Str}
    (hcall : JobCall D j (callsOf i (System.run D w js xs).hist) (.updateCheckout x m o sid pi)) :
    Involved js m o ∧ OwnSession (System.run D w js xs).world m o sid := by
  obtain ⟨req, key, sess, hmem, rfl, horder, hkey⟩ := hcall.store_inv
  have hinv : Involved js m o := ⟨j, List.mem_of_getElem? hj, horder⟩
  have hkey : key = deriveTransactionID D m o ∨ key = bytes "checkout:" ++ cacheKey m o := by
    rcases hkey with hk | ⟨r, y, order, rfl, hread, rfl⟩
    · exact .inl hk
    · obtain ⟨hm, ho⟩ := read_own hp hjs hj hread
      right
      rw [checkoutIdemKey, hm, ho]
  obtain ⟨ss, hss, rfl, h⟩ := answered_own hp hs hjs hhash hinv hkey hmem
  exact ⟨hinv, ss, hss, rfl, h⟩

/-- The rows after one more call. -/
theorem BindingInv.rows_after {ys : List (Nat × Choice)}
    (hB : BindingInv D js (System.run D w js ys)) {i : Nat} {c : Choice} {op : Op}
    {k : op.Ans → Svc Outcome} {j : Job} (hj : js[i]? = some j)
    (hcall : JobCall D j (callsOf i (System.run D w js ys).hist) op) :
    ∀ p, ∀ r ∈ ((System.run D w js ys).after D i c op k).world.pools p, ∀ id,
      r.stripeSession = some id → id ≠ [] →
      OwnSession ((System.run D w js ys).after D i c op k).world r.merchantID r.orderID id := by
  have hmono := exec_sessions_mono D op c (System.run D w js ys).world
  have hold : ∀ p, ∀ r ∈ (System.run D w js ys).world.pools p, ∀ id, r.stripeSession = some id →
      id ≠ [] →
      OwnSession ((System.run D w js ys).after D i c op k).world r.merchantID r.orderID id := by
    intro p r hr id hid hne
    exact (hB.rows p r hr id hid hne).mono hmono
  intro p r hr id hid hne
  obtain ⟨n, hn⟩ := List.getElem?_of_mem hr
  rcases exec_row_cases hn with hbefore | ⟨t, rfl, hrow, -⟩ |
    ⟨r₀, x, m, oid, st, pi, hr₀, -, -, -, -, rfl⟩ |
    ⟨r₀, x, m, oid, sess, pi, hr₀, rfl, -, -, hwhere, rfl⟩
  · exact hold p r (List.mem_of_getElem? hbefore) id hid hne
  · -- a new row has no session
    obtain ⟨s, inp, M, -, -, -, rfl⟩ := hcall.insert_inv
    obtain ⟨-, -, -, -, -, -, -, -, -, hsess⟩ := D.row_ok hrow
    rw [hsess] at hid
    cases hid
  · exact hold p r₀ (List.mem_of_getElem? hr₀) id hid hne
  · -- the row SQL takes for the order is the row of the order
    have hr₀ := List.mem_of_getElem? hr₀
    obtain ⟨hinv, hown⟩ := stored_own hp hs hjs hhash hj hcall
    obtain ⟨k', s, inp, M, code, hwon, -, -, hfacts⟩ :=
      (orders_invariant D js hp ys).winner_of_row hr₀
    have hrm : r₀.merchantID = M.merchantID := congrArg Facts.merchantID hfacts
    have hro : r₀.orderID = inp.orderID := congrArg Facts.orderID hfacts
    unfold TransactionRepo.ofOrder at hwhere
    rw [Bool.and_eq_true, hrm, hro] at hwhere
    obtain ⟨rfl, rfl⟩ := hjs.sql _ _ _ _ hwon.involved hinv hwhere.1 hwhere.2
    simp only [TransactionRepo.setCheckout, coalesce] at hid
    split at hid
    · exact hold p r₀ hr₀ id hid hne
    · cases hid
      show OwnSession _ r₀.merchantID r₀.orderID _
      rw [hrm, hro]
      exact hown.mono hmono

/-- The caches after one more call. -/
theorem BindingInv.caches_after {ys : List (Nat × Choice)}
    (hB : BindingInv D js (System.run D w js ys)) {i : Nat} {c : Choice} {op : Op}
    {k : op.Ans → Svc Outcome} {j : Job} (hj : js[i]? = some j)
    (hcall : JobCall D j (callsOf i (System.run D w js ys).hist) op) :
    ∀ pod key e,
      (((System.run D w js ys).after D i c op k).world.urlCaches pod).data.lookup key = some e →
      ∃ m o, Involved js m o ∧ key = cacheKey m o ∧
        OwnURL D ((System.run D w js ys).after D i c op k).world m o e.url := by
  have hmono := exec_sessions_mono D op c (System.run D w js ys).world
  have hold : ∀ pod key e, ((System.run D w js ys).world.urlCaches pod).data.lookup key = some e →
      ∃ m o, Involved js m o ∧ key = cacheKey m o ∧
        OwnURL D ((System.run D w js ys).after D i c op k).world m o e.url := by
    intro pod key e he
    obtain ⟨m, o, hinv, hkey, hown⟩ := hB.caches pod key e he
    exact ⟨m, o, hinv, hkey, hown.mono hmono⟩
  intro pod key e he
  have he : ((exec D op c (System.run D w js ys).world).2.urlCaches pod).data.lookup key = some e :=
    he
  rcases exec_urlCaches_cases D op c (System.run D w js ys).world with h | ⟨pod', key', url, rfl, h⟩
  · rw [h] at he
    exact hold pod key e he
  · rw [h] at he
    by_cases hpod : pod = pod'
    · subst hpod
      rw [Function.update_self] at he
      rcases URLCache.lookup_put he with ⟨rfl, rfl⟩ | he
      · obtain ⟨r, m, o, rfl, rfl, hsrc⟩ := hcall.cachePut_inv
        exact ⟨m, o, ⟨_, List.mem_of_getElem? hj, rfl⟩, rfl,
          (sourced_own hp hs hjs hhash hB hj hsrc).mono hmono⟩
      · exact hold pod key e he
    · rw [Function.update_of_ne hpod] at he
      exact hold pod key e he

/-- Every call keeps the invariant. -/
theorem BindingInv.after {ys : List (Nat × Choice)}
    (hB : BindingInv D js (System.run D w js ys)) {i : Nat} {c : Choice} {op : Op}
    {k : op.Ans → Svc Outcome} {j : Job} (hj : js[i]? = some j)
    (hcall : JobCall D j (callsOf i (System.run D w js ys).hist) op) :
    BindingInv D js ((System.run D w js ys).after D i c op k) := by
  have hmono := exec_sessions_mono D op c (System.run D w js ys).world
  refine ⟨hB.rows_after hp hs hjs hhash hj hcall, hB.caches_after hp hs hjs hhash hj hcall, ?_, ?_⟩
  · intro i' r m o hj' x order hread hne
    rcases System.mem_callsOf_after.mp hread with hold | ⟨rfl, hans⟩
    · exact (hB.reads i' r m o hj' x order hold hne).mono hmono
    · -- a read that is being made: the session comes from the row
      have hop : op = .getByMerchantOrderID x m o := congrArg Sigma.fst hans
      subst hop
      obtain ⟨p, row, hrow, k', s, inp, M, hwon, hrm, hro, -, -, hsess, hcm, hco⟩ :=
        (orders_invariant D js hp ys).read_ok (Op.gave_inj.mp hans)
      rw [hrm] at hcm
      rw [hro] at hco
      obtain ⟨hm, ho⟩ := hjs.sql _ _ _ _ hwon.involved ⟨_, List.mem_of_getElem? hj', rfl⟩ hcm hco
      rw [hsess] at hne ⊢
      have hown : OwnSession (System.run D w js ys).world row.merchantID row.orderID
          (stringOf row.stripeSession) := by
        cases hsome : row.stripeSession with
        | none =>
          rw [hsome] at hne
          exact absurd rfl hne
        | some id =>
          rw [hsome] at hne
          exact hB.rows p row hrow id hsome hne
      rw [hrm, hro, hm, ho] at hown
      exact hown.mono hmono
  · intro i' r m o hj' pod url hhit
    rcases System.mem_callsOf_after.mp hhit with hold | ⟨rfl, hans⟩
    · exact (hB.hits i' r m o hj' pod url hold).mono hmono
    · -- a hit: the entry stands under the key of an order, and that is this one
      have hop : op = .cacheGet pod (cacheKey m o) := congrArg Sigma.fst hans
      subst hop
      obtain ⟨e, he, rfl, -⟩ := URLCache.get_some (Op.gave_inj.mp hans)
      obtain ⟨m', o', hinv, hkey, hown⟩ := hB.caches pod _ e he
      obtain ⟨rfl, rfl⟩ := hjs.colon _ _ _ _ hinv ⟨_, List.mem_of_getElem? hj', rfl⟩ hkey.symm
      exact hown.mono hmono

end

theorem binding_invariant (hp : ∀ p, w.pools p = []) (hs : w.sessions = [])
    (hc : ∀ pod key, (w.urlCaches pod).data.lookup key = none) (hjs : Unambiguous D js)
    (hhash : HashInjective D js) (xs : List (Nat × Choice)) :
    BindingInv D js (System.run D w js xs) := by
  refine System.run_rule D w js ?_
    (fun ys i c o k j hB hj hcall => hB.after hp hs hjs hhash hj hcall) xs
  constructor
  · intro p r hr
    rw [show (Sys.start w (js.map (Job.prog D)) : System).world = w from rfl, hp] at hr
    cases hr
  · intro pod key e he
    rw [show (Sys.start w (js.map (Job.prog D)) : System).world = w from rfl, hc] at he
    cases he
  · intro i r m o _ x order hread
    cases hread
  · intro i r m o _ pod url hhit
    cases hhit

/-- **Resolve.**  In every state of every run in which no two orders can be taken for each
other, a URL that `Resolve(m, o)` has returned shows a session of the order `m`, `o`. -/
theorem resolve_own_session (hp : ∀ p, w.pools p = []) (hs : w.sessions = [])
    (hc : ∀ pod key, (w.urlCaches pod).data.lookup key = none) (hjs : Unambiguous D js)
    (hhash : HashInjective D js) (xs : List (Nat × Choice)) {i : Nat} {r : CheckoutResolver}
    {m o url : Str} (hj : js[i]? = some (.resolve r m o))
    (hres : (System.run D w js xs).procs[i]? = some (.ret (.resolved (.ok url)))) :
    OwnURL D (System.run D w js xs).world m o url := by
  have hB := binding_invariant hp hs hc hjs hhash xs
  obtain ⟨q, hq, hruns⟩ := System.run_runs D w js hj xs
  cases hres.symm.trans hq
  obtain ⟨res, hruns, heq⟩ := Prog.runs_map_ret hruns
  cases heq
  rcases r.resolve_ok D.unicode hruns with hhit | hsrc
  · exact hB.hits i r m o hj r.pod url hhit
  · exact sourced_own hp hs hjs hhash hB hj hsrc

end

/-! ## Two orders with one name -/

/-- Both orders are created, on different pools, and then resolved. -/
def createTwoResolveTwo (m o m' o' : Str) : List Job :=
  [.create (.mode true) (.card (.onShard m 0) o 100),
   .create (.mode true) (.card (.onShard m' 1) o' 200),
   .resolve (.onPod 0) m o, .resolve (.onPod 0) m' o']

def createTwoResolveTwoRun (m o m' o' : Str) : System :=
  System.run Deployment.twoPools (World.fresh [.onShard m 0, .onShard m' 1])
    (createTwoResolveTwo m o m' o') (steps 0 1 ++ steps 1 1 ++ steps 2 9 ++ steps 3 9)

/-- A customer of order `c` of merchant `a:b` is sent to the checkout of order `b:c` of merchant
`a`. -/
theorem resolve_other_session :
    MerchantService.Accepted (newMerchantRepository 2) (bytes "a") ∧
      MerchantService.Accepted (newMerchantRepository 2) (bytes "a:b") ∧
      ValidOrderID (bytes "b:c") ∧ ValidOrderID (bytes "c") ∧
      (createTwoResolveTwoRun (bytes "a") (bytes "b:c") (bytes "a:b") (bytes "c")).procs[3]? =
        some (.ret (.resolved (.ok (checkoutBase ++ bytes "cs_0")))) ∧
      (createTwoResolveTwoRun (bytes "a") (bytes "b:c") (bytes "a:b")
          (bytes "c")).world.sessions.map (fun ss => (ss.session.id, ss.merchantID, ss.orderID)) =
        [(bytes "cs_0", bytes "a", bytes "b:c")] ∧
      ¬ OwnURL Deployment.twoPools (createTwoResolveTwoRun (bytes "a") (bytes "b:c") (bytes "a:b")
        (bytes "c")).world (bytes "a:b") (bytes "c") (checkoutBase ++ bytes "cs_0") := by
  have hsess : (createTwoResolveTwoRun (bytes "a") (bytes "b:c") (bytes "a:b")
      (bytes "c")).world.sessions.map (fun ss => (ss.session.id, ss.merchantID, ss.orderID)) =
        [(bytes "cs_0", bytes "a", bytes "b:c")] := by
    decide +kernel
  refine ⟨?_, ?_, by decide, by decide, Prog.getElem?_of_result? (by decide +kernel), hsess, ?_⟩
  · exact (MerchantService.accepted_iff _ _).mpr ⟨⟨bytes "a", by decide⟩, by decide, by decide⟩
  · exact (MerchantService.accepted_iff _ _).mpr ⟨⟨bytes "a:b", by decide⟩, by decide, by decide⟩
  · rintro ⟨id, -, ss, hss, -, hm, -⟩
    have hmem := List.mem_map_of_mem (f := fun ss => (ss.session.id, ss.merchantID, ss.orderID)) hss
    rw [hsess, List.mem_singleton] at hmem
    have : ss.merchantID = bytes "a" := congrArg (fun x => x.2.1) hmem
    rw [hm] at this
    exact absurd this (by decide)

theorem involved_createTwoResolveTwo {m o m' o' x y : Str}
    (h : Involved (createTwoResolveTwo m o m' o') x y) : (x = m ∧ y = o) ∨ (x = m' ∧ y = o') := by
  obtain ⟨j, hj, horder⟩ := h
  simp only [createTwoResolveTwo, List.mem_cons, List.not_mem_nil, or_false] at hj
  rcases hj with rfl | rfl | rfl | rfl
  · cases horder
    exact .inl ⟨rfl, rfl⟩
  · cases horder
    exact .inr ⟨rfl, rfl⟩
  · cases horder
    exact .inl ⟨rfl, rfl⟩
  · cases horder
    exact .inr ⟨rfl, rfl⟩

theorem resolve_own_session_sample :
    (createTwoResolveTwoRun (bytes "m1") (bytes "o-1") (bytes "m2") (bytes "o-1")).procs[3]? =
        some (.ret (.resolved (.ok (checkoutBase ++ bytes "cs_1")))) ∧
      OwnURL Deployment.twoPools
        (createTwoResolveTwoRun (bytes "m1") (bytes "o-1") (bytes "m2") (bytes "o-1")).world
        (bytes "m2") (bytes "o-1") (checkoutBase ++ bytes "cs_1") := by
  have hret : (createTwoResolveTwoRun (bytes "m1") (bytes "o-1") (bytes "m2")
      (bytes "o-1")).procs[3]? = some (.ret (.resolved (.ok (checkoutBase ++ bytes "cs_1")))) :=
    Prog.getElem?_of_result? (by decide +kernel)
  refine ⟨hret, resolve_own_session (fun _ => rfl) rfl (fun _ _ => rfl) ⟨?_, ?_⟩ ?_ _
    (i := 3) (r := .onPod 0) rfl hret⟩
  · intro m o m' o' h h' hkey
    rcases involved_createTwoResolveTwo h with ⟨rfl, rfl⟩ | ⟨rfl, rfl⟩ <;>
      rcases involved_createTwoResolveTwo h' with ⟨rfl, rfl⟩ | ⟨rfl, rfl⟩ <;>
      revert hkey <;> decide
  · intro m o m' o' _ _ hm ho
    exact ⟨(Collation.binary_eq _ _).mp hm, (Collation.binary_eq _ _).mp ho⟩
  · intro m o m' o' h h' hhash
    rcases involved_createTwoResolveTwo h with ⟨rfl, rfl⟩ | ⟨rfl, rfl⟩ <;>
      rcases involved_createTwoResolveTwo h' with ⟨rfl, rfl⟩ | ⟨rfl, rfl⟩ <;>
      revert hhash <;> decide +kernel

end EasyPay
