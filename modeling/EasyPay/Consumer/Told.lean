import EasyPay.Consumer.Pipeline
import EasyPay.Orders.Paid

/-!
# What a merchant is told

The gateway announces orders on the topic, and the consumers of the topic tell the merchants.  Both
together: what a merchant is told is true, and comes signed.
-/

namespace EasyPay

open GoStrings Ports Pipeline

section
variable {D : Deployment} {w : World} {js : List Job} {s : SettlementConsumer} {name : Str}
  {ps : List Participant}

/-- **Told the truth.**  If what is published on the topic are the announcements of the gateway, then
a request a consumer makes is for the merchant's own URL, verifies under the merchant's own secret, and
is an announcement for one of the merchant's orders, with the amount and the currency of the order.  If
that says `paid`, there are grounds for it.  A server that redirects a request sends it elsewhere; that
is its own doing. -/
theorem callback_truthful (hbinary : D.collation = .binary) (hempty : ∀ p, w.pools p = [])
    (hchain : w.onchain = []) (hquiet : w.published = []) {xs : List (Nat × Choice)}
    (htopic : ∀ p key value, .publisher p key value ∈ ps →
      ∃ ev ∈ (System.run D w js xs).world.published, s.unmarshal value = .ok ev)
    {ys : List (Nat × Turn)} {i : Nat} {req : CallbackRequest} {a : Res CallbackResponse}
    (hpost : (SettlementOp.post req).gave a ∈
      settlings (callsOf i (Pipeline.run D.collation s (.fresh name w.merchants) ps ys).hist)) :
    ∃ M ∈ w.merchants, ∃ ev ∈ (System.run D w js xs).world.published,
      ∃ q, ∃ r ∈ (System.run D w js xs).world.pools q,
        req.url = M.callbackURL ∧ s.marshal ev = .ok req.body ∧
        Hmac.verify s.hmacSHA256 M.secretKey (signedRequest req.timestamp req.body) req.signature = true ∧
        r.merchantID = M.merchantID ∧ ev.Copied r ∧
        (ev.status = TransactionStatus.paid.text →
          Grounds js (System.run D w js xs) r.merchantID r.orderID r.amount.toInt64) := by
  obtain ⟨p, m, hm, ev, M, now, body, hev, hrow, hbody, rfl⟩ :=
    (run_truthful name w.merchants ys).posts i req a hpost
  -- the event of the message is the one that was announced
  obtain ⟨ev', hev', hsame⟩ := htopic p _ _ (published_of_log _ _ _ _ _ _ p m hm)
  cases hev.symm.trans hsame
  have hM : M.merchantID = ev.merchantID := by
    have heq := List.find?_some (p := fun row : Merchant => D.collation.eq row.merchantID _) hrow
    rwa [hbinary, Collation.binary_eq] at heq
  have hsigned := verify_callback s ⟨M.callbackURL, M.secretKey⟩ now body
  have hmem : M ∈ w.merchants := List.mem_of_find?_eq_some hrow
  by_cases hpaid : ev.status = TransactionStatus.paid.text
  · obtain ⟨q, r, hr, hcopied, hgrounds⟩ :=
      announced_grounded hbinary hempty hchain hquiet hev' hpaid
    exact ⟨M, hmem, ev, hev', q, r, hr, rfl, hbody, hsigned, hcopied.1.trans hM.symm, hcopied,
      fun _ => hgrounds⟩
  · obtain ⟨q, r, hr, hcopied⟩ := announced_row hquiet hev'
    exact ⟨M, hmem, ev, hev', q, r, hr, rfl, hbody, hsigned, hcopied.1.trans hM.symm, hcopied,
      fun h => absurd h hpaid⟩

end

/-! ## A payment the merchant is told of -/

/-- The merchant of the order, with a URL. -/
def Merchant.reachable : Merchant :=
  { Merchant.named (bytes "m1") with
    secretKey := bytes "sk"
    callbackURL := bytes "https://m1.example/callback" }

/-- The order is created, and paid on the chain. -/
def announcedOnChain : System :=
  System.run (Deployment.sample .binary) (World.fresh [.reachable]) createRecordTrack
    (steps 0 1 ++ steps 1 4 ++ List.replicate 8 (2, .onChain))

def onChainEvent : PaymentConfirmedEvent :=
  { orderID := bytes "o-1"
    merchantID := bytes "m1"
    status := bytes "paid"
    stripePaymentIntentID := []
    amount := 100
    currency := bytes "USD"
    confirmedAt := -62135596800 }

/-- The consumer of a topic with one payload. -/
def SettlementConsumer.ofOnChain : SettlementConsumer :=
  { SettlementConsumer.live with
    unmarshal := decodeOnly (bytes "payload") onChainEvent
    marshal := fun _ => .ok (bytes "payload") }

def publishedOnChain : List Participant :=
  [.publisher 0 (bytes "o-1") (bytes "payload"), .consumer ⟨50⟩ 1]

def toldOnChain : Flow :=
  Pipeline.run (Deployment.sample .binary).collation .ofOnChain
    (.fresh (bytes "payment.confirmed") (World.fresh [.reachable]).merchants) publishedOnChain
    (turns 0 1 ++ turns 1 6)

/-- What was posted, and what the answer was. -/
def posted : Prog.Step settlementPort → Option (CallbackRequest × Res CallbackResponse)
  | ⟨.post req, a⟩ => some (req, a)
  | _ => none

theorem eq_gave_of_posted {x : Prog.Step settlementPort} {req : CallbackRequest} {a : Res CallbackResponse}
    (h : posted x = some (req, a)) : x = (SettlementOp.post req).gave a := by
  rcases x with ⟨o, b⟩
  cases o with
  | post req' => cases h; rfl
  | timeNow => cases h
  | wait d => cases h
  | getByMerchantID id => cases h

theorem callback_truthful_chain :
    ∃ req a, (SettlementOp.post req).gave a ∈ settlings (callsOf 1 toldOnChain.hist) ∧
      ∃ M ∈ (World.fresh [.reachable]).merchants, req.url = M.callbackURL ∧
        Hmac.verify Sha256.hmac M.secretKey (signedRequest req.timestamp req.body) req.signature =
          true ∧
        ∃ q, ∃ r ∈ announcedOnChain.world.pools q, r.merchantID = M.merchantID ∧
          Grounds createRecordTrack announcedOnChain r.merchantID r.orderID r.amount.toInt64 := by
  have hbinary : (Deployment.sample .binary).collation = .binary := rfl
  have hempty : ∀ p, (World.fresh [.reachable]).pools p = [] := fun _ => rfl
  have hchain : (World.fresh [.reachable]).onchain = [] := rfl
  have hquiet : (World.fresh [.reachable]).published = [] := rfl
  have hpublished : announcedOnChain.world.published = [onChainEvent] := by decide +kernel
  have hone : ((settlings (callsOf 1 toldOnChain.hist)).filterMap posted).length = 1 := by
    decide +kernel
  obtain ⟨⟨req, a⟩, hreq⟩ := List.length_eq_one_iff.mp hone
  obtain ⟨x, hx, hpost⟩ := List.mem_filterMap.mp
    (show (req, a) ∈ (settlings (callsOf 1 toldOnChain.hist)).filterMap posted by
      rw [hreq]
      exact List.mem_singleton.mpr rfl)
  rw [eq_gave_of_posted hpost] at hx
  have htopic : ∀ p key value, .publisher p key value ∈ publishedOnChain →
      ∃ ev ∈ announcedOnChain.world.published,
        SettlementConsumer.ofOnChain.unmarshal value = .ok ev := by
    intro p key value hmem
    refine ⟨onChainEvent, ?_, ?_⟩
    · rw [hpublished]
      exact List.mem_singleton.mpr rfl
    · rcases List.mem_cons.mp hmem with h | h
      · cases h
        exact decodeOnly_self (bytes "payload") onChainEvent
      · cases List.mem_singleton.mp h
  refine ⟨req, a, hx, ?_⟩
  unfold toldOnChain at hx
  unfold announcedOnChain at htopic ⊢
  obtain ⟨M, hM, ev, hev, q, r, hr, hurl, -, hverify, hmid, -, hgrounds⟩ :=
    callback_truthful hbinary hempty hchain hquiet htopic hx
  have hpaid : ev.status = TransactionStatus.paid.text := by
    unfold announcedOnChain at hpublished
    rw [hpublished] at hev
    rw [List.mem_singleton.mp hev]
    rfl
  exact ⟨M, hM, hurl, hverify, q, r, hr, hmid, hgrounds hpaid⟩

end EasyPay
