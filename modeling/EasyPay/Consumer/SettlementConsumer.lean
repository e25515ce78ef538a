import EasyPay.System
import EasyPay.Kafka.Consumer

/-!
# Settlement consumer

`internal/consumer/settlement_consumer.go`, with the merchant lookup `main` gives it: the event of
a message is posted to its merchant's callback URL, signed with the merchant's secret, a few times
if need be.

`told_iff`: a message is acknowledged only when its merchant was told, or has no callback
URL, exactly if the lookup finds the merchant's row and no POST is redirected.  The lookup answers a
failed query as it answers for a merchant without a URL, and such a merchant is skipped.  The HTTP client
follows redirects, and the status it comes back with is then not that of the POST.
-/

namespace EasyPay

open GoStrings Ports

/-! ## Calls -/

/-- The POST of `sendOnce`. -/
structure CallbackRequest where
  url : Str
  contentType : Str
  timestamp : Str
  signature : Str
  body : Str
  deriving DecidableEq, Repr

/-- What `httpClient.Do` comes back with.  The client has no `CheckRedirect`: it follows a redirect, with a
GET or by sending the POST again, and answers with the response it gets there. -/
structure CallbackResponse where
  statusCode : Int
  /-- The response is not the one to the POST, but one that was met in following redirects. -/
  redirected : Bool
  deriving DecidableEq, Repr

/-- The calls of `HandleOne`: of the merchant repository, the clock, the HTTP client, and the wait
between two attempts, which the end of the context cuts short. -/
inductive SettlementOp
  | getByMerchantID (merchantID : Str)
  | timeNow
  | post (req : CallbackRequest)
  | wait (seconds : Nat)
  deriving DecidableEq, Repr

@[reducible] def SettlementOp.Ans : SettlementOp → Type
  | getByMerchantID _ => Res Merchant
  | timeNow => Time
  | post _ => Res CallbackResponse
  | wait _ => Option Err

abbrev settlementPort : Port := ⟨SettlementOp, SettlementOp.Ans⟩

/-- A part of the settlement consumer. -/
abbrev Settling (α : Type) := Prog settlementPort α

def Settling.ask (o : SettlementOp) : Settling o.Ans := Prog.perform (P := settlementPort) o

/-- The calls made so far, with their answers. -/
abbrev Attempts := List (Prog.Step settlementPort)

/-- A call and its answer. -/
def SettlementOp.gave (o : SettlementOp) (a : o.Ans) : Prog.Step settlementPort := ⟨o, a⟩

theorem Settling.meets_ask {β : Type} {R : Attempts → β → Prop} {o : SettlementOp}
    {f : o.Ans → Settling β} {t : Attempts}
    (hf : ∀ a, Prog.Meets (P := settlementPort) (fun _ _ => True) R (f a) (t ++ [o.gave a])) :
    Prog.Meets (P := settlementPort) (fun _ _ => True) R (Settling.ask o >>= f) t :=
  Prog.meets_perform (P := settlementPort) trivial hf

/-! ## The consumer -/

structure MerchantCallback where
  url : Str
  secret : Str
  deriving DecidableEq, Repr

/-- `merchantLookup` of `main`. -/
def merchantLookup (merchantID : Str) : Settling MerchantCallback := do
  match ← Settling.ask (.getByMerchantID merchantID) with
  | .error _ => return ⟨[], []⟩
  | .ok m => return ⟨m.callbackURL, m.secretKey⟩

/-- The consumer, with the library functions it calls: `encoding/json` on events, the HMAC, and
the error of `http.NewRequest` for a URL it does not take. -/
structure SettlementConsumer where
  maxAttempts : Int
  unmarshal : Str → Res PaymentConfirmedEvent
  marshal : PaymentConfirmedEvent → Res Str
  hmacSHA256 : (secret msg : Str) → Str
  requestError : (url : Str) → Option Err

namespace SettlementConsumer

def sendOnce (s : SettlementConsumer) (url secret body : Str) : Settling (Res Unit) := do
  let now ← Settling.ask .timeNow
  let ts := formatInt (unix now).toInt
  let sig := hexEncode (s.hmacSHA256 secret (ts ++ bytes "." ++ body))
  match s.requestError url with
  | some err => return .error err
  | none =>
    match ← Settling.ask (.post
        { url := url
          contentType := bytes "application/json"
          timestamp := ts
          signature := sig
          body := body }) with
    | .error err => return .error err
    | .ok resp =>
      if resp.statusCode < 200 ∨ resp.statusCode ≥ 300 then
        return .error (.new (bytes "merchant returned status " ++ formatInt resp.statusCode))
      else return .ok ()

/-- The loop of `HandleOne` from `attempt` on, with `left` attempts to go. -/
def attempts (s : SettlementConsumer) (cb : MerchantCallback) (body : Str) :
    (left attempt : Nat) → (err : Err) → Settling (Res Unit)
  | 0, _, err => return .error (err.wrap (bytes "merchant callback exhausted retries: "))
  | left + 1, attempt, _ => do
    match ← s.sendOnce cb.url cb.secret body with
    | .ok _ => return .ok ()
    | .error err =>
      match ← Settling.ask (.wait attempt) with
      | some ctxErr => return .error ctxErr
      | none => s.attempts cb body left (attempt + 1) err

/-- What `%w` makes of a nil error. -/
def nilError : Err := .new (bytes "%!w(<nil>)")

def handleOne (s : SettlementConsumer) (m : Message) : Settling (Res Unit) := do
  match s.unmarshal m.value with
  | .error err => return .error (err.wrap (bytes "decode confirmed event: "))
  | .ok ev =>
    let cb ← merchantLookup ev.merchantID
    if cb.url = [] then return .ok ()
    else if cb.secret = [] then
      return .error (.new (bytes "no secret for merchant " ++ ev.merchantID))
    else
      match s.marshal ev with
      | .error err => return .error (err.wrap (bytes "marshal callback body: "))
      | .ok body => s.attempts cb body s.maxAttempts.toNat 1 nilError

/-- `Handle`: the messages in turn, up to the first that fails. -/
def handle (s : SettlementConsumer) : List Message → Settling (Res Unit)
  | [] => return .ok ()
  | m :: msgs => do
    match ← s.handleOne m with
    | .error err => return .error err
    | .ok _ => s.handle msgs

/-! ## What an acknowledged message has led to -/

/-- How many times something was posted. -/
def posts (t : Attempts) : Nat := t.countP fun
  | ⟨.post _, _⟩ => true
  | _ => false

@[simp] theorem posts_concat (t : Attempts) (x : Prog.Step settlementPort) :
    posts (t ++ [x]) = posts t + posts [x] := List.countP_append ..

/-- A POST to the URL has ended with a 2xx status, its own or that of a redirect. -/
def Ended (url : Str) (t : Attempts) : Prop :=
  ∃ req resp, (SettlementOp.post req).gave (.ok resp) ∈ t ∧ req.url = url ∧
    200 ≤ resp.statusCode ∧ resp.statusCode < 300

/-- A POST to the URL was answered with a 2xx status. -/
def Delivered (url : Str) (t : Attempts) : Prop :=
  ∃ req resp, (SettlementOp.post req).gave (.ok resp) ∈ t ∧ req.url = url ∧
    resp.redirected = false ∧ 200 ≤ resp.statusCode ∧ resp.statusCode < 300

theorem sendOnce_meets (s : SettlementConsumer) (url secret body : Str) (t : Attempts) :
    Prog.Meets (P := settlementPort) (fun _ _ => True)
      (fun t' r => posts t' ≤ posts t + 1 ∧ (r = .ok () → s.requestError url = none ∧ Ended url t'))
      (s.sendOnce url secret body) t := by
  unfold sendOnce
  refine Settling.meets_ask fun now => ?_
  simp only
  cases hurl : s.requestError url with
  | some err =>
    refine ⟨?_, fun h => by cases h⟩
    rw [posts_concat]
    exact Nat.le_succ _
  | none =>
    refine Settling.meets_ask fun a => ?_
    have hposts : ∀ (now : Time) (req : CallbackRequest) (a : Res CallbackResponse),
        posts (t ++ [SettlementOp.timeNow.gave now] ++ [(SettlementOp.post req).gave a]) ≤
          posts t + 1 := by
      intro now req a
      rw [posts_concat, posts_concat]
      exact Nat.le_refl _
    cases a with
    | error err => exact ⟨hposts _ _ _, fun h => by cases h⟩
    | ok resp =>
      simp only
      split
      · exact ⟨hposts _ _ _, fun h => by cases h⟩
      · next hstatus =>
        refine ⟨hposts _ _ _, fun _ => ⟨trivial, _, resp, List.mem_append_right _ (.head _), rfl, ?_⟩⟩
        omega

theorem attempts_meets (s : SettlementConsumer) (cb : MerchantCallback) (body : Str)
    (left attempt : Nat) (err : Err) (t : Attempts) :
    Prog.Meets (P := settlementPort) (fun _ _ => True)
      (fun t' r => posts t' ≤ posts t + left ∧
        (r = .ok () → 0 < left ∧ s.requestError cb.url = none ∧ Ended cb.url t'))
      (s.attempts cb body left attempt err) t := by
  induction left generalizing attempt err t with
  | zero => exact ⟨Nat.le_refl _, fun h => by cases h⟩
  | succ left ih =>
    unfold attempts
    refine Prog.meets_bind (s.sendOnce_meets cb.url cb.secret body t) ?_
    rintro t₁ (err' | _) ⟨hposts, hended⟩
    · refine Settling.meets_ask fun a => ?_
      have hwait : posts (t₁ ++ [(SettlementOp.wait attempt).gave a]) = posts t₁ :=
        posts_concat _ _
      cases a with
      | some ctxErr => exact ⟨by rw [hwait]; omega, fun h => by cases h⟩
      | none =>
        refine (ih (attempt + 1) err' _).imp fun t' r h =>
          ⟨?_, fun hr => ⟨Nat.succ_pos _, (h.2 hr).2⟩⟩
        have hle := h.1
        rw [hwait] at hle
        omega
    · exact ⟨by omega, fun _ => ⟨Nat.succ_pos _, hended rfl⟩⟩

/-- The consumer gets as far as to post the event to the merchant. -/
structure Posts (s : SettlementConsumer) (cb : MerchantCallback) (ev : PaymentConfirmedEvent) : Prop where
  secret : cb.secret ≠ []
  body : ∃ body, s.marshal ev = .ok body
  attempt : 0 < s.maxAttempts
  url : s.requestError cb.url = none

/-- What `merchantLookup` makes of the repository's answer. -/
def callbackOf : Res Merchant → MerchantCallback
  | .error _ => ⟨[], []⟩
  | .ok m => ⟨m.callbackURL, m.secretKey⟩

/-- A POST for an acknowledged message has ended well, unless the lookup came back without a URL. -/
theorem handleOne_meets (s : SettlementConsumer) {m : Message} {ev : PaymentConfirmedEvent}
    (hev : s.unmarshal m.value = .ok ev) :
    Prog.Meets (P := settlementPort) (fun _ _ => True)
      (fun t r => r = .ok () → ∃ a, (SettlementOp.getByMerchantID ev.merchantID).gave a ∈ t ∧
        ((callbackOf a).url = [] ∨
          (s.Posts (callbackOf a) ev ∧ Ended (callbackOf a).url t ∧
            posts t ≤ s.maxAttempts.toNat))) (s.handleOne m) [] := by
  have hlookup : ∀ (f : MerchantCallback → Settling (Res Unit)),
      (merchantLookup ev.merchantID >>= f) =
        (Settling.ask (.getByMerchantID ev.merchantID) >>= fun a => f (callbackOf a)) := by
    intro f
    refine congrArg (Prog.call (P := settlementPort) _) (funext fun a => ?_)
    cases a <;> rfl
  unfold handleOne
  simp only [hev]
  rw [hlookup]
  refine Settling.meets_ask fun a => ?_
  have hasked : (SettlementOp.getByMerchantID ev.merchantID).gave a ∈
      ([] ++ [(SettlementOp.getByMerchantID ev.merchantID).gave a] : Attempts) := .head _
  split
  · next hurl => exact fun _ => ⟨a, hasked, .inl hurl⟩
  split
  · exact fun h => by cases h
  next hsecret =>
  cases hbody : s.marshal ev with
  | error err => exact fun h => by cases h
  | ok body =>
    refine ((s.attempts_meets (callbackOf a) body _ 1 nilError _).extend).imp ?_
    rintro t' r ⟨hpre, hposts, hdone⟩ hr
    obtain ⟨hleft, hrequest, hended⟩ := hdone hr
    refine ⟨a, hpre.subset hasked, .inr ⟨⟨hsecret, ⟨body, hbody⟩, by omega, hrequest⟩, hended, ?_⟩⟩
    have hnone : posts ([] ++ [(SettlementOp.getByMerchantID ev.merchantID).gave a]) = 0 := rfl
    rw [hnone] at hposts
    omega

end SettlementConsumer

/-- The row of a merchant. -/
def merchantRow (C : Collation) (merchants : List Merchant) (merchantID : Str) : Option Merchant :=
  merchants.find? fun m => C.eq m.merchantID merchantID

/-- The query answers with the row, unless it fails. -/
theorem getMerchant_ok_iff {C : Collation} {fault : Option Fault} {merchantID : Str}
    {merchants : List Merchant} {m : Merchant} :
    getMerchant C fault merchantID merchants = .ok m ↔
      fault = none ∧ merchantRow C merchants merchantID = some m := by
  unfold getMerchant merchantRow
  cases fault with
  | some f => simp
  | none => cases merchants.find? fun m => C.eq m.merchantID merchantID <;> simp

namespace SettlementConsumer

/-- The merchant was told of the event in one of the attempts. -/
def Told (s : SettlementConsumer) (C : Collation) (merchants : List Merchant)
    (ev : PaymentConfirmedEvent) (t : Attempts) : Prop :=
  ∃ m, merchantRow C merchants ev.merchantID = some m ∧ Delivered m.callbackURL t ∧
    posts t ≤ s.maxAttempts.toNat

/-- The merchant does not want to be told. -/
def NoCallback (C : Collation) (merchants : List Merchant) (ev : PaymentConfirmedEvent) : Prop :=
  ∃ m, merchantRow C merchants ev.merchantID = some m ∧ m.callbackURL = []

/-- The POST of an attempt. -/
def callback (s : SettlementConsumer) (cb : MerchantCallback) (now : Time) (body : Str) :
    CallbackRequest :=
  { url := cb.url
    contentType := bytes "application/json"
    timestamp := formatInt (unix now).toInt
    signature := hexEncode (s.hmacSHA256 cb.secret (formatInt (unix now).toInt ++ bytes "." ++ body))
    body := body }

/-- The POST is redirected, and the message acknowledged. -/
def redirectedRun (merchantID : Str) (row : Merchant) (req : CallbackRequest) : Attempts :=
  [(SettlementOp.getByMerchantID merchantID).gave (.ok row), SettlementOp.timeNow.gave 1,
    (SettlementOp.post req).gave (.ok ⟨200, true⟩)]

theorem redirected_runs (s : SettlementConsumer) {m : Message} {ev : PaymentConfirmedEvent}
    (hev : s.unmarshal m.value = .ok ev) (row : Merchant) (hurl : row.callbackURL ≠ [])
    (hposts : s.Posts ⟨row.callbackURL, row.secretKey⟩ ev) :
    ∃ req, Prog.Runs (P := settlementPort) (s.handleOne m) (redirectedRun ev.merchantID row req)
      (.ret (.ok ())) ∧ req.url = row.callbackURL := by
  obtain ⟨hsecret, ⟨body, hbody⟩, hattempt, hrequest⟩ := hposts
  obtain ⟨left, hleft⟩ : ∃ left, s.maxAttempts.toNat = left + 1 :=
    Nat.exists_eq_succ_of_ne_zero (by omega)
  refine ⟨s.callback ⟨row.callbackURL, row.secretKey⟩ 1 body, ?_, rfl⟩
  have hattempts : Prog.Runs (P := settlementPort)
      (s.attempts ⟨row.callbackURL, row.secretKey⟩ body (left + 1) 1 nilError)
      [SettlementOp.timeNow.gave 1, (SettlementOp.post
        (s.callback ⟨row.callbackURL, row.secretKey⟩ 1 body)).gave (.ok ⟨200, true⟩)]
      (.ret (.ok ())) := by
    unfold attempts sendOnce
    simp only [hrequest]
    exact .cons (P := settlementPort) .timeNow _ _ (.cons (P := settlementPort) (.post _) _ _ (.nil _))
  unfold handleOne
  rw [hev]
  refine .cons (P := settlementPort) (.getByMerchantID ev.merchantID) _ (.ok row) ?_
  show Prog.Runs (P := settlementPort) (if row.callbackURL = [] then _ else _) _ _
  rw [if_neg hurl, if_neg hsecret, hbody, hleft]
  exact hattempts

theorem eq_of_mem_redirectedRun {id : Str} {row : Merchant} {req : CallbackRequest} {a : Res Merchant}
    (h : (SettlementOp.getByMerchantID id).gave a ∈ redirectedRun id row req) : a = .ok row := by
  simpa [redirectedRun, SettlementOp.gave] using h

theorem eq_of_post_mem_redirectedRun {id : Str} {row : Merchant} {req req' : CallbackRequest}
    {resp : CallbackResponse}
    (h : (SettlementOp.post req').gave (.ok resp) ∈ redirectedRun id row req) :
    req' = req ∧ resp = ⟨200, true⟩ := by
  have heq : (⟨.post req', .ok resp⟩ : Prog.Step settlementPort) = ⟨.post req, .ok ⟨200, true⟩⟩ := by
    simpa [redirectedRun, SettlementOp.gave] using h
  cases heq
  exact ⟨rfl, rfl⟩

/-- A failed lookup is taken for a merchant without a URL. -/
theorem unfound_runs (s : SettlementConsumer) {m : Message} {ev : PaymentConfirmedEvent}
    (hev : s.unmarshal m.value = .ok ev) (err : Err) :
    Prog.Runs (P := settlementPort) (s.handleOne m)
      [(SettlementOp.getByMerchantID ev.merchantID).gave (.error err)] (.ret (.ok ())) := by
  unfold handleOne
  rw [hev]
  exact .cons (P := settlementPort) (.getByMerchantID ev.merchantID) _ (.error err) (.nil _)

/-- **Acknowledged means told**, or that the merchant has no callback URL, exactly if there is a
row for the merchant and, unless it has no URL, the query for it does not fail and no POST that is made to
the URL is redirected. -/
theorem told_iff (s : SettlementConsumer) (C : Collation) (merchants : List Merchant)
    (fault : Option Fault) (redirects : (url : Str) → Bool) {m : Message} {ev : PaymentConfirmedEvent}
    (hev : s.unmarshal m.value = .ok ev) :
    (∀ t, Prog.Runs (P := settlementPort) (s.handleOne m) t (.ret (.ok ())) →
      (∀ a, (SettlementOp.getByMerchantID ev.merchantID).gave a ∈ t →
        a = getMerchant C fault ev.merchantID merchants) →
      (∀ req resp, (SettlementOp.post req).gave (.ok resp) ∈ t → resp.redirected = true →
        redirects req.url = true) →
      s.Told C merchants ev t ∨ NoCallback C merchants ev) ↔
    ∃ row, merchantRow C merchants ev.merchantID = some row ∧
      (row.callbackURL = [] ∨ (fault = none ∧
        (s.Posts ⟨row.callbackURL, row.secretKey⟩ ev → redirects row.callbackURL = false))) := by
  constructor
  · intro hall
    cases hget : getMerchant C fault ev.merchantID merchants with
    | ok row =>
      obtain ⟨hfault, hrow⟩ := getMerchant_ok_iff.mp hget
      refine ⟨row, hrow, or_iff_not_imp_left.mpr fun hurl => ⟨hfault, fun hposts => ?_⟩⟩
      -- a redirect to a page that answers with 200
      by_contra hredirects
      obtain ⟨req, hrun, hreq⟩ := s.redirected_runs hev row hurl hposts
      have hfollowed : ∀ req' resp, (SettlementOp.post req').gave (.ok resp) ∈
          redirectedRun ev.merchantID row req → resp.redirected = true →
          redirects req'.url = true := by
        intro req' resp hmem _
        rw [(eq_of_post_mem_redirectedRun hmem).1, hreq]
        exact Bool.eq_true_of_not_eq_false hredirects
      rcases hall _ hrun (fun a ha => (eq_of_mem_redirectedRun ha).trans hget.symm) hfollowed with
        ⟨row', -, ⟨req', resp, hmem, -, hown, -⟩, -⟩ | ⟨row', hrow', hurl'⟩
      · rw [(eq_of_post_mem_redirectedRun hmem).2] at hown
        cases hown
      · cases hrow.symm.trans hrow'
        exact hurl hurl'
    | error err =>
      -- the message is acknowledged without a single POST
      have hanswer : ∀ a, (SettlementOp.getByMerchantID ev.merchantID).gave a ∈
          [(SettlementOp.getByMerchantID ev.merchantID).gave (.error err)] →
          a = getMerchant C fault ev.merchantID merchants := by
        intro a ha
        cases List.mem_singleton.mp ha
        exact hget.symm
      have hnone : ∀ req resp, (SettlementOp.post req).gave (.ok resp) ∉
          [(SettlementOp.getByMerchantID ev.merchantID).gave (.error err)] := by
        intro req resp hmem
        cases List.mem_singleton.mp hmem
      rcases hall _ (s.unfound_runs hev err) hanswer fun req resp hmem => absurd hmem (hnone req resp) with
        ⟨row, -, ⟨req, resp, hmem, -⟩, -⟩ | ⟨row, hrow, hurl⟩
      · exact absurd hmem (hnone req resp)
      · exact ⟨row, hrow, .inl hurl⟩
  · rintro ⟨row, hrow, hcond⟩ t hrun hanswer hredirected
    by_cases hurl : row.callbackURL = []
    · exact .inr ⟨row, hrow, hurl⟩
    · obtain ⟨rfl, hown⟩ := hcond.resolve_left hurl
      obtain ⟨a, hasked, hdone⟩ := (s.handleOne_meets hev).ret hrun rfl
      obtain rfl : a = .ok row := by
        rw [hanswer a hasked]
        exact getMerchant_ok_iff.mpr ⟨rfl, hrow⟩
      rcases hdone with hempty | ⟨hposts, ⟨req, resp, hmem, hto, hstatus⟩, hcount⟩
      · exact absurd hempty hurl
      · refine .inl ⟨row, hrow, ⟨req, resp, hmem, hto, ?_, hstatus⟩, hcount⟩
        by_contra hnot
        have hfollowed := hredirected req resp hmem (Bool.eq_true_of_not_eq_false hnot)
        have hto : req.url = row.callbackURL := hto
        rw [hto, hown hposts] at hfollowed
        cases hfollowed

/-! ## One event -/

/-- A payment of an order was confirmed. -/
def confirmedEvent : PaymentConfirmedEvent :=
  { orderID := bytes "o-1"
    merchantID := bytes "M1"
    status := bytes "paid"
    stripePaymentIntentID := []
    amount := 1500
    currency := bytes "USD"
    confirmedAt := 1700000000 }

def confirmedJSON : Str :=
  bytes "\x7b\"order_id\":\"o-1\",\"merchant_id\":\"M1\",\"status\":\"paid\",\"amount\":1500," ++
    bytes "\"currency\":\"USD\",\"confirmed_at\":1700000000\x7d"

/-- The consumer of `NewSettlementConsumer`; of the JSON codec it has what it makes of the event. -/
def live : SettlementConsumer where
  maxAttempts := 3
  unmarshal := decodeOnly confirmedJSON confirmedEvent
  marshal _ := .ok confirmedJSON
  hmacSHA256 := Sha256.hmac
  requestError _ := none

def confirmedMessage : Message := { Message.sample with value := confirmedJSON }

/-- A merchant that wants to be told. -/
def listening : Merchant :=
  { Merchant.named (bytes "M1") with
    secretKey := bytes "sk"
    callbackURL := bytes "https://m1.example/callback" }

theorem unmarshal_live : live.unmarshal confirmedMessage.value = .ok confirmedEvent :=
  decodeOnly_self confirmedJSON confirmedEvent

/-- The merchant's server fails once. -/
def secondAttempt (req : CallbackRequest) : Attempts :=
  [(SettlementOp.getByMerchantID (bytes "M1")).gave (.ok listening),
    SettlementOp.timeNow.gave 1, (SettlementOp.post req).gave (.ok ⟨503, false⟩),
    (SettlementOp.wait 1).gave none,
    SettlementOp.timeNow.gave 1, (SettlementOp.post req).gave (.ok ⟨204, false⟩)]

theorem secondAttempt_runs : ∃ req, Prog.Runs (P := settlementPort)
    (live.handleOne confirmedMessage) (secondAttempt req) (.ret (.ok ())) := by
  unfold handleOne
  rw [unmarshal_live]
  exact ⟨_, .cons _ _ _ (.cons _ _ _ (.cons _ _ _ (.cons _ _ _ (.cons _ _ _
    (.cons _ _ _ (.nil _))))))⟩

theorem acknowledged_at_second_attempt :
    live.unmarshal confirmedMessage.value = .ok confirmedEvent ∧
      ∃ req, Prog.Runs (P := settlementPort) (live.handleOne confirmedMessage)
          (secondAttempt req) (.ret (.ok ())) ∧
        (live.Told .asciiCI [listening] confirmedEvent (secondAttempt req) ∨
          NoCallback .asciiCI [listening] confirmedEvent) := by
  obtain ⟨req, hrun⟩ := secondAttempt_runs
  have hrow : merchantRow .asciiCI [listening] confirmedEvent.merchantID = some listening := by
    decide
  refine ⟨unmarshal_live, req, hrun, ?_⟩
  refine (told_iff live .asciiCI [listening] none (fun _ => false) unmarshal_live).mpr
    ⟨listening, hrow, .inr ⟨rfl, fun _ => rfl⟩⟩ _ hrun (fun a ha => ?_) fun req' resp hmem hfollowed => ?_
  · rw [getMerchant_ok_iff.mpr ⟨rfl, hrow⟩]
    have ha : (SettlementOp.getByMerchantID (bytes "M1")).gave a ∈ secondAttempt req := ha
    simpa [secondAttempt, SettlementOp.gave] using ha
  · simp only [secondAttempt, SettlementOp.gave, List.mem_cons, List.not_mem_nil, or_false,
      Sigma.mk.injEq, reduceCtorEq, false_and, false_or, SettlementOp.post.injEq] at hmem
    rcases hmem with ⟨rfl, hresp⟩ | ⟨rfl, hresp⟩ <;> cases eq_of_heq hresp <;> cases hfollowed

/-- The query for the merchant fails: the message is acknowledged, and nothing was posted. -/
theorem acknowledged_untold :
    Prog.Runs (P := settlementPort) (live.handleOne confirmedMessage)
        [(SettlementOp.getByMerchantID (bytes "M1")).gave
          (getMerchant .asciiCI (some .badConnection) (bytes "M1") [listening])]
        (.ret (.ok ())) ∧
      ¬ (live.Told .asciiCI [listening] confirmedEvent
          [(SettlementOp.getByMerchantID (bytes "M1")).gave
            (getMerchant .asciiCI (some .badConnection) (bytes "M1") [listening])] ∨
        NoCallback .asciiCI [listening] confirmedEvent) := by
  constructor
  · exact live.unfound_runs unmarshal_live _
  · have hrow : merchantRow .asciiCI [listening] confirmedEvent.merchantID = some listening := by
      decide
    rintro (⟨row, -, ⟨req, code, hmem, -⟩, -⟩ | ⟨row, hrow', hurl⟩)
    · cases List.mem_singleton.mp hmem
    · rw [hrow] at hrow'
      cases hrow'
      revert hurl
      decide

end SettlementConsumer

end EasyPay
