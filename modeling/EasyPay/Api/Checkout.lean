import Mathlib.Data.List.DropRight
import EasyPay.Lib.Target
import EasyPay.Service.MerchantService
import EasyPay.System

/-!
# Hosted checkout links

`internal/api/handler/checkout.go` and the route `/pay/:merchant_id/:order_id` of
`internal/api/router.go`.  Routing is neither strict nor case sensitive, and does not decode the path.

`lazyCheckoutURL` puts the link together from the merchant id and the order id as they are.  It leads
back to the order unless the merchant id has a `/`, a `?` or a `#` (`link_leads_back_iff`).
-/

namespace EasyPay

open GoStrings Ports

/-! ## The route -/

/-- Match a path with `/pay/:merchant_id/:order_id`.  Slashes at the end do not count; a parameter is
one segment, and not empty. -/
def payRoute (path : Str) : Option (Str × Str) :=
  match path.rdropWhile (· = 47) with
  | 47 :: rest =>
    match cut 47 rest with
    | some (pay, params) =>
      if pay.map lowerByte = bytes "pay" then
        match cut 47 params with
        | some (merchantID, orderID) =>
          if merchantID ≠ [] ∧ orderID ≠ [] ∧ 47 ∉ orderID then some (merchantID, orderID) else none
        | none => none
      else none
    | none => none
  | _ => none

/-- What the route binds: segments that are not empty, the first of them one of the path. -/
theorem payRoute_some {path m o : Str} (h : payRoute path = some (m, o)) :
    m ≠ [] ∧ o ≠ [] ∧ 47 ∉ m ∧ ∀ c ∈ m, c ∈ path := by
  unfold payRoute at h
  split at h
  · next rest hrest =>
    split at h
    · next pay params hpay =>
      split at h
      · split at h
        · next m' o' hparams =>
          split at h
          · next hsegments =>
            cases h
            obtain ⟨rfl, -⟩ := cut_some hpay
            obtain ⟨rfl, hm⟩ := cut_some hparams
            refine ⟨hsegments.1, hsegments.2.1, hm, fun c hc => ?_⟩
            have hsub := (List.rdropWhile_prefix (fun c : UInt8 => decide (c = 47)) (l := path)).subset
            rw [hrest] at hsub
            refine hsub ?_
            simp [hc]
          · cases h
        · cases h
      · cases h
    · cases h
  · cases h

theorem payRoute_append {m o : Str} (hm : m ≠ []) (hslash : 47 ∉ m) (ho : o ≠ []) (hslash' : 47 ∉ o) :
    payRoute (bytes "/pay/" ++ m ++ bytes "/" ++ o) = some (m, o) := by
  have hpath : bytes "/pay/" ++ m ++ bytes "/" ++ o = 47 :: (bytes "pay" ++ 47 :: (m ++ 47 :: o)) := by
    simp [show bytes "/pay/" = 47 :: (bytes "pay" ++ [47]) from by decide,
      show bytes "/" = [47] from by decide]
  have hend : (bytes "/pay/" ++ m ++ bytes "/" ++ o).rdropWhile (· = 47) =
      bytes "/pay/" ++ m ++ bytes "/" ++ o := by
    refine List.rdropWhile_eq_self_iff.mpr fun hne hlast => ?_
    rw [List.getLast_append_of_ne_nil _ ho] at hlast
    have hmem := List.getLast_mem ho
    rw [of_decide_eq_true hlast] at hmem
    exact hslash' hmem
  unfold payRoute
  rw [hend, hpath]
  simp only [cut_append 47 (bytes "pay") (m ++ 47 :: o) (by decide), cut_append 47 m o hslash]
  rw [if_pos (by decide), if_pos ⟨hm, ho, hslash'⟩]

/-! ## The handler -/

/-- The responses of `Redirect`, each with its status code and page. -/
inductive CheckoutResponse
  /-- 302 to the URL of the session. -/
  | redirect (url : Str)
  /-- 410. -/
  | invalid
  /-- 404. -/
  | notFound
  /-- 503, the page reloads itself. -/
  | notReady
  /-- 503. -/
  | unavailable
  deriving DecidableEq, Repr

structure CheckoutHandler where
  resolver : CheckoutResolver
  tokenSecret : Str

namespace CheckoutHandler

variable (D : Deployment) (h : CheckoutHandler)

/-- `Redirect` once the token is checked. -/
def answer (merchantID orderID : Str) : Svc CheckoutResponse := do
  match ← h.resolver.resolve D.unicode merchantID orderID with
  | .ok url => return .redirect url
  | .error e =>
    if e.is .orderNotFound then return .notFound
    else if e.is .orderNotReady then return .notReady
    else return .unavailable

def redirect (merchantID orderID token : Str) : Svc CheckoutResponse := do
  if merchantID = [] ∨ orderID = [] then return .invalid
  else if h.tokenSecret = [] then h.answer D merchantID orderID
  else if token = [] then return .invalid
  else
    let now ← Svc.ask .timeNow
    match CheckoutToken.verify D.hmacSHA256 now h.tokenSecret merchantID orderID token with
    | .error _ => return .invalid
    | .ok _ => h.answer D merchantID orderID

/-- `GET` of a target, if the route matches. -/
def get (target : Str) : Option (Svc CheckoutResponse) :=
  (payRoute (Target.path target)).map fun p =>
    h.redirect D p.1 p.2 (Target.value (bytes "t") (Target.query target))

end CheckoutHandler

/-! ## Links -/

/-- The target leads to the order `o` of `m`, with a token that is good until `expiry`. -/
structure LeadsBack (D : Deployment) (secret target m o : Str) (expiry : Int64) : Prop where
  route : payRoute (Target.path target) = some (m, o)
  verifies : ∀ now, unix now ≤ expiry →
    CheckoutToken.verify D.hmacSHA256 now secret m o (Target.value (bytes "t") (Target.query target)) =
      .ok ()

/-- What such a target gets: the order is resolved. -/
theorem LeadsBack.get {D : Deployment} {h : CheckoutHandler} {target m o : Str} {expiry : Int64}
    (hback : LeadsBack D h.tokenSecret target m o expiry) (hsecret : h.tokenSecret ≠ []) :
    ∃ p, h.get D target = some p ∧ ∀ now, unix now ≤ expiry →
      Prog.Runs p [Op.timeNow.gave now] (h.answer D m o) := by
  have hget : h.get D target = some (h.redirect D m o (Target.value (bytes "t") (Target.query target))) := by
    unfold CheckoutHandler.get
    rw [hback.route]
    rfl
  refine ⟨_, hget, fun now hnow => ?_⟩
  have hverify := hback.verifies now hnow
  have htoken : Target.value (bytes "t") (Target.query target) ≠ [] := by
    intro hempty
    rw [hempty] at hverify
    cases hverify
  obtain ⟨hm, ho, -⟩ := payRoute_some hback.route
  unfold CheckoutHandler.redirect
  rw [if_neg (not_or.mpr ⟨hm, ho⟩), if_neg hsecret, if_neg htoken]
  refine Svc.runs_ask.mpr (.inr ⟨now, [], rfl, ?_⟩)
  rw [hverify]
  exact .nil _

/-- A token goes into a query as it is. -/
theorem plain_sign (hmac : (secret msg : Str) → Str) (now : Time) (secret m o : Str) (ttl : Time) :
    ∀ c ∈ CheckoutToken.sign hmac now secret m o ttl, Target.plain c = true := by
  have hbytes : ∀ c : UInt8, (isDigit c || c == 45 || c == 46 || (hexVal c).isSome) = true →
      Target.plain c = true := by
    intro c hc
    rw [Target.plain_iff]
    unfold isDigit hexVal at hc
    grind
  intro c hc
  refine hbytes c ?_
  unfold CheckoutToken.sign CheckoutToken.signWithExpiry at hc
  rcases List.mem_append.mp hc with hc | hc
  · rcases formatInt_chars _ c hc with hdigit | rfl
    · rw [hdigit]
      rfl
    · decide
  rcases List.mem_cons.mp hc with rfl | hc
  · decide
  · rw [hexEncode_chars _ c hc]
    simp

theorem ValidOrderID.endsPath {o : Str} (h : ValidOrderID o) : ∀ c ∈ o, Target.endsPath c = false := by
  have hbytes : ∀ c, orderIDByte c = true → Target.endsPath c = false := by
    unfold orderIDByte Target.endsPath
    grind
  exact fun c hc => hbytes c (h.2.2 c hc)

theorem ValidOrderID.slash {o : Str} (h : ValidOrderID o) : 47 ∉ o := fun hmem =>
  absurd (h.2.2 47 hmem) (by decide)

/-- The path of a link ends where it should. -/
theorem endsPath_link {m o : Str} (hquestion : 63 ∉ m) (hhash : 35 ∉ m) (ho : ValidOrderID o) :
    ∀ c ∈ bytes "/pay/" ++ m ++ bytes "/" ++ o, Target.endsPath c = false := by
  have hliteral : ∀ s : Str, (s.all fun c => !Target.endsPath c) = true →
      ∀ c ∈ s, Target.endsPath c = false := by
    intro s hs c hc
    simpa using List.all_eq_true.mp hs c hc
  intro c hc
  simp only [List.mem_append] at hc
  rcases hc with ((hc | hc) | hc) | hc
  · exact hliteral (bytes "/pay/") (by decide) c hc
  · unfold Target.endsPath
    have hne : c ≠ 63 ∧ c ≠ 35 := ⟨fun h => hquestion (h ▸ hc), fun h => hhash (h ▸ hc)⟩
    simp [hne]
  · exact hliteral (bytes "/") (by decide) c hc
  · exact ho.endsPath c hc

/-- **A link leads back to its order** just when the merchant id has no `/`, `?` or `#`. -/
theorem link_leads_back_iff {D : Deployment} {repo : MerchantRepo} {s : PaymentService} {m o : Str}
    (hm : MerchantService.Accepted repo m) (ho : ValidOrderID o) (hsecret : s.checkoutSecret ≠ [])
    {t : Calls} {url : Str} (hrun : Prog.Runs (s.lazyCheckoutURL D m o) t (.ret url)) :
    ∃ now target, t = [Op.timeNow.gave now] ∧ url = s.publicBaseURL ++ target ∧
      (LeadsBack D s.checkoutSecret target m o (unix (now + s.checkoutTokenTTL)) ↔
        47 ∉ m ∧ 63 ∉ m ∧ 35 ∉ m) := by
  obtain ⟨now, rfl, rfl⟩ := s.lazyCheckoutURL_ret D hsecret hrun
  obtain ⟨-, hne, -⟩ := (MerchantService.accepted_iff repo m).mp hm
  have hquery : bytes "?t=" ++ CheckoutToken.sign D.hmacSHA256 now s.checkoutSecret m o
      s.checkoutTokenTTL = 63 :: (bytes "t" ++ 61 :: CheckoutToken.sign D.hmacSHA256 now
        s.checkoutSecret m o s.checkoutTokenTTL) := rfl
  refine ⟨now, bytes "/pay/" ++ m ++ bytes "/" ++ o ++ bytes "?t=" ++
    CheckoutToken.sign D.hmacSHA256 now s.checkoutSecret m o s.checkoutTokenTTL, rfl,
    by simp only [List.append_assoc], ?_⟩
  rw [List.append_assoc _ (bytes "?t="), hquery]
  constructor
  · intro hback
    obtain ⟨-, -, hslash, hpath⟩ := payRoute_some hback.route
    refine ⟨hslash, fun hmem => ?_, fun hmem => ?_⟩
    · exact absurd (Target.endsPath_of_mem_path (hpath 63 hmem)) (by decide)
    · exact absurd (Target.endsPath_of_mem_path (hpath 35 hmem)) (by decide)
  · rintro ⟨hslash, hquestion, hhash⟩
    have hpath := endsPath_link hquestion hhash ho
    have htoken := plain_sign D.hmacSHA256 now s.checkoutSecret m o s.checkoutTokenTTL
    have hhash' : 35 ∉ bytes "t" ++ 61 :: CheckoutToken.sign D.hmacSHA256 now s.checkoutSecret m o
        s.checkoutTokenTTL := by
      intro hmem
      rcases List.mem_append.mp hmem with hmem | hmem
      · exact absurd hmem (by decide)
      rcases List.mem_cons.mp hmem with heq | hmem
      · exact absurd heq (by decide)
      · exact absurd (htoken 35 hmem) (by decide)
    constructor
    · rw [Target.path_append hpath]
      exact payRoute_append hne hslash ho.1 ho.slash
    · intro now' hnow'
      have hname : ∀ c ∈ bytes "t", Target.plain c = true := List.all_eq_true.mp (by decide)
      rw [Target.query_append hpath hhash', Target.value_singleton hname htoken]
      exact (CheckoutToken.verify_signWithExpiry now' s.checkoutSecret m o m o _).mpr ⟨hnow', rfl⟩

/-- A service in lazy mode that signs its links. -/
def PaymentService.signing : PaymentService :=
  { PaymentService.mode true with checkoutSecret := bytes "secret" }

/-- The target of its link at time 1. -/
def linkTarget (m o : Str) : Str :=
  bytes "/pay/" ++ m ++ bytes "/" ++ o ++ bytes "?t=" ++
    CheckoutToken.sign Sha256.hmac 1 (bytes "secret") m o PaymentService.signing.checkoutTokenTTL

theorem runs_link (m o : Str) :
    Prog.Runs (PaymentService.signing.lazyCheckoutURL (Deployment.sample .binary) m o)
      [Op.timeNow.gave 1] (.ret (PaymentService.signing.publicBaseURL ++ linkTarget m o)) := by
  unfold PaymentService.lazyCheckoutURL
  simp only
  rw [if_neg (by decide)]
  refine Svc.runs_ask.mpr (.inr ⟨1, [], rfl, ?_⟩)
  rw [if_neg (CheckoutToken.sign_ne_nil _ _ _ _ _)]
  unfold linkTarget
  simp only [← List.append_assoc]
  exact .nil _

/-- The link to an order of the merchant `a/b` matches no route. -/
theorem link_leads_nowhere :
    MerchantService.Accepted (newMerchantRepository 1) (bytes "a/b") ∧
      Prog.Runs (PaymentService.signing.lazyCheckoutURL (Deployment.sample .binary) (bytes "a/b")
        (bytes "o-1")) [Op.timeNow.gave 1]
        (.ret (PaymentService.signing.publicBaseURL ++ linkTarget (bytes "a/b") (bytes "o-1"))) ∧
      payRoute (Target.path (linkTarget (bytes "a/b") (bytes "o-1"))) = none := by
  refine ⟨(MerchantService.accepted_iff _ _).mpr ⟨⟨bytes "a/b", by decide⟩, by decide, by decide⟩,
    runs_link _ _, by decide +kernel⟩

theorem link_leads_back_sample :
    ∃ now target, PaymentService.signing.publicBaseURL ++ linkTarget (bytes "m1") (bytes "o-1") =
        PaymentService.signing.publicBaseURL ++ target ∧
      LeadsBack (Deployment.sample .binary) (bytes "secret") target (bytes "m1") (bytes "o-1")
        (unix (now + PaymentService.signing.checkoutTokenTTL)) := by
  have hm : MerchantService.Accepted (newMerchantRepository 1) (bytes "m1") :=
    (MerchantService.accepted_iff _ _).mpr ⟨⟨bytes "m1", by decide⟩, by decide, by decide⟩
  have ho : ValidOrderID (bytes "o-1") := by decide
  have hsecret : PaymentService.signing.checkoutSecret ≠ [] := by decide
  obtain ⟨now, target, -, hurl, hiff⟩ := link_leads_back_iff hm ho hsecret (runs_link _ _)
  exact ⟨now, target, hurl, hiff.mpr (by decide)⟩

end EasyPay
