import EasyPay.Provider.Signature
import EasyPay.Consumer.SettlementConsumer

/-!
# Signed requests

`pkg/hmac/hmac.go`, and the middleware of `internal/api/middleware/auth.go` that checks the
`X-Timestamp` and `X-Signature` of a merchant's request.

* `replay_window_iff`: the time of a request, or of a webhook, passes the skew check just when it is
  within the skew, unless the subtraction wraps.
* `signature_fixes_request`: a signature is good for one timestamp and one body, in any letter case.
-/

namespace EasyPay

open GoStrings Ports

/-! ## HMAC -/

namespace Hmac

section
variable (hmac : (secret msg : Str) → Str)

def sign (secret payload : Str) : Str := hexEncode (hmac secret payload)

def verify (secret payload hexSignature : Str) : Bool :=
  match hexDecode hexSignature with
  | none => false
  | some expected => decide (expected = hmac secret payload)

end

/-- The same string but for the case of its letters. -/
def Recased (s t : Str) : Prop := s.map lowerByte = t.map lowerByte

variable {hmac : (secret msg : Str) → Str} {secret payload sig : Str}

theorem verify_iff :
    verify hmac secret payload sig = true ↔ hexDecode sig = some (hmac secret payload) := by
  unfold verify
  cases hexDecode sig with
  | none => simp
  | some expected => simp

/-- **Verify** accepts the output of `Sign` in any letter case, and nothing else. -/
theorem verify_iff_recased :
    verify hmac secret payload sig = true ↔ Recased sig (sign hmac secret payload) := by
  unfold Recased sign
  rw [verify_iff, map_lowerByte_hexEncode]
  constructor
  · exact fun h => (hexEncode_of_hexDecode h).symm
  · intro h
    rw [← hexDecode_map_lowerByte, h, hexDecode_hexEncode]

end Hmac

/-! ## The middleware -/

/-- The headers the middleware reads, and the body; a missing header reads as the empty string. -/
structure AuthRequest where
  apiKey : Str
  timestamp : Str
  signature : Str
  body : Str
  deriving DecidableEq, Repr

/-- A 401 with its code and message, or the next handler with the merchant attached. -/
inductive AuthAnswer
  | unauthorized (code msg : Str)
  | next (merchant : Merchant)
  deriving DecidableEq, Repr

/-- The signed text: timestamp, dot, body. -/
def signedRequest (ts body : Str) : Str := ts ++ bytes "." ++ body

namespace HMACAuth

/-- The middleware has its own copy of `abs64`. -/
def abs : Int64 → Int64 := abs64

def timestampSkew : AuthAnswer :=
  .unauthorized (bytes "timestamp_skew") (bytes "X-Timestamp outside acceptable skew")

section
variable (hmac : (secret msg : Str) → Str) (getByAPIKey : Str → Res Merchant)

/-- The middleware once the timestamp is checked. -/
def authenticate (req : AuthRequest) : AuthAnswer :=
  match getByAPIKey req.apiKey with
  | .error _ => .unauthorized (bytes "unknown_api_key") (bytes "API key not recognized")
  | .ok merchant =>
    if merchant.status ≠ .active then
      .unauthorized (bytes "merchant_suspended") (bytes "merchant is not active")
    else if ¬ Hmac.verify hmac merchant.secretKey (signedRequest req.timestamp req.body) req.signature then
      .unauthorized (bytes "bad_signature") (bytes "signature does not match")
    else .next merchant

end

/-- The middleware, with the clock (in seconds, as is `skew`) and the lookup of the key as effects:
the clock is read once there is a timestamp, the key looked up once that is near. -/
def middleware {m : Type → Type} [Monad m] (hmac : (secret msg : Str) → Str) (clock : m Int64)
    (getByAPIKey : Str → m (Res Merchant)) (skew : Int64) (req : AuthRequest) : m AuthAnswer :=
  if req.apiKey = [] ∨ req.timestamp = [] ∨ req.signature = [] then
    return .unauthorized (bytes "missing_auth_headers")
      (bytes "X-API-Key, X-Timestamp, X-Signature are required")
  else
    match parseInt req.timestamp with
    | none =>
      return .unauthorized (bytes "bad_timestamp") (bytes "X-Timestamp must be unix seconds")
    | some ts => do
      let now ← clock
      if abs (now - ts) > skew then return timestampSkew
      else
        let merchant ← getByAPIKey req.apiKey
        return authenticate hmac (fun _ => merchant) req

/-- What the middleware answers at the time `now`. -/
def handler (hmac : (secret msg : Str) → Str) (getByAPIKey : Str → Res Merchant)
    (skew now : Int64) (req : AuthRequest) : AuthAnswer :=
  middleware (m := Id) hmac now getByAPIKey skew req

variable {hmac : (secret msg : Str) → Str} {getByAPIKey : Str → Res Merchant}

theorem authenticate_ne_timestampSkew (req : AuthRequest) :
    authenticate hmac getByAPIKey req ≠ timestampSkew := by
  unfold authenticate
  split
  · decide
  split
  · decide
  split
  · decide
  · exact fun h => by cases h

/-- What the skew check does to a request that comes to it. -/
theorem handler_ne_timestampSkew_iff {skew now ts : Int64} {req : AuthRequest} (hkey : req.apiKey ≠ [])
    (hsig : req.signature ≠ []) (hts : parseInt req.timestamp = some ts) :
    handler hmac getByAPIKey skew now req ≠ timestampSkew ↔ abs64 (now - ts) ≤ skew := by
  have hne : req.timestamp ≠ [] := by
    intro h
    rw [h] at hts
    cases hts
  unfold handler middleware
  rw [if_neg (by simp [hkey, hsig, hne]), hts]
  show (if abs (now - ts) > skew then timestampSkew else authenticate hmac getByAPIKey req) ≠ _ ↔ _
  split
  · next hfar => exact ⟨fun h => absurd rfl h, fun h => absurd h (Int64.not_le.mpr hfar)⟩
  · next hnear => exact ⟨fun _ => Int64.not_lt.mp hnear, fun _ => authenticate_ne_timestampSkew req⟩

/-- A signed request passes, within the skew. -/
theorem handler_signed {skew now ts : Int64} {req : AuthRequest} {m : Merchant} (hkey : req.apiKey ≠ [])
    (hsig : req.signature ≠ []) (hts : parseInt req.timestamp = some ts)
    (hskew : abs64 (now - ts) ≤ skew) (hm : getByAPIKey req.apiKey = .ok m) (hactive : m.status = .active)
    (hsigned : req.signature = Hmac.sign hmac m.secretKey (signedRequest req.timestamp req.body)) :
    handler hmac getByAPIKey skew now req = .next m := by
  have hne : req.timestamp ≠ [] := by
    intro h
    rw [h] at hts
    cases hts
  have hverify : Hmac.verify hmac m.secretKey (signedRequest req.timestamp req.body)
      req.signature = true := by
    rw [hsigned]
    exact Hmac.verify_iff_recased.mpr rfl
  unfold handler middleware
  rw [if_neg (by simp [hkey, hsig, hne]), hts]
  show (if abs (now - ts) > skew then timestampSkew else authenticate hmac getByAPIKey req) = _
  rw [if_neg (show ¬ abs (now - ts) > skew from Int64.not_lt.mpr hskew)]
  unfold authenticate
  rw [hm]
  simp only
  rw [if_neg (by simp [hactive]), if_neg (by simp [hverify])]

end HMACAuth

/-! ## The replay window -/

/-- What the skew check does to a webhook that comes to it. -/
theorem verifyWithTolerance_ne_expired_iff {hmac : (secret msg : Str) → Str}
    {decode : Str → Res StripeEvent} {payload sigHeader secret : Str} {tolerance now ts : Int64}
    {sigs : List Str} (hsecret : secret ≠ []) (hparse : parseHeader sigHeader = .ok ⟨ts, sigs⟩)
    (hts : ts ≠ 0) (hsigs : sigs ≠ []) :
    verifyWithTolerance hmac decode payload sigHeader secret tolerance now ≠
      .error (.of .signatureExpired) ↔ abs64 (now - ts) ≤ tolerance := by
  have hne : sigHeader ≠ [] := by
    rintro rfl
    cases hparse
  unfold verifyWithTolerance
  rw [if_neg hne, if_neg hsecret, hparse]
  simp only
  rw [if_neg (by simp [hts, hsigs])]
  split
  · next hfar => exact ⟨fun h => absurd rfl h, fun h => absurd h (Int64.not_le.mpr hfar)⟩
  next hnear =>
  refine ⟨fun _ => Int64.not_lt.mp hnear, fun _ => ?_⟩
  split
  · intro h
    exact absurd (Except.error.inj h) (by decide)
  split
  · next e _ =>
    intro h
    -- the two messages do not start alike
    have hhead : some (100 : UInt8) = some 115 :=
      congrArg (fun e : Err => e.msg.head?) (Except.error.inj h)
    exact absurd hhead (by decide)
  · exact fun h => by cases h

/-- The subtraction does not wrap into the window: the time is not 2^63 seconds back, nor so far that
it comes round again. -/
def InReach (now ts d : Int64) : Prop :=
  now.toInt - ts.toInt ≠ 2 ^ 63 ∧ now.toInt - ts.toInt < 2 ^ 64 - d.toInt

instance (now ts d : Int64) : Decidable (InReach now ts d) := inferInstanceAs (Decidable (_ ∧ _))

theorem abs64_window_iff {now ts d : Int64} (hnow : 0 ≤ now) (hd : 0 ≤ d) :
    (abs64 (now - ts) ≤ d ↔ ((now.toInt - ts.toInt).natAbs : Int) ≤ d.toInt) ↔ InReach now ts d := by
  have hnow' : 0 ≤ now.toInt := Int64.le_iff_toInt_le.mp hnow
  have hd' : 0 ≤ d.toInt := Int64.le_iff_toInt_le.mp hd
  have hthi := Int64.toInt_lt ts
  have hdhi := Int64.toInt_lt d
  rw [abs64_sub_le_iff hd]
  unfold InReach
  omega

/-- **The replay window.**  Where the skew check of the middleware, or of a webhook, is reached with the
time `ts`, it lets the request pass just when the distance is at most `d`, exactly if the time is in
reach. -/
theorem replay_window_iff (hmac : (secret msg : Str) → Str) (getByAPIKey : Str → Res Merchant)
    (decode : Str → Res StripeEvent) {now ts d : Int64} (hnow : 0 ≤ now) (hd : 0 ≤ d) :
    (∀ req : AuthRequest, req.apiKey ≠ [] → req.signature ≠ [] → parseInt req.timestamp = some ts →
      ((HMACAuth.handler hmac getByAPIKey d now req ≠ HMACAuth.timestampSkew ↔
        ((now.toInt - ts.toInt).natAbs : Int) ≤ d.toInt) ↔ InReach now ts d)) ∧
    (∀ (payload sigHeader secret : Str) (sigs : List Str), secret ≠ [] →
      parseHeader sigHeader = .ok ⟨ts, sigs⟩ → ts ≠ 0 → sigs ≠ [] →
      ((verifyWithTolerance hmac decode payload sigHeader secret d now ≠
          .error (.of .signatureExpired) ↔
        ((now.toInt - ts.toInt).natAbs : Int) ≤ d.toInt) ↔ InReach now ts d)) := by
  constructor
  · intro req hkey hsig hts
    rw [HMACAuth.handler_ne_timestampSkew_iff hkey hsig hts]
    exact abs64_window_iff hnow hd
  · intro payload sigHeader secret sigs hsecret hparse hts hsigs
    rw [verifyWithTolerance_ne_expired_iff hsecret hparse hts hsigs]
    exact abs64_window_iff hnow hd

/-- A request signed with this secret. -/
def AuthRequest.signed (secret ts : Str) : AuthRequest :=
  { apiKey := bytes "key"
    timestamp := ts
    signature := Hmac.sign Sha256.hmac secret (signedRequest ts (bytes "body"))
    body := bytes "body" }

theorem AuthRequest.signed_signature (secret ts : Str) : (AuthRequest.signed secret ts).signature =
    Hmac.sign Sha256.hmac secret (signedRequest (AuthRequest.signed secret ts).timestamp
      (AuthRequest.signed secret ts).body) := rfl

theorem AuthRequest.signed_ne_nil (secret ts : Str) : (AuthRequest.signed secret ts).signature ≠ [] := by
  intro h
  have hlen := congrArg List.length h
  unfold signed Hmac.sign at hlen
  rw [hexEncode_length, Sha256.hmac_length] at hlen
  cases hlen

/-- 100 seconds back is in the window. -/
theorem replay_window_near :
    InReach 1700000000 1699999900 300 ∧
      HMACAuth.handler Sha256.hmac (fun _ => .ok (.named (bytes "m1"))) 300 1700000000
        (.signed [] (bytes "1699999900")) ≠ HMACAuth.timestampSkew := by
  have hreach : InReach 1700000000 1699999900 300 := by decide
  have hnow : (0 : Int64) ≤ 1700000000 := by decide
  have hd : (0 : Int64) ≤ 300 := by decide
  have hts : parseInt (bytes "1699999900") = some 1699999900 := by decide
  have hiff := (replay_window_iff Sha256.hmac (fun _ => .ok (.named (bytes "m1")))
    (fun _ => .error (.new [])) hnow hd).1 (.signed [] (bytes "1699999900")) (by decide)
    (AuthRequest.signed_ne_nil _ _) hts
  exact ⟨hreach, (hiff.mpr hreach).mpr (by decide)⟩

/-- 2^63 seconds back is in the window too. -/
theorem replay_window_wraps :
    parseInt (bytes "-9223372035154775808") = some (-9223372035154775808) ∧
      HMACAuth.handler Sha256.hmac (fun _ => .ok (.named (bytes "m1"))) 300 1700000000
        (.signed (Merchant.named (bytes "m1")).secretKey (bytes "-9223372035154775808")) =
          .next (.named (bytes "m1")) ∧
      verifyWithTolerance Sha256.hmac (fun payload => .ok ⟨payload, [], []⟩) (bytes "evt")
        (signPayload Sha256.hmac (bytes "evt") (bytes "whsec") (-9223372035154775808)) (bytes "whsec") 300
        1700000000 = .ok ⟨bytes "evt", [], []⟩ ∧
      ¬ (((1700000000 : Int64).toInt - (-9223372035154775808 : Int64).toInt).natAbs : Int) ≤
        (300 : Int64).toInt := by
  have hts : parseInt (bytes "-9223372035154775808") = some (-9223372035154775808) := by decide
  have hskew : abs64 (1700000000 - -9223372035154775808) ≤ 300 := by decide +kernel
  refine ⟨hts, ?_, ?_, by decide⟩
  · exact HMACAuth.handler_signed (by decide) (AuthRequest.signed_ne_nil _ _) hts hskew rfl rfl
      (AuthRequest.signed_signature _ _)
  · exact verifyWithTolerance_signPayload Sha256.hmac _ _ (by decide) (by decide) hskew rfl

/-! ## What a signature is good for -/

theorem signedRequest_eq (ts body : Str) : signedRequest ts body = ts ++ 46 :: body := by
  have hdot : bytes "." = [46] := by decide
  unfold signedRequest
  rw [hdot, List.append_assoc]
  rfl

/-- A signed text has one timestamp and one body. -/
theorem signedRequest_inj {ts₁ body₁ ts₂ body₂ : Str} {n₁ n₂ : Int64} (h₁ : parseInt ts₁ = some n₁)
    (h₂ : parseInt ts₂ = some n₂) (h : signedRequest ts₁ body₁ = signedRequest ts₂ body₂) :
    ts₁ = ts₂ ∧ body₁ = body₂ := by
  rw [signedRequest_eq, signedRequest_eq] at h
  have hcut := cut_append 46 ts₁ body₁ (dot_notMem_of_parseInt h₁)
  rw [h, cut_append 46 ts₂ body₂ (dot_notMem_of_parseInt h₂)] at hcut
  obtain ⟨hts, hbody⟩ := Prod.mk.inj (Option.some.inj hcut)
  exact ⟨hts.symm, hbody.symm⟩

/-- A POST of `sendOnce` is signed with `Sign`. -/
theorem SettlementConsumer.sendOnce_post {s : SettlementConsumer} {url secret body : Str} {t : Attempts}
    {req : CallbackRequest} {k : (SettlementOp.post req).Ans → Settling (Res Unit)}
    (h : Prog.Runs (s.sendOnce url secret body) t (Prog.call (P := settlementPort) (.post req) k)) :
    req.body = body ∧ req.signature = Hmac.sign s.hmacSHA256 secret (signedRequest req.timestamp body) := by
  have hm : Prog.Meets (P := settlementPort) (fun _ o => ∀ req, o = .post req → req.body = body ∧
      req.signature = Hmac.sign s.hmacSHA256 secret (signedRequest req.timestamp body)) (fun _ _ => True)
      (s.sendOnce url secret body) [] := by
    unfold sendOnce
    refine Prog.meets_perform (P := settlementPort) (fun _ h => by cases h) fun now => ?_
    split
    · trivial
    · refine Prog.meets_perform (P := settlementPort) ?_ fun a => ?_
      · rintro _ ⟨⟩
        exact ⟨rfl, rfl⟩
      · cases a with
        | error err => trivial
        | ok statusCode =>
          simp only
          split <;> trivial
  exact hm.call h req rfl

/-- **A signature fixes the timestamp and the body** it is good for, if the HMAC does not collide; the
signatures that are good for a request are those of `Sign`, and of the settlement consumer, in any
letter case. -/
theorem signature_fixes_request (hmac : (secret msg : Str) → Str) (secret : Str) :
    (Function.Injective (hmac secret) → ∀ (ts₁ body₁ ts₂ body₂ sig : Str) (n₁ n₂ : Int64),
      parseInt ts₁ = some n₁ → parseInt ts₂ = some n₂ →
      Hmac.verify hmac secret (signedRequest ts₁ body₁) sig = true →
      Hmac.verify hmac secret (signedRequest ts₂ body₂) sig = true → ts₁ = ts₂ ∧ body₁ = body₂) ∧
    (∀ (s : SettlementConsumer) (url body : Str) (t : Attempts) (req : CallbackRequest)
      (k : (SettlementOp.post req).Ans → Settling (Res Unit)), s.hmacSHA256 = hmac →
      Prog.Runs (s.sendOnce url secret body) t (Prog.call (P := settlementPort) (.post req) k) →
      req.body = body ∧ ∀ sig, Hmac.Recased sig req.signature →
        Hmac.verify hmac secret (signedRequest req.timestamp req.body) sig = true) ∧
    ∀ ts body sig : Str, Hmac.verify hmac secret (signedRequest ts body) sig = true ↔
      Hmac.Recased sig (Hmac.sign hmac secret (signedRequest ts body)) := by
  refine ⟨?_, ?_, fun ts body sig => Hmac.verify_iff_recased⟩
  · intro hinj ts₁ body₁ ts₂ body₂ sig n₁ n₂ h₁ h₂ hv₁ hv₂
    rw [Hmac.verify_iff] at hv₁ hv₂
    rw [hv₁] at hv₂
    exact signedRequest_inj h₁ h₂ (hinj (Option.some.inj hv₂))
  · rintro s url body t req k rfl hrun
    obtain ⟨hbody, hsig⟩ := SettlementConsumer.sendOnce_post hrun
    refine ⟨hbody, fun sig hrecased => Hmac.verify_iff_recased.mpr ?_⟩
    rw [hbody, ← hsig]
    exact hrecased

/-- A callback of the settlement consumer, with its signature in capitals; and a body that starts with
digits, which cannot lend them to the timestamp. -/
theorem signature_fixes_request_callback :
    (∃ req k, Prog.Runs (P := settlementPort)
        (SettlementConsumer.live.sendOnce (bytes "https://m1.example/callback") (bytes "sk")
          SettlementConsumer.confirmedJSON)
        [SettlementOp.timeNow.gave 0] (.call (.post req) k) ∧
      Hmac.verify Sha256.hmac (bytes "sk")
        (signedRequest req.timestamp SettlementConsumer.confirmedJSON)
        (req.signature.map upperByte) = true) ∧
    Hmac.verify (fun _ msg => msg) [] (signedRequest (bytes "1") (bytes "2.3"))
      (Hmac.sign (fun _ msg => msg) [] (signedRequest (bytes "12") (bytes "3"))) ≠ true := by
  constructor
  · obtain ⟨req, k, hrun⟩ : ∃ req k, Prog.Runs (P := settlementPort)
        (SettlementConsumer.live.sendOnce (bytes "https://m1.example/callback") (bytes "sk")
          SettlementConsumer.confirmedJSON)
        [SettlementOp.timeNow.gave 0] (.call (.post req) k) :=
      ⟨_, _, .cons _ _ _ (.nil _)⟩
    obtain ⟨-, hpost, -⟩ := signature_fixes_request Sha256.hmac (bytes "sk")
    obtain ⟨hbody, hgood⟩ := hpost SettlementConsumer.live _ _ _ req k rfl hrun
    refine ⟨req, k, hrun, ?_⟩
    rw [← hbody]
    refine hgood _ ?_
    unfold Hmac.Recased
    rw [List.map_map]
    exact List.map_congr_left fun c _ => lowerByte_upperByte c
  · intro hgood
    obtain ⟨hfixed, -, hsign⟩ := signature_fixes_request (fun _ msg => msg) []
    have hown := (hsign (bytes "12") (bytes "3") _).mpr rfl
    have hts := (hfixed (fun _ _ h => h) (bytes "1") (bytes "2.3") (bytes "12") (bytes "3") _ 1 12
      (by decide) (by decide) hgood hown).1
    revert hts
    decide

end EasyPay
