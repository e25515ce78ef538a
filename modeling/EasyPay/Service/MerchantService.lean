import EasyPay.Repository.MerchantRepo

/-!
# Merchant service

`internal/service/merchant_service.go`: onboarding trims and checks the merchant id and the
name, draws the keys, and stores the merchant on the least loaded logical shard.

`Accepted m` says that `Create` can end with the merchant id `m`; `accepted_iff` is what
that means for `m`.
-/

namespace EasyPay

open GoStrings Ports

structure CreateMerchantInput where
  merchantID : Str
  name : Str
  callbackURL : Str
  rateLimit : Int
  deriving DecidableEq, Repr

structure CreateMerchantResult where
  merchantID : Str
  name : Str
  apiKey : Str
  secretKey : Str
  callbackURL : Str
  rateLimit : Int
  shardIndex : UInt8
  deriving DecidableEq, Repr

/-- `randomHex` for a positive `n`. -/
def randomHex (n : Nat) : Svc (Res Str) := do
  match ← Svc.ask (.randRead n) with
  | .error e => return .error e
  | .ok b => return .ok (hexEncode b)

namespace MerchantService

variable (r : MerchantRepo)

/-- `Create` once the input is checked and the keys are drawn. -/
def store (mID name : Str) (inp : CreateMerchantInput) (apiKey secretKey : Str) :
    Svc (Res CreateMerchantResult) := do
  let m : Merchant :=
    { merchantID := mID
      name := name
      apiKey := apiKey
      secretKey := secretKey
      callbackURL := trimSpace inp.callbackURL
      rateLimit := if inp.rateLimit ≤ 0 then 1000 else inp.rateLimit
      status := .active
      shardIndex := 0 }
  match ← r.insert m with
  | .error e => return .error e
  | .ok m =>
    return .ok ⟨m.merchantID, m.name, m.apiKey, m.secretKey, m.callbackURL, m.rateLimit,
      m.shardIndex⟩

def create (inp : CreateMerchantInput) : Svc (Res CreateMerchantResult) := do
  let mID := trimSpace inp.merchantID
  if mID = [] ∨ mID.length > 64 then
    return .error (.because .invalidRequest (bytes "merchant_id length must be 1..64"))
  else
    let name := trimSpace inp.name
    if name = [] ∨ name.length > 255 then
      return .error (.because .invalidRequest (bytes "name length must be 1..255"))
    else
      match ← randomHex 32 with
      | .error e => return .error (e.wrap (bytes "gen api_key: "))
      | .ok apiKey =>
        match ← randomHex 32 with
        | .error e => return .error (e.wrap (bytes "gen secret_key: "))
        | .ok secretKey => store r mID name inp apiKey secretKey

/-- Some run of `Create` ends with the merchant `m`. -/
def Accepted (m : Str) : Prop :=
  ∃ (inp : CreateMerchantInput) (t : Calls) (res : CreateMerchantResult),
    Prog.Runs (create r inp) t (.ret (.ok res)) ∧ res.merchantID = m

/-- The merchant that is stored has this id, and one of the logical shards. -/
def Stores (mID : Str) (_ : Calls) (op : Op) : Prop :=
  ∀ M, op = .insertMerchant M → M.merchantID = mID ∧ M.shardIndex < r.logicalShardCount

/-- A result carries the merchant id that was stored. -/
theorem store_meets (mID name : Str) (inp : CreateMerchantInput) (apiKey secretKey : Str)
    (t : Calls) :
    Prog.Meets (P := gateway) (Stores r mID)
      (fun _ res => ∀ x, res = .ok x → x.merchantID = mID)
      (store r mID name inp apiKey secretKey) t := by
  unfold store
  refine Prog.meets_bind (R := fun _ res => ∀ x, res = .ok x → x.merchantID = mID) ?_
    fun t' res hres => ?_
  · unfold MerchantRepo.insert
    refine Svc.meets_ask (fun M hM => by cases hM) fun a => ?_
    cases a with
    | error e => rintro x ⟨⟩
    | ok counts =>
      refine Svc.meets_ask ?_ fun b => ?_
      · rintro M ⟨⟩
        exact ⟨rfl, r.leastLoaded_lt counts⟩
      cases b with
      | error e => rintro x ⟨⟩
      | ok u =>
        rintro x ⟨⟩
        rfl
  · cases res with
    | error e => rintro x ⟨⟩
    | ok m =>
      rintro x ⟨⟩
      exact hres m rfl

theorem create_meets (inp : CreateMerchantInput) (t : Calls) :
    Prog.Meets (P := gateway) (Stores r (trimSpace inp.merchantID))
      (fun _ res => ∀ x, res = .ok x → x.merchantID = trimSpace inp.merchantID ∧
        x.merchantID ≠ [] ∧ x.merchantID.length ≤ 64) (create r inp) t := by
  unfold create
  simp only
  split
  · rintro x ⟨⟩
  next hm =>
  obtain ⟨hne, hle⟩ := not_or.mp hm
  split
  · rintro x ⟨⟩
  unfold randomHex
  refine Svc.meets_ask (fun M hM => by cases hM) fun a => ?_
  cases a with
  | error e => rintro x ⟨⟩
  | ok a =>
    refine Svc.meets_ask (fun M hM => by cases hM) fun b => ?_
    cases b with
    | error e => rintro x ⟨⟩
    | ok b =>
      refine (store_meets r _ _ inp _ _ _).imp fun t' res hres x hx => ?_
      rw [hres x hx]
      exact ⟨rfl, hne, by omega⟩

/-- **Accepted merchant ids** are the trimmed strings of 1 to 64 bytes. -/
theorem accepted_iff (m : Str) :
    Accepted r m ↔ (∃ x, trimSpace x = m) ∧ m ≠ [] ∧ m.length ≤ 64 := by
  constructor
  · rintro ⟨inp, t, res, hrun, rfl⟩
    obtain ⟨h1, h2, h3⟩ := (create_meets r inp []).ret hrun res rfl
    exact ⟨⟨inp.merchantID, h1.symm⟩, h2, h3⟩
  · rintro ⟨⟨x, rfl⟩, hne, hle⟩
    have hm : ¬ (trimSpace x = [] ∨ (trimSpace x).length > 64) := by
      rintro (h | h)
      · exact hne h
      · omega
    refine ⟨⟨x, bytes "shop", [], 0⟩, ?_⟩
    unfold create
    simp only
    rw [if_neg hm, if_neg (by decide)]
    -- the run in which every call succeeds
    exact ⟨_, _, .cons (P := gateway) (Op.randRead 32) _ (Except.ok [] : Res Str)
      (.cons (P := gateway) (Op.randRead 32) _ (Except.ok [] : Res Str)
        (.cons (P := gateway) (Op.countByShard r.logicalShardCount) _
          (Except.ok [] : Res (List (UInt8 × Int)))
          (.cons (P := gateway) (Op.insertMerchant _) _ (Except.ok () : Res Unit) (.nil _)))), rfl⟩

/-- `M` is onboarded: `Create` has returned, and the table has stored `M` for it. -/
def Onboarded (M : Merchant) : Prop :=
  ∃ inp t res, Prog.Runs (create r inp) t (.ret (.ok res)) ∧ (Op.insertMerchant M).gave (.ok ()) ∈ t

/-- The shard index of a stored merchant is one the router knows. -/
theorem Onboarded.shardIndex_lt {M : Merchant} (h : Onboarded r M) : M.shardIndex < r.logicalShardCount := by
  obtain ⟨inp, t, res, hrun, hM⟩ := h
  obtain ⟨t₁, t₂, rfl⟩ := List.append_of_mem hM
  obtain ⟨k, hk⟩ := hrun.before
  exact ((create_meets r inp []).call hk M rfl).2

end MerchantService

end EasyPay
