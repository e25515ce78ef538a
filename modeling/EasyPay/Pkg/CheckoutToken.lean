import EasyPay.Domain

/-!
# Checkout tokens

`pkg/checkouttoken/token.go`: a token is an expiry and the hex of
`HMAC(secret, merchant_id:order_id.expiry)`.

* `verify_signWithExpiry`: an accepted token is the one that `signWithExpiry` makes for the
  pair it is checked against, with an expiry that has not passed.
* `verify_accepts_issued`: no other token is accepted, in no other spelling.
* `message_eq_iff`: two pairs sign the same message when they are the same pair or one is
  the other with the separator moved.
-/

namespace EasyPay

open GoStrings

namespace CheckoutToken

section
variable (hmac : (secret msg : Str) → Str)

/-- The signed message, `"%s:%s.%d"`. -/
def message (merchantID orderID : Str) (expiry : Int64) : Str :=
  merchantID ++ 58 :: (orderID ++ 46 :: formatInt expiry.toInt)

def signWithExpiry (secret merchantID orderID : Str) (expiry : Int64) : Str :=
  formatInt expiry.toInt ++ 46 :: hexEncode (hmac secret (message merchantID orderID expiry))

def sign (now : Time) (secret merchantID orderID : Str) (lifetime : Time) : Str :=
  signWithExpiry hmac secret merchantID orderID (unix (now + lifetime))

def verify (now : Time) (secret merchantID orderID token : Str) : Res Unit :=
  match cut 46 token with
  | none => .error (.of .tokenMalformed)
  | some (part, _) =>
    match parseInt part with
    | none => .error (.of .tokenMalformed)
    | some expiry =>
      if unix now > expiry then .error (.of .tokenExpired)
      else if signWithExpiry hmac secret merchantID orderID expiry ≠ token then
        .error (.of .tokenSignature)
      else .ok ()

end

variable {hmac : (secret msg : Str) → Str}

/-- Reading the expiry of a token back. -/
theorem cut_signWithExpiry (secret m o : Str) (expiry : Int64) :
    cut 46 (signWithExpiry hmac secret m o expiry) =
      some (formatInt expiry.toInt, hexEncode (hmac secret (message m o expiry))) := by
  unfold signWithExpiry
  apply cut_append
  intro hmem
  rcases formatInt_chars _ _ hmem with h | h
  · revert h
    decide
  · revert h
    decide

/-- A token has a dot at least. -/
theorem sign_ne_nil (now : Time) (secret m o : Str) (lifetime : Time) :
    sign hmac now secret m o lifetime ≠ [] := by
  unfold sign signWithExpiry
  exact List.append_ne_nil_of_right_ne_nil _ (List.cons_ne_nil _ _)

/-- **Verify** accepts a token for a pair just when it is not expired and is the token
`signWithExpiry` makes for that pair. -/
theorem verify_signWithExpiry (now : Time) (secret m o m' o' : Str) (expiry : Int64) :
    verify hmac now secret m' o' (signWithExpiry hmac secret m o expiry) = .ok () ↔
      unix now ≤ expiry ∧
        signWithExpiry hmac secret m' o' expiry = signWithExpiry hmac secret m o expiry := by
  unfold verify
  rw [cut_signWithExpiry]
  simp only [parseInt_formatInt]
  by_cases hexp : unix now > expiry
  · rw [if_pos hexp]
    constructor
    · intro h
      cases h
    · rintro ⟨hle, -⟩
      exact absurd hexp (Int64.not_lt.mpr hle)
  · rw [if_neg hexp]
    by_cases hsig : signWithExpiry hmac secret m' o' expiry = signWithExpiry hmac secret m o expiry
    · rw [if_neg (not_not.mpr hsig)]
      exact ⟨fun _ => ⟨Int64.not_lt.mp hexp, hsig⟩, fun _ => rfl⟩
    · rw [if_pos hsig]
      constructor
      · intro h
        cases h
      · exact fun h => absurd h.2 hsig

/-- An accepted token has been taken apart and put together again. -/
theorem exists_of_verify {now : Time} {secret m o token : Str}
    (h : verify hmac now secret m o token = .ok ()) :
    ∃ expiry : Int64, unix now ≤ expiry ∧ token = signWithExpiry hmac secret m o expiry := by
  unfold verify at h
  split at h
  · cases h
  next part rest hcut =>
  split at h
  · cases h
  next expiry hparse =>
  split at h
  · cases h
  next hlive =>
  split at h
  · cases h
  next hsig => exact ⟨expiry, Int64.not_lt.mp hlive, (not_not.mp hsig).symm⟩

/-- A token is read with the expiry it was signed with. -/
theorem expiry_of_signWithExpiry {secret m o part rest : Str} {expiry expiry' : Int64}
    (h : signWithExpiry hmac secret m o expiry = part ++ 46 :: rest)
    (hparse : parseInt part = some expiry') : expiry = expiry' := by
  have hcut : cut 46 (signWithExpiry hmac secret m o expiry) = _ := cut_signWithExpiry secret m o expiry
  rw [h, cut_append 46 part rest (dot_notMem_of_parseInt hparse)] at hcut
  obtain ⟨hpart, -⟩ := Prod.mk.inj (Option.some.inj hcut)
  rw [hpart, parseInt_formatInt] at hparse
  exact Option.some.inj hparse

/-- After its expiry a token is refused as expired. -/
theorem verify_expired {now : Time} {secret m o : Str} {expiry : Int64} (h : ¬ unix now ≤ expiry) :
    verify hmac now secret m o (signWithExpiry hmac secret m o expiry) =
      .error (.of .tokenExpired) := by
  unfold verify
  rw [cut_signWithExpiry]
  simp only [parseInt_formatInt]
  rw [if_pos (Int64.not_le.mp h)]

/-- **Verify accepts exactly the issued tokens**: a token of `Sign` up to its expiry and as expired
after it, and of the spellings of an expiry the one `signWithExpiry` writes. -/
theorem verify_accepts_issued (hmac : (secret msg : Str) → Str) (secret m o token : Str) (now : Time) :
    (verify hmac now secret m o token = .ok () ↔
      ∃ expiry : Int64, unix now ≤ expiry ∧ token = signWithExpiry hmac secret m o expiry) ∧
    (∀ issued lifetime : Time, token = sign hmac issued secret m o lifetime →
      verify hmac now secret m o token =
        if unix now ≤ unix (issued + lifetime) then .ok () else .error (.of .tokenExpired)) ∧
    ∀ (part rest : Str) (expiry : Int64), token = part ++ 46 :: rest → parseInt part = some expiry →
      token ≠ signWithExpiry hmac secret m o expiry → verify hmac now secret m o token ≠ .ok () := by
  refine ⟨⟨exists_of_verify, ?_⟩, ?_, ?_⟩
  · rintro ⟨expiry, hlive, rfl⟩
    exact (verify_signWithExpiry now secret m o m o expiry).mpr ⟨hlive, rfl⟩
  · rintro issued lifetime rfl
    unfold sign
    split
    · next hlive => exact (verify_signWithExpiry now secret m o m o _).mpr ⟨hlive, rfl⟩
    · next hdead => exact verify_expired hdead
  · intro part rest expiry htok hparse hne hok
    obtain ⟨expiry', -, htok'⟩ := exists_of_verify hok
    rw [htok'] at htok
    obtain rfl := expiry_of_signWithExpiry htok hparse
    exact hne htok'

theorem message_eq_iff (m o m' o' : Str) (expiry : Int64) :
    message m o expiry = message m' o' expiry ↔
      (m = m' ∧ o = o') ∨ Shifted 58 m o m' o' ∨ Shifted 58 m' o' m o := by
  have hassoc : ∀ a b : Str, message a b expiry =
      (a ++ 58 :: b) ++ 46 :: formatInt expiry.toInt := by
    intro a b
    unfold message
    rw [List.append_assoc, List.cons_append]
  rw [← join_eq_join_iff, hassoc, hassoc, List.append_cancel_right_eq]

/-- A token signed for one pair is the token of another, if HMAC does not collide, just when
the messages agree. -/
theorem signWithExpiry_eq_iff {secret : Str} (hinj : Function.Injective (hmac secret))
    (m o m' o' : Str) (expiry : Int64) :
    signWithExpiry hmac secret m o expiry = signWithExpiry hmac secret m' o' expiry ↔
      message m o expiry = message m' o' expiry := by
  constructor
  · intro h
    have htail := List.append_cancel_left h
    exact hinj (hexEncode_injective (List.cons.inj htail).2)
  · intro h
    unfold signWithExpiry
    rw [h]

end CheckoutToken

end EasyPay
