import EasyPay.Repository.ShardRouter

/-!
# Configuration

`internal/config/config.go`: the checks of `validate`, on the fields they look at, and the
clamping of the logical shard count.

* `Config.opens`: `OpenShards` accepts what `validate` accepts, at a count that `shardCount` clamped.
-/

namespace EasyPay

open GoStrings

/-- The part of `Config` that `validate` checks. -/
structure Config where
  /-- `app.logical_shard_count`. -/
  logicalShardCount : UInt8
  port : Int
  /-- `db.dsn`, and the DSNs of `db.shards`. -/
  dsn : Str
  shards : List Str
  hmacSecret : Str
  stripeMode : Str
  stripeSecretKey : Str
  stripeWebhookSecret : Str
  deriving DecidableEq, Repr

/-- `shardCount`: into the range of a `uint8`, without 0. -/
def shardCount (v : Int) : UInt8 :=
  if v < 1 then 1 else if v > 255 then 255 else v.toNat.toUInt8

theorem shardCount_ne_zero (v : Int) : shardCount v ≠ 0 := by
  unfold shardCount
  split
  · decide
  split
  · decide
  next hlow hhigh =>
  intro h
  have hnat : (v.toNat.toUInt8).toNat = v.toNat := by
    rw [Nat.toUInt8_eq, UInt8.toNat_ofNat']
    exact Nat.mod_eq_of_lt (by omega)
  rw [h] at hnat
  have : (0 : UInt8).toNat = 0 := rfl
  omega

namespace Config

/-- The first shard without a DSN, from shard `i` on. -/
def withoutDSN : Nat → List Str → Option Nat
  | _, [] => none
  | i, dsn :: shards => if dsn = [] then some i else withoutDSN (i + 1) shards

/-- The checks of the Stripe mode. -/
def validateStripe (c : Config) : Res Unit :=
  if c.stripeMode = bytes "live" then
    if c.stripeSecretKey = [] then
      .error (.new (bytes "stripe.secret_key required when stripe.mode=live"))
    else if c.stripeWebhookSecret = [] then
      .error (.new (bytes "stripe.webhook_secret required when stripe.mode=live"))
    else .ok ()
  else if c.stripeMode = bytes "fake" then .ok ()
  else .error (.new (bytes "invalid stripe.mode: " ++ c.stripeMode ++
    bytes " (allowed: live, fake)"))

def validate (c : Config) : Res Unit :=
  let n := c.shards.length
  let L := c.logicalShardCount.toNat
  if n = 0 ∧ c.dsn = [] then .error (.new (bytes "db.dsn or db.shards is required"))
  else
    match withoutDSN 0 c.shards with
    | some i => .error (.new (bytes "db.shards[" ++ formatInt i ++ bytes "].dsn is required"))
    | none =>
      if n > 0 ∧ L < n then
        .error (.new (bytes "app.logical_shard_count (" ++ formatInt L ++
          bytes ") must be >= len(db.shards) (" ++ formatInt n ++ bytes ")"))
      else if n > 0 ∧ L % n ≠ 0 then
        .error (.new (bytes "app.logical_shard_count (" ++ formatInt L ++
          bytes ") must be divisible by len(db.shards) (" ++ formatInt n ++ bytes ")"))
      else if c.port ≤ 0 ∨ c.port > 65535 then
        .error (.new (bytes "invalid app.port: " ++ formatInt c.port))
      else if c.hmacSecret.length < 16 then
        .error (.new (bytes "security.hmac_secret must be at least 16 chars"))
      else c.validateStripe

/-- What `validate` says about the shards of an accepted configuration. -/
theorem shards_of_valid {c : Config} (h : c.validate = .ok ()) (hn : 0 < c.shards.length) :
    c.shards.length ≤ c.logicalShardCount.toNat ∧
      c.logicalShardCount.toNat % c.shards.length = 0 := by
  unfold validate at h
  simp only at h
  split at h
  · cases h
  split at h
  · cases h
  split at h
  · cases h
  next hle =>
  split at h
  · cases h
  next hdvd =>
  constructor
  · by_contra hlt
    exact hle ⟨hn, Nat.lt_of_not_le hlt⟩
  · by_contra hne
    exact hdvd ⟨hn, hne⟩

/-- **OpenShards accepts a valid configuration** that was loaded with the count `v`, with one pool for
each shard that is configured, and one if there is none. -/
theorem opens {c : Config} {v : Int} (h : c.validate = .ok ())
    (hcount : c.logicalShardCount = shardCount v) :
    ∃ r, openShards c.shards.length c.logicalShardCount = .ok r := by
  have hpos : c.logicalShardCount ≠ 0 := by
    rw [hcount]
    exact shardCount_ne_zero v
  have hone : 0 < c.logicalShardCount.toNat := by
    have := UInt8.pos_iff_ne_zero.mpr hpos
    exact UInt8.lt_iff_toNat_lt.mp this
  by_cases hn : c.shards.length = 0
  · refine exists_openShards hpos ?_ ?_
    · rw [if_pos hn]
      exact hone
    · rw [if_pos hn]
      exact Nat.mod_one _
  · obtain ⟨hle, hdvd⟩ := shards_of_valid h (Nat.pos_of_ne_zero hn)
    refine exists_openShards hpos ?_ ?_
    · rw [if_neg hn]
      exact hle
    · rw [if_neg hn]
      exact hdvd

end Config

end EasyPay
