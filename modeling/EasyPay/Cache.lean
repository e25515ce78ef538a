import EasyPay.Lib.Cached
import EasyPay.Lib.Table
import EasyPay.Domain

/-!
# Redis keys and the URL cache

`internal/cache`: the distributed lock (`lock.go`) and the webhook dedupe keys are
Redis keys set with `SETNX` and a TTL, the URL cache (`url_cache.go`) is a Go map
with a TTL.  Both are maps with one entry per key (`AList`).  An entry counts as
gone once its TTL has elapsed.

Deleting while ranging over a Go map hits any entry; the number `pick` says which.
-/

namespace EasyPay

open GoStrings Tables Cached

/-! ## Redis keys -/

structure RedisEntry where
  value : Str
  expiresAt : Time
  deriving DecidableEq, Repr

abbrev Redis := AList fun _ : Str => RedisEntry

namespace Redis

/-- The value stored under a key whose TTL has not elapsed. -/
def get (now : Time) (key : Str) (r : Redis) : Option Str :=
  match AList.lookup key r with
  | some e => if now < e.expiresAt then some e.value else none
  | none => none

/-- `SET key value NX` with a TTL: set, and say so, unless the key is there. -/
def setNX (now : Time) (key value : Str) (ttl : Time) (r : Redis) : Bool × Redis :=
  match get now key r with
  | some _ => (false, r)
  | none => (true, AList.insert key ⟨value, now + ttl⟩ r)

/-- `releaseScript`: delete the key if it still holds the token. -/
def release (now : Time) (key token : Str) (r : Redis) : Redis :=
  if get now key r = some token then AList.erase key r else r

theorem setNX_eq (now : Time) (key value : Str) (ttl : Time) (r : Redis) :
    setNX now key value ttl r = (false, r) ∧ (get now key r).isSome ∨
      setNX now key value ttl r = (true, AList.insert key ⟨value, now + ttl⟩ r) ∧
        get now key r = none := by
  unfold setNX
  cases h : get now key r with
  | none => exact .inr ⟨rfl, rfl⟩
  | some v => exact .inl ⟨rfl, rfl⟩

theorem setNX_of_lookup_none {key : Str} {r : Redis} (h : AList.lookup key r = none) (now : Time)
    (value : Str) (ttl : Time) :
    setNX now key value ttl r = (true, AList.insert key ⟨value, now + ttl⟩ r) := by
  unfold setNX get
  rw [h]

theorem setNX_of_live {key : Str} {r : Redis} {e : RedisEntry} (h : AList.lookup key r = some e)
    {now : Time} (hlive : now < e.expiresAt) (value : Str) (ttl : Time) :
    setNX now key value ttl r = (false, r) := by
  unfold setNX get
  rw [h]
  simp only
  rw [if_pos hlive]

theorem get_of_lookup {key : Str} {r : Redis} {e : RedisEntry} (h : AList.lookup key r = some e)
    {now : Time} (hlive : now < e.expiresAt) : get now key r = some e.value := by
  unfold get
  rw [h]
  simp only
  rw [if_pos hlive]

theorem lookup_of_get {now : Time} {key value : Str} {r : Redis} (h : get now key r = some value) :
    ∃ e, AList.lookup key r = some e ∧ e.value = value := by
  unfold get at h
  split at h
  · next e he =>
    split at h
    · exact ⟨e, he, Option.some.inj h⟩
    · cases h
  · cases h

/-- The other keys are left alone, by `SETNX`... -/
theorem lookup_setNX_ne {now : Time} {key value : Str} {ttl : Time} {r : Redis} {k : Str}
    (hk : k ≠ key) : AList.lookup k (setNX now key value ttl r).2 = AList.lookup k r := by
  rcases setNX_eq now key value ttl r with ⟨h, -⟩ | ⟨h, -⟩
  · rw [h]
  · rw [h]
    exact AList.lookup_insert_ne hk

/-- ... and by a release. -/
theorem lookup_release_ne {now : Time} {key token : Str} {r : Redis} {k : Str} (hk : k ≠ key) :
    AList.lookup k (release now key token r) = AList.lookup k r := by
  unfold release
  split
  · exact AList.lookup_erase_ne hk
  · rfl

end Redis

/-! ## The URL cache -/

structure UrlEntry where
  url : Str
  expiresAt : Time
  deriving DecidableEq, Repr

structure URLCache where
  data : AList fun _ : Str => UrlEntry
  maxSize : Nat
  ttl : Time

namespace URLCache

def new (maxSize : Nat) (ttl : Time) : URLCache := ⟨∅, maxSize, ttl⟩

def get (now : Time) (key : Str) (c : URLCache) : Option Str :=
  match c.data.lookup key with
  | none => none
  | some e => if now > e.expiresAt then none else some e.url

/-- Delete one entry that satisfies `p`, if there is any. -/
def deleteOne (pick : Nat) (p : UrlEntry → Bool) (d : AList fun _ : Str => UrlEntry) :
    AList fun _ : Str => UrlEntry :=
  match pickFrom pick (d.entries.filter fun e => p e.2) with
  | some e => d.erase e.1
  | none => d

/-- Make room in a full cache: drop an expired entry; if it is still full, drop any. -/
def evict (now : Time) (pick : Nat) (c : URLCache) : AList fun _ : Str => UrlEntry :=
  if c.data.entries.length ≥ c.maxSize then
    let d := deleteOne pick (fun e => now > e.expiresAt) c.data
    if d.entries.length ≥ c.maxSize then deleteOne pick (fun _ => true) d else d
  else c.data

def put (now : Time) (pick : Nat) (key url : Str) (c : URLCache) : URLCache :=
  { c with data := (evict now pick c).insert key ⟨url, now + c.ttl⟩ }

def invalidate (key : Str) (c : URLCache) : URLCache := { c with data := c.data.erase key }

/-- A hit is an entry that has not expired. -/
theorem get_some {now : Time} {key url : Str} {c : URLCache} (h : c.get now key = some url) :
    ∃ e, c.data.lookup key = some e ∧ e.url = url ∧ now ≤ e.expiresAt := by
  unfold get at h
  split at h
  · cases h
  · next e he =>
    split at h
    · cases h
    · next hlive => exact ⟨e, he, Option.some.inj h, not_lt.mp hlive⟩

theorem deleteOne_cases (pick : Nat) (p : UrlEntry → Bool) (d : AList fun _ : Str => UrlEntry) :
    ((∀ e ∈ d.entries, p e.2 = false) ∧ deleteOne pick p d = d) ∨
      ∃ e ∈ d.entries, p e.2 = true ∧ deleteOne pick p d = d.erase e.1 := by
  unfold deleteOne
  cases hpick : pickFrom pick (d.entries.filter fun e => p e.2) with
  | none =>
    have hnone := List.filter_eq_nil_iff.mp (pickFrom_eq_none.mp hpick)
    exact .inl ⟨fun e he => Bool.eq_false_iff.mpr (hnone e he), rfl⟩
  | some e =>
    obtain ⟨hmem, hp⟩ := List.mem_filter.mp (pickFrom_mem hpick)
    exact .inr ⟨e, hmem, hp, rfl⟩

theorem forgets_deleteOne (pick : Nat) (p : UrlEntry → Bool) (d : AList fun _ : Str => UrlEntry) :
    Forgets d (deleteOne pick p d) := by
  rcases deleteOne_cases pick p d with ⟨-, hsame⟩ | ⟨e, -, -, herase⟩
  · rw [hsame]
    exact .refl d
  · rw [herase]
    exact forgets_erase d e.1

theorem forgets_evict (now : Time) (pick : Nat) (c : URLCache) :
    Forgets c.data (c.evict now pick) := by
  unfold evict
  simp only
  split
  · split
    · exact (forgets_deleteOne _ _ _).trans (forgets_deleteOne _ _ _)
    · exact forgets_deleteOne _ _ _
  · exact .refl _

/-- What is in the cache after a `Put` was put now, or was there before. -/
theorem lookup_put {now : Time} {pick : Nat} {key url : Str} {c : URLCache} {k : Str}
    {e : UrlEntry} (h : (c.put now pick key url).data.lookup k = some e) :
    (k = key ∧ e.url = url) ∨ c.data.lookup k = some e := by
  by_cases hk : k = key
  · subst hk
    simp only [put] at h
    rw [AList.lookup_insert] at h
    exact .inl ⟨rfl, by rw [← Option.some.inj h]⟩
  · simp only [put] at h
    rw [AList.lookup_insert_ne hk] at h
    exact .inr (forgets_evict now pick c _ _ h)

end URLCache

end EasyPay
