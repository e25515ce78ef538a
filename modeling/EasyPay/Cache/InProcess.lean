import EasyPay.Lib.Cached
import EasyPay.System

/-!
# In-process caches

The URL cache (`internal/cache/url_cache.go`) and the `lruCache` of merchants
(`internal/repository/merchant_repo.go`): maps with a TTL and a bound on their size.  A full map
drops an entry before it takes another: the URL cache an expired one if it meets any, the merchant
cache one with the smallest expiry.

For every sequence of calls, whatever the order in which the maps are ranged over, the bound holds
and a hit is the value that was put last, if it has not been invalidated (`URLCache.after_shows`,
`LruCache.after_shows`).  A call has one time, so the two readings of the clock in `Put` are one.

The merchant cache takes the zero time for "none yet" while it looks for the smallest expiry.  The
clock counts from 1970 and a `Duration` reaches back 292 years, so no expiry is the zero time.
-/

namespace EasyPay

open GoStrings Ports Tables Cached

/-! ## The URL cache -/

namespace URLCache

inductive Call
  | get (now : Time) (key : Str)
  | put (now : Time) (pick : Nat) (key url : Str)
  | invalidate (key : Str)
  deriving DecidableEq, Repr

def step (c : URLCache) : Call → URLCache
  | .get _ _ => c
  | .put now pick key url => c.put now pick key url
  | .invalidate key => c.invalidate key

/-- A new cache, after some calls. -/
def after (maxSize : Nat) (ttl : Time) (calls : List Call) : URLCache :=
  calls.foldl step (new maxSize ttl)

/-- The call puts or invalidates the key. -/
def Call.Touches (key : Str) : Call → Prop
  | .get _ _ => False
  | .put _ _ k _ => k = key
  | .invalidate k => k = key

/-- The last call to touch the key has put `url`, at the time `t`. -/
def PutLast (calls : List Call) (key url : Str) (t : Time) : Prop :=
  ∃ before pick after, calls = before ++ .put t pick key url :: after ∧
    ∀ x ∈ after, ¬ x.Touches key

/-! ### Size -/

/-- There is room after an eviction. -/
theorem length_evict_lt {c : URLCache} (hpos : 1 ≤ c.maxSize)
    (hsize : c.data.entries.length ≤ c.maxSize) (now : Time) (pick : Nat) :
    (c.evict now pick).entries.length < c.maxSize := by
  have hless : ∀ e ∈ c.data.entries, (c.data.erase e.1).entries.length < c.maxSize := by
    intro e he
    have := length_erase_of_mem he
    omega
  unfold evict
  simp only
  split
  · split
    · next hfull hstill =>
      -- nothing has expired, else there would be room now
      rcases deleteOne_cases pick (fun e => now > e.expiresAt) c.data with ⟨-, hsame⟩ | ⟨e, he, -, hdel⟩
      · rw [hsame]
        rcases deleteOne_cases pick (fun _ => true) c.data with ⟨hnone, -⟩ | ⟨e, he, -, hdel⟩
        · obtain ⟨e, he⟩ := List.exists_mem_of_length_pos (hpos.trans hfull)
          cases hnone e he
        · rw [hdel]
          exact hless e he
      · rw [hdel] at hstill
        exact absurd (hless e he) (not_lt.mpr hstill)
    · next hroom => exact not_le.mp hroom
  · next hroom => exact not_le.mp hroom

/-! ### Map iteration -/

/-- Whatever entry the loop meets first, some number stands for it. -/
theorem exists_pick {p : UrlEntry → Bool} {d : AList fun _ : Str => UrlEntry}
    {e : Σ _ : Str, UrlEntry} (he : e ∈ d.entries) (hp : p e.2 = true) :
    ∃ pick, deleteOne pick p d = d.erase e.1 := by
  have hmem : e ∈ d.entries.filter fun e => p e.2 := List.mem_filter.mpr ⟨he, hp⟩
  obtain ⟨pick, hpick⟩ := exists_pickFrom hmem
  refine ⟨pick, ?_⟩
  unfold deleteOne
  rw [hpick]

/-- **Every order.**  The two loops of `Put` range over the full map in any orders `l₁` and `l₂`:
the first deletes the first expired entry, and if there is none, the second deletes its first. -/
theorem exists_evict {c : URLCache} (hpos : 1 ≤ c.maxSize)
    (hfull : c.data.entries.length = c.maxSize) (now : Time)
    {l₁ l₂ : List (Σ _ : Str, UrlEntry)} (h₁ : l₁.Perm c.data.entries)
    (h₂ : l₂.Perm c.data.entries) :
    ∃ pick, some (c.evict now pick) =
      ((l₁.find? fun e => now > e.2.expiresAt).or l₂.head?).map fun e => c.data.erase e.1 := by
  unfold evict
  simp only [ge_iff_le, hfull.ge, if_true]
  cases hfind : l₁.find? fun e => now > e.2.expiresAt with
  | some e =>
    have he := h₁.mem_iff.mp (List.mem_of_find?_eq_some hfind)
    have hexpired : decide (now > e.2.expiresAt) = true :=
      List.find?_some (p := fun e : Σ _ : Str, UrlEntry => now > e.2.expiresAt) hfind
    obtain ⟨pick, hpick⟩ := exists_pick (p := fun e => now > e.expiresAt) he hexpired
    have hroom := length_erase_of_mem he
    refine ⟨pick, ?_⟩
    rw [hpick, if_neg (by omega)]
    rfl
  | none =>
    have hnone : ∀ e ∈ c.data.entries, decide (now > e.2.expiresAt) = false := fun e he =>
      Bool.eq_false_iff.mpr (List.find?_eq_none.mp hfind e (h₁.mem_iff.mpr he))
    have hkept : ∀ pick, deleteOne pick (fun e => now > e.expiresAt) c.data = c.data := by
      intro pick
      rcases deleteOne_cases pick (fun e => now > e.expiresAt) c.data with ⟨-, h⟩ | ⟨e, he, hexp, -⟩
      · exact h
      · cases (hnone e he).symm.trans hexp
    obtain ⟨e, l, rfl⟩ := List.exists_cons_of_length_pos
      (hpos.trans (hfull.ge.trans h₂.length_eq.ge))
    obtain ⟨pick, hpick⟩ := exists_pick (p := fun _ => true) (h₂.mem_iff.mp List.mem_cons_self) rfl
    refine ⟨pick, ?_⟩
    rw [hkept, if_pos hfull.ge, hpick]
    rfl

/-! ### Runs -/

/-- What a call writes. -/
def Call.write (ttl : Time) : Call → Option (Write Str UrlEntry)
  | .get _ _ => none
  | .put now _ key url => some (.put key ⟨url, now + ttl⟩)
  | .invalidate key => some (.drop key)

/-- The states of a cache that was made with these parameters. -/
structure Within (maxSize : Nat) (ttl : Time) (c : URLCache) : Prop where
  maxSize_eq : c.maxSize = maxSize
  ttl_eq : c.ttl = ttl
  length_le : c.data.entries.length ≤ maxSize

theorem Within.step {maxSize : Nat} {ttl : Time} (hpos : 1 ≤ maxSize) (c : URLCache) (x : Call)
    (h : Within maxSize ttl c) : Within maxSize ttl (c.step x) := by
  obtain ⟨rfl, httl, hsize⟩ := h
  refine ⟨?_, ?_, ?_⟩
  · cases x <;> rfl
  · cases x <;> exact httl
  cases x with
  | get now key => exact hsize
  | put now pick key url =>
    exact (length_insert_le _ key _).trans (length_evict_lt hpos hsize now pick)
  | invalidate key => exact (length_erase_le _ key).trans hsize

theorem Within.follows {maxSize : Nat} {ttl : Time} (c : URLCache) (x : Call)
    (h : Within maxSize ttl c) : Follows c.data (x.write ttl) (c.step x).data := by
  obtain ⟨-, rfl, -⟩ := h
  cases x with
  | get now key => exact Forgets.refl _
  | put now pick key url => exact ⟨c.evict now pick, forgets_evict now pick c, rfl⟩
  | invalidate key => rfl

/-- Every run keeps to the bound, and shows what was put last. -/
theorem after_shows {maxSize : Nat} (hpos : 1 ≤ maxSize) (ttl : Time) (calls : List Call) :
    Within maxSize ttl (after maxSize ttl calls) ∧
      Shows (Call.write ttl) calls (after maxSize ttl calls).data := by
  have hnew : Within maxSize ttl (new maxSize ttl) := ⟨rfl, rfl, Nat.zero_le _⟩
  exact shows_run data (Within.step hpos) Within.follows hnew rfl calls

theorem not_touches_of_spares {ttl : Time} {key : Str} {x : Call}
    (h : Spares (Call.write ttl) key x) : ¬ x.Touches key := by
  cases x with
  | get now k => exact id
  | put now pick k url => exact h (.put k ⟨url, now + ttl⟩) rfl
  | invalidate k => exact h (.drop k) rfl

theorem putLast_of_lastPut {ttl : Time} {calls : List Call} {key : Str} {e : UrlEntry}
    (h : LastPut (Call.write ttl) calls key e) :
    ∃ t, e.expiresAt = t + ttl ∧ PutLast calls key e.url t := by
  obtain ⟨before, x, after, rfl, hx, hafter⟩ := h
  cases x with
  | get now k => cases hx
  | put now pick k url =>
    cases hx
    exact ⟨now, rfl, before, pick, after, rfl, fun y hy => not_touches_of_spares (hafter y hy)⟩
  | invalidate k => cases hx

theorem get_put {c : URLCache} {now later : Time} (h : later ≤ now + c.ttl) (pick : Nat)
    (key url : Str) : (c.put now pick key url).get later key = some url := by
  unfold get put
  simp only [AList.lookup_insert]
  exact if_neg (not_lt.mpr h)

end URLCache

/-- **The cache of a pod**, in every run of the system, has served some calls; so it keeps to its
bound. -/
theorem System.urlCache_bounded (D : Deployment) {w : World} {pod maxSize : Nat} {ttl : Time}
    (hpos : 1 ≤ maxSize) (hw : w.urlCaches pod = .new maxSize ttl) (js : List Job)
    (xs : List (Nat × Choice)) :
    ∃ calls, (run D w js xs).world.urlCaches pod = .after maxSize ttl calls ∧
      ((run D w js xs).world.urlCaches pod).data.entries.length ≤ maxSize := by
  have hcalls : ∃ calls, (run D w js xs).world.urlCaches pod = .after maxSize ttl calls := by
    refine invariant D w js
      (Q := fun S => ∃ calls, S.world.urlCaches pod = .after maxSize ttl calls) ⟨[], hw⟩ ?_ xs
    rintro S i c o k j ⟨calls, hS⟩ _ _
    show ∃ calls, (exec D o c S.world).2.urlCaches pod = _
    rcases exec_urlCaches_cases D o c S.world with hsame | ⟨pod', key, url, -, hput⟩
    · rw [hsame]
      exact ⟨calls, hS⟩
    · rw [hput]
      by_cases hpod : pod = pod'
      · subst hpod
        refine ⟨calls ++ [.put c.now (c.pick 0) key url], ?_⟩
        rw [Function.update_self, hS, URLCache.after, URLCache.after, List.foldl_append]
        rfl
      · rw [Function.update_of_ne hpod]
        exact ⟨calls, hS⟩
  obtain ⟨calls, hcalls⟩ := hcalls
  refine ⟨calls, hcalls, ?_⟩
  rw [hcalls]
  exact (URLCache.after_shows hpos ttl calls).1.length_le

/-! ## The merchant cache -/

/-- 1970, from which the system clock counts. -/
def unixEpoch : Time := 62135596800 * second

/-- What `time.Now()` returns. -/
structure Now where
  time : Time
  since : unixEpoch ≤ time

structure CacheEntry where
  value : Merchant
  expiresAt : Time
  deriving DecidableEq, Repr

/-- `ttl` is a `time.Duration`, in nanoseconds. -/
structure LruCache where
  data : AList fun _ : Str => CacheEntry
  cap : Nat
  ttl : Int64

namespace LruCache

def new (cap : Nat) (ttl : Int64) : LruCache := ⟨∅, cap, ttl⟩

/-- An expired entry is deleted on the way. -/
def get (now : Time) (key : Str) (c : LruCache) : Option Merchant × LruCache :=
  match c.data.lookup key with
  | none => (none, c)
  | some e =>
    if now > e.expiresAt then (none, { c with data := c.data.erase key }) else (some e.value, c)

/-- The loop of `put` over the entries: `evict`, and `oldest`, which is the zero time at first. -/
def evictee (entries : List (Σ _ : Str, CacheEntry)) : Str :=
  (entries.foldl
    (fun best e =>
      if best.2 = 0 ∨ e.2.expiresAt < best.2 then (e.1, e.2.expiresAt) else best) ([], (0 : Time))).1

/-- `put`; the map is ranged over in any `order`. -/
def put (now : Time) (order : List Nat) (key : Str) (m : Merchant) (c : LruCache) : LruCache :=
  let data :=
    if c.data.entries.length ≥ c.cap then c.data.erase (evictee (shuffle order c.data.entries))
    else c.data
  { c with data := data.insert key ⟨m, now + c.ttl.toInt⟩ }

inductive Call
  | get (now : Now) (key : Str)
  | put (now : Now) (order : List Nat) (key : Str) (m : Merchant)

def step (c : LruCache) : Call → LruCache
  | .get now key => (c.get now.time key).2
  | .put now order key m => c.put now.time order key m

/-- A new cache, after some calls. -/
def after (cap : Nat) (ttl : Int64) (calls : List Call) : LruCache :=
  calls.foldl step (new cap ttl)

/-- The call puts the key. -/
def Call.Touches (key : Str) : Call → Prop
  | .get _ _ => False
  | .put _ _ k _ => k = key

/-- The last call to put the key has put `m`, at the time `t`. -/
def PutLast (calls : List Call) (key : Str) (m : Merchant) (t : Time) : Prop :=
  ∃ before now order after, calls = before ++ .put now order key m :: after ∧ now.time = t ∧
    ∀ x ∈ after, ¬ x.Touches key

/-! ### Eviction -/

/-- Once an entry is found, the zero time is out of the game. -/
theorem foldl_oldest {entries : List (Σ _ : Str, CacheEntry)}
    (h : ∀ e ∈ entries, e.2.expiresAt ≠ 0) {best : Str × Time} (hbest : best.2 ≠ 0) :
    entries.foldl (fun best e =>
        if best.2 = 0 ∨ e.2.expiresAt < best.2 then (e.1, e.2.expiresAt) else best) best =
      entries.foldl (fun best e =>
        if e.2.expiresAt < best.2 then (e.1, e.2.expiresAt) else best) best := by
  induction entries generalizing best with
  | nil => rfl
  | cons e entries ih =>
    have hrest : ∀ e ∈ entries, e.2.expiresAt ≠ 0 := fun e' he' => h e' (List.mem_cons_of_mem _ he')
    simp only [List.foldl_cons, or_iff_right hbest]
    split
    · exact ih hrest (h e List.mem_cons_self)
    · exact ih hrest hbest

/-- **The victim** has the smallest expiry, if none is the zero time. -/
theorem evictee_spec {entries : List (Σ _ : Str, CacheEntry)}
    (h : ∀ e ∈ entries, e.2.expiresAt ≠ 0) (hne : entries ≠ []) :
    ∃ e ∈ entries, evictee entries = e.1 ∧ ∀ e' ∈ entries, e.2.expiresAt ≤ e'.2.expiresAt := by
  cases entries with
  | nil => exact absurd rfl hne
  | cons x entries =>
    obtain ⟨e, he, hfold⟩ :=
      foldl_least (fun e : Σ _ : Str, CacheEntry => e.1) (fun e => e.2.expiresAt) x entries
    have hscan : evictee (x :: entries) = e.1 := by
      unfold evictee
      rw [List.foldl_cons, if_pos (.inl rfl), foldl_oldest
        (fun e' he' => h e' (List.mem_cons_of_mem _ he')) (h x List.mem_cons_self), hfold]
    exact ⟨e, List.argmin_mem he, hscan, fun e' he' =>
      List.le_of_mem_argmin (f := fun e : Σ _ : Str, CacheEntry => e.2.expiresAt) he' he⟩

-- an entry that expires at the zero time counts as none
example (m : Merchant) :
    evictee [⟨bytes "a", m, 0⟩, ⟨bytes "b", m, 5⟩] = bytes "b" := rfl

/-- No expiry that a call writes is the zero time. -/
theorem expiry_pos (now : Now) (ttl : Int64) : 0 < now.time + ttl.toInt := by
  have hepoch : unixEpoch = 62135596800000000000 := by decide
  have hnow : (62135596800000000000 : Int) ≤ now.time := hepoch ▸ now.since
  have httl := ttl.le_toInt
  show (0 : Int) < now.time + ttl.toInt
  omega

/-! ### Runs -/

/-- What a call writes. -/
def Call.write (ttl : Int64) : Call → Option (Write Str CacheEntry)
  | .get _ _ => none
  | .put now _ key m => some (.put key ⟨m, now.time + ttl.toInt⟩)

/-- The states of a cache that was made with these parameters. -/
structure Within (cap : Nat) (ttl : Int64) (c : LruCache) : Prop where
  cap_eq : c.cap = cap
  ttl_eq : c.ttl = ttl
  length_le : c.data.entries.length ≤ cap
  expiry_ne : ∀ k e, c.data.lookup k = some e → e.expiresAt ≠ 0

/-- What a `put` into a full cache drops. -/
theorem Within.evicts {cap : Nat} {ttl : Int64} {c : LruCache} (h : Within cap ttl c)
    (hpos : 1 ≤ cap) (hfull : cap ≤ c.data.entries.length) (order : List Nat) :
    ∃ e, c.data.lookup (evictee (shuffle order c.data.entries)) = some e ∧
      ∀ k' e', c.data.lookup k' = some e' → e.expiresAt ≤ e'.expiresAt := by
  have hperm := shuffle_perm order c.data.entries
  have hne : shuffle order c.data.entries ≠ [] := by
    intro hnil
    have := hperm.length_eq
    rw [hnil, List.length_nil] at this
    omega
  have hentry : ∀ e, e ∈ shuffle order c.data.entries ↔ c.data.lookup e.1 = some e.2 := fun e =>
    hperm.mem_iff.trans AList.mem_lookup_iff.symm
  obtain ⟨e, he, hevict, hle⟩ :=
    evictee_spec (fun e he => h.expiry_ne e.1 e.2 ((hentry e).mp he)) hne
  refine ⟨e.2, ?_, fun k' e' he' => hle ⟨k', e'⟩ ((hentry ⟨k', e'⟩).mpr he')⟩
  rw [hevict]
  exact (hentry e).mp he

theorem get_cases (now : Time) (key : Str) (c : LruCache) :
    (c.get now key).2 = c ∨ (c.get now key).2 = { c with data := c.data.erase key } := by
  unfold get
  split
  · exact .inl rfl
  · split
    · exact .inr rfl
    · exact .inl rfl

/-- What is left to put the new entry into. -/
theorem put_eq (now : Time) (order : List Nat) (key : Str) (m : Merchant) (c : LruCache) :
    ∃ d, c.put now order key m = { c with data := d.insert key ⟨m, now + c.ttl.toInt⟩ } ∧
      (c.cap ≤ c.data.entries.length ∧ d = c.data.erase (evictee (shuffle order c.data.entries)) ∨
        c.data.entries.length < c.cap ∧ d = c.data) := by
  unfold put
  by_cases hfull : c.data.entries.length ≥ c.cap
  · exact ⟨_, rfl, .inl ⟨hfull, if_pos hfull⟩⟩
  · exact ⟨_, rfl, .inr ⟨not_le.mp hfull, if_neg hfull⟩⟩

theorem follows_step (c : LruCache) (x : Call) :
    Follows c.data (x.write c.ttl) (c.step x).data := by
  cases x with
  | get now key =>
    show Forgets c.data (c.get now.time key).2.data
    rcases c.get_cases now.time key with h | h
    · rw [h]
      exact Forgets.refl _
    · rw [h]
      exact forgets_erase _ _
  | put now order key m =>
    obtain ⟨d, hput, ⟨-, rfl⟩ | ⟨-, rfl⟩⟩ := c.put_eq now.time order key m
    · exact ⟨_, forgets_erase _ _, congrArg data hput⟩
    · exact ⟨_, Forgets.refl _, congrArg data hput⟩

theorem Within.length_step {cap : Nat} {ttl : Int64} {c : LruCache} (h : Within cap ttl c)
    (hpos : 1 ≤ cap) (x : Call) : (c.step x).data.entries.length ≤ cap := by
  cases x with
  | get now key =>
    show (c.get now.time key).2.data.entries.length ≤ cap
    rcases c.get_cases now.time key with hget | hget
    · rw [hget]
      exact h.length_le
    · rw [hget]
      exact (length_erase_le _ key).trans h.length_le
  | put now order key m =>
    obtain ⟨d, hput, hd⟩ := c.put_eq now.time order key m
    have hroom : d.entries.length < cap := by
      rw [h.cap_eq] at hd
      rcases hd with ⟨hfull, rfl⟩ | ⟨hroom, rfl⟩
      · obtain ⟨e, he, -⟩ := h.evicts hpos hfull order
        have hless : (c.data.erase (evictee (shuffle order c.data.entries))).entries.length + 1 =
            c.data.entries.length := length_erase_of_mem (AList.mem_lookup_iff.mp he)
        have hle := h.length_le
        omega
      · exact hroom
    show (c.put now.time order key m).data.entries.length ≤ cap
    rw [hput]
    exact (length_insert_le d key _).trans hroom

theorem Within.step {cap : Nat} {ttl : Int64} (hpos : 1 ≤ cap) (c : LruCache) (x : Call)
    (h : Within cap ttl c) : Within cap ttl (c.step x) := by
  have hparams : (c.step x).cap = c.cap ∧ (c.step x).ttl = c.ttl := by
    cases x with
    | get now key =>
      show (c.get now.time key).2.cap = c.cap ∧ (c.get now.time key).2.ttl = c.ttl
      rcases c.get_cases now.time key with hget | hget
      · rw [hget]
        exact ⟨rfl, rfl⟩
      · rw [hget]
        exact ⟨rfl, rfl⟩
    | put now order key m => exact ⟨rfl, rfl⟩
  refine ⟨hparams.1.trans h.cap_eq, hparams.2.trans h.ttl_eq, h.length_step hpos x, ?_⟩
  refine (c.follows_step x).forall (P := fun e => e.expiresAt ≠ 0) h.expiry_ne fun k e hx => ?_
  cases x with
  | get now key => cases hx
  | put now order key m =>
    cases hx
    exact (expiry_pos now c.ttl).ne'

/-- Every run keeps to the bound, and shows what was put last. -/
theorem after_shows {cap : Nat} (hpos : 1 ≤ cap) (ttl : Int64) (calls : List Call) :
    Within cap ttl (after cap ttl calls) ∧
      Shows (Call.write ttl) calls (after cap ttl calls).data := by
  have hnew : Within cap ttl (new cap ttl) := by
    refine ⟨rfl, rfl, Nat.zero_le _, fun k e he => ?_⟩
    cases he
  exact shows_run data (Within.step hpos) (fun c x h => h.ttl_eq ▸ c.follows_step x) hnew
    rfl calls

theorem not_touches_of_spares {ttl : Int64} {key : Str} {x : Call}
    (h : Spares (Call.write ttl) key x) : ¬ x.Touches key := by
  cases x with
  | get now k => exact id
  | put now order k m => exact h (.put k ⟨m, now.time + ttl.toInt⟩) rfl

theorem putLast_of_lastPut {ttl : Int64} {calls : List Call} {key : Str} {e : CacheEntry}
    (h : LastPut (Call.write ttl) calls key e) :
    ∃ t, e.expiresAt = t + ttl.toInt ∧ PutLast calls key e.value t := by
  obtain ⟨before, x, after, rfl, hx, hafter⟩ := h
  cases x with
  | get now k => cases hx
  | put now order k m =>
    cases hx
    exact ⟨now.time, rfl, before, now, order, after, rfl, rfl, fun y hy =>
      not_touches_of_spares (hafter y hy)⟩

theorem get_put {c : LruCache} {now later : Time} (h : later ≤ now + c.ttl.toInt)
    (order : List Nat) (key : Str) (m : Merchant) :
    ((c.put now order key m).get later key).1 = some m := by
  obtain ⟨d, hput, -⟩ := c.put_eq now order key m
  rw [hput]
  unfold get
  simp only [AList.lookup_insert]
  rw [if_neg (not_lt.mpr h)]

theorem get_some {c : LruCache} {now : Time} {key : Str} {m : Merchant}
    (h : (c.get now key).1 = some m) :
    ∃ e, c.data.lookup key = some e ∧ e.value = m ∧ now ≤ e.expiresAt := by
  unfold get at h
  split at h
  · cases h
  · next e he =>
    split at h
    · cases h
    · next hlive => exact ⟨e, he, Option.some.inj h, not_lt.mp hlive⟩

end LruCache

/-! ## Both caches -/

/-- What a caller gets from the URL cache after `calls`. -/
structure URLCache.Serves (maxSize : Nat) (ttl : Time) (calls : List URLCache.Call) : Prop where
  bounded : (URLCache.after maxSize ttl calls).data.entries.length ≤ maxSize
  /-- A hit is what was put last, at most `ttl` ago. -/
  hit : ∀ now key url, (URLCache.after maxSize ttl calls).get now key = some url →
    ∃ t, URLCache.PutLast calls key url t ∧ now - t ≤ ttl
  /-- What is put is there at once, and until `ttl` has passed. -/
  get_put : ∀ now later pick key url, later ≤ now + ttl →
    ((URLCache.after maxSize ttl calls).put now pick key url).get later key = some url

/-- What a caller gets from the merchant cache after `calls`. -/
structure LruCache.Serves (cap : Nat) (ttl : Int64) (calls : List LruCache.Call) : Prop where
  bounded : (LruCache.after cap ttl calls).data.entries.length ≤ cap
  /-- A hit is what was put last, at most `ttl` ago. -/
  hit : ∀ now key m, ((LruCache.after cap ttl calls).get now key).1 = some m →
    ∃ t, LruCache.PutLast calls key m t ∧ now - t ≤ ttl.toInt
  /-- What is put is there at once, and until `ttl` has passed. -/
  get_put : ∀ now later order key m, later ≤ now + ttl.toInt →
    (((LruCache.after cap ttl calls).put now order key m).get later key).1 = some m
  /-- A full cache drops one entry for the new one, and none expires before it. -/
  evicts : ∀ now order key m, cap ≤ (LruCache.after cap ttl calls).data.entries.length →
    ∃ k e, (LruCache.after cap ttl calls).data.lookup k = some e ∧
      (∀ k' e', (LruCache.after cap ttl calls).data.lookup k' = some e' →
        e.expiresAt ≤ e'.expiresAt) ∧
      ((LruCache.after cap ttl calls).put now order key m).data =
        ((LruCache.after cap ttl calls).data.erase k).insert key ⟨m, now + ttl.toInt⟩

theorem URLCache.serves {maxSize : Nat} (hpos : 1 ≤ maxSize) (ttl : Time)
    (calls : List URLCache.Call) : URLCache.Serves maxSize ttl calls := by
  obtain ⟨hwithin, hshows⟩ := URLCache.after_shows hpos ttl calls
  refine ⟨hwithin.length_le, fun now key url hget => ?_, fun now later pick key url hlater => ?_⟩
  · obtain ⟨e, he, rfl, hlive⟩ := URLCache.get_some hget
    obtain ⟨t, hexpiry, hput⟩ := URLCache.putLast_of_lastPut (hshows key e he)
    rw [hexpiry] at hlive
    exact ⟨t, hput, Int.sub_left_le_of_le_add hlive⟩
  · exact URLCache.get_put (hwithin.ttl_eq.symm ▸ hlater) pick key url

theorem LruCache.serves {cap : Nat} (hpos : 1 ≤ cap) (ttl : Int64) (calls : List LruCache.Call) :
    LruCache.Serves cap ttl calls := by
  obtain ⟨hwithin, hshows⟩ := LruCache.after_shows hpos ttl calls
  refine ⟨hwithin.length_le, fun now key m hget => ?_, fun now later order key m hlater => ?_,
    fun now order key m hfull => ?_⟩
  · obtain ⟨e, he, rfl, hlive⟩ := LruCache.get_some hget
    obtain ⟨t, hexpiry, hput⟩ := LruCache.putLast_of_lastPut (hshows key e he)
    rw [hexpiry] at hlive
    exact ⟨t, hput, Int.sub_left_le_of_le_add hlive⟩
  · exact LruCache.get_put (hwithin.ttl_eq.symm ▸ hlater) order key m
  · obtain ⟨e, he, hleast⟩ := hwithin.evicts hpos hfull order
    refine ⟨_, e, he, hleast, ?_⟩
    obtain ⟨d, hput, ⟨-, rfl⟩ | ⟨hroom, -⟩⟩ :=
      (LruCache.after cap ttl calls).put_eq now order key m
    · rw [hput, hwithin.ttl_eq]
    · rw [hwithin.cap_eq] at hroom
      exact absurd hfull (not_le.mpr hroom)

/-- **Caches serve what was put.**  After every sequence of calls, at any times and with the maps
ranged over in any order, both caches keep to their bound and serve nothing but what was put last;
the merchant cache drops an entry with the smallest expiry. -/
theorem caches_serve :
    (∀ (maxSize : Nat) (ttl : Time) (calls : List URLCache.Call), 1 ≤ maxSize →
      URLCache.Serves maxSize ttl calls) ∧
    ∀ (cap : Nat) (ttl : Int64) (calls : List LruCache.Call), 1 ≤ cap →
      LruCache.Serves cap ttl calls :=
  ⟨fun _ ttl calls hpos => URLCache.serves hpos ttl calls,
    fun _ ttl calls hpos => LruCache.serves hpos ttl calls⟩

end EasyPay
