import EasyPay.Lib.Lease
import EasyPay.Gateway

/-!
# Distributed lock

`internal/cache/lock.go`: `Acquire` sets the key of the lock to a fresh token unless the key is
there, and `Release` deletes it if it still holds that token.  Each of the two is one step of
Redis.  The TTL of a key may elapse between any two of them, and the answer to a call may be lost.

* `LockEvent.apply_eq`: what the code does to the keys are the steps of a lease.
* `lock_exclusive`: between an `Acquire` that succeeds and its own release or expiry no other
  succeeds, and no release but its own removes the key.
* `exec_leases`, `execAll_leases`: the calls on the timed keys of the gateway are such steps too,
  with the expiries put in as the clock goes on.
-/

namespace EasyPay

open GoStrings

/-- What Redis holds under its keys. -/
abbrev Keys := Str → Option Str

/-- What becomes of a call to Redis: it fails, and has taken effect or not. -/
structure Sent where
  fault : Option Fault := none
  reached : Bool := false

/-- The call takes effect. -/
def Sent.arrives (c : Sent) : Bool := c.fault.isNone || c.reached

namespace Locker

def setNX (key value : Str) (s : Keys) : Bool × Keys :=
  match s key with
  | some _ => (false, s)
  | none => (true, Function.update s key (some value))

def lockKey (key : Str) : Str := bytes "lock:" ++ key

/-- `Acquire`, with the token it draws. -/
def acquire (c : Sent) (key token : Str) (s : Keys) : Res Lock × Keys :=
  let r := setNX (lockKey key) token s
  match c.fault with
  | some f =>
    (.error (.wrap (bytes "acquire lock: ") (.new f.msg)), if c.reached then r.2 else s)
  | none => (if r.1 then .ok ⟨lockKey key, token⟩ else .error (.of .lockNotAcquired), r.2)

def releaseScript (key token : Str) (s : Keys) : Int × Keys :=
  if s key = some token then (1, Function.update s key none) else (0, s)

/-- `Release`, also of a lock that is nil. -/
def release (c : Sent) (lock : Option Lock) (s : Keys) : Res Unit × Keys :=
  match lock with
  | none => (.ok (), s)
  | some lk =>
    let r := releaseScript lk.key lk.token s
    match c.fault with
    | some f =>
      (.error (.wrap (bytes "release lock: ") (.new f.msg)), if c.reached then r.2 else s)
    | none => (.ok (), r.2)

theorem setNX_snd (key value : Str) (s : Keys) :
    (setNX key value s).2 = Leases.step s (.acquire key value) := by
  rw [Leases.step_acquire]
  unfold setNX
  cases h : s key with
  | none => rfl
  | some v => rfl

theorem releaseScript_snd (key token : Str) (s : Keys) :
    (releaseScript key token s).2 = Leases.step s (.release key token) := by
  rw [Leases.step_release]
  unfold releaseScript
  split
  · rfl
  · rfl

/-- `Acquire` succeeds on a key that is free, and its answer arrives. -/
theorem acquire_ok {c : Sent} {key token : Str} {s : Keys} {lock : Lock}
    (h : (acquire c key token s).1 = .ok lock) :
    c.fault = none ∧ lock = ⟨lockKey key, token⟩ ∧ s (lockKey key) = none := by
  unfold acquire setNX at h
  cases hc : c.fault with
  | some f =>
    rw [hc] at h
    cases h
  | none =>
    rw [hc] at h
    cases hs : s (lockKey key) with
    | none =>
      rw [hs] at h
      cases h
      exact ⟨rfl, rfl, rfl⟩
    | some v =>
      rw [hs] at h
      cases h

theorem acquire_snd (c : Sent) (key token : Str) (s : Keys) :
    (acquire c key token s).2 =
      if c.arrives then Leases.step s (.acquire (lockKey key) token) else s := by
  unfold acquire Sent.arrives
  simp only
  rw [setNX_snd]
  cases c.fault with
  | none => rfl
  | some f => rfl

theorem release_snd (c : Sent) (lk : Lock) (s : Keys) :
    (release c (some lk) s).2 =
      if c.arrives then Leases.step s (.release lk.key lk.token) else s := by
  unfold release Sent.arrives
  simp only
  rw [releaseScript_snd]
  cases c.fault with
  | none => rfl
  | some f => rfl

/-- A release changes no key but its own, and that only if the key holds its token. -/
theorem of_release_ne {c : Sent} {lk : Lock} {s : Keys} {k : Str}
    (h : (release c (some lk) s).2 k ≠ s k) :
    k = lk.key ∧ s k = some lk.token ∧ (release c (some lk) s).2 k = none := by
  rw [release_snd] at h ⊢
  by_cases harrives : c.arrives = true
  · rw [if_pos harrives] at h ⊢
    obtain ⟨rfl, hheld⟩ := Leases.of_release_ne h
    refine ⟨rfl, hheld, ?_⟩
    rw [Leases.step_release, if_pos hheld, Function.update_self]
  · rw [if_neg harrives] at h
    exact absurd rfl h

end Locker

/-! ## Interleavings -/

inductive LockEvent
  | acquire (key token : Str) (c : Sent)
  | release (lock : Option Lock) (c : Sent)
  | expire (key : Str)

namespace LockEvent

def apply (s : Keys) : LockEvent → Keys
  | acquire key token c => (Locker.acquire c key token s).2
  | release lock c => (Locker.release c lock s).2
  | expire key => Function.update s key none

/-- The keys after any clients' calls and any expiries, in this order. -/
def run (s : Keys) (es : List LockEvent) : Keys := es.foldl apply s

/-- What an event is to the leases; a call that does not arrive is nothing. -/
def leases : LockEvent → List (Leases.Event Str Str)
  | acquire key token c => if c.arrives then [.acquire (Locker.lockKey key) token] else []
  | release none _ => []
  | release (some lk) c => if c.arrives then [.release lk.key lk.token] else []
  | expire key => [.expire key]

theorem apply_eq (s : Keys) (e : LockEvent) : apply s e = Leases.run s e.leases := by
  cases e with
  | acquire key token c =>
    show (Locker.acquire c key token s).2 =
      Leases.run s (if c.arrives then [.acquire (Locker.lockKey key) token] else [])
    rw [Locker.acquire_snd, Leases.run_ite]
  | release lock c =>
    cases lock with
    | none => rfl
    | some lk =>
      show (Locker.release c (some lk) s).2 =
        Leases.run s (if c.arrives then [.release lk.key lk.token] else [])
      rw [Locker.release_snd, Leases.run_ite]
  | expire key => rfl

theorem run_eq (s : Keys) (es : List LockEvent) : run s es = Leases.run s (es.flatMap leases) := by
  induction es generalizing s with
  | nil => rfl
  | cons e es ih =>
    rw [List.flatMap_cons, Leases.run_append, ← apply_eq]
    exact ih (apply s e)

/-- The lock's own release, or the expiry of its key. -/
def Ends (lock : Lock) : LockEvent → Prop
  | acquire _ _ _ => False
  | release lk _ => lk = some lock
  | expire key => key = lock.key

/-- The token an `Acquire` draws. -/
def token? : LockEvent → Option Str
  | acquire _ token _ => some token
  | _ => none

theorem not_ends_leases {lock : Lock} {e : LockEvent} (h : ¬ e.Ends lock) :
    ∀ x ∈ e.leases, ¬ Leases.Ends lock.key lock.token x := by
  intro x hx hends
  cases e with
  | acquire key token c =>
    rw [List.mem_singleton.mp (List.mem_ite_nil_right.mp hx).2] at hends
    rcases hends with hends | hends
    · cases hends
    · cases hends
  | release lk c =>
    cases lk with
    | none => cases hx
    | some lk =>
      rw [List.mem_singleton.mp (List.mem_ite_nil_right.mp hx).2] at hends
      rcases hends with hends | hends
      · injection hends with hkey htoken
        refine h (congrArg some ?_)
        show Lock.mk lk.key lk.token = ⟨lock.key, lock.token⟩
        rw [hkey, htoken]
      · cases hends
  | expire key =>
    rw [List.mem_singleton.mp hx] at hends
    rcases hends with hends | hends
    · cases hends
    · cases hends
      exact h rfl

/-- **A lock is held** from the `Acquire` that succeeds until its own release or its expiry. -/
theorem run_of_acquired {s : Keys} {es es' : List LockEvent} {key token : Str} {c : Sent} {lock : Lock}
    (h : (Locker.acquire c key token (run s es)).1 = .ok lock) (hes : ∀ e ∈ es', ¬ e.Ends lock) :
    run s (es ++ acquire key token c :: es') (Locker.lockKey key) = some token := by
  obtain ⟨hc, rfl, hfree⟩ := Locker.acquire_ok h
  have harrives : c.arrives = true := by
    unfold Sent.arrives
    rw [hc]
    rfl
  have hheld : apply (run s es) (acquire key token c) (Locker.lockKey key) = some token := by
    show (Locker.acquire c key token (run s es)).2 _ = _
    rw [Locker.acquire_snd, if_pos harrives]
    exact Leases.step_acquire_free hfree token
  have hrun : run s (es ++ acquire key token c :: es') =
      run (apply (run s es) (acquire key token c)) es' := List.foldl_append
  rw [hrun, run_eq]
  refine Leases.run_of_held hheld fun x hx => ?_
  obtain ⟨e, he, hxe⟩ := List.mem_flatMap.mp hx
  exact not_ends_leases (hes e he) x hxe

end LockEvent

open LockEvent in
/-- **The lock is exclusive, and only its owner releases it.**  `es` and `es'` are any events before
and after an `Acquire` that succeeds; up to its own release or its expiry no other `Acquire` for the
key succeeds, and the key is not removed by the release of another lock.  A release changes no key
but its own, and that only if the key holds its token. -/
theorem lock_exclusive (s : Keys) (es es' : List LockEvent) (key token : Str) (c : Sent) :
    (∀ lock, (Locker.acquire c key token (run s es)).1 = .ok lock → (∀ e ∈ es', ¬ e.Ends lock) →
      (∀ c' token' lock',
        (Locker.acquire c' key token' (run s (es ++ .acquire key token c :: es'))).1 ≠ .ok lock') ∧
      (((es ++ .acquire key token c :: es').filterMap token?).Nodup →
        ∀ key₁ token₁ c₁ c₂, LockEvent.acquire key₁ token₁ c₁ ∈ es ++ es' →
          (Locker.release c₂ (some ⟨Locker.lockKey key₁, token₁⟩)
            (run s (es ++ .acquire key token c :: es'))).2 (Locker.lockKey key) = some token)) ∧
    ∀ (s' : Keys) (c' : Sent) (lk : Lock) (k : Str), (Locker.release c' (some lk) s').2 k ≠ s' k →
      k = lk.key ∧ s' k = some lk.token ∧ (Locker.release c' (some lk) s').2 k = none := by
  refine ⟨fun lock hlock hes => ?_, fun s' c' lk k => Locker.of_release_ne⟩
  have hheld := run_of_acquired hlock hes
  constructor
  · intro c' token' lock' hother
    obtain ⟨-, -, hfree⟩ := Locker.acquire_ok hother
    cases hheld.symm.trans hfree
  · intro hdistinct key₁ token₁ c₁ c₂ hmem
    by_contra hne
    rw [← hheld] at hne
    obtain ⟨-, htoken, -⟩ := Locker.of_release_ne hne
    -- the key holds a token that was drawn once
    have hsame : token = token₁ := Option.some.inj (hheld.symm.trans htoken)
    have hdrawn : (LockEvent.acquire key token c).token? = some token := rfl
    rw [List.filterMap_append, List.filterMap_cons_some hdrawn, List.nodup_middle,
      ← List.filterMap_append] at hdistinct
    exact (List.nodup_cons.mp hdistinct).1 (List.mem_filterMap.mpr ⟨_, hmem, congrArg some hsame.symm⟩)

/-! The first client's lock expires and is taken over; its release comes late. -/

example :
    let s := LockEvent.run (fun _ => none) [.acquire (bytes "o-1") (bytes "a") {},
      .expire (bytes "lock:o-1"), .acquire (bytes "o-1") (bytes "b") {},
      .release (some ⟨bytes "lock:o-1", bytes "a"⟩) {}]
    s (bytes "lock:o-1") = some (bytes "b") ∧
      (Locker.acquire {} (bytes "o-1") (bytes "c") s).1 = .error (.of .lockNotAcquired) := by
  decide

/-! ## The clock

The keys of the gateway have a time to live; what is left of them at a time are the keys above. -/

namespace Redis

/-- The keys whose TTL has not elapsed. -/
def view (now : Time) (r : Redis) : Keys := fun key => get now key r

theorem view_setNX (now : Time) (key value : Str) {ttl : Time} (httl : 0 < ttl) (r : Redis) :
    (setNX now key value ttl r).1 = (Locker.setNX key value (view now r)).1 ∧
      view now (setNX now key value ttl r).2 = (Locker.setNX key value (view now r)).2 := by
  unfold Locker.setNX
  rcases setNX_eq now key value ttl r with ⟨heq, hsome⟩ | ⟨heq, hnone⟩
  · obtain ⟨v, hv⟩ := Option.isSome_iff_exists.mp hsome
    have hview : view now r key = some v := hv
    rw [heq, hview]
    exact ⟨rfl, rfl⟩
  · have hview : view now r key = none := hnone
    rw [heq, hview]
    refine ⟨rfl, funext fun k => ?_⟩
    show get now k (AList.insert key ⟨value, now + ttl⟩ r) =
      Function.update (view now r) key (some value) k
    by_cases hk : k = key
    · subst hk
      rw [Function.update_self, get_of_lookup (AList.lookup_insert r) (Int.lt_add_of_pos_right now httl)]
    · rw [Function.update_of_ne hk]
      unfold view get
      rw [AList.lookup_insert_ne hk]

theorem view_release (now : Time) (key token : Str) (r : Redis) :
    view now (release now key token r) = (Locker.releaseScript key token (view now r)).2 := by
  unfold release Locker.releaseScript
  by_cases h : get now key r = some token
  · rw [if_pos h, if_pos (show view now r key = some token from h)]
    funext k
    show get now k (AList.erase key r) = Function.update (view now r) key none k
    by_cases hk : k = key
    · subst hk
      rw [Function.update_self]
      unfold get
      rw [AList.lookup_erase]
    · rw [Function.update_of_ne hk]
      unfold view get
      rw [AList.lookup_erase_ne hk]
  · rw [if_neg h, if_neg (show ¬ view now r key = some token from h)]

/-- A key that is there later is there now. -/
theorem get_of_later {now now' : Time} (hle : now ≤ now') {key value : Str} {r : Redis}
    (h : get now' key r = some value) : get now key r = some value := by
  unfold get at h
  split at h
  · next e he =>
    split at h
    · next hlive =>
      rw [get_of_lookup he (Int.lt_of_le_of_lt hle hlive)]
      exact h
    · cases h
  · cases h

theorem get_eq_none {now : Time} {key : Str} {r : Redis} (h : key ∉ r) : get now key r = none := by
  unfold get
  rw [AList.lookup_eq_none.mpr h]

/-- As the clock goes on, keys expire. -/
theorem view_later {now now' : Time} (hle : now ≤ now') (r : Redis) :
    ∃ keys : List Str, view now' r = Leases.run (view now r) (keys.map .expire) := by
  refine ⟨r.keys.filter fun k => (get now' k r).isNone, funext fun k => ?_⟩
  show get now' k r = _
  cases h : get now' k r with
  | some v =>
    rw [Leases.run_expire_of_notMem fun hmem => by simp [h] at hmem]
    exact (get_of_later hle h).symm
  | none =>
    by_cases hmem : k ∈ r
    · have hgone : k ∈ r.keys.filter fun k => (get now' k r).isNone :=
        List.mem_filter.mpr ⟨AList.mem_keys.mp hmem, by rw [h]; rfl⟩
      rw [Leases.run_expire_of_mem hgone]
    · rw [Leases.run_expire_of_notMem fun hkeys =>
        hmem (AList.mem_keys.mpr (List.mem_filter.mp hkeys).1)]
      exact (get_eq_none hmem).symm

end Redis

/-- What a call of the gateway is to the leases. -/
def Op.leases (c : Choice) (w : World) : Op → List (Leases.Event Str Str)
  | .setNX key value _ => if c.fault.isNone then [.acquire key value] else []
  | .acquire key _ =>
    if c.fault.isNone then [.acquire (Locker.lockKey key) (formatNat w.tokens)] else []
  | .release lock => if c.fault.isNone then [.release lock.key lock.token] else []
  | _ => []

/-- The TTL of a key that is set. -/
def Op.ttl? : Op → Option Time
  | .setNX _ _ ttl | .acquire _ ttl => some ttl
  | _ => none

theorem exec_redis_other {D : Deployment} {o : Op} {c : Choice} {w : World}
    (hset : ∀ key value ttl, o ≠ .setNX key value ttl) (hacq : ∀ key ttl, o ≠ .acquire key ttl)
    (hrel : ∀ lock, o ≠ .release lock) : (exec D o c w).2.redis = w.redis := by
  have heff := exec_effect D o c w
  generalize (exec D o c w).2 = w' at heff ⊢
  cases heff with
  | setNX key value ttl => exact absurd rfl (hset key value ttl)
  | acquire key ttl => exact absurd rfl (hacq key ttl)
  | release lock => exact absurd rfl (hrel lock)
  | _ => rfl

/-- **A call of the gateway** does to the keys what its leases do. -/
theorem exec_leases (D : Deployment) (o : Op) (c : Choice) (w : World)
    (httl : ∀ ttl ∈ o.ttl?, 0 < ttl) :
    (exec D o c w).2.redis.view c.now = Leases.run (w.redis.view c.now) (o.leases c w) := by
  cases o with
  | setNX key value ttl =>
    simp only [exec, Op.leases]
    rw [Leases.run_ite]
    cases c.fault with
    | some f => rfl
    | none =>
      rw [← Locker.setNX_snd]
      exact (Redis.view_setNX c.now key value (httl ttl rfl) w.redis).2
  | acquire key ttl =>
    simp only [exec, Op.leases]
    rw [Leases.run_ite]
    cases c.fault with
    | some f => rfl
    | none =>
      rw [← Locker.setNX_snd]
      exact (Redis.view_setNX c.now (Locker.lockKey key) (formatNat w.tokens) (httl ttl rfl) w.redis).2
  | release lock =>
    simp only [exec, Op.leases]
    rw [Leases.run_ite]
    cases c.fault with
    | some f => rfl
    | none =>
      rw [← Locker.releaseScript_snd]
      exact Redis.view_release c.now lock.key lock.token w.redis
  | _ => exact congrArg (Redis.view c.now) (exec_redis_other (by simp) (by simp) (by simp))

/-- Its answer to an `Acquire` is that of the lock on these keys. -/
theorem exec_acquire_fst (D : Deployment) (key : Str) {ttl : Time} (httl : 0 < ttl) (c : Choice)
    (w : World) :
    (exec D (.acquire key ttl) c w).1 =
      (Locker.acquire ⟨c.fault, false⟩ key (formatNat w.tokens) (w.redis.view c.now)).1 := by
  unfold Locker.acquire
  simp only [exec]
  cases c.fault with
  | some f => rfl
  | none =>
    simp only [← (Redis.view_setNX c.now (Locker.lockKey key) (formatNat w.tokens) httl w.redis).1]
    rfl

/-- Calls made one after the other. -/
def execAll (D : Deployment) (w : World) (xs : List (Op × Choice)) : World :=
  xs.foldl (fun w x => (exec D x.1 x.2 w).2) w

/-- What they are to the leases. -/
def leasesAll (D : Deployment) (w : World) : List (Op × Choice) → List (Leases.Event Str Str)
  | [] => []
  | x :: xs => x.1.leases x.2 w ++ leasesAll D (exec D x.1 x.2 w).2 xs

theorem not_isExpire_leases {c : Choice} {w : World} {o : Op} :
    ∀ e ∈ o.leases c w, e.isExpire = false := by
  intro e he
  cases o with
  | setNX key value ttl =>
    rw [List.mem_singleton.mp (List.mem_ite_nil_right.mp he).2]
    rfl
  | acquire key ttl =>
    rw [List.mem_singleton.mp (List.mem_ite_nil_right.mp he).2]
    rfl
  | release lock =>
    rw [List.mem_singleton.mp (List.mem_ite_nil_right.mp he).2]
    rfl
  | _ => cases he

/-- **The calls of a run** do to the keys what these leases do, with expiries between them. -/
theorem execAll_leases (D : Deployment) {xs : List (Op × Choice)}
    (httl : ∀ x ∈ xs, ∀ ttl ∈ x.1.ttl?, 0 < ttl) (w : World) {now now' : Time}
    (hclock : (now :: (xs.map fun x => x.2.now) ++ [now']).Pairwise (· ≤ ·)) :
    ∃ es, (execAll D w xs).redis.view now' = Leases.run (w.redis.view now) es ∧
      es.filter (fun e => !e.isExpire) = leasesAll D w xs := by
  have hexpire : ∀ keys : List Str, (keys.map Leases.Event.expire).filter
      (fun e : Leases.Event Str Str => !e.isExpire) = [] := by
    intro keys
    refine List.filter_eq_nil_iff.mpr fun e he => ?_
    obtain ⟨k, -, rfl⟩ := List.mem_map.mp he
    simp [Leases.Event.isExpire]
  induction xs generalizing w now with
  | nil =>
    obtain ⟨keys, hkeys⟩ := w.redis.view_later (List.rel_of_pairwise_cons hclock List.mem_cons_self)
    exact ⟨_, hkeys, hexpire keys⟩
  | cons x xs ih =>
    obtain ⟨hle, hrest⟩ := List.pairwise_cons.mp hclock
    obtain ⟨keys, hkeys⟩ := w.redis.view_later (hle x.2.now List.mem_cons_self)
    obtain ⟨es, hes, hcalls⟩ :=
      ih (fun y hy => httl y (List.mem_cons_of_mem _ hy)) (exec D x.1 x.2 w).2 hrest
    refine ⟨keys.map .expire ++ (x.1.leases x.2 w ++ es), ?_, ?_⟩
    · rw [Leases.run_append, Leases.run_append, ← hkeys,
        ← exec_leases D x.1 x.2 w (httl x List.mem_cons_self)]
      exact hes
    · have hall : (x.1.leases x.2 w).filter (fun e => !e.isExpire) = x.1.leases x.2 w :=
        List.filter_eq_self.mpr fun e he => by rw [not_isExpire_leases e he]; rfl
      rw [List.filter_append, List.filter_append, hexpire, hall, hcalls]
      rfl

end EasyPay
