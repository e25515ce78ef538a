import EasyPay.Checkout.Stages
import EasyPay.Orders.Facts

/-!
# The lock of a lazy checkout

Any number of `Resolve` calls for one order, on any number of pods.

* `MutexInv`: while the TTL of the lock does not elapse under its holder, one `Resolve` at a time
  has it.
* `CreationInv`: so a session is made once, and it is stored before the lock is released.
* `ShownInv`: and every URL is one of that session.
* `one_creation`: Stripe makes at most one session for the order, all URLs are of that session, and
  a `Resolve` that fails has changed nothing and holds no lock.
-/

namespace EasyPay

open GoStrings Tables Ports CheckoutResolver

/-- The stage of job `i`. -/
def System.lockStage (S : System) (i : Nat) : LockStage := stageOf (callsOf i S.hist)

section
variable {D : Deployment} {S : System} {i : Nat} {c : Choice} {op : Op} {k : op.Ans → Svc Outcome}

theorem System.lockStage_after_self :
    (S.after D i c op k).lockStage i = (S.lockStage i).next (op.gave (exec D op c S.world).1) := by
  unfold lockStage
  rw [callsOf_after_self, stageOf_snoc]

theorem System.lockStage_after_ne {i' : Nat} (hi : i ≠ i') :
    (S.after D i c op k).lockStage i' = S.lockStage i' := by
  unfold lockStage
  rw [callsOf_after_ne hi]

/-- A call that takes or releases no lock leaves every job the lock it has. -/
theorem System.lockStage_after_other (hacq : ∀ key ttl, op ≠ .acquire key ttl)
    (hrel : ∀ lock, op ≠ .release lock) (i' : Nat) :
    ((S.after D i c op k).lockStage i').took = (S.lockStage i').took ∧
      ((S.after D i c op k).lockStage i').lock? = (S.lockStage i').lock? := by
  by_cases hi : i = i'
  · subst hi
    rw [lockStage_after_self]
    exact LockStage.next_of_other hacq hrel _ _
  · rw [lockStage_after_ne hi]
    exact ⟨rfl, rfl⟩

end

/-! ## Undisturbed runs -/

/-- The calls of the repositories and of Redis; the token bucket lets a call through when its own
Redis call fails. -/
def Op.ofStore : Op → Bool
  | .getByMerchantID _ | .getByMerchantOrderID _ _ _ | .updateCheckout _ _ _ _ _ => true
  | .acquire _ _ | .release _ => true
  | _ => false

/-- With its next call job `i` finds a repository or Redis failing, or the call comes after the TTL
of a lock whose holder has not returned yet. -/
def Disturbed (S : System) (i : Nat) (c : Choice) : Prop :=
  (∃ op k, S.procs[i]? = some (.call op k) ∧ op.ofStore = true ∧ c.fault ≠ none) ∨
    ∃ e ∈ S.hist, ∃ key ttl lock, e.step = (Op.acquire key ttl).gave (.ok lock) ∧
      (∃ op k, S.procs[e.pid]? = some (.call op k)) ∧ e.choice.now + ttl ≤ c.now

/-- A `Resolve` that has the lock has not returned. -/
theorem holder_inside {D : Deployment} {w : World} {js : List Job} {m o : Str}
    (hjs : ∀ j ∈ js, ∃ r, j = .resolve r m o) {ys : List (Nat × Choice)} {i : Nat} {lock : Lock}
    (h : ((System.run D w js ys).lockStage i).lock? = some lock) :
    ∃ op k, (System.run D w js ys).procs[i]? = some (.call op k) := by
  cases hj : js[i]? with
  | none =>
    -- nobody has made a call under this number
    have hnone : callsOf i (System.run D w js ys).hist = [] := by
      refine List.eq_nil_iff_forall_not_mem.mpr fun x hx => ?_
      obtain ⟨j, t, k', hj', -⟩ := System.callsOf_runs D w js hx
      rw [hj] at hj'
      cases hj'
    unfold System.lockStage at h
    rw [hnone] at h
    cases h
  | some j =>
    obtain ⟨r, rfl⟩ := hjs j (List.mem_of_getElem? hj)
    obtain ⟨q, hq, hruns⟩ := System.run_runs D w js hj ys
    cases q with
    | call op k => exact ⟨op, k, hq⟩
    | ret out =>
      obtain ⟨res, hruns, -⟩ := Prog.runs_map_ret hruns
      rw [System.lockStage, (resolve_returned hruns).unlocked] at h
      cases h

/-! ## Mutual exclusion -/

section
variable (m o : Str)

/-- The lock of the order in Redis. -/
structure MutexInv (S : System) : Prop where
  /-- Every lock is under the order's key, with a token of its own. -/
  token : ∀ i lock, (S.lockStage i).took = some lock →
    lock.key = lockKey m o ∧ ∃ n < S.world.tokens, lock.token = formatNat n
  /-- The token of a holder is in Redis... -/
  held : ∀ i lock, (S.lockStage i).lock? = some lock → ∃ e ∈ S.hist, e.pid = i ∧
    e.step = (Op.acquire (lockName m o) lockTTL).gave (.ok lock) ∧
    AList.lookup (lockKey m o) S.world.redis = some ⟨lock.token, e.choice.now + lockTTL⟩
  alone : ∀ i i' lock lock', (S.lockStage i).lock? = some lock →
    (S.lockStage i').lock? = some lock' → i = i'
  /-- ... and gone once the lock is released. -/
  gone : ∀ i lock, (S.lockStage i).took = some lock → (S.lockStage i).lock? = none →
    ∀ e, AList.lookup (lockKey m o) S.world.redis = some e → e.value ≠ lock.token

end

section
variable {D : Deployment} {m o : Str} {S : System} {i : Nat} {c : Choice} {op : Op}

/-- The locks and the key are as before, and no token is given out twice. -/
theorem MutexInv.of_same (h : MutexInv m o S) {S' : System}
    (hstage : ∀ i, (S'.lockStage i).took = (S.lockStage i).took ∧
      (S'.lockStage i).lock? = (S.lockStage i).lock?)
    (hredis : S'.world.redis = S.world.redis) (htokens : S.world.tokens ≤ S'.world.tokens)
    (hhist : ∀ e ∈ S.hist, e ∈ S'.hist) : MutexInv m o S' := by
  constructor
  · intro i lock htook
    rw [(hstage i).1] at htook
    obtain ⟨hkey, n, hn, htoken⟩ := h.token i lock htook
    exact ⟨hkey, n, hn.trans_le htokens, htoken⟩
  · intro i lock hlock
    rw [(hstage i).2] at hlock
    obtain ⟨e, he, hpid, hstep, hentry⟩ := h.held i lock hlock
    refine ⟨e, hhist e he, hpid, hstep, ?_⟩
    rw [hredis, hentry]
  · intro i i' lock lock' hlock hlock'
    rw [(hstage _).2] at hlock hlock'
    exact h.alone i i' lock lock' hlock hlock'
  · intro i lock htook hfree e he
    rw [(hstage i).1] at htook
    rw [(hstage i).2] at hfree
    rw [hredis] at he
    exact h.gone i lock htook hfree e he

/-- A call that is neither `Acquire` nor `Release`. -/
theorem MutexInv.after_other (h : MutexInv m o S) (hacq : ∀ key ttl, op ≠ .acquire key ttl)
    (hrel : ∀ lock, op ≠ .release lock) (hset : ∀ key value ttl, op ≠ .setNX key value ttl)
    (k : op.Ans → Svc Outcome) : MutexInv m o (S.after D i c op k) := by
  have hworld : (exec D op c S.world).2.redis = S.world.redis ∧
      (exec D op c S.world).2.tokens = S.world.tokens := by
    have heff := exec_effect D op c S.world
    generalize (exec D op c S.world).2 = w' at heff ⊢
    cases heff with
    | setNX key value ttl => exact absurd rfl (hset key value ttl)
    | acquire key ttl => exact absurd rfl (hacq key ttl)
    | release lock => exact absurd rfl (hrel lock)
    | _ => exact ⟨rfl, rfl⟩
  exact h.of_same (System.lockStage_after_other hacq hrel) hworld.1 hworld.2.ge
    fun e he => System.mem_hist_after.mpr (.inl he)

/-- Job `i` is given the lock with a fresh token, and nobody else has it. -/
theorem MutexInv.of_granted (h : MutexInv m o S) {S' : System}
    (hnobody : ∀ i lock, (S.lockStage i).lock? ≠ some lock)
    (hself : S'.lockStage i = .holding ⟨lockKey m o, formatNat S.world.tokens⟩)
    (hother : ∀ i', i ≠ i' → S'.lockStage i' = S.lockStage i')
    (htokens : S'.world.tokens = S.world.tokens + 1)
    (hheld : ∃ e ∈ S'.hist, e.pid = i ∧ e.step = (Op.acquire (lockName m o) lockTTL).gave
        (.ok ⟨lockKey m o, formatNat S.world.tokens⟩) ∧
      AList.lookup (lockKey m o) S'.world.redis =
        some ⟨formatNat S.world.tokens, e.choice.now + lockTTL⟩) : MutexInv m o S' := by
  have honly : ∀ i' lock, (S'.lockStage i').lock? = some lock → i = i' := by
    intro i' lock hlock
    by_contra hi
    rw [hother i' hi] at hlock
    exact hnobody i' lock hlock
  constructor
  · intro i' lock htook
    rw [htokens]
    by_cases hi : i = i'
    · subst hi
      rw [hself] at htook
      cases htook
      exact ⟨rfl, S.world.tokens, Nat.lt_succ_self _, rfl⟩
    · rw [hother i' hi] at htook
      obtain ⟨hkey, n, hn, htoken⟩ := h.token i' lock htook
      exact ⟨hkey, n, Nat.lt_succ_of_lt hn, htoken⟩
  · intro i' lock hlock
    obtain rfl := honly i' lock hlock
    rw [hself] at hlock
    cases hlock
    exact hheld
  · intro i₁ i₂ lock lock' h₁ h₂
    exact (honly i₁ lock h₁).symm.trans (honly i₂ lock' h₂)
  · intro i' lock htook hfree e hentry
    by_cases hi : i = i'
    · subst hi
      rw [hself] at hfree
      cases hfree
    · -- the new token is a fresh one
      rw [hother i' hi] at htook
      obtain ⟨-, n, hn, htoken⟩ := h.token i' lock htook
      obtain ⟨e', -, -, -, hlookup⟩ := hheld
      cases hlookup.symm.trans hentry
      rw [htoken]
      intro heq
      have := formatNat_injective heq
      omega

/-- An `Acquire`, while the locks of all holders last. -/
theorem MutexInv.after_acquire (h : MutexInv m o S) (hfault : c.fault = none)
    (hlive : ∀ i lock, (S.lockStage i).lock? = some lock →
      S.world.redis.get c.now (lockKey m o) = some lock.token)
    (k : (Op.acquire (lockName m o) lockTTL).Ans → Svc Outcome) :
    MutexInv m o (S.after D i c (.acquire (lockName m o) lockTTL) k) := by
  have hself : (S.after D i c (.acquire (lockName m o) lockTTL) k).lockStage i = _ :=
    System.lockStage_after_self
  have hother : ∀ i', i ≠ i' →
      (S.after D i c (.acquire (lockName m o) lockTTL) k).lockStage i' = S.lockStage i' :=
    fun i' hi => System.lockStage_after_ne hi
  have hworld : (S.after D i c (.acquire (lockName m o) lockTTL) k).world =
    (exec D (.acquire (lockName m o) lockTTL) c S.world).2 := rfl
  rcases exec_acquire_cases D (lockName m o) lockTTL hfault S.world with ⟨-, he⟩ | ⟨hget, he⟩
  · -- taken: nothing has changed but the number of tokens
    have hsame : ∀ i', (S.after D i c (.acquire (lockName m o) lockTTL) k).lockStage i' =
        S.lockStage i' := by
      intro i'
      by_cases hi : i = i'
      · subst hi
        rw [hself, he]
        rfl
      · exact hother i' hi
    rw [he] at hworld
    refine h.of_same (fun i' => by rw [hsame]; exact ⟨rfl, rfl⟩) ?_ ?_
      fun e he => System.mem_hist_after.mpr (.inl he)
    · rw [hworld]
    · rw [hworld]
      exact Nat.le_succ _
  · -- free: nobody has it, or it would be in Redis
    have hnobody : ∀ i' lock, (S.lockStage i').lock? ≠ some lock := by
      intro i' lock hlock
      have hlock := hlive i' lock hlock
      rw [lockKey, hget] at hlock
      cases hlock
    rw [he] at hself hworld
    refine h.of_granted hnobody hself hother (by rw [hworld]) ?_
    refine ⟨⟨i, c, .acquire (lockName m o) lockTTL, .ok ⟨lockKey m o, formatNat S.world.tokens⟩⟩,
      System.mem_hist_after.mpr (.inr ?_), rfl, rfl, ?_⟩
    · rw [he]
      rfl
    · rw [hworld]
      exact AList.lookup_insert _

/-- A `Release` by the holder, in time. -/
theorem MutexInv.after_release {lock : Lock} (h : MutexInv m o S)
    (hlock : (S.lockStage i).lock? = some lock) (hfault : c.fault = none)
    (hlive : S.world.redis.get c.now (lockKey m o) = some lock.token)
    (k : (Op.release lock).Ans → Svc Outcome) :
    MutexInv m o (S.after D i c (.release lock) k) := by
  have hself : (S.after D i c (.release lock) k).lockStage i = .released lock :=
    System.lockStage_after_self
  have hother : ∀ i', i ≠ i' → (S.after D i c (.release lock) k).lockStage i' = S.lockStage i' :=
    fun i' hi => System.lockStage_after_ne hi
  have htook := LockStage.took_of_lock? hlock
  have hkey := (h.token i lock htook).1
  have hworld : (S.after D i c (.release lock) k).world =
      { S.world with redis := AList.erase (lockKey m o) S.world.redis } := by
    show (exec D (.release lock) c S.world).2 = _
    simp only [exec, hfault, Redis.release, hkey, hlive, if_true]
  have hfree : ∀ i' lock', ((S.after D i c (.release lock) k).lockStage i').lock? ≠ some lock' := by
    intro i' lock' hlock'
    by_cases hi : i = i'
    · subst hi
      rw [hself] at hlock'
      cases hlock'
    · rw [hother i' hi] at hlock'
      exact hi (h.alone i i' lock lock' hlock hlock')
  constructor
  · intro i' lock' htook'
    rw [hworld]
    by_cases hi : i = i'
    · subst hi
      rw [hself] at htook'
      cases htook'
      exact h.token i lock htook
    · rw [hother i' hi] at htook'
      exact h.token i' lock' htook'
  · intro i' lock' hlock'
    exact absurd hlock' (hfree i' lock')
  · intro i₁ i₂ lock₁ lock₂ h₁ h₂
    exact absurd h₁ (hfree i₁ lock₁)
  · intro i' lock' htook' hfree' e hentry
    rw [hworld] at hentry
    cases (AList.lookup_erase _ _).symm.trans hentry

end

/-! ## One session -/

/-- The session a call was answered with. -/
def createdStep : Prog.Step gateway → Option CheckoutSession
  | ⟨.createCheckoutSession _ _, .ok session⟩ => some session
  | _ => none

/-- The sessions `CreateCheckoutSession` has answered with. -/
def createdSessions (hist : List CallEvent) : List CheckoutSession :=
  (hist.map Event.step).filterMap createdStep

theorem createdStep_of_other {op : Op} (h : ∀ req key, op ≠ .createCheckoutSession req key)
    (a : op.Ans) : createdStep (op.gave a) = none := by
  cases op with
  | createCheckoutSession req key => exact absurd rfl (h req key)
  | _ => rfl

theorem mem_createdSessions {S : System} {i : Nat} {req : CreateCheckoutRequest} {key : Str}
    {session : CheckoutSession}
    (h : (Op.createCheckoutSession req key).gave (.ok session) ∈ callsOf i S.hist) :
    session ∈ createdSessions S.hist := by
  obtain ⟨e, he, -, hstep⟩ := mem_callsOf.mp h
  exact List.mem_filterMap.mpr ⟨_, List.mem_map.mpr ⟨e, he, hstep⟩, rfl⟩

section
variable {D : Deployment} {S : System} {i : Nat} {c : Choice} {op : Op} {k : op.Ans → Svc Outcome}

theorem createdSessions_after : createdSessions (S.after D i c op k).hist =
    createdSessions S.hist ++ (createdStep (op.gave (exec D op c S.world).1)).toList := by
  show ((S.hist ++ [_]).map Event.step).filterMap createdStep = _
  rw [List.map_append, List.filterMap_append]
  rfl

theorem createdSessions_after_other (h : createdStep (op.gave (exec D op c S.world).1) = none) :
    createdSessions (S.after D i c op k).hist = createdSessions S.hist := by
  rw [createdSessions_after, h]
  exact List.append_nil _

end

/-- Reading the order that is there, with nothing failing. -/
theorem exec_read {D : Deployment} {m o : Str} {x : UInt8} {q : Nat} {c : Choice} {w : World}
    (hshard : D.router.forIndex x = .ok q) (hvalid : ValidOrderID o)
    (hrow : ∃ r ∈ w.pools q, D.ofOrder m o r = true) (hfault : c.fault = none) :
    ∃ r ∈ w.pools q, D.ofOrder m o r = true ∧ ∃ order,
      (exec D (.getByMerchantOrderID x m o) c w).1 = .ok order ∧
      order.stripeSessionID = stringOf r.stripeSession := by
  obtain ⟨r₀, hr₀, hof₀⟩ := hrow
  obtain ⟨order, horder⟩ := D.exists_getByMerchantOrderID hshard hvalid hr₀ hof₀ (c.pick 0)
  obtain ⟨p, r, order', hp, -, hr, hof, hscan, rfl⟩ := D.getByMerchantOrderID_ok horder
  cases hshard.symm.trans hp
  refine ⟨r, hr, hof, TransactionRepo.withShard x order', ?_,
    (TransactionRepo.scanTransaction_ok hscan).2.2.2.2.2.2.2.1⟩
  rw [← horder]
  simp only [exec, hfault]

/-- Storing a session, with nothing failing. -/
theorem exec_store {D : Deployment} {m o session pi : Str} {x : UInt8} {q : Nat} {c : Choice}
    {w : World} (hshard : D.router.forIndex x = .ok q) (hvalid : ValidOrderID o)
    (hrow : ∃ r ∈ w.pools q, D.ofOrder m o r = true) (hfault : c.fault = none)
    (hsession : session ≠ []) {r : Row}
    (hr : r ∈ (exec D (.updateCheckout x m o session pi) c w).2.pools q)
    (hof : D.ofOrder m o r = true) : stringOf r.stripeSession = session := by
  obtain ⟨r₀, hr₀, hof₀⟩ := hrow
  simp only [exec, TransactionRepo.updateCheckout, hfault,
    D.updateOrder_of_row hshard hvalid hr₀ hof₀, Function.update_self] at hr
  obtain ⟨r', hr', rfl⟩ := mem_updateWhere.mp hr
  split at hof
  · next hof' =>
    simp only [if_pos hof', TransactionRepo.setCheckout, coalesce, if_neg hsession]
    rfl
  · next hof' => exact absurd hof hof'

section
variable (D : Deployment) (m o : Str) (q : Nat)

/-- What is assumed of the order, in pool `q`, at the start of a run: it is there, and has no
session. -/
structure LazyOrder (w : World) : Prop where
  valid : ValidOrderID o
  merchant : ∃ M, getMerchant D.collation none m w.merchants = .ok M ∧
    D.router.forIndex M.shardIndex = .ok q
  stored : ∃ r ∈ w.pools q, D.ofOrder m o r = true
  noSession : ∀ r ∈ w.pools q, D.ofOrder m o r = true → stringOf r.stripeSession = []
  notCached : ∀ pod, (w.urlCaches pod).data.lookup (cacheKey m o) = none
  /-- Stripe's sessions have an id. -/
  minted : ∀ n, (D.stripe.mint n).id ≠ []
  named : ∀ ss ∈ w.sessions, ss.session.id ≠ []

/-- What then holds of it in every state. -/
structure OrderThere (S : System) : Prop where
  valid : ValidOrderID o
  row : ∃ r ∈ S.world.pools q, D.ofOrder m o r = true
  /-- A merchant that was found is the merchant of the order. -/
  shard : ∀ i M, (Op.getByMerchantID m).gave (.ok M) ∈ callsOf i S.hist →
    D.router.forIndex M.shardIndex = .ok q
  minted : ∀ n, (D.stripe.mint n).id ≠ []
  named : ∀ ss ∈ S.world.sessions, ss.session.id ≠ []

/-- The session of the order: it is made by who has cleared the way for it, and is in the row by
the time the lock is released. -/
structure CreationInv (S : System) : Prop where
  fresh : ∀ i lock, S.lockStage i = .cleared lock → createdSessions S.hist = []
  making : ∀ i s, (S.lockStage i).made? = some s → createdSessions S.hist = [s]
  named : ∀ s ∈ createdSessions S.hist, s.id ≠ []
  rows : ∀ r ∈ S.world.pools q, D.ofOrder m o r = true → stringOf r.stripeSession = [] ∨
    ∃ s, createdSessions S.hist = [s] ∧ stringOf r.stripeSession = s.id
  stored : createdSessions S.hist = [] ∨ (∃ s, createdSessions S.hist = [s]) ∧
    ((∃ i s, (S.lockStage i).made? = some s) ∨
      ∀ r ∈ S.world.pools q, D.ofOrder m o r = true → stringOf r.stripeSession ≠ [])

end

section
variable {D : Deployment} {m o : Str} {q : Nat} {w : World} {js : List Job}

/-- Every session Stripe has made has an id. -/
theorem LazyOrder.session_named (h : LazyOrder D m o q w) (ys : List (Nat × Choice)) :
    ∀ ss ∈ (System.run D w js ys).world.sessions, ss.session.id ≠ [] := by
  refine System.invariant D w js
    (Q := fun S => ∀ ss ∈ S.world.sessions, ss.session.id ≠ []) h.named ?_ ys
  intro S i c op k j hS _ _ ss hss
  have hss : ss ∈ (exec D op c S.world).2.sessions := hss
  rcases exec_sessions_cases D op c S.world with ⟨hsame, -⟩ | ⟨req, key, -, -, hnew⟩
  · rw [hsame] at hss
    exact hS ss hss
  · rw [hnew] at hss
    rcases D.stripe.create_cases req key S.world.sessions with ⟨_, _, _, he⟩ | ⟨_, he⟩
    · rw [he] at hss
      exact hS ss hss
    · rw [he] at hss
      rcases List.mem_append.mp hss with hss | hss
      · exact hS ss hss
      · rw [List.mem_singleton.mp hss]
        exact h.minted _

theorem LazyOrder.there (h : LazyOrder D m o q w) (js : List Job) (ys : List (Nat × Choice)) :
    OrderThere D m o q (System.run D w js ys) := by
  refine ⟨h.valid, ?_, ?_, h.minted, h.session_named ys⟩
  · obtain ⟨r, hr, hof⟩ := h.stored
    obtain ⟨r', hr', hfacts⟩ := (rows_kept D w js [] ys).exists_of_mem hr
    exact ⟨r', hr', (D.ofOrder_of_facts hfacts).trans hof⟩
  · intro i M hM
    obtain ⟨M₀, hM₀, hq⟩ := h.merchant
    obtain ⟨c, he⟩ := exists_event hM
    obtain ⟨zs, -, -, -, -, hans⟩ := System.happened D w js he
    have hfound : getMerchant D.collation c.fault m w.merchants = .ok M := by
      have hans : Except.ok M =
        getMerchant D.collation c.fault m (System.run D w js zs).world.merchants := hans
      rw [hans, System.run_merchants]
    cases hfault : c.fault with
    | some f =>
      rw [hfault] at hfound
      cases hfound
    | none =>
      rw [hfault, hM₀] at hfound
      cases hfound
      exact hq

variable {S : System} {i : Nat} {c : Choice} {op : Op}

/-- So has every session a call is answered with. -/
theorem OrderThere.created_named (h : OrderThere D m o q S) {req : CreateCheckoutRequest} {key : Str}
    {s : CheckoutSession} (hs : (exec D (.createCheckoutSession req key) c S.world).1 = .ok s) :
    s.id ≠ [] := by
  obtain ⟨-, rfl⟩ := throughBreaker_ok hs
  rcases D.stripe.create_cases req key S.world.sessions with ⟨ss, hss, -, he⟩ | ⟨-, he⟩
  · rw [he]
    exact h.named ss hss
  · rw [he]
    exact h.minted _

/-- The session is the same as before, and so is who has it in hand. -/
theorem CreationInv.of_same (h : CreationInv D m o q S) {S' : System}
    (hcreated : createdSessions S'.hist = createdSessions S.hist)
    (hpools : S'.world.pools = S.world.pools)
    (hmade : ∀ i, (S'.lockStage i).made? = (S.lockStage i).made?)
    (hfresh : ∀ i lock, S'.lockStage i = .cleared lock → createdSessions S.hist = []) :
    CreationInv D m o q S' := by
  constructor
  · rw [hcreated]
    exact hfresh
  · intro i s hs
    rw [hcreated]
    rw [hmade] at hs
    exact h.making i s hs
  · rw [hcreated]
    exact h.named
  · rw [hcreated, hpools]
    exact h.rows
  · rw [hcreated, hpools]
    simp only [hmade]
    exact h.stored

/-- The holder that reads the order without a session is the first to do so. -/
theorem CreationInv.first (h : CreationInv D m o q S) (hmutex : MutexInv m o S) {lock : Lock}
    (hlock : S.lockStage i = .holding lock) {r : Row} (hr : r ∈ S.world.pools q)
    (hof : D.ofOrder m o r = true) (hempty : stringOf r.stripeSession = []) :
    createdSessions S.hist = [] := by
  rcases h.stored with hnone | ⟨-, ⟨i', s, hmade⟩ | hstored⟩
  · exact hnone
  · -- who has a session in hand has the lock
    obtain ⟨lock', hlock'⟩ := LockStage.lock?_of_made? hmade
    obtain rfl := hmutex.alone i' i lock' lock hlock' (by rw [hlock]; rfl)
    rw [hlock] at hmade
    cases hmade
  · exact absurd hempty (hstored r hr hof)

/-- A call that neither makes nor stores a session. -/
theorem CreationInv.after_other (h : CreationInv D m o q S) (hmutex : MutexInv m o S)
    (hthere : OrderThere D m o q S) (hcall : LockCall m o (callsOf i S.hist) op)
    (hcreate : ∀ req key, op ≠ .createCheckoutSession req key)
    (hstore : ∀ x m o session pi, op ≠ .updateCheckout x m o session pi)
    (hfault : op.ofStore = true → c.fault = none) (k : op.Ans → Svc Outcome) :
    CreationInv D m o q (S.after D i c op k) := by
  obtain ⟨hmade, hclear⟩ := hcall.next_of_other hcreate hstore (exec D op c S.world).1
  refine h.of_same (createdSessions_after_other (createdStep_of_other hcreate _)) ?_ ?_ ?_
  · refine exec_pools_same ?_ ?_ hstore c S.world
    · rintro t rfl
      cases hcall
    · rintro x m' oid st pi rfl
      cases hcall
  · intro i'
    by_cases hi : i = i'
    · subst hi
      rw [System.lockStage_after_self]
      exact hmade
    · rw [System.lockStage_after_ne hi]
  · intro i' lock hstage
    by_cases hi : i = i'
    · subst hi
      rw [System.lockStage_after_self] at hstage
      rcases hclear lock hstage with hbefore | ⟨hholding, x, again, hread, hempty⟩
      · exact h.fresh i lock hbefore
      · -- the read under the lock has found the row, and no session in it
        obtain rfl : op = .getByMerchantOrderID x m o := congrArg Sigma.fst hread
        cases hcall with
        | read M hM =>
          obtain ⟨r, hr, hof, order, hans, hsession⟩ :=
            exec_read (hthere.shard i M hM) hthere.valid hthere.row (hfault rfl)
          rw [← Op.gave_inj.mp hread, hans] at hempty
          exact h.first hmutex hholding hr hof (hsession.symm.trans hempty)
    · rw [System.lockStage_after_ne hi] at hstage
      exact h.fresh i' lock hstage

/-- A call for a session leaves the tables as they are. -/
theorem exec_create_pools (D : Deployment) (req : CreateCheckoutRequest) (key : Str) (c : Choice)
    (w : World) : (exec D (.createCheckoutSession req key) c w).2.pools = w.pools :=
  exec_pools_same (fun _ h => by cases h) (fun _ _ _ _ _ h => by cases h)
    (fun _ _ _ _ _ h => by cases h) c w

/-- Stripe answers with a session. -/
theorem CreationInv.after_created (h : CreationInv D m o q S) (hmutex : MutexInv m o S)
    (hthere : OrderThere D m o q S) {lock : Lock} (hstage : S.lockStage i = .cleared lock)
    {req : CreateCheckoutRequest} {key : Str} {session : CheckoutSession}
    (hans : (exec D (.createCheckoutSession req key) c S.world).1 = .ok session)
    (k : (Op.createCheckoutSession req key).Ans → Svc Outcome) :
    CreationInv D m o q (S.after D i c (.createCheckoutSession req key) k) := by
  have hnone := h.fresh i lock hstage
  have hlock : (S.lockStage i).lock? = some lock := by
    rw [hstage]
    rfl
  have hself : (S.after D i c (.createCheckoutSession req key) k).lockStage i =
      .created lock session := by
    rw [System.lockStage_after_self, hstage, hans]
    rfl
  have hone : createdSessions (S.after D i c (.createCheckoutSession req key) k).hist =
      [session] := by
    rw [createdSessions_after, hans, hnone]
    rfl
  -- nobody else is at a stage under the lock
  have hothers : ∀ i', i ≠ i' →
      ((S.after D i c (.createCheckoutSession req key) k).lockStage i').lock? = none := by
    intro i' hi
    rw [System.lockStage_after_ne hi]
    by_contra hsome
    obtain ⟨lock', hlock'⟩ := Option.ne_none_iff_exists'.mp hsome
    exact hi (hmutex.alone i i' lock lock' hlock hlock')
  constructor
  · intro i' lock' hclear
    by_cases hi : i = i'
    · subst hi
      rw [hself] at hclear
      cases hclear
    · have hfree := hothers i' hi
      rw [hclear] at hfree
      cases hfree
  · intro i' s hmade
    by_cases hi : i = i'
    · subst hi
      rw [hself] at hmade
      cases hmade
      exact hone
    · obtain ⟨lock', hlock'⟩ := LockStage.lock?_of_made? hmade
      rw [hothers i' hi] at hlock'
      cases hlock'
  · rw [hone]
    intro s hs
    rw [List.mem_singleton.mp hs]
    exact hthere.created_named hans
  · intro r hr hof
    have hr : r ∈ (exec D (.createCheckoutSession req key) c S.world).2.pools q := hr
    rw [exec_create_pools] at hr
    rcases h.rows r hr hof with hempty | ⟨s, hs, -⟩
    · exact .inl hempty
    · rw [hnone] at hs
      cases hs
  · refine .inr ⟨⟨session, hone⟩, .inl ⟨i, session, ?_⟩⟩
    rw [hself]
    rfl

/-- A call for a session. -/
theorem CreationInv.after_create (h : CreationInv D m o q S) (hmutex : MutexInv m o S)
    (hthere : OrderThere D m o q S) {lock : Lock} (hstage : S.lockStage i = .cleared lock)
    (req : CreateCheckoutRequest) (key : Str)
    (k : (Op.createCheckoutSession req key).Ans → Svc Outcome) :
    CreationInv D m o q (S.after D i c (.createCheckoutSession req key) k) := by
  cases hans : (exec D (.createCheckoutSession req key) c S.world).1 with
  | ok session => exact h.after_created hmutex hthere hstage hans k
  | error e =>
    have hsame : ∀ i', (S.after D i c (.createCheckoutSession req key) k).lockStage i' =
        S.lockStage i' := by
      intro i'
      by_cases hi : i = i'
      · subst hi
        rw [System.lockStage_after_self, hstage, hans]
        rfl
      · exact System.lockStage_after_ne hi
    refine h.of_same (createdSessions_after_other ?_) (exec_create_pools D req key c S.world)
      (fun i' => by rw [hsame]) fun i' lock' _ => h.fresh i lock hstage
    rw [hans]
    rfl

/-- The call that stores the session. -/
theorem CreationInv.after_store (h : CreationInv D m o q S) (hthere : OrderThere D m o q S)
    {M : Merchant} {lock : Lock} {session : CheckoutSession}
    (hM : (Op.getByMerchantID m).gave (.ok M) ∈ callsOf i S.hist)
    (hstage : S.lockStage i = .created lock session) (hfault : c.fault = none)
    (k : (Op.updateCheckout M.shardIndex m o session.id session.paymentIntentID).Ans → Svc Outcome) :
    CreationInv D m o q (S.after D i c
      (.updateCheckout M.shardIndex m o session.id session.paymentIntentID) k) := by
  have hone : createdSessions S.hist = [session] := by
    refine h.making i session ?_
    rw [hstage]
    rfl
  have hself : (S.after D i c (.updateCheckout M.shardIndex m o session.id
      session.paymentIntentID) k).lockStage i = .holding lock := by
    rw [System.lockStage_after_self, hstage]
    rfl
  have hother : ∀ i', i ≠ i' → (S.after D i c (.updateCheckout M.shardIndex m o session.id
      session.paymentIntentID) k).lockStage i' = S.lockStage i' :=
    fun i' hi => System.lockStage_after_ne hi
  have hcreated : createdSessions (S.after D i c (.updateCheckout M.shardIndex m o session.id
      session.paymentIntentID) k).hist = createdSessions S.hist :=
    createdSessions_after_other rfl
  have hid : session.id ≠ [] := h.named session (by rw [hone]; exact List.mem_singleton.mpr rfl)
  have hrows : ∀ r ∈ (S.after D i c (.updateCheckout M.shardIndex m o session.id
      session.paymentIntentID) k).world.pools q, D.ofOrder m o r = true →
      stringOf r.stripeSession = session.id := fun r hr hof =>
    exec_store (hthere.shard i M hM) hthere.valid hthere.row hfault hid hr hof
  constructor
  · intro i' lock' hclear
    rw [hcreated]
    by_cases hi : i = i'
    · subst hi
      rw [hself] at hclear
      cases hclear
    · rw [hother i' hi] at hclear
      exact h.fresh i' lock' hclear
  · intro i' s hmade
    rw [hcreated]
    by_cases hi : i = i'
    · subst hi
      rw [hself] at hmade
      cases hmade
    · rw [hother i' hi] at hmade
      exact h.making i' s hmade
  · rw [hcreated]
    exact h.named
  · intro r hr hof
    rw [hcreated]
    exact .inr ⟨session, hone, hrows r hr hof⟩
  · rw [hcreated]
    refine .inr ⟨⟨session, hone⟩, .inr fun r hr hof => ?_⟩
    rw [hrows r hr hof]
    exact hid

end

/-! ## The URLs -/

/-- The URL is one of the only session made. -/
def Shows (made : List CheckoutSession) (url : Str) : Prop :=
  ∃ s, made = [s] ∧ (url = s.url ∨ url = stripeCheckoutURL s.id)

section
variable (m o : Str)

/-- The URLs of the order, wherever they are. -/
structure ShownInv (S : System) : Prop where
  reads : ∀ i x order, readBy x m o order ∈ callsOf i S.hist → order.stripeSessionID ≠ [] →
    ∃ s, createdSessions S.hist = [s] ∧ order.stripeSessionID = s.id
  cached : ∀ pod e, (S.world.urlCaches pod).data.lookup (cacheKey m o) = some e →
    Shows (createdSessions S.hist) e.url
  hits : ∀ i pod url, (Op.cacheGet pod (cacheKey m o)).gave (some url) ∈ callsOf i S.hist →
    Shows (createdSessions S.hist) url
  puts : ∀ i pod url, (Op.cachePut pod (cacheKey m o) url).gave () ∈ callsOf i S.hist →
    Shows (createdSessions S.hist) url

end

section
variable {D : Deployment} {m o : Str} {q : Nat} {S : System} {i : Nat} {c : Choice} {op : Op}

/-- Once there is a session there is no other. -/
theorem CreationInv.kept (h : CreationInv D m o q S) (hcall : LockCall m o (callsOf i S.hist) op)
    {s : CheckoutSession} (hs : createdSessions S.hist = [s]) (k : op.Ans → Svc Outcome) :
    createdSessions (S.after D i c op k).hist = [s] := by
  by_cases hcreate : ∃ req key, op = .createCheckoutSession req key
  · obtain ⟨req, key, rfl⟩ := hcreate
    cases hcall with
    | create lock _ _ hstage =>
      rw [h.fresh i lock hstage] at hs
      cases hs
  · rw [createdSessions_after_other (createdStep_of_other (fun req key he => hcreate ⟨req, key, he⟩) _),
      hs]

/-- A session that was made is the only one. -/
theorem CreationInv.only (h : CreationInv D m o q S) {s : CheckoutSession}
    (hs : s ∈ createdSessions S.hist) : createdSessions S.hist = [s] := by
  rcases h.stored with hnone | ⟨⟨s', hone⟩, -⟩
  · rw [hnone] at hs
    cases hs
  · rw [hone] at hs
    rw [hone, List.mem_singleton.mp hs]

/-- A URL that `Resolve` did not take from the cache is one of the session. -/
theorem ShownInv.of_sourced {U : Unicode} {r : CheckoutResolver} {url : Str} (h : ShownInv m o S)
    (hcreation : CreationInv D m o q S) (hurl : r.Sourced U m o (callsOf i S.hist) url) :
    Shows (createdSessions S.hist) url := by
  cases hurl with
  | stored x order hread hsession =>
    obtain ⟨s, hs, hid⟩ := h.reads i x order hread hsession
    refine ⟨s, hs, .inr ?_⟩
    rw [hid]
  | made x order session _ hmade =>
    exact ⟨session, hcreation.only (mem_createdSessions hmade), .inl rfl⟩

theorem ShownInv.after {U : Unicode} {r : CheckoutResolver} (h : ShownInv m o S)
    (hcreation : CreationInv D m o q S) (hthere : OrderThere D m o q S)
    (hcall : LockCall m o (callsOf i S.hist) op) (hresolve : r.ResolveCall U m o (callsOf i S.hist) op)
    (k : op.Ans → Svc Outcome) : ShownInv m o (S.after D i c op k) := by
  have hmono : ∀ {url}, Shows (createdSessions S.hist) url →
      Shows (createdSessions (S.after D i c op k).hist) url := by
    rintro url ⟨s, hs, hurl⟩
    exact ⟨s, hcreation.kept hcall hs k, hurl⟩
  have hput : ∀ pod url, op = .cachePut pod (cacheKey m o) url →
      Shows (createdSessions S.hist) url := by
    rintro pod url rfl
    cases hresolve with
    | warm _ hurl => exact h.of_sourced hcreation hurl
  constructor
  · intro i' x order hread hsession
    rcases System.mem_callsOf_after.mp hread with hbefore | ⟨rfl, hnow⟩
    · obtain ⟨s, hs, hid⟩ := h.reads i' x order hbefore hsession
      exact ⟨s, hcreation.kept hcall hs k, hid⟩
    · -- the row read just now
      obtain rfl : op = .getByMerchantOrderID x m o := congrArg Sigma.fst hnow
      cases hcall with
      | read M hM =>
        obtain ⟨p, row, order', hp, -, hr, hof, hscan, rfl⟩ :=
          D.getByMerchantOrderID_ok (Op.gave_inj.mp hnow)
        cases (hthere.shard i M hM).symm.trans hp
        have hid : order'.stripeSessionID = stringOf row.stripeSession :=
          (TransactionRepo.scanTransaction_ok hscan).2.2.2.2.2.2.2.1
        rcases hcreation.rows row hr hof with hempty | ⟨s, hs, hstored⟩
        · exact absurd (hid.trans hempty) hsession
        · exact ⟨s, hcreation.kept (.read M hM) hs k, hid.trans hstored⟩
  · intro pod e he
    have he : ((exec D op c S.world).2.urlCaches pod).data.lookup (cacheKey m o) = some e := he
    rcases exec_urlCaches_cases D op c S.world with hsame | ⟨pod', key, url, rfl, hnew⟩
    · rw [hsame] at he
      exact hmono (h.cached pod e he)
    · rw [hnew] at he
      by_cases hpod : pod = pod'
      · subst hpod
        rw [Function.update_self] at he
        rcases URLCache.lookup_put he with ⟨rfl, hurl⟩ | hbefore
        · rw [hurl]
          exact hmono (hput pod url rfl)
        · exact hmono (h.cached pod e hbefore)
      · rw [Function.update_of_ne hpod] at he
        exact hmono (h.cached pod e he)
  · intro i' pod url hhit
    rcases System.mem_callsOf_after.mp hhit with hbefore | ⟨-, hnow⟩
    · exact hmono (h.hits i' pod url hbefore)
    · obtain rfl : op = .cacheGet pod (cacheKey m o) := congrArg Sigma.fst hnow
      obtain ⟨e, he, rfl, -⟩ := URLCache.get_some (Op.gave_inj.mp hnow)
      exact hmono (h.cached pod e he)
  · intro i' pod url hmem
    rcases System.mem_callsOf_after.mp hmem with hbefore | ⟨-, hnow⟩
    · exact hmono (h.puts i' pod url hbefore)
    · exact hmono (hput pod url (congrArg Sigma.fst hnow))

end

/-! ## Every interleaving -/

/-- What holds in every state of an undisturbed run. -/
structure LockingInv (D : Deployment) (m o : Str) (q : Nat) (S : System) : Prop where
  mutex : MutexInv m o S
  creation : CreationInv D m o q S
  shown : ShownInv m o S

section
variable {D : Deployment} {w : World} {js : List Job} {m o : Str} {q : Nat}

theorem LazyOrder.start (h : LazyOrder D m o q w) :
    LockingInv D m o q (Sys.start w (js.map (Job.prog D))) := by
  refine ⟨⟨?_, ?_, ?_, ?_⟩, ⟨?_, ?_, ?_, ?_, .inl rfl⟩, ⟨?_, ?_, ?_, ?_⟩⟩
  · rintro i lock ⟨⟩
  · rintro i lock ⟨⟩
  · rintro i i' lock lock' ⟨⟩
  · rintro i lock ⟨⟩
  · rintro i lock ⟨⟩
  · rintro i s ⟨⟩
  · rintro s ⟨⟩
  · intro r hr hof
    exact .inl (h.noSession r hr hof)
  · rintro i x order ⟨⟩
  · intro pod e he
    cases (h.notCached pod).symm.trans he
  · rintro i pod url ⟨⟩
  · rintro i pod url ⟨⟩

/-- While nothing disturbs the run, the token of a holder is valid. -/
theorem MutexInv.live (hjs : ∀ j ∈ js, ∃ r, j = .resolve r m o) {ys : List (Nat × Choice)} {i : Nat}
    {c : Choice} (h : MutexInv m o (System.run D w js ys))
    (hok : ¬ Disturbed (System.run D w js ys) i c) {i' : Nat} {lock : Lock}
    (hlock : ((System.run D w js ys).lockStage i').lock? = some lock) :
    (System.run D w js ys).world.redis.get c.now (lockKey m o) = some lock.token := by
  obtain ⟨e, he, rfl, hstep, hentry⟩ := h.held i' lock hlock
  refine Redis.get_of_lookup hentry ?_
  by_contra hlate
  exact hok (.inr ⟨e, he, _, _, lock, hstep, holder_inside hjs hlock, not_lt.mp hlate⟩)

theorem locking_invariant (hjs : ∀ j ∈ js, ∃ r, j = .resolve r m o) (horder : LazyOrder D m o q w)
    {xs : List (Nat × Choice)}
    (hok : ∀ ys i c zs, xs = ys ++ (i, c) :: zs → ¬ Disturbed (System.run D w js ys) i c) :
    LockingInv D m o q (System.run D w js xs) := by
  refine System.guarded_rule D w js Disturbed horder.start ?_ hok
  intro ys i c op k j hinv hok hj hproc hruns
  obtain ⟨r, rfl⟩ := hjs j (List.mem_of_getElem? hj)
  obtain ⟨k', hruns⟩ := Prog.runs_map_call hruns
  have hcall := resolve_stages hruns
  have hthere := horder.there js ys
  have hfault : op.ofStore = true → c.fault = none := by
    intro hop
    by_contra hfault
    exact hok (.inl ⟨op, k, hproc, hop, hfault⟩)
  refine ⟨?_, ?_, hinv.shown.after hinv.creation hthere hcall (r.resolve_next _ hruns) k⟩
  · cases hcall with
    | acquire _ =>
      exact hinv.mutex.after_acquire (hfault rfl) (fun i lock => hinv.mutex.live hjs hok) k
    | release lock hstage =>
      have hlock : ((System.run D w js ys).lockStage i).lock? = some lock := by
        rcases hstage with hstage | hstage
        · rw [System.lockStage, hstage]
          rfl
        · rw [System.lockStage, hstage]
          rfl
      exact hinv.mutex.after_release hlock (hfault rfl) (hinv.mutex.live hjs hok hlock) k
    | _ =>
      exact hinv.mutex.after_other (fun _ _ h => by cases h) (fun _ h => by cases h)
        (fun _ _ _ h => by cases h) k
  · by_cases hcreate : ∃ req key, op = .createCheckoutSession req key
    · obtain ⟨req, key, rfl⟩ := hcreate
      cases hcall with
      | create lock _ _ hstage =>
        exact hinv.creation.after_create hinv.mutex hthere hstage req key k
    · by_cases hstore : ∃ x m' o' session pi, op = .updateCheckout x m' o' session pi
      · obtain ⟨x, m', o', session, pi, rfl⟩ := hstore
        cases hcall with
        | store M lock session hM hstage =>
          exact hinv.creation.after_store hthere hM hstage (hfault rfl) k
      · exact hinv.creation.after_other hinv.mutex hthere hcall
          (fun req key he => hcreate ⟨req, key, he⟩)
          (fun x m' o' session pi he => hstore ⟨x, m', o', session, pi, he⟩) hfault k

/-- A `Resolve` that has returned holds no lock. -/
theorem MutexInv.no_lock {S : System} (h : MutexInv m o S) {U : Unicode} {r : CheckoutResolver}
    {i : Nat} {res : Res Str} (hruns : Prog.Runs (r.resolve U m o) (callsOf i S.hist) (.ret res))
    {key : Str} {ttl : Time} {lock : Lock}
    (hmem : (Op.acquire key ttl).gave (.ok lock) ∈ callsOf i S.hist) (now : Time) :
    S.world.redis.get now lock.key ≠ some lock.token := by
  have htook := took_of_acquired hruns hmem
  intro hget
  obtain ⟨e, he, hvalue⟩ := Redis.lookup_of_get hget
  rw [(h.token i lock htook).1] at he
  exact h.gone i lock htook (resolve_returned hruns).unlocked e he hvalue

/-- A `Resolve` that has failed has changed neither a row nor a cache. -/
theorem unchanged_of_failed {xs : List (Nat × Choice)} {i : Nat} {r : CheckoutResolver} {e : Err}
    (hj : js[i]? = some (.resolve r m o))
    (hruns : Prog.Runs (r.resolve D.unicode m o) (callsOf i (System.run D w js xs).hist)
      (.ret (.error e))) {ys zs : List (Nat × Choice)} {c : Choice} (hxs : xs = ys ++ (i, c) :: zs) :
    (System.run D w js (ys ++ [(i, c)])).world.pools = (System.run D w js ys).world.pools ∧
      (System.run D w js (ys ++ [(i, c)])).world.urlCaches =
        (System.run D w js ys).world.urlCaches := by
  have hsilent := (resolve_returned hruns).2 e rfl
  rcases System.step_call D w js ys i c with hsame | ⟨j, op, k, hj', -, hcall, hafter⟩
  · rw [hsame]
    exact ⟨rfl, rfl⟩
  · cases hj.symm.trans hj'
    -- the call is one of those it had made when it failed
    have hmem : op.gave (exec D op c (System.run D w js ys).world).1 ∈
        callsOf i (System.run D w js xs).hist := by
      have hnow : op.gave (exec D op c (System.run D w js ys).world).1 ∈
          callsOf i (System.run D w js (ys ++ [(i, c)])).hist := by
        rw [hafter]
        exact System.mem_callsOf_after.mpr (.inr ⟨rfl, rfl⟩)
      rw [hxs, List.append_cons]
      exact System.mem_callsOf_run D w js hnow
    have hop : op.writes = false := by
      have := List.all_eq_true.mp hsilent _ hmem
      simpa [Op.gave] using this
    cases hcall with
    | resolve hcall =>
      rw [hafter]
      show (exec D op c _).2.pools = _ ∧ (exec D op c _).2.urlCaches = _
      constructor
      · refine exec_pools_same ?_ ?_ ?_ c _
        · rintro t rfl
          cases hcall
        · rintro x m' oid st pi rfl
          cases hcall
        · rintro x m' oid session pi rfl
          cases hop
      · rcases exec_urlCaches_cases D op c (System.run D w js ys).world with
          he | ⟨pod, key, url, rfl, -⟩
        · exact he
        · cases hop

/-- **One creation.**  Any number of `Resolve` calls for an order without a session, in any
interleaving in which the repositories and Redis answer and no lock expires under its holder:
Stripe answers at most one of them with a session, every URL they return or cache is one of that
session, and those that fail change nothing and hold no lock. -/
theorem one_creation (hjs : ∀ j ∈ js, ∃ r, j = .resolve r m o) (horder : LazyOrder D m o q w)
    {xs : List (Nat × Choice)}
    (hok : ∀ ys i c zs, xs = ys ++ (i, c) :: zs → ¬ Disturbed (System.run D w js ys) i c) :
    (createdSessions (System.run D w js xs).hist).length ≤ 1 ∧
    (∀ (i : Nat) (url : Str),
      (System.run D w js xs).procs[i]? = some (.ret (.resolved (.ok url))) →
      Shows (createdSessions (System.run D w js xs).hist) url) ∧
    (∀ i pod key url, (Op.cachePut pod key url).gave () ∈ callsOf i (System.run D w js xs).hist →
      Shows (createdSessions (System.run D w js xs).hist) url) ∧
    (∀ pod e, ((System.run D w js xs).world.urlCaches pod).data.lookup (cacheKey m o) = some e →
      Shows (createdSessions (System.run D w js xs).hist) e.url) ∧
    (∀ (i : Nat) (e : Err),
      (System.run D w js xs).procs[i]? = some (.ret (.resolved (.error e))) →
      (∀ ys c zs, xs = ys ++ (i, c) :: zs →
        (System.run D w js (ys ++ [(i, c)])).world.pools = (System.run D w js ys).world.pools ∧
        (System.run D w js (ys ++ [(i, c)])).world.urlCaches =
          (System.run D w js ys).world.urlCaches) ∧
      ∀ key ttl lock, (Op.acquire key ttl).gave (.ok lock) ∈ callsOf i (System.run D w js xs).hist →
        ∀ now, (System.run D w js xs).world.redis.get now lock.key ≠ some lock.token) := by
  have hinv := locking_invariant hjs horder hok
  -- a job that has returned has returned what `Resolve` has
  have hreturned : ∀ (i : Nat) (res : Res Str),
      (System.run D w js xs).procs[i]? = some (.ret (.resolved res)) →
      ∃ r, js[i]? = some (.resolve r m o) ∧
        Prog.Runs (r.resolve D.unicode m o) (callsOf i (System.run D w js xs).hist) (.ret res) := by
    intro i res hret
    obtain ⟨j, hj⟩ := System.run_getElem? D w js hret
    obtain ⟨r, rfl⟩ := hjs j (List.mem_of_getElem? hj)
    obtain ⟨p, hp, hruns⟩ := System.run_runs D w js hj xs
    cases hret.symm.trans hp
    obtain ⟨res', hruns, hres⟩ := Prog.runs_map_ret hruns
    cases hres
    exact ⟨r, hj, hruns⟩
  refine ⟨?_, ?_, ?_, hinv.shown.cached, ?_⟩
  · rcases hinv.creation.stored with hnone | ⟨⟨s, hone⟩, -⟩
    · rw [hnone]
      exact Nat.zero_le 1
    · rw [hone]
      exact le_refl 1
  · intro i url hret
    obtain ⟨r, -, hruns⟩ := hreturned i _ hret
    rcases r.resolve_ok D.unicode hruns with hhit | hurl
    · exact hinv.shown.hits i r.pod url hhit
    · exact hinv.shown.of_sourced hinv.creation hurl
  · intro i pod key url hmem
    obtain ⟨j, t, k, hj, hruns, -⟩ := System.callsOf_runs D w js hmem
    obtain ⟨r, rfl⟩ := hjs j (List.mem_of_getElem? hj)
    obtain ⟨k', hruns⟩ := Prog.runs_map_call hruns
    cases resolve_stages hruns
    exact hinv.shown.puts i pod url hmem
  · intro i e hret
    obtain ⟨r, hj, hruns⟩ := hreturned i _ hret
    exact ⟨fun ys c zs hxs => unchanged_of_failed hj hruns hxs,
      fun key ttl lock hmem now => hinv.mutex.no_lock hruns hmem now⟩

/-- A run in which nothing goes wrong and no time passes is undisturbed. -/
theorem undisturbed_of_quiet (hjs : ∀ j ∈ js, ∃ r, j = .resolve r m o) {xs : List (Nat × Choice)}
    (hquiet : ∀ x ∈ xs, x.2 = {}) (ys : List (Nat × Choice)) (i : Nat) (c : Choice)
    (zs : List (Nat × Choice)) (hxs : xs = ys ++ (i, c) :: zs) :
    ¬ Disturbed (System.run D w js ys) i c := by
  have hc : c = {} := hquiet (i, c) (by rw [hxs]; simp)
  subst hc
  rintro (⟨op, k, -, -, hfault⟩ | ⟨⟨pid, c, op, a⟩, he, key, ttl, lock, hstep, -, hlate⟩)
  · exact hfault rfl
  · cases hstep
    have hsched := System.mem_schedule D w js he
    have hc : c = {} := hquiet (pid, c) (by rw [hxs]; exact List.mem_append_left _ hsched)
    subst hc
    obtain ⟨j, t, k, hj, hruns, -⟩ := System.job_runs D w js he
    obtain ⟨r, rfl⟩ := hjs j (List.mem_of_getElem? hj)
    obtain ⟨k', hruns⟩ := Prog.runs_map_call hruns
    cases resolve_stages hruns
    exact absurd (show (1 : Time) + lockTTL ≤ 1 from hlate) (by decide)

end

/-- The link of the order is opened on two pods. -/
def Job.twoLinks : List Job :=
  [.resolve (.onPod 0) (bytes "m1") (bytes "o-1"), .resolve (.onPod 1) (bytes "m1") (bytes "o-1")]

/-- The second comes while the first has the lock. -/
def contendedRun : System :=
  System.run (Deployment.sample .binary) World.oneOrder Job.twoLinks
    (steps 0 4 ++ steps 1 5 ++ steps 0 5)

theorem lazyOrder_oneOrder :
    LazyOrder (Deployment.sample .binary) (bytes "m1") (bytes "o-1") 0 World.oneOrder := by
  refine ⟨by decide, ⟨.named (bytes "m1"), by decide, by decide⟩, ⟨Row.sample, ?_, by decide⟩, ?_,
    fun _ => rfl, ?_, ?_⟩
  · exact List.mem_singleton.mpr rfl
  · intro r hr _
    rw [List.mem_singleton.mp hr]
    rfl
  · intro n h
    exact absurd (List.append_eq_nil_iff.mp h).1 (by decide)
  · rintro ss ⟨⟩

/-- The first gets the URL of the one session there is, the second is told to come again, and
holds no lock. -/
theorem one_creation_contended :
    ∃ url e, contendedRun.procs[0]? = some (.ret (.resolved (.ok url))) ∧
      contendedRun.procs[1]? = some (.ret (.resolved (.error e))) ∧
      (createdSessions contendedRun.hist).length ≤ 1 ∧ Shows (createdSessions contendedRun.hist) url ∧
      ∀ key ttl lock, (Op.acquire key ttl).gave (.ok lock) ∈ callsOf 1 contendedRun.hist →
        ∀ now, contendedRun.world.redis.get now lock.key ≠ some lock.token := by
  have hjs : ∀ j ∈ Job.twoLinks, ∃ r, j = .resolve r (bytes "m1") (bytes "o-1") := by
    intro j hj
    simp only [Job.twoLinks, List.mem_cons, List.not_mem_nil, or_false] at hj
    rcases hj with rfl | rfl
    · exact ⟨_, rfl⟩
    · exact ⟨_, rfl⟩
  have hquiet : ∀ x ∈ steps 0 4 ++ steps 1 5 ++ steps 0 5, x.2 = {} := by
    intro x hx
    simp only [steps, List.mem_append, List.mem_replicate] at hx
    rcases hx with (⟨-, rfl⟩ | ⟨-, rfl⟩) | ⟨-, rfl⟩ <;> rfl
  obtain ⟨hone, hshown, -, -, hfailed⟩ :=
    one_creation hjs lazyOrder_oneOrder (undisturbed_of_quiet hjs hquiet)
  have hresults : contendedRun.procs[0]?.bind Prog.result? =
        some (.resolved (.ok (checkoutBase ++ bytes "cs_0"))) ∧
      contendedRun.procs[1]?.bind Prog.result? =
        some (.resolved (.error (.of .orderNotReady))) := by decide +kernel
  have hfirst := Prog.getElem?_of_result? hresults.1
  have hsecond := Prog.getElem?_of_result? hresults.2
  exact ⟨_, _, hfirst, hsecond, hone, hshown 0 _ hfirst, (hfailed 1 _ hsecond).2⟩

end EasyPay
