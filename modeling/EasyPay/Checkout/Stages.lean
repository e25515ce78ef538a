import EasyPay.Service.CheckoutResolver

/-!
# The stages of a lazy checkout

`Resolve` looks for a session twice, before it takes the lock of the order and again under it, and
makes one only if there was none the second time.

* `LockStage`: where a `Resolve` is with its lock, as its calls tell.
* `resolve_stages`: which calls it makes at which stage.
* `resolve_returned`: it returns without the lock, and has written nothing if it fails.
-/

namespace EasyPay

open GoStrings Tables Ports

/-! ## The stages of a Resolve -/

/-- Where a `Resolve` is with its lock. -/
inductive LockStage
  | outside
  | holding (lock : Lock)
  /-- It has seen under the lock that the order has no session. -/
  | cleared (lock : Lock)
  /-- It has got a session, which is not stored yet. -/
  | created (lock : Lock) (session : CheckoutSession)
  | released (lock : Lock)

namespace LockStage

/-- The session a read under the lock has found. -/
def reread (found : Str) : LockStage → LockStage
  | holding lock => if found = [] then cleared lock else holding lock
  | stage => stage

def create (session : CheckoutSession) : LockStage → LockStage
  | cleared lock => created lock session
  | stage => stage

def store : LockStage → LockStage
  | created lock _ => holding lock
  | stage => stage

/-- The stage after a call. -/
def next (stage : LockStage) : Prog.Step gateway → LockStage
  | ⟨.acquire _ _, .ok lock⟩ => holding lock
  | ⟨.release lock, _⟩ => released lock
  | ⟨.getByMerchantOrderID _ _ _, again⟩ => stage.reread (CheckoutResolver.storedSession again)
  | ⟨.createCheckoutSession _ _, .ok session⟩ => stage.create session
  | ⟨.updateCheckout _ _ _ _ _, _⟩ => stage.store
  | _ => stage

/-- The lock it has, or has had. -/
def took : LockStage → Option Lock
  | outside => none
  | holding lock | cleared lock | created lock _ | released lock => some lock

/-- The lock it has. -/
def lock? : LockStage → Option Lock
  | outside | released _ => none
  | holding lock | cleared lock | created lock _ => some lock

/-- The session it has got and has not stored. -/
def made? : LockStage → Option CheckoutSession
  | created _ session => some session
  | _ => none

theorem took_of_lock? {stage : LockStage} {lock : Lock} (h : stage.lock? = some lock) :
    stage.took = some lock := by
  cases stage <;> simp_all [lock?, took]

/-- Who makes a session has the lock. -/
theorem lock?_of_made? {stage : LockStage} {session : CheckoutSession}
    (h : stage.made? = some session) : ∃ lock, stage.lock? = some lock := by
  cases stage with
  | created lock s => exact ⟨lock, rfl⟩
  | _ => cases h

/-- Locks come and go with `Acquire` and `Release` only. -/
theorem next_of_other {op : Op} (hacq : ∀ key ttl, op ≠ .acquire key ttl)
    (hrel : ∀ lock, op ≠ .release lock) (stage : LockStage) (a : op.Ans) :
    (stage.next (op.gave a)).took = stage.took ∧ (stage.next (op.gave a)).lock? = stage.lock? := by
  cases op with
  | acquire key ttl => exact absurd rfl (hacq key ttl)
  | release lock => exact absurd rfl (hrel lock)
  | getByMerchantOrderID x m o =>
    cases stage with
    | holding lock =>
      by_cases hfound : CheckoutResolver.storedSession a = []
      · simp [next, Op.gave, reread, hfound, took, lock?]
      · simp [next, Op.gave, reread, hfound]
    | _ => exact ⟨rfl, rfl⟩
  | createCheckoutSession req key => cases a <;> cases stage <;> exact ⟨rfl, rfl⟩
  | updateCheckout x m o session pi => cases stage <;> exact ⟨rfl, rfl⟩
  | _ => exact ⟨rfl, rfl⟩

end LockStage

/-- The stage the calls have led to. -/
def stageOf (t : Calls) : LockStage := t.foldl LockStage.next .outside

@[simp] theorem stageOf_snoc (t : Calls) (x : Prog.Step gateway) :
    stageOf (t ++ [x]) = (stageOf t).next x := List.foldl_append

/-! ## The calls at each stage -/

/-- The lock of an order. -/
def lockName (m o : Str) : Str := bytes "checkout:" ++ cacheKey m o

/-- Its key in Redis. -/
def lockKey (m o : Str) : Str := bytes "lock:" ++ lockName m o

def lockTTL : Time := 10 * second

/-- The calls that write to the row of the order or to a URL cache. -/
def Op.writes : Op → Bool
  | .updateCheckout _ _ _ _ _ | .cachePut _ _ _ => true
  | _ => false

def silent (t : Calls) : Bool := t.all fun x => !x.1.writes

theorem silent_snoc {t : Calls} (op : Op) (hop : op.writes = false) (ht : silent t = true)
    (a : op.Ans) : silent (t ++ [op.gave a]) = true := by
  unfold silent at ht ⊢
  rw [List.all_append, ht]
  simp [Op.gave, hop]

/-- The calls `Resolve(m, o)` makes, and at which stage. -/
inductive LockCall (m o : Str) (t : Calls) : Op → Prop
  | cached (pod : Nat) : LockCall m o t (.cacheGet pod (cacheKey m o))
  | merchant : LockCall m o t (.getByMerchantID m)
  | read (M : Merchant) : (Op.getByMerchantID m).gave (.ok M) ∈ t →
      LockCall m o t (.getByMerchantOrderID M.shardIndex m o)
  | acquire : stageOf t = .outside → LockCall m o t (.acquire (lockName m o) lockTTL)
  | release (lock : Lock) : stageOf t = .holding lock ∨ stageOf t = .cleared lock →
      LockCall m o t (.release lock)
  | allow : LockCall m o t .allow
  | create (lock : Lock) (req : CreateCheckoutRequest) (key : Str) : stageOf t = .cleared lock →
      LockCall m o t (.createCheckoutSession req key)
  | store (M : Merchant) (lock : Lock) (session : CheckoutSession) :
      (Op.getByMerchantID m).gave (.ok M) ∈ t → stageOf t = .created lock session →
      LockCall m o t (.updateCheckout M.shardIndex m o session.id session.paymentIntentID)
  | warm (pod : Nat) (url : Str) : LockCall m o t (.cachePut pod (cacheKey m o) url)

/-- A call other than those that make and store a session leaves who has one in hand; and it is
the read under the lock that clears the way for a session. -/
theorem LockCall.next_of_other {m o : Str} {t : Calls} {op : Op} (h : LockCall m o t op)
    (hcreate : ∀ req key, op ≠ .createCheckoutSession req key)
    (hstore : ∀ x m o session pi, op ≠ .updateCheckout x m o session pi) (a : op.Ans) :
    ((stageOf t).next (op.gave a)).made? = (stageOf t).made? ∧
      ∀ lock, (stageOf t).next (op.gave a) = .cleared lock → stageOf t = .cleared lock ∨
        (stageOf t = .holding lock ∧ ∃ x again,
          op.gave a = (Op.getByMerchantOrderID x m o).gave again ∧
          CheckoutResolver.storedSession again = []) := by
  cases h with
  | create lock req key => exact absurd rfl (hcreate req key)
  | store M lock session => exact absurd rfl (hstore _ _ _ _ _)
  | acquire hstage =>
    rw [hstage]
    cases a with
    | error e => exact ⟨rfl, fun lock hnext => by cases hnext⟩
    | ok lock => exact ⟨rfl, fun lock hnext => by cases hnext⟩
  | release lock hstage =>
    refine ⟨?_, fun lock' hnext => by cases hnext⟩
    rcases hstage with hstage | hstage
    · rw [hstage]
      rfl
    · rw [hstage]
      rfl
  | read M hM =>
    cases hstage : stageOf t with
    | holding lock =>
      by_cases hfound : CheckoutResolver.storedSession a = []
      · refine ⟨by simp [LockStage.next, Op.gave, LockStage.reread, LockStage.made?, hfound], ?_⟩
        intro lock' hnext
        simp only [LockStage.next, Op.gave, LockStage.reread, if_pos hfound] at hnext
        cases hnext
        exact .inr ⟨rfl, M.shardIndex, a, rfl, hfound⟩
      · refine ⟨by simp [LockStage.next, Op.gave, LockStage.reread, hfound], ?_⟩
        intro lock' hnext
        simp only [LockStage.next, Op.gave, LockStage.reread, if_neg hfound] at hnext
        cases hnext
    | _ => exact ⟨rfl, fun _ hnext => .inl hnext⟩
  | _ => exact ⟨rfl, fun _ hnext => .inl hnext⟩

/-- `Resolve` returns without the lock, and has written nothing if it fails. -/
def LockResult (t : Calls) (res : Res Str) : Prop :=
  (stageOf t = .outside ∨ ∃ lock, stageOf t = .released lock) ∧
    ∀ e, res = .error e → silent t = true

theorem LockResult.unlocked {t : Calls} {res : Res Str} (h : LockResult t res) :
    (stageOf t).lock? = none := by
  rcases h.1 with hstage | ⟨lock, hstage⟩
  · rw [hstage]
    rfl
  · rw [hstage]
    rfl

namespace CheckoutResolver

section
variable (U : Unicode) (r : CheckoutResolver) {m o : Str} {t : Calls} {M : Merchant}

/-- Warming the cache changes no stage. -/
theorem cacheURL_stages {R : Calls → Res Str → Prop} (url : Str)
    (h : ∀ t', stageOf t' = stageOf t → R t' (.ok url)) :
    Prog.Meets (P := gateway) (LockCall m o) R
      (do r.cacheURL (cacheKey m o) url; return .ok url) t := by
  unfold cacheURL
  by_cases hc : r.hasURLCache = true
  · rw [if_pos hc]
    refine Svc.meets_ask (.warm _ url) fun a => h _ ?_
    rw [stageOf_snoc]
    rfl
  · rw [if_neg hc]
    exact h t rfl

theorem resolveAfterLock_stages (hM : (Op.getByMerchantID m).gave (.ok M) ∈ t)
    (hstage : stageOf t = .outside) (hsilent : silent t = true) :
    Prog.Meets (P := gateway) (LockCall m o) LockResult (r.resolveAfterLock M.shardIndex m o) t := by
  have hread : ∀ a, stageOf (t ++ [(Op.getByMerchantOrderID M.shardIndex m o).gave a]) =
      .outside := by
    intro a
    rw [stageOf_snoc, hstage]
    rfl
  unfold resolveAfterLock
  refine Svc.meets_ask (.read M hM) fun a => ?_
  have hfail : ∀ e, LockResult (t ++ [(Op.getByMerchantOrderID M.shardIndex m o).gave a])
      (.error e) := fun e => ⟨.inl (hread a), fun _ _ => silent_snoc _ rfl hsilent a⟩
  cases a with
  | error e => exact hfail _
  | ok order =>
    simp only
    split
    · refine r.cacheURL_stages _ fun t' ht' => ⟨.inl (ht'.trans (hread _)), ?_⟩
      rintro e ⟨⟩
    · exact hfail _

/-- What is left of the lock when `Resolve` is about to release it. -/
def StillHeld (lock : Lock) (t : Calls) (res : Res Str) : Prop :=
  (stageOf t = .holding lock ∨ stageOf t = .cleared lock) ∧ ∀ e, res = .error e → silent t = true

theorem openSession_stages {lock : Lock} (order : Transaction)
    (hM : (Op.getByMerchantID m).gave (.ok M) ∈ t) (hstage : stageOf t = .cleared lock)
    (hsilent : silent t = true) :
    Prog.Meets (P := gateway) (LockCall m o) (StillHeld lock)
      (r.openSession U M.shardIndex m o order) t := by
  unfold openSession createSession
  refine Svc.meets_ask (.create lock _ _ hstage) fun a => ?_
  cases a with
  | error e =>
    have hfail : ∀ e', StillHeld lock (t ++ [(Op.createCheckoutSession (r.sessionRequest U order)
        (checkoutIdemKey order)).gave (.error e)]) (.error e') := by
      refine fun e' => ⟨.inr ?_, fun _ _ => silent_snoc _ rfl hsilent _⟩
      rw [stageOf_snoc, hstage]
      rfl
    simp only
    split <;> exact hfail _
  | ok session =>
    have hcreated : stageOf (t ++ [(Op.createCheckoutSession (r.sessionRequest U order)
        (checkoutIdemKey order)).gave (.ok session)]) = .created lock session := by
      rw [stageOf_snoc, hstage]
      rfl
    refine Svc.meets_ask (.store M lock session (List.mem_append_left _ hM) hcreated) fun b => ?_
    refine r.cacheURL_stages _ fun t' ht' => ⟨.inl ?_, ?_⟩
    · rw [ht', stageOf_snoc, hcreated]
      rfl
    · rintro e ⟨⟩

theorem underLock_stages {lock : Lock} (order : Transaction)
    (hM : (Op.getByMerchantID m).gave (.ok M) ∈ t) (hstage : stageOf t = .holding lock)
    (hsilent : silent t = true) :
    Prog.Meets (P := gateway) (LockCall m o) (StillHeld lock)
      (r.underLock U M.shardIndex m o order) t := by
  unfold underLock
  refine Svc.meets_ask (.read M hM) fun again => ?_
  have hread : stageOf (t ++ [(Op.getByMerchantOrderID M.shardIndex m o).gave again]) =
      (LockStage.holding lock).reread (storedSession again) := by
    rw [stageOf_snoc, hstage]
    rfl
  have hquiet := silent_snoc (.getByMerchantOrderID M.shardIndex m o) rfl hsilent again
  simp only
  split
  · next hs =>
    refine r.cacheURL_stages _ fun t' ht' => ⟨.inl ?_, ?_⟩
    · rw [ht', hread, LockStage.reread, if_neg hs]
    · rintro e ⟨⟩
  · next hs =>
    rw [LockStage.reread, if_pos (not_not.mp hs)] at hread
    -- the bucket changes neither the stage nor the row
    refine Prog.meets_bind (R := fun t' _ => (Op.getByMerchantID m).gave (.ok M) ∈ t' ∧
      stageOf t' = .cleared lock ∧ silent t' = true) ?_ fun t' ok ⟨hM', hstage', hsilent'⟩ => ?_
    · have hM' := List.mem_append_left
        [(Op.getByMerchantOrderID M.shardIndex m o).gave again] hM
      unfold allowed
      split
      · refine Svc.meets_ask .allow fun b => ?_
        have hallow : (Op.getByMerchantID m).gave (.ok M) ∈
              t ++ [(Op.getByMerchantOrderID M.shardIndex m o).gave again] ++ [Op.allow.gave b] ∧
            stageOf (t ++ [(Op.getByMerchantOrderID M.shardIndex m o).gave again] ++
              [Op.allow.gave b]) = .cleared lock ∧
            silent (t ++ [(Op.getByMerchantOrderID M.shardIndex m o).gave again] ++
              [Op.allow.gave b]) = true := by
          refine ⟨List.mem_append_left _ hM', ?_, silent_snoc _ rfl hquiet b⟩
          rw [stageOf_snoc, hread]
          rfl
        cases b <;> exact hallow
      · exact ⟨hM', hread, hquiet⟩
    · split
      · exact r.openSession_stages U order hM' hstage' hsilent'
      · exact ⟨.inr hstage', fun _ _ => hsilent'⟩

theorem openLazily_stages (order : Transaction) (hM : (Op.getByMerchantID m).gave (.ok M) ∈ t)
    (hstage : stageOf t = .outside) (hsilent : silent t = true) :
    Prog.Meets (P := gateway) (LockCall m o) LockResult
      (r.openLazily U M.shardIndex m o order) t := by
  unfold openLazily
  refine Svc.meets_ask (.acquire hstage) fun a => ?_
  have hquiet := silent_snoc (.acquire (lockName m o) lockTTL) rfl hsilent a
  have hM' := List.mem_append_left [(Op.acquire (lockName m o) lockTTL).gave a] hM
  cases a with
  | error e =>
    refine r.resolveAfterLock_stages hM' ?_ hquiet
    rw [stageOf_snoc, hstage]
    rfl
  | ok lock =>
    have hholding : stageOf (t ++ [(Op.acquire (lockName m o) lockTTL).gave (.ok lock)]) =
        .holding lock := by
      rw [stageOf_snoc]
      rfl
    refine Prog.meets_bind (r.underLock_stages U order hM' hholding hquiet)
      fun t' res ⟨hheld, hres⟩ => ?_
    refine Svc.meets_ask (.release lock hheld) fun b => ⟨.inr ⟨lock, ?_⟩, fun e he => ?_⟩
    · rw [stageOf_snoc]
      rfl
    · exact silent_snoc _ rfl (hres e he) b

theorem resolveOn_stages (hM : (Op.getByMerchantID m).gave (.ok M) ∈ t)
    (hstage : stageOf t = .outside) (hsilent : silent t = true) :
    Prog.Meets (P := gateway) (LockCall m o) LockResult (r.resolveOn U M.shardIndex m o) t := by
  unfold resolveOn
  refine Svc.meets_ask (.read M hM) fun a => ?_
  have hread : stageOf (t ++ [(Op.getByMerchantOrderID M.shardIndex m o).gave a]) = .outside := by
    rw [stageOf_snoc, hstage]
    rfl
  have hquiet := silent_snoc (.getByMerchantOrderID M.shardIndex m o) rfl hsilent a
  cases a with
  | error e =>
    simp only
    split <;> exact ⟨.inl hread, fun _ _ => hquiet⟩
  | ok order =>
    simp only
    split
    · refine r.cacheURL_stages _ fun t' ht' => ⟨.inl (ht'.trans hread), ?_⟩
      rintro e ⟨⟩
    · exact r.openLazily_stages U order (List.mem_append_left _ hM) hread hquiet

end

theorem resolve_meets_stages (U : Unicode) (r : CheckoutResolver) (m o : Str) :
    Prog.Meets (P := gateway) (LockCall m o) LockResult (r.resolve U m o) [] := by
  unfold resolve
  refine Prog.meets_bind (R := fun t' _ => stageOf t' = .outside ∧ silent t' = true) ?_
    fun t hit ⟨hstage, hsilent⟩ => ?_
  · unfold cachedURL
    split
    · exact ⟨.cached r.pod, fun a => ⟨rfl, rfl⟩⟩
    · exact ⟨rfl, rfl⟩
  cases hit with
  | some url =>
    refine ⟨.inl hstage, ?_⟩
    rintro e ⟨⟩
  | none =>
    refine Svc.meets_ask .merchant fun a => ?_
    have hmerchant : stageOf (t ++ [(Op.getByMerchantID m).gave a]) = .outside := by
      rw [stageOf_snoc, hstage]
      rfl
    have hquiet := silent_snoc (.getByMerchantID m) rfl hsilent a
    cases a with
    | error e =>
      simp only
      split <;> exact ⟨.inl hmerchant, fun _ _ => hquiet⟩
    | ok M => exact r.resolveOn_stages U (by simp) hmerchant hquiet

/-- **The calls of Resolve**, at their stages. -/
theorem resolve_stages {U : Unicode} {r : CheckoutResolver} {m o : Str} {t : Calls} {op : Op}
    {k : op.Ans → Svc (Res Str)} (h : Prog.Runs (r.resolve U m o) t (.call op k)) :
    LockCall m o t op :=
  (r.resolve_meets_stages U m o).call h

/-- **The results of Resolve**, and the stage it is left at. -/
theorem resolve_returned {U : Unicode} {r : CheckoutResolver} {m o : Str} {t : Calls}
    {res : Res Str} (h : Prog.Runs (r.resolve U m o) t (.ret res)) : LockResult t res :=
  (r.resolve_meets_stages U m o).ret h

/-- A lock is acquired from outside, so the stage tells every lock that was acquired. -/
theorem took_of_acquired {U : Unicode} {r : CheckoutResolver} {m o : Str} {t : Calls}
    {q : Svc (Res Str)} (h : Prog.Runs (r.resolve U m o) t q) {key : Str} {ttl : Time} {lock : Lock}
    (hmem : (Op.acquire key ttl).gave (.ok lock) ∈ t) : (stageOf t).took = some lock := by
  refine Prog.Runs.induction (Q := fun t => (Op.acquire key ttl).gave (.ok lock) ∈ t →
    (stageOf t).took = some lock) h (fun h => by cases h) ?_ hmem
  intro t op k a hruns ih hmem
  have hcall := resolve_stages hruns
  rw [stageOf_snoc]
  rcases List.mem_append.mp hmem with hbefore | hnow
  · have htook := ih hbefore
    cases hcall with
    | acquire hstage =>
      rw [hstage] at htook
      cases htook
    | release lock' hstage =>
      rcases hstage with hstage | hstage
      · rw [hstage] at htook
        exact htook
      · rw [hstage] at htook
        exact htook
    | _ =>
      rw [← htook]
      exact (LockStage.next_of_other (fun _ _ h => by cases h) (fun _ h => by cases h) _ _).1
  · cases List.mem_singleton.mp hnow
    rfl

end CheckoutResolver

end EasyPay
