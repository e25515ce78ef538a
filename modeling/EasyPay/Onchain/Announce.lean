import EasyPay.Onchain.Settlement

/-!
# How often an on-chain order is announced

The tracker reads the status of an order, and only three calls later, with the order set to
`paid`, publishes the event.  Ticks of several replicas, and of one tick several payments of the
same order, go through these calls at the same time.

`announced_once`: an order is announced as paid at most once, in every run in which no tick finds
it open while another is about to pay it.
-/

namespace EasyPay

open GoStrings Tables Ports ConfirmationTracker

/-! ## From finding an order open to announcing it -/

/-- The event says that the order is paid. -/
def PaymentConfirmedEvent.Announces (m o : Str) (ev : PaymentConfirmedEvent) : Prop :=
  ev.merchantID = m ∧ ev.orderID = o ∧ ev.status = TransactionStatus.paid.text

instance (m o : Str) : DecidablePred (PaymentConfirmedEvent.Announces m o) :=
  fun _ => inferInstanceAs (Decidable (_ ∧ _))

/-- How often the order was announced as paid. -/
def announcements (m o : Str) (evs : List PaymentConfirmedEvent) : Nat :=
  evs.countP fun ev => decide (ev.Announces m o)

section
variable (m o : Str)

/-- The tick has found the order open, and has not set it to `paid` yet. -/
def AboutToPay (t : Calls) : Prop :=
  ∃ t₀ p order, order.merchantID = m ∧ order.orderID = o ∧ Matches p order ∧
    (t = t₀ ++ [found p order] ∨ ∃ n, t = t₀ ++ [found p order, marked p n])

/-- The tick has set the order to `paid`, and has not announced it yet. -/
def AboutToAnnounce (t : Calls) : Prop :=
  ∃ t₀ p n order, order.merchantID = m ∧ order.orderID = o ∧ Matches p order ∧
    (t = t₀ ++ [found p order, marked p n, paid order] ∨
      ∃ now, t = t₀ ++ [found p order, marked p n, paid order, Op.timeNow.gave now])

/-- The tick is between the two. -/
def Engaged (t : Calls) : Prop := AboutToPay m o t ∨ AboutToAnnounce m o t

variable {m o : Str} {t : Calls} {x : Prog.Step gateway}

theorem not_engaged_nil : ¬ Engaged m o [] := by
  rintro (⟨t₀, p, order, -, -, -, h | ⟨n, h⟩⟩ | ⟨t₀, p, n, order, -, -, -, h | ⟨now, h⟩⟩)
  all_goals simp at h

/-- With the call `x` a tick has just found the order open, or it was about to pay it before. -/
theorem AboutToPay.snoc (h : AboutToPay m o (t ++ [x])) :
    (∃ p order, order.merchantID = m ∧ order.orderID = o ∧ Matches p order ∧ x = found p order) ∨
      (AboutToPay m o t ∧ ∃ p n, x = marked p n) := by
  obtain ⟨t₀, p, order, hm, ho, hmatch, h | ⟨n, h⟩⟩ := h
  · exact .inl ⟨p, order, hm, ho, hmatch, List.singleton_inj.mp (List.append_inj' h rfl).2⟩
  · have h' : t ++ [x] = (t₀ ++ [found p order]) ++ [marked p n] := by rw [h]; simp
    obtain ⟨ht, hx⟩ := List.append_inj' h' rfl
    exact .inr ⟨⟨t₀, p, order, hm, ho, hmatch, .inl ht⟩, p, n, List.singleton_inj.mp hx⟩

/-- With the call `x` a tick has just paid the order, or it was about to announce it before. -/
theorem AboutToAnnounce.snoc (h : AboutToAnnounce m o (t ++ [x])) :
    (AboutToPay m o t ∧ ∃ p order, order.merchantID = m ∧ order.orderID = o ∧ found p order ∈ t ∧
        x = paid order) ∨
      (AboutToAnnounce m o t ∧ ∃ now, x = Op.timeNow.gave now) := by
  obtain ⟨t₀, p, n, order, hm, ho, hmatch, h | ⟨now, h⟩⟩ := h
  · have h' : t ++ [x] = (t₀ ++ [found p order, marked p n]) ++ [paid order] := by rw [h]; simp
    obtain ⟨ht, hx⟩ := List.append_inj' h' rfl
    exact .inl ⟨⟨t₀, p, order, hm, ho, hmatch, .inr ⟨n, ht⟩⟩, p, order, hm, ho, by rw [ht]; simp,
      List.singleton_inj.mp hx⟩
  · have h' : t ++ [x] =
        (t₀ ++ [found p order, marked p n, paid order]) ++ [Op.timeNow.gave now] := by rw [h]; simp
    obtain ⟨ht, hx⟩ := List.append_inj' h' rfl
    exact .inr ⟨⟨t₀, p, n, order, hm, ho, hmatch, .inl ht⟩, now, List.singleton_inj.mp hx⟩

/-- A tick gets there by finding the order open, and is gone once it publishes. -/
theorem Engaged.snoc (h : Engaged m o (t ++ [x])) :
    (∃ p order, order.merchantID = m ∧ order.orderID = o ∧ Matches p order ∧ x = found p order) ∨
      (Engaged m o t ∧ ∀ ev a, x ≠ (Op.publishPaymentConfirmed ev).gave a) := by
  rcases h with h | h
  · rcases h.snoc with hfound | ⟨hbefore, p, n, rfl⟩
    · exact .inl hfound
    · exact .inr ⟨.inl hbefore, fun ev a h => by cases h⟩
  · rcases h.snoc with ⟨hbefore, p, order, -, -, -, rfl⟩ | ⟨hbefore, now, rfl⟩
    · exact .inr ⟨.inl hbefore, fun ev a h => by cases h⟩
    · exact .inr ⟨.inr hbefore, fun ev a h => by cases h⟩

end

/-- The tracker announces an order it has just set to `paid`. -/
theorem ConfirmationTracker.TickAt.announces {c : ConfirmationTracker} {t : Calls}
    {ev : PaymentConfirmedEvent} (h : TickAt c t (some (.publishPaymentConfirmed ev))) :
    AboutToAnnounce ev.merchantID ev.orderID t := by
  cases h with
  | @payment latest ps ps' p t t' _ _ hp =>
    cases hp with
    | @deep r _ _ _ _ h =>
      cases h with
      | @announce order now hmatch =>
        refine ⟨Op.blockNumber.gave (.ok latest) ::
          (Op.listPendingByChain c.chainID c.batchLimit).gave (.ok (ps ++ p :: ps')) ::
            (t ++ [(Op.transactionReceipt p.txHash).gave (.ok (some r))]), p,
          latest - p.blockNumber, order, rfl, rfl, hmatch, .inr ⟨now, ?_⟩⟩
        simp

/-! ## One tick at a time -/

section
variable (D : Deployment) (w : World) (m o : Str)

/-- The next call of job `i` finds the order open, while another tick is about to pay it. -/
def Overlaps (S : System) (i : Nat) (c : Choice) : Prop :=
  ∃ orderID k order i', S.procs[i]? = some (.call (.getByOrderIDAny orderID) k) ∧
    (exec D (.getByOrderIDAny orderID) c S.world).1 = .ok order ∧ order.merchantID = m ∧
    order.orderID = o ∧ order.status ≠ .paid ∧ order.status ≠ .refunded ∧ i' ≠ i ∧
    AboutToPay m o (callsOf i' S.hist)

/-- The order is stored in one pool only. -/
def OnePool (pools : Pools) : Prop :=
  ∀ q < D.router.pools, ∀ q' < D.router.pools, ∀ r ∈ pools q, ∀ r' ∈ pools q',
    r.merchantID = m → r.orderID = o → r'.merchantID = m → r'.orderID = o → q = q'

/-- Every row of the order is paid or refunded. -/
def AllFinal (pools : Pools) : Prop :=
  ∀ q < D.router.pools, ∀ r ∈ pools q, r.merchantID = m → r.orderID = o → r.Final

/-- What holds of the order while ticks go one at a time: at most one of them is between finding
it open and announcing it; from the moment it is paid no other can find it open; and once it is
announced nobody is about to announce it again. -/
structure AnnouncedInv (S : System) : Prop where
  alone : ∀ i i', Engaged m o (callsOf i S.hist) → Engaged m o (callsOf i' S.hist) → i = i'
  final : (∃ i, AboutToAnnounce m o (callsOf i S.hist)) ∨
    announcements m o S.world.published ≠ announcements m o w.published →
    AllFinal D m o S.world.pools
  once : announcements m o S.world.published = announcements m o w.published ∨
    (announcements m o S.world.published = announcements m o w.published + 1 ∧
      ∀ i, ¬ Engaged m o (callsOf i S.hist))

end

section
variable {D : Deployment} {w : World} {m o : Str}

/-- The tracker leaves final orders final. -/
theorem AllFinal.after {op : Op} (hop : TrackerCall op) (c : Choice) {w : World}
    (h : AllFinal D m o w.pools) : AllFinal D m o (exec D op c w).2.pools := by
  intro q hq r' hr' hm ho
  obtain ⟨r, hr, hfacts, hkeep⟩ := exists_left_of_forall₂ (tracker_rows hop c w q) hr'
  have hm' : r'.merchantID = r.merchantID := congrArg Facts.merchantID hfacts
  have ho' : r'.orderID = r.orderID := congrArg Facts.orderID hfacts
  exact hkeep (h q hq r hr (hm' ▸ hm) (ho' ▸ ho))

/-- An order that was found open is not final. -/
theorem not_allFinal_of_open {p : OnchainTransaction} {orderID : Str} {order : Transaction}
    {c : Choice} {w : World} (h : (exec D (.getByOrderIDAny orderID) c w).1 = .ok order)
    (hopen : Matches p order) (hm : order.merchantID = m) (ho : order.orderID = o) :
    ¬ AllFinal D m o w.pools := by
  intro hall
  obtain ⟨q, r, hq, -, hr, ⟨-, hm', ho'⟩, hfinal⟩ := found_now h
  rcases hfinal.mp (hall q hq r hr (hm' ▸ hm) (ho' ▸ ho)) with hst | hst
  · exact hopen.1 hst
  · exact hopen.2.1 hst

/-- A tick that finds the order open is the first to do so: it has not been announced, and no other
tick is about to. -/
theorem AnnouncedInv.first {S : System} {i : Nat} {c : Choice} {op : Op} {k : op.Ans → Svc Outcome}
    {p : OnchainTransaction} {order : Transaction} (h : AnnouncedInv D w m o S)
    (hturn : ¬ Overlaps D m o S i c) (hproc : S.procs[i]? = some (.call op k))
    (hm : order.merchantID = m) (ho : order.orderID = o) (hmatch : Matches p order)
    (hx : op.gave (exec D op c S.world).1 = found p order) :
    announcements m o S.world.published = announcements m o w.published ∧
      ∀ i', i' ≠ i → ¬ Engaged m o (callsOf i' S.hist) := by
  obtain rfl : op = .getByOrderIDAny p.orderID := congrArg Sigma.fst hx
  have hans := Op.gave_inj.mp hx
  have hopen := not_allFinal_of_open hans hmatch hm ho
  constructor
  · by_contra hne
    exact hopen (h.final (.inr hne))
  · rintro i' hi' (hpay | hannounce)
    · exact hturn ⟨_, k, order, i', hproc, hans, hm, ho, hmatch.1, hmatch.2.1, hi', hpay⟩
    · exact hopen (h.final (.inl ⟨i', hannounce⟩))

/-- The order is in the pool its finder takes it to be in. -/
def KnownPool (D : Deployment) (m o : Str) (pools : Pools) (order : Transaction) : Prop :=
  ∃ q, D.router.forIndex order.shardIndex = .ok q ∧ ∀ q' < D.router.pools, ∀ r ∈ pools q',
    r.merchantID = m → r.orderID = o → q' = q

/-- An order that has just been set to `paid` is final. -/
theorem allFinal_of_paid {order : Transaction} {c : Choice} {w : World}
    (hok : (exec D (.updateStatus order.shardIndex order.merchantID order.orderID .paid []) c w).1 =
      .ok ())
    (hm : order.merchantID = m) (ho : order.orderID = o)
    (hpool : KnownPool D m o
      (exec D (.updateStatus order.shardIndex order.merchantID order.orderID .paid []) c w).2.pools
      order) :
    AllFinal D m o
      (exec D (.updateStatus order.shardIndex order.merchantID order.orderID .paid []) c
        w).2.pools := by
  obtain ⟨q, hq, hpool⟩ := hpool
  intro q' hq' r hr hrm hro
  obtain rfl := hpool q' hq' r hr hrm hro
  have hof : D.ofOrder order.merchantID order.orderID r = true := by
    rw [hm, ho, ← hrm, ← hro]
    exact D.ofOrder_self r
  refine final_of_paid ?_ hr hof
  simp only [exec, TransactionRepo.updateStatus] at hok ⊢
  rcases D.updateOrder_cases (bytes "update status: ") c.fault order.shardIndex order.merchantID
    order.orderID (TransactionRepo.setStatus c.now .paid []) w.pools with
    ⟨p, hp, -, -, -, he⟩ | ⟨e, he⟩
  · rw [he]
    cases hq.symm.trans hp
    rfl
  · rw [he] at hok
    cases hok

/-- A tick that is engaged after a call was so before, or has just found the order open. -/
theorem AnnouncedInv.engaged_before {S : System} {i : Nat} {c : Choice} {op : Op}
    {k : op.Ans → Svc Outcome} (h : AnnouncedInv D w m o S) (hturn : ¬ Overlaps D m o S i c)
    (hproc : S.procs[i]? = some (.call op k)) {i' : Nat}
    (heng : Engaged m o (callsOf i' (S.after D i c op k).hist)) :
    Engaged m o (callsOf i' S.hist) ∨
      (i' = i ∧ announcements m o S.world.published = announcements m o w.published ∧
        ∀ i', i' ≠ i → ¬ Engaged m o (callsOf i' S.hist)) := by
  by_cases hi : i = i'
  · subst hi
    rw [System.callsOf_after_self] at heng
    rcases heng.snoc with ⟨p, order, hm, ho, hmatch, hx⟩ | ⟨hbefore, -⟩
    · exact .inr ⟨rfl, h.first hturn hproc hm ho hmatch hx⟩
    · exact .inl hbefore
  · rw [System.callsOf_after_ne hi] at heng
    exact .inl heng

/-- The order is announced by a tick that was about to, and then is not engaged any more. -/
theorem announcements_after {S : System} {i : Nat} {c : Choice} {op : Op} {k : op.Ans → Svc Outcome}
    {tr : ConfirmationTracker} (hat : TickAt tr (callsOf i S.hist) (some op)) :
    announcements m o (exec D op c S.world).2.published = announcements m o S.world.published ∨
      (announcements m o (exec D op c S.world).2.published =
          announcements m o S.world.published + 1 ∧
        AboutToAnnounce m o (callsOf i S.hist) ∧
        ¬ Engaged m o (callsOf i (S.after D i c op k).hist)) := by
  rcases exec_published_cases D op c S.world with he | ⟨ev, rfl, he⟩
  · exact .inl (by rw [he])
  · unfold announcements
    rw [he, List.countP_append, List.countP_singleton]
    by_cases hev : ev.Announces m o
    · refine .inr ⟨by simp [hev], ?_, ?_⟩
      · obtain ⟨rfl, rfl, -⟩ := hev
        exact hat.announces
      · intro heng
        rw [System.callsOf_after_self] at heng
        rcases heng.snoc with ⟨p, order, -, -, -, hx⟩ | ⟨-, hne⟩
        · cases hx
        · exact hne _ _ rfl
    · exact .inl (by simp [hev])

/-- **One call of a tick.** -/
theorem AnnouncedInv.after {S : System} {i : Nat} {c : Choice} {op : Op} {k : op.Ans → Svc Outcome}
    {tr : ConfirmationTracker} (h : AnnouncedInv D w m o S) (hturn : ¬ Overlaps D m o S i c)
    (hproc : S.procs[i]? = some (.call op k)) (hat : TickAt tr (callsOf i S.hist) (some op))
    (hpool : ∀ p order, found p order ∈ callsOf i S.hist → order.merchantID = m →
      order.orderID = o → KnownPool D m o (exec D op c S.world).2.pools order) :
    AnnouncedInv D w m o (S.after D i c op k) := by
  have hengaged : ∀ i', Engaged m o (callsOf i' (S.after D i c op k).hist) → _ :=
    fun i' heng => h.engaged_before hturn hproc heng
  have hkeep : AllFinal D m o S.world.pools → AllFinal D m o (exec D op c S.world).2.pools :=
    fun hfinal => hfinal.after hat.call c
  have hpublished := announcements_after (D := D) (m := m) (o := o) (c := c) (k := k) hat
  refine ⟨?_, ?_, ?_⟩
  · intro i₁ i₂ h₁ h₂
    rcases hengaged i₁ h₁ with hold₁ | ⟨hi₁, -, hothers⟩
    · rcases hengaged i₂ h₂ with hold₂ | ⟨hi₂, -, hothers⟩
      · exact h.alone i₁ i₂ hold₁ hold₂
      · by_contra hne
        exact hothers i₁ (hi₂ ▸ hne) hold₁
    · rcases hengaged i₂ h₂ with hold₂ | ⟨hi₂, -, -⟩
      · by_contra hne
        exact hothers i₂ (fun heq => hne (hi₁.trans heq.symm)) hold₂
      · rw [hi₁, hi₂]
  · show _ → AllFinal D m o (exec D op c S.world).2.pools
    rintro (⟨i', hann⟩ | hne)
    · by_cases hi : i = i'
      · subst hi
        rw [System.callsOf_after_self] at hann
        rcases hann.snoc with ⟨-, p, order, hm, ho, hfound, hx⟩ | ⟨hbefore, -⟩
        · obtain rfl : op = .updateStatus order.shardIndex order.merchantID order.orderID .paid [] :=
            congrArg Sigma.fst hx
          exact allFinal_of_paid (Op.gave_inj.mp hx) hm ho (hpool p order hfound hm ho)
        · exact hkeep (h.final (.inl ⟨i, hbefore⟩))
      · rw [System.callsOf_after_ne hi] at hann
        exact hkeep (h.final (.inl ⟨i', hann⟩))
    · rcases hpublished with hsame | ⟨-, hann, -⟩
      · exact hkeep (h.final (.inr fun heq => hne (hsame.trans heq)))
      · exact hkeep (h.final (.inl ⟨i, hann⟩))
  · show announcements m o (exec D op c S.world).2.published = _ ∨
      (announcements m o (exec D op c S.world).2.published = _ ∧ _)
    rcases hpublished with hsame | ⟨hone, hann, hgone⟩
    · rw [hsame]
      rcases h.once with hbase | ⟨hone, hnobody⟩
      · exact .inl hbase
      · refine .inr ⟨hone, fun i' heng => ?_⟩
        rcases hengaged i' heng with hbefore | ⟨-, hbase, -⟩
        · exact hnobody i' hbefore
        · omega
    · rcases h.once with hbase | ⟨-, hnobody⟩
      · refine .inr ⟨by rw [hone, hbase], fun i' heng => ?_⟩
        rcases hengaged i' heng with hbefore | ⟨rfl, -⟩
        · obtain rfl := h.alone i' i hbefore (.inr hann)
          exact hgone heng
        · exact hgone heng
      · exact absurd (.inr hann) (hnobody i)

/-- **Announced once.**  An order that is stored in one pool is announced as paid at most once by
any number of ticks of the tracker, if none of them finds it open while another is about to pay
it. -/
theorem announced_once {js : List Job} (hjs : ∀ j ∈ js, ∃ c, j = .confirm c)
    (hplace : OnePool D m o w.pools) {xs : List (Nat × Choice)}
    (hturn : ∀ ys i c zs, xs = ys ++ (i, c) :: zs → ¬ Overlaps D m o (System.run D w js ys) i c) :
    announcements m o (System.run D w js xs).world.published ≤
      announcements m o w.published + 1 := by
  have hno : ∀ j ∈ js, ∀ s inp, j ≠ .create s inp := by
    intro j hj s inp heq
    obtain ⟨c, rfl⟩ := hjs j hj
    cases heq
  have hinv : AnnouncedInv D w m o (System.run D w js xs) := by
    refine System.guarded_rule D w js (Overlaps D m o) ?_ ?_ hturn
    · refine ⟨fun i i' h _ => absurd h not_engaged_nil, ?_, .inl rfl⟩
      rintro (⟨i, h⟩ | h)
      · exact absurd (.inr h) not_engaged_nil
      · exact absurd rfl h
    · intro ys i c op k j hQ hok hj hproc hruns
      obtain ⟨tr, rfl⟩ := hjs j (List.mem_of_getElem? hj)
      obtain ⟨k', hruns⟩ := Prog.runs_map_call hruns
      refine hQ.after hok hproc (tr.tick_at hruns) fun p order hfound hm ho => ?_
      obtain ⟨-, q, r, hq, hx, hr, -, hm', ho', -⟩ := found_at_start hno ys i _ order hfound
      refine ⟨q, hx, fun q' hq' r' hr' hrm hro => ?_⟩
      -- the row of a later state is one of the start, as far as its facts go
      have hfacts : r'.facts ∈ (w.pools q').map Row.facts := by
        obtain ⟨_, hlater⟩ := System.step_of_call D w js hproc c
        rw [← facts_kept hno (ys ++ [(i, c)]) q', hlater]
        exact List.mem_map_of_mem hr'
      obtain ⟨r₀, hr₀, hfacts⟩ := List.mem_map.mp hfacts
      have hm₀ : r₀.merchantID = r'.merchantID := congrArg Facts.merchantID hfacts
      have ho₀ : r₀.orderID = r'.orderID := congrArg Facts.orderID hfacts
      exact hplace q' hq' q hq r₀ hr₀ r hr (hm₀.trans hrm) (ho₀.trans hro) (hm'.symm.trans hm)
        (ho'.symm.trans ho)
  rcases hinv.once with h | ⟨h, -⟩
  · omega
  · omega

end

/-! Two replicas find the order open before either has paid it. -/

def trackedTwice (xs : List (Nat × Choice)) : System :=
  System.run (Deployment.sample .asciiCI) World.onePayment [.track, .track] xs

/-- Four calls of the one, four of the other, and then the rest of both. -/
def interleavedTicks : List (Nat × Choice) :=
  List.replicate 4 (0, .onChain) ++ List.replicate 4 (1, .onChain) ++
    List.replicate 4 (0, .onChain) ++ List.replicate 4 (1, .onChain)

/-- The one after the other. -/
def successiveTicks : List (Nat × Choice) :=
  List.replicate 8 (0, .onChain) ++ List.replicate 8 (1, .onChain)

/-- The second of them has no order to look for. -/
theorem successiveTicks_reads :
    ((trackedTwice successiveTicks).hist.all fun e =>
      match e.op with
      | .getByOrderIDAny _ => e.pid = 0
      | _ => true) = true := by
  decide +kernel

theorem announced_once_successive :
    OnePool (Deployment.sample .asciiCI) (bytes "m1") (bytes "o-1") World.onePayment.pools ∧
      announcements (bytes "m1") (bytes "o-1") (trackedTwice successiveTicks).world.published ≤
        announcements (bytes "m1") (bytes "o-1") World.onePayment.published + 1 := by
  have hplace : OnePool (Deployment.sample .asciiCI) (bytes "m1") (bytes "o-1")
      World.onePayment.pools := by
    intro q hq q' hq' _ _ _ _ _ _ _ _
    have hone : (Deployment.sample .asciiCI).router.pools = 1 := rfl
    omega
  have hjs : ∀ j ∈ [Job.track, Job.track], ∃ c, j = .confirm c := by
    intro j hj
    have htrack : j = .track := by simpa using hj
    exact ⟨_, htrack⟩
  have hread : ∀ e ∈ (trackedTwice successiveTicks).hist, ∀ orderID,
      e.op = .getByOrderIDAny orderID → e.pid = 0 := by
    intro e he orderID hop
    have hall := List.all_eq_true.mp successiveTicks_reads e he
    rw [hop] at hall
    exact of_decide_eq_true hall
  refine ⟨hplace, announced_once hjs hplace ?_⟩
  rintro ys i c zs hxs ⟨orderID, k, order, i', hproc, -, -, -, -, -, hne, hpay⟩
  have hlater : ∀ e : CallEvent, e ∈ (trackedTwice (ys ++ [(i, c)])).hist →
      e ∈ (trackedTwice successiveTicks).hist := by
    intro e he
    have hsplit : successiveTicks = (ys ++ [(i, c)]) ++ zs := by rw [hxs]; simp
    rw [hsplit]
    exact System.mem_hist_run _ _ _ he
  -- the reader is the first tick, and so is the one about to pay
  have hmade : ⟨i, c, .getByOrderIDAny orderID, (exec (Deployment.sample .asciiCI)
      (.getByOrderIDAny orderID) c (trackedTwice ys).world).1⟩ ∈
        (trackedTwice (ys ++ [(i, c)])).hist := by
    obtain ⟨-, hstep⟩ := System.step_of_call _ _ _ hproc c
    unfold trackedTwice
    rw [hstep]
    exact System.mem_hist_after.mpr (.inr rfl)
  have hi : i = 0 := hread _ (hlater _ hmade) orderID rfl
  obtain ⟨t₀, p, order', -, -, -, hcalls⟩ := hpay
  have hfound : found p order' ∈ callsOf i' (trackedTwice ys).hist := by
    rcases hcalls with h | ⟨n, h⟩
    · rw [show callsOf i' (trackedTwice ys).hist = _ from h]
      simp
    · rw [show callsOf i' (trackedTwice ys).hist = _ from h]
      simp
  obtain ⟨c', he⟩ := exists_event hfound
  have hi' : i' = 0 :=
    hread _ (hlater _ (System.mem_hist_run _ _ _ he)) p.orderID rfl
  exact hne (hi'.trans hi.symm)

theorem announced_twice :
    announcements (bytes "m1") (bytes "o-1") World.onePayment.published = 0 ∧
      announcements (bytes "m1") (bytes "o-1") (trackedTwice interleavedTicks).world.published =
        2 := by
  decide +kernel

end EasyPay
