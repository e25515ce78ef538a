import EasyPay.Onchain.Settlement

/-!
# A confirmed payment

`UpdateConfirmations` writes a status whatever the one that is there, and a tick writes on the
strength of a list, a head and a receipt it was given some time before.  Two ticks that overlap
can undo each other.

* `job_doubts`: what a tick was told when it writes anything but `confirmed`.
* `confirmed_kept_iff`: in a run no confirmed payment becomes another, exactly when no tick that
  doubts a payment comes after one that has confirmed it.
-/

namespace EasyPay

open GoStrings Tables Ports ConfirmationTracker

/-! ## What a tick doubts a payment on -/

/-- The head a tick has read is not far enough above the block of a listed payment. -/
def LooksShallow (txHash : Str) (t : Calls) : Prop :=
  ∃ p latest, Listed p t ∧ p.txHash = txHash ∧ Op.blockNumber.gave (.ok latest) ∈ t ∧
    latest - p.blockNumber < p.requiredConfirm

/-- Why a tick does not confirm a payment, by the status it gives it. -/
def Doubted (txHash : Str) (t : Calls) : OnchainTxStatus → Prop
  | .confirmed => False
  | .pending => LooksShallow txHash t
  | .reorged => LooksGone txHash t
  | .failed =>
    LooksFailed txHash t ∨ ∃ p order, Found txHash p order t ∧ amountMismatch p order = true

theorem ConfirmationTracker.ProcessAt.doubts {p : OnchainTransaction} {latest n : UInt64}
    {t t' : Calls} {txHash : Str} {st : OnchainTxStatus}
    (h : ProcessAt p latest t' (some (.updateConfirmations txHash n st))) (hp : Listed p t)
    (hhead : Op.blockNumber.gave (.ok latest) ∈ t) (ht : t' ⊆ t) :
    st = .confirmed ∨ Doubted txHash t st := by
  have hjust := h.justified hp ht
  cases h with
  | gone _ => exact .inr hjust
  | failed _ => exact .inr hjust
  | shallow _ hlow => exact .inr ⟨p, latest, hp, rfl, hhead, hlow⟩
  | deep _ _ h =>
    cases h with
    | final _ => exact .inl rfl
    | confirm _ => exact .inl rfl
    | mismatch _ => exact .inr hjust

/-- **Why a payment is not confirmed**, by whichever job says so. -/
theorem job_doubts {D : Deployment} {j : Job} {t : Calls} {txHash : Str} {n : UInt64}
    {st : OnchainTxStatus} {k : Res Unit → Svc Outcome}
    (h : Prog.Runs (j.prog D) t (.call (.updateConfirmations txHash n st) k)) :
    st = .confirmed ∨ Doubted txHash t st := by
  have hcall := Job.next h
  cases hcall with
  | create _ hc => cases hc
  | resolve hr => cases hr
  | @handle s payload sig e t op k he hr => cases s.handle_next hr
  | reconcile hr => cases hr
  | @confirm c _ _ _ =>
    obtain ⟨k', hruns⟩ := Prog.runs_map_call h
    have hat : TickAt c t (some (.updateConfirmations txHash n st)) := c.tick_at hruns
    cases hat with
    | @payment latest ps ps' p t t' _ _ hp =>
      refine hp.doubts ⟨_, _, ps ++ p :: ps', .tail _ (.head _), by simp⟩ (.head _) fun x hx => ?_
      exact .tail _ (.tail _ (List.mem_append_right _ hx))
  | listen hc =>
    cases hc with
    | gone _ _ hgone => exact .inr hgone
    | failed _ _ hfailed => exact .inr (.inl hfailed)

theorem Doubted.ne_confirmed {txHash : Str} {t : Calls} {st : OnchainTxStatus}
    (h : Doubted txHash t st) : st ≠ .confirmed := by
  rintro rfl
  exact h

/-! ## Payments that stay confirmed -/

/-- Every confirmed payment is still there, and confirmed. -/
def ConfirmedKept (txs txs' : List OnchainTransaction) : Prop :=
  ∀ (n : Nat) (x : OnchainTransaction), txs[n]? = some x → x.status = .confirmed →
    ∃ x', txs'[n]? = some x' ∧ x'.facts = x.facts ∧ x'.status = .confirmed

theorem ConfirmedKept.refl (txs : List OnchainTransaction) : ConfirmedKept txs txs := by
  intro n x hx hconf
  exact ⟨x, hx, rfl, hconf⟩

theorem ConfirmedKept.trans {txs txs' txs'' : List OnchainTransaction}
    (h : ConfirmedKept txs txs') (h' : ConfirmedKept txs' txs'') : ConfirmedKept txs txs'' := by
  intro n x hx hconf
  obtain ⟨x', hx', hfacts, hconf'⟩ := h n x hx hconf
  obtain ⟨x'', hx'', hfacts', hconf''⟩ := h' n x' hx' hconf'
  exact ⟨x'', hx'', hfacts'.trans hfacts, hconf''⟩

/-- Counting confirmations keeps them if it leaves the confirmed rows it reaches confirmed. -/
theorem confirmedKept_updateWhere {cond : OnchainTransaction → Bool} {n : UInt64}
    {st : OnchainTxStatus} {txs : List OnchainTransaction} :
    ConfirmedKept txs
        (updateWhere cond (fun t => { t with confirmations := n, status := st }) txs) ↔
      ∀ x ∈ txs, cond x = true → x.status = .confirmed → st = .confirmed := by
  have hget : ∀ m : Nat,
      (updateWhere cond (fun t => { t with confirmations := n, status := st }) txs)[m]? =
        txs[m]?.map fun t => if cond t then { t with confirmations := n, status := st } else t := by
    intro m
    unfold updateWhere
    rw [List.getElem?_map]
  constructor
  · intro h x hx hc hconf
    obtain ⟨m, hm⟩ := List.mem_iff_getElem?.mp hx
    obtain ⟨x', hx', -, hconf'⟩ := h m x hm hconf
    rw [hget, hm, Option.map_some, if_pos hc] at hx'
    rw [← Option.some.inj hx'] at hconf'
    exact hconf'
  · intro h m x hx hconf
    refine ⟨_, by rw [hget, hx, Option.map_some], ?_⟩
    by_cases hc : cond x = true
    · rw [if_pos hc]
      exact ⟨rfl, h x (List.mem_of_getElem? hx) hc hconf⟩
    · rw [if_neg hc]
      exact ⟨rfl, hconf⟩

/-- The next call of job `i` is going to write its doubts about a payment that is confirmed. -/
def Belated (D : Deployment) (S : System) (i : Nat) (c : Choice) : Prop :=
  ∃ txHash n st k x, S.procs[i]? = some (.call (.updateConfirmations txHash n st) k) ∧
    Doubted txHash (callsOf i S.hist) st ∧ c.fault = none ∧ fitsBigint n = true ∧
    x ∈ S.world.onchain ∧ D.collation.eq x.txHash txHash = true ∧ x.status = .confirmed

section
variable (D : Deployment) (w : World) (js : List Job)

/-- **One step.** -/
theorem step_confirmedKept_iff (ys : List (Nat × Choice)) (i : Nat) (c : Choice) :
    ConfirmedKept (System.run D w js ys).world.onchain
        (System.run D w js (ys ++ [(i, c)])).world.onchain ↔
      ¬ Belated D (System.run D w js ys) i c := by
  constructor
  · rintro hkept ⟨txHash, n, st, k, x, hproc, hdoubt, hfault, hfits, hx, heq, hconf⟩
    obtain ⟨-, hrun⟩ := System.step_of_call D w js hproc c
    rw [hrun] at hkept
    have hkept : ConfirmedKept (System.run D w js ys).world.onchain
      (exec D (.updateConfirmations txHash n st) c (System.run D w js ys).world).2.onchain := hkept
    have hok : (setConfirmations D.collation c.fault txHash n st
        (System.run D w js ys).world.onchain).1 = .ok () :=
      (setConfirmations_ok_iff D.collation).mpr ⟨hfault, hfits, x, hx, heq⟩
    rcases setConfirmations_cases D.collation c.fault txHash n st
      (System.run D w js ys).world.onchain with ⟨-, -, he⟩ | ⟨e, he⟩
    · simp only [exec, he] at hkept
      exact hdoubt.ne_confirmed (confirmedKept_updateWhere.mp hkept x hx heq hconf)
    · rw [he] at hok
      cases hok
  · intro hlate
    rcases System.step_call D w js ys i c with h | ⟨j, o, k, hj, hproc, -, h⟩
    · rw [h]
      exact .refl _
    rw [h]
    show ConfirmedKept _ (exec D o c (System.run D w js ys).world).2.onchain
    rcases exec_onchain_cases D o c (System.run D w js ys).world with
      he | ⟨tx, -, -, -, -, he⟩ | ⟨txHash, n, st, rfl, hok, he⟩
    · rw [he]
      exact .refl _
    · rw [he]
      intro m x hx hconf
      rw [List.getElem?_append_left (List.getElem?_eq_some_iff.mp hx).1]
      exact ⟨x, hx, rfl, hconf⟩
    · rw [he, confirmedKept_updateWhere]
      intro x hx heq hconf
      obtain ⟨hfault, hfits, -⟩ := (setConfirmations_ok_iff D.collation).mp hok
      obtain ⟨q, hq, hruns⟩ := System.run_runs D w js hj ys
      cases hproc.symm.trans hq
      rcases job_doubts hruns with hst | hdoubt
      · exact hst
      · exact absurd ⟨txHash, n, st, k, x, hproc, hdoubt, hfault, hfits, hx, heq, hconf⟩ hlate

/-- **A confirmed payment stays confirmed** between any two states of a run, if and only if no
tick of the run writes its doubts about one that is confirmed by then. -/
theorem confirmed_kept_iff (xs : List (Nat × Choice)) :
    (∀ ys ys' zs, xs = ys ++ ys' ++ zs → ConfirmedKept (System.run D w js ys).world.onchain
        (System.run D w js (ys ++ ys')).world.onchain) ↔
      ∀ ys i c zs, xs = ys ++ (i, c) :: zs → ¬ Belated D (System.run D w js ys) i c := by
  have hrefl : ∀ w : World, ConfirmedKept w.onchain w.onchain := fun w => .refl w.onchain
  have htrans : ∀ w w' w'' : World, ConfirmedKept w.onchain w'.onchain →
      ConfirmedKept w'.onchain w''.onchain → ConfirmedKept w.onchain w''.onchain :=
    fun _ _ _ h h' => h.trans h'
  exact System.kept_iff D w js hrefl htrans (step_confirmedKept_iff D w js) xs

end

/-! The reconciler lists a payment, the tracker confirms it, and then the node has no receipt for
the reconciler. -/

/-- The tick of the tracker falls into that of the reconciler. -/
def overlapping : List (Nat × Choice) :=
  steps 1 1 ++ List.replicate 8 (0, .onChain)

def overlappingRun (xs : List (Nat × Choice)) : System :=
  System.run (Deployment.sample .asciiCI) World.onePayment [.track, .recheck] xs

theorem confirmed_then_reorged :
    (overlappingRun overlapping).world.onchain.map OnchainTransaction.status = [.confirmed] ∧
      (overlappingRun (overlapping ++ steps 1 2)).world.onchain.map OnchainTransaction.status =
        [.reorged] ∧
      ¬ ConfirmedKept (overlappingRun overlapping).world.onchain
        (overlappingRun (overlapping ++ steps 1 2)).world.onchain := by
  have hbefore : (overlappingRun overlapping).world.onchain.map OnchainTransaction.status =
      [.confirmed] := by decide +kernel
  have hafter : (overlappingRun (overlapping ++ steps 1 2)).world.onchain.map
      OnchainTransaction.status = [.reorged] := by decide +kernel
  refine ⟨hbefore, hafter, fun h => ?_⟩
  obtain ⟨x, hx, hst⟩ := List.map_eq_singleton_iff.mp hbefore
  obtain ⟨x', hx', hst'⟩ := List.map_eq_singleton_iff.mp hafter
  obtain ⟨y, hy, -, hconf⟩ := h 0 x (by rw [hx]; rfl) hst
  rw [hx'] at hy
  cases hy
  rw [hst'] at hconf
  cases hconf

end EasyPay
