import Mathlib.Data.List.Induction
import EasyPay.Repository.TransactionRepo
import EasyPay.Cache

/-!
# Sliding-window rate limiter

`internal/cache/ratelimiter.go`: each call that is let through adds its time, in nanoseconds, to
a Redis sorted set; members that have left the window are trimmed, and a call is refused when as
many as the limit are left.  The script runs as one step.  Its numbers are those of Lua, to which
`num` rounds: with `id` they are taken as exact.

The member a call adds is its time written out.  Of two calls in the same nanosecond the second
adds nothing, and is not counted.

* `Kept`: the calls let through that are still in the window are counted in the set, at every
  later time, if rounding keeps the order.  `Kept.serve`: one call keeps this, if it adds a member
  whenever it is let through (`Call.Fresh`).
* `allowed_le_limit`: so no window holds more calls than the limit.
* `allowed_same_nanosecond`: three calls in one nanosecond pass a limit of two.
-/

namespace EasyPay

open GoStrings

/-! ## Sorted sets -/

/-- A sorted set has one score for each member. -/
abbrev ZSet := AList fun _ : Str => Int

namespace ZSet

def scores (z : ZSet) : List Int := z.entries.map Sigma.snd

/-- `ZREMRANGEBYSCORE` -/
def remRangeByScore (lo hi : Int) (z : ZSet) : ZSet :=
  ⟨z.entries.filter fun e => ¬ (lo ≤ e.2 ∧ e.2 ≤ hi),
    z.nodupKeys.sublist List.filter_sublist⟩

/-- `ZCARD` -/
def card (z : ZSet) : Nat := z.entries.length

/-- `ZADD`: a member that is there gets the new score. -/
def add (score : Int) (member : Str) (z : ZSet) : ZSet := AList.insert member score z

theorem length_scores (z : ZSet) : z.scores.length = z.card := List.length_map _

/-- What is removed was below the bound. -/
theorem countP_remRangeByScore {lo hi a : Int} (h : hi ≤ a) (z : ZSet) :
    (z.remRangeByScore lo hi).scores.countP (a < ·) = z.scores.countP (a < ·) := by
  unfold scores remRangeByScore
  rw [List.countP_map, List.countP_map, List.countP_filter]
  refine List.countP_congr fun e _ => ?_
  simp only [Function.comp_apply, Bool.and_eq_true, decide_eq_true_eq]
  omega

theorem scores_add {member : Str} {z : ZSet} (h : member ∉ z) (score : Int) :
    (z.add score member).scores = score :: z.scores := by
  unfold scores add
  rw [AList.entries_insert_of_notMem h]
  rfl

end ZSet

namespace RateLimiter

/-! ## The script -/

/-- A sorted set with its expiry, in milliseconds of the server's clock. -/
structure WindowKey where
  members : ZSet
  expiresAt : Int

abbrev Windows := Str → Option WindowKey

/-- The set under a key that has not expired. -/
def liveSet (now : Int) : Option WindowKey → ZSet
  | none => ∅
  | some w => if now / 1000000 > w.expiresAt then ∅ else w.members

theorem liveSet_some (now : Int) (z : ZSet) (expiresAt : Int) :
    liveSet now (some ⟨z, expiresAt⟩) = if now / 1000000 > expiresAt then ∅ else z := rfl

/-- `PEXPIRE`: a time that is not ahead deletes the key. -/
def pexpire (now ms : Int) (z : ZSet) : Option WindowKey :=
  if ms ≤ 0 then none else some ⟨z, now / 1000000 + ms⟩

def ceilMillis (ns : Int) : Int := -(-ns / 1000000)

section
variable (num : Int → Int)

/-- The score up to which members have left the window. -/
def cutoff (now windowNs : Int) : Int := num (num now - num windowNs)

/-- The members that are left in the window. -/
def trimmed (now windowNs : Int) (w : Option WindowKey) : ZSet :=
  (liveSet now w).remRangeByScore 0 (cutoff num now windowNs)

/-- The quotient in `PEXPIRE` is taken as exact, as that of a minute is. -/
def slidingWindowScript (key : Str) (now windowNs limit : Int) (member : Str) (s : Windows) :
    (Int × Int) × Windows :=
  let z := trimmed num now windowNs (s key)
  if (z.card : Int) ≥ num limit then
    ((0, num limit - z.card), Function.update s key ((s key).map fun w => { w with members := z }))
  else
    ((1, num limit - (z.card + 1)),
      Function.update s key (pexpire now (ceilMillis windowNs) (z.add (num now) member)))

end

/-- One call of `Allow`.  When it fails, the script has run or not. -/
structure Call where
  key : Str
  limit : Int
  window : Int
  now : Int
  fault : Option Fault := none
  reached : Bool := false

def rateKey (key : Str) : Str := bytes "rate:" ++ key

section
variable (num : Int → Int)

def allow (c : Call) (s : Windows) : Res (Bool × Int) × Windows :=
  if c.limit ≤ 0 then (.ok (false, 0), s)
  else
    let r := slidingWindowScript num (rateKey c.key) c.now c.window c.limit (formatInt c.now) s
    match c.fault with
    | some f =>
      (.error (.wrap (bytes "ratelimit eval: ") (.new f.msg)), if c.reached then r.2 else s)
    | none => (.ok (r.1.1 = 1, if r.1.2 < 0 then 0 else r.1.2), r.2)

/-- The call is let through. -/
def Call.Allowed (c : Call) (s : Windows) : Prop := ∃ n, (allow num c s).1 = .ok (true, n)

instance (c : Call) (s : Windows) : Decidable (c.Allowed num s) :=
  match h : (allow num c s).1 with
  | .ok (true, n) => .isTrue ⟨n, h⟩
  | .ok (false, n) => .isFalse fun ⟨_, h'⟩ => by cases h.symm.trans h'
  | .error _ => .isFalse fun ⟨_, h'⟩ => by cases h.symm.trans h'

/-- A call that the script lets through adds a member to the set. -/
def Call.Fresh (c : Call) (s : Windows) : Prop :=
  ((trimmed num c.now c.window (s (rateKey c.key))).card : Int) < num c.limit →
    formatInt c.now ∉ trimmed num c.now c.window (s (rateKey c.key))

/-- What a call can do to the sets: nothing, or trim its own, or add to that. -/
theorem allow_cases (c : Call) (s : Windows) :
    (¬ c.Allowed num s ∧ (allow num c s).2 = s) ∨
    (¬ c.Allowed num s ∧ (allow num c s).2 = Function.update s (rateKey c.key)
      ((s (rateKey c.key)).map fun w =>
        { w with members := trimmed num c.now c.window (s (rateKey c.key)) })) ∨
    (((trimmed num c.now c.window (s (rateKey c.key))).card : Int) < num c.limit ∧
      (allow num c s).2 = Function.update s (rateKey c.key) (pexpire c.now (ceilMillis c.window)
        ((trimmed num c.now c.window (s (rateKey c.key))).add (num c.now) (formatInt c.now)))) := by
  unfold Call.Allowed allow
  by_cases hzero : c.limit ≤ 0
  · rw [if_pos hzero]
    exact .inl ⟨by simp, rfl⟩
  rw [if_neg hzero]
  unfold slidingWindowScript
  by_cases hfull : ((trimmed num c.now c.window (s (rateKey c.key))).card : Int) ≥ num c.limit
  · simp only [if_pos hfull]
    cases c.fault with
    | none => exact .inr (.inl ⟨by simp, rfl⟩)
    | some f =>
      cases c.reached with
      | false => exact .inl ⟨by simp, rfl⟩
      | true => exact .inr (.inl ⟨by simp, rfl⟩)
  · simp only [if_neg hfull]
    cases c.fault with
    | none => exact .inr (.inr ⟨by omega, rfl⟩)
    | some f =>
      cases c.reached with
      | false => exact .inl ⟨by simp, rfl⟩
      | true => exact .inr (.inr ⟨by omega, rfl⟩)

end

theorem rateKey_inj {key key' : Str} (h : rateKey key = rateKey key') : key = key' :=
  List.append_cancel_left h

/-- Other sets are left alone. -/
theorem allow_of_ne (num : Int → Int) {c : Call} {k : Str} (hne : k ≠ rateKey c.key) (s : Windows) :
    (allow num c s).2 k = s k := by
  rcases allow_cases num c s with ⟨-, h⟩ | ⟨-, h⟩ | ⟨-, h⟩
  · rw [h]
  · rw [h, Function.update_of_ne hne]
  · rw [h, Function.update_of_ne hne]

theorem allow_other (num : Int → Int) {c : Call} {key : Str} (hkey : c.key ≠ key) (s : Windows) :
    (allow num c s).2 (rateKey key) = s (rateKey key) :=
  allow_of_ne num (fun h => hkey (rateKey_inj h).symm) s

/-! ## Runs -/

/-- The sets, and the calls let through so far. -/
structure Served where
  sets : Windows
  allowed : List Call

section
variable (num : Int → Int)

def Served.serve (s : Served) (c : Call) : Served :=
  { sets := (allow num c s.sets).2
    allowed := if c.Allowed num s.sets then s.allowed ++ [c] else s.allowed }

def served (cs : List Call) : Served := cs.foldl (Served.serve num) ⟨fun _ => none, []⟩

theorem served_concat (cs : List Call) (c : Call) :
    served num (cs ++ [c]) = (served num cs).serve num c := by
  unfold served
  rw [List.foldl_append]
  rfl

/-- The calls for `key` that are in the window at `t`, and by their score as well. -/
def inWindow (key : Str) (W t : Int) (c : Call) : Bool :=
  c.key = key ∧ t - W < c.now ∧ cutoff num t W < num c.now

/-- The calls in the window are counted in the set, at every time from `last` on. -/
structure Kept (key : Str) (W last : Int) (s : Served) : Prop where
  past : ∀ c ∈ s.allowed, c.key = key → c.now ≤ last
  counted : ∀ t, last ≤ t → s.allowed.countP (inWindow num key W t) ≤
    (liveSet t (s.sets (rateKey key))).scores.countP (cutoff num t W < ·)

end

section
variable {num : Int → Int} {key : Str} {W last : Int} {s : Served} {c : Call}

theorem Kept.mono (h : Kept num key W last s) {last' : Int} (hle : last ≤ last') :
    Kept num key W last' s :=
  ⟨fun c hc hkey => Int.le_trans (h.past c hc hkey) hle,
    fun t ht => h.counted t (Int.le_trans hle ht)⟩

/-- No call is in a window that begins later. -/
theorem countP_inWindow_eq_zero {cs : List Call} (h : ∀ c ∈ cs, c.key = key → c.now ≤ last)
    {t : Int} (ht : last ≤ t - W) : cs.countP (inWindow num key W t) = 0 := by
  refine List.countP_eq_zero.mpr fun c hc hin => ?_
  obtain ⟨hkey, hlt, -⟩ := of_decide_eq_true hin
  have := h c hc hkey
  omega

/-- A set that is live later is live now. -/
theorem countP_liveSet_le {now t : Int} (hle : now ≤ t) (w : Option WindowKey) (p : Int → Bool) :
    (liveSet t w).scores.countP p ≤ (liveSet now w).scores.countP p := by
  cases w with
  | none => exact Nat.le_refl _
  | some w =>
    rw [liveSet_some, liveSet_some]
    by_cases hgone : t / 1000000 > w.expiresAt
    · rw [if_pos hgone]
      exact Nat.zero_le _
    · rw [if_neg hgone, if_neg (by omega)]

/-- A key outlives the window of the call that set its expiry. -/
theorem liveSet_pexpire {now t : Int} (hle : now ≤ t) (z : ZSet) :
    liveSet t (pexpire now (ceilMillis W) z) = z ∨ now ≤ t - W := by
  unfold pexpire ceilMillis
  split
  · exact .inr (by omega)
  · rw [liveSet_some]
    split
    · exact .inr (by omega)
    · exact .inl rfl

theorem Served.allowed_serve (num : Int → Int) (s : Served) (c : Call) :
    (s.serve num c).allowed = s.allowed ∨ (s.serve num c).allowed = s.allowed ++ [c] := by
  unfold serve
  simp only
  split
  · exact .inr rfl
  · exact .inl rfl

theorem Served.allowed_of_not {s : Served} {c : Call} (h : ¬ c.Allowed num s.sets) :
    (s.serve num c).allowed = s.allowed := if_neg h

theorem Served.mem_allowed_serve {s : Served} {c d : Call} (h : d ∈ (s.serve num c).allowed) :
    d ∈ s.allowed ∨ d = c := by
  rcases s.allowed_serve num c with heq | heq
  · exact .inl (heq ▸ h)
  · rw [heq] at h
    exact (List.mem_append.mp h).imp id List.mem_singleton.mp

/-- A call for another key. -/
theorem Kept.serve_other (hkey : c.key ≠ key) (h : Kept num key W last s) :
    Kept num key W last (s.serve num c) := by
  have hcalls : ∀ p : Call → Bool, p c = false →
      (s.serve num c).allowed.countP p = s.allowed.countP p := by
    intro p hp
    rcases s.allowed_serve num c with heq | heq
    · rw [heq]
    · rw [heq, List.countP_append, List.countP_singleton, hp]
      rfl
  constructor
  · intro d hd hdkey
    rcases Served.mem_allowed_serve hd with hd | rfl
    · exact h.past d hd hdkey
    · exact absurd hdkey hkey
  · intro t ht
    rw [hcalls _ (by simp [inWindow, hkey])]
    show _ ≤ (liveSet t ((allow num c s.sets).2 _)).scores.countP _
    rw [allow_other num hkey]
    exact h.counted t ht

section
variable (hnum : ∀ {m n : Int}, m ≤ n → num m ≤ num n)
include hnum

theorem cutoff_mono {now t : Int} (hle : now ≤ t) : cutoff num now W ≤ cutoff num t W := by
  have := hnum hle
  exact hnum (by omega)

theorem countP_trimmed {now t : Int} (hle : now ≤ t) (w : Option WindowKey) :
    (trimmed num now W w).scores.countP (cutoff num t W < ·) =
      (liveSet now w).scores.countP (cutoff num t W < ·) :=
  ZSet.countP_remRangeByScore (cutoff_mono hnum hle) _

/-- Trimming loses nothing that is in a later window. -/
theorem countP_liveSet_trimmed {now t : Int} (hle : now ≤ t) (w : Option WindowKey) :
    (liveSet t (w.map fun w' => { w' with members := trimmed num now W w })).scores.countP
        (cutoff num t W < ·) = (liveSet t w).scores.countP (cutoff num t W < ·) := by
  cases w with
  | none => rfl
  | some w =>
    rw [Option.map_some, liveSet_some, liveSet_some]
    by_cases hgone : t / 1000000 > w.expiresAt
    · rw [if_pos hgone, if_pos hgone]
    · rw [if_neg hgone, if_neg hgone, countP_trimmed hnum hle, liveSet_some, if_neg (by omega)]

/-- **One call for the key.** -/
theorem Kept.serve (hkey : c.key = key) (hW : c.window = W) (hfresh : c.Fresh num s.sets)
    (h : Kept num key W c.now s) : Kept num key W c.now (s.serve num c) := by
  subst hkey hW
  have hpast : ∀ d ∈ (s.serve num c).allowed, d.key = c.key → d.now ≤ c.now := by
    intro d hd hdkey
    rcases Served.mem_allowed_serve hd with hd | rfl
    · exact h.past d hd hdkey
    · exact Int.le_refl _
  refine ⟨hpast, fun t ht => ?_⟩
  rcases allow_cases num c s.sets with ⟨hno, hsame⟩ | ⟨hno, htrim⟩ | ⟨hroom, hadd⟩
  · rw [Served.allowed_of_not hno]
    show _ ≤ (liveSet t ((allow num c s.sets).2 _)).scores.countP _
    rw [hsame]
    exact h.counted t ht
  · rw [Served.allowed_of_not hno]
    show _ ≤ (liveSet t ((allow num c s.sets).2 _)).scores.countP _
    rw [htrim, Function.update_self, countP_liveSet_trimmed hnum ht]
    exact h.counted t ht
  · show _ ≤ (liveSet t ((allow num c s.sets).2 _)).scores.countP _
    rw [hadd, Function.update_self]
    rcases liveSet_pexpire ht ((trimmed num c.now c.window (s.sets (rateKey c.key))).add (num c.now)
      (formatInt c.now)) with hlive | hpassed
    · -- one more member for one more call
      rw [hlive, ZSet.scores_add (hfresh hroom), List.countP_cons, countP_trimmed hnum ht]
      have hold := (h.counted t ht).trans (countP_liveSet_le ht _ _)
      rcases s.allowed_serve num c with heq | heq
      · rw [heq]
        omega
      · rw [heq, List.countP_append, List.countP_singleton]
        by_cases hin : inWindow num c.key c.window t c = true
        · rw [if_pos hin, if_pos (decide_eq_true (of_decide_eq_true hin).2.2)]
          omega
        · rw [if_neg hin]
          omega
    · -- the key is gone, and every call has left the window
      rw [countP_inWindow_eq_zero hpast hpassed]
      exact Nat.zero_le _

/-- **A run**, by its calls. -/
theorem kept_served {cs : List Call}
    (hwindow : ∀ c ∈ cs, c.key = key → c.window = W)
    (horder : cs.Pairwise fun c d => c.now ≤ d.now)
    (hfresh : ∀ ds d, ds ++ [d] <+: cs → d.key = key → d.Fresh num (served num ds).sets)
    (hlast : ∀ c ∈ cs, c.now ≤ last) : Kept num key W last (served num cs) := by
  induction cs using List.reverseRecOn generalizing last with
  | nil => exact ⟨fun c hc => (List.not_mem_nil hc).elim, fun t _ => Nat.le_refl _⟩
  | append_singleton cs c ih =>
    obtain ⟨hcs, -, hbefore⟩ := List.pairwise_append.mp horder
    have hkept : Kept num key W c.now (served num cs) := by
      refine ih (fun d hd => hwindow d (List.mem_append_left _ hd)) hcs ?_ ?_
      · exact fun ds d hpre => hfresh ds d (hpre.trans (List.prefix_append _ _))
      · exact fun d hd => hbefore d hd c List.mem_cons_self
    rw [served_concat]
    refine Kept.mono ?_ (hlast c List.mem_concat_self)
    by_cases hkey : c.key = key
    · exact hkept.serve hnum hkey (hwindow c List.mem_concat_self hkey)
        (hfresh cs c List.prefix_rfl hkey)
    · exact hkept.serve_other hkey

/-- A call that is let through finds room in the window that ends with it. -/
theorem countP_inWindow_lt {cs : List Call}
    (hwindow : ∀ d ∈ cs, d.key = c.key → d.window = c.window)
    (horder : (cs ++ [c]).Pairwise fun d d' => d.now ≤ d'.now)
    (hfresh : ∀ ds d, ds ++ [d] <+: cs → d.key = c.key → d.Fresh num (served num ds).sets)
    (hallowed : c.Allowed num (served num cs).sets) :
    (((served num cs).allowed.countP (inWindow num c.key c.window c.now) : Nat) : Int) <
      num c.limit := by
  obtain ⟨hcs, -, hbefore⟩ := List.pairwise_append.mp horder
  have hkept : Kept num c.key c.window c.now (served num cs) :=
    kept_served hnum hwindow hcs hfresh fun d hd => hbefore d hd c List.mem_cons_self
  have hroom : ((trimmed num c.now c.window ((served num cs).sets (rateKey c.key))).card : Int) <
      num c.limit := by
    rcases allow_cases num c (served num cs).sets with ⟨hno, -⟩ | ⟨hno, -⟩ | ⟨hroom, -⟩
    · exact absurd hallowed hno
    · exact absurd hallowed hno
    · exact hroom
  have hcounted := hkept.counted c.now (Int.le_refl _)
  rw [← countP_trimmed hnum (Int.le_refl _)] at hcounted
  have hcard := (hcounted.trans List.countP_le_length).trans_eq (ZSet.length_scores _)
  omega

end

end

/-! ## When calls add a member -/

section
variable {num : Int → Int} {key : Str} {t : Int} {m : Str}

theorem mem_of_mem_liveSet {z : ZSet} {expiresAt : Int} (h : m ∈ liveSet t (some ⟨z, expiresAt⟩)) :
    m ∈ z := by
  rw [liveSet_some] at h
  split at h
  · exact absurd h (AList.notMem_empty m)
  · exact h

theorem mem_of_mem_trimmed {windowNs : Int} {w : Option WindowKey}
    (h : m ∈ trimmed num t windowNs w) : m ∈ liveSet t w :=
  (List.filter_sublist.map Sigma.fst).subset h

/-- A member was there before a call, or is the time of the call. -/
theorem mem_allow {c : Call} {s : Windows} (h : m ∈ liveSet t ((allow num c s).2 (rateKey key))) :
    (∃ t', m ∈ liveSet t' (s (rateKey key))) ∨ (c.key = key ∧ m = formatInt c.now) := by
  by_cases hkey : c.key = key
  · subst hkey
    rcases allow_cases num c s with ⟨-, heq⟩ | ⟨-, heq⟩ | ⟨-, heq⟩
    · rw [heq] at h
      exact .inl ⟨t, h⟩
    · rw [heq, Function.update_self] at h
      cases hw : s (rateKey c.key) with
      | none =>
        rw [hw] at h
        exact absurd h (AList.notMem_empty m)
      | some w =>
        rw [hw] at h
        exact .inl ⟨c.now, mem_of_mem_trimmed (mem_of_mem_liveSet h)⟩
    · rw [heq, Function.update_self] at h
      unfold pexpire at h
      split at h
      · exact absurd h (AList.notMem_empty m)
      · rcases (AList.mem_insert _).mp (mem_of_mem_liveSet h) with rfl | hmem
        · exact .inr ⟨rfl, rfl⟩
        · exact .inl ⟨c.now, mem_of_mem_trimmed hmem⟩
  · rw [allow_other num hkey] at h
    exact .inl ⟨t, h⟩

/-- The members of a set are the times of calls for its key. -/
theorem mem_served {cs : List Call} (h : m ∈ liveSet t ((served num cs).sets (rateKey key))) :
    ∃ c ∈ cs, c.key = key ∧ m = formatInt c.now := by
  induction cs using List.reverseRecOn generalizing t with
  | nil => exact absurd h (AList.notMem_empty m)
  | append_singleton cs c ih =>
    rw [served_concat] at h
    rcases mem_allow h with ⟨t', hmem⟩ | ⟨hkey, hm⟩
    · obtain ⟨d, hd, hdm⟩ := ih hmem
      exact ⟨d, List.mem_append_left _ hd, hdm⟩
    · exact ⟨c, List.mem_concat_self, hkey, hm⟩

end

/-- Calls at different times do. -/
theorem fresh_of_distinct {num : Int → Int} {cs : List Call}
    (h : cs.Pairwise fun c d => c.key = d.key → c.now ≠ d.now) {ds : List Call} {d : Call}
    (hpre : ds ++ [d] <+: cs) : d.Fresh num (served num ds).sets := by
  intro _ hmem
  obtain ⟨c, hc, hkey, hm⟩ := mem_served (mem_of_mem_trimmed hmem)
  have hapart := (List.pairwise_append.mp (h.sublist hpre.sublist)).2.2
  exact hapart c hc d List.mem_cons_self hkey (formatInt_inj hm).symm

/-- Calls under a limit of one do: the set is empty when one is let through. -/
theorem fresh_of_limit_one {num : Int → Int} {c : Call} (h : num c.limit = 1) (s : Windows) :
    c.Fresh num s := by
  intro hroom hmem
  have hpos := List.length_pos_of_mem hmem
  rw [AList.keys, List.keys, List.length_map] at hpos
  unfold ZSet.card at hroom
  omega

/-! ## The limit -/

/-- **No window holds more calls than the limit**, in a run whose calls add a member whenever they
are let through. -/
theorem allowed_le_limit (cs : List Call) (c : Call)
    (hwindow : ∀ d ∈ cs, d.key = c.key → d.window = c.window)
    (horder : (cs ++ [c]).Pairwise fun d d' => d.now ≤ d'.now)
    (hfresh : ∀ ds d, ds ++ [d] <+: cs → d.key = c.key → d.Fresh id (served id ds).sets)
    (hallowed : c.Allowed id (served id cs).sets) :
    ((served id (cs ++ [c])).allowed.countP fun d =>
      d.key = c.key ∧ c.now - c.window < d.now ∧ d.now ≤ c.now : Nat) ≤ c.limit := by
  have hroom : (((served id cs).allowed.countP (inWindow id c.key c.window c.now) : Nat) : Int) <
      c.limit := countP_inWindow_lt (fun h => h) hwindow horder hfresh hallowed
  have hfewer : (served id (cs ++ [c])).allowed.countP (fun d =>
      d.key = c.key ∧ c.now - c.window < d.now ∧ d.now ≤ c.now) ≤
      (served id (cs ++ [c])).allowed.countP (inWindow id c.key c.window c.now) := by
    refine List.countP_mono_left fun d _ hd => ?_
    obtain ⟨hkey, hlt, -⟩ := of_decide_eq_true hd
    exact decide_eq_true ⟨hkey, hlt, hlt⟩
  have hone : (served id (cs ++ [c])).allowed.countP (inWindow id c.key c.window c.now) ≤
      (served id cs).allowed.countP (inWindow id c.key c.window c.now) + 1 := by
    rw [served_concat]
    rcases (served id cs).allowed_serve id c with heq | heq
    · rw [heq]
      exact Nat.le_succ _
    · rw [heq, List.countP_append]
      exact Nat.add_le_add_left List.countP_le_length _
  omega

/-- A call under a limit of two in a minute. -/
def Call.sample (now : Int) : Call :=
  { key := bytes "m1", limit := 2, window := 60000000000, now := now }

theorem allowed_one_second_apart :
    ((served id [.sample 1000000000, .sample 2000000000]).allowed.countP fun d =>
      d.key = bytes "m1" ∧ 2000000000 - 60000000000 < d.now ∧ d.now ≤ 2000000000 : Nat) ≤ (2 : Int) :=
  allowed_le_limit [.sample 1000000000] (.sample 2000000000) (by simp [Call.sample])
    (by simp [Call.sample]) (fun _ _ hpre _ => fresh_of_distinct (List.pairwise_singleton _ _) hpre)
    (by decide +kernel)

/-! Three calls in one nanosecond are let through. -/

theorem allowed_same_nanosecond :
    (Call.sample 1700000000000000000).Allowed id (served id (List.replicate 2
      (Call.sample 1700000000000000000))).sets ∧
    (served id (List.replicate 3 (Call.sample 1700000000000000000))).allowed.countP (fun d =>
      d.key = bytes "m1" ∧ 1700000000000000000 - 60000000000 < d.now ∧
        d.now ≤ 1700000000000000000) = 3 := by
  constructor
  · decide +kernel
  · decide +kernel

end RateLimiter

end EasyPay
