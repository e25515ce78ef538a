import Mathlib.Data.Int.Order.Basic
import Mathlib.Data.List.Count
import Mathlib.Data.List.Perm.Basic

/-!
# Circuit breakers

A circuit breaker is closed, open or half-open, and counts what becomes of the requests it lets through.
The counts are cleared when the state changes, and in the closed state from interval to interval.
Requests overlap, so one may be answered after the counts it was in are cleared; its answer then counts
for nothing.

`Machine` is a breaker of any make, and `Documented` is what the documentation of `gobreaker`, and of the
pattern it implements, says of one.  `Traffic` is a breaker with the requests in flight and a log of what
became of each, under a clock that does not run backwards.  All that follows is about a `Machine` that is
`Documented`; `reference` is one.

* `Inv`: the counts are those of the log, since they were last cleared.
* `Stepped`: what an event can do; the rest goes by its cases.
* `Stepped.opens`: a closed breaker opens when the counts of the log say so.
* `run_open`: an open one lets nothing through until its timeout is over.
* `Stepped.exists_flying`: a half-open one turns requests away only while it waits for an answer.
* `Stepped.closes`: and closes when it has let all its probes through and all have succeeded.
-/

namespace CircuitBreaker

inductive State
  | stateClosed
  | stateHalfOpen
  | stateOpen
  deriving DecidableEq, Repr

structure Counts where
  requests : Nat := 0
  totalSuccesses : Nat := 0
  totalFailures : Nat := 0
  consecutiveSuccesses : Nat := 0
  consecutiveFailures : Nat := 0
  deriving DecidableEq, Repr

namespace Counts

def onRequest (c : Counts) : Counts := { c with requests := c.requests + 1 }

def onSuccess (c : Counts) : Counts :=
  { c with
    totalSuccesses := c.totalSuccesses + 1
    consecutiveSuccesses := c.consecutiveSuccesses + 1
    consecutiveFailures := 0 }

def onFailure (c : Counts) : Counts :=
  { c with
    totalFailures := c.totalFailures + 1
    consecutiveFailures := c.consecutiveFailures + 1
    consecutiveSuccesses := 0 }

end Counts

/-- The settings, with the defaults filled in; `R` is what a request returns. -/
structure Settings (R : Type) where
  maxRequests : Nat
  interval : Nat
  timeout : Nat
  readyToTrip : Counts → Bool
  isSuccessful : R → Bool
  maxRequests_pos : 0 < maxRequests
  /-- With no interval the counts of the closed state would never be cleared. -/
  interval_pos : 0 < interval

inductive Refusal
  | errOpenState
  | errTooManyRequests
  deriving DecidableEq, Repr

/-! ## What is seen of a breaker -/

structure View where
  state : State
  /-- How often the counts have been cleared. -/
  generation : Nat
  counts : Counts
  /-- When they were cleared last. -/
  since : Int
  deriving DecidableEq, Repr

namespace View

/-- The counts are cleared, for a state that may be a new one. -/
def cleared (st : State) (now : Int) (v : View) : View := ⟨st, v.generation + 1, {}, now⟩

variable {R : Type} (S : Settings R)

/-- The interval of the closed state, or the timeout of the open one, is over. -/
def expired (now : Int) (v : View) : Bool :=
  match v.state with
  | .stateClosed => v.since + S.interval < now
  | .stateOpen => v.since + S.timeout < now
  | .stateHalfOpen => false

/-- What the time does to a breaker. -/
def current (now : Int) (v : View) : View :=
  match v.state with
  | .stateClosed => if v.expired S now then v.cleared .stateClosed now else v
  | .stateOpen => if v.expired S now then v.cleared .stateHalfOpen now else v
  | .stateHalfOpen => v

/-- What looking at the clock does. -/
inductive Looked (now : Int) (v : View) : View → Prop
  | same : v.expired S now = false → Looked now v v
  | renewed : v.state = .stateClosed → v.expired S now = true →
      Looked now v (v.cleared .stateClosed now)
  | halfOpened : v.state = .stateOpen → v.expired S now = true →
      Looked now v (v.cleared .stateHalfOpen now)

theorem looked (now : Int) (v : View) : Looked S now v (v.current S now) := by
  unfold current
  split
  · next hstate =>
    split
    · next hexp => exact .renewed hstate hexp
    · next hexp => exact .same (Bool.eq_false_iff.mpr hexp)
  · next hstate =>
    split
    · next hexp => exact .halfOpened hstate hexp
    · next hexp => exact .same (Bool.eq_false_iff.mpr hexp)
  · next hstate =>
    refine .same ?_
    unfold expired
    rw [hstate]

variable {S} {now : Int} {v v' : View}

theorem not_expired_closed (hclosed : v.state = .stateClosed) :
    v.expired S now = false ↔ now ≤ v.since + S.interval := by
  unfold expired
  rw [hclosed]
  simp

theorem not_expired_open (hopen : v.state = .stateOpen) :
    v.expired S now = false ↔ now ≤ v.since + S.timeout := by
  unfold expired
  rw [hopen]
  simp

section
variable (h : Looked S now v v')
include h

/-- A closed breaker that has looked at the clock is in its interval. -/
theorem Looked.le_interval (hclosed : v'.state = .stateClosed) : now ≤ v'.since + S.interval := by
  cases h with
  | same hexp => exact (not_expired_closed hclosed).mp hexp
  | renewed _ _ =>
    show now ≤ now + (S.interval : Int)
    omega
  | halfOpened _ _ => cases hclosed

theorem Looked.closed (hclosed : v.state = .stateClosed) : v'.state = .stateClosed := by
  cases h with
  | same _ => exact hclosed
  | renewed _ _ => rfl
  | halfOpened hopen _ => cases hclosed.symm.trans hopen

theorem Looked.eq_of_not_expired (hexp : v.expired S now = false) : v' = v := by
  cases h with
  | same _ => rfl
  | renewed _ hexp' => cases hexp.symm.trans hexp'
  | halfOpened _ hexp' => cases hexp.symm.trans hexp'

theorem Looked.eq_of_halfOpen (hhalf : v.state = .stateHalfOpen) : v' = v := by
  cases h with
  | same _ => rfl
  | renewed hclosed _ => cases hhalf.symm.trans hclosed
  | halfOpened hopen _ => cases hhalf.symm.trans hopen

end

end View

/-! ## Breakers -/

/-- A breaker of any make: it is asked before a request, and told of its result with what it gave out
then, the number of the generation. -/
structure Machine (R : Type) where
  B : Type
  new : (now : Int) → B
  before : (now : Int) → B → Except Refusal Nat × B
  after : (now : Int) → (generation : Nat) → R → B → B
  view : B → View

/-- What is documented of a breaker with these settings. -/
structure Documented {R : Type} (S : Settings R) (M : Machine R) : Prop where
  /-- It starts closed, with its counts at zero. -/
  new : ∀ now, ∃ g, M.view (M.new now) = ⟨.stateClosed, g, {}, now⟩
  /-- `ErrOpenState` is returned when it is open. -/
  errOpenState : ∀ {now b v}, (M.view b).current S now = v → v.state = .stateOpen →
    ∃ b', M.before now b = (.error .errOpenState, b') ∧ M.view b' = v
  /-- `ErrTooManyRequests` is returned when it is half-open with `MaxRequests` requests. -/
  errTooManyRequests : ∀ {now b v}, (M.view b).current S now = v → v.state = .stateHalfOpen →
    S.maxRequests ≤ v.counts.requests →
    ∃ b', M.before now b = (.error .errTooManyRequests, b') ∧ M.view b' = v
  /-- Other requests are accepted, and counted. -/
  accepts : ∀ {now b v}, (M.view b).current S now = v → v.state ≠ .stateOpen →
    ¬(v.state = .stateHalfOpen ∧ S.maxRequests ≤ v.counts.requests) →
    ∃ b', M.before now b = (.ok v.generation, b') ∧
      M.view b' = { v with counts := v.counts.onRequest }
  /-- The counts ignore the results of requests that were sent before they were cleared. -/
  ignores : ∀ {now g r b v}, (M.view b).current S now = v → v.generation ≠ g →
    M.view (M.after now g r b) = v
  /-- In the closed state a result is counted, as `IsSuccessful` says. -/
  success : ∀ {now r b v}, (M.view b).current S now = v → v.state = .stateClosed →
    S.isSuccessful r = true →
    M.view (M.after now v.generation r b) = { v with counts := v.counts.onSuccess }
  failure : ∀ {now r b v}, (M.view b).current S now = v → v.state = .stateClosed →
    S.isSuccessful r = false → S.readyToTrip v.counts.onFailure = false →
    M.view (M.after now v.generation r b) = { v with counts := v.counts.onFailure }
  /-- After a failure in the closed state it is placed into the open one if `ReadyToTrip` says so. -/
  trips : ∀ {now r b v}, (M.view b).current S now = v → v.state = .stateClosed →
    S.isSuccessful r = false → S.readyToTrip v.counts.onFailure = true →
    M.view (M.after now v.generation r b) = v.cleared .stateOpen now
  /-- In the half-open state a failure opens it again. -/
  probeFails : ∀ {now r b v}, (M.view b).current S now = v → v.state = .stateHalfOpen →
    S.isSuccessful r = false → M.view (M.after now v.generation r b) = v.cleared .stateOpen now
  /-- Successes close it, once there are `MaxRequests` of them in a row. -/
  probeSucceeds : ∀ {now r b v}, (M.view b).current S now = v → v.state = .stateHalfOpen →
    S.isSuccessful r = true → v.counts.consecutiveSuccesses + 1 < S.maxRequests →
    M.view (M.after now v.generation r b) = { v with counts := v.counts.onSuccess }
  recovers : ∀ {now r b v}, (M.view b).current S now = v → v.state = .stateHalfOpen →
    S.isSuccessful r = true → S.maxRequests ≤ v.counts.consecutiveSuccesses + 1 →
    M.view (M.after now v.generation r b) = v.cleared .stateClosed now

/-! ## Traffic -/

/-- A request comes in, or one in flight returns, some time after the event before it. -/
inductive Event (I R : Type)
  | call (id : I) (wait : Nat)
  | answer (id : I) (wait : Nat) (result : R)
  deriving DecidableEq, Repr

def Event.mapId {I J R : Type} (f : I → J) : Event I R → Event J R
  | call id wait => call (f id) wait
  | answer id wait r => answer (f id) wait r

/-- What happened to a request.  It is a probe if the breaker was half-open. -/
inductive Entry (I R : Type)
  | admitted (id : I) (generation : Nat) (probe : Bool) (time : Int)
  | refused (id : I) (reason : Refusal) (time : Int)
  | answered (id : I) (generation : Nat) (result : R) (time : Int)
  deriving DecidableEq, Repr

namespace Entry

variable {I R : Type}

def time : Entry I R → Int
  | admitted _ _ _ time | refused _ _ time | answered _ _ _ time => time

/-- A request let through in generation `g`. -/
def isAdmitted (g : Nat) : Entry I R → Bool
  | admitted _ g' _ _ => g' == g
  | _ => false

/-- A request of generation `g` whose result is of the given kind. -/
def isAnswered (p : R → Bool) (g : Nat) : Entry I R → Bool
  | answered _ g' r _ => g' == g && p r
  | _ => false

def isProbe (g : Nat) : Entry I R → Bool
  | admitted _ g' probe _ => g' == g && probe
  | _ => false

end Entry

/-- The breaker among its requests; the log has the latest entry first. -/
structure Traffic (B I R : Type) where
  now : Int
  breaker : B
  flying : List (I × Nat)
  log : List (Entry I R)
  deriving DecidableEq, Repr

namespace Traffic

section
variable {I R : Type} [DecidableEq I] (M : Machine R)

def start (now : Int) : Traffic M.B I R := ⟨now, M.new now, [], []⟩

def step (t : Traffic M.B I R) : Event I R → Traffic M.B I R
  | .call id wait =>
    let now := t.now + wait
    match M.before now t.breaker with
    | (.error reason, b) => ⟨now, b, t.flying, .refused id reason now :: t.log⟩
    | (.ok g, b) =>
      ⟨now, b, (id, g) :: t.flying,
        .admitted id g ((M.view b).state == .stateHalfOpen) now :: t.log⟩
  | .answer id wait r =>
    let now := t.now + wait
    match t.flying.find? fun c => c.1 = id with
    | none => { t with now := now }
    | some c =>
      ⟨now, M.after now c.2 r t.breaker, t.flying.erase c, .answered id c.2 r now :: t.log⟩

def run (t : Traffic M.B I R) (es : List (Event I R)) : Traffic M.B I R := es.foldl (step M) t

theorem run_append (t : Traffic M.B I R) (es es' : List (Event I R)) :
    run M t (es ++ es') = run M (run M t es) es' := List.foldl_append

/-- What is seen of the traffic. -/
def seen (t : Traffic M.B I R) : Traffic View I R := ⟨t.now, M.view t.breaker, t.flying, t.log⟩

end

/-! ## The invariant -/

section
variable {I R : Type} (S : Settings R)

def admittedIn (g : Nat) (log : List (Entry I R)) : Nat := log.countP (Entry.isAdmitted g)

def succeededIn (g : Nat) (log : List (Entry I R)) : Nat :=
  log.countP (Entry.isAnswered S.isSuccessful g)

def failedIn (g : Nat) (log : List (Entry I R)) : Nat :=
  log.countP (Entry.isAnswered (fun r => !S.isSuccessful r) g)

def flyingIn (g : Nat) (flying : List (I × Nat)) : Nat := flying.countP fun c => c.2 == g

/-- What the log and the requests in flight may have to do with generation `g`. -/
structure Hist (g : Nat) (now : Int) (flying : List (I × Nat)) (log : List (Entry I R)) : Prop where
  flying_le : ∀ c ∈ flying, c.2 ≤ g
  admitted_le : ∀ g', g < g' → admittedIn g' log = 0
  succeeded_le : ∀ g', g < g' → succeededIn S g' log = 0
  failed_le : ∀ g', g < g' → failedIn S g' log = 0
  time_le : ∀ e ∈ log, e.time ≤ now
  probes : ∀ e ∈ log, ∀ g', e.isProbe g' = true → admittedIn g' log ≤ S.maxRequests

/-- A failure came back at that time. -/
def FailedAt (time : Int) (log : List (Entry I R)) : Prop :=
  ∃ id g r, Entry.answered id g r time ∈ log ∧ S.isSuccessful r = false

/-- Where the breaker stands, by its state. -/
inductive Stands (b : View) (now : Int) (log : List (Entry I R)) : Prop
  | closed (hstate : b.state = .stateClosed) (hsince : b.since ≤ now)
      (hwindow : ∀ e ∈ log, e.isAdmitted b.generation = true →
        b.since ≤ e.time ∧ e.time ≤ b.since + S.interval)
      (hprobe : ∀ e ∈ log, e.isProbe b.generation = false)
  | open (hstate : b.state = .stateOpen) (hcounts : b.counts = {})
      (htrip : FailedAt S b.since log)
  | halfOpen (hstate : b.state = .stateHalfOpen) (hfailed : b.counts.totalFailures = 0)
      (hrow : b.counts.consecutiveSuccesses = b.counts.totalSuccesses)
      (hrequests : b.counts.requests ≤ S.maxRequests)
      (hopen : b.counts.totalSuccesses < S.maxRequests)

structure Inv (t : Traffic View I R) : Prop extends
    Hist S t.breaker.generation t.now t.flying t.log where
  requests : t.breaker.counts.requests = admittedIn t.breaker.generation t.log
  successes : t.breaker.counts.totalSuccesses = succeededIn S t.breaker.generation t.log
  failures : t.breaker.counts.totalFailures = failedIn S t.breaker.generation t.log
  balance : t.breaker.counts.requests = t.breaker.counts.totalSuccesses +
    t.breaker.counts.totalFailures + flyingIn t.breaker.generation t.flying
  stands : Stands S t.breaker t.now t.log

/-! ### Counting -/

variable {S}
variable {g : Nat} {now : Int} {flying : List (I × Nat)} {log : List (Entry I R)}

theorem admittedIn_cons_admitted (g g' : Nat) (id : I) (probe : Bool) (time : Int)
    (log : List (Entry I R)) :
    admittedIn g (.admitted id g' probe time :: log) =
      admittedIn g log + if g' = g then 1 else 0 := by
  simp [admittedIn, List.countP_cons, Entry.isAdmitted]

theorem succeededIn_cons_answered (g g' : Nat) (id : I) (r : R) (time : Int)
    (log : List (Entry I R)) :
    succeededIn S g (.answered id g' r time :: log) =
      succeededIn S g log + if g' = g ∧ S.isSuccessful r = true then 1 else 0 := by
  simp [succeededIn, List.countP_cons, Entry.isAnswered]

theorem failedIn_cons_answered (g g' : Nat) (id : I) (r : R) (time : Int)
    (log : List (Entry I R)) :
    failedIn S g (.answered id g' r time :: log) =
      failedIn S g log + if g' = g ∧ S.isSuccessful r = false then 1 else 0 := by
  simp [failedIn, List.countP_cons, Entry.isAnswered]

/-- An entry of another kind does not count. -/
theorem admittedIn_cons_answered (g g' : Nat) (id : I) (r : R) (time : Int)
    (log : List (Entry I R)) :
    admittedIn g (.answered id g' r time :: log) = admittedIn g log := by
  simp [admittedIn, Entry.isAdmitted]

theorem succeededIn_cons_admitted (g g' : Nat) (id : I) (probe : Bool) (time : Int)
    (log : List (Entry I R)) :
    succeededIn S g (.admitted id g' probe time :: log) = succeededIn S g log := by
  simp [succeededIn, Entry.isAnswered]

theorem failedIn_cons_admitted (g g' : Nat) (id : I) (probe : Bool) (time : Int)
    (log : List (Entry I R)) :
    failedIn S g (.admitted id g' probe time :: log) = failedIn S g log := by
  simp [failedIn, Entry.isAnswered]

theorem flyingIn_cons (g : Nat) (c : I × Nat) (flying : List (I × Nat)) :
    flyingIn g (c :: flying) = flyingIn g flying + if c.2 = g then 1 else 0 := by
  simp [flyingIn, List.countP_cons]

theorem flyingIn_erase [DecidableEq I] (g : Nat) {c : I × Nat} (hc : c ∈ flying) :
    flyingIn g flying = flyingIn g (flying.erase c) + if c.2 = g then 1 else 0 := by
  rw [← flyingIn_cons]
  exact (List.perm_cons_erase hc).countP_eq _

theorem exists_flying (h : 0 < flyingIn g flying) : ∃ id, (id, g) ∈ flying := by
  obtain ⟨⟨id, g'⟩, hmem, hg⟩ := List.countP_pos_iff.mp h
  cases eq_of_beq hg
  exact ⟨id, hmem⟩

theorem Entry.isAdmitted_of_isProbe {e : Entry I R} (h : e.isProbe g = true) :
    e.isAdmitted g = true := by
  cases e with
  | admitted id g' probe time =>
    simp only [Entry.isProbe, Bool.and_eq_true] at h
    exact h.1
  | refused id reason time => cases h
  | answered id g' r time => cases h

theorem FailedAt.cons {time : Int} (h : FailedAt S time log) {e : Entry I R} :
    FailedAt S time (e :: log) := by
  obtain ⟨id, g, r, hmem, hr⟩ := h
  exact ⟨id, g, r, List.mem_cons_of_mem _ hmem, hr⟩

/-! ### What each event keeps -/

namespace Hist

theorem mono (h : Hist S g now flying log) {now' : Int} (hle : now ≤ now') :
    Hist S g now' flying log :=
  { h with time_le := fun e he => Int.le_trans (h.time_le e he) hle }

/-- A generation later. -/
theorem succ (h : Hist S g now flying log) : Hist S (g + 1) now flying log :=
  { flying_le := fun c hc => Nat.le_succ_of_le (h.flying_le c hc)
    admitted_le := fun g' hg => h.admitted_le g' (Nat.lt_of_succ_lt hg)
    succeeded_le := fun g' hg => h.succeeded_le g' (Nat.lt_of_succ_lt hg)
    failed_le := fun g' hg => h.failed_le g' (Nat.lt_of_succ_lt hg)
    time_le := h.time_le
    probes := h.probes }

theorem notMem_admitted (h : Hist S g now flying log) {g' : Nat} (hg : g < g') {e : Entry I R}
    (he : e ∈ log) : e.isAdmitted g' = false :=
  Bool.eq_false_iff.mpr (List.countP_eq_zero.mp (h.admitted_le g' hg) e he)

theorem notMem_probe (h : Hist S g now flying log) {g' : Nat} (hg : g < g') {e : Entry I R}
    (he : e ∈ log) : e.isProbe g' = false := by
  rw [Bool.eq_false_iff]
  intro hprobe
  have hadm := Entry.isAdmitted_of_isProbe hprobe
  rw [h.notMem_admitted hg he] at hadm
  cases hadm

theorem flyingIn_eq_zero (h : Hist S g now flying log) {g' : Nat} (hg : g < g') :
    flyingIn g' flying = 0 := by
  refine List.countP_eq_zero.mpr fun c hc heq => ?_
  have hle := h.flying_le c hc
  rw [eq_of_beq heq] at hle
  exact absurd hg (Nat.not_lt.mpr hle)

theorem refused (h : Hist S g now flying log) (id : I) (reason : Refusal) :
    Hist S g now flying (.refused id reason now :: log) :=
  { flying_le := h.flying_le
    admitted_le := h.admitted_le
    succeeded_le := h.succeeded_le
    failed_le := h.failed_le
    time_le := List.forall_mem_cons.mpr ⟨le_rfl, h.time_le⟩
    probes := List.forall_mem_cons.mpr ⟨fun _ hp => (by cases hp), h.probes⟩ }

theorem answered [DecidableEq I] (h : Hist S g now flying log) {c : I × Nat} (hc : c ∈ flying)
    (id : I) (r : R) : Hist S g now (flying.erase c) (.answered id c.2 r now :: log) where
  flying_le c' hc' := h.flying_le c' (List.mem_of_mem_erase hc')
  admitted_le g' hg := by rw [admittedIn_cons_answered, h.admitted_le g' hg]
  succeeded_le g' hg := by
    have hne : c.2 ≠ g' := Nat.ne_of_lt (Nat.lt_of_le_of_lt (h.flying_le c hc) hg)
    rw [succeededIn_cons_answered, h.succeeded_le g' hg, if_neg fun h => hne h.1]
  failed_le g' hg := by
    have hne : c.2 ≠ g' := Nat.ne_of_lt (Nat.lt_of_le_of_lt (h.flying_le c hc) hg)
    rw [failedIn_cons_answered, h.failed_le g' hg, if_neg fun h => hne h.1]
  time_le := List.forall_mem_cons.mpr ⟨le_rfl, h.time_le⟩
  probes := by
    refine List.forall_mem_cons.mpr ⟨fun _ hp => (by cases hp), fun e he g' hp => ?_⟩
    rw [admittedIn_cons_answered]
    exact h.probes e he g' hp

/-- Of a generation with probes no more than `maxRequests` are let through. -/
theorem admitted (h : Hist S g now flying log) (id : I) {probe : Bool}
    (hprobe : probe = true ∨ (∃ e ∈ log, e.isProbe g = true) → admittedIn g log < S.maxRequests) :
    Hist S g now ((id, g) :: flying) (.admitted id g probe now :: log) where
  flying_le := List.forall_mem_cons.mpr ⟨Nat.le_refl g, h.flying_le⟩
  admitted_le g' hg := by
    rw [admittedIn_cons_admitted, h.admitted_le g' hg, if_neg (Nat.ne_of_lt hg)]
  succeeded_le g' hg := by rw [succeededIn_cons_admitted, h.succeeded_le g' hg]
  failed_le g' hg := by rw [failedIn_cons_admitted, h.failed_le g' hg]
  time_le := List.forall_mem_cons.mpr ⟨le_rfl, h.time_le⟩
  probes := by
    have hown : ∀ g', (g = g' → admittedIn g log < S.maxRequests) →
        (g ≠ g' → admittedIn g' log ≤ S.maxRequests) →
        admittedIn g' (.admitted id g probe now :: log) ≤ S.maxRequests := by
      intro g' heq hne
      rw [admittedIn_cons_admitted]
      split
      · next hg =>
        cases hg
        exact heq rfl
      · next hg => exact hne hg
    refine List.forall_mem_cons.mpr ⟨fun g' hp => ?_, fun e he g' hp => ?_⟩
    · simp only [Entry.isProbe, Bool.and_eq_true, beq_iff_eq] at hp
      exact hown g' (fun _ => hprobe (.inl hp.2)) fun hne => absurd hp.1 hne
    · refine hown g' (fun heq => hprobe (.inr ⟨e, he, ?_⟩)) fun _ => h.probes e he g' hp
      rw [heq]
      exact hp

end Hist

namespace Inv

/-- A new generation starts from nothing, whatever the state it is for. -/
theorem renew {b : View} (h : Hist S b.generation now flying log) (st : State)
    (hopen : st = .stateOpen → FailedAt S now log) :
    Inv S ⟨now, b.cleared st now, flying, log⟩ := by
  have hlt : b.generation < b.generation + 1 := Nat.lt_succ_self _
  refine { h.succ with
    requests := (h.admitted_le _ hlt).symm
    successes := (h.succeeded_le _ hlt).symm
    failures := (h.failed_le _ hlt).symm
    balance := ((Nat.zero_add _).trans (h.flyingIn_eq_zero hlt)).symm
    stands := ?_ }
  cases st with
  | stateClosed =>
    refine .closed rfl le_rfl (fun e he hadm => ?_) fun e he => h.notMem_probe hlt he
    cases (h.notMem_admitted hlt he).symm.trans hadm
  | stateOpen => exact .open rfl rfl (hopen rfl)
  | stateHalfOpen => exact .halfOpen rfl rfl rfl (Nat.zero_le _) S.maxRequests_pos

theorem tick {t : Traffic View I R} (h : Inv S t) (hle : t.now ≤ now) : Inv S { t with now := now } := by
  refine { h with toHist := h.toHist.mono hle, stands := ?_ }
  cases h.stands with
  | closed hstate hsince hwindow hprobe =>
    exact .closed hstate (Int.le_trans hsince hle) hwindow hprobe
  | «open» hstate hcounts htrip =>
    exact .open hstate hcounts htrip
  | halfOpen hstate hfailed hrow hrequests hopen =>
    exact .halfOpen hstate hfailed hrow hrequests hopen

theorem looked {t : Traffic View I R} (h : Inv S t) (hle : t.now ≤ now) {b : View}
    (hlook : t.breaker.Looked S now b) : Inv S ⟨now, b, t.flying, t.log⟩ := by
  cases hlook with
  | same _ => exact h.tick hle
  | renewed _ _ => exact renew (h.toHist.mono hle) .stateClosed nofun
  | halfOpened _ _ => exact renew (h.toHist.mono hle) .stateHalfOpen nofun

theorem refuse {b : View} (h : Inv S ⟨now, b, flying, log⟩) (id : I) (reason : Refusal) :
    Inv S ⟨now, b, flying, .refused id reason now :: log⟩ := by
  refine { h with toHist := h.toHist.refused id reason, stands := ?_ }
  cases h.stands with
  | closed hstate hsince hwindow hprobe =>
    refine .closed hstate hsince ?_ ?_
    · exact List.forall_mem_cons.mpr ⟨fun hadm => (by cases hadm), hwindow⟩
    · exact List.forall_mem_cons.mpr ⟨rfl, hprobe⟩
  | «open» hstate hcounts htrip =>
    exact .open hstate hcounts htrip.cons
  | halfOpen hstate hfailed hrow hrequests hopen =>
    exact .halfOpen hstate hfailed hrow hrequests hopen

theorem letThrough {b : View} (h : Inv S ⟨now, b, flying, log⟩) (id : I)
    (hopen : b.state ≠ .stateOpen)
    (hroom : ¬(b.state = .stateHalfOpen ∧ S.maxRequests ≤ b.counts.requests))
    (htime : b.state = .stateClosed → now ≤ b.since + S.interval) :
    Inv S ⟨now, { b with counts := b.counts.onRequest }, (id, b.generation) :: flying,
      .admitted id b.generation (b.state == .stateHalfOpen) now :: log⟩ := by
  have hhist : Hist S b.generation now ((id, b.generation) :: flying)
      (.admitted id b.generation (b.state == .stateHalfOpen) now :: log) := by
    refine h.toHist.admitted id fun hprobe => ?_
    show admittedIn b.generation log < S.maxRequests
    rw [← h.requests]
    cases h.stands with
    | closed hstate hsince hwindow hnone =>
      rcases hprobe with hp | ⟨e, he, hp⟩
      · rw [show b.state = .stateClosed from hstate] at hp
        cases hp
      · cases (hnone e he).symm.trans hp
    | «open» hstate _ _ => exact absurd hstate hopen
    | halfOpen hstate _ _ _ _ => exact Nat.not_le.mp fun hle => hroom ⟨hstate, hle⟩
  refine { hhist with
    requests := ?_
    successes := ?_
    failures := ?_
    balance := ?_
    stands := ?_ }
  · show b.counts.requests + 1 = _
    rw [admittedIn_cons_admitted, if_pos rfl, show b.counts.requests = _ from h.requests]
  · rw [succeededIn_cons_admitted]
    exact h.successes
  · rw [failedIn_cons_admitted]
    exact h.failures
  · have hbal := h.balance
    rw [flyingIn_cons, if_pos rfl]
    show b.counts.requests + 1 = _
    rw [show b.counts.requests = _ from hbal]
    rfl
  · cases h.stands with
    | closed hstate hsince hwindow hnone =>
      refine .closed hstate hsince ?_ ?_
      · exact List.forall_mem_cons.mpr ⟨fun _ => ⟨hsince, htime hstate⟩, hwindow⟩
      · refine List.forall_mem_cons.mpr ⟨?_, hnone⟩
        simp [Entry.isProbe, show b.state = .stateClosed from hstate]
    | «open» hstate _ _ => exact absurd hstate hopen
    | halfOpen hstate hfailed hrow hrequests hlt =>
      exact .halfOpen hstate hfailed hrow
        (Nat.succ_le_of_lt (Nat.not_le.mp fun hle => hroom ⟨hstate, hle⟩)) hlt

section
variable [DecidableEq I] {b : View} {c : I × Nat} (id : I) (r : R)

/-- An answer from an earlier generation is of no account. -/
theorem answerLate (h : Inv S ⟨now, b, flying, log⟩) (hc : c ∈ flying) (hg : b.generation ≠ c.2) :
    Inv S ⟨now, b, flying.erase c, .answered id c.2 r now :: log⟩ := by
  refine { h.toHist.answered hc id r with
    requests := ?_
    successes := ?_
    failures := ?_
    balance := ?_
    stands := ?_ }
  · rw [admittedIn_cons_answered]
    exact h.requests
  · rw [succeededIn_cons_answered, if_neg fun heq => hg heq.1.symm]
    exact h.successes
  · rw [failedIn_cons_answered, if_neg fun heq => hg heq.1.symm]
    exact h.failures
  · have hfly := flyingIn_erase b.generation hc
    rw [if_neg fun heq => hg heq.symm] at hfly
    exact h.balance.trans (congrArg _ hfly)
  · cases h.stands with
    | closed hstate hsince hwindow hprobe =>
      refine .closed hstate hsince ?_ ?_
      · exact List.forall_mem_cons.mpr ⟨fun hadm => (by cases hadm), hwindow⟩
      · exact List.forall_mem_cons.mpr ⟨rfl, hprobe⟩
    | «open» hstate hcounts htrip =>
      exact .open hstate hcounts htrip.cons
    | halfOpen hstate hfailed hrow hrequests hopen =>
      exact .halfOpen hstate hfailed hrow hrequests hopen

/-- An answer that is counted. -/
theorem answerCounted (h : Inv S ⟨now, b, flying, log⟩) (hc : c ∈ flying) (hg : b.generation = c.2)
    (counts : Counts) (hrequests : counts.requests = b.counts.requests)
    (hsuccesses : counts.totalSuccesses =
      b.counts.totalSuccesses + if S.isSuccessful r = true then 1 else 0)
    (hfailures : counts.totalFailures =
      b.counts.totalFailures + if S.isSuccessful r = false then 1 else 0)
    (hstands : Stands S { b with counts := counts } now (.answered id c.2 r now :: log)) :
    Inv S ⟨now, { b with counts := counts }, flying.erase c, .answered id c.2 r now :: log⟩ := by
  have hbal : b.counts.requests = b.counts.totalSuccesses + b.counts.totalFailures +
    flyingIn b.generation flying := h.balance
  refine { h.toHist.answered hc id r with
    requests := ?_
    successes := ?_
    failures := ?_
    balance := ?_
    stands := hstands }
  · rw [admittedIn_cons_answered]
    exact hrequests.trans h.requests
  · show counts.totalSuccesses = _
    rw [succeededIn_cons_answered, hsuccesses, show b.counts.totalSuccesses = _ from h.successes]
    simp [hg]
  · show counts.totalFailures = _
    rw [failedIn_cons_answered, hfailures, show b.counts.totalFailures = _ from h.failures]
    simp [hg]
  · show counts.requests = counts.totalSuccesses + counts.totalFailures +
      flyingIn b.generation (flying.erase c)
    rw [flyingIn_erase b.generation hc, if_pos hg.symm] at hbal
    rw [hrequests, hsuccesses, hfailures, hbal]
    cases S.isSuccessful r <;> simp <;> omega

theorem not_open_of_flying (h : Inv S ⟨now, b, flying, log⟩) (hc : c ∈ flying)
    (hg : b.generation = c.2) : b.state ≠ .stateOpen := by
  intro hstate
  cases h.stands with
  | closed hstate' _ _ _ => cases hstate.symm.trans hstate'
  | halfOpen hstate' _ _ _ _ => cases hstate.symm.trans hstate'
  | «open» _ hcounts _ =>
    have hbal : b.counts.requests = b.counts.totalSuccesses + b.counts.totalFailures +
      flyingIn b.generation flying := h.balance
    rw [show b.counts = {} from hcounts, flyingIn_erase b.generation hc, if_pos hg.symm] at hbal
    exact absurd hbal (by simp)

theorem answerSuccess (h : Inv S ⟨now, b, flying, log⟩) (hc : c ∈ flying) (hg : b.generation = c.2)
    (hr : S.isSuccessful r = true)
    (hmore : b.state = .stateHalfOpen → b.counts.consecutiveSuccesses + 1 < S.maxRequests) :
    Inv S ⟨now, { b with counts := b.counts.onSuccess }, flying.erase c,
      .answered id c.2 r now :: log⟩ := by
  refine h.answerCounted id r hc hg b.counts.onSuccess rfl (by rw [hr]; rfl) (by rw [hr]; rfl) ?_
  cases h.stands with
  | closed hstate hsince hwindow hprobe =>
    refine .closed hstate hsince ?_ ?_
    · exact List.forall_mem_cons.mpr ⟨fun hadm => (by cases hadm), hwindow⟩
    · exact List.forall_mem_cons.mpr ⟨rfl, hprobe⟩
  | «open» hstate _ _ => exact absurd hstate (h.not_open_of_flying hc hg)
  | halfOpen hstate hfailed hrow hrequests hopen =>
    refine .halfOpen hstate hfailed (congrArg (· + 1) hrow) hrequests ?_
    have hlt := hmore hstate
    rw [show b.counts.consecutiveSuccesses = b.counts.totalSuccesses from hrow] at hlt
    exact hlt

theorem answerFailure (h : Inv S ⟨now, b, flying, log⟩) (hc : c ∈ flying) (hg : b.generation = c.2)
    (hr : S.isSuccessful r = false) (hclosed : b.state = .stateClosed) :
    Inv S ⟨now, { b with counts := b.counts.onFailure }, flying.erase c,
      .answered id c.2 r now :: log⟩ := by
  refine h.answerCounted id r hc hg b.counts.onFailure rfl (by rw [hr]; rfl) (by rw [hr]; rfl) ?_
  cases h.stands with
  | closed hstate hsince hwindow hprobe =>
    refine .closed hstate hsince ?_ ?_
    · exact List.forall_mem_cons.mpr ⟨fun hadm => (by cases hadm), hwindow⟩
    · exact List.forall_mem_cons.mpr ⟨rfl, hprobe⟩
  | «open» hstate _ _ => cases hclosed.symm.trans hstate
  | halfOpen hstate _ _ _ _ => cases hclosed.symm.trans hstate

end

end Inv

end

/-! ## What an event can do -/

section
variable {I R : Type} [DecidableEq I] {S : Settings R}

variable (S) in
/-- The breaker looks at the clock first and then does one of these. -/
inductive Stepped (t : Traffic View I R) : Event I R → Traffic View I R → Prop
  | refused {id : I} {wait : Nat} {b : View} {reason : Refusal} :
      t.breaker.Looked S (t.now + wait) b →
      b.state = .stateOpen ∨ (b.state = .stateHalfOpen ∧ S.maxRequests ≤ b.counts.requests) →
      Stepped t (.call id wait)
        ⟨t.now + wait, b, t.flying, .refused id reason (t.now + wait) :: t.log⟩
  | admitted {id : I} {wait : Nat} {b : View} : t.breaker.Looked S (t.now + wait) b →
      b.state ≠ .stateOpen → ¬(b.state = .stateHalfOpen ∧ S.maxRequests ≤ b.counts.requests) →
      Stepped t (.call id wait)
        ⟨t.now + wait, { b with counts := b.counts.onRequest }, (id, b.generation) :: t.flying,
          .admitted id b.generation (b.state == .stateHalfOpen) (t.now + wait) :: t.log⟩
  | idle {id : I} {wait : Nat} {r : R} :
      Stepped t (.answer id wait r) { t with now := t.now + wait }
  | late {id : I} {wait : Nat} {r : R} {c : I × Nat} {b : View} :
      c ∈ t.flying → t.breaker.Looked S (t.now + wait) b → b.generation ≠ c.2 →
      Stepped t (.answer id wait r)
        ⟨t.now + wait, b, t.flying.erase c, .answered id c.2 r (t.now + wait) :: t.log⟩
  | success {id : I} {wait : Nat} {r : R} {c : I × Nat} {b : View} :
      c ∈ t.flying → t.breaker.Looked S (t.now + wait) b → b.generation = c.2 →
      S.isSuccessful r = true →
      (b.state = .stateHalfOpen → b.counts.consecutiveSuccesses + 1 < S.maxRequests) →
      Stepped t (.answer id wait r)
        ⟨t.now + wait, { b with counts := b.counts.onSuccess }, t.flying.erase c,
          .answered id c.2 r (t.now + wait) :: t.log⟩
  | recovered {id : I} {wait : Nat} {r : R} {c : I × Nat} {b : View} :
      c ∈ t.flying → t.breaker.Looked S (t.now + wait) b → b.generation = c.2 →
      S.isSuccessful r = true → b.state = .stateHalfOpen →
      S.maxRequests ≤ b.counts.consecutiveSuccesses + 1 →
      Stepped t (.answer id wait r)
        ⟨t.now + wait, b.cleared .stateClosed (t.now + wait), t.flying.erase c,
          .answered id c.2 r (t.now + wait) :: t.log⟩
  | failure {id : I} {wait : Nat} {r : R} {c : I × Nat} {b : View} :
      c ∈ t.flying → t.breaker.Looked S (t.now + wait) b → b.generation = c.2 →
      S.isSuccessful r = false → b.state = .stateClosed →
      Stepped t (.answer id wait r)
        ⟨t.now + wait, { b with counts := b.counts.onFailure }, t.flying.erase c,
          .answered id c.2 r (t.now + wait) :: t.log⟩
  | opened {id : I} {wait : Nat} {r : R} {c : I × Nat} {b : View} :
      c ∈ t.flying → t.breaker.Looked S (t.now + wait) b → b.generation = c.2 →
      S.isSuccessful r = false →
      (b.state = .stateClosed ∧ S.readyToTrip b.counts.onFailure = true) ∨ b.state = .stateHalfOpen →
      Stepped t (.answer id wait r)
        ⟨t.now + wait, b.cleared .stateOpen (t.now + wait), t.flying.erase c,
          .answered id c.2 r (t.now + wait) :: t.log⟩

theorem le_add_wait (n : Int) (wait : Nat) : n ≤ n + wait := by omega

theorem Stepped.inv {t t' : Traffic View I R} {e : Event I R} (h : Stepped S t e t')
    (hinv : Inv S t) : Inv S t' := by
  cases h with
  | refused hlook _ => exact (hinv.looked (le_add_wait _ _) hlook).refuse _ _
  | admitted hlook hopen hroom =>
    exact (hinv.looked (le_add_wait _ _) hlook).letThrough _ hopen hroom hlook.le_interval
  | idle => exact hinv.tick (le_add_wait _ _)
  | late hc hlook hg => exact (hinv.looked (le_add_wait _ _) hlook).answerLate _ _ hc hg
  | success hc hlook hg hr hmore =>
    exact (hinv.looked (le_add_wait _ _) hlook).answerSuccess _ _ hc hg hr hmore
  | failure hc hlook hg hr hclosed =>
    exact (hinv.looked (le_add_wait _ _) hlook).answerFailure _ _ hc hg hr hclosed
  | recovered hc hlook _ _ _ _ =>
    exact Inv.renew ((hinv.looked (le_add_wait _ _) hlook).toHist.answered hc _ _) .stateClosed nofun
  | opened hc hlook _ hr _ =>
    exact Inv.renew ((hinv.looked (le_add_wait _ _) hlook).toHist.answered hc _ _) .stateOpen
      fun _ => ⟨_, _, _, List.mem_cons_self, hr⟩

/-! ## Runs of a breaker -/

section
variable {M : Machine R} (hM : Documented S M)
include hM

theorem stepped_call (t : Traffic M.B I R) (id : I) (wait : Nat) :
    Stepped S (t.seen M) (.call id wait) ((step M t (.call id wait)).seen M) := by
  have hlook := (M.view t.breaker).looked S (t.now + wait)
  unfold step seen
  simp only
  generalize hv : (M.view t.breaker).current S (t.now + wait) = v at hlook
  by_cases hopen : v.state = .stateOpen
  · obtain ⟨b, hbefore, hview⟩ := hM.errOpenState hv hopen
    rw [hbefore]
    simp only [hview]
    exact .refused hlook (.inl hopen)
  by_cases hfull : v.state = .stateHalfOpen ∧ S.maxRequests ≤ v.counts.requests
  · obtain ⟨b, hbefore, hview⟩ := hM.errTooManyRequests hv hfull.1 hfull.2
    rw [hbefore]
    simp only [hview]
    exact .refused hlook (.inr hfull)
  · obtain ⟨b, hbefore, hview⟩ := hM.accepts hv hopen hfull
    rw [hbefore]
    simp only [hview]
    exact .admitted hlook hopen hfull

/-- The breaker is told of a result.  If that is of its own generation it must not be open, a case of
which `Documented` says nothing. -/
theorem stepped_answered {t : Traffic View I R} {b : M.B} (ht : t.breaker = M.view b) (id : I)
    (wait : Nat) (r : R) {c : I × Nat} (hc : c ∈ t.flying)
    (hopen : (t.breaker.current S (t.now + wait)).generation = c.2 →
      (t.breaker.current S (t.now + wait)).state ≠ .stateOpen) :
    Stepped S t (.answer id wait r) ⟨t.now + wait, M.view (M.after (t.now + wait) c.2 r b),
      t.flying.erase c, .answered id c.2 r (t.now + wait) :: t.log⟩ := by
  have hlook := t.breaker.looked S (t.now + wait)
  generalize hv : t.breaker.current S (t.now + wait) = v at hlook hopen
  rw [ht] at hv
  by_cases hg : v.generation = c.2
  · have hnot := hopen hg
    obtain ⟨owner, g⟩ := c
    obtain rfl : v.generation = g := hg
    cases hr : S.isSuccessful r with
    | true =>
      cases hstate : v.state with
      | stateOpen => exact absurd hstate hnot
      | stateClosed =>
        rw [hM.success hv hstate hr]
        exact .success hc hlook rfl hr fun h => by cases hstate.symm.trans h
      | stateHalfOpen =>
        by_cases hmore : v.counts.consecutiveSuccesses + 1 < S.maxRequests
        · rw [hM.probeSucceeds hv hstate hr hmore]
          exact .success hc hlook rfl hr fun _ => hmore
        · rw [hM.recovers hv hstate hr (Nat.not_lt.mp hmore)]
          exact .recovered hc hlook rfl hr hstate (Nat.not_lt.mp hmore)
    | false =>
      cases hstate : v.state with
      | stateOpen => exact absurd hstate hnot
      | stateClosed =>
        cases htrip : S.readyToTrip v.counts.onFailure with
        | true =>
          rw [hM.trips hv hstate hr htrip]
          exact .opened hc hlook rfl hr (.inl ⟨hstate, htrip⟩)
        | false =>
          rw [hM.failure hv hstate hr htrip]
          exact .failure hc hlook rfl hr hstate
      | stateHalfOpen =>
        rw [hM.probeFails hv hstate hr]
        exact .opened hc hlook rfl hr (.inr hstate)
  · rw [hM.ignores hv hg]
    exact .late hc hlook hg

/-- What a breaker does is what is documented. -/
theorem stepped {t : Traffic M.B I R} (hinv : Inv S (t.seen M)) (e : Event I R) :
    Stepped S (t.seen M) e ((step M t e).seen M) := by
  cases e with
  | call id wait => exact stepped_call hM t id wait
  | answer id wait r =>
    have hnow := hinv.looked (le_add_wait t.now wait) ((M.view t.breaker).looked S (t.now + wait))
    unfold step
    simp only
    split
    · exact .idle
    · next c hfind =>
      have hc : c ∈ t.flying := List.mem_of_find?_eq_some hfind
      exact stepped_answered hM rfl id wait r hc (hnow.not_open_of_flying hc)

omit [DecidableEq I] in
theorem inv_start (now : Int) : Inv S ((start M now : Traffic M.B I R).seen M) := by
  obtain ⟨g, hview⟩ := hM.new now
  unfold start seen
  simp only [hview]
  exact
    { flying_le := fun c hc => (by cases hc)
      admitted_le := fun _ _ => rfl
      succeeded_le := fun _ _ => rfl
      failed_le := fun _ _ => rfl
      time_le := fun e he => (by cases he)
      probes := fun e he => (by cases he)
      requests := rfl
      successes := rfl
      failures := rfl
      balance := rfl
      stands := .closed rfl le_rfl (fun e he => (by cases he)) fun e he => (by cases he) }

theorem inv_run {t : Traffic M.B I R} (h : Inv S (t.seen M)) (es : List (Event I R)) :
    Inv S ((run M t es).seen M) := by
  induction es generalizing t with
  | nil => exact h
  | cons e es ih => exact ih ((stepped hM h e).inv h)

end

theorem step_call_now (M : Machine R) (t : Traffic M.B I R) (id : I) (wait : Nat) :
    (step M t (.call id wait)).now = t.now + wait := by
  unfold step
  simp only
  split <;> rfl

theorem step_now_le (M : Machine R) (t : Traffic M.B I R) (e : Event I R) :
    t.now ≤ (step M t e).now := by
  cases e with
  | call id wait =>
    rw [step_call_now]
    exact le_add_wait _ _
  | answer id wait r =>
    unfold step
    simp only
    split <;> exact le_add_wait _ _

theorem run_now_le (M : Machine R) (t : Traffic M.B I R) (es : List (Event I R)) :
    t.now ≤ (run M t es).now := by
  induction es generalizing t with
  | nil => exact Int.le_refl _
  | cons e es ih => exact Int.le_trans (step_now_le M t e) (ih (step M t e))

/-! ## Opening, waiting, closing -/

/-- The counts of a generation, and the window its requests were let through in. -/
structure Window (S : Settings R) (g : Nat) (now : Int) (counts : Counts)
    (log : List (Entry I R)) : Prop where
  requests : counts.requests = admittedIn g log
  failures : counts.totalFailures = failedIn S g log
  window : ∃ start, start ≤ now ∧ now ≤ start + S.interval ∧
    ∀ e ∈ log, e.isAdmitted g = true → start ≤ e.time ∧ e.time ≤ start + S.interval

variable {t t' : Traffic View I R} {e : Event I R}

/-- A breaker that opens is open from then on; a closed one opens when a failure has made the counts of
its window ready to trip. -/
theorem Stepped.opens (h : Stepped S t e t') (hinv : Inv S t)
    (hbefore : t.breaker.state = .stateClosed) (hafter : t'.breaker.state = .stateOpen) :
    ∃ g counts, S.readyToTrip counts = true ∧ Window S g t'.now counts t'.log := by
  have hclosed : ∀ {now : Int} {b : View}, t.breaker.Looked S now b → b.state = .stateClosed :=
    fun hlook => hlook.closed hbefore
  cases h with
  | refused hlook _ => cases (hclosed hlook).symm.trans hafter
  | admitted hlook _ _ => cases (hclosed hlook).symm.trans hafter
  | idle => cases hbefore.symm.trans hafter
  | late _ hlook _ => cases (hclosed hlook).symm.trans hafter
  | success _ hlook _ _ _ => cases (hclosed hlook).symm.trans hafter
  | failure _ hlook _ _ _ => cases (hclosed hlook).symm.trans hafter
  | recovered _ _ _ _ _ _ => cases hafter
  | @opened id wait r c b hc hlook hg hr hwhy =>
    rcases hwhy with ⟨-, htrip⟩ | hhalf
    · have hinv' := hinv.looked (le_add_wait _ _) hlook
      cases hinv'.stands with
      | closed hstate hsince hwindow _ =>
        refine ⟨b.generation, b.counts.onFailure, htrip, ?_, ?_, b.since, hsince,
          hlook.le_interval hstate, List.forall_mem_cons.mpr ⟨fun hadm => (by cases hadm), hwindow⟩⟩
        · rw [admittedIn_cons_answered]
          exact hinv'.requests
        · rw [failedIn_cons_answered, if_pos ⟨hg.symm, hr⟩]
          exact congrArg (· + 1) hinv'.failures
      | «open» hstate _ _ => cases (hclosed hlook).symm.trans hstate
      | halfOpen hstate _ _ _ _ => cases (hclosed hlook).symm.trans hstate
    · cases (hclosed hlook).symm.trans hhalf

/-- An open breaker whose timeout is not over does not change and lets nothing through. -/
theorem Stepped.stays_open (h : Stepped S t e t') (hinv : Inv S t)
    (hstate : t.breaker.state = .stateOpen) (hle : t'.now ≤ t.breaker.since + S.timeout) :
    t'.breaker = t.breaker ∧
      ∃ later, t'.log = later ++ t.log ∧ ∀ e ∈ later, ∀ g, e.isAdmitted g = false := by
  have hsame : ∀ {b : View}, t.breaker.Looked S t'.now b → b = t.breaker :=
    fun hlook => hlook.eq_of_not_expired ((View.not_expired_open hstate).mpr hle)
  have hnone : ∀ {c : I × Nat} {b : View} {wait : Nat}, t'.now = t.now + wait → c ∈ t.flying →
      t.breaker.Looked S (t.now + wait) b → b.generation ≠ c.2 := by
    intro c b wait hnow hc hlook hg
    have hinv' := hinv.looked (le_add_wait _ _) hlook
    rw [← hnow] at hlook
    cases hsame hlook
    exact hinv'.not_open_of_flying hc hg hstate
  cases h with
  | refused hlook _ => exact ⟨hsame hlook, [_], rfl, List.forall_mem_singleton.mpr fun _ => rfl⟩
  | @admitted _ _ b hlook hopen _ =>
    cases hsame hlook
    exact absurd hstate hopen
  | idle => exact ⟨rfl, [], rfl, fun e he => by cases he⟩
  | late _ hlook _ => exact ⟨hsame hlook, [_], rfl, List.forall_mem_singleton.mpr fun _ => rfl⟩
  | success hc hlook hg _ _ => exact absurd hg (hnone rfl hc hlook)
  | recovered hc hlook hg _ _ _ => exact absurd hg (hnone rfl hc hlook)
  | failure hc hlook hg _ _ => exact absurd hg (hnone rfl hc hlook)
  | opened hc hlook hg _ _ => exact absurd hg (hnone rfl hc hlook)

/-- Until its timeout is over an open breaker lets nothing through. -/
theorem run_open {M : Machine R} (hM : Documented S M) {t : Traffic M.B I R}
    (hinv : Inv S (t.seen M)) (hstate : (M.view t.breaker).state = .stateOpen)
    (es : List (Event I R)) (hle : (run M t es).now ≤ (M.view t.breaker).since + S.timeout) :
    M.view (run M t es).breaker = M.view t.breaker ∧
      ∃ later, (run M t es).log = later ++ t.log ∧ ∀ e ∈ later, ∀ g, e.isAdmitted g = false := by
  induction es generalizing t with
  | nil => exact ⟨rfl, [], rfl, fun e he => by cases he⟩
  | cons e es ih =>
    have hstep := stepped hM hinv e
    obtain ⟨hsame, later, hlog, hnone⟩ :=
      hstep.stays_open hinv hstate (Int.le_trans (run_now_le M _ es) hle)
    have hsame : M.view (step M t e).breaker = M.view t.breaker := hsame
    have hlog : (step M t e).log = later ++ t.log := hlog
    obtain ⟨hsame', later', hlog', hnone'⟩ :=
      ih (hstep.inv hinv) (hsame ▸ hstate) (by rw [hsame]; exact hle)
    refine ⟨hsame'.trans hsame, later' ++ later, ?_, List.forall_mem_append.mpr ⟨hnone', hnone⟩⟩
    rw [List.append_assoc, ← hlog]
    exact hlog'

/-- A half-open breaker that turns a request away has one of its probes in flight. -/
theorem Stepped.exists_flying {id : I} {wait : Nat} {reason : Refusal} {time : Int}
    (h : Stepped S t (.call id wait) t') (hinv : Inv S t)
    (hhalf : t'.breaker.state = .stateHalfOpen)
    (hrefused : t'.log.head? = some (.refused id reason time)) :
    ∃ id', (id', t'.breaker.generation) ∈ t'.flying := by
  cases h with
  | admitted _ _ _ => cases hrefused
  | refused hlook hshut =>
    have hinv' := hinv.looked (le_add_wait _ _) hlook
    have hbal := hinv'.balance
    have hfull := hshut.resolve_left fun hopen => by cases hhalf.symm.trans hopen
    cases hinv'.stands with
    | closed hstate _ _ _ => cases hhalf.symm.trans hstate
    | «open» hstate _ _ => cases hhalf.symm.trans hstate
    | halfOpen _ hfailed _ _ hopen =>
      refine Traffic.exists_flying ?_
      show 0 < flyingIn _ t.flying
      simp only at hbal hfull hfailed hopen ⊢
      omega

/-- It closes when all its probes have been let through and have succeeded. -/
theorem Stepped.closes (h : Stepped S t e t') (hinv : Inv S t)
    (hbefore : t.breaker.state = .stateHalfOpen) (hafter : t'.breaker.state = .stateClosed) :
    admittedIn t.breaker.generation t'.log = S.maxRequests ∧
      succeededIn S t.breaker.generation t'.log = S.maxRequests ∧
      failedIn S t.breaker.generation t'.log = 0 := by
  have hsame : ∀ {now : Int} {b : View}, t.breaker.Looked S now b → b = t.breaker :=
    fun hlook => hlook.eq_of_halfOpen hbefore
  cases h with
  | refused hlook _ =>
    cases hsame hlook
    cases hbefore.symm.trans hafter
  | admitted hlook _ _ =>
    cases hsame hlook
    cases hbefore.symm.trans hafter
  | idle => cases hbefore.symm.trans hafter
  | late _ hlook _ =>
    cases hsame hlook
    cases hbefore.symm.trans hafter
  | failure _ hlook _ _ hclosed =>
    cases hsame hlook
    cases hbefore.symm.trans hclosed
  | opened _ _ _ _ _ => cases hafter
  | success _ hlook _ _ _ =>
    cases hsame hlook
    cases hbefore.symm.trans hafter
  | @recovered id wait r c b hc hlook hg hr _ hmax =>
    cases hsame hlook
    have hbal := hinv.balance
    have hfly := flyingIn_erase t.breaker.generation hc
    rw [if_pos hg.symm] at hfly
    cases hinv.stands with
    | closed hstate _ _ _ => cases hbefore.symm.trans hstate
    | «open» hstate _ _ => cases hbefore.symm.trans hstate
    | halfOpen _ hfailed hrow hrequests _ =>
      rw [admittedIn_cons_answered, succeededIn_cons_answered, failedIn_cons_answered,
        if_pos ⟨hg.symm, hr⟩, if_neg (by simp [hr]), ← hinv.requests, ← hinv.successes,
        ← hinv.failures]
      omega

end

end Traffic

/-! ## A breaker that is documented so -/

section
variable {R : Type} (S : Settings R)

/-- What is told to an open breaker in its own generation, which no request is in, is left aside. -/
def reference : Machine R where
  B := View
  new now := ⟨.stateClosed, 0, {}, now⟩
  before now b :=
    let v := b.current S now
    if v.state = .stateOpen then (.error .errOpenState, v)
    else if v.state = .stateHalfOpen ∧ S.maxRequests ≤ v.counts.requests then
      (.error .errTooManyRequests, v)
    else (.ok v.generation, { v with counts := v.counts.onRequest })
  after now g r b :=
    let v := b.current S now
    if v.generation ≠ g then v
    else if S.isSuccessful r then
      if v.state = .stateHalfOpen ∧ S.maxRequests ≤ v.counts.consecutiveSuccesses + 1 then
        v.cleared .stateClosed now
      else { v with counts := v.counts.onSuccess }
    else if v.state = .stateHalfOpen ∨ S.readyToTrip v.counts.onFailure then
      v.cleared .stateOpen now
    else { v with counts := v.counts.onFailure }
  view b := b

theorem documented_reference : Documented S (reference S) where
  new now := ⟨0, rfl⟩
  errOpenState := by
    rintro now b v rfl hopen
    exact ⟨_, if_pos hopen, rfl⟩
  errTooManyRequests := by
    rintro now b v rfl hhalf hfull
    have hopen : ¬(View.current S now b).state = .stateOpen := fun h => by cases hhalf.symm.trans h
    exact ⟨_, (if_neg hopen).trans (if_pos ⟨hhalf, hfull⟩), rfl⟩
  accepts := by
    rintro now b v rfl hopen hroom
    exact ⟨_, (if_neg hopen).trans (if_neg hroom), rfl⟩
  ignores := by
    rintro now g r b v rfl hg
    exact if_pos hg
  success := by
    rintro now r b v rfl hclosed hr
    refine (if_neg (not_not.mpr rfl)).trans ((if_pos hr).trans (if_neg fun h => ?_))
    cases hclosed.symm.trans h.1
  failure := by
    rintro now r b v rfl hclosed hr htrip
    refine (if_neg (not_not.mpr rfl)).trans ((if_neg (ne_true_of_eq_false hr)).trans (if_neg fun h => ?_))
    rcases h with hhalf | htrip'
    · cases hclosed.symm.trans hhalf
    · cases htrip.symm.trans htrip'
  trips := by
    rintro now r b v rfl _ hr htrip
    exact (if_neg (not_not.mpr rfl)).trans
      ((if_neg (ne_true_of_eq_false hr)).trans (if_pos (.inr htrip)))
  probeFails := by
    rintro now r b v rfl hhalf hr
    exact (if_neg (not_not.mpr rfl)).trans
      ((if_neg (ne_true_of_eq_false hr)).trans (if_pos (.inl hhalf)))
  probeSucceeds := by
    rintro now r b v rfl _ hr hmore
    exact (if_neg (not_not.mpr rfl)).trans
      ((if_pos hr).trans (if_neg fun h => Nat.not_le.mpr hmore h.2))
  recovers := by
    rintro now r b v rfl hhalf hr hmax
    exact (if_neg (not_not.mpr rfl)).trans ((if_pos hr).trans (if_pos ⟨hhalf, hmax⟩))

end

end CircuitBreaker
