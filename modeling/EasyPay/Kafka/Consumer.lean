import Mathlib.Data.List.DropRight
import EasyPay.Domain
import EasyPay.Lib.Prog

/-!
# Batch consumer

`internal/kafka/consumer.go`.  `Run` fills a batch from its reader, hands the batch to the
handler, goes through it message by message when that fails, and commits it.  The reader, the
handler and the writer of the dead-letter topic are interfaces; a call of one of them can be
answered in any way.

* `committed_dealt_with`: as long as no write to the dead-letter topic fails, every message of a
  committed batch was handled or is on that topic.
* `handled_in_order_iff`: the handler is given every message fetched, in order, unless a fetch
  fails while the batch holds a message.

`toDLQ` only logs a failed write, and `Run` drops the batch `fetchBatch` returns together with an
error, so neither holds without its condition.
-/

namespace EasyPay

open GoStrings Ports

/-! ## Messages and calls -/

/-- The fields of a `kafka.Message` that the consumer uses. -/
structure Message where
  topic : Str
  partition : Int
  offset : Int64
  key : Str
  value : Str
  deriving DecidableEq, Repr

def Message.sample : Message := ⟨bytes "payment.confirmed", 0, 7, bytes "o-1", bytes "payload"⟩

/-- The message after it. -/
def Message.following : Message := { Message.sample with offset := 8 }

/-- What `FetchMessage` fails with, as `fetchBatch` and `Run` tell errors apart. -/
inductive FetchErr
  | canceled
  | deadlineExceeded
  | other (err : Err)
  deriving DecidableEq, Repr

/-- The struct `MarshalForDLQ` marshals. -/
structure DLQEnvelope where
  topic : Str
  partition : Int
  offset : Int64
  error : Str
  key : Str
  value : Str
  deriving DecidableEq, Repr

def marshalForDLQ (m : Message) (cause : Err) : DLQEnvelope :=
  { topic := m.topic
    partition := m.partition
    offset := m.offset
    error := cause.msg
    key := m.key
    value := m.value }

/-- The calls of `Run`: of its context, the reader, the handler and the dead-letter writer. -/
inductive ConsumerOp
  | ctxErr
  | fetchMessage (withDeadline : Bool)
  | handle (msgs : List Message)
  | handleOne (msg : Message)
  | writeMessages (key : Str) (value : DLQEnvelope)
  | commitMessages (msgs : List Message)
  deriving DecidableEq, Repr

@[reducible] def ConsumerOp.Ans : ConsumerOp → Type
  | ctxErr => Option Err
  | fetchMessage _ => Except FetchErr Message
  | handle _ => Res Unit
  | handleOne _ => Res Unit
  | writeMessages _ _ => Res Unit
  | commitMessages _ => Res Unit

abbrev consumerPort : Port := ⟨ConsumerOp, ConsumerOp.Ans⟩

/-- A call of the reader for one more message. -/
def ConsumerOp.isFetch : ConsumerOp → Bool
  | fetchMessage _ => true
  | _ => false

/-- A part of the consumer. -/
abbrev Consuming (α : Type) := Prog consumerPort α

def Consuming.ask (o : ConsumerOp) : Consuming o.Ans := Prog.perform (P := consumerPort) o

/-- The calls made so far, with their answers. -/
abbrev Handlings := List (Prog.Step consumerPort)

/-- A call and its answer. -/
def ConsumerOp.gave (o : ConsumerOp) (a : o.Ans) : Prog.Step consumerPort := ⟨o, a⟩

theorem Consuming.meets_ask {β : Type} {I : Handlings → ConsumerOp → Prop}
    {S : Handlings → β → Prop} {o : ConsumerOp} {f : o.Ans → Consuming β} {t : Handlings}
    (ho : I t o) (hf : ∀ a, Prog.Meets (P := consumerPort) I S (f a) (t ++ [o.gave a])) :
    Prog.Meets (P := consumerPort) I S (Consuming.ask o >>= f) t :=
  Prog.meets_perform (P := consumerPort) ho hf

/-! ## The consumer -/

/-- `make` refuses a negative capacity, so the batch size is a natural number. -/
structure BatchConsumer where
  batchSize : Nat
  deriving DecidableEq, Repr

namespace BatchConsumer

/-- The loop of `fetchBatch`, with `n` messages to go; the first fetch has no deadline. -/
def fetchMore : Nat → List Message → Consuming (List Message × Option FetchErr)
  | 0, out => return (out, none)
  | n + 1, out => do
    let first := out.isEmpty
    match ← Consuming.ask (.fetchMessage (!first)) with
    | .ok msg => fetchMore n (out ++ [msg])
    | .error err =>
      if err = .deadlineExceeded ∧ first = false then return (out, none)
      else return (out, some err)

def fetchBatch (c : BatchConsumer) : Consuming (List Message × Option FetchErr) :=
  fetchMore c.batchSize []

/-- A failed write is logged, no more. -/
def toDLQ (m : Message) (cause : Err) : Consuming Unit := do
  let _ ← Consuming.ask (.writeMessages m.key (marshalForDLQ m cause))
  return ()

/-- The fallback of `Run`, message by message. -/
def fallback : List Message → Consuming Unit
  | [] => return ()
  | m :: msgs => do
    match ← Consuming.ask (.handleOne m) with
    | .ok _ => fallback msgs
    | .error err =>
      toDLQ m err
      fallback msgs

/-- What `Run` does with a batch; a failed commit is logged. -/
def handleBatch (msgs : List Message) : Consuming Unit := do
  match ← Consuming.ask (.handle msgs) with
  | .ok _ =>
    let _ ← Consuming.ask (.commitMessages msgs)
    return ()
  | .error _ =>
    fallback msgs
    let _ ← Consuming.ask (.commitMessages msgs)
    return ()

/-- The first `rounds` rounds of the loop of `Run`; `none` if it is still running then. -/
def run (c : BatchConsumer) : (rounds : Nat) → Consuming (Option (Res Unit))
  | 0 => return none
  | rounds + 1 => do
    match ← Consuming.ask .ctxErr with
    | some err => return some (.error err)
    | none =>
      match ← c.fetchBatch with
      | (_, some .canceled) => return some (.ok ())
      | (_, some .deadlineExceeded) => return some (.ok ())
      -- logged; whatever was fetched is not looked at
      | (_, some (.other _)) => c.run rounds
      | (msgs, none) =>
        if msgs = [] then c.run rounds
        else
          handleBatch msgs
          c.run rounds

/-! ## What is committed -/

/-- The calls a batch has led to: those since the last fetch. -/
def sinceFetch (t : Handlings) : Handlings := t.rtakeWhile fun x => !x.1.isFetch

/-- The handler took the message, or the dead-letter topic did. -/
def DealtWith (t : Handlings) (m : Message) : Prop :=
  (ConsumerOp.handleOne m).gave (.ok ()) ∈ t ∨
    ∃ cause, (ConsumerOp.writeMessages m.key (marshalForDLQ m cause)).gave (.ok ()) ∈ t

/-- No write to the dead-letter topic has failed. -/
def DeadLettersWritten (t : Handlings) : Prop :=
  ∀ key value err, (ConsumerOp.writeMessages key value).gave (.error err) ∉ t

theorem DealtWith.mono {t t' : Handlings} (h : t ⊆ t') {m : Message} (hm : DealtWith t m) :
    DealtWith t' m := by
  rcases hm with hm | ⟨cause, hm⟩
  · exact .inl (h hm)
  · exact .inr ⟨cause, h hm⟩

theorem sinceFetch_append (t : Handlings) {u : Handlings} (hu : ∀ x ∈ u, x.1.isFetch = false) :
    sinceFetch (t ++ u) = sinceFetch t ++ u := by
  induction u using List.reverseRecOn with
  | nil => simp
  | append_singleton u x ih =>
    have hx : x.1.isFetch = false := hu x (by simp)
    have hinit := ih fun y hy => hu y (List.mem_append_left _ hy)
    unfold sinceFetch at hinit ⊢
    rw [← List.append_assoc, List.rtakeWhile_concat_pos _ _ x (by simp [hx]), hinit,
      List.append_assoc]

/-- What the calls `u` for a batch come to: with every dead letter written, the handler took the
batch, or each of its messages was dealt with. -/
def Accounts (msgs : List Message) (u : Handlings) : Prop :=
  (∀ x ∈ u, x.1.isFetch = false) ∧ (DeadLettersWritten u →
    (ConsumerOp.handle msgs).gave (.ok ()) ∈ u ∨ ∀ m ∈ msgs, DealtWith u m)

/-- The fallback commits nothing, and deals with every message if it can. -/
theorem fallback_meets (msgs : List Message) (t : Handlings) :
    Prog.Meets (P := consumerPort) (fun _ o => ∀ b, o ≠ .commitMessages b)
      (fun t' _ => ∃ u, t' = t ++ u ∧ (∀ x ∈ u, x.1.isFetch = false) ∧
        (DeadLettersWritten u → ∀ m ∈ msgs, DealtWith u m)) (fallback msgs) t := by
  induction msgs generalizing t with
  | nil => exact ⟨[], (List.append_nil t).symm, by simp, by simp⟩
  | cons m msgs ih =>
    unfold fallback
    refine Consuming.meets_ask (fun b hb => by cases hb) fun a => ?_
    cases a with
    | ok _ =>
      refine (ih _).imp ?_
      rintro t' - ⟨u, rfl, hfetch, hdealt⟩
      refine ⟨(ConsumerOp.handleOne m).gave (.ok ()) :: u, by simp, ?_, ?_⟩
      · rintro x (_ | ⟨_, hx⟩)
        · rfl
        · exact hfetch x hx
      · intro hdlq
        have hrest := hdealt fun key value err hmem => hdlq key value err (.tail _ hmem)
        rintro m' (_ | ⟨_, hm'⟩)
        · exact .inl (.head _)
        · exact (hrest m' hm').mono (List.subset_cons_self _ _)
    | error err =>
      refine Consuming.meets_ask (fun b hb => by cases hb) fun a => ?_
      refine (ih _).imp ?_
      rintro t' - ⟨u, rfl, hfetch, hdealt⟩
      refine ⟨(ConsumerOp.handleOne m).gave (.error err) ::
        (ConsumerOp.writeMessages m.key (marshalForDLQ m err)).gave a :: u, by simp, ?_, ?_⟩
      · rintro x (_ | ⟨_, _ | ⟨_, hx⟩⟩)
        · rfl
        · rfl
        · exact hfetch x hx
      · intro hdlq
        have hrest := hdealt fun key value e hmem => hdlq key value e (.tail _ (.tail _ hmem))
        rintro m' (_ | ⟨_, hm'⟩)
        · cases a with
          | ok _ => exact .inr ⟨err, .tail _ (.head _)⟩
          | error e => exact absurd (.tail _ (.head _)) (hdlq _ _ e)
        · exact (hrest m' hm').mono fun x hx => .tail _ (.tail _ hx)

/-- A batch is committed when its calls account for it. -/
def CommitsDealtWith (t : Handlings) (o : ConsumerOp) : Prop :=
  ∀ msgs, o = .commitMessages msgs → ∃ t₀ u, t = t₀ ++ u ∧ Accounts msgs u

theorem handleBatch_meets (msgs : List Message) (t : Handlings) :
    Prog.Meets (P := consumerPort) CommitsDealtWith (fun _ _ => True) (handleBatch msgs) t := by
  unfold handleBatch
  refine Consuming.meets_ask (fun b hb => by cases hb) fun a => ?_
  cases a with
  | ok _ =>
    refine Consuming.meets_ask ?_ fun _ => trivial
    intro b hb
    cases hb
    refine ⟨t, _, rfl, ?_, fun _ => .inl (.head _)⟩
    rintro x (_ | ⟨_, ⟨⟩⟩)
    rfl
  | error err =>
    refine Prog.meets_bind ((fallback_meets msgs _).weaken fun t' o ho b hb => absurd hb (ho b)) ?_
    rintro t' - ⟨u, rfl, hfetch, hdealt⟩
    refine Consuming.meets_ask ?_ fun _ => trivial
    intro b hb
    cases hb
    refine ⟨t, (ConsumerOp.handle msgs).gave (.error err) :: u, by simp, ?_, ?_⟩
    · rintro x (_ | ⟨_, hx⟩)
      · rfl
      · exact hfetch x hx
    · intro hdlq
      have hall := hdealt fun key value e hmem => hdlq key value e (.tail _ hmem)
      exact .inr fun m hm => (hall m hm).mono (List.subset_cons_self _ _)

theorem fetchMore_meets_commits (n : Nat) (out : List Message) (t : Handlings) :
    Prog.Meets (P := consumerPort) CommitsDealtWith (fun _ _ => True) (fetchMore n out) t := by
  induction n generalizing out t with
  | zero => trivial
  | succ n ih =>
    unfold fetchMore
    refine Consuming.meets_ask (fun b hb => by cases hb) fun a => ?_
    cases a with
    | ok msg => exact ih _ _
    | error err =>
      simp only
      split <;> trivial

theorem run_commits (c : BatchConsumer) (rounds : Nat) (t : Handlings) :
    Prog.Meets (P := consumerPort) CommitsDealtWith (fun _ _ => True) (c.run rounds) t := by
  induction rounds generalizing t with
  | zero => trivial
  | succ rounds ih =>
    unfold run
    refine Consuming.meets_ask (fun b hb => by cases hb) fun a => ?_
    cases a with
    | some err => trivial
    | none =>
      refine Prog.meets_bind (fetchMore_meets_commits _ _ _) fun t' r _ => ?_
      obtain ⟨msgs, _ | _ | _ | err⟩ := r
      · simp only
        split
        · exact ih t'
        · exact Prog.meets_bind (handleBatch_meets msgs t') fun t'' _ _ => ih t''
      · trivial
      · trivial
      · exact ih t'

section
variable (c : BatchConsumer) (rounds : Nat) {t : Handlings}

/-- **Only messages that were dealt with are committed**, as long as every dead letter is
written. -/
theorem committed_dealt_with {msgs : List Message} {k : Res Unit → Consuming (Option (Res Unit))}
    (hrun : Prog.Runs (P := consumerPort) (c.run rounds) t (.call (.commitMessages msgs) k))
    (hdlq : DeadLettersWritten t) :
    (ConsumerOp.handle msgs).gave (.ok ()) ∈ sinceFetch t ∨
      ∀ m ∈ msgs, DealtWith (sinceFetch t) m := by
  obtain ⟨t₀, u, rfl, hfetch, hdealt⟩ := (run_commits c rounds []).call hrun msgs rfl
  have hsince : u ⊆ sinceFetch (t₀ ++ u) := by
    rw [sinceFetch_append t₀ hfetch]
    exact List.subset_append_right _ _
  rcases hdealt fun key value err hmem => hdlq key value err (List.mem_append_right _ hmem) with
    hall | hone
  · exact .inl (hsince hall)
  · exact .inr fun m hm => (hone m hm).mono hsince

end

/-- A batch of one message that neither handler method takes, up to the write to the dead-letter
topic. -/
def refusedBatch (written : Res Unit) : Handlings :=
  [ConsumerOp.ctxErr.gave none,
    (ConsumerOp.fetchMessage false).gave (.ok .sample),
    (ConsumerOp.handle [.sample]).gave (.error (.new (bytes "decode"))),
    (ConsumerOp.handleOne .sample).gave (.error (.new (bytes "decode"))),
    (ConsumerOp.writeMessages Message.sample.key
      (marshalForDLQ .sample (.new (bytes "decode")))).gave written]

theorem refusedBatch_runs (written : Res Unit) :
    ∃ k, Prog.Runs (P := consumerPort) (run ⟨1⟩ 1) (refusedBatch written)
      (.call (.commitMessages [.sample]) k) :=
  ⟨_, .cons _ _ _ (.cons _ _ _ (.cons _ _ _ (.cons _ _ _ (.cons _ _ _ (.nil _)))))⟩

/-- The batch is committed with its message on the dead-letter topic. -/
theorem committed_dealt_with_refused :
    ∃ k, Prog.Runs (P := consumerPort) (run ⟨1⟩ 1) (refusedBatch (.ok ()))
        (.call (.commitMessages [.sample]) k) ∧
      DeadLettersWritten (refusedBatch (.ok ())) ∧
      ((ConsumerOp.handle [.sample]).gave (.ok ()) ∈ sinceFetch (refusedBatch (.ok ())) ∨
        ∀ m ∈ [Message.sample], DealtWith (sinceFetch (refusedBatch (.ok ()))) m) := by
  obtain ⟨k, hk⟩ := refusedBatch_runs (.ok ())
  have hdlq : DeadLettersWritten (refusedBatch (.ok ())) := by
    intro key value err hmem
    simp [refusedBatch, ConsumerOp.gave] at hmem
  exact ⟨k, hk, hdlq, committed_dealt_with ⟨1⟩ 1 hk hdlq⟩

/-- With that write failed, the batch is committed all the same, and its message is nowhere. -/
theorem committed_unwritten :
    ∃ k, Prog.Runs (P := consumerPort) (run ⟨1⟩ 1)
        (refusedBatch (.error (.new (bytes "broker down"))))
        (.call (.commitMessages [.sample]) k) ∧
      ¬ ((ConsumerOp.handle [.sample]).gave (.ok ()) ∈
          sinceFetch (refusedBatch (.error (.new (bytes "broker down")))) ∨
        ∀ m ∈ [Message.sample],
          DealtWith (sinceFetch (refusedBatch (.error (.new (bytes "broker down"))))) m) := by
  obtain ⟨k, hk⟩ := refusedBatch_runs (.error (.new (bytes "broker down")))
  have hsince : ∀ x ∈ sinceFetch (refusedBatch (.error (.new (bytes "broker down")))),
      x ∈ refusedBatch (.error (.new (bytes "broker down"))) :=
    fun x hx => (List.rtakeWhile_suffix _ _).subset hx
  refine ⟨k, hk, ?_⟩
  rintro (hall | hone)
  · have hmem := hsince _ hall
    simp [refusedBatch, ConsumerOp.gave] at hmem
  · rcases hone .sample (.head _) with hmem | ⟨cause, hmem⟩
    · have hmem := hsince _ hmem
      simp [refusedBatch, ConsumerOp.gave] at hmem
    · have hmem := hsince _ hmem
      simp [refusedBatch, ConsumerOp.gave] at hmem

/-! ## What is handled -/

/-- The messages the reader has returned. -/
def fetched (t : Handlings) : List Message :=
  t.filterMap fun
    | ⟨.fetchMessage _, .ok m⟩ => some m
    | _ => none

/-- The batches the handler was given, one after another. -/
def handled (t : Handlings) : List Message :=
  t.flatMap fun
    | ⟨.handle msgs, _⟩ => msgs
    | _ => []

/-- The batch in hand after one more call.  A batch that runs into its deadline is about to be
handled; one that runs into another error is given up. -/
def fillStep (out : List Message) : Prog.Step consumerPort → List Message
  | ⟨.fetchMessage _, .ok m⟩ => out ++ [m]
  | ⟨.fetchMessage _, .error .deadlineExceeded⟩ => out
  | ⟨.fetchMessage _, .error _⟩ => []
  | ⟨.handle _, _⟩ => []
  | _ => out

/-- The batch still being filled. -/
def filling (t : Handlings) : List Message := t.foldl fillStep []

@[simp] theorem filling_concat (t : Handlings) (x : Prog.Step consumerPort) :
    filling (t ++ [x]) = fillStep (filling t) x := List.foldl_concat _ _ _ _

/-- The batch in hand is what the handler is given, and a fetch has a deadline if there is one. -/
def Follows (t : Handlings) (o : ConsumerOp) : Prop :=
  (∀ msgs, o = .handle msgs → msgs = filling t) ∧
    ∀ d, o = .fetchMessage d → d = !(filling t).isEmpty

theorem follows_of_quiet {t : Handlings} {o : ConsumerOp} (hfetch : o.isFetch = false)
    (hhandle : ∀ msgs, o ≠ .handle msgs) : Follows t o := by
  refine ⟨fun msgs h => absurd h (hhandle msgs), fun d h => ?_⟩
  rw [h] at hfetch
  cases hfetch

theorem fetchMore_follows (n : Nat) {out : List Message} {t : Handlings} (hout : filling t = out) :
    Prog.Meets (P := consumerPort) Follows
      (fun t' r => (r.2 = none → filling t' = r.1) ∧ ∀ err, r.2 = some (.other err) →
        filling t' = []) (fetchMore n out) t := by
  induction n generalizing out t with
  | zero => exact ⟨fun _ => hout, fun err h => by cases h⟩
  | succ n ih =>
    unfold fetchMore
    refine Consuming.meets_ask ⟨fun msgs h => ?_, fun d h => ?_⟩ fun a => ?_
    · cases h
    · cases h
      rw [hout]
    cases a with
    | ok msg =>
      refine ih ?_
      rw [filling_concat, hout]
      rfl
    | error err =>
      simp only
      split
      · next h =>
        refine ⟨fun _ => ?_, fun err' h' => by cases h'⟩
        rw [filling_concat, h.1]
        exact hout
      · refine ⟨fun h => ?_, fun err' h' => ?_⟩
        · cases h
        · cases h'
          rw [filling_concat]
          rfl

theorem fallback_follows (msgs : List Message) (t : Handlings) :
    Prog.Meets (P := consumerPort) Follows (fun t' _ => filling t' = filling t)
      (fallback msgs) t := by
  induction msgs generalizing t with
  | nil => rfl
  | cons m msgs ih =>
    unfold fallback
    refine Consuming.meets_ask (follows_of_quiet rfl fun msgs h => by cases h) fun a => ?_
    cases a with
    | ok _ =>
      refine (ih _).imp fun t' _ h => ?_
      rw [h, filling_concat]
      rfl
    | error err =>
      refine Consuming.meets_ask (follows_of_quiet rfl fun msgs h => by cases h) fun a => ?_
      refine (ih _).imp fun t' _ h => ?_
      rw [h, filling_concat, filling_concat]
      rfl

theorem handleBatch_follows {msgs : List Message} {t : Handlings} (hmsgs : filling t = msgs) :
    Prog.Meets (P := consumerPort) Follows (fun t' _ => filling t' = []) (handleBatch msgs) t := by
  have hcommit : ∀ t, Follows t (.commitMessages msgs) :=
    fun t => follows_of_quiet rfl fun msgs h => by cases h
  unfold handleBatch
  refine Consuming.meets_ask ⟨fun msgs' h => ?_, fun d h => ?_⟩ fun a => ?_
  · cases h
    exact hmsgs.symm
  · cases h
  cases a with
  | ok _ =>
    refine Consuming.meets_ask (hcommit _) fun b => ?_
    show filling _ = []
    rw [filling_concat, filling_concat]
    rfl
  | error err =>
    refine Prog.meets_bind (fallback_follows msgs _) fun t' _ h => ?_
    refine Consuming.meets_ask (hcommit _) fun b => ?_
    show filling _ = []
    rw [filling_concat, h, filling_concat]
    rfl

/-- Every round begins with no batch in hand. -/
theorem run_follows (c : BatchConsumer) (rounds : Nat) {t : Handlings} (ht : filling t = []) :
    Prog.Meets (P := consumerPort) Follows (fun _ _ => True) (c.run rounds) t := by
  induction rounds generalizing t with
  | zero => trivial
  | succ rounds ih =>
    unfold run
    refine Consuming.meets_ask (follows_of_quiet rfl fun msgs h => by cases h) fun a => ?_
    cases a with
    | some err => trivial
    | none =>
      have hstart : filling (t ++ [ConsumerOp.ctxErr.gave none]) = [] := by
        rw [filling_concat, ht]
        rfl
      refine Prog.meets_bind (fetchMore_follows c.batchSize hstart) fun t' r hr => ?_
      obtain ⟨msgs, _ | _ | _ | err⟩ := r
      · simp only
        have hfill : filling t' = msgs := hr.1 rfl
        split
        · next hnil => exact ih (hfill.trans hnil)
        · exact Prog.meets_bind (handleBatch_follows hfill) fun t'' _ h => ih h
      · trivial
      · trivial
      · exact ih (hr.2 err rfl)

/-- No fetch was cancelled. -/
def NotCanceled (t : Handlings) : Prop :=
  ∀ d, (ConsumerOp.fetchMessage d).gave (.error .canceled) ∉ t

/-- A fetch has failed with a message in hand, and not because of the deadline. -/
def Interrupted (t : Handlings) : Prop :=
  ∃ err, (ConsumerOp.fetchMessage true).gave (.error (.other err)) ∈ t

/-- The books of the calls `t`: in order until a batch is interrupted, and short of a message
from then on. -/
structure Balanced (t : Handlings) : Prop where
  complete : ¬ Interrupted t → fetched t = handled t ++ filling t
  le : (handled t).length + (filling t).length ≤ (fetched t).length
  short : Interrupted t → (handled t).length + (filling t).length < (fetched t).length

/-- A call that neither fetches nor hands over, nor fails a fetch, leaves the books alone. -/
theorem Balanced.quiet {t : Handlings} {x : Prog.Step consumerPort} (h : Balanced t)
    (hfetched : fetched (t ++ [x]) = fetched t) (hhandled : handled (t ++ [x]) = handled t)
    (hfilling : filling (t ++ [x]) = filling t) (hint : Interrupted (t ++ [x]) ↔ Interrupted t) :
    Balanced (t ++ [x]) := by
  constructor
  · rw [hint, hfetched, hhandled, hfilling]
    exact h.complete
  · rw [hfetched, hhandled, hfilling]
    exact h.le
  · rw [hint, hfetched, hhandled, hfilling]
    exact h.short

theorem interrupted_concat {t : Handlings} {x : Prog.Step consumerPort} :
    Interrupted (t ++ [x]) ↔ Interrupted t ∨
      ∃ err, x = (ConsumerOp.fetchMessage true).gave (.error (.other err)) := by
  unfold Interrupted
  constructor
  · rintro ⟨err, hmem⟩
    rcases List.mem_append.mp hmem with hmem | hmem
    · exact .inl ⟨err, hmem⟩
    · exact .inr ⟨err, (List.mem_singleton.mp hmem).symm⟩
  · rintro (⟨err, hmem⟩ | ⟨err, rfl⟩)
    · exact ⟨err, List.mem_append_left _ hmem⟩
    · exact ⟨err, List.mem_append_right _ (.head _)⟩

theorem Balanced.message {t : Handlings} (h : Balanced t) (d : Bool) (m : Message) :
    Balanced (t ++ [(ConsumerOp.fetchMessage d).gave (.ok m)]) := by
  have hfetched : fetched (t ++ [(ConsumerOp.fetchMessage d).gave (.ok m)]) = fetched t ++ [m] :=
    List.filterMap_append
  have hhandled : handled (t ++ [(ConsumerOp.fetchMessage d).gave (.ok m)]) = handled t := by
    simp [handled, ConsumerOp.gave]
  have hfilling : filling (t ++ [(ConsumerOp.fetchMessage d).gave (.ok m)]) = filling t ++ [m] :=
    filling_concat _ _
  have hint : Interrupted (t ++ [(ConsumerOp.fetchMessage d).gave (.ok m)]) ↔ Interrupted t := by
    rw [interrupted_concat]
    simp [ConsumerOp.gave]
  have hle := h.le
  constructor
  · intro hno
    rw [hfetched, hhandled, hfilling, h.complete fun hi => hno (hint.mpr hi), List.append_assoc]
  · rw [hfetched, hhandled, hfilling]
    simp only [List.length_append, List.length_singleton]
    omega
  · intro hi
    have hlt := h.short (hint.mp hi)
    rw [hfetched, hhandled, hfilling]
    simp only [List.length_append, List.length_singleton]
    omega

theorem Balanced.batch {t : Handlings} (h : Balanced t) (a : Res Unit) :
    Balanced (t ++ [(ConsumerOp.handle (filling t)).gave a]) := by
  have hfetched : fetched (t ++ [(ConsumerOp.handle (filling t)).gave a]) = fetched t := by
    simp [fetched, ConsumerOp.gave]
  have hhandled : handled (t ++ [(ConsumerOp.handle (filling t)).gave a]) =
      handled t ++ filling t := by
    simp [handled, ConsumerOp.gave]
  have hfilling : filling (t ++ [(ConsumerOp.handle (filling t)).gave a]) = [] :=
    filling_concat _ _
  have hint : Interrupted (t ++ [(ConsumerOp.handle (filling t)).gave a]) ↔ Interrupted t := by
    rw [interrupted_concat]
    simp [ConsumerOp.gave]
  constructor
  · intro hno
    rw [hfetched, hhandled, hfilling, h.complete fun hi => hno (hint.mpr hi), List.append_nil]
  · rw [hfetched, hhandled, hfilling, List.length_append]
    exact h.le
  · intro hi
    rw [hfetched, hhandled, hfilling, List.length_append]
    exact h.short (hint.mp hi)

/-- An error that is not the deadline's costs the batch in hand. -/
theorem Balanced.dropped {t : Handlings} (h : Balanced t) (err : Err) :
    Balanced (t ++ [(ConsumerOp.fetchMessage (!(filling t).isEmpty)).gave
      (.error (.other err))]) := by
  by_cases hnil : filling t = []
  · -- nothing was in hand
    rw [hnil]
    refine h.quiet (by simp [fetched, ConsumerOp.gave]) (by simp [handled, ConsumerOp.gave]) ?_ ?_
    · rw [filling_concat, hnil]
      rfl
    · rw [interrupted_concat]
      simp [ConsumerOp.gave]
  · have hpos : 0 < (filling t).length := List.length_pos_iff.mpr hnil
    have hle := h.le
    have hd : (!(filling t).isEmpty) = true := by simp [hnil]
    rw [hd]
    have hlt : (handled (t ++ [(ConsumerOp.fetchMessage true).gave (.error (.other err))])).length +
        (filling (t ++ [(ConsumerOp.fetchMessage true).gave (.error (.other err))])).length <
        (fetched (t ++ [(ConsumerOp.fetchMessage true).gave (.error (.other err))])).length := by
      rw [filling_concat]
      simp only [fetched, handled, List.filterMap_append, List.flatMap_append, fillStep,
        ConsumerOp.gave] at hle ⊢
      simp at hle ⊢
      omega
    refine ⟨fun hno => ?_, hlt.le, fun _ => hlt⟩
    exact absurd (interrupted_concat.mpr (.inr ⟨err, rfl⟩)) hno

section
variable (c : BatchConsumer) (rounds : Nat) {t : Handlings} {q : Consuming (Option (Res Unit))}
  (hrun : Prog.Runs (P := consumerPort) (c.run rounds) t q)

include hrun

/-- The books balance in every run. -/
theorem run_balanced (hlive : NotCanceled t) : Balanced t := by
  revert hlive
  refine hrun.induction (Q := fun t => NotCanceled t → Balanced t) ?_ ?_
  · exact fun _ => ⟨fun _ => rfl, le_rfl, fun ⟨err, hmem⟩ => by cases hmem⟩
  intro t o k a hk ih hlive
  have hbal := ih fun d hmem => hlive d (List.mem_append_left _ hmem)
  have hfollows := (run_follows c rounds (t := []) rfl).call hk
  cases o with
  | handle msgs =>
    obtain rfl := hfollows.1 msgs rfl
    exact hbal.batch a
  | fetchMessage d =>
    obtain rfl := hfollows.2 d rfl
    rcases a with err | m
    · cases err with
      | canceled => exact absurd (List.mem_append_right _ (.head _)) (hlive _)
      | deadlineExceeded =>
        refine hbal.quiet (by simp [fetched]) (by simp [handled]) (filling_concat _ _) ?_
        rw [interrupted_concat]
        simp [ConsumerOp.gave]
      | other err => exact hbal.dropped err
    · exact hbal.message _ m
  | _ =>
    refine hbal.quiet (by simp [fetched]) (by simp [handled]) (filling_concat _ _) ?_
    rw [interrupted_concat]
    simp [ConsumerOp.gave]

/-- **The handler is given every message, in order**, exactly if no fetch fails while a message
is in hand. -/
theorem handled_in_order_iff (hlive : NotCanceled t) :
    fetched t = handled t ++ filling t ↔ ¬ Interrupted t := by
  have hbal := c.run_balanced rounds hrun hlive
  constructor
  · intro heq hi
    have hlt := hbal.short hi
    rw [heq, List.length_append] at hlt
    omega
  · exact hbal.complete

end

/-- Two messages, the second of which comes after the deadline of the first. -/
def slowCalls : Handlings :=
  [ConsumerOp.ctxErr.gave none,
    (ConsumerOp.fetchMessage false).gave (.ok .sample),
    (ConsumerOp.fetchMessage true).gave (.error .deadlineExceeded),
    (ConsumerOp.handle [.sample]).gave (.ok ()),
    (ConsumerOp.commitMessages [.sample]).gave (.ok ()),
    ConsumerOp.ctxErr.gave none,
    (ConsumerOp.fetchMessage false).gave (.ok .following)]

theorem handled_in_order_slow :
    ∃ q, Prog.Runs (P := consumerPort) (run ⟨2⟩ 2) slowCalls q ∧ NotCanceled slowCalls ∧
      (fetched slowCalls = handled slowCalls ++ filling slowCalls ↔ ¬ Interrupted slowCalls) ∧
      fetched slowCalls = [.sample, .following] ∧ handled slowCalls = [.sample] ∧
      filling slowCalls = [.following] := by
  have hlive : NotCanceled slowCalls := by
    intro d hmem
    simp [slowCalls, ConsumerOp.gave] at hmem
  have hrun : Prog.Runs (P := consumerPort) (run ⟨2⟩ 2) slowCalls _ :=
    .cons _ _ _ (.cons _ _ _ (.cons _ _ _ (.cons _ _ _ (.cons _ _ _ (.cons _ _ _
      (.cons _ _ _ (.nil _)))))))
  exact ⟨_, hrun, hlive, handled_in_order_iff ⟨2⟩ 2 hrun hlive, rfl, rfl, rfl⟩

/-- The second fetch of a batch fails; the next message is handled and committed. -/
def interruptedCalls : Handlings :=
  [ConsumerOp.ctxErr.gave none,
    (ConsumerOp.fetchMessage false).gave (.ok .sample),
    (ConsumerOp.fetchMessage true).gave (.error (.other (.new (bytes "connection reset")))),
    ConsumerOp.ctxErr.gave none,
    (ConsumerOp.fetchMessage false).gave (.ok .following),
    (ConsumerOp.fetchMessage true).gave (.error .deadlineExceeded),
    (ConsumerOp.handle [.following]).gave (.ok ()),
    (ConsumerOp.commitMessages [.following]).gave (.ok ())]

/-- The first message is never handled, and the commit moves past it. -/
theorem handled_in_order_interrupted :
    ∃ q, Prog.Runs (P := consumerPort) (run ⟨2⟩ 3) interruptedCalls q ∧
      NotCanceled interruptedCalls ∧
      fetched interruptedCalls = [.sample, .following] ∧
      handled interruptedCalls ++ filling interruptedCalls = [.following] ∧
      fetched interruptedCalls ≠ handled interruptedCalls ++ filling interruptedCalls := by
  have hlive : NotCanceled interruptedCalls := by
    intro d hmem
    simp [interruptedCalls, ConsumerOp.gave] at hmem
  have hrun : Prog.Runs (P := consumerPort) (run ⟨2⟩ 3) interruptedCalls _ :=
    .cons _ _ _ (.cons _ _ _ (.cons _ _ _ (.cons _ _ _ (.cons _ _ _ (.cons _ _ _ (.cons _ _ _
      (.cons _ _ _ (.nil _))))))))
  exact ⟨_, hrun, hlive, rfl, rfl, by decide⟩

end BatchConsumer

end EasyPay
