import Mathlib.Data.List.TakeWhile
import EasyPay.Lib.Strings

/-!
# Request targets

The target of an HTTP request is a path and a query: the path ends at the first `?` or `#`, the query
stands between a `?` there and a `#`.  The arguments of the query are decoded, the path is not.

* `path_append`, `query_append`: a target that is put together from a path and a query.
* `value_singleton`: the value of a query with one argument.
-/

namespace GoStrings

namespace Target

/-! ## Path and query -/

/-- `?` or `#`. -/
def endsPath (c : UInt8) : Bool := c = 63 || c = 35

def path (target : Str) : Str := target.takeWhile fun c => !endsPath c

def query (target : Str) : Str :=
  match target.dropWhile fun c => !endsPath c with
  | 63 :: q => q.takeWhile fun c => c ≠ 35
  | _ => []

theorem endsPath_of_mem_path {target : Str} {c : UInt8} (h : c ∈ path target) :
    endsPath c = false := by
  simpa using List.mem_takeWhile_imp h

theorem path_append {p q : Str} (hp : ∀ c ∈ p, endsPath c = false) : path (p ++ 63 :: q) = p := by
  unfold path
  rw [List.takeWhile_append_of_pos fun c hc => by rw [hp c hc]; rfl,
    List.takeWhile_cons_of_neg (by decide), List.append_nil]

theorem query_append {p q : Str} (hp : ∀ c ∈ p, endsPath c = false) (hq : 35 ∉ q) :
    query (p ++ 63 :: q) = q := by
  unfold query
  rw [List.dropWhile_append_of_pos fun c hc => by rw [hp c hc]; rfl,
    List.dropWhile_cons_of_neg (by decide)]
  refine List.takeWhile_eq_self_iff.mpr fun c hc => decide_eq_true ?_
  rintro rfl
  exact hq hc

/-! ## Arguments -/

/-- Percent-decoding; `+` is a blank, and a `%` without two hex digits stays as it is. -/
def decodeArg : Str → Str
  | [] => []
  | 37 :: a :: b :: s =>
    match hexVal a, hexVal b with
    | some x, some y => (16 * x + y) :: decodeArg s
    | _, _ => 37 :: decodeArg (a :: b :: s)
  | 37 :: s => 37 :: s
  | c :: s => (if c = 43 then 32 else c) :: decodeArg s

theorem decodeArg_plain {s : Str} (h : ∀ c ∈ s, c ≠ 37 ∧ c ≠ 43) : decodeArg s = s := by
  induction s with
  | nil => rfl
  | cons c s ih =>
    obtain ⟨hpercent, hplus⟩ := h c List.mem_cons_self
    rw [decodeArg, if_neg hplus, ih fun d hd => h d (List.mem_cons_of_mem _ hd)]
    · exact fun a b s' hc => absurd hc hpercent
    · exact fun hc => absurd hc hpercent

/-- An argument, its name and its value. -/
def arg (s : Str) : Str × Str :=
  match cut 61 s with
  | some (k, v) => (decodeArg k, decodeArg v)
  | none => (decodeArg s, [])

/-- The value of the first argument of this name, empty if there is none. -/
def value (name q : Str) : Str := (((q.splitOn 38).map arg).lookup name).getD []

/-- A byte that stands for itself in an argument. -/
def plain (c : UInt8) : Bool := c != 37 && c != 43 && c != 38 && c != 61 && c != 35

theorem plain_iff {c : UInt8} :
    plain c = true ↔ c ≠ 37 ∧ c ≠ 43 ∧ c ≠ 38 ∧ c ≠ 61 ∧ c ≠ 35 := by
  simp [plain, and_assoc]

theorem value_singleton {name v : Str} (hname : ∀ c ∈ name, plain c = true)
    (hv : ∀ c ∈ v, plain c = true) : value name (name ++ 61 :: v) = v := by
  have hdecode : ∀ s : Str, (∀ c ∈ s, plain c = true) → decodeArg s = s := fun s hs =>
    decodeArg_plain fun c hc => ⟨(plain_iff.mp (hs c hc)).1, (plain_iff.mp (hs c hc)).2.1⟩
  have hamp : 38 ∉ name ++ 61 :: v := by
    intro hmem
    rcases List.mem_append.mp hmem with hmem | hmem
    · exact (plain_iff.mp (hname 38 hmem)).2.2.1 rfl
    · rcases List.mem_cons.mp hmem with heq | hmem
      · exact absurd heq (by decide)
      · exact (plain_iff.mp (hv 38 hmem)).2.2.1 rfl
  have heq : 61 ∉ name := fun hmem => (plain_iff.mp (hname 61 hmem)).2.2.2.1 rfl
  unfold value arg
  rw [List.splitOn_eq_singleton hamp]
  simp only [List.map_cons, List.map_nil, cut_append 61 name v heq, hdecode name hname, hdecode v hv,
    List.lookup_cons_self, Option.getD_some]

end Target

end GoStrings
