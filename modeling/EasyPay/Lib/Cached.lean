import Mathlib.Data.List.AList
import Mathlib.Data.List.Induction

/-!
# Cached values

Events write to a map: an event puts a value under a key, drops a key, or writes nothing.  A cache
of the map may forget an entry at any time, and holds no other.

* `LastPut w es k v`: of the events of `es` that write to `k`, the last puts `v`.
* `Follows d x d'`: the cache goes from `d` to `d'` with the write `x`, and may forget entries.
* `shows_run`: a cache that follows the events holds nothing but what was put last.

The size of a cache goes down by one when it forgets an entry it has, and up by at most one when it
writes one.
-/

namespace Cached

inductive Write (K V : Type)
  | put (key : K) (value : V)
  | drop (key : K)
  deriving DecidableEq, Repr

def Write.key {K V : Type} : Write K V → K
  | put key _ => key
  | drop key => key

/-! ## The last put -/

section
variable {K V E : Type} (w : E → Option (Write K V))

/-- The event does not write to the key. -/
def Spares (k : K) (e : E) : Prop := ∀ x ∈ w e, x.key ≠ k

def LastPut (es : List E) (k : K) (v : V) : Prop :=
  ∃ before e after, es = before ++ e :: after ∧ w e = some (.put k v) ∧ ∀ e' ∈ after, Spares w k e'

variable {w}

theorem lastPut_concat_self {e : E} {k : K} {v : V} (he : w e = some (.put k v)) (es : List E) :
    LastPut w (es ++ [e]) k v :=
  ⟨es, e, [], rfl, he, fun e' he' => by cases he'⟩

theorem LastPut.concat {es : List E} {k : K} {v : V} (h : LastPut w es k v) {e : E}
    (he : Spares w k e) : LastPut w (es ++ [e]) k v := by
  obtain ⟨before, e₀, after, rfl, hput, hafter⟩ := h
  refine ⟨before, e₀, after ++ [e], by simp, hput, fun e' he' => ?_⟩
  rcases List.mem_append.mp he' with he' | he'
  · exact hafter e' he'
  · rw [List.mem_singleton.mp he']
    exact he

end

/-! ## Caches -/

section
variable {K V E S : Type} [DecidableEq K]

/-- What is left of `d` is some of its entries. -/
def Forgets (d d' : AList fun _ : K => V) : Prop :=
  ∀ k v, d'.lookup k = some v → d.lookup k = some v

theorem Forgets.refl (d : AList fun _ : K => V) : Forgets d d := fun _ _ h => h

theorem Forgets.trans {d d' d'' : AList fun _ : K => V} (h : Forgets d d') (h' : Forgets d' d'') :
    Forgets d d'' := fun k v hk => h k v (h' k v hk)

theorem lookup_of_erase {d : AList fun _ : K => V} {key k : K} {v : V}
    (h : (d.erase key).lookup k = some v) : k ≠ key ∧ d.lookup k = some v := by
  by_cases hk : k = key
  · subst hk
    rw [AList.lookup_erase] at h
    cases h
  · rw [AList.lookup_erase_ne hk] at h
    exact ⟨hk, h⟩

theorem forgets_erase (d : AList fun _ : K => V) (key : K) : Forgets d (d.erase key) :=
  fun _ _ h => (lookup_of_erase h).2

/-- One write, before which the cache may forget entries. -/
def Follows (d : AList fun _ : K => V) :
    Option (Write K V) → (AList fun _ : K => V) → Prop
  | none, d' => Forgets d d'
  | some (.put key value), d' => ∃ d₁, Forgets d d₁ ∧ d' = d₁.insert key value
  | some (.drop key), d' => d' = d.erase key

/-- What is true of all entries stays so, if it is true of the one that is put. -/
theorem Follows.forall {P : V → Prop} {d d' : AList fun _ : K => V} {x : Option (Write K V)}
    (h : Follows d x d') (hd : ∀ k v, d.lookup k = some v → P v)
    (hx : ∀ k v, x = some (.put k v) → P v) : ∀ k v, d'.lookup k = some v → P v := by
  intro k v hk
  match x, h with
  | none, h => exact hd k v (h k v hk)
  | some (.put key value), ⟨d₁, hd₁, hd'⟩ =>
    subst hd'
    by_cases hkey : k = key
    · subst hkey
      rw [AList.lookup_insert] at hk
      cases hk
      exact hx k v rfl
    · rw [AList.lookup_insert_ne hkey] at hk
      exact hd k v (hd₁ k v hk)
  | some (.drop key), h =>
    subst h
    exact hd k v (lookup_of_erase hk).2

variable {w : E → Option (Write K V)}

variable (w) in
/-- All that the cache holds was put last. -/
def Shows (es : List E) (d : AList fun _ : K => V) : Prop :=
  ∀ k v, d.lookup k = some v → LastPut w es k v

theorem Shows.step {es : List E} {d d' : AList fun _ : K => V} (h : Shows w es d) {e : E}
    (hd : Follows d (w e) d') : Shows w (es ++ [e]) d' := by
  intro k v hk
  cases he : w e with
  | none =>
    rw [he] at hd
    refine (h k v (hd k v hk)).concat fun x hx => ?_
    rw [he] at hx
    cases hx
  | some x =>
    rw [he] at hd
    cases x with
    | put key value =>
      obtain ⟨d₁, hd₁, rfl⟩ := hd
      by_cases hkey : k = key
      · subst hkey
        rw [AList.lookup_insert] at hk
        cases hk
        exact lastPut_concat_self he es
      · rw [AList.lookup_insert_ne hkey] at hk
        refine (h k v (hd₁ k v hk)).concat fun x hx => ?_
        rw [he] at hx
        cases hx
        exact Ne.symm hkey
    | drop key =>
      cases hd
      obtain ⟨hkey, hk⟩ := lookup_of_erase hk
      refine (h k v hk).concat fun x hx => ?_
      rw [he] at hx
      cases hx
      exact Ne.symm hkey

/-- **What a cache shows** is what was put last, if it follows the events from empty, in the states
it can be in. -/
theorem shows_run (data : S → AList fun _ : K => V) {step : S → E → S} {I : S → Prop}
    (hI : ∀ s e, I s → I (step s e))
    (hstep : ∀ s e, I s → Follows (data s) (w e) (data (step s e))) {s : S} (hs : I s)
    (hempty : data s = ∅) (es : List E) :
    I (es.foldl step s) ∧ Shows w es (data (es.foldl step s)) := by
  induction es using List.reverseRecOn with
  | nil =>
    refine ⟨hs, fun k v hk => ?_⟩
    rw [List.foldl_nil, hempty, AList.lookup_empty] at hk
    cases hk
  | append_singleton es e ih =>
    rw [List.foldl_append]
    exact ⟨hI _ e ih.1, ih.2.step (hstep _ e ih.1)⟩

/-! ## Sizes -/

theorem length_erase_of_mem {d : AList fun _ : K => V} {e : Σ _ : K, V} (h : e ∈ d.entries) :
    (d.erase e.1).entries.length + 1 = d.entries.length := by
  have hkeys : ∀ d : AList fun _ : K => V, d.entries.length = d.keys.length := fun d =>
    (List.length_map _).symm
  have hmem : e.1 ∈ d.keys := List.mem_map_of_mem h
  have hpos := List.length_pos_of_mem hmem
  rw [hkeys, hkeys, AList.keys_erase, List.length_erase_of_mem hmem]
  omega

theorem length_erase_le (d : AList fun _ : K => V) (k : K) :
    (d.erase k).entries.length ≤ d.entries.length :=
  (List.kerase_sublist k d.entries).length_le

theorem length_insert_le (d : AList fun _ : K => V) (k : K) (v : V) :
    (d.insert k v).entries.length ≤ d.entries.length + 1 := by
  rw [AList.entries_insert, List.length_cons]
  exact Nat.succ_le_succ (length_erase_le d k)

end

end Cached
