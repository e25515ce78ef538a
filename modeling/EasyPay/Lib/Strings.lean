import Mathlib.Algebra.Group.Int.Defs
import Mathlib.Algebra.Group.Nat.Defs
import Mathlib.Data.List.Basic

/-!
# Go strings

A Go string is a list of bytes.  The functions of the standard library that a
program uses on strings, under their own names: case mapping and `EqualFold`,
`TrimSpace`, `strconv.FormatInt` / `ParseInt`, `encoding/hex`, and `SplitN` with
two parts.

Case mapping follows the library's own split: a string of ASCII bytes is mapped
byte by byte, every other string goes through the Unicode tables, which are
the parameter `Unicode`.

The last section is about strings joined with a separator byte: when two joined
pairs are the same string (`join_eq_join_iff`).
-/

namespace GoStrings

abbrev Str := List UInt8

/-- The bytes of a string literal. -/
def bytes (s : String) : Str := s.toUTF8.data.toList

/-! ## Case -/

def isASCII (s : Str) : Bool := s.all (· < 128)

def upperByte (c : UInt8) : UInt8 := if 97 ≤ c ∧ c ≤ 122 then c - 32 else c

def lowerByte (c : UInt8) : UInt8 := if 65 ≤ c ∧ c ≤ 90 then c + 32 else c

/-- The part of the `strings` and `strconv` packages that reads the Unicode tables:
`Map(unicode.ToUpper, s)`, `Map(unicode.ToLower, s)`, `EqualFold` from the first
non-ASCII byte on, and `Quote` of a string with a non-ASCII byte. -/
structure Unicode where
  mapUpper : Str → Str
  mapLower : Str → Str
  foldFrom : Str → Str → Bool
  quoteAny : Str → Str
  /-- The upper case of an upper-cased string is itself. -/
  upper_idem : ∀ s, isASCII s = false →
    (if isASCII (mapUpper s) then (mapUpper s).map upperByte else mapUpper (mapUpper s)) =
      mapUpper s

section
variable (U : Unicode)

def toUpper (s : Str) : Str := if isASCII s then s.map upperByte else U.mapUpper s

def toLower (s : Str) : Str := if isASCII s then s.map lowerByte else U.mapLower s

def equalFold : Str → Str → Bool
  | a :: s, b :: t =>
    if a < 128 ∧ b < 128 then
      if lowerByte a = lowerByte b then equalFold s t else false
    else U.foldFrom (a :: s) (b :: t)
  | [], [] => true
  | _, _ => false

end

/-- The case tables of a program that only sees ASCII strings. -/
def Unicode.ascii : Unicode where
  mapUpper s := s
  mapLower s := s
  foldFrom s t := s == t
  quoteAny s := s
  upper_idem := by
    intro s h
    rw [h]
    rfl

def hasPrefix (s p : Str) : Bool := p.isPrefixOf s

/-- `strings.Contains`. -/
def contains (s sub : Str) : Bool := s.tails.any (sub.isPrefixOf ·)

/-- A fact about a byte is a fact about the numbers below 256. -/
theorem forall_byte {p : UInt8 → Prop} (h : ∀ n, n < 256 → p n.toUInt8) (c : UInt8) : p c := by
  have hc := h c.toNat c.toNat_lt
  have e : c.toNat.toUInt8 = c := by simp
  rwa [e] at hc

theorem upperByte_idem (c : UInt8) : upperByte (upperByte c) = upperByte c := by
  unfold upperByte
  grind

theorem upperByte_lt (c : UInt8) : c < 128 → upperByte c < 128 := by
  unfold upperByte
  grind

theorem lowerByte_upperByte (c : UInt8) : lowerByte (upperByte c) = lowerByte c := by
  unfold lowerByte upperByte
  grind

theorem isASCII_map_upperByte (s : Str) (h : isASCII s = true) :
    isASCII (s.map upperByte) = true := by
  unfold isASCII at h ⊢
  rw [List.all_eq_true] at h ⊢
  intro c hc
  obtain ⟨d, hd, rfl⟩ := List.mem_map.mp hc
  exact decide_eq_true (upperByte_lt d (of_decide_eq_true (h d hd)))

theorem toUpper_idem (U : Unicode) (s : Str) : toUpper U (toUpper U s) = toUpper U s := by
  unfold toUpper
  by_cases h : isASCII s = true
  · rw [if_pos h, if_pos (isASCII_map_upperByte s h), List.map_map]
    congr 1
    funext c
    exact upperByte_idem c
  · rw [if_neg h]
    exact U.upper_idem s (by simpa using h)

theorem equalFold_refl_ascii (U : Unicode) (s : Str) (h : isASCII s = true) :
    equalFold U s s = true := by
  induction s with
  | nil => rfl
  | cons a s ih =>
    unfold isASCII at h
    simp only [List.all_cons, Bool.and_eq_true, decide_eq_true_eq] at h
    unfold equalFold
    rw [if_pos ⟨h.1, h.1⟩, if_pos rfl]
    exact ih h.2

/-- On ASCII strings `EqualFold` compares the lower-cased bytes. -/
theorem map_lowerByte_of_equalFold (U : Unicode) (s t : Str) (hs : isASCII s = true)
    (ht : isASCII t = true) (h : equalFold U s t = true) : s.map lowerByte = t.map lowerByte := by
  induction s generalizing t with
  | nil =>
    cases t with
    | nil => rfl
    | cons b t => simp [equalFold] at h
  | cons a s ih =>
    cases t with
    | nil => simp [equalFold] at h
    | cons b t =>
      unfold isASCII at hs ht
      simp only [List.all_cons, Bool.and_eq_true, decide_eq_true_eq] at hs ht
      unfold equalFold at h
      rw [if_pos ⟨hs.1, ht.1⟩] at h
      split at h
      · next hab => simp only [List.map_cons, hab, ih t hs.2 ht.2 h]
      · cases h

/-! ## White space -/

/-- The UTF-8 encodings of the runes `unicode.IsSpace` accepts. -/
def spaces : List Str :=
  [[9], [10], [11], [12], [13], [32], [0xC2, 0x85], [0xC2, 0xA0], [0xE1, 0x9A, 0x80],
   [0xE2, 0x80, 0x80], [0xE2, 0x80, 0x81], [0xE2, 0x80, 0x82], [0xE2, 0x80, 0x83],
   [0xE2, 0x80, 0x84], [0xE2, 0x80, 0x85], [0xE2, 0x80, 0x86], [0xE2, 0x80, 0x87],
   [0xE2, 0x80, 0x88], [0xE2, 0x80, 0x89], [0xE2, 0x80, 0x8A], [0xE2, 0x80, 0xA8],
   [0xE2, 0x80, 0xA9], [0xE2, 0x80, 0xAF], [0xE2, 0x81, 0x9F], [0xE3, 0x80, 0x80]]

/-- Drop words of `ws` from the front, `n` times at most. -/
def dropWords (ws : List Str) : Nat → Str → Str
  | 0, s => s
  | n + 1, s =>
    match ws.find? (·.isPrefixOf s) with
    | some w => dropWords ws n (s.drop w.length)
    | none => s

def trimSpace (s : Str) : Str :=
  let l := dropWords spaces s.length s
  (dropWords (spaces.map List.reverse) l.length l.reverse).reverse

/-- A printable ASCII byte that is not a blank. -/
def isGraphic (c : UInt8) : Bool := 33 ≤ c ∧ c ≤ 126

theorem dropWords_graphic {ws : List Str}
    (hws : ∀ w ∈ ws, w ≠ [] ∧ w.all (!isGraphic ·) = true) (n : Nat) {s : Str}
    (hs : ∀ c ∈ s, isGraphic c = true) : dropWords ws n s = s := by
  cases n with
  | zero => rfl
  | succ n =>
    have hfind : ws.find? (·.isPrefixOf s) = none := by
      rw [List.find?_eq_none]
      intro w hw hpre
      obtain ⟨hne, hblank⟩ := hws w hw
      obtain ⟨c, hc⟩ := List.exists_mem_of_ne_nil w hne
      have hgraphic := hs c ((List.isPrefixOf_iff_prefix.mp hpre).subset hc)
      have hnot := List.all_eq_true.mp hblank c hc
      rw [hgraphic] at hnot
      cases hnot
    rw [dropWords, hfind]

/-- There is nothing to trim where there are no blanks. -/
theorem trimSpace_graphic {s : Str} (hs : ∀ c ∈ s, isGraphic c = true) : trimSpace s = s := by
  have hrev : ∀ c ∈ s.reverse, isGraphic c = true := fun c hc => hs c (List.mem_reverse.mp hc)
  unfold trimSpace
  simp only
  rw [dropWords_graphic (by decide) _ hs, dropWords_graphic (by decide) _ hrev, List.reverse_reverse]

/-- Dropping stops where no word comes. -/
theorem dropWords_of_none {ws : List Str} {s : Str} (h : ∀ w ∈ ws, ¬ w <+: s) (n : Nat) :
    dropWords ws n s = s := by
  cases n with
  | zero => rfl
  | succ n =>
    have hfind : ws.find? (·.isPrefixOf s) = none := by
      rw [List.find?_eq_none]
      exact fun w hw hpre => h w hw (List.isPrefixOf_iff_prefix.mp hpre)
    rw [dropWords, hfind]

/-- Words are dropped as they were put together, if none of them starts another. -/
theorem dropWords_flatten {ws : List Str} (hfree : ∀ a ∈ ws, ∀ b ∈ ws, a <+: b → a = b)
    {pre : List Str} (hpre : ∀ w ∈ pre, w ∈ ws) (s : Str) {n : Nat} (hn : pre.length ≤ n) :
    dropWords ws n (pre.flatten ++ s) = dropWords ws (n - pre.length) s := by
  induction pre generalizing n with
  | nil => rfl
  | cons w pre ih =>
    obtain ⟨n, rfl⟩ : ∃ k, n = k + 1 := ⟨n - 1, by rw [List.length_cons] at hn; omega⟩
    have hw := hpre w List.mem_cons_self
    have hself : w <+: (w :: pre).flatten ++ s := by
      rw [List.flatten_cons, List.append_assoc]
      exact List.prefix_append _ _
    -- the first word that fits is this one
    have hfind : ws.find? (·.isPrefixOf ((w :: pre).flatten ++ s)) = some w := by
      cases hf : ws.find? (·.isPrefixOf ((w :: pre).flatten ++ s)) with
      | none => exact absurd (List.isPrefixOf_iff_prefix.mpr hself) (List.find?_eq_none.mp hf w hw)
      | some u =>
        have hu := List.mem_of_find?_eq_some hf
        have hfits := List.find?_some hf
        rw [List.isPrefixOf_iff_prefix] at hfits
        rcases List.prefix_or_prefix_of_prefix hfits hself with h | h
        · rw [hfree u hu w hw h]
        · rw [hfree w hw u hu h]
    have hdrop : ((w :: pre).flatten ++ s).drop w.length = pre.flatten ++ s := by
      rw [List.flatten_cons, List.append_assoc, List.drop_left]
    rw [List.length_cons] at hn
    rw [dropWords, hfind]
    simp only
    rw [hdrop, ih (fun u hu => hpre u (List.mem_cons_of_mem _ hu)) (by omega), List.length_cons,
      Nat.add_sub_add_right]

/-- What a string starts with ends before the first byte that is not in it. -/
theorem prefix_of_notMem {c : UInt8} {a b w : Str} (hw : c ∉ w) (h : w <+: a ++ c :: b) : w <+: a := by
  by_cases hlen : w.length ≤ a.length
  · exact List.prefix_of_prefix_length_le h (List.prefix_append _ _) hlen
  · have hto : a ++ [c] <+: a ++ c :: b := ⟨b, by rw [List.append_assoc]; rfl⟩
    have hinto := List.prefix_of_prefix_length_le hto h
      (by rw [List.length_append, List.length_singleton]; omega)
    exact absurd (hinto.subset (List.mem_append_right _ List.mem_cons_self)) hw

/-- A byte that is in no word is not dropped, nor what is behind it. -/
theorem dropWords_append_cons {ws : List Str} {c : UInt8} (hc : ∀ w ∈ ws, c ∉ w) (n : Nat) (a b : Str) :
    ∃ a', dropWords ws n (a ++ c :: b) = a' ++ c :: b ∧ a' <:+ a := by
  induction n generalizing a with
  | zero => exact ⟨a, rfl, List.suffix_rfl⟩
  | succ n ih =>
    rw [dropWords]
    split
    · next w hf =>
      have hfits := List.find?_some hf
      rw [List.isPrefixOf_iff_prefix] at hfits
      have hshort := (prefix_of_notMem (hc w (List.mem_of_find?_eq_some hf)) hfits).length_le
      rw [List.drop_append_of_le_length hshort]
      obtain ⟨a', ha', hsuf⟩ := ih (a.drop w.length)
      exact ⟨a', ha', hsuf.trans (List.drop_suffix _ _)⟩
    · exact ⟨a, rfl, List.suffix_rfl⟩

theorem dropWords_suffix (ws : List Str) (n : Nat) (s : Str) : dropWords ws n s <:+ s := by
  induction n generalizing s with
  | zero => exact List.suffix_rfl
  | succ n ih =>
    rw [dropWords]
    split
    · exact (ih _).trans (List.drop_suffix _ _)
    · exact List.suffix_rfl

/-- What is left after trimming was there before. -/
theorem mem_of_mem_trimSpace {c : UInt8} {s : Str} (h : c ∈ trimSpace s) : c ∈ s := by
  unfold trimSpace at h
  simp only at h
  have hback := (dropWords_suffix _ _ _).subset (List.mem_reverse.mp h)
  exact (dropWords_suffix _ _ _).subset (List.mem_reverse.mp hback)

/-- Blanks: any number of runes that `unicode.IsSpace` accepts. -/
def IsBlank (b : Str) : Prop := ∃ ws : List Str, (∀ w ∈ ws, w ∈ spaces) ∧ b = ws.flatten

/-- There is no blank in the string. -/
def BlankFree (s : Str) : Prop := ∀ w ∈ spaces, ¬ w <:+: s

/-- No space starts another, and none ends another. -/
theorem spaces_free : (∀ a ∈ spaces, ∀ b ∈ spaces, a <+: b → a = b) ∧
    ∀ a ∈ spaces.map List.reverse, ∀ b ∈ spaces.map List.reverse, a <+: b → a = b := by
  have hfree : ∀ ws : List Str, (ws.all fun a => ws.all fun b => !a.isPrefixOf b || a == b) = true →
      ∀ a ∈ ws, ∀ b ∈ ws, a <+: b → a = b := by
    intro ws h a ha b hb hpre
    have hab := List.all_eq_true.mp (List.all_eq_true.mp h a ha) b hb
    rw [List.isPrefixOf_iff_prefix.mpr hpre] at hab
    simpa using hab
  have hall : [spaces, spaces.map List.reverse].all (fun ws =>
      ws.all fun a => ws.all fun b => !a.isPrefixOf b || a == b) = true := by decide +kernel
  exact ⟨hfree _ (List.all_eq_true.mp hall _ List.mem_cons_self),
    hfree _ (List.all_eq_true.mp hall _ (List.mem_cons_of_mem _ List.mem_cons_self))⟩

theorem spaces_ne_nil : ∀ w ∈ spaces, w ≠ [] := by decide

theorem length_le_of_spaces {ws : List Str} (h : ∀ w ∈ ws, w ∈ spaces) :
    ws.length ≤ ws.flatten.length := by
  induction ws with
  | nil => exact Nat.le_refl 0
  | cons w ws ih =>
    have hw := List.length_pos_of_ne_nil (spaces_ne_nil w (h w List.mem_cons_self))
    have hrest := ih fun u hu => h u (List.mem_cons_of_mem _ hu)
    rw [List.flatten_cons, List.length_append, List.length_cons]
    omega

/-- Blanks in front are dropped. -/
theorem dropWords_blank {p s : Str} (hp : IsBlank p) (hs : ∀ w ∈ spaces, ¬ w <+: s) :
    dropWords spaces (p ++ s).length (p ++ s) = s := by
  obtain ⟨ws, hws, rfl⟩ := hp
  have hlen := length_le_of_spaces hws
  rw [dropWords_flatten spaces_free.1 hws s (by rw [List.length_append]; omega),
    dropWords_of_none hs]

/-- Blanks at the end are dropped. -/
theorem dropWords_blank_reverse {q s : Str} (hq : IsBlank q)
    (hs : ∀ w ∈ spaces, ¬ w.reverse <+: s.reverse) :
    dropWords (spaces.map List.reverse) (s ++ q).length (s ++ q).reverse = s.reverse := by
  obtain ⟨ws, hws, rfl⟩ := hq
  have hlen := length_le_of_spaces hws
  have hrev : (s ++ ws.flatten).reverse = (ws.map List.reverse).reverse.flatten ++ s.reverse := by
    rw [List.reverse_append, List.reverse_flatten]
  have hmem : ∀ w ∈ (ws.map List.reverse).reverse, w ∈ spaces.map List.reverse := by
    intro w hw
    obtain ⟨u, hu, rfl⟩ := List.mem_map.mp (List.mem_reverse.mp hw)
    exact List.mem_map_of_mem (hws u hu)
  rw [hrev, dropWords_flatten spaces_free.2 hmem _
    (by rw [List.length_reverse, List.length_map, List.length_append]; omega)]
  refine dropWords_of_none (fun w hw => ?_) _
  obtain ⟨u, hu, rfl⟩ := List.mem_map.mp hw
  exact hs u hu

/-- A graphic byte is in no space. -/
theorem isGraphic_notMem_spaces {c : UInt8} (hc : isGraphic c = true) : ∀ w ∈ spaces, c ∉ w := by
  have hall : (spaces.all fun w => w.all (!isGraphic ·)) = true := by decide
  intro w hw hmem
  have hnot := List.all_eq_true.mp (List.all_eq_true.mp hall w hw) c hmem
  rw [hc] at hnot
  cases hnot

theorem isBlank_nil : IsBlank [] := ⟨[], fun _ h => absurd h List.not_mem_nil, rfl⟩

theorem IsBlank.notMem {b : Str} (h : IsBlank b) {c : UInt8} (hc : isGraphic c = true) : c ∉ b := by
  obtain ⟨ws, hws, rfl⟩ := h
  intro hmem
  obtain ⟨w, hw, hcw⟩ := List.mem_flatten.mp hmem
  exact isGraphic_notMem_spaces hc w (hws w hw) hcw

/-- Blanks around a string of graphic bytes are trimmed. -/
theorem trimSpace_blank {p q : Str} (hp : IsBlank p) (hq : IsBlank q) {s : Str} (hne : s ≠ [])
    (hs : ∀ c ∈ s, isGraphic c = true) : trimSpace (p ++ s ++ q) = s := by
  have hfront : ∀ w ∈ spaces, ¬ w <+: s ++ q := by
    obtain ⟨c, t, rfl⟩ := List.exists_cons_of_ne_nil hne
    intro w hw hpre
    have hgraphic := isGraphic_notMem_spaces (hs c List.mem_cons_self) w hw
    exact spaces_ne_nil w hw (List.prefix_nil.mp (prefix_of_notMem (a := []) hgraphic hpre))
  have hback : ∀ w ∈ spaces, ¬ w.reverse <+: s.reverse := by
    intro w hw hpre
    obtain ⟨c, hc⟩ := List.exists_mem_of_ne_nil w (spaces_ne_nil w hw)
    have hcs := List.mem_reverse.mp (hpre.subset (List.mem_reverse.mpr hc))
    exact isGraphic_notMem_spaces (hs c hcs) w hw hc
  unfold trimSpace
  simp only
  rw [List.append_assoc, dropWords_blank hp hfront, dropWords_blank_reverse hq hback,
    List.reverse_reverse]

/-- Trimming an entry leaves its key alone. -/
theorem trimSpace_entry {p k : Str} {c : UInt8} (hp : IsBlank p) (hk : BlankFree k)
    (hc : isGraphic c = true) (v : Str) :
    ∃ v', trimSpace (p ++ k ++ c :: v) = k ++ c :: v' := by
  have hfront : ∀ w ∈ spaces, ¬ w <+: k ++ c :: v := by
    intro w hw hpre
    exact hk w hw (prefix_of_notMem (isGraphic_notMem_spaces hc w hw) hpre).isInfix
  have hnot : ∀ w ∈ spaces.map List.reverse, c ∉ w := by
    intro w hw hmem
    obtain ⟨u, hu, rfl⟩ := List.mem_map.mp hw
    exact isGraphic_notMem_spaces hc u hu (List.mem_reverse.mp hmem)
  have hrev : (k ++ c :: v).reverse = v.reverse ++ c :: k.reverse := by simp
  obtain ⟨a', ha', -⟩ := dropWords_append_cons hnot (k ++ c :: v).length v.reverse k.reverse
  refine ⟨a'.reverse, ?_⟩
  unfold trimSpace
  simp only
  rw [List.append_assoc, dropWords_blank hp hfront, hrev, ha']
  simp

/-! ## Decimal numbers -/

def formatNat (n : Nat) : Str := (Nat.toDigits 10 n).map fun c => c.toNat.toUInt8

/-- `strconv.FormatInt(n, 10)`, and `%d`. -/
def formatInt (n : Int) : Str := if n < 0 then 45 :: formatNat n.natAbs else formatNat n.natAbs

def isDigit (c : UInt8) : Bool := 48 ≤ c ∧ c ≤ 57

def parseNat (s : Str) : Option Nat :=
  if s ≠ [] ∧ s.all isDigit then some (s.foldl (fun n c => 10 * n + (c.toNat - 48)) 0) else none

/-- A decimal number with an optional sign. -/
def parseSigned : Str → Option Int
  | [] => none
  | c :: s =>
    if c = 43 then (parseNat s).map Int.ofNat
    else if c = 45 then (parseNat s).map fun n => -Int.ofNat n
    else (parseNat (c :: s)).map Int.ofNat

/-- `strconv.ParseInt(s, 10, 64)`; syntax and range errors are `none`. -/
def parseInt (s : Str) : Option Int64 :=
  match parseSigned s with
  | some n => if -2 ^ 63 ≤ n ∧ n < 2 ^ 63 then some (Int64.ofInt n) else none
  | none => none

theorem formatNat_digits (n : Nat) : ∀ c ∈ formatNat n, isDigit c = true := by
  intro c hc
  obtain ⟨d, hd, rfl⟩ := List.mem_map.mp hc
  have h := Char.isDigit_iff_toNat.mp (Nat.isDigit_of_mem_toDigits (by omega) (by omega) hd)
  have h1 : 48 ≤ d.toNat := h.1
  have h2 : d.toNat ≤ 57 := h.2
  have hd' : d.toNat.toUInt8.toNat = d.toNat := by
    rw [Nat.toUInt8_eq, UInt8.toNat_ofNat']
    omega
  unfold isDigit
  rw [decide_eq_true_eq, UInt8.le_iff_toNat_le, UInt8.le_iff_toNat_le, hd']
  exact ⟨h1, h2⟩

theorem formatNat_ne_nil (n : Nat) : formatNat n ≠ [] := by
  unfold formatNat
  rw [Ne, List.map_eq_nil_iff]
  exact Nat.toDigits_ne_nil

theorem foldl_digits (l : List Char) (h : ∀ c ∈ l, c.isDigit = true) (n : Nat) :
    (l.map fun c => c.toNat.toUInt8).foldl (fun n c => 10 * n + (c.toNat - 48)) n =
      Nat.ofDigitChars 10 l n := by
  induction l generalizing n with
  | nil => rfl
  | cons d l ih =>
    have hd := Char.isDigit_iff_toNat.mp (h d List.mem_cons_self)
    have h2 : d.toNat ≤ 57 := hd.2
    have hd' : d.toNat.toUInt8.toNat = d.toNat := by
      rw [Nat.toUInt8_eq, UInt8.toNat_ofNat']
      omega
    rw [List.map_cons, List.foldl_cons, hd', Nat.ofDigitChars_cons,
      ih fun c hc => h c (List.mem_cons_of_mem _ hc)]
    rfl

theorem parseNat_formatNat (n : Nat) : parseNat (formatNat n) = some n := by
  unfold parseNat
  rw [if_pos ⟨formatNat_ne_nil n, List.all_eq_true.mpr (formatNat_digits n)⟩]
  unfold formatNat
  rw [foldl_digits _ (fun c hc => Nat.isDigit_of_mem_toDigits (by omega) (by omega) hc),
    Nat.ofDigitChars_ten_toDigits]

/-- The digits of a number start with a digit, not with a sign. -/
theorem formatNat_eq_cons (n : Nat) :
    ∃ c s, formatNat n = c :: s ∧ isDigit c = true := by
  cases h : formatNat n with
  | nil => exact absurd h (formatNat_ne_nil n)
  | cons c s => exact ⟨c, s, rfl, formatNat_digits n c (by rw [h]; exact List.mem_cons_self)⟩

theorem isDigit_ne (c d : UInt8) (h : isDigit c = true) (hd : isDigit d = false) : c ≠ d := by
  rintro rfl
  rw [h] at hd
  cases hd

theorem parseSigned_formatInt (n : Int) : parseSigned (formatInt n) = some n := by
  unfold formatInt
  split
  · next hneg =>
    rw [parseSigned, if_neg (by decide), if_pos rfl, parseNat_formatNat, Option.map_some]
    congr 1
    show -(n.natAbs : Int) = n
    omega
  · next hpos =>
    obtain ⟨c, s, hcs, hc⟩ := formatNat_eq_cons n.natAbs
    rw [hcs, parseSigned, if_neg (isDigit_ne c 43 hc (by decide)),
      if_neg (isDigit_ne c 45 hc (by decide)), ← hcs, parseNat_formatNat, Option.map_some]
    congr 1
    show (n.natAbs : Int) = n
    omega

theorem formatInt_inj {a b : Int} (h : formatInt a = formatInt b) : a = b := by
  have hparse := parseSigned_formatInt a
  rw [h, parseSigned_formatInt] at hparse
  exact (Option.some.inj hparse).symm

/-- What is printed is read back. -/
theorem parseInt_formatInt (n : Int64) : parseInt (formatInt n.toInt) = some n := by
  unfold parseInt
  rw [parseSigned_formatInt]
  show (if -2 ^ 63 ≤ n.toInt ∧ n.toInt < 2 ^ 63 then _ else _) = _
  rw [if_pos ⟨Int64.le_toInt n, Int64.toInt_lt n⟩, Int64.ofInt_toInt]

theorem formatInt_chars (n : Int) : ∀ c ∈ formatInt n, isDigit c = true ∨ c = 45 := by
  intro c hc
  unfold formatInt at hc
  split at hc
  · rcases List.mem_cons.mp hc with rfl | hc
    · exact .inr rfl
    · exact .inl (formatNat_digits _ c hc)
  · exact .inl (formatNat_digits _ c hc)

theorem parseNat_chars {s : Str} {n : Nat} (h : parseNat s = some n) : ∀ c ∈ s, isDigit c = true := by
  unfold parseNat at h
  split at h
  · next hs => exact List.all_eq_true.mp hs.2
  · cases h

/-- What is read as a number has digits and signs only. -/
theorem parseInt_chars {s : Str} {n : Int64} (h : parseInt s = some n) :
    ∀ c ∈ s, isDigit c = true ∨ c = 43 ∨ c = 45 := by
  have hsigned : ∃ k, parseSigned s = some k := by
    unfold parseInt at h
    split at h
    · next k hk => exact ⟨k, hk⟩
    · cases h
  obtain ⟨k, hk⟩ := hsigned
  cases s with
  | nil => exact fun c hc => absurd hc List.not_mem_nil
  | cons d s =>
    intro c hc
    rw [parseSigned] at hk
    split at hk
    · next hplus =>
      obtain ⟨m, hm, -⟩ := Option.map_eq_some_iff.mp hk
      rcases List.mem_cons.mp hc with rfl | hc
      · exact .inr (.inl hplus)
      · exact .inl (parseNat_chars hm c hc)
    split at hk
    · next hminus =>
      obtain ⟨m, hm, -⟩ := Option.map_eq_some_iff.mp hk
      rcases List.mem_cons.mp hc with rfl | hc
      · exact .inr (.inr hminus)
      · exact .inl (parseNat_chars hm c hc)
    · obtain ⟨m, hm, -⟩ := Option.map_eq_some_iff.mp hk
      exact .inl (parseNat_chars hm c hc)

/-- There is no dot in a number. -/
theorem dot_notMem_of_parseInt {s : Str} {n : Int64} (h : parseInt s = some n) : 46 ∉ s := by
  intro hmem
  rcases parseInt_chars h 46 hmem with h' | h' | h'
  · cases h'
  · cases h'
  · cases h'

/-! ## Hexadecimal -/

def hexDigit (v : UInt8) : UInt8 := if v < 10 then 48 + v else 87 + v

/-- `hex.EncodeToString`. -/
def hexEncode (b : Str) : Str := b.flatMap fun v => [hexDigit (v / 16), hexDigit (v % 16)]

def hexVal (c : UInt8) : Option UInt8 :=
  if 48 ≤ c ∧ c ≤ 57 then some (c - 48)
  else if 97 ≤ c ∧ c ≤ 102 then some (c - 87)
  else if 65 ≤ c ∧ c ≤ 70 then some (c - 55)
  else none

/-- `hex.DecodeString`: either letter case, an even number of digits. -/
def hexDecode : Str → Option Str
  | [] => some []
  | [_] => none
  | a :: b :: s =>
    match hexVal a, hexVal b with
    | some x, some y => (hexDecode s).map fun t => (16 * x + y) :: t
    | _, _ => none

theorem halves_lt (v : UInt8) : v / 16 < 16 ∧ v % 16 < 16 := by
  have hv := v.toNat_lt
  constructor
  · rw [UInt8.lt_iff_toNat_lt, UInt8.toNat_div]
    simp only [UInt8.reduceToNat]
    omega
  · rw [UInt8.lt_iff_toNat_lt, UInt8.toNat_mod]
    simp only [UInt8.reduceToNat]
    omega

theorem hexVal_hexDigit (v : UInt8) : v < 16 → hexVal (hexDigit v) = some v := by
  unfold hexVal hexDigit
  grind

theorem hexEncode_chars (b : Str) : ∀ c ∈ hexEncode b, (hexVal c).isSome = true := by
  intro c hc
  obtain ⟨v, -, hv⟩ := List.mem_flatMap.mp hc
  obtain ⟨hhi, hlo⟩ := halves_lt v
  rcases List.mem_pair.mp hv with rfl | rfl
  · rw [hexVal_hexDigit _ hhi]
    rfl
  · rw [hexVal_hexDigit _ hlo]
    rfl

theorem lowerByte_hexDigit {v : UInt8} (h : v < 16) : lowerByte (hexDigit v) = hexDigit v := by
  unfold hexDigit lowerByte
  grind

/-- Hex digits are written in lower case. -/
theorem map_lowerByte_hexEncode (b : Str) : (hexEncode b).map lowerByte = hexEncode b := by
  unfold hexEncode
  induction b with
  | nil => rfl
  | cons v b ih =>
    obtain ⟨hhi, hlo⟩ := halves_lt v
    simp only [List.flatMap_cons, List.map_append, List.map_cons, List.map_nil,
      lowerByte_hexDigit hhi, lowerByte_hexDigit hlo, ih]

theorem hexDecode_hexEncode (b : Str) : hexDecode (hexEncode b) = some b := by
  induction b with
  | nil => rfl
  | cons v b ih =>
    obtain ⟨hhi, hlo⟩ := halves_lt v
    have hv : 16 * (v / 16) + v % 16 = v := by
      have hb := v.toNat_lt
      apply UInt8.toNat_inj.mp
      simp only [UInt8.toNat_add, UInt8.toNat_mul, UInt8.toNat_div, UInt8.toNat_mod,
        UInt8.reduceToNat]
      omega
    unfold hexEncode at ih ⊢
    simp only [List.flatMap_cons, List.cons_append, List.nil_append, hexDecode]
    rw [hexVal_hexDigit _ hhi, hexVal_hexDigit _ hlo, ih]
    simp only [Option.map_some, hv]

theorem hexEncode_injective {a b : Str} (h : hexEncode a = hexEncode b) : a = b := by
  have ha := hexDecode_hexEncode a
  rw [h, hexDecode_hexEncode] at ha
  exact (Option.some.inj ha).symm

theorem hexDecode_length {s b : Str} (h : hexDecode s = some b) : s.length = 2 * b.length := by
  induction s using hexDecode.induct generalizing b with
  | case1 =>
    cases h
    rfl
  | case2 c => cases h
  | case3 a c s x y hx hy ih =>
    rw [hexDecode, hx, hy] at h
    obtain ⟨t, ht, rfl⟩ := Option.map_eq_some_iff.mp h
    simp only [List.length_cons, ih ht]
    omega
  | case4 a c s hno =>
    rw [hexDecode] at h
    split at h
    · next x y hx hy => exact absurd hy (hno x y hx)
    · cases h

/-- The value of a hex digit, written again, is the digit in lower case. -/
theorem hexDigit_of_hexVal {c v : UInt8} (h : hexVal c = some v) :
    v < 16 ∧ hexDigit v = lowerByte c := by
  unfold hexVal at h
  unfold hexDigit lowerByte
  split at h
  · cases h
    constructor
    · grind
    · grind
  split at h
  · cases h
    constructor
    · grind
    · grind
  split at h
  · cases h
    constructor
    · grind
    · grind
  · cases h

/-- The two halves of a byte. -/
theorem halves_of_lt {x y : UInt8} (hx : x < 16) (hy : y < 16) :
    (16 * x + y) / 16 = x ∧ (16 * x + y) % 16 = y := by
  have hx' : x.toNat < 16 := UInt8.lt_iff_toNat_lt.mp hx
  have hy' : y.toNat < 16 := UInt8.lt_iff_toNat_lt.mp hy
  have hsum : (16 * x + y).toNat = 16 * x.toNat + y.toNat := by
    rw [UInt8.toNat_add, UInt8.toNat_mul]
    simp only [UInt8.reduceToNat]
    omega
  constructor
  · apply UInt8.toNat_inj.mp
    rw [UInt8.toNat_div, hsum]
    simp only [UInt8.reduceToNat]
    omega
  · apply UInt8.toNat_inj.mp
    rw [UInt8.toNat_mod, hsum]
    simp only [UInt8.reduceToNat]
    omega

/-- What is decoded is written back in lower case. -/
theorem hexEncode_of_hexDecode {s b : Str} (h : hexDecode s = some b) :
    hexEncode b = s.map lowerByte := by
  induction s using hexDecode.induct generalizing b with
  | case1 =>
    cases h
    rfl
  | case2 c => cases h
  | case3 a c s x y hy hx ih =>
    rw [hexDecode, hx, hy] at h
    obtain ⟨t, ht, rfl⟩ := Option.map_eq_some_iff.mp h
    obtain ⟨hxlt, hxd⟩ := hexDigit_of_hexVal hx
    obtain ⟨hylt, hyd⟩ := hexDigit_of_hexVal hy
    obtain ⟨hhi, hlo⟩ := halves_of_lt hxlt hylt
    have hrest := ih ht
    unfold hexEncode at hrest ⊢
    rw [List.flatMap_cons, hhi, hlo, hxd, hyd, hrest]
    rfl
  | case4 a c s hno =>
    rw [hexDecode] at h
    split at h
    · next x y hx hy => exact absurd hy (hno x y hx)
    · cases h

theorem hexVal_lowerByte (c : UInt8) : hexVal (lowerByte c) = hexVal c := by
  unfold hexVal lowerByte
  grind

/-- Letter case does not matter to the decoder. -/
theorem hexDecode_map_lowerByte (s : Str) : hexDecode (s.map lowerByte) = hexDecode s := by
  induction s using hexDecode.induct with
  | case1 => rfl
  | case2 c => rfl
  | case3 a c s x y hy hx ih =>
    simp only [List.map_cons, hexDecode, hexVal_lowerByte, hx, hy, ih]
  | case4 a c s hno =>
    simp only [List.map_cons, hexDecode, hexVal_lowerByte]

/-- Only ASCII is decoded. -/
theorem isASCII_of_hexDecode {s b : Str} (h : hexDecode s = some b) : isASCII s = true := by
  have hdigit : ∀ c : UInt8, (hexVal (lowerByte c)).isSome = true → decide (c < 128) = true := by
    unfold hexVal lowerByte
    grind
  refine List.all_eq_true.mpr fun c hc => hdigit c (hexEncode_chars b _ ?_)
  rw [hexEncode_of_hexDecode h]
  exact List.mem_map_of_mem hc

theorem hexEncode_length (b : Str) : (hexEncode b).length = 2 * b.length := by
  induction b with
  | nil => rfl
  | cons v b ih =>
    unfold hexEncode at ih ⊢
    rw [List.flatMap_cons, List.length_append, ih]
    simp
    omega

/-! ## Quoted text -/

/-- The bytes `strconv.IsPrint` takes, as runes. -/
def isPrint (c : UInt8) : Bool := (32 ≤ c && c < 127) || (160 < c && c ≠ 173)

/-- `string(rune(c))`. -/
def utf8 (c : UInt8) : Str := if c < 128 then [c] else [192 + c / 64, 128 + c % 64]

/-- A rune below 256 in a literal between `quote`s. -/
def escape (quote c : UInt8) : Str :=
  if c = quote ∨ c = 92 then [92, c]
  else if isPrint c then utf8 c
  else if 7 ≤ c ∧ c ≤ 13 then [92, (bytes "abtnvfr").getD (c.toNat - 7) 0]
  else if c < 128 then bytes "\\x" ++ hexEncode [c]
  else bytes "\\u00" ++ hexEncode [c]

/-- The `%q` verb on a byte: a quoted rune literal. -/
def quoteByte (c : UInt8) : Str := 39 :: escape 39 c ++ [39]

/-- The `%q` verb on a string. -/
def quote (U : Unicode) (s : Str) : Str :=
  if isASCII s then 34 :: s.flatMap (escape 34) ++ [34] else U.quoteAny s

/-- The `%#U` verb on a byte. -/
def unicodeRune (c : UInt8) : Str :=
  bytes "U+00" ++ (hexEncode [c]).map upperByte ++
    if isPrint c then bytes " '" ++ utf8 c ++ bytes "'" else []

/-- What `hex.DecodeString` says of a string it does not read: the first byte that is no
hex digit, before an odd length. -/
def hexError (s : Str) : Str :=
  match s.find? fun c => (hexVal c).isNone with
  | some c => bytes "encoding/hex: invalid byte: " ++ unicodeRune c
  | none => bytes "encoding/hex: odd length hex string"

/-! ## Joined strings -/

/-- `strings.SplitN(s, sep, 2)` for a one-byte separator: what stands before and after
the first `sep`, or nothing when `s` has none. -/
def cut (sep : UInt8) : Str → Option (Str × Str)
  | [] => none
  | c :: s => if c = sep then some ([], s) else (cut sep s).map fun p => (c :: p.1, p.2)

theorem cut_append (sep : UInt8) (a b : Str) (h : sep ∉ a) :
    cut sep (a ++ sep :: b) = some (a, b) := by
  induction a with
  | nil => simp [cut]
  | cons c a ih =>
    have hc : c ≠ sep := fun e => h (by rw [e]; exact List.mem_cons_self)
    rw [List.cons_append, cut, if_neg hc, ih fun hm => h (List.mem_cons_of_mem _ hm)]
    rfl

theorem cut_some {sep : UInt8} {s a b : Str} (h : cut sep s = some (a, b)) :
    s = a ++ sep :: b ∧ sep ∉ a := by
  induction s generalizing a with
  | nil => cases h
  | cons c s ih =>
    unfold cut at h
    by_cases hc : c = sep
    · rw [if_pos hc] at h
      cases h
      rw [hc]
      exact ⟨rfl, List.not_mem_nil⟩
    · rw [if_neg hc] at h
      obtain ⟨⟨a', b'⟩, hcut, heq⟩ := Option.map_eq_some_iff.mp h
      cases heq
      obtain ⟨rfl, hnot⟩ := ih hcut
      refine ⟨rfl, fun hmem => ?_⟩
      rcases List.mem_cons.mp hmem with rfl | hmem
      · exact hc rfl
      · exact hnot hmem

/-- `m'` is `m`, the separator and some `s`, and `o` is that `s`, the separator and `o'`:
the separator between `m` and `o` moved to a later place. -/
def Shifted {α : Type} (sep : α) (m o m' o' : List α) : Prop :=
  ∃ s, m' = m ++ sep :: s ∧ o = s ++ sep :: o'

/-- Two joined pairs are the same string when they are the same pair or one is the
other with the separator moved. -/
theorem join_eq_join_iff {α : Type} (sep : α) (m o m' o' : List α) :
    m ++ sep :: o = m' ++ sep :: o' ↔
      (m = m' ∧ o = o') ∨ Shifted sep m o m' o' ∨ Shifted sep m' o' m o := by
  constructor
  · intro h
    rcases List.append_eq_append_iff.mp h with ⟨a, ha, hb⟩ | ⟨a, ha, hb⟩
    · cases a with
      | nil =>
        simp only [List.nil_append, List.cons.injEq, true_and] at hb
        exact .inl ⟨by simpa using ha.symm, hb⟩
      | cons x a =>
        simp only [List.cons_append, List.cons.injEq] at hb
        obtain ⟨rfl, hb⟩ := hb
        exact .inr (.inl ⟨a, ha, hb⟩)
    · cases a with
      | nil =>
        simp only [List.nil_append, List.cons.injEq, true_and] at hb
        exact .inl ⟨by simpa using ha, hb.symm⟩
      | cons x a =>
        simp only [List.cons_append, List.cons.injEq] at hb
        obtain ⟨rfl, hb⟩ := hb
        exact .inr (.inr ⟨a, ha, hb⟩)
  · rintro (⟨rfl, rfl⟩ | ⟨s, rfl, rfl⟩ | ⟨s, rfl, rfl⟩)
    · rfl
    · simp
    · simp

/-- The first part of a shifted pair is longer. -/
theorem Shifted.length_lt {α : Type} {sep : α} {m o m' o' : List α} (h : Shifted sep m o m' o') :
    m.length < m'.length := by
  obtain ⟨s, rfl, -⟩ := h
  rw [List.length_append, List.length_cons]
  omega

end GoStrings
