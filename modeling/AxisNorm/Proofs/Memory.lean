import AxisNorm.Memory
import Mathlib.Algebra.Ring.Nat
import Mathlib.Data.Set.Lattice
import Mathlib.Order.CompletePartialOrder

/-!
# What loads and writes see of memory

* `Memory.span`: the addresses of a number. Loads see the bytes of their span only, and writes
  change no others.
* `Memory.disjoint_span`: numbers that lie one after the other do not meet.
* `Memory.ChangedIn`: one memory came from another by changes inside a region; nothing was mapped
  or unmapped.
-/

namespace AxisNorm.Memory

variable {m m' : Memory} {a c : UInt64} {n v : Nat}

/-- The `n` addresses from `a` on. -/
def span (a : UInt64) (n : Nat) : Set UInt64 := {c | ∃ i < n, c = a + UInt64.ofNat i}

theorem span_zero (a : UInt64) : span a 0 = ∅ := by
  ext c; simp [span]

theorem mem_span_succ : c ∈ span a (n + 1) ↔ c = a ∨ c ∈ span (a + 1) n := by
  have hshift (i : Nat) : a + UInt64.ofNat (i + 1) = a + 1 + UInt64.ofNat i := by
    rw [UInt64.ofNat_add, UInt64.add_comm (UInt64.ofNat i), ← UInt64.add_assoc]
    rfl
  constructor
  · rintro ⟨i, hi, rfl⟩
    cases i with
    | zero => left; simp
    | succ i => exact .inr ⟨i, by omega, hshift i⟩
  · rintro (rfl | ⟨i, hi, rfl⟩)
    · exact ⟨0, by omega, by simp⟩
    · exact ⟨i + 1, by omega, (hshift i).symm⟩

theorem self_mem_span (a : UInt64) (n : Nat) : a ∈ span a (n + 1) := mem_span_succ.mpr (.inl rfl)

theorem span_succ_subset (a : UInt64) (n : Nat) : span (a + 1) n ⊆ span a (n + 1) :=
  fun _ h => mem_span_succ.mpr (.inr h)

theorem notMem_span_succ (hn : n < 2 ^ 64) : a ∉ span (a + 1) n := by
  rintro ⟨i, hi, h⟩
  have h' : a + 0 = a + (1 + UInt64.ofNat i) := by rw [← UInt64.add_assoc, ← h, UInt64.add_zero]
  have hz := congrArg UInt64.toNat (UInt64.add_right_inj a |>.mp h')
  rw [UInt64.toNat_add, UInt64.toNat_ofNat'] at hz
  have h1 : (1 : UInt64).toNat = 1 := rfl
  have h0 : (0 : UInt64).toNat = 0 := rfl
  rw [h1, h0] at hz
  omega

theorem mem_span_iff (ha : a.toNat + n ≤ 2 ^ 64) :
    c ∈ span a n ↔ a.toNat ≤ c.toNat ∧ c.toNat < a.toNat + n := by
  have hvalue (i : Nat) (hi : i < n) : (a + UInt64.ofNat i).toNat = a.toNat + i := by
    rw [UInt64.toNat_add, UInt64.toNat_ofNat']
    omega
  constructor
  · rintro ⟨i, hi, rfl⟩
    rw [hvalue i hi]
    omega
  · rintro ⟨hle, hlt⟩
    refine ⟨c.toNat - a.toNat, by omega, UInt64.toNat_inj.mp ?_⟩
    rw [hvalue _ (by omega)]
    omega

theorem disjoint_span {b : UInt64} {k : Nat} (ha : a.toNat + n ≤ 2 ^ 64) (hb : b.toNat + k ≤ 2 ^ 64)
    (h : a.toNat + n ≤ b.toNat ∨ b.toNat + k ≤ a.toNat) : Disjoint (span a n) (span b k) := by
  rw [Set.disjoint_left]
  intro c hc hc'
  rw [mem_span_iff ha] at hc
  rw [mem_span_iff hb] at hc'
  omega

/-! ## Loads -/

theorem load?_congr (h : ∀ c ∈ span a n, m'.byte? c = m.byte? c) : m'.load? a n = m.load? a n := by
  induction n generalizing a with
  | zero => rfl
  | succ n ih =>
    rw [load?, load?, h a (self_mem_span a n), ih fun c hc => h c (span_succ_subset a n hc)]

theorem mapped_iff : m.mapped a n = true ↔ ∀ c ∈ span a n, (m.byte? c).isSome = true := by
  induction n generalizing a with
  | zero => simp [mapped, span_zero]
  | succ n ih =>
    rw [mapped, Bool.and_eq_true, ih]
    constructor
    · rintro ⟨h, hs⟩ c hc
      rcases mem_span_succ.mp hc with rfl | hc
      · exact h
      · exact hs c hc
    · exact fun h => ⟨h a (self_mem_span a n), fun c hc => h c (span_succ_subset a n hc)⟩

theorem mapped_congr (h : ∀ c ∈ span a n, m'.byte? c = m.byte? c) : m'.mapped a n = m.mapped a n := by
  rw [Bool.eq_iff_iff, mapped_iff, mapped_iff]
  exact forall₂_congr fun c hc => by rw [h c hc]

theorem exists_load? (h : m.mapped a n = true) : ∃ v, m.load? a n = some v := by
  induction n generalizing a with
  | zero => exact ⟨0, rfl⟩
  | succ n ih =>
    rw [mapped, Bool.and_eq_true] at h
    obtain ⟨low, hl⟩ := Option.isSome_iff_exists.mp h.1
    obtain ⟨high, hh⟩ := ih h.2
    exact ⟨low.toNat + 256 * high, by rw [load?, hl, hh]; rfl⟩

theorem load?_succ_eq_some : m.load? a (n + 1) = some v ↔
    ∃ low high, m.byte? a = some low ∧ m.load? (a + 1) n = some high ∧ v = low.toNat + 256 * high := by
  rw [load?]
  cases m.byte? a with
  | none => simp
  | some low =>
    cases m.load? (a + 1) n with
    | none => simp
    | some high => simp [eq_comm]

theorem mapped_of_load? (h : m.load? a n = some v) : m.mapped a n = true := by
  induction n generalizing a v with
  | zero => rfl
  | succ n ih =>
    obtain ⟨low, high, hl, hh, -⟩ := load?_succ_eq_some.mp h
    rw [mapped, hl, ih hh]
    rfl

theorem byte?_eq_of_load?_eq (h : m.load? a n = some v) (h' : m'.load? a n = some v)
    (hc : c ∈ span a n) : m'.byte? c = m.byte? c := by
  induction n generalizing a v with
  | zero => rw [span_zero] at hc; exact absurd hc (Set.notMem_empty c)
  | succ n ih =>
    obtain ⟨low, high, hl, hh, hv⟩ := load?_succ_eq_some.mp h
    obtain ⟨low', high', hl', hh', hv'⟩ := load?_succ_eq_some.mp h'
    have hlow := low.toNat_lt
    have hlow' := low'.toNat_lt
    obtain rfl : low = low' := UInt8.toNat_inj.mp (by omega)
    obtain rfl : high = high' := by omega
    rcases mem_span_succ.mp hc with rfl | hc
    · rw [hl, hl']
    · exact ih hh hh' hc

/-! ## Writes -/

theorem byte?_write_of_notMem (h : c ∉ span a n) : (m.write a n v).byte? c = m.byte? c := by
  induction n generalizing a v m with
  | zero => rfl
  | succ n ih =>
    rw [write, ih fun hc => h (span_succ_subset a n hc), byte?_setByte,
      if_neg fun he : a = c => h (he ▸ self_mem_span a n)]

theorem byte?_write_congr (h : m'.byte? c = m.byte? c) :
    (m'.write a n v).byte? c = (m.write a n v).byte? c := by
  induction n generalizing a v m m' with
  | zero => exact h
  | succ n ih => exact ih (by rw [byte?_setByte, byte?_setByte, h])

theorem isSome_byte?_write (h : m.mapped a n = true) (c : UInt64) :
    ((m.write a n v).byte? c).isSome = (m.byte? c).isSome := by
  induction n generalizing a v m with
  | zero => rfl
  | succ n ih =>
    rw [mapped, Bool.and_eq_true] at h
    have hset (d : UInt64) : ((m.setByte a (UInt8.ofNat v)).byte? d).isSome = (m.byte? d).isSome := by
      rw [byte?_setByte]
      split
      · next hd => rw [← hd, h.1]; rfl
      · rfl
    rw [write, ih, hset]
    rw [mapped_iff] at h ⊢
    exact fun d hd => (hset d).trans (h.2 d hd)

theorem load?_write (hn : n ≤ 2 ^ 64) (hv : v < 256 ^ n) : (m.write a n v).load? a n = some v := by
  induction n generalizing a v m with
  | zero => simp at hv; simp [load?, hv]
  | succ n ih =>
    -- The bytes that are written later lie elsewhere.
    have hlow : ((m.setByte a (UInt8.ofNat v)).write (a + 1) n (v / 256)).byte? a =
        some (UInt8.ofNat v) := by
      rw [byte?_write_of_notMem (notMem_span_succ (by omega)), byte?_setByte, if_pos rfl]
    have hhigh := @ih (m.setByte a (UInt8.ofNat v)) (a + 1) (v / 256) (by omega)
      (by rw [Nat.pow_succ] at hv; omega)
    refine load?_succ_eq_some.mpr ⟨_, _, hlow, hhigh, ?_⟩
    rw [UInt8.toNat_ofNat']
    omega

/-! ## Changes inside a region -/

/-- Bytes outside the region stay, and the same addresses are mapped. -/
structure ChangedIn (region : Set UInt64) (m m' : Memory) : Prop where
  isSome_byte? : ∀ c, (m'.byte? c).isSome = (m.byte? c).isSome
  byte? : ∀ c ∉ region, m'.byte? c = m.byte? c

namespace ChangedIn

variable {region region' : Set UInt64} {m'' : Memory}

theorem refl (region : Set UInt64) (m : Memory) : ChangedIn region m m := ⟨fun _ => rfl, fun _ _ => rfl⟩

theorem trans (h : ChangedIn region m m') (h' : ChangedIn region m' m'') : ChangedIn region m m'' :=
  ⟨fun c => (h'.isSome_byte? c).trans (h.isSome_byte? c),
   fun c hc => (h'.byte? c hc).trans (h.byte? c hc)⟩

theorem mono (h : ChangedIn region m m') (hs : region ⊆ region') : ChangedIn region' m m' :=
  ⟨h.isSome_byte?, fun c hc => h.byte? c fun hr => hc (hs hr)⟩

theorem mapped (h : ChangedIn region m m') (a : UInt64) (n : Nat) : m'.mapped a n = m.mapped a n := by
  rw [Bool.eq_iff_iff, mapped_iff, mapped_iff]
  simp only [h.isSome_byte?]

theorem load? (h : ChangedIn region m m') (hd : ∀ c ∈ span a n, c ∉ region) :
    m'.load? a n = m.load? a n :=
  load?_congr fun c hc => h.byte? c (hd c hc)

theorem eq_of_empty (h : ChangedIn ∅ m m') : m' = m := ext fun c => h.byte? c (Set.notMem_empty c)

end ChangedIn

theorem changedIn_write (h : m.mapped a n = true) : ChangedIn (span a n) m (m.write a n v) :=
  ⟨isSome_byte?_write h, fun _ hc => byte?_write_of_notMem hc⟩

/-! ## Memories made of numbers -/

/-- A number of `width` bytes at an address. -/
structure Cell where
  address : UInt64
  width : Nat
  value : Nat
  deriving DecidableEq

/-- The number fits in its bytes, and they do not wrap around. -/
def Cell.Fits (x : Cell) : Prop := x.address.toNat + x.width ≤ 2 ^ 64 ∧ x.value < 256 ^ x.width

def Cell.Apart (x y : Cell) : Prop :=
  x.address.toNat + x.width ≤ y.address.toNat ∨ y.address.toNat + y.width ≤ x.address.toNat

instance (x : Cell) : Decidable x.Fits := inferInstanceAs (Decidable (_ ∧ _))

instance (x y : Cell) : Decidable (x.Apart y) := inferInstanceAs (Decidable (_ ∨ _))

/-- The memory that maps just these numbers. -/
def ofCells : List Cell → Memory
  | [] => empty
  | x :: cells => (ofCells cells).write x.address x.width x.value

theorem load?_ofCells {cells : List Cell} (hfits : ∀ x ∈ cells, x.Fits)
    (hapart : cells.Pairwise Cell.Apart) (h : ⟨a, n, v⟩ ∈ cells) :
    (ofCells cells).load? a n = some v := by
  induction cells with
  | nil => cases h
  | cons x cells ih =>
    obtain ⟨hx, hcells⟩ := List.pairwise_cons.mp hapart
    have hfitsx := hfits x List.mem_cons_self
    rw [ofCells]
    rcases List.mem_cons.mp h with rfl | h
    · exact load?_write (Nat.le_trans (Nat.le_add_left n _) hfitsx.1) hfitsx.2
    · have hfitsa := hfits _ (List.mem_cons_of_mem x h)
      have hd := disjoint_span hfitsx.1 hfitsa.1 (hx _ h)
      rw [load?_congr fun c hc => byte?_write_of_notMem (Set.disjoint_right.mp hd hc)]
      exact ih (fun y hy => hfits y (List.mem_cons_of_mem x hy)) hcells h

end AxisNorm.Memory
