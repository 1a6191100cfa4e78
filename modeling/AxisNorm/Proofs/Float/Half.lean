import AxisNorm.Float.Narrow
import AxisNorm.Proofs.Float.Middle

/-!
# Numbers with the upper half of the bits

* `Half`: a number of the format that is the upper half of single precision.
* `Half.IsNearest`: a half is nearest to a rational, said of the distances alone.
* `Format.bfloat16_middle`: the middle between a half and the next is the single half way up.
* `Single.magnitude_narrow_eq_nearest`: **narrowing a finite number rounds it to the nearest encoding.**
* `Single.isNearest_narrow_iff`: that half is nearest, and no other half of its sign is.
* `Single.isRounded_narrow`: **narrowing rounds every number.**
* `Single.isNaN_narrow_iff`, `Single.narrow_of_le`, `Single.narrow_of_isNaN_of_le`: what payloads become.
-/

namespace AxisNorm

open Format

/-- A number of the format that is the upper half of single precision, as its bits. -/
structure Half where
  bits : UInt16
  deriving DecidableEq, Repr

namespace Half

/-- The bits below the sign. -/
def magnitude (h : Half) : Nat := h.bits.toNat % 0x8000

def isNegative (h : Half) : Bool := decide (0x8000 ≤ h.bits.toNat)

def isNaN (h : Half) : Bool := decide (bfloat16.infinity < h.magnitude)

def isFinite (h : Half) : Bool := decide (h.magnitude < bfloat16.infinity)

/-- The bits of a sign and an encoding. -/
def ofMagnitude (negative : Bool) (n : Nat) : Half := ⟨UInt16.ofNat (if negative then 0x8000 + n else n)⟩

def infinite (negative : Bool) : Half := ofMagnitude negative bfloat16.infinity

def zero (negative : Bool) : Half := ofMagnitude negative 0

/-- The value of a finite number. -/
def value (h : Half) : Rat := Extended.signed h.isNegative (bfloat16.value h.magnitude)

/-- The number is finite, none is closer to `q`, and its bits are even if another one is as close. -/
structure IsNearest (h : Half) (q : Rat) : Prop where
  finite : h.isFinite = true
  least : ∀ g : Half, g.isFinite = true → |h.value - q| ≤ |g.value - q|
  even : ∀ g : Half, g.isFinite = true → g.value ≠ h.value → |h.value - q| = |g.value - q| →
    h.bits.toNat % 2 = 0

variable {g h : Half} {n : Nat} {q : Rat}

theorem ext_of_magnitude (hsign : g.isNegative = h.isNegative) (hmagnitude : g.magnitude = h.magnitude) : g = h := by
  have hg := g.bits.toNat_lt
  have hh := h.bits.toNat_lt
  have hiff : 0x8000 ≤ g.bits.toNat ↔ 0x8000 ≤ h.bits.toNat := decide_eq_decide.mp hsign
  unfold magnitude at hmagnitude
  have hbits : g.bits = h.bits := UInt16.toNat_inj.mp (by omega)
  cases g
  cases h
  exact congrArg mk hbits

theorem bits_mod_two (h : Half) : h.bits.toNat % 2 = h.magnitude % 2 := by
  unfold magnitude
  omega

theorem toNat_ofMagnitude (s : Bool) (hn : n < 0x8000) :
    (ofMagnitude s n).bits.toNat = if s then 0x8000 + n else n := by
  unfold ofMagnitude
  rw [UInt16.toNat_ofNat']
  split <;> omega

theorem magnitude_ofMagnitude (s : Bool) (hn : n < 0x8000) : (ofMagnitude s n).magnitude = n := by
  rw [magnitude, toNat_ofMagnitude s hn]
  split <;> omega

theorem isNegative_ofMagnitude (s : Bool) (hn : n < 0x8000) : (ofMagnitude s n).isNegative = s := by
  rw [isNegative, toNat_ofMagnitude s hn]
  cases s with
  | false =>
    rw [decide_eq_false_iff_not, if_neg Bool.false_ne_true]
    omega
  | true =>
    rw [decide_eq_true_iff, if_pos rfl]
    omega

theorem isNaN_zero (s : Bool) : (zero s).isNaN = false := by
  rw [isNaN, zero, magnitude_ofMagnitude s (by decide)]
  rfl

theorem exists_ofMagnitude (s : Bool) (hn : n < bfloat16.infinity) :
    ∃ g : Half, g.isFinite = true ∧ g.isNegative = s ∧ g.magnitude = n := by
  have hlt : n < 0x8000 := hn.trans (by decide)
  refine ⟨ofMagnitude s n, ?_, isNegative_ofMagnitude s hlt, magnitude_ofMagnitude s hlt⟩
  rw [isFinite, magnitude_ofMagnitude s hlt]
  exact decide_eq_true hn

/-! ## Signs -/

theorem abs_signed_sub (s : Bool) (a b : Rat) : |Extended.signed s a - Extended.signed s b| = |a - b| := by
  cases s with
  | false => rfl
  | true =>
    rw [Extended.signed, Extended.signed, if_pos rfl, if_pos rfl, neg_sub_neg, abs_sub_comm]

theorem abs_value_sub {s : Bool} (hg : g.isNegative = s) (q : Rat) :
    |g.value - Extended.signed s q| = |bfloat16.value g.magnitude - q| := by
  rw [value, hg, abs_signed_sub]

theorem abs_value_sub_of_ne {s : Bool} (hg : g.isNegative ≠ s) (hq : 0 ≤ q) :
    |g.value - Extended.signed s q| = q + bfloat16.value g.magnitude := by
  have hnonneg := bfloat16.value_nonneg g.magnitude
  rw [value, Bool.eq_not.mpr hg]
  cases s with
  | false => simp [Extended.signed, abs_of_nonpos (by linarith : -bfloat16.value g.magnitude - q ≤ 0)]
  | true =>
    simp only [Extended.signed, Bool.not_true, Bool.false_eq_true, if_false, if_true, sub_neg_eq_add]
    rw [abs_of_nonneg (by linarith), add_comm]

theorem IsNearest.magnitude {s : Bool} (hnearest : h.IsNearest (Extended.signed s q)) (hh : h.isNegative = s) :
    bfloat16.IsNearest h.magnitude q := by
  have hdistance := abs_value_sub hh q
  constructor
  case finite => exact of_decide_eq_true hnearest.finite
  case least =>
    intro m hm
    obtain ⟨g, hfinite, hsign, rfl⟩ := exists_ofMagnitude s hm
    rw [← hdistance, ← abs_value_sub hsign q]
    exact hnearest.least g hfinite
  case even =>
    intro m hm hne heq
    obtain ⟨g, hfinite, hsign, rfl⟩ := exists_ofMagnitude s hm
    rw [← bits_mod_two]
    refine hnearest.even g hfinite ?_ (by rw [hdistance, abs_value_sub hsign q, heq])
    intro hvalue
    have hsame := abs_signed_sub s (bfloat16.value g.magnitude) (bfloat16.value h.magnitude)
    rw [value, value, hsign, hh] at hvalue
    rw [hvalue, sub_self, abs_zero, eq_comm, abs_eq_zero, sub_eq_zero] at hsame
    exact hne (bfloat16.value_strictMono.injective hsame)

theorem isNearest_of_magnitude {s : Bool} (hh : h.isNegative = s) (hq : 0 ≤ q)
    (hnearest : bfloat16.IsNearest h.magnitude q) : h.IsNearest (Extended.signed s q) := by
  have hzero : 0 < bfloat16.infinity := by decide
  have hdistance := abs_value_sub hh q
  have hleast := hnearest.least 0 hzero
  rw [value_zero, zero_sub, abs_neg, abs_of_nonneg hq] at hleast
  constructor
  case finite => exact decide_eq_true hnearest.finite
  case least =>
    intro g hg
    rw [hdistance]
    by_cases hsign : g.isNegative = s
    · rw [abs_value_sub hsign]
      exact hnearest.least _ (of_decide_eq_true hg)
    · rw [abs_value_sub_of_ne hsign hq]
      exact hleast.trans (le_add_of_nonneg_right (bfloat16.value_nonneg _))
  case even =>
    intro g hg hne heq
    rw [bits_mod_two]
    rw [hdistance] at heq
    by_cases hsign : g.isNegative = s
    · rw [abs_value_sub hsign] at heq
      refine hnearest.even _ (of_decide_eq_true hg) (fun hmagnitude => hne ?_) heq
      rw [value, value, hsign, hh, hmagnitude]
    · -- Then zero is as close as `h`, so that `h` is zero or even.
      rw [abs_value_sub_of_ne hsign hq] at heq
      have hle : |bfloat16.value h.magnitude - q| = q :=
        le_antisymm hleast (heq.ge.trans' (le_add_of_nonneg_right (bfloat16.value_nonneg _)))
      by_cases hmagnitude : 0 = h.magnitude
      · rw [← hmagnitude]
      · refine hnearest.even 0 hzero hmagnitude ?_
        rw [value_zero, zero_sub, abs_neg, abs_of_nonneg hq, hle]

/-- The signs play no part: a number is nearest if it has the nearest encoding. -/
theorem isNearest_iff {s : Bool} (hh : h.isNegative = s) (hq : 0 ≤ q) :
    h.IsNearest (Extended.signed s q) ↔ bfloat16.IsNearest h.magnitude q :=
  ⟨fun hnearest => hnearest.magnitude hh, isNearest_of_magnitude hh hq⟩

end Half

/-! ## Halves among singles -/

theorem Format.binary32_value_between (n : Nat) {t : Nat} (ht : t ≤ 2 ^ 16) :
    binary32.value (n * 2 ^ 16 + t) = bfloat16.value n + t / 2 ^ 16 * bfloat16.step n := by
  obtain ⟨s, hs, hn, he⟩ := bfloat16.exists_encode n
  have hhalf := bfloat16.value_encode hs.le he
  rw [← hn] at hhalf
  unfold step
  generalize n / 2 ^ bfloat16.fractionBits - 1 = e at hn he hhalf ⊢
  rw [show bfloat16.fractionBits = 7 from rfl] at hs hn he
  have hsingle := binary32.value_encode (e := e) (s := s * 2 ^ 16 + t)
    (by rw [show binary32.fractionBits = 23 from rfl]; omega)
    (he.imp_right fun h => by rw [show binary32.fractionBits = 23 from rfl]; omega)
  have hcode : n * 2 ^ 16 + t = e * 2 ^ binary32.fractionBits + (s * 2 ^ 16 + t) := by
    rw [show binary32.fractionBits = 23 from rfl]
    omega
  have hexponent : bfloat16.minExponent + (e : Int) = (16 : Nat) + (binary32.minExponent + e) := by
    rw [show bfloat16.minExponent = -133 from rfl, show binary32.minExponent = -149 from rfl]
    omega
  rw [hhalf, hcode, hsingle, hexponent, zpow_add₀ (by norm_num) (16 : Nat), zpow_natCast]
  push_cast
  ring

theorem Format.bfloat16_middle (n : Nat) : bfloat16.middle n = binary32.value (n * 2 ^ 16 + 2 ^ 15) := by
  rw [binary32_value_between n (by norm_num), middle, value_succ]
  push_cast
  ring

theorem Format.bfloat16_middle_last : bfloat16.middle (bfloat16.infinity - 1) = 2 ^ 128 - 2 ^ 119 := by
  have hlast := bfloat16.middle_encode (e := 253) (s := 255) (by decide) (.inr (by decide))
  rw [show bfloat16.minExponent = -133 from rfl] at hlast
  rw [show bfloat16.infinity - 1 = 253 * 2 ^ bfloat16.fractionBits + 255 from rfl, hlast]
  norm_num

/-! ## Narrowing -/

/-- A number without its lower 16 bits, rounded by them; in the middle the even one. -/
def roundedUpper (m : Nat) : Nat := (m + (m / 0x10000 % 2 + 0x7fff)) / 0x10000

theorem lt_roundedUpper_iff {k m : Nat} :
    k < roundedUpper m ↔ k * 2 ^ 16 + 2 ^ 15 < m ∨ k * 2 ^ 16 + 2 ^ 15 = m ∧ k % 2 = 1 := by
  rw [roundedUpper, Nat.lt_iff_add_one_le, Nat.le_div_iff_mul_le (by norm_num)]
  rcases Nat.lt_trichotomy (m / 0x10000) k with hlt | rfl | hgt
  · omega
  · omega
  · omega

namespace Single

variable {x : Single}

/-- What narrowing adds to the bits: a little less than half of what is dropped, and one more if the last bit
that is kept is odd. -/
def bias (x : Single) : UInt32 := ((x.bits >>> 16) &&& 1) + 0x7fff

theorem toNat_bits (x : Single) : x.bits.toNat = (if x.isNegative then 0x80000000 else 0) + x.magnitude := by
  have hlt := x.bits.toNat_lt
  unfold isNegative magnitude
  split
  · next h =>
    have h := of_decide_eq_true h
    omega
  · next h =>
    rw [decide_eq_true_iff] at h
    omega

theorem toNat_bias (x : Single) : x.bias.toNat = x.magnitude / 0x10000 % 2 + 0x7fff := by
  have hodd : ((x.bits >>> 16) &&& 1).toNat = x.bits.toNat / 0x10000 % 2 := by
    rw [UInt32.toNat_and, UInt32.toNat_shiftRight, Nat.shiftRight_eq_div_pow]
    exact Nat.and_one_is_mod _
  rw [bias, UInt32.toNat_add, hodd, show (0x7fff : UInt32).toNat = 0x7fff from rfl, toNat_bits]
  split <;> omega

theorem toNat_narrow (x : Single) : x.narrow.toNat = (x.bits.toNat + x.bias.toNat) % 2 ^ 32 / 0x10000 := by
  have hlt : (x.bits.toNat + x.bias.toNat) % 2 ^ 32 < 2 ^ 32 := Nat.mod_lt _ (by norm_num)
  rw [narrow, ← bias, UInt32.toNat_toUInt16, UInt32.toNat_shiftRight, UInt32.toNat_add, Nat.shiftRight_eq_div_pow,
    show (16 : UInt32).toNat % 32 = 16 from rfl]
  exact Nat.mod_eq_of_lt (by omega)

theorem toNat_add_bias (hx : x.magnitude < 0x7fff8000) :
    (x.bits + x.bias).toNat = x.bits.toNat + x.bias.toNat ∧
      (0x80000000 ≤ (x.bits + x.bias).toNat ↔ 0x80000000 ≤ x.bits.toNat) := by
  have hbias := toNat_bias x
  have hbits := toNat_bits x
  have hsum : x.bits.toNat + x.bias.toNat < 2 ^ 32 := by
    split at hbits <;> omega
  rw [UInt32.toNat_add, Nat.mod_eq_of_lt hsum]
  split at hbits <;> omega

theorem toNat_narrow_of_lt (hx : x.magnitude < 0x7fff8000) :
    x.narrow.toNat = (if x.isNegative then 0x8000 else 0) + roundedUpper x.magnitude := by
  have hbias := toNat_bias x
  have hbits := toNat_bits x
  rw [toNat_narrow, ← UInt32.toNat_add, (toNat_add_bias hx).1, hbits, hbias, roundedUpper]
  split <;> omega

theorem roundedUpper_lt (hx : x.magnitude < 0x7fff8000) : roundedUpper x.magnitude < 0x8000 := by
  unfold roundedUpper
  omega

theorem magnitude_narrow (hx : x.magnitude < 0x7fff8000) :
    (Half.mk x.narrow).magnitude = roundedUpper x.magnitude := by
  have hlt := roundedUpper_lt hx
  rw [Half.magnitude, toNat_narrow_of_lt hx]
  split <;> omega

theorem isNegative_narrow (hx : x.magnitude < 0x7fff8000) : (Half.mk x.narrow).isNegative = x.isNegative := by
  have hlt := roundedUpper_lt hx
  rw [Half.isNegative, toNat_narrow_of_lt hx]
  cases x.isNegative with
  | false =>
    rw [decide_eq_false_iff_not, if_neg Bool.false_ne_true]
    omega
  | true =>
    rw [decide_eq_true_iff, if_pos rfl]
    omega

/-- **Narrowing a finite number rounds it to the nearest encoding.** -/
theorem magnitude_narrow_eq_nearest (hx : x.isFinite = true) :
    (Half.mk x.narrow).magnitude = bfloat16.nearest (binary32.value x.magnitude) := by
  have hfinite : x.magnitude < 0x7f800000 := of_decide_eq_true hx
  have hinfinity : bfloat16.infinity = 0x7f80 := rfl
  rw [magnitude_narrow (hfinite.trans (by norm_num))]
  have hiff (k : Nat) (hk : k < bfloat16.infinity) :
      k < bfloat16.nearest (binary32.value x.magnitude) ↔ k < roundedUpper x.magnitude := by
    rw [bfloat16.lt_nearest_iff hk (binary32.value_nonneg _), bfloat16_middle, lt_roundedUpper_iff,
      binary32.value_strictMono.lt_iff_lt, binary32.value_strictMono.injective.eq_iff]
  have hupper : roundedUpper x.magnitude ≤ bfloat16.infinity := by
    rw [hinfinity, roundedUpper]
    omega
  refine Nat.le_antisymm (Nat.le_of_not_lt fun hlt => ?_) (Nat.le_of_not_lt fun hlt => ?_)
  · exact ((hiff _ (hlt.trans_le hupper)).mpr hlt).false
  · exact ((hiff _ (hlt.trans_le (bfloat16.nearest_le_infinity _))).mp hlt).false

/-! ## Numbers -/

theorem abs_value (x : Single) : |x.value| = binary32.value x.magnitude := by
  have hnonneg := binary32.value_nonneg x.magnitude
  unfold value Extended.signed
  split
  · rw [abs_neg, abs_of_nonneg hnonneg]
  · exact abs_of_nonneg hnonneg

theorem isFinite_narrow_iff (hx : x.isFinite = true) :
    (Half.mk x.narrow).isFinite = true ↔ |x.value| < 2 ^ 128 - 2 ^ 119 := by
  rw [Half.isFinite, decide_eq_true_iff, magnitude_narrow_eq_nearest hx, abs_value, ← bfloat16_middle_last]
  exact bfloat16.nearest_lt_infinity_iff (by decide) (binary32.value_nonneg _)

theorem magnitude_lt_of_isFinite (hx : x.isFinite = true) : x.magnitude < 0x7fff8000 := by
  have hfinite : x.magnitude < 0x7f800000 := of_decide_eq_true hx
  omega

theorem isNearest_narrow_iff (hx : x.isFinite = true) (hlt : |x.value| < 2 ^ 128 - 2 ^ 119) {g : Half}
    (hg : g.isNegative = x.isNegative) : g.IsNearest x.value ↔ g = ⟨x.narrow⟩ := by
  have hsign := isNegative_narrow (magnitude_lt_of_isFinite hx)
  have hmagnitude := magnitude_narrow_eq_nearest hx
  have hfinite : bfloat16.nearest (binary32.value x.magnitude) < bfloat16.infinity :=
    hmagnitude ▸ of_decide_eq_true ((isFinite_narrow_iff hx).mpr hlt)
  rw [value, Half.isNearest_iff hg (binary32.value_nonneg _),
    bfloat16.isNearest_iff (binary32.value_nonneg _) hfinite, ← hmagnitude]
  constructor
  · exact Half.ext_of_magnitude (hg.trans hsign.symm)
  · rintro rfl
    rfl

theorem narrow_eq_infinite (hsign : (Half.mk x.narrow).isNegative = x.isNegative)
    (hmagnitude : (Half.mk x.narrow).magnitude = bfloat16.infinity) : Half.mk x.narrow = .infinite x.isNegative := by
  have hlt : bfloat16.infinity < 0x8000 := by decide
  apply Half.ext_of_magnitude
  · rw [hsign, Half.infinite, Half.isNegative_ofMagnitude _ hlt]
  · rw [hmagnitude, Half.infinite, Half.magnitude_ofMagnitude _ hlt]

/-- A half for a number: of the same sign, nearest with ties to even below the middle between the largest half
and the next power of two, and infinite from there on. -/
structure IsRounded (x : Single) (h : Half) : Prop where
  sign : h.isNegative = x.isNegative
  nearest : x.isFinite = true → |x.value| < 2 ^ 128 - 2 ^ 119 → h.IsNearest x.value
  unique : x.isFinite = true → |x.value| < 2 ^ 128 - 2 ^ 119 →
    ∀ g : Half, g.isNegative = x.isNegative → g.IsNearest x.value → g = h
  overflow : x.isFinite = true → 2 ^ 128 - 2 ^ 119 ≤ |x.value| → h = .infinite x.isNegative
  infinite : x.isFinite = false → h = .infinite x.isNegative
  /-- A half of the same value is kept. -/
  exact : x.isFinite = true → ∀ g : Half, g.isFinite = true → g.isNegative = x.isNegative → g.value = x.value → g = h

/-- **Narrowing a number rounds it.** -/
theorem isRounded_narrow (hx : x.isNaN = false) : x.IsRounded ⟨x.narrow⟩ := by
  have hle : x.magnitude ≤ binary32.infinity := not_lt.mp (of_decide_eq_false hx)
  have hsign : (Half.mk x.narrow).isNegative = x.isNegative := isNegative_narrow (hle.trans_lt (by decide))
  constructor
  case sign => exact hsign
  case nearest => exact fun hfinite hlt => (isNearest_narrow_iff hfinite hlt hsign).mpr rfl
  case unique => exact fun hfinite hlt g hg => (isNearest_narrow_iff hfinite hlt hg).mp
  case overflow =>
    intro hfinite hge
    have hinfinite := (isFinite_narrow_iff hfinite).not.mpr (not_lt.mpr hge)
    rw [Half.isFinite, decide_eq_true_iff, magnitude_narrow_eq_nearest hfinite, not_lt] at hinfinite
    refine narrow_eq_infinite hsign ?_
    rw [magnitude_narrow_eq_nearest hfinite]
    exact Nat.le_antisymm (bfloat16.nearest_le_infinity _) hinfinite
  case infinite =>
    intro hinfinite
    have hmagnitude : x.magnitude = binary32.infinity := Nat.le_antisymm hle (not_lt.mp (of_decide_eq_false hinfinite))
    refine narrow_eq_infinite hsign ?_
    rw [magnitude_narrow (hle.trans_lt (by decide)), hmagnitude]
    rfl
  case exact =>
    intro hfinite g hgfinite hg hvalue
    refine Half.ext_of_magnitude (hg.trans hsign.symm) ?_
    rw [magnitude_narrow_eq_nearest hfinite]
    have hmagnitude : bfloat16.value g.magnitude = binary32.value x.magnitude := by
      rw [Half.value, value, hg, ← sub_eq_zero, ← abs_eq_zero, Half.abs_signed_sub, abs_eq_zero, sub_eq_zero] at hvalue
      exact hvalue
    rw [← hmagnitude, bfloat16.nearest_value (of_decide_eq_true hgfinite).le]

/-! ## Payloads -/

/-- The last payloads carry into the sign, and nothing else is left. -/
theorem narrow_of_le (hx : 0x7fff8000 ≤ x.magnitude) : Half.mk x.narrow = .zero !x.isNegative := by
  have hbias := toNat_bias x
  have hbits := toNat_bits x
  have hlt : x.magnitude < 0x80000000 := Nat.mod_lt _ (by norm_num)
  have hnarrow : x.narrow.toNat = if x.isNegative then 0 else 0x8000 := by
    rw [toNat_narrow]
    split at hbits
    · next h =>
      rw [if_pos h]
      omega
    · next h =>
      rw [if_neg h]
      omega
  rw [Half.zero, Half.ofMagnitude, Half.mk.injEq, ← UInt16.toNat_inj, hnarrow]
  cases x.isNegative <;> rfl

theorem isNaN_narrow_iff (hx : x.magnitude < 0x7fff8000) :
    (Half.mk x.narrow).isNaN = true ↔ 0x7f808000 < x.magnitude := by
  have hinfinity : bfloat16.infinity = 0x7f80 := rfl
  rw [Half.isNaN, decide_eq_true_iff, magnitude_narrow hx, lt_roundedUpper_iff]
  omega

theorem narrow_of_isNaN_of_le (hx : x.isNaN = true) (hle : x.magnitude ≤ 0x7f808000) :
    Half.mk x.narrow = .infinite x.isNegative := by
  have hlt : x.magnitude < 0x7fff8000 := by omega
  have hinfinity : binary32.infinity < x.magnitude := of_decide_eq_true hx
  rw [show binary32.infinity = 0x7f800000 from rfl] at hinfinity
  refine narrow_eq_infinite (isNegative_narrow hlt) ?_
  rw [magnitude_narrow hlt, show bfloat16.infinity = 0x7f80 from rfl, roundedUpper]
  omega

end Single

end AxisNorm
