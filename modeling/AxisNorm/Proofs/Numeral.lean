import AxisNorm.Proofs.Float.Decimal
import AxisNorm.Proofs.Text
import Mathlib.Data.List.Induction
import Mathlib.Data.Nat.Digits.Defs
import Mathlib.Tactic.FieldSimp
import Mathlib.Tactic.Ring

/-!
# What numerals denote

The grammar of decimal numerals, and the rational that each denotes.

* `Numeral.Denotes`: an optional sign, digits with at most one point and at least one digit in all, and an
  optional exponent with at least one digit.
* `Numeral.denotes_iff`: **the reader reads these numerals, and has their exact values.**
-/

namespace AxisNorm.Numeral

/-- The number whose decimal digits, the first one first, are `ds`. -/
def digitsValue (ds : List Char) : Nat := Nat.ofDigits 10 (ds.reverse.map fun c => c.toNat - '0'.toNat)

/-- A sign, if there is one, and whether it is a minus. -/
inductive Sign : List Char → Bool → Prop
  | none : Sign [] false
  | plus : Sign ['+'] false
  | minus : Sign ['-'] true

/-- Digits with at most one point, those before it and those after it. -/
inductive Digits : List Char → (whole fraction : List Char) → Prop
  | whole (ds : List Char) : Digits ds ds []
  | point (ds fs : List Char) : Digits (ds ++ '.' :: fs) ds fs

/-- An exponent, if there is one, and its value. -/
inductive Exponent : List Char → Int → Prop
  | none : Exponent [] 0
  | some {c : Char} {sign ds : List Char} {s : Bool} (hc : c = 'e' ∨ c = 'E') (hsign : Sign sign s)
    (hds : ∀ d ∈ ds, d.isDigit = true) (hne : ds ≠ []) :
    Exponent (c :: (sign ++ ds)) (if s then -(digitsValue ds : Int) else digitsValue ds)

/-- A decimal numeral and its exact value. -/
inductive Denotes : List Char → Rat → Prop
  | intro {sign digits whole fraction exponent : List Char} {s : Bool} {e : Int} (hsign : Sign sign s)
    (hdigits : Digits digits whole fraction) (hall : ∀ c ∈ whole ++ fraction, c.isDigit = true)
    (hne : whole ++ fraction ≠ []) (hexponent : Exponent exponent e) :
    Denotes (sign ++ (digits ++ exponent))
      (Extended.signed s ((digitsValue whole + digitsValue fraction / 10 ^ fraction.length) * 10 ^ e))

variable {cs ds rest : List Char} {s : Bool} {e : Int} {d : Decimal}

/-! ## Runs of digits -/

theorem natOf_eq (start : Nat) (ds : List Char) : natOf start ds = start * 10 ^ ds.length + digitsValue ds := by
  induction ds using List.reverseRecOn with
  | nil => simp [natOf, digitsValue]
  | append_singleton ds c ih =>
    unfold natOf digitsValue at ih ⊢
    rw [List.foldl_append, List.foldl_cons, List.foldl_nil, ih, List.reverse_append, List.reverse_singleton,
      List.singleton_append, List.map_cons, Nat.ofDigits_cons, List.length_append, List.length_singleton, pow_succ]
    push_cast
    ring

theorem spanDigits_eq_iff : spanDigits cs = (ds, rest) ↔
    cs = ds ++ rest ∧ (∀ c ∈ ds, c.isDigit = true) ∧ ∀ c ∈ rest.head?, c.isDigit = false := by
  rw [spanDigits, List.span_eq_takeWhile_dropWhile, Prod.mk.injEq]
  constructor
  · rintro ⟨rfl, rfl⟩
    exact ⟨List.takeWhile_append_dropWhile.symm, fun c => List.mem_takeWhile_imp, Text.head?_dropWhile _ cs⟩
  · rintro ⟨rfl, hds, hrest⟩
    rw [List.dropWhile_append_of_pos hds, List.takeWhile_append_of_pos hds, Text.dropWhile_eq_self hrest,
      Text.takeWhile_eq_nil hrest, List.append_nil]
    exact ⟨rfl, rfl⟩

/-! ## Signs -/

theorem not_sign_of_isDigit {c : Char} (hc : c.isDigit = true) : c ≠ '-' ∧ c ≠ '+' := by
  constructor <;> rintro rfl <;> exact absurd hc (by decide)

theorem spanSign_spec (cs : List Char) : ∃ sign, Sign sign (spanSign cs).1 ∧ cs = sign ++ (spanSign cs).2 := by
  unfold spanSign
  split
  · exact ⟨_, .minus, rfl⟩
  · exact ⟨_, .plus, rfl⟩
  · exact ⟨_, .none, rfl⟩

theorem spanSign_append {sign : List Char} (hsign : Sign sign s) (hrest : ∀ c ∈ rest.head?, c ≠ '-' ∧ c ≠ '+') :
    spanSign (sign ++ rest) = (s, rest) := by
  cases hsign with
  | plus => rfl
  | minus => rfl
  | none =>
    rw [List.nil_append]
    unfold spanSign
    split
    · exact absurd rfl (hrest '-' rfl).1
    · exact absurd rfl (hrest '+' rfl).2
    · rfl

/-! ## Exponents -/

theorem natOf_zero (ds : List Char) : natOf 0 ds = digitsValue ds := by
  rw [natOf_eq, Nat.zero_mul, Nat.zero_add]

theorem exponent?_eq_some_iff : exponent? cs = some e ↔ Exponent cs e := by
  constructor
  · intro h
    cases cs with
    | nil =>
      cases h
      exact .none
    | cons c cs =>
      obtain ⟨sign, hsign, hcs⟩ := spanSign_spec cs
      unfold exponent? at h
      dsimp only at h
      split at h
      case isFalse => cases h
      case isTrue hc =>
        generalize spanSign cs = signed at h hsign hcs
        obtain ⟨s, unsigned⟩ := signed
        dsimp only at h hsign hcs
        cases hspan : spanDigits unsigned with
        | mk ds rest =>
        rw [hspan] at h
        obtain ⟨rfl, hds, -⟩ := spanDigits_eq_iff.mp hspan
        dsimp only at h
        split at h
        case isTrue => cases h
        case isFalse hne =>
          push Not at hne
          obtain ⟨hne, rfl⟩ := hne
          cases h
          rw [hcs, List.append_nil, natOf_zero]
          exact .some hc hsign hds hne
  · rintro (_ | ⟨hc, hsign, hds, hne⟩)
    · rfl
    · next c sign ds s =>
      have hhead : ∀ d ∈ ds.head?, d ≠ '-' ∧ d ≠ '+' :=
        fun d hd => not_sign_of_isDigit (hds d (List.mem_of_mem_head? hd))
      have hspan : spanDigits ds = (ds, []) := spanDigits_eq_iff.mpr ⟨(List.append_nil ds).symm, hds, by simp⟩
      unfold exponent?
      dsimp only
      rw [if_pos hc, spanSign_append hsign hhead]
      dsimp only
      rw [hspan]
      dsimp only
      rw [if_neg (by simp [hne]), natOf_zero]

theorem Exponent.head (h : Exponent cs e) : ∀ c ∈ cs.head?, c.isDigit = false ∧ c ≠ '.' := by
  intro c hc
  cases h with
  | none => cases hc
  | some he =>
    obtain rfl := Option.some.inj hc
    rcases he with rfl | rfl <;> decide

/-! ## Digits around a point -/

theorem spanFraction_append {digits whole fraction : List Char} (hdigits : Digits digits whole fraction)
    (hall : ∀ c ∈ whole ++ fraction, c.isDigit = true) (hrest : ∀ c ∈ rest.head?, c.isDigit = false ∧ c ≠ '.') :
    spanFraction (digits ++ rest) = (whole, fraction, rest) := by
  cases hdigits with
  | whole =>
    have hspan : spanDigits (digits ++ rest) = (digits, rest) :=
      spanDigits_eq_iff.mpr ⟨rfl, fun c hc => hall c (List.mem_append_left _ hc), fun c hc => (hrest c hc).1⟩
    unfold spanFraction
    rw [hspan]
    dsimp only
    split
    · exact absurd rfl (hrest '.' rfl).2
    · rfl
  | point =>
    have hwhole : spanDigits (whole ++ '.' :: (fraction ++ rest)) = (whole, '.' :: (fraction ++ rest)) :=
      spanDigits_eq_iff.mpr ⟨rfl, fun c hc => hall c (List.mem_append_left _ hc), by simp⟩
    have hfraction : spanDigits (fraction ++ rest) = (fraction, rest) :=
      spanDigits_eq_iff.mpr ⟨rfl, fun c hc => hall c (List.mem_append_right _ hc), fun c hc => (hrest c hc).1⟩
    unfold spanFraction
    rw [List.append_assoc, List.cons_append, hwhole]
    simp only [hfraction]

theorem spanFraction_spec {whole fraction : List Char} (h : spanFraction cs = (whole, fraction, rest)) :
    ∃ digits, Digits digits whole fraction ∧ cs = digits ++ rest ∧ ∀ c ∈ whole ++ fraction, c.isDigit = true := by
  unfold spanFraction at h
  cases hspan : spanDigits cs with
  | mk before after =>
  rw [hspan] at h
  obtain ⟨rfl, hbefore, -⟩ := spanDigits_eq_iff.mp hspan
  dsimp only at h
  split at h
  · next after =>
    cases hspan' : spanDigits after with
    | mk ds rest' =>
    rw [hspan'] at h
    obtain ⟨rfl, hds, -⟩ := spanDigits_eq_iff.mp hspan'
    cases h
    exact ⟨_, .point _ _, by simp, fun c hc => (List.mem_append.mp hc).elim (hbefore c) (hds c)⟩
  · cases h
    exact ⟨_, .whole _, rfl, fun c hc => hbefore c (by simpa using hc)⟩

theorem head_not_sign {digits whole fraction : List Char} (hdigits : Digits digits whole fraction)
    (hall : ∀ c ∈ whole ++ fraction, c.isDigit = true) (hne : whole ++ fraction ≠ []) (rest : List Char) :
    ∀ c ∈ (digits ++ rest).head?, c ≠ '-' ∧ c ≠ '+' := by
  intro c hc
  cases hdigits with
  | whole =>
    rw [List.append_nil] at hne hall
    rw [List.head?_append_of_ne_nil _ hne] at hc
    exact not_sign_of_isDigit (hall c (List.mem_of_mem_head? hc))
  | point =>
    cases whole with
    | nil =>
      obtain rfl := Option.some.inj hc
      decide
    | cons d whole =>
      obtain rfl := Option.some.inj hc
      exact not_sign_of_isDigit (hall _ List.mem_cons_self)

/-! ## The reader -/

theorem digits?_eq_some_iff : digits? s cs = some d ↔
    ∃ digits whole fraction exponent e, cs = digits ++ exponent ∧ Digits digits whole fraction ∧
      (∀ c ∈ whole ++ fraction, c.isDigit = true) ∧ whole ++ fraction ≠ [] ∧ Exponent exponent e ∧
      d = ⟨s, digitsValue whole * 10 ^ fraction.length + digitsValue fraction, e - fraction.length⟩ := by
  unfold digits?
  constructor
  · intro h
    cases hspan : spanFraction cs with
    | mk whole more =>
    obtain ⟨fraction, exponent⟩ := more
    rw [hspan] at h
    obtain ⟨digits, hdigits, hcs, hall⟩ := spanFraction_spec hspan
    dsimp only at h
    split at h
    · cases h
    · next hne =>
      obtain ⟨e, he, rfl⟩ := Option.map_eq_some_iff.mp h
      rw [← List.append_eq_nil_iff] at hne
      exact ⟨digits, whole, fraction, exponent, e, hcs, hdigits, hall, hne, exponent?_eq_some_iff.mp he,
        by rw [natOf_zero, natOf_eq]⟩
  · rintro ⟨digits, whole, fraction, exponent, e, rfl, hdigits, hall, hne, hexponent, rfl⟩
    rw [spanFraction_append hdigits hall hexponent.head]
    dsimp only
    rw [if_neg fun h => hne (List.append_eq_nil_iff.mpr h), exponent?_eq_some_iff.mpr hexponent, natOf_zero, natOf_eq]
    rfl

theorem word?_ne_finite (s : Bool) (cs : List Char) (d : Decimal) : word? s cs ≠ some (.finite d) := by
  unfold word?
  dsimp only
  split
  · exact fun h => by cases h
  split
  · exact fun h => by cases h
  · exact fun h => by cases h

theorem parse?_eq_finite_iff : parse? cs = some (.finite d) ↔
    digits? (spanSign cs).1 (spanSign cs).2 = some d := by
  unfold parse?
  dsimp only
  cases digits? (spanSign cs).1 (spanSign cs).2 with
  | none => exact iff_of_false (word?_ne_finite _ _ d) (by simp)
  | some d' => simp

theorem value_digits (s : Bool) (whole fraction : Nat) (n : Nat) (e : Int) :
    Decimal.value ⟨s, whole * 10 ^ n + fraction, e - n⟩ = (whole + fraction / 10 ^ n) * 10 ^ e := by
  rw [Decimal.value, zpow_sub₀ (by norm_num), zpow_natCast]
  push_cast
  field_simp

/-- **The reader reads the decimal numerals, and has their exact values.** -/
theorem denotes_iff {v : Rat} : Denotes cs v ↔
    ∃ d, parse? cs = some (.finite d) ∧ v = d.exact := by
  constructor
  · intro h
    cases h with
    | @intro sign digits whole fraction exponent s e hsign hdigits hall hne hexponent =>
    have hspan := spanSign_append hsign (head_not_sign hdigits hall hne exponent)
    refine ⟨⟨s, digitsValue whole * 10 ^ fraction.length + digitsValue fraction, e - fraction.length⟩,
      parse?_eq_finite_iff.mpr ?_, by rw [Decimal.exact, value_digits]⟩
    rw [hspan]
    exact digits?_eq_some_iff.mpr ⟨digits, whole, fraction, exponent, e, rfl, hdigits, hall, hne, hexponent, rfl⟩
  · rintro ⟨d, hd, rfl⟩
    obtain ⟨sign, hsign, hcs⟩ := spanSign_spec cs
    have hread := parse?_eq_finite_iff.mp hd
    generalize spanSign cs = signed at hsign hcs hread
    obtain ⟨digits, whole, fraction, exponent, e, hrest, hdigits, hall, hne, hexponent, rfl⟩ :=
      digits?_eq_some_iff.mp hread
    rw [Decimal.exact, value_digits, hcs, hrest]
    exact .intro hsign hdigits hall hne hexponent

end AxisNorm.Numeral
