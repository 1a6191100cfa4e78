import AxisNorm.Proofs.Epsilon
import AxisNorm.Proofs.Numeral

/-!
# The language of the attribute

Which texts give the stabilizing constant, and what they give. The text is cut at its commas; white space around
a piece plays no part.

* `Epsilon.HasValue`: a piece is a decimal numeral between the two values from which on numbers are rounded to
  zero and to infinity.
* `Epsilon.Reads`: a number is nearest to the value of a piece.
* `Epsilon.Outcome`: the ways to end, with what leads to each.
* `Epsilon.valuesOf_eq_ok_iff`, `Epsilon.valuesOf_eq_error`: the pieces are read from left to right.
* `Epsilon.ofAttribute_eq_iff`: **what comes of every text.**
-/

namespace AxisNorm.Epsilon

/-- The piece, without the white space around it, is a numeral, and its exact value `v` is neither rounded to zero
nor to infinity. -/
def HasValue (piece : List Char) (v : Rat) : Prop :=
  ∃ t, Text.Trims piece t ∧ Numeral.Denotes t v ∧ 2 ^ (-150 : Int) < v ∧ v < 2 ^ 128 - 2 ^ 103

/-- The number is nearest to the value of the piece. -/
def Reads (piece : List Char) (x : Single) : Prop := ∃ v, HasValue piece v ∧ x.IsNearest v

/-- What comes of pieces for a number of groups. -/
inductive Outcome (groups : Nat) (pieces : List (List Char)) : Except (Failure EpsilonError) Epsilon → Prop
  | uniform {piece : List Char} {x : Single} (hpieces : pieces = [piece]) (hx : Reads piece x)
    (hroom : groups * Single.bytes < 2 ^ 63) : Outcome groups pieces (.ok ⟨.uniform, List.replicate groups x⟩)
  | perGroup {xs : List Single} (hxs : List.Forall₂ Reads pieces xs) (hmany : pieces.length ≠ 1)
    (hcount : pieces.length = groups) : Outcome groups pieces (.ok ⟨.perGroup, xs⟩)
  | invalid {before after : List (List Char)} {piece t : List Char} (hpieces : pieces = before ++ piece :: after)
    (hbefore : ∀ q ∈ before, ∃ v, HasValue q v) (hpiece : ¬ ∃ v, HasValue piece v) (ht : Text.Trims piece t) :
    Outcome groups pieces (.error (.error (.invalid t)))
  | wrongCount (hvalues : ∀ piece ∈ pieces, ∃ v, HasValue piece v) (hmany : pieces.length ≠ 1)
    (hcount : pieces.length ≠ groups) : Outcome groups pieces (.error (.error (.wrongCount pieces.length groups)))
  | noRoom (hvalues : ∀ piece ∈ pieces, ∃ v, HasValue piece v) (hone : pieces.length = 1)
    (hfull : 2 ^ 63 ≤ groups * Single.bytes) : Outcome groups pieces (.error (.arithmetic .capacityOverflow))

variable {groups : Nat} {pieces : List (List Char)} {piece : List Char} {x : Single} {xs : List Single}

/-! ## One piece -/

theorem not_finite_infinite (s : Bool) : (Single.ofMagnitude s Format.binary32.infinity).isFinite = false := by
  cases s <;> decide

theorem value?_eq_some_iff {cs : List Char} : value? cs = some x ↔
    ∃ v, Numeral.Denotes cs v ∧ 2 ^ (-150 : Int) < v ∧ v < 2 ^ 128 - 2 ^ 103 ∧ x.IsNearest v := by
  unfold value?
  rw [Option.bind_eq_some_iff]
  constructor
  · rintro ⟨n, hn, h⟩
    obtain ⟨hvalid, h⟩ := Option.ite_none_right_eq_some.mp h
    obtain rfl := Option.some.inj h
    cases n with
    | infinite s => exact absurd hvalid.1 (by rw [Numeral.toSingle, not_finite_infinite]; decide)
    | nan => exact absurd hvalid.1 (by decide)
    | finite d =>
      obtain ⟨hlow, hhigh⟩ := Decimal.toSingle_positive_iff.mp hvalid
      exact ⟨d.exact, Numeral.denotes_iff.mpr ⟨d, hn, rfl⟩, hlow, hhigh, (Decimal.isNearest_iff hlow hhigh).mpr rfl⟩
  · rintro ⟨v, hv, hlow, hhigh, hx⟩
    obtain ⟨d, hd, rfl⟩ := Numeral.denotes_iff.mp hv
    obtain rfl := (Decimal.isNearest_iff hlow hhigh).mp hx
    exact ⟨.finite d, hd, if_pos (Decimal.toSingle_positive_iff.mpr ⟨hlow, hhigh⟩)⟩

theorem reads_iff : Reads piece x ↔ value? (Text.trim piece) = some x := by
  rw [value?_eq_some_iff]
  constructor
  · rintro ⟨v, ⟨t, ht, hv, hlow, hhigh⟩, hx⟩
    rw [← Text.trims_iff.mp ht]
    exact ⟨v, hv, hlow, hhigh, hx⟩
  · rintro ⟨v, hv, hlow, hhigh, hx⟩
    exact ⟨v, ⟨_, Text.trims_trim piece, hv, hlow, hhigh⟩, hx⟩

theorem valid_iff : Valid piece ↔ ∃ v, HasValue piece v := by
  rw [Valid, Option.isSome_iff_exists]
  constructor
  · rintro ⟨x, hx⟩
    obtain ⟨v, hv, -⟩ := reads_iff.mpr hx
    exact ⟨v, hv⟩
  · rintro ⟨v, ⟨t, ht, hv, hlow, hhigh⟩⟩
    obtain ⟨d, hd, rfl⟩ := Numeral.denotes_iff.mp hv
    exact ⟨d.toSingle, reads_iff.mp ⟨_, ⟨t, ht, hv, hlow, hhigh⟩, (Decimal.isNearest_iff hlow hhigh).mpr rfl⟩⟩

/-! ## All pieces -/

theorem valuesOf_eq_ok_iff : valuesOf pieces = .ok xs ↔ List.Forall₂ Reads pieces xs := by
  induction pieces generalizing xs with
  | nil => simp [valuesOf, eq_comm]
  | cons piece pieces ih =>
    rw [valuesOf]
    cases hpiece : value? (Text.trim piece) with
    | none =>
      refine iff_of_false (by simp) fun h => ?_
      obtain ⟨x, rest, hx, -, -⟩ := List.forall₂_cons_left_iff.mp h
      rw [reads_iff.mp hx] at hpiece
      cases hpiece
    | some x =>
      dsimp only
      constructor
      · intro h
        cases hrest : valuesOf pieces with
        | error e =>
          rw [hrest] at h
          cases h
        | ok ys =>
          rw [hrest] at h
          cases h
          exact .cons (reads_iff.mpr hpiece) (ih.mp hrest)
      · intro h
        obtain ⟨y, ys, hy, hys, rfl⟩ := List.forall₂_cons_left_iff.mp h
        obtain rfl : x = y := Option.some.inj (hpiece.symm.trans (reads_iff.mp hy))
        rw [ih.mpr hys]
        rfl

theorem exists_reads (h : ∀ piece ∈ pieces, ∃ v, HasValue piece v) : ∃ xs, List.Forall₂ Reads pieces xs := by
  obtain ⟨xs, hxs, -⟩ := valuesOf_of_valid fun piece hpiece => valid_iff.mpr (h piece hpiece)
  exact ⟨xs, valuesOf_eq_ok_iff.mp hxs⟩

theorem valuesOf_append {before : List (List Char)} (h : List.Forall₂ Reads before xs) (rest : List (List Char)) :
    valuesOf (before ++ rest) = (valuesOf rest).map (xs ++ ·) := by
  induction h with
  | nil => cases h : valuesOf rest <;> simp [h, Except.map]
  | cons hx _ ih =>
    rw [List.cons_append, valuesOf, reads_iff.mp hx, ih]
    cases valuesOf rest <;> rfl

theorem valuesOf_eq_error {before after : List (List Char)} {t : List Char}
    (hbefore : ∀ q ∈ before, ∃ v, HasValue q v) (hpiece : ¬ ∃ v, HasValue piece v) (ht : Text.Trims piece t) :
    valuesOf (before ++ piece :: after) = .error (.invalid t) := by
  obtain ⟨xs, hxs⟩ := exists_reads hbefore
  rw [valuesOf_append hxs, valuesOf, Option.not_isSome_iff_eq_none.mp (valid_iff.not.mpr hpiece), Text.trims_iff.mp ht]
  rfl

/-! ## All texts -/

theorem fill_eq_error (hfull : 2 ^ 63 ≤ groups * Single.bytes) (policy : EpsilonPolicy) (x : Single) :
    fill groups policy x = .error (.arithmetic .capacityOverflow) := by
  rw [fill, Checked.reserve, if_neg (by omega)]
  rfl

theorem ofAttribute_of_value {text : String} (h : valuesOf (Text.pieces ',' text.toList) = .ok [x]) :
    ofAttribute groups (some text) = fill groups .uniform x := by
  unfold ofAttribute
  dsimp only
  rw [h]

theorem ofAttribute_of_error {text : String} {e : EpsilonError}
    (h : valuesOf (Text.pieces ',' text.toList) = .error e) : ofAttribute groups (some text) = .error (.error e) := by
  unfold ofAttribute
  dsimp only
  rw [h]

theorem ofAttribute_of_outcome {text : String} {result : Except (Failure EpsilonError) Epsilon}
    (h : Outcome groups (text.toList.splitOn ',') result) : ofAttribute groups (some text) = result := by
  rw [← Text.pieces_eq_splitOn] at h
  cases h with
  | uniform hpieces hx hroom =>
    have hvalues := valuesOf_eq_ok_iff.mpr (hpieces ▸ List.Forall₂.cons hx .nil)
    rw [ofAttribute_of_value hvalues, fill_eq_ok hroom]
  | perGroup hxs hmany hcount =>
    have hlength := hxs.length_eq
    rw [ofAttribute_of_values (valuesOf_eq_ok_iff.mpr hxs) (hlength ▸ hmany), if_pos (hlength ▸ hcount)]
  | invalid hpieces hbefore hpiece ht =>
    exact ofAttribute_of_error (hpieces ▸ valuesOf_eq_error hbefore hpiece ht)
  | wrongCount hvalues hmany hcount =>
    obtain ⟨xs, hxs⟩ := exists_reads hvalues
    have hlength := hxs.length_eq
    rw [ofAttribute_of_values (valuesOf_eq_ok_iff.mpr hxs) (hlength ▸ hmany), if_neg (hlength ▸ hcount), hlength]
  | noRoom hvalues hone hfull =>
    obtain ⟨xs, hxs⟩ := exists_reads hvalues
    obtain ⟨x, rfl⟩ := List.length_eq_one_iff.mp (hxs.length_eq.symm.trans hone)
    rw [ofAttribute_of_value (valuesOf_eq_ok_iff.mpr hxs), fill_eq_error hfull]

theorem exists_outcome (groups : Nat) (pieces : List (List Char)) : ∃ result, Outcome groups pieces result := by
  by_cases hvalues : ∀ piece ∈ pieces, ∃ v, HasValue piece v
  · obtain ⟨xs, hxs⟩ := exists_reads hvalues
    by_cases hone : pieces.length = 1
    · rcases Nat.lt_or_ge (groups * Single.bytes) (2 ^ 63) with hroom | hfull
      · obtain ⟨piece, rfl⟩ := List.length_eq_one_iff.mp hone
        obtain ⟨x, _, hx, -, -⟩ := List.forall₂_cons_left_iff.mp hxs
        exact ⟨_, .uniform rfl hx hroom⟩
      · exact ⟨_, .noRoom hvalues hone hfull⟩
    · by_cases hcount : pieces.length = groups
      · exact ⟨_, .perGroup hxs hone hcount⟩
      · exact ⟨_, .wrongCount hvalues hone hcount⟩
  · obtain ⟨before, after, piece, hpieces, hbefore, hpiece, -⟩ :=
      valuesOf_of_invalid fun hvalid => hvalues fun piece hpiece => valid_iff.mp (hvalid piece hpiece)
    exact ⟨_, .invalid hpieces (fun q hq => valid_iff.mp (hbefore q hq)) (valid_iff.not.mp hpiece)
      (Text.trims_trim piece)⟩

/-- **What comes of every text.** -/
theorem ofAttribute_eq_iff (groups : Nat) (text : String) (result : Except (Failure EpsilonError) Epsilon) :
    ofAttribute groups (some text) = result ↔ Outcome groups (text.toList.splitOn ',') result := by
  constructor
  · rintro rfl
    obtain ⟨result, h⟩ := exists_outcome groups (text.toList.splitOn ',')
    rwa [ofAttribute_of_outcome h]
  · exact ofAttribute_of_outcome

example : ofAttribute 2 (some " 1e-6 ,+.5") = .ok ⟨.perGroup, [⟨0x358637bd⟩, ⟨0x3f000000⟩]⟩ := by decide +kernel

/-- A single value gives no constants for more groups than a buffer has room for. -/
theorem no_values_without_room : ∃ (groups : Nat) (text : String), 1 ≤ groups ∧
    (∀ piece ∈ text.toList.splitOn ',', ∃ v, HasValue piece v) ∧ (text.toList.splitOn ',').length = 1 ∧
    ¬ ∃ e, ofAttribute groups (some text) = .ok e := by
  have hvalues : ∀ piece ∈ "1".toList.splitOn ',', ∃ v, HasValue piece v := by
    intro piece hpiece
    obtain rfl : piece = ['1'] := List.mem_singleton.mp hpiece
    exact valid_iff.mp (by decide +kernel)
  refine ⟨2 ^ 61, "1", by decide, hvalues, by decide, ?_⟩
  rintro ⟨e, he⟩
  rw [ofAttribute_of_outcome (.noRoom hvalues (by decide) (by decide))] at he
  cases he

end AxisNorm.Epsilon
