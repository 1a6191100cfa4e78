import AxisNorm.Epsilon
import AxisNorm.Proofs.Arithmetic
import AxisNorm.Proofs.Float.Single

/-!
# Attributes that give a stabilizing constant

* `Epsilon.Gives`: the pieces of an attribute give each group a value.
* `Epsilon.Fault`: the first thing that is wrong with other pieces.
* `Epsilon.ofAttribute_eq_ok`, `Epsilon.ofAttribute_fault`: what comes of them.
* `Epsilon.values_of_ofAttribute`: every group has a value, which is finite and above zero.
-/

namespace AxisNorm.Epsilon

/-- The piece is a value, with white space around it. -/
def Valid (piece : List Char) : Prop := (value? (Text.trim piece)).isSome

instance (piece : List Char) : Decidable (Valid piece) := inferInstanceAs (Decidable (_ = true))

/-- All pieces are values: one for all groups, or one for each. -/
structure Gives (groups : Nat) (pieces : List (List Char)) : Prop where
  valid : ∀ piece ∈ pieces, Valid piece
  count : pieces.length = 1 ∨ pieces.length = groups

instance (groups : Nat) (pieces : List (List Char)) : Decidable (Gives groups pieces) :=
  decidable_of_iff ((∀ piece ∈ pieces, Valid piece) ∧ (pieces.length = 1 ∨ pieces.length = groups))
    ⟨fun h => ⟨h.1, h.2⟩, fun h => ⟨h.valid, h.count⟩⟩

/-- The first piece that is no value, or else the number of the pieces. -/
inductive Fault (groups : Nat) (pieces : List (List Char)) : EpsilonError → Prop
  | invalid (before after : List (List Char)) (piece : List Char)
    (hpieces : pieces = before ++ piece :: after) (hbefore : ∀ q ∈ before, Valid q) (hpiece : ¬ Valid piece) :
    Fault groups pieces (.invalid (Text.trim piece))
  | wrongCount (hvalid : ∀ piece ∈ pieces, Valid piece) (hone : pieces.length ≠ 1)
    (hgroups : pieces.length ≠ groups) : Fault groups pieces (.wrongCount pieces.length groups)

variable {groups : Nat} {pieces : List (List Char)}

theorem valuesOf_of_valid (h : ∀ piece ∈ pieces, Valid piece) :
    ∃ xs, valuesOf pieces = .ok xs ∧ xs.length = pieces.length := by
  induction pieces with
  | nil => exact ⟨[], rfl, rfl⟩
  | cons piece pieces ih =>
    obtain ⟨xs, hxs, hlength⟩ := ih fun q hq => h q (List.mem_cons_of_mem piece hq)
    obtain ⟨x, hx⟩ := Option.isSome_iff_exists.mp (h piece List.mem_cons_self)
    refine ⟨x :: xs, ?_, by rw [List.length_cons, List.length_cons, hlength]⟩
    rw [valuesOf, hx, hxs]
    rfl

theorem valuesOf_of_invalid (h : ¬ ∀ piece ∈ pieces, Valid piece) :
    ∃ before after piece, pieces = before ++ piece :: after ∧ (∀ q ∈ before, Valid q) ∧
      ¬ Valid piece ∧ valuesOf pieces = .error (.invalid (Text.trim piece)) := by
  induction pieces with
  | nil => exact absurd (fun q hq => absurd hq List.not_mem_nil) h
  | cons piece pieces ih =>
    by_cases hpiece : Valid piece
    · have hrest : ¬ ∀ q ∈ pieces, Valid q := fun hrest => h fun q hq => by
        rcases List.mem_cons.mp hq with rfl | hq
        · exact hpiece
        · exact hrest q hq
      obtain ⟨before, after, bad, rfl, hbefore, hbad, herror⟩ := ih hrest
      obtain ⟨x, hx⟩ := Option.isSome_iff_exists.mp hpiece
      refine ⟨piece :: before, after, bad, rfl, fun q hq => ?_, hbad, ?_⟩
      · rcases List.mem_cons.mp hq with rfl | hq
        · exact hpiece
        · exact hbefore q hq
      · rw [valuesOf, hx, herror]
        rfl
    · refine ⟨[], pieces, piece, rfl, fun q hq => absurd hq List.not_mem_nil, hpiece, ?_⟩
      rw [valuesOf, Option.not_isSome_iff_eq_none.mp hpiece]

theorem fill_eq_ok (hroom : groups * Single.bytes < 2 ^ 63) (policy : EpsilonPolicy) (x : Single) :
    fill groups policy x = .ok ⟨policy, List.replicate groups x⟩ := by
  rw [fill, Checked.reserve_eq_ok_iff.mpr hroom]
  rfl

theorem ofAttribute_of_values {text : String} {xs : List Single}
    (h : valuesOf (Text.pieces ',' text.toList) = .ok xs) (hone : xs.length ≠ 1) :
    ofAttribute groups (some text) =
      if xs.length = groups then .ok ⟨.perGroup, xs⟩ else .error (.error (.wrongCount xs.length groups)) := by
  unfold ofAttribute
  dsimp only
  rw [h]
  match xs, hone with
  | [], _ => rfl
  | [_], hone => exact absurd rfl hone
  | _ :: _ :: _, _ => rfl

theorem ofAttribute_eq_ok (hroom : groups * Single.bytes < 2 ^ 63) {given : Option String}
    (h : ∀ text ∈ given, Gives groups (Text.pieces ',' text.toList)) :
    ∃ e, ofAttribute groups given = .ok e := by
  cases given with
  | none => exact ⟨_, fill_eq_ok hroom _ _⟩
  | some text =>
    have h := h text rfl
    obtain ⟨xs, hxs, hlength⟩ := valuesOf_of_valid h.valid
    by_cases hone : xs.length = 1
    · obtain ⟨x, rfl⟩ := List.length_eq_one_iff.mp hone
      refine ⟨_, Eq.trans ?_ (fill_eq_ok hroom .uniform x)⟩
      unfold ofAttribute
      dsimp only
      rw [hxs]
    · have hgroups : xs.length = groups := by
        have hcount := h.count
        omega
      exact ⟨_, (ofAttribute_of_values hxs hone).trans (if_pos hgroups)⟩

theorem ofAttribute_fault {text : String} (h : ¬ Gives groups (Text.pieces ',' text.toList)) :
    ∃ cause, Fault groups (Text.pieces ',' text.toList) cause ∧
      ofAttribute groups (some text) = .error (.error cause) := by
  by_cases hvalid : ∀ piece ∈ Text.pieces ',' text.toList, Valid piece
  · obtain ⟨xs, hxs, hlength⟩ := valuesOf_of_valid hvalid
    have hone : xs.length ≠ 1 := fun hone => h ⟨hvalid, .inl (by omega)⟩
    have hgroups : xs.length ≠ groups := fun hgroups => h ⟨hvalid, .inr (by omega)⟩
    rw [ofAttribute_of_values hxs hone, if_neg hgroups]
    rw [hlength] at hone hgroups ⊢
    exact ⟨_, .wrongCount hvalid hone hgroups, rfl⟩
  · obtain ⟨before, after, piece, hpieces, hbefore, hpiece, herror⟩ := valuesOf_of_invalid hvalid
    refine ⟨_, .invalid before after piece hpieces hbefore hpiece, ?_⟩
    unfold ofAttribute
    dsimp only
    rw [herror]

/-! ## The values -/

theorem value?_positive {piece : List Char} {x : Single} (h : value? piece = some x) : x.Positive := by
  obtain ⟨n, -, h⟩ := Option.bind_eq_some_iff.mp h
  obtain ⟨⟨hfinite, hsign, hzero⟩, h⟩ := (Option.ite_none_right_eq_some).mp h
  cases h
  exact Single.positive_of_magnitude hfinite hsign hzero

theorem standard_positive : standard.Positive :=
  Single.positive_of_magnitude (by decide) (by decide) (by decide)

theorem valuesOf_positive {xs : List Single} (h : valuesOf pieces = .ok xs) : ∀ x ∈ xs, x.Positive := by
  induction pieces generalizing xs with
  | nil =>
    cases h
    exact fun x hx => absurd hx List.not_mem_nil
  | cons piece pieces ih =>
    unfold valuesOf at h
    split at h
    · cases h
    · next x hx =>
      cases hrest : valuesOf pieces with
      | error e => rw [hrest] at h; cases h
      | ok rest =>
        rw [hrest] at h
        cases h
        exact List.forall_mem_cons.mpr ⟨value?_positive hx, ih hrest⟩

theorem eq_of_fill {policy : EpsilonPolicy} {x : Single} {e : Epsilon} (h : fill groups policy x = .ok e) :
    e = ⟨policy, List.replicate groups x⟩ := by
  obtain ⟨-, -, h⟩ := bind_eq_ok_iff.mp h
  cases h
  rfl

theorem values_of_fill {policy : EpsilonPolicy} {x : Single} {e : Epsilon}
    (h : fill groups policy x = .ok e) (hx : x.Positive) :
    e.values.length = groups ∧ ∀ y ∈ e.values, y.Positive := by
  rw [eq_of_fill h]
  exact ⟨List.length_replicate, fun y hy => List.eq_of_mem_replicate hy ▸ hx⟩

/-- **Every group has a value, which is finite and above zero**, however the values are given. -/
theorem values_of_ofAttribute {given : Option String} {e : Epsilon} (h : ofAttribute groups given = .ok e) :
    e.values.length = groups ∧ ∀ x ∈ e.values, x.Positive := by
  unfold ofAttribute at h
  split at h
  · exact values_of_fill h standard_positive
  split at h
  · cases h
  · next x hx => exact values_of_fill h (valuesOf_positive hx x List.mem_cons_self)
  · next xs _ hxs =>
    split at h
    · next hcount =>
      cases h
      exact ⟨hcount, valuesOf_positive hxs⟩
    · cases h

end AxisNorm.Epsilon
