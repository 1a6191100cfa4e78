import AxisNorm.Arithmetic
import Mathlib.Algebra.Ring.Nat

/-!
# Checked arithmetic that succeeds

* `Checked.product_eq_ok_iff`: no step of a product of positive extents overflows if the product
  itself is a size.
-/

namespace AxisNorm

theorem checked_eq_ok_iff {ε α : Type} {x : Except ArithmeticError α} {a : α} :
    (checked x : Except (Failure ε) α) = .ok a ↔ x = .ok a := by
  cases x <;> simp [checked]

namespace Checked

theorem multiply_eq_ok {a b : Nat} (h : a * b < sizeLimit) : multiply a b = .ok (a * b) :=
  multiply_eq_ok_iff.mpr ⟨rfl, h⟩

theorem add_eq_ok {a b : Nat} (h : a + b < sizeLimit) : add a b = .ok (a + b) :=
  add_eq_ok_iff.mpr ⟨rfl, h⟩

theorem productFrom_eq_ok_iff {start n : Nat} {ds : List Nat} (hstart : 0 < start)
    (hlt : start < sizeLimit) (hpos : ∀ d ∈ ds, 0 < d) :
    productFrom start ds = .ok n ↔ n = start * ds.prod ∧ start * ds.prod < sizeLimit := by
  induction ds generalizing start with
  | nil => simp [productFrom, eq_comm, hlt]
  | cons d ds ih =>
    have hd := hpos d List.mem_cons_self
    have hds : ∀ d ∈ ds, 0 < d := fun e he => hpos e (List.mem_cons_of_mem d he)
    have hprod : 0 < ds.prod := List.prod_pos_iff_forall_pos_nat.mpr hds
    rw [productFrom, bind_eq_ok_iff, List.prod_cons, ← Nat.mul_assoc]
    constructor
    · rintro ⟨m, hmul, h⟩
      obtain ⟨rfl, hm⟩ := multiply_eq_ok_iff.mp hmul
      exact (ih (Nat.mul_pos hstart hd) hm hds).mp h
    · rintro ⟨hn, h⟩
      have hm : start * d < sizeLimit := Nat.lt_of_le_of_lt (Nat.le_mul_of_pos_right _ hprod) h
      exact ⟨start * d, multiply_eq_ok hm, (ih (Nat.mul_pos hstart hd) hm hds).mpr ⟨hn, h⟩⟩

theorem product_eq_ok_iff {n : Nat} {ds : List Nat} (hpos : ∀ d ∈ ds, 0 < d) :
    product ds = .ok n ↔ n = ds.prod ∧ ds.prod < sizeLimit := by
  have h := productFrom_eq_ok_iff (n := n) Nat.one_pos (by decide) hpos
  rwa [Nat.one_mul] at h

end Checked

end AxisNorm
