import AxisNorm.Normalization.Routine
import AxisNorm.Proofs.Normalization.Program
import AxisNorm.Proofs.Split

/-!
# A walk of the code visits the elements of a group in order

The nested loops that `walkBlock` emits do what one loop over the elements of the group does.

* `Value.level`: how deep in the loops a register is set. What a loop sets lies deeper than what it
  reads, so that it finds its own bounds again after each round.
* `inner_performs`, `outer_performs`: the loop over a row and the loop over rows, by induction on what
  remains of them.
* `walk_performs`: **a walk hands the elements of the group to its body in the order of their numbers.**
-/

namespace AxisNorm

/-- The steps of a walk, without its start and its end. -/
def Split.walkSteps (s : Split) : Nat := s.outer * (16 + s.inner * 32)

namespace Normalization

open Code

/-- How deep in the loops a value is computed: 0 before them, 1 and 2 for each group, 3 for each row,
4 for the head of each element, 5 for what is done with an element. -/
@[simp] def Value.level : Value → Nat
  | .data | .start | .length | .stop | .noWrap | .inRange | .sliceOk | .pointer _ | .isNull _
  | .anyNull _ | .base _ => 0
  | .group | .moreGroups | .nextGroup | .bytes (.constant _) | .address (.constant _)
  | .loaded (.constant _) | .zero => 1
  | .mean | .variance | .stabilized | .standardDeviation | .inverse | .walk _ .first
  | .walk _ .outerStop => 2
  | .walk _ .outer | .walk _ .moreOuter | .walk _ .outerGroups | .walk _ .outerRow | .walk _ .row
  | .walk _ .positionRow | .walk _ .innerStop | .walk _ .nextOuter | .walk _ (.sum .outer) => 3
  | .walk _ .inner | .walk _ .moreInner | .walk _ .element | .walk _ .position | .walk _ .nextInner
  | .walk _ (.sum .inner) => 4
  | _ => 5

/-- Nothing above a level has changed. -/
abbrev AgreeBelow (level : Nat) (r r' : Registers Value) : Prop :=
  Registers.AgreeOn (fun v => v.level < level) r r'

namespace AgreeBelow

variable {level : Nat} {r r' r'' : Registers Value} {v : Value}

theorem refl (level : Nat) (r : Registers Value) : AgreeBelow level r r := Registers.AgreeOn.refl _ r

theorem trans (h : AgreeBelow level r r') (h' : AgreeBelow level r' r'') : AgreeBelow level r r'' :=
  Registers.AgreeOn.trans h h'

theorem weaken {n : Nat} (h : AgreeBelow level r r') (hn : n ≤ level) : AgreeBelow n r r' :=
  Registers.AgreeOn.mono h fun _ hv => Nat.lt_of_lt_of_le hv hn

theorem get? {w : Option Word} (h : AgreeBelow level r r') (hr : r.get? v = w)
    (hv : v.level < level) : r'.get? v = w :=
  (h v hv).trans hr

theorem set (h : AgreeBelow level r r') (w : Word) (hv : ¬ v.level < level) :
    AgreeBelow level r (r'.set v w) :=
  Registers.AgreeOn.set h hv w

end AgreeBelow

/-! ## The running sum -/

/-- What a walk carries lies in the registers of a place. -/
def Carries (p : Pass) (place : SumPlace) (xs : List Single) (r : Registers Value) : Prop :=
  (carried p place).mapM r.get? = some (xs.map .f32)

theorem eq_of_mem_carried {p : Pass} {place : SumPlace} {v : Value} (h : v ∈ carried p place) :
    v = .walk p (.sum place) := by
  cases p <;> simp_all [carried]

theorem Carries.congr {p : Pass} {place : SumPlace} {xs : List Single} {r r' : Registers Value}
    (h : Carries p place xs r)
    (hr : r'.get? (.walk p (.sum place)) = r.get? (.walk p (.sum place))) : Carries p place xs r' := by
  cases p <;> simp_all [Carries, carried]

theorem Carries.set {p : Pass} {place : SumPlace} {xs : List Single} {r : Registers Value} {v : Value}
    (h : Carries p place xs r) (w : Word) (hv : v ≠ .walk p (.sum place)) :
    Carries p place xs (r.set v w) :=
  h.congr (Registers.get?_set_of_ne hv r w)

theorem carries_singleton {p : Pass} (hp : p ≠ .normalize) {place : SumPlace} {x : Single}
    {r : Registers Value} :
    Carries p place [x] r ↔ r.get? (.walk p (.sum place)) = some (.f32 x) := by
  have hcarried : carried p place = [.walk p (.sum place)] := by
    cases p <;> first | rfl | exact absurd rfl hp
  rw [Carries, hcarried, List.mapM_cons, List.mapM_nil]
  cases r.get? (.walk p (.sum place)) <;> simp

theorem nodup_carried (p : Pass) (place : SumPlace) : (carried p place).Nodup := by
  cases p <;> simp [carried]

theorem length_carried (p : Pass) (place place' : SumPlace) :
    (carried p place).length = (carried p place').length := by
  cases p <;> rfl

/-- The registers at the start of a walk, its bounds among them. -/
def withBounds (s : Split) (p : Pass) (r : Registers Value) : Registers Value :=
  (r.set (.walk p .first) (.ofNat 0)).set (.walk p .outerStop) (.ofNat s.outer)

theorem agreeBelow_withBounds (s : Split) (p : Pass) (r : Registers Value) :
    AgreeBelow 2 r (withBounds s p r) :=
  .set (.set (.refl _ r) _ (by simp)) _ (by simp)

theorem get?_withBounds {s : Split} {p : Pass} {r : Registers Value} {v : Value}
    (h : v ≠ .walk p .first) (h' : v ≠ .walk p .outerStop) :
    (withBounds s p r).get? v = r.get? v :=
  (Registers.get?_set_of_ne h'.symm _ _).trans (Registers.get?_set_of_ne h.symm _ _)

theorem ofInt_immediate (n : Nat) : UInt64.ofInt (immediate n) = UInt64.ofNat n := by
  have h : (immediate n) % 2 ^ 64 = (n : Int) % 2 ^ 64 := Int.bmod_emod
  rw [UInt64.ofInt, h]
  apply UInt64.toNat_inj.mp
  simp only [UInt64.toNat_ofNat']
  omega

theorem walkBounds_assigns (s : Split) (p : Pass) (r : Registers Value) :
    r.Assigns (walkBounds s p) (withBounds s p r) :=
  .set (evaluate?_constant (x := 0) rfl) (.set (evaluate?_constant (ofInt_immediate _)) (.nil _))

/-- The registers once the bounds of row `o` of group `b` are known. -/
def withRow (s : Split) (p : Pass) (b o : Nat) (r : Registers Value) : Registers Value :=
  ((((r.set (.walk p .outerGroups) (.ofNat (o * s.batch))).set (.walk p .outerRow) (.ofNat (o * s.batch + b))).set
    (.walk p .row) (.ofNat ((o * s.batch + b) * s.inner))).set (.walk p .positionRow) (.ofNat (o * s.inner))).set
    (.walk p .innerStop) (.ofNat s.inner)

theorem agreeBelow_withRow (s : Split) (p : Pass) (b o : Nat) (r : Registers Value) :
    AgreeBelow 3 r (withRow s p b o r) := by
  refine .set (.set (.set (.set (.set (.refl _ _) _ ?_) _ ?_) _ ?_) _ ?_) _ ?_ <;> simp

theorem rowBounds_assigns {s : Split} {p : Pass} {b o : Nat} {r : Registers Value}
    (hgroup : r.get? .group = some (.ofNat b)) (houter : r.get? (.walk p .outer) = some (.ofNat o))
    (body : List (Instruction Value)) (after : Label) :
    r.Assigns (walkBlock s p body after .outerBody).body (withRow s p b o r) := by
  refine .set (evaluate?_mulImm (x := o) (y := s.batch) houter (ofInt_immediate _)) ?_
  refine .set (evaluate?_add (x := o * s.batch) (y := b) (by simp) (by simp [Registers.get?_set, hgroup])) ?_
  refine .set (evaluate?_mulImm (x := o * s.batch + b) (y := s.inner) (by simp) (ofInt_immediate _)) ?_
  refine .set (evaluate?_mulImm (x := o) (y := s.inner) (by simp [Registers.get?_set, houter])
    (ofInt_immediate _)) ?_
  exact .set (evaluate?_constant (x := s.inner) (ofInt_immediate _)) (.nil _)

section

variable {code : Routine Label Value} {split : Split} {p : Pass} {body : List (Instruction Value)}
  {after : Label} {S : Type} {sums : S → List Single} {b : Nat}
  {step : Nat → S → (S → Task Memory Exit) → Task Memory Exit} {r₀ : Registers Value}

/-- The body of a walk, wherever it stands: with an element and its number in their registers it does
one step of the loop over elements, and leaves the loops around it alone. -/
def BodyPerforms (code : Routine Label Value) (split : Split) (p : Pass)
    (body : List (Instruction Value)) (sums : S → List Single) (b : Nat)
    (step : Nat → S → (S → Task Memory Exit) → Task Memory Exit) (r₀ : Registers Value) : Prop :=
  ∀ (k : Nat) (s : S) (r : Registers Value) (rest : List (Instruction Value))
    (e : Terminator Label Value) (steps : Nat) (next : S → Task Memory Exit),
    AgreeBelow 3 r₀ r → r.get? (.walk p .element) = some (.ofNat (split.position b k)) →
    r.get? (.walk p .position) = some (.ofNat k) → Carries p .inner (sums s) r →
    (∀ r' s', AgreeBelow 5 r r' → Carries p .next (sums s') r' →
      code.Performs steps (.running ⟨r', rest, e⟩) (next s')) →
    code.Performs (steps + 23) (.running ⟨r, body ++ rest, e⟩) (step k s next)

variable (hcode : ∀ l, code.block (.walk p l) = walkBlock split p body after l)
  (hsums : ∀ s, (sums s).length = (carried p .outer).length)

include hcode

include hsums

theorem enter_head {steps level : Nat} {t : Task Memory Exit} {place : SumPlace} {l : WalkLabel}
    {v : Value} (n : Nat) (s : S) (r : Registers Value)
    (hl : (walkBlock split p body after l).parameters = (v, .i64) :: (carried p place).map (·, .f32))
    (hv : v ≠ .walk p (.sum place)) (hlevel : v.level = level)
    (hlevel' : (Value.walk p (.sum place)).level = level)
    (h : ∀ r', AgreeBelow level r r' → r'.get? v = some (.ofNat n) → Carries p place (sums s) r' →
      code.Performs steps (.running ⟨r', (walkBlock split p body after l).body,
        (walkBlock split p body after l).terminator⟩) t) :
    code.Performs steps (code.enter r (.walk p l) (.ofNat n :: (sums s).map .f32)) t := by
  have hlen : (sums s).length = (carried p place).length := (hsums s).trans (length_carried _ _ _)
  obtain ⟨r', hb, hc, ha⟩ :=
    Registers.exists_bind?_singles (nodup_carried p place) hlen (r.set v (.ofNat n))
  rw [← hcode] at hl h
  refine .enter r' ?_ (h r' (fun u hu => ?_) ?_ hc)
  · rw [hl, Registers.bind?, if_pos (show (Word.ofNat n).type = .i64 from rfl), hb]
  · rw [ha u fun hm => by rw [eq_of_mem_carried hm] at hu; omega,
      Registers.get?_set_of_ne fun he => by rw [← he] at hu; omega]
  · rw [ha v fun hm => hv (eq_of_mem_carried hm), Registers.get?_set_self]

theorem inner_performs (hbody : BodyPerforms code split p body sums b step r₀)
    (hinner : split.inner < 2 ^ 64) {o count i : Nat} (hi : i + count = split.inner)
    {r : Registers Value} (hr : AgreeBelow 3 r₀ r)
    (hrow : r.get? (.walk p .row) = some (.ofNat ((o * split.batch + b) * split.inner)))
    (hposition : r.get? (.walk p .positionRow) = some (.ofNat (o * split.inner)))
    (hstop : r.get? (.walk p .innerStop) = some (.ofNat split.inner)) {s : S} {steps : Nat}
    {next : S → Task Memory Exit}
    (hnext : ∀ r' s', AgreeBelow 4 r r' → Carries p .inner (sums s') r' →
      code.Performs steps (code.enter r' (.walk p .outerLatch) []) (next s')) :
    code.Performs (steps + 2 + 32 * count)
      (code.enter r (.walk p .innerHeader) (.ofNat i :: (sums s).map .f32))
      (overElements step next count (o * split.inner + i) s) := by
  induction count generalizing i r s with
  | zero =>
    refine enter_head hcode hsums i s r rfl (by simp) rfl rfl fun r₁ ha hcounter hsum => ?_
    refine .set (evaluate?_ult hcounter (ha.get? hstop (by simp)) (by omega) hinner) ?_
    refine .branch (b := false) ?_ ?_
    · rw [Registers.get?_set_self, decide_eq_false (by omega)]
    · exact hnext _ s (ha.set _ (by simp)) (hsum.set _ (by simp))
  | succ count ih =>
    have hlt : i < split.inner := by omega
    have hsteps : steps + 2 + 32 * count + 1 + 1 + 23 + 1 + 1 + 1 + 1 ≤ steps + 2 + 32 * (count + 1) := by
      omega
    refine .mono ?_ hsteps
    refine enter_head hcode hsums i s r rfl (by simp) rfl rfl fun r₁ ha hcounter hsum => ?_
    refine .set (evaluate?_ult hcounter (ha.get? hstop (by simp)) (by omega) hinner) ?_
    refine .branch (b := true) (by rw [Registers.get?_set_self, decide_eq_true hlt]) ?_
    refine .enter_nil (hcode _) rfl ?_
    have hrow₁ := ha.get? hrow (by simp)
    have hposition₁ := ha.get? hposition (by simp)
    -- The element and its number.
    refine .set (evaluate?_add (x := (o * split.batch + b) * split.inner) (y := i)
      (by simp [Registers.get?_set, hrow₁]) (by simp [Registers.get?_set, hcounter])) ?_
    refine .set (evaluate?_add (x := o * split.inner) (y := i)
      (by simp [Registers.get?_set, hposition₁]) (by simp [Registers.get?_set, hcounter])) ?_
    generalize hr₂ : ((r₁.set _ _).set _ _).set _ _ = r₂
    have ha₂ : AgreeBelow 4 r r₂ := by
      rw [← hr₂]
      exact ((ha.set _ (by simp)).set _ (by simp)).set _ (by simp)
    refine hbody (o * split.inner + i) s r₂ _ _ _ _ (hr.trans (ha₂.weaken (by omega))) ?_ ?_ ?_ ?_
    · rw [split.position_row b o hlt]
      simp [← hr₂, Registers.get?_set]
    · simp [← hr₂]
    · rw [← hr₂]
      exact ((hsum.set _ (by simp)).set _ (by simp)).set _ (by simp)
    -- The next element.
    intro r₃ s' ha₃ hsum₃
    have hcounter₃ : r₃.get? (.walk p .inner) = some (.ofNat i) :=
      ha₃.get? (by simp [← hr₂, Registers.get?_set, hcounter]) (by simp)
    refine .set (evaluate?_addImm hcounter₃ (y := 1) rfl) ?_
    refine .jump (.ofNat (i + 1) :: (sums s').map .f32) ?_ ?_
    · have hsum₄ := hsum₃.set (v := .walk p .nextInner) (.ofNat (i + 1)) (by simp)
      rw [List.mapM_cons, Registers.get?_set_self, hsum₄]
      rfl
    · have ha₄ : AgreeBelow 4 r (r₃.set (.walk p .nextInner) (.ofNat (i + 1))) :=
        (ha₂.trans (ha₃.weaken (by omega))).set _ (by simp)
      exact ih (by omega) (hr.trans (ha₄.weaken (by omega))) (ha₄.get? hrow (by simp))
        (ha₄.get? hposition (by simp)) (ha₄.get? hstop (by simp))
        fun r' s'' ha' => hnext r' s'' (ha₄.trans ha')

theorem outer_performs (hbody : BodyPerforms code split p body sums b step r₀)
    (hinner : split.inner < 2 ^ 64) (houter : split.outer < 2 ^ 64)
    (hgroup : r₀.get? .group = some (.ofNat b))
    (hfirst : r₀.get? (.walk p .first) = some (.ofNat 0))
    (hstop : r₀.get? (.walk p .outerStop) = some (.ofNat split.outer)) {rows o : Nat}
    (ho : o + rows = split.outer) {r : Registers Value} (hr : AgreeBelow 3 r₀ r) {s : S} {steps : Nat}
    {next : S → Task Memory Exit}
    (hnext : ∀ r' s', AgreeBelow 3 r₀ r' → Carries p .outer (sums s') r' →
      code.Performs steps (code.enter r' after []) (next s')) :
    code.Performs (steps + 2 + rows * (16 + split.inner * 32))
      (code.enter r (.walk p .outerHeader) (.ofNat o :: (sums s).map .f32))
      (overElements step next (rows * split.inner) (o * split.inner) s) := by
  induction rows generalizing o r s with
  | zero =>
    rw [Nat.zero_mul, Nat.zero_mul]
    refine enter_head hcode hsums o s r rfl (by simp) rfl rfl fun r₁ ha hcounter hsum => ?_
    have ha₁ : AgreeBelow 3 r₀ r₁ := hr.trans ha
    refine .set (evaluate?_ult hcounter (ha₁.get? hstop (by simp)) (by omega) houter) ?_
    refine .branch (b := false) ?_ ?_
    · rw [Registers.get?_set_self, decide_eq_false (by omega)]
    · exact hnext _ s (ha₁.set _ (by simp)) (hsum.set _ (by simp))
  | succ rows ih =>
    have hlt : o < split.outer := by omega
    rw [Nat.succ_mul, Nat.succ_mul, Nat.add_comm (rows * split.inner), overElements_add]
    have hsteps : steps + 2 + rows * (16 + split.inner * 32) + 1 + 1 + 2 + 32 * split.inner + 1 + 5 + 1
        + 1 ≤ steps + 2 + (rows * (16 + split.inner * 32) + (16 + split.inner * 32)) := by
      omega
    refine .mono ?_ hsteps
    refine enter_head hcode hsums o s r rfl (by simp) rfl rfl fun r₁ ha hcounter hsum => ?_
    have ha₁ : AgreeBelow 3 r₀ r₁ := hr.trans ha
    refine .set (evaluate?_ult hcounter (ha₁.get? hstop (by simp)) (by omega) houter) ?_
    refine .branch (b := true) (by rw [Registers.get?_set_self, decide_eq_true hlt]) ?_
    refine .enter_nil (hcode _) rfl ?_
    have hgroup₁ := ha₁.get? hgroup (by simp)
    have hfirst₁ := ha₁.get? hfirst (by simp)
    rw [← List.append_nil (walkBlock split p body after .outerBody).body]
    refine .assigns (rowBounds_assigns (b := b) (o := o) (by simp [Registers.get?_set, hgroup₁])
      (by simp [Registers.get?_set, hcounter]) body after) ?_
    generalize hr₂ : withRow split p b o _ = r₂
    have ha₂ : AgreeBelow 3 r₁ r₂ := by
      rw [← hr₂]
      exact .trans (.set (.refl _ _) _ (by simp)) (agreeBelow_withRow split p b o _)
    have hsum₂ : Carries p .outer (sums s) r₂ := by
      rw [← hr₂]
      refine .set (.set (.set (.set (.set (.set hsum _ ?_) _ ?_) _ ?_) _ ?_) _ ?_) _ ?_ <;> simp
    refine .jump (.ofNat 0 :: (sums s).map .f32) ?_ ?_
    · rw [List.mapM_cons, ha₂.get? hfirst₁ (by simp), hsum₂]
      rfl
    refine inner_performs hcode hsums hbody hinner (Nat.zero_add _) (ha₁.trans ha₂)
      (by simp [← hr₂, withRow, Registers.get?_set]) (by simp [← hr₂, withRow, Registers.get?_set])
      (by simp [← hr₂, withRow]) ?_
    -- The next row.
    intro r₃ s' ha₃ hsum₃
    have hcounter₃ : r₃.get? (.walk p .outer) = some (.ofNat o) :=
      ha₃.get? (by simp [← hr₂, withRow, Registers.get?_set, hcounter]) (by simp)
    refine .enter_nil (hcode _) rfl ?_
    refine .set (evaluate?_addImm hcounter₃ (y := 1) rfl) ?_
    refine .jump (.ofNat (o + 1) :: (sums s').map .f32) ?_ ?_
    · have hsum₄ := hsum₃.set (v := .walk p .nextOuter) (.ofNat (o + 1)) (by simp)
      rw [List.mapM_cons, Registers.get?_set_self, hsum₄]
      rfl
    · rw [Nat.add_zero, ← Nat.succ_mul]
      have ha₄ := (ha₂.trans (ha₃.weaken (by omega : 3 ≤ 4))).set
        (v := .walk p .nextOuter) (.ofNat (o + 1)) (by simp)
      exact ih (by omega) (ha₁.trans ha₄)

/-- **A walk hands the elements of a group to its body in the order of their numbers.** -/
theorem walk_performs {r : Registers Value}
    (hbody : BodyPerforms code split p body sums b step (withBounds split p r))
    (hinner : split.inner < 2 ^ 64) (houter : split.outer < 2 ^ 64)
    (hgroup : r.get? .group = some (.ofNat b)) {s : S}
    (hinitial : (initial p).mapM r.get? = some ((sums s).map .f32)) {steps : Nat}
    {next : S → Task Memory Exit}
    (hnext : ∀ r' s', AgreeBelow 3 (withBounds split p r) r' → Carries p .outer (sums s') r' →
      code.Performs steps (code.enter r' after []) (next s')) :
    code.Performs (steps + 2 + split.walkSteps + 3) (.running ⟨r, walkBounds split p, walkStart p⟩)
      (overElements step next (split.outer * split.inner) 0 s) := by
  rw [← List.append_nil (walkBounds split p)]
  refine .assigns (walkBounds_assigns split p r) ?_
  refine .jump (.ofNat 0 :: (sums s).map .f32) ?_ ?_
  · have hinitial' : (initial p).mapM (withBounds split p r).get? = some ((sums s).map .f32) := by
      cases p <;> simpa [initial, withBounds, Registers.get?_set] using hinitial
    have hfirst : (withBounds split p r).get? (.walk p .first) = some (.ofNat 0) := by
      simp [withBounds, Registers.get?_set]
    show (.walk p .first :: initial p).mapM (withBounds split p r).get? = _
    rw [List.mapM_cons, hfirst, hinitial']
    rfl
  · have h := outer_performs hcode hsums hbody hinner houter
      ((get?_withBounds (by simp) (by simp)).trans hgroup) (by simp [withBounds, Registers.get?_set])
      (by simp [withBounds]) (Nat.zero_add _) (.refl _ _) (s := s) hnext
    rwa [Nat.zero_mul] at h

end

end Normalization

end AxisNorm
