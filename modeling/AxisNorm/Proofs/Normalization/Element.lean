import AxisNorm.Float.Narrow
import AxisNorm.Proofs.Normalization.Walk

/-!
# What the code does with an element

The bodies of the three walks do the steps that the program has for them, whatever the element.

* `meanBody_performs`, `varianceBody_performs`: one more term of a sum.
* `roundToHalf_assigns`: the emitted rounding is `Single.narrow`.
* `storeResult_performs`: a result is stored in the destination's type.
* `normalizeBody_performs`: an element is normalized and stored.
-/

namespace AxisNorm.Normalization

open Code

section

variable {code : Routine Label Value} {steps : Nat} {r : Registers Value}
  {rest : List (Instruction Value)} {e : Terminator Label Value}

/-- Everything but the registers of one access has stayed. -/
abbrev AgreeBeside (a : Access) (r r' : Registers Value) : Prop :=
  Registers.AgreeOn (fun v => v ≠ .bytes a ∧ v ≠ .address a ∧ v ≠ .loaded a) r r'

theorem AgreeBeside.below {a : Access} {n : Nat} {r r' : Registers Value} (h : AgreeBeside a r r')
    (ha : n ≤ (Value.loaded a).level) : AgreeBelow n r r' := by
  have hlevels : (Value.bytes a).level = (Value.loaded a).level ∧
      (Value.address a).level = (Value.loaded a).level := by
    cases a <;> exact ⟨rfl, rfl⟩
  refine Registers.AgreeOn.mono h fun v hv => ⟨?_, ?_, ?_⟩ <;> rintro rfl <;> omega

theorem loadSingle_performs {a : Access} {base index : Value} {x : UInt64} {n : Nat}
    {next : Single → Task Memory Exit} (hbase : r.get? base = some (.i64 x))
    (hindex : r.get? index = some (.ofNat n)) (hne : base ≠ .bytes a)
    (h : ∀ y r', AgreeBeside a r r' → r'.get? (.loaded a) = some (.f32 y) →
      code.Performs steps (.running ⟨r', rest, e⟩) (next y)) :
    code.Performs (steps + 3) (.running ⟨r, loadSingle a base index ++ rest, e⟩)
      (loadNumber x n next) := by
  refine .set (evaluate?_shlImm (n := 2) hindex rfl (by omega)) ?_
  have hbase' : (r.set (.bytes a) (.ofNat (2 ^ 2 * n))).get? base = some (.i64 x) :=
    (Registers.get?_set_of_ne (Ne.symm hne) _ _).trans hbase
  refine .set (w := .i64 (elementAddress x 4 n)) (evaluate?_integer (Registers.typed?_eq hbase' rfl)
    (Registers.typed?_eq (Registers.get?_set_self _ _ _) rfl)) ?_
  refine .load ?_ fun y => ⟨.f32 ⟨UInt32.ofNat y⟩, rfl, h _ _ ?_ (Registers.get?_set_self _ _ _)⟩
  · simp [Registers.address?]
  · refine .set (.set (.set (.refl _ _) ?_ _) ?_ _) ?_ _ <;> simp

theorem loadElement_performs {p : Pass} {x : UInt64} {n : Nat} {next : Single → Task Memory Exit}
    (hsrc : r.get? (.pointer .src) = some (.i64 x))
    (helement : r.get? (.walk p .element) = some (.ofNat n))
    (h : ∀ y r', AgreeBelow 5 r r' → r'.get? (.loaded (.source p)) = some (.f32 y) →
      code.Performs steps (.running ⟨r', rest, e⟩) (next y)) :
    code.Performs (steps + 3) (.running ⟨r, loadElement p ++ rest, e⟩) (loadNumber x n next) :=
  loadSingle_performs hsrc helement (by simp) fun y r' ha => h y r' (ha.below (Nat.le_refl 5))

theorem loadDeviation_performs {p : Pass} {x : UInt64} {n : Nat} {mean : Single}
    {next : Single → Task Memory Exit} (hsrc : r.get? (.pointer .src) = some (.i64 x))
    (helement : r.get? (.walk p .element) = some (.ofNat n))
    (hmean : r.get? .mean = some (.f32 mean))
    (h : ∀ y r', AgreeBelow 5 r r' → r'.get? (.walk p .deviation) = some (.f32 (y - mean)) →
      code.Performs steps (.running ⟨r', rest, e⟩) (next y)) :
    code.Performs (steps + 4) (.running ⟨r, loadDeviation p ++ rest, e⟩) (loadNumber x n next) := by
  rw [loadDeviation, List.append_assoc]
  refine loadElement_performs hsrc helement fun y r' ha hloaded => ?_
  refine .set (evaluate?_float hloaded (ha.get? hmean (by simp))) ?_
  exact h y _ (ha.set _ (by simp)) (Registers.get?_set_self _ _ _)

/-- The registers once the address of an element of `2 ^ s` bytes is known. -/
def withAddress (r : Registers Value) (x : UInt64) (s n : Nat) : Registers Value :=
  (r.set .dstBytes (.ofNat (2 ^ s * n))).set .dstAddress (.i64 (elementAddress x (2 ^ s) n))

theorem withAddress_agree (r : Registers Value) (x : UInt64) (s n : Nat) :
    Registers.AgreeOn (fun v => v ≠ .dstBytes ∧ v ≠ .dstAddress) r (withAddress r x s n) := by
  refine .set (.set (.refl _ _) ?_ _) ?_ _ <;> simp

theorem dstAddress_assigns {x : UInt64} {n s : Nat} {shift : Int} (hshift : UInt64.ofInt shift = UInt64.ofNat s)
    (hs : s < 64) (hdst : r.get? (.pointer .dst) = some (.i64 x))
    (helement : r.get? (.walk .normalize .element) = some (.ofNat n)) :
    r.Assigns (dstAddress shift) (withAddress r x s n) := by
  have hdst' : (r.set .dstBytes (.ofNat (2 ^ s * n))).get? (.pointer .dst) = some (.i64 x) :=
    (Registers.get?_set_of_ne (by simp) _ _).trans hdst
  refine .set (evaluate?_shlImm helement hshift hs) (.set ?_ (.nil _))
  exact evaluate?_integer (Registers.typed?_eq hdst' rfl)
    (Registers.typed?_eq (Registers.get?_set_self _ _ _) rfl)

/-- The registers once `y` is rounded: the last one holds `Single.narrow`. -/
def withRounding (r : Registers Value) (y : Single) : Registers Value :=
  let odd := (y.bits >>> 16) &&& 1
  let sum := y.bits + (odd + 0x7fff)
  (((((((r.set .roundBits (.i32 y.bits)).set .roundUpper (.i32 (y.bits >>> 16))).set .roundOdd (.i32 odd)).set
    .roundBias (.i32 (odd + 0x7fff))).set .roundSum (.i32 sum)).set .roundSumUpper (.i32 (sum >>> 16))).set
    .rounded (.i16 y.narrow))

theorem withRounding_agree (r : Registers Value) (y : Single) : AgreeBelow 5 r (withRounding r y) := by
  refine .set (.set (.set (.set (.set (.set (.set (.refl _ _) _ ?_) _ ?_) _ ?_) _ ?_) _ ?_) _ ?_) _ ?_
    <;> simp

theorem roundToHalf_assigns {v : Value} {y : Single} (hy : r.get? v = some (.f32 y)) :
    r.Assigns (roundToHalf v) (withRounding r y) := by
  refine .set (w := .i32 y.bits) (by simp [Operation.evaluate?, Registers.single?, hy]) ?_
  refine .set (w := .i32 (y.bits >>> 16))
    (evaluate?_i32Imm (x := y.bits) (Registers.get?_set_self _ _ _)) ?_
  refine .set (w := .i32 ((y.bits >>> 16) &&& 1))
    (evaluate?_i32Imm (x := y.bits >>> 16) (Registers.get?_set_self _ _ _)) ?_
  refine .set (w := .i32 (((y.bits >>> 16) &&& 1) + 0x7fff))
    (evaluate?_i32Imm (x := (y.bits >>> 16) &&& 1) (Registers.get?_set_self _ _ _)) ?_
  refine .set (w := .i32 (y.bits + (((y.bits >>> 16) &&& 1) + 0x7fff)))
    ((evaluate?_integer (u := .i32 y.bits) (w := .i32 (((y.bits >>> 16) &&& 1) + 0x7fff))
      (by simp [Registers.typed?, Registers.get?_set, Word.type])
      (by simp [Registers.typed?, Word.type])).trans rfl) ?_
  refine .set (w := .i32 ((y.bits + (((y.bits >>> 16) &&& 1) + 0x7fff)) >>> 16))
    (evaluate?_i32Imm (x := y.bits + (((y.bits >>> 16) &&& 1) + 0x7fff))
      (Registers.get?_set_self _ _ _)) ?_
  exact .set (w := .i16 y.narrow) (by simp [Operation.evaluate?, Single.narrow]) (.nil _)

theorem storeResult_performs {storage : ValueType} {type : ElementType}
    (hstorage : storageType? type = some storage) {v : Value} {x : UInt64} {n : Nat} {y : Single}
    {t : Task Memory Exit} (hy : r.get? v = some (.f32 y)) (hv : v ≠ .dstBytes ∧ v ≠ .dstAddress)
    (hdst : r.get? (.pointer .dst) = some (.i64 x))
    (helement : r.get? (.walk .normalize .element) = some (.ofNat n))
    (h : ∀ r', AgreeBelow 5 r r' → code.Performs steps (.running ⟨r', rest, e⟩) t) :
    code.Performs (steps + 10) (.running ⟨r, storeResult storage v ++ rest, e⟩)
      (.store (elementAddress x type.bytes n) type.bytes (type.stored y) t) := by
  have hlevel (r₁ r₂ : Registers Value)
      (ha : Registers.AgreeOn (fun v => v ≠ .dstBytes ∧ v ≠ .dstAddress) r₁ r₂) : AgreeBelow 5 r₁ r₂ :=
    ha.mono fun u hu => by constructor <;> rintro rfl <;> simp at hu
  cases type <;> simp only [storageType?, Option.some.injEq, reduceCtorEq] at hstorage <;>
    subst hstorage
  case bfloat16 =>
    have ha₁ := withRounding_agree r y
    have ha₂ := withAddress_agree (withRounding r y) x 1 n
    refine .mono ?_ (by omega : steps + 1 + 2 + 7 ≤ steps + 10)
    rw [storeResult, if_neg (by decide), List.append_assoc, List.append_assoc]
    refine .assigns (roundToHalf_assigns hy) (.assigns (dstAddress_assigns rfl (by omega)
      (ha₁.get? hdst (by simp)) (ha₁.get? helement (by simp))) ?_)
    have hrounded := (ha₂ .rounded (by simp)).trans (Registers.get?_set_self _ _ _)
    refine .store (w := .i16 y.narrow) (Registers.typed?_eq hrounded rfl) ?_
      (h _ (ha₁.trans (hlevel _ _ ha₂)))
    simp [Registers.address?, withAddress, ElementType.bytes]
  case float32 =>
    have ha := withAddress_agree r x 2 n
    refine .mono ?_ (by omega : steps + 1 + 2 ≤ steps + 10)
    rw [storeResult, if_pos rfl, List.append_assoc]
    refine .assigns (dstAddress_assigns rfl (by omega) hdst helement) ?_
    refine .store (w := .f32 y) (Registers.typed?_eq ((ha v hv).trans hy) rfl) ?_ (h _ (hlevel _ _ ha))
    simp [Registers.address?, withAddress, ElementType.bytes]

end

section

variable {code : Routine Label Value} {p : Parameters} {pointer : Role → UInt64} {b : Nat}
  {r₀ : Registers Value} (hsrc : r₀.get? (.pointer .src) = some (.i64 (pointer .src)))

include hsrc

theorem meanBody_performs :
    BodyPerforms code p.split .mean meanBody (fun s => [s]) b (sumStep p pointer id b) r₀ := by
  intro k s r rest e steps next hr helement _ hsum hnext
  have hsum := (carries_singleton (by decide)).mp hsum
  refine .mono ?_ (by omega : steps + 1 + 3 ≤ steps + 23)
  rw [meanBody, List.append_assoc]
  refine loadElement_performs (hr.get? hsrc (by simp)) helement fun x r₁ ha hloaded => ?_
  refine .set (evaluate?_float (ha.get? hsum (by simp)) hloaded) ?_
  exact hnext _ _ (ha.set _ (by simp)) ((carries_singleton (by decide)).mpr (Registers.get?_set_self _ _ _))

theorem varianceBody_performs {mean : Single} (hmean : r₀.get? .mean = some (.f32 mean)) :
    BodyPerforms code p.split .variance varianceBody (fun s => [s]) b
      (sumStep p pointer (fun x => (x - mean) * (x - mean)) b) r₀ := by
  intro k s r rest e steps next hr helement _ hsum hnext
  have hsum := (carries_singleton (by decide)).mp hsum
  refine .mono ?_ (by omega : steps + 1 + 1 + 4 ≤ steps + 23)
  rw [varianceBody, List.append_assoc]
  refine loadDeviation_performs (hr.get? hsrc (by simp)) helement
    (hr.get? hmean (by simp)) fun x r₁ ha hdeviation => ?_
  refine .set (evaluate?_float hdeviation hdeviation) ?_
  refine .set (evaluate?_float (x := s) (y := (x - mean) * (x - mean)) ?_ ?_) ?_
  · rw [Registers.get?_set_of_ne (by simp), ha.get? hsum (by simp)]
  · exact Registers.get?_set_self _ _ _
  · exact hnext _ _ ((ha.set _ (by simp)).set _ (by simp))
      ((carries_singleton (by decide)).mpr (Registers.get?_set_self _ _ _))

end

theorem mem_used_src (affine : Bool) : Role.src ∈ Role.used affine := by cases affine <;> decide

theorem mem_used_dst (affine : Bool) : Role.dst ∈ Role.used affine := by cases affine <;> decide

section

variable {code : Routine Label Value} {p : Parameters} {pointer : Role → UInt64}

/-- The pointers of a call are in their registers. -/
def HoldsPointers (p : Parameters) (pointer : Role → UInt64) (r : Registers Value) : Prop :=
  ∀ role ∈ Role.used p.affine, r.get? (.pointer role) = some (.i64 (pointer role))

theorem HoldsPointers.of_agree {n : Nat} {r r' : Registers Value} (h : HoldsPointers p pointer r)
    (ha : AgreeBelow (n + 1) r r') : HoldsPointers p pointer r' :=
  fun role hrole => ha.get? (h role hrole) (Nat.succ_pos n)

theorem affineStep_performs {r : Registers Value} {rest : List (Instruction Value)}
    {e : Terminator Label Value} {steps k : Nat} {y : Single} {next : Single → Task Memory Exit}
    (haffine : p.affine = true) (hpointers : HoldsPointers p pointer r)
    (hposition : r.get? (.walk .normalize .position) = some (.ofNat k))
    (hy : r.get? .normal = some (.f32 y))
    (h : ∀ f g r', AgreeBelow 5 r r' → r'.get? .shifted = some (.f32 (y * f + g)) →
      code.Performs steps (.running ⟨r', rest, e⟩) (next (y * f + g))) :
    code.Performs (steps + 8) (.running ⟨r, affineStep ++ rest, e⟩)
      (scaleAndShift p pointer k y next) := by
  have hpointer : ∀ role, r.get? (.pointer role) = some (.i64 (pointer role)) := fun role =>
    hpointers role (by rw [haffine]; cases role <;> decide)
  rw [scaleAndShift, if_pos haffine, affineStep, List.append_assoc, List.append_assoc]
  refine loadSingle_performs (hpointer .alpha) hposition (by simp) fun f r₁ ha₁ hf => ?_
  refine loadSingle_performs ((ha₁ _ (by simp)).trans (hpointer .beta))
    ((ha₁ _ (by simp)).trans hposition) (by simp) fun g r₂ ha₂ hg => ?_
  have hy₂ := (ha₂ .normal (by simp)).trans ((ha₁ .normal (by simp)).trans hy)
  have hf₂ := (ha₂ (.loaded .alpha) (by simp)).trans hf
  refine .set (evaluate?_float hy₂ hf₂) ?_
  refine .set (w := .f32 (y * f + g)) (evaluate?_float (x := y * f) (y := g)
    (Registers.get?_set_self _ _ _) (by simp [Registers.get?_set, hg])) ?_
  refine h f g _ ?_ (Registers.get?_set_self _ _ _)
  have ha : AgreeBelow 5 r r₂ := (ha₁.below (Nat.le_refl 5)).trans (ha₂.below (Nat.le_refl 5))
  exact (ha.set _ (by simp)).set _ (by simp)

theorem normalizeBody_performs {storage : ValueType} (hstorage : storageType? p.dstType = some storage)
    {b : Nat} {mean inverse : Single} {r₀ : Registers Value} (hpointers : HoldsPointers p pointer r₀)
    (hmean : r₀.get? .mean = some (.f32 mean)) (hinverse : r₀.get? .inverse = some (.f32 inverse)) :
    BodyPerforms code p.split .normalize (normalizeBody p.affine storage) (fun _ => []) b
      (storeStep p pointer mean inverse b) r₀ := by
  intro k s r rest e steps next hr helement hposition _ hnext
  refine .mono ?_ (by omega : steps + 10 + 8 + 1 + 4 ≤ steps + 23)
  rw [normalizeBody, List.append_assoc, List.append_assoc, List.append_assoc]
  have hsrc := hr.get? (hpointers .src (mem_used_src _)) (by simp)
  have hdst := hr.get? (hpointers .dst (mem_used_dst _)) (by simp)
  refine loadDeviation_performs hsrc helement (hr.get? hmean (by simp))
    fun x r₁ ha₁ hdeviation => ?_
  refine .set (evaluate?_float hdeviation
    (ha₁.get? (hr.get? hinverse (by simp)) (by simp))) ?_
  generalize hr₂ : r₁.set .normal _ = r₂
  have hnormal : r₂.get? .normal = some (.f32 ((x - mean) * inverse)) := by
    rw [← hr₂]
    exact Registers.get?_set_self _ _ _
  have ha₂ : AgreeBelow 5 r r₂ := by
    rw [← hr₂]
    exact ha₁.set _ (by simp)
  -- What follows is the same for the normalized number and the scaled one.
  have hstore (v : Value) (y : Single) (r₃ : Registers Value) (ha : AgreeBelow 5 r₂ r₃)
      (hv : v ≠ .dstBytes ∧ v ≠ .dstAddress) (hy : r₃.get? v = some (.f32 y)) :
      code.Performs (steps + 10) (.running ⟨r₃, storeResult storage v ++ rest, e⟩)
        (.store (elementAddress (pointer .dst) p.dstType.bytes (p.split.position b k)) p.dstType.bytes
          (p.dstType.stored y) (next ())) := by
    have ha₃ : AgreeBelow 5 r r₃ := ha₂.trans ha
    exact storeResult_performs hstorage hy hv (ha₃.get? hdst (by simp))
      (ha₃.get? helement (by simp)) fun r₄ ha₄ =>
        hnext r₄ () (ha₃.trans ha₄) (by simp [Carries, carried])
  by_cases haffine : p.affine = true
  · simp only [haffine, if_true]
    exact affineStep_performs haffine ((hpointers.of_agree hr).of_agree ha₂)
      (ha₂.get? hposition (by simp)) hnormal
      fun f g r₃ ha hy => hstore _ _ r₃ ha (by simp) hy
  · rw [scaleAndShift, if_neg haffine]
    simp only [haffine, if_false, Bool.false_eq_true, List.nil_append]
    exact .mono (hstore _ _ r₂ (.refl _ _) (by simp) hnormal) (by omega)

end

end AxisNorm.Normalization
