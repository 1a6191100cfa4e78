import AxisNorm.Proofs.Code.Reach
import AxisNorm.Proofs.Normalization.Call

/-!
# The code stays inside its buffers

* `InBounds`: what an instruction may do. Sizes are formed without wrapping around, and what is loaded or
  stored is an element of its buffer.
* `Assertion`: what each block finds in the registers.
* `walk_checks`: **the blocks of a walk are in bounds, around a body that is.** The bodies are
  `meanBody_checks`, `varianceBody_checks` and `normalizeBody_checks`.
-/

namespace AxisNorm.Normalization

open Code

/-- The register with the address of the buffer of an access. -/
@[simp] def Access.base : Access → Value
  | .constant c => .base c
  | .source _ => .pointer .src
  | .alpha => .pointer .alpha
  | .beta => .pointer .beta

/-- The address of the buffer of an access: of a constant buffer as the parameters have it, of another
one as it was loaded from the runtime data. -/
def Access.base? (p : Parameters) (r : Registers Value) : Access → Option Word
  | .constant c => some (.ofNat (p.constants.of c))
  | a => r.get? a.base

/-- The number of elements of the buffer of an access. -/
def Access.count (s : Split) : Access → Nat
  | .constant _ => s.batch
  | .source _ => s.outer * s.batch * s.inner
  | .alpha | .beta => s.outer * s.inner

/-- A byte offset is added to the address of a buffer, which lies anywhere. -/
inductive FormsAddress : Value → Operation Value → Prop
  | access (a : Access) : FormsAddress (.address a) (.integer .add .i64 a.base (.bytes a))
  | dst : FormsAddress .dstAddress (.integer .add .i64 (.pointer .dst) .dstBytes)

/-- What an instruction may do: form a size without wrapping around, add a byte offset to the address of
a buffer, load a pointer from its slot or an element from its buffer, and store an element of the
destination. -/
def InBounds (p : Parameters) (data : UInt64) (r : Registers Value) : Instruction Value → Prop
  | .set v op => op.Exact r ∨ FormsAddress v op
  | .load (.pointer role) type address offset =>
    type = .i64 ∧ role ∈ Role.used p.affine ∧
      r.address? address offset = some (data + UInt64.ofNat (8 * role.index))
  | .load (.loaded a) type address offset =>
    type = .f32 ∧ ∃ base e, a.base? p r = some (.i64 base) ∧ e < a.count p.split ∧ 4 * e < 2 ^ 63 ∧
      r.address? address offset = some (elementAddress base 4 e)
  | .load .. => False
  | .store type _ address offset =>
    type.bytes = p.dstType.bytes ∧ ∃ base e, r.get? (.pointer .dst) = some (.i64 base) ∧
      e < p.split.outer * p.split.batch * p.split.inner ∧ p.dstType.bytes * e < 2 ^ 63 ∧
      r.address? address offset = some (elementAddress base p.dstType.bytes e)

theorem inBounds_of_exact {p : Parameters} {data : UInt64} {r : Registers Value} {v : Value}
    {op : Operation Value} (h : op.Exact r) : InBounds p data r (.set v op) := Or.inl h

/-! ## Assertions -/

section

variable (p : Parameters) (pointer : Role → UInt64) (stop : Nat)

/-- What the blocks of the loop over groups find. -/
structure AtGroup (b : Nat) (r : Registers Value) : Prop extends Ready p pointer stop r where
  group : r.get? .group = some (.ofNat b)

/-- What the blocks of the loop over rows find. -/
structure AtRow (q : Pass) (b o : Nat) (r : Registers Value) : Prop extends
    AtGroup p pointer stop b r where
  first : r.get? (.walk q .first) = some (.ofNat 0)
  outerStop : r.get? (.walk q .outerStop) = some (.ofNat p.split.outer)
  outer : r.get? (.walk q .outer) = some (.ofNat o)

/-- What the blocks of the loop over the elements of a row find. -/
structure AtElement (q : Pass) (b o i : Nat) (r : Registers Value) : Prop extends
    AtRow p pointer stop q b o r where
  row : r.get? (.walk q .row) = some (.ofNat ((o * p.split.batch + b) * p.split.inner))
  positionRow : r.get? (.walk q .positionRow) = some (.ofNat (o * p.split.inner))
  innerStop : r.get? (.walk q .innerStop) = some (.ofNat p.split.inner)
  inner : r.get? (.walk q .inner) = some (.ofNat i)

/-- What a block finds in the registers when a call has the slice from `start` to `stop`. -/
def Assertion (data : UInt64) (start stop : Nat) : Label → Registers Value → Prop
  | .entry, r => r.get? .data = some (.i64 data) ∧ r.get? .start = some (.ofNat start) ∧
      r.get? .length = some (.ofNat (stop - start))
  | .pointers, r => r.get? .data = some (.i64 data) ∧ r.get? .start = some (.ofNat start) ∧
      r.get? .stop = some (.ofNat stop)
  | .setup, r => (∃ pointer, HoldsPointers p pointer r) ∧ r.get? .start = some (.ofNat start) ∧
      r.get? .stop = some (.ofNat stop)
  | .groupHeader, r => ∃ pointer b, b ≤ stop ∧ AtGroup p pointer stop b r
  | .groupBody, r | .centre, r | .spread, r | .groupLatch, r =>
    ∃ pointer b, b < stop ∧ AtGroup p pointer stop b r
  | .walk q .outerHeader, r => ∃ pointer b o, b < stop ∧ o ≤ p.split.outer ∧ AtRow p pointer stop q b o r
  | .walk q .outerBody, r | .walk q .outerLatch, r =>
    ∃ pointer b o, b < stop ∧ o < p.split.outer ∧ AtRow p pointer stop q b o r
  | .walk q .innerHeader, r => ∃ pointer b o i, b < stop ∧ o < p.split.outer ∧ i ≤ p.split.inner ∧
      AtElement p pointer stop q b o i r
  | .walk q .innerBody, r => ∃ pointer b o i, b < stop ∧ o < p.split.outer ∧ i < p.split.inner ∧
      AtElement p pointer stop q b o i r
  | .outOfBounds, _ | .nullPointer, _ | .done, _ => True

end

section

variable {p : Parameters} {pointer : Role → UInt64} {stop b o i n : Nat} {q : Pass}
  {r r' : Registers Value}

theorem AtGroup.of_agree (h : AtGroup p pointer stop b r) (ha : AgreeBelow (n + 2) r r') :
    AtGroup p pointer stop b r' where
  toReady := h.toReady.of_agree ha
  group := ha.get? h.group (by simp)

theorem AtRow.of_agree (h : AtRow p pointer stop q b o r) (ha : AgreeBelow (n + 3) r r')
    (houter : r'.get? (.walk q .outer) = r.get? (.walk q .outer)) : AtRow p pointer stop q b o r' where
  toAtGroup := h.toAtGroup.of_agree (n := n + 1) ha
  first := ha.get? h.first (by simp)
  outerStop := ha.get? h.outerStop (by simp)
  outer := houter.trans h.outer

theorem AtElement.of_agree (h : AtElement p pointer stop q b o i r) (ha : AgreeBelow (n + 4) r r')
    (hinner : r'.get? (.walk q .inner) = r.get? (.walk q .inner)) :
    AtElement p pointer stop q b o i r' where
  toAtRow := h.toAtRow.of_agree (n := n + 1) ha (ha _ (by simp))
  row := ha.get? h.row (by simp)
  positionRow := ha.get? h.positionRow (by simp)
  innerStop := ha.get? h.innerStop (by simp)
  inner := hinner.trans h.inner

theorem Access.base?_of_agree {a : Access} (ha : AgreeBelow (n + 1) r r') :
    a.base? p r' = a.base? p r := by
  cases a
  case constant => rfl
  all_goals exact ha _ (by simp)

end

/-! ## Instructions -/

theorem immediate_eq {n : Nat} (h : n < 2 ^ 63) : immediate n = n := by
  have hlimit : (sizeLimit : Nat) = 2 ^ 64 := rfl
  rw [immediate, Int.bmod_eq_of_le] <;> omega

section

variable {code : Routine Label Value} {p : Parameters} {data : UInt64} {start stop n : Nat}
  {r : Registers Value} {rest : List (Instruction Value)} {e : Terminator Label Value}

/-- What is left of a block is in bounds, and so is what follows it. -/
abbrev ChecksBounds (code : Routine Label Value) (p : Parameters) (data : UInt64) (start stop : Nat) :
    Terminator Label Value → List (Instruction Value) → Registers Value → Prop :=
  code.Checks (fun _ => True) (InBounds p data) (Assertion p data start stop)

theorem size_checks {v : Value} {op : Operation Value} (h : op.Computes r n)
    (hrest : ChecksBounds code p data start stop e rest (r.set v (.ofNat n))) :
    ChecksBounds code p data start stop e (.set v op :: rest) r :=
  .set_of_eq (inBounds_of_exact h.exact) h.evaluate? hrest

theorem loadSingle_checks {a : Access} {index : Value} {x : UInt64}
    (hbase : r.get? a.base = some (.i64 x)) (hindex : r.get? index = some (.ofNat n))
    (ha : a.base? p r = some (.i64 x)) (hn : n < a.count p.split) (hbytes : 4 * n < 2 ^ 63)
    (h : ∀ r', AgreeBeside a r r' → ChecksBounds code p data start stop e rest r') :
    ChecksBounds code p data start stop e (loadSingle a a.base index ++ rest) r := by
  refine size_checks (computes_shlImm (y := 2) rfl hindex (by omega) (by omega) (by omega)) ?_
  have hbase' : (r.set (.bytes a) (.ofNat (2 ^ 2 * n))).get? a.base = some (.i64 x) :=
    (Registers.get?_set_of_ne (by cases a <;> simp) _ _).trans hbase
  refine .set_of_eq (w := .i64 (elementAddress x 4 n)) (.inr (.access a)) (evaluate?_integer
    (Registers.typed?_eq hbase' rfl) (Registers.typed?_eq (Registers.get?_set_self _ _ _) rfl)) ?_
  generalize hr₁ : (r.set _ _).set _ _ = r₁
  have ha₁ : AgreeBeside a r r₁ := by
    rw [← hr₁]
    refine .set (.set (.refl _ _) ?_ _) ?_ _ <;> simp
  have haddress : r₁.address? (.address a) 0 = some (elementAddress x 4 n) := by
    simp [← hr₁, Registers.address?]
  have hbase₁ : a.base? p r₁ = some (.i64 x) := by
    rw [← ha]
    exact Access.base?_of_agree (n := 0) (ha₁.below (by cases a <;> simp))
  refine .load ⟨rfl, x, n, hbase₁, hn, hbytes, haddress⟩ fun _ _ _ w _ _ _ _ => h _ ?_
  exact ha₁.set (by simp) w

theorem enter_checks {ok : Memory → Prop} {fine : Registers Value → Instruction Value → Prop}
    {assertion : Label → Registers Value → Prop} {l : Label} {v u : Value} {others : List (Value × ValueType)}
    {us : List Value} {d : Nat} (hl : (code.block l).parameters = (v, .i64) :: others)
    (hothers : ∀ x ∈ others, x.1 ≠ v ∧ x.1.level = d) (hv : v.level = d)
    (hu : r.get? u = some (.ofNat n))
    (h : ∀ r', AgreeBelow d r r' → r'.get? v = some (.ofNat n) → assertion l r') :
    code.Checks ok fine assertion (.jump l (u :: us)) [] r := by
  refine .jump fun words r' hwords hr' => ?_
  obtain ⟨ws, rfl⟩ : ∃ ws, words = .ofNat n :: ws := by
    rw [List.mapM_cons, hu] at hwords
    cases hws : us.mapM r.get? with
    | none => rw [hws] at hwords; cases hwords
    | some ws => rw [hws] at hwords; exact ⟨ws, (Option.some.inj hwords).symm⟩
  rw [hl] at hr'
  refine h r' (fun x hx => Registers.bind?_agreeOn hr' x fun y hy hyx => ?_)
    (Registers.get?_of_bind?_cons (fun x hx => (hothers x hx).1) hr')
  have hlevel : y.1.level = d := by
    rcases List.mem_cons.mp hy with rfl | hy
    · exact hv
    · exact (hothers y hy).2
  rw [hyx] at hlevel
  omega

end

/-! ## Walks -/

section

variable {code : Routine Label Value} {p : Parameters} {data : UInt64} {start stop : Nat} {q : Pass}

/-- The body of a walk is in bounds wherever it stands, if it finds an element and its number. -/
def BodyInBounds (code : Routine Label Value) (p : Parameters) (data : UInt64) (start stop : Nat)
    (q : Pass) (body : List (Instruction Value)) : Prop :=
  ∀ (pointer : Role → UInt64) (x k : Nat) (r : Registers Value) (rest : List (Instruction Value))
    (e : Terminator Label Value),
    HoldsPointers p pointer r → r.get? (.walk q .element) = some (.ofNat x) →
    x < p.split.outer * p.split.batch * p.split.inner →
    r.get? (.walk q .position) = some (.ofNat k) → k < p.split.outer * p.split.inner →
    (∀ r', AgreeBelow 5 r r' → ChecksBounds code p data start stop e rest r') →
    ChecksBounds code p data start stop e (body ++ rest) r

theorem mul_add_lt {i m n o : Nat} (ho : o < m) (hi : i < n) : o * n + i < m * n := by
  have hle := Nat.mul_le_mul_right n (Nat.succ_le_of_lt ho)
  rw [Nat.succ_mul] at hle
  omega

theorem carried_level {place : SumPlace} {v : Value} {level : Nat} (hv : v ≠ .walk q (.sum place))
    (hlevel : (Value.walk q (.sum place)).level = level) :
    ∀ x ∈ (carried q place).map (·, ValueType.f32), x.1 ≠ v ∧ x.1.level = level := by
  intro x hx
  obtain ⟨u, hu, rfl⟩ := List.mem_map.mp hx
  rw [eq_of_mem_carried hu]
  exact ⟨hv.symm, hlevel⟩

theorem walkStart_checks {pointer : Role → UInt64} {b : Nat} {r : Registers Value}
    {body : List (Instruction Value)} {after : Label}
    (hcode : ∀ l, code.block (.walk q l) = walkBlock p.split q body after l)
    (hb : b < stop) (hr : AtGroup p pointer stop b r) :
    ChecksBounds code p data start stop (walkStart q) (walkBounds p.split q) r := by
  refine .set_of_eq (inBounds_of_exact trivial) (evaluate?_constant (x := 0) rfl) ?_
  refine .set_of_eq (inBounds_of_exact trivial) (evaluate?_constant (ofInt_immediate _)) ?_
  have ha := agreeBelow_withBounds p.split q r
  refine enter_checks (n := 0) (d := 3) (by rw [hcode]; rfl) (carried_level (by simp) rfl) rfl
    (by simp [Registers.get?_set]) fun r' ha' houter => ?_
  have hfirst : (withBounds p.split q r).get? (.walk q .first) = some (.ofNat 0) := by
    simp [withBounds, Registers.get?_set]
  have hstop : (withBounds p.split q r).get? (.walk q .outerStop) = some (.ofNat p.split.outer) := by
    simp [withBounds]
  exact ⟨pointer, b, 0, hb, Nat.zero_le _, (hr.of_agree ha).of_agree (n := 1) ha', ha'.get? hfirst (by simp),
    ha'.get? hstop (by simp), houter⟩

variable {r : Registers Value} {body : List (Instruction Value)} {after : Label} (h : p.Accepted)

include h

theorem outerHeader_checks
    (hafter : ∀ r pointer b, b < stop → AtGroup p pointer stop b r → Assertion p data start stop after r)
    (hr : Assertion p data start stop (.walk q .outerHeader) r) :
    ChecksBounds code p data start stop (walkBlock p.split q body after .outerHeader).terminator
      (walkBlock p.split q body after .outerHeader).body r := by
  obtain ⟨pointer, b, o, hb, ho, hr⟩ := hr
  have houter := h.outer_lt
  refine .set_of_eq (inBounds_of_exact trivial)
    (evaluate?_ult hr.outer hr.outerStop (by omega) (by omega)) ?_
  have ha (w : Word) : AgreeBelow 3 r (r.set (.walk q .moreOuter) w) := .set (.refl _ _) _ (by simp)
  refine .branch (Registers.get?_set_self _ _ _) ?_
  by_cases hlt : o < p.split.outer
  · rw [decide_eq_true hlt]
    exact ⟨pointer, b, o, hb, hlt, hr.of_agree (n := 0) (ha _) (Registers.get?_set_of_ne (by simp) _ _)⟩
  · rw [decide_eq_false hlt]
    exact hafter _ pointer b hb (hr.toAtGroup.of_agree (n := 1) (ha _))

theorem innerHeader_checks (hr : Assertion p data start stop (.walk q .innerHeader) r) :
    ChecksBounds code p data start stop (walkBlock p.split q body after .innerHeader).terminator
      (walkBlock p.split q body after .innerHeader).body r := by
  obtain ⟨pointer, b, o, i, hb, ho, hi, hr⟩ := hr
  have hinner := h.inner_lt
  refine .set_of_eq (inBounds_of_exact trivial)
    (evaluate?_ult hr.inner hr.innerStop (by omega) (by omega)) ?_
  have ha (w : Word) : AgreeBelow 4 r (r.set (.walk q .moreInner) w) := .set (.refl _ _) _ (by simp)
  refine .branch (Registers.get?_set_self _ _ _) ?_
  by_cases hlt : i < p.split.inner
  · rw [decide_eq_true hlt]
    exact ⟨pointer, b, o, i, hb, ho, hlt,
      hr.of_agree (n := 0) (ha _) (Registers.get?_set_of_ne (by simp) _ _)⟩
  · rw [decide_eq_false hlt]
    exact ⟨pointer, b, o, hb, ho, hr.toAtRow.of_agree (n := 1) (ha _) (ha _ _ (by simp))⟩

variable (hcode : ∀ l, code.block (.walk q l) = walkBlock p.split q body after l)

include hcode

theorem outerLatch_checks (hr : Assertion p data start stop (.walk q .outerLatch) r) :
    ChecksBounds code p data start stop (walkBlock p.split q body after .outerLatch).terminator
      (walkBlock p.split q body after .outerLatch).body r := by
  obtain ⟨pointer, b, o, hb, ho, hr⟩ := hr
  have houter := h.outer_lt
  refine size_checks (computes_addImm (y := 1) rfl hr.outer (by omega)) ?_
  generalize hr₁ : r.set _ _ = r₁
  have ha₁ : AgreeBelow 3 r r₁ := by
    rw [← hr₁]
    exact .set (.refl _ _) _ (by simp)
  refine enter_checks (n := o + 1) (d := 3) (by rw [hcode]; rfl) (carried_level (by simp) rfl) rfl
    (by simp [← hr₁]) fun r₂ ha₂ hcounter => ?_
  have ha := ha₁.trans ha₂
  exact ⟨pointer, b, o + 1, hb, ho, hr.toAtGroup.of_agree (n := 1) ha, ha.get? hr.first (by simp),
    ha.get? hr.outerStop (by simp), hcounter⟩

variable (hstop : stop ≤ p.split.batch)

include hstop

theorem outerBody_checks (hr : Assertion p data start stop (.walk q .outerBody) r) :
    ChecksBounds code p data start stop (walkBlock p.split q body after .outerBody).terminator
      (walkBlock p.split q body after .outerBody).body r := by
  obtain ⟨pointer, b, o, hb, ho, hr⟩ := hr
  have hcount := h.count_lt
  -- Every size is at most the index of the first element of the row.
  have hrow : o * p.split.batch + b < p.split.outer * p.split.batch := mul_add_lt ho (by omega)
  have hfirst : (o * p.split.batch + b) * p.split.inner + 0 <
      p.split.outer * p.split.batch * p.split.inner := mul_add_lt hrow h.inner
  have hrows : o * p.split.batch + b ≤ (o * p.split.batch + b) * p.split.inner :=
    Nat.le_mul_of_pos_right _ h.inner
  have hposition : o * p.split.inner ≤ (o * p.split.batch + b) * p.split.inner :=
    Nat.mul_le_mul_right _ (Nat.le_trans (Nat.le_mul_of_pos_right _ h.batch) (Nat.le_add_right _ _))
  have hinner := immediate_eq h.inner_lt
  have houter := h.outer_lt
  refine size_checks (computes_mulImm (immediate_eq h.batch_lt) hr.outer (by omega) (by omega)) ?_
  refine size_checks (computes_add (x := o * p.split.batch) (y := b) (by simp)
    (by simp [Registers.get?_set, hr.group]) (by omega)) ?_
  refine size_checks (computes_mulImm (x := o * p.split.batch + b) hinner (by simp) (by omega)
    (by omega)) ?_
  refine size_checks (computes_mulImm (x := o) hinner (by simp [Registers.get?_set, hr.outer]) (by omega)
    (by omega)) ?_
  refine .set_of_eq (inBounds_of_exact trivial) (evaluate?_constant (ofInt_immediate _)) ?_
  generalize hr₁ : ((((r.set _ _).set _ _).set _ _).set _ _).set _ _ = r₁
  have ha₁ : AgreeBelow 3 r r₁ := by
    rw [← hr₁]
    refine .set (.set (.set (.set (.set (.refl _ _) _ ?_) _ ?_) _ ?_) _ ?_) _ ?_ <;> simp
  refine enter_checks (n := 0) (d := 4) (by rw [hcode]; rfl) (carried_level (by simp) rfl) rfl
    (ha₁.get? hr.first (by simp)) fun r₂ ha₂ hcounter => ?_
  have ha : AgreeBelow 3 r r₂ := ha₁.trans (ha₂.weaken (by omega))
  have houter₂ : r₂.get? (.walk q .outer) = r.get? (.walk q .outer) := by
    rw [ha₂ _ (by simp), ← hr₁]
    simp [Registers.get?_set]
  refine ⟨pointer, b, o, 0, hb, ho, Nat.zero_le _, hr.of_agree (n := 0) ha houter₂, ?_, ?_, ?_, hcounter⟩
    <;> exact ha₂.get? (by simp [← hr₁, Registers.get?_set]) (by simp)

variable (hbody : BodyInBounds code p data start stop q body)

include hbody

theorem innerBody_checks (hr : Assertion p data start stop (.walk q .innerBody) r) :
    ChecksBounds code p data start stop (walkBlock p.split q body after .innerBody).terminator
      (walkBlock p.split q body after .innerBody).body r := by
  obtain ⟨pointer, b, o, i, hb, ho, hi, hr⟩ := hr
  have hcount := h.count_lt
  have helement : (o * p.split.batch + b) * p.split.inner + i <
      p.split.outer * p.split.batch * p.split.inner := mul_add_lt (mul_add_lt ho (by omega)) hi
  have hposition : o * p.split.inner + i < p.split.outer * p.split.inner := mul_add_lt ho hi
  have hgroup : p.split.outer * p.split.inner ≤ p.split.outer * p.split.batch * p.split.inner :=
    Nat.mul_le_mul_right _ (Nat.le_mul_of_pos_right _ h.batch)
  refine size_checks (computes_add hr.row hr.inner (by omega)) ?_
  refine size_checks (computes_add (x := o * p.split.inner) (y := i)
    (by simp [Registers.get?_set, hr.positionRow]) (by simp [Registers.get?_set, hr.inner]) (by omega)) ?_
  generalize hr₁ : (r.set _ _).set _ _ = r₁
  have ha₁ : AgreeBelow 4 r r₁ := by
    rw [← hr₁]
    refine .set (.set (.refl _ _) _ ?_) _ ?_ <;> simp
  have hin₁ : AtElement p pointer stop q b o i r₁ :=
    hr.of_agree (n := 0) ha₁ (by rw [← hr₁]; simp [Registers.get?_set])
  refine hbody pointer _ _ r₁ _ _ hin₁.pointers (by simp [← hr₁, Registers.get?_set]) helement
    (by simp [← hr₁]) hposition fun r₂ ha₂ => ?_
  have hin₂ : AtElement p pointer stop q b o i r₂ := hin₁.of_agree (n := 1) ha₂ (ha₂ _ (by simp))
  refine size_checks (computes_addImm (y := 1) rfl hin₂.inner (by omega)) ?_
  generalize hr₃ : r₂.set _ _ = r₃
  have ha₃ : AgreeBelow 4 r₂ r₃ := by
    rw [← hr₃]
    exact .set (.refl _ _) _ (by simp)
  refine enter_checks (n := i + 1) (d := 4) (by rw [hcode]; rfl) (carried_level (by simp) rfl) rfl
    (by simp [← hr₃]) fun r₄ ha₄ hcounter => ?_
  have ha := ha₃.trans ha₄
  have hrow₄ := hin₂.toAtRow.of_agree (n := 1) ha (ha _ (by simp))
  exact ⟨pointer, b, o, i + 1, hb, ho, hi, hrow₄, ha.get? hin₂.row (by simp),
    ha.get? hin₂.positionRow (by simp), ha.get? hin₂.innerStop (by simp), hcounter⟩

/-- **The blocks of a walk are in bounds.** -/
theorem walk_checks
    (hafter : ∀ r pointer b, b < stop → AtGroup p pointer stop b r → Assertion p data start stop after r)
    (l : WalkLabel) (r : Registers Value) (hr : Assertion p data start stop (.walk q l) r) :
    ChecksBounds code p data start stop (walkBlock p.split q body after l).terminator
      (walkBlock p.split q body after l).body r := by
  cases l with
  | outerHeader => exact outerHeader_checks h hafter hr
  | outerBody => exact outerBody_checks h hcode hstop hr
  | innerHeader => exact innerHeader_checks h hr
  | innerBody => exact innerBody_checks h hcode hstop hbody hr
  | outerLatch => exact outerLatch_checks h hcode hr

end

/-! ## Bodies of walks -/

section

variable {code : Routine Label Value} {p : Parameters} {data : UInt64} {start stop : Nat}
  {r : Registers Value} {rest : List (Instruction Value)} {e : Terminator Label Value}

theorem float_checks {v a b : Value} {op : FloatOp}
    (h : ∀ w, ChecksBounds code p data start stop e rest (r.set v w)) :
    ChecksBounds code p data start stop e (.set v (.float op a b) :: rest) r :=
  .set (inBounds_of_exact trivial) fun w _ => h w

theorem loadElement_checks (h : p.Accepted) {q : Pass} {pointer : Role → UInt64} {x : Nat}
    (hpointers : HoldsPointers p pointer r) (helement : r.get? (.walk q .element) = some (.ofNat x))
    (hx : x < p.split.outer * p.split.batch * p.split.inner)
    (hrest : ∀ r', AgreeBelow 5 r r' → ChecksBounds code p data start stop e rest r') :
    ChecksBounds code p data start stop e (loadElement q ++ rest) r := by
  have hcount := h.count_lt
  have hsrc := hpointers .src (mem_used_src _)
  exact loadSingle_checks (a := .source q) hsrc helement hsrc hx (by omega)
    fun r' ha => hrest r' (ha.below (Nat.le_refl 5))

theorem loadDeviation_checks (h : p.Accepted) {q : Pass} {pointer : Role → UInt64} {x : Nat}
    (hpointers : HoldsPointers p pointer r) (helement : r.get? (.walk q .element) = some (.ofNat x))
    (hx : x < p.split.outer * p.split.batch * p.split.inner)
    (hrest : ∀ r', AgreeBelow 5 r r' → ChecksBounds code p data start stop e rest r') :
    ChecksBounds code p data start stop e (loadDeviation q ++ rest) r := by
  rw [loadDeviation, List.append_assoc]
  refine loadElement_checks h hpointers helement hx fun r₁ ha => ?_
  exact float_checks fun w => hrest _ (ha.set _ (by simp))

theorem meanBody_checks (h : p.Accepted) : BodyInBounds code p data start stop .mean meanBody := by
  intro pointer x k r rest e hpointers helement hx _ _ hrest
  rw [meanBody, List.append_assoc]
  refine loadElement_checks h hpointers helement hx fun r₁ ha => ?_
  exact float_checks fun w => hrest _ (ha.set _ (by simp))

theorem varianceBody_checks (h : p.Accepted) :
    BodyInBounds code p data start stop .variance varianceBody := by
  intro pointer x k r rest e hpointers helement hx _ _ hrest
  rw [varianceBody, List.append_assoc]
  refine loadDeviation_checks h hpointers helement hx fun r₁ ha => ?_
  refine float_checks fun w => float_checks fun w' => hrest _ ?_
  exact (ha.set _ (by simp)).set _ (by simp)

theorem affineStep_checks (h : p.Accepted) (haffine : p.affine = true) {pointer : Role → UInt64} {k : Nat}
    (hpointers : HoldsPointers p pointer r)
    (hposition : r.get? (.walk .normalize .position) = some (.ofNat k))
    (hk : k < p.split.outer * p.split.inner)
    (hrest : ∀ r', AgreeBelow 5 r r' → ChecksBounds code p data start stop e rest r') :
    ChecksBounds code p data start stop e (affineStep ++ rest) r := by
  have hcount := h.count_lt
  have hgroup : p.split.outer * p.split.inner ≤ p.split.outer * p.split.batch * p.split.inner :=
    Nat.mul_le_mul_right _ (Nat.le_mul_of_pos_right _ h.batch)
  have hpointer (role : Role) : r.get? (.pointer role) = some (.i64 (pointer role)) :=
    hpointers role (by rw [haffine]; cases role <;> decide)
  rw [affineStep, List.append_assoc, List.append_assoc]
  refine loadSingle_checks (a := .alpha) (hpointer .alpha) hposition (hpointer .alpha) hk (by omega)
    fun r₁ ha₁ => ?_
  have hbeta := (ha₁ (.pointer .beta) (by simp)).trans (hpointer .beta)
  refine loadSingle_checks (a := .beta) hbeta ((ha₁ _ (by simp)).trans hposition) hbeta hk (by omega)
    fun r₂ ha₂ => ?_
  have ha : AgreeBelow 5 r r₂ := (ha₁.below (Nat.le_refl 5)).trans (ha₂.below (Nat.le_refl 5))
  refine float_checks fun w => float_checks fun w' => hrest _ ?_
  exact (ha.set _ (by simp)).set _ (by simp)

theorem dstAddress_checks {base : UInt64} {x s : Nat} {shift : Int} (hshift : shift = (s : Int))
    (hs : s < 64) (hx : 2 ^ s * x < 2 ^ 63) (hdst : r.get? (.pointer .dst) = some (.i64 base))
    (helement : r.get? (.walk .normalize .element) = some (.ofNat x))
    (hrest : ∀ r', AgreeBelow 5 r r' → r'.get? .dstAddress = some (.i64 (elementAddress base (2 ^ s) x)) →
      ChecksBounds code p data start stop e rest r') :
    ChecksBounds code p data start stop e (dstAddress shift ++ rest) r := by
  have hle : x ≤ 2 ^ s * x := Nat.le_mul_of_pos_left _ (Nat.pow_pos (by omega))
  refine size_checks (computes_shlImm hshift helement (by omega) hs hx) ?_
  have hdst' : (r.set .dstBytes (.ofNat (2 ^ s * x))).get? (.pointer .dst) = some (.i64 base) :=
    (Registers.get?_set_of_ne (by simp) _ _).trans hdst
  refine .set_of_eq (w := .i64 (elementAddress base (2 ^ s) x)) (.inr .dst)
    (evaluate?_integer (Registers.typed?_eq hdst' rfl)
      (Registers.typed?_eq (Registers.get?_set_self _ _ _) rfl))
    (hrest _ ?_ (Registers.get?_set_self _ _ _))
  exact .set (.set (.refl _ _) _ (by simp)) _ (by simp)

theorem roundToHalf_checks {y : Value}
    (hrest : ∀ r', AgreeBelow 5 r r' → ChecksBounds code p data start stop e rest r') :
    ChecksBounds code p data start stop e (roundToHalf y ++ rest) r := by
  have hset {v : Value} {op : Operation Value} {rest : List (Instruction Value)} {r : Registers Value}
      (hop : op.Exact r) (h : ∀ w, ChecksBounds code p data start stop e rest (r.set v w)) :
      ChecksBounds code p data start stop e (.set v op :: rest) r :=
    .set (inBounds_of_exact hop) fun w _ => h w
  refine hset trivial fun w₁ => hset trivial fun w₂ => hset trivial fun w₃ => hset trivial fun w₄ => ?_
  refine hset trivial fun w₅ => hset trivial fun w₆ => hset trivial fun w₇ => hrest _ ?_
  refine .set (.set (.set (.set (.set (.set (.set (.refl _ _) _ ?_) _ ?_) _ ?_) _ ?_) _ ?_) _ ?_) _ ?_
    <;> simp

theorem storeResult_checks (h : p.Accepted) {storage : ValueType}
    (hstorage : storageType? p.dstType = some storage) {pointer : Role → UInt64} {y : Value} {x : Nat}
    (hpointers : HoldsPointers p pointer r)
    (helement : r.get? (.walk .normalize .element) = some (.ofNat x))
    (hx : x < p.split.outer * p.split.batch * p.split.inner)
    (hrest : ∀ r', AgreeBelow 5 r r' → ChecksBounds code p data start stop e rest r') :
    ChecksBounds code p data start stop e (storeResult storage y ++ rest) r := by
  have hcount := h.count_lt
  have hdst := hpointers .dst (mem_used_dst _)
  -- The store of a word of `2 ^ s` bytes, after the address of the element.
  have hstore (s : Nat) (shift : Int) (hshift : shift = (s : Int)) (hs : s < 64) (hbytes : 2 ^ s ≤ 4)
      (type : ValueType) (v : Value) (htype : type.bytes = p.dstType.bytes)
      (hwidth : p.dstType.bytes = 2 ^ s) (r₁ : Registers Value) (ha₁ : AgreeBelow 5 r r₁) :
      ChecksBounds code p data start stop e
        (dstAddress shift ++ (.store type v .dstAddress 0 :: rest)) r₁ := by
    have hle : 2 ^ s * x ≤ 4 * x := Nat.mul_le_mul_right x hbytes
    refine dstAddress_checks hshift hs (by omega) (ha₁.get? hdst (by simp))
      (ha₁.get? helement (by simp)) fun r₂ ha₂ haddress => ?_
    have ha : AgreeBelow 5 r r₂ := ha₁.trans ha₂
    refine .store ⟨htype, pointer .dst, x, ha.get? hdst (by simp), hx, by rw [hwidth]; omega, ?_⟩
      (hrest _ ha)
    simp [Registers.address?, haddress, hwidth]
  cases htype : p.dstType <;> rw [htype] at hstorage hstore <;>
    simp only [storageType?, Option.some.injEq, reduceCtorEq] at hstorage <;> subst hstorage
  case bfloat16 =>
    rw [storeResult, if_neg (by decide), List.append_assoc, List.append_assoc]
    refine roundToHalf_checks fun r₁ ha₁ => ?_
    exact hstore 1 1 rfl (by omega) (by omega) .i16 .rounded rfl rfl r₁ ha₁
  case float32 =>
    rw [storeResult, if_pos rfl, List.append_assoc]
    exact hstore 2 2 rfl (by omega) (by omega) .f32 y rfl rfl r (.refl _ _)

theorem normalizeBody_checks (h : p.Accepted) {storage : ValueType}
    (hstorage : storageType? p.dstType = some storage) :
    BodyInBounds code p data start stop .normalize (normalizeBody p.affine storage) := by
  intro pointer x k r rest e hpointers helement hx hposition hk hrest
  rw [normalizeBody, List.append_assoc, List.append_assoc, List.append_assoc]
  refine loadDeviation_checks h hpointers helement hx fun r₁ ha₁ => ?_
  refine float_checks fun w => ?_
  generalize hr₂ : r₁.set .normal w = r₂
  have ha₂ : AgreeBelow 5 r r₂ := by
    rw [← hr₂]
    exact ha₁.set _ (by simp)
  -- What follows is the same for the normalized number and the scaled one.
  have hstore (v : Value) (r₃ : Registers Value) (ha : AgreeBelow 5 r₂ r₃) :
      ChecksBounds code p data start stop e (storeResult storage v ++ rest) r₃ := by
    have ha₃ : AgreeBelow 5 r r₃ := ha₂.trans ha
    exact storeResult_checks h hstorage (hpointers.of_agree ha₃) (ha₃.get? helement (by simp)) hx
      fun r₄ ha₄ => hrest r₄ (ha₃.trans ha₄)
  by_cases haffine : p.affine = true
  · simp only [haffine, if_true]
    exact affineStep_checks h haffine (hpointers.of_agree ha₂) (ha₂.get? hposition (by simp)) hk
      fun r₃ ha => hstore _ r₃ ha
  · simp only [haffine, if_false, Bool.false_eq_true, List.nil_append]
    exact hstore _ r₂ (.refl _ _)

end

end AxisNorm.Normalization
