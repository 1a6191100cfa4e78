import AxisNorm.Proofs.Normalization.Accepted
import AxisNorm.Proofs.Normalization.Element

/-!
# The code of a kernel does what its program says

* `group_performs`, `groups_performs`: one round of the loop over groups, and what remains of it.
* `entry_performs`, `pointers_performs`: the guards before the loop.
* `call_stutters`: **a call of the code takes the loads and stores of `program`, in its order, and
  ends within the bound on its steps.**
-/

namespace AxisNorm.Normalization

open Code

/-! ## The loop over groups -/

/-- The steps of one round of the loop over groups. -/
def groupSteps (p : Parameters) : Nat := 64 + 3 * p.split.walkSteps

section

variable {code : Routine Label Value} {p : Parameters} {pointer : Role → UInt64} {storage : ValueType}
  (hcode : code.block = block p storage)

include hcode

theorem answer_performs {steps : Nat} {l : Label} {s : Status} (hl : block p storage l = answer s)
    (hsteps : 2 ≤ steps) (r : Registers Value) :
    code.Performs steps (code.enter r l []) (.done (.returned (UInt32.ofNat s.code))) := by
  refine .mono ?_ (show 0 + 1 + 1 ≤ steps by omega)
  refine .enter_nil ((congrFun hcode l).trans hl) rfl ?_
  refine .set (w := .i32 (UInt32.ofNat s.code)) (by cases s <;> rfl) ?_
  exact .ret (Registers.get?_set_self _ _ _)

/-- What the loop over groups finds in the registers. -/
structure Ready (p : Parameters) (pointer : Role → UInt64) (stop : Nat) (r : Registers Value) :
    Prop where
  pointers : HoldsPointers p pointer r
  base : ∀ c, r.get? (.base c) = some (.ofNat (p.constants.of c))
  stop : r.get? .stop = some (.ofNat stop)

omit hcode in
theorem Ready.of_agree {stop n : Nat} {r r' : Registers Value} (h : Ready p pointer stop r)
    (ha : AgreeBelow (n + 1) r r') : Ready p pointer stop r' :=
  ⟨h.pointers.of_agree ha, fun c => ha.get? (h.base c) (Nat.succ_pos n),
    ha.get? h.stop (Nat.succ_pos n)⟩

/-- What the walks find in the registers as well. -/
structure InGroup (p : Parameters) (pointer : Role → UInt64) (stop b : Nat) (c : GroupConstants)
    (r : Registers Value) : Prop extends Ready p pointer stop r where
  group : r.get? .group = some (.ofNat b)
  reciprocal : r.get? (.loaded (.constant .reciprocal)) = some (.f32 c.reciprocal)
  epsilon : r.get? (.loaded (.constant .epsilon)) = some (.f32 c.epsilon)
  one : r.get? (.loaded (.constant .one)) = some (.f32 c.one)
  zero : r.get? .zero = some (.f32 .zero)

omit hcode in
theorem InGroup.of_agree {stop b n : Nat} {c : GroupConstants} {r r' : Registers Value}
    (h : InGroup p pointer stop b c r) (ha : AgreeBelow (n + 2) r r') :
    InGroup p pointer stop b c r' where
  toReady := h.toReady.of_agree ha
  group := ha.get? h.group (by simp)
  reciprocal := ha.get? h.reciprocal (by simp)
  epsilon := ha.get? h.epsilon (by simp)
  one := ha.get? h.one (by simp)
  zero := ha.get? h.zero (by simp)

section

variable (hinner : p.split.inner < 2 ^ 64) (houter : p.split.outer < 2 ^ 64) {stop b steps : Nat}
  {c : GroupConstants} {r : Registers Value} {next : Task Memory Exit}

include hinner houter

theorem normalize_performs (hstorage : storageType? p.dstType = some storage)
    (hr : InGroup p pointer stop b c r) {mean inverse : Single}
    (hmean : r.get? .mean = some (.f32 mean)) (hinverse : r.get? .inverse = some (.f32 inverse))
    (hnext : ∀ r', AgreeBelow 2 r r' → code.Performs steps (code.enter r' .groupLatch []) next) :
    code.Performs (steps + 2 + p.split.walkSteps + 3)
      (.running ⟨r, walkBounds p.split .normalize, walkStart .normalize⟩)
      (normalizeProgram p pointer b mean inverse next) := by
  have hr₁ := hr.of_agree (agreeBelow_withBounds p.split .normalize r)
  have hbody : BodyPerforms code p.split .normalize (normalizeBody p.affine storage) (fun _ => []) b
      (storeStep p pointer mean inverse b) (withBounds p.split .normalize r) :=
    normalizeBody_performs hstorage hr₁.pointers
      ((get?_withBounds (by simp) (by simp)).trans hmean)
      ((get?_withBounds (by simp) (by simp)).trans hinverse)
  refine walk_performs (fun l => by rw [hcode]; rfl) (fun _ => rfl) hbody hinner houter hr.group rfl ?_
  exact fun r' _ ha _ => hnext r' ((agreeBelow_withBounds p.split .normalize r).trans (ha.weaken (by omega)))

theorem spread_performs (hstorage : storageType? p.dstType = some storage)
    (hr : InGroup p pointer stop b c r) {mean squares : Single}
    (hmean : r.get? .mean = some (.f32 mean))
    (hsquares : r.get? (.walk .variance (.sum .outer)) = some (.f32 squares))
    (hnext : ∀ r', AgreeBelow 2 r r' → code.Performs steps (code.enter r' .groupLatch []) next) :
    code.Performs (steps + 2 + p.split.walkSteps + 7)
      (code.enter r .spread [])
      (normalizeProgram p pointer b mean (c.one / (squares * c.reciprocal + c.epsilon).sqrt) next) := by
  refine .enter_nil (congrFun hcode _) rfl ?_
  refine .set (w := .f32 (squares * c.reciprocal)) (evaluate?_float hsquares hr.reciprocal) ?_
  refine .set (w := .f32 (squares * c.reciprocal + c.epsilon))
    (evaluate?_float (x := squares * c.reciprocal) (y := c.epsilon) (Registers.get?_set_self _ _ _)
      (by simp [Registers.get?_set, hr.epsilon])) ?_
  refine .set (evaluate?_sqrt (Registers.get?_set_self _ _ _)) ?_
  refine .set (w := .f32 (c.one / (squares * c.reciprocal + c.epsilon).sqrt))
    (evaluate?_float (x := c.one) (y := (squares * c.reciprocal + c.epsilon).sqrt)
      (by simp [Registers.get?_set, hr.one]) (Registers.get?_set_self _ _ _)) ?_
  generalize hr₁ : ((((r.set _ _).set _ _).set _ _).set _ _) = r₁
  have ha₁ : AgreeBelow 2 r r₁ := by
    rw [← hr₁]
    refine .set (.set (.set (.set (.refl _ _) _ ?_) _ ?_) _ ?_) _ ?_ <;> simp
  refine normalize_performs hcode hinner houter hstorage (hr.of_agree ha₁) ?_ ?_
    fun r' ha => hnext r' (ha₁.trans ha)
  · simp [← hr₁, Registers.get?_set, hmean]
  · simp [← hr₁]

theorem variance_performs (hstorage : storageType? p.dstType = some storage)
    (hr : InGroup p pointer stop b c r) {mean : Single} (hmean : r.get? .mean = some (.f32 mean))
    (hnext : ∀ r', AgreeBelow 2 r r' → code.Performs steps (code.enter r' .groupLatch []) next) :
    code.Performs (steps + 2 * p.split.walkSteps + 14)
      (.running ⟨r, walkBounds p.split .variance, walkStart .variance⟩)
      (varianceProgram p pointer c b mean next) := by
  have hr₁ := hr.of_agree (agreeBelow_withBounds p.split .variance r)
  have hmean₁ : (withBounds p.split .variance r).get? .mean = some (.f32 mean) :=
    (get?_withBounds (by simp) (by simp)).trans hmean
  have hbody : BodyPerforms code p.split .variance varianceBody (fun s => [s]) b
      (sumStep p pointer (fun x => (x - mean) * (x - mean)) b) (withBounds p.split .variance r) :=
    varianceBody_performs (hr₁.pointers .src (mem_used_src _)) hmean₁
  have hsteps : steps + 2 + p.split.walkSteps + 7 + 2 + p.split.walkSteps + 3 ≤
      steps + 2 * p.split.walkSteps + 14 := by omega
  refine .mono ?_ hsteps
  refine walk_performs (fun l => by rw [hcode]; rfl) (fun _ => rfl) hbody hinner houter hr.group
    (by simp [initial, hr.zero]) ?_
  intro r' squares ha hsum
  have ha' : AgreeBelow 2 r r' := (agreeBelow_withBounds p.split .variance r).trans (ha.weaken (by omega))
  exact spread_performs hcode hinner houter hstorage (hr.of_agree ha')
    (ha.get? hmean₁ (by simp)) ((carries_singleton (by decide)).mp hsum)
    fun r'' ha'' => hnext r'' (ha'.trans ha'')

theorem mean_performs (hstorage : storageType? p.dstType = some storage)
    (hr : InGroup p pointer stop b c r)
    (hnext : ∀ r', AgreeBelow 2 r r' → code.Performs steps (code.enter r' .groupLatch []) next) :
    code.Performs (steps + 3 * p.split.walkSteps + 20)
      (.running ⟨r, walkBounds p.split .mean, walkStart .mean⟩) (meanProgram p pointer c b next) := by
  have hr₁ := hr.of_agree (agreeBelow_withBounds p.split .mean r)
  have hbody : BodyPerforms code p.split .mean meanBody (fun s => [s]) b (sumStep p pointer id b)
      (withBounds p.split .mean r) :=
    meanBody_performs (hr₁.pointers .src (mem_used_src _))
  have hsteps : steps + 2 * p.split.walkSteps + 14 + 1 + 2 + p.split.walkSteps + 3 ≤
      steps + 3 * p.split.walkSteps + 20 := by omega
  refine .mono ?_ hsteps
  refine walk_performs (fun l => by rw [hcode]; rfl) (fun _ => rfl) hbody hinner houter hr.group
    (by simp [initial, hr.zero]) ?_
  intro r' sum ha hsum
  have ha' : AgreeBelow 2 r r' := (agreeBelow_withBounds p.split .mean r).trans (ha.weaken (by omega))
  refine .enter_nil (congrFun hcode _) rfl ?_
  refine .set (evaluate?_float ((carries_singleton (by decide)).mp hsum)
    (ha'.get? hr.reciprocal (by simp))) ?_
  have ha'' : AgreeBelow 2 r (r'.set .mean (.f32 (sum * c.reciprocal))) :=
    ha'.set _ (by simp)
  exact variance_performs hcode hinner houter hstorage (hr.of_agree ha'')
    (Registers.get?_set_self _ _ _) fun r'' h => hnext r'' (ha''.trans h)

omit hinner houter in
theorem header_performs (hr : Ready p pointer stop r) (hb : b ≤ stop) (hstop : stop < 2 ^ 64)
    (hnext : ∀ r', AgreeBelow 1 r r' → r'.get? .group = some (.ofNat b) →
      code.Performs steps (code.enter r' (if b < stop then .groupBody else .done) []) next) :
    code.Performs (steps + 1 + 1) (code.enter r .groupHeader [.ofNat b]) next := by
  refine .enter (r.set .group (.ofNat b)) (by rw [hcode]; rfl) ?_
  rw [hcode]
  have ha : AgreeBelow 1 r (r.set .group (.ofNat b)) := .set (.refl _ _) _ (by simp)
  refine .set (evaluate?_ult (Registers.get?_set_self _ _ _)
    (ha.get? hr.stop (by simp)) (by omega) hstop) ?_
  refine .branch (Registers.get?_set_self _ _ _) ?_
  rw [show (if decide (b < stop) = true then Label.groupBody else .done) =
    if b < stop then .groupBody else .done by simp]
  exact hnext _ (ha.set _ (by simp)) (by simp [Registers.get?_set])

theorem group_performs (hstorage : storageType? p.dstType = some storage)
    (hr : Ready p pointer stop r) (hb : b < stop) (hstop : stop < 2 ^ 64)
    (hnext : ∀ r', AgreeBelow 1 r r' →
      code.Performs steps (code.enter r' .groupHeader [.ofNat (b + 1)]) next) :
    code.Performs (steps + groupSteps p)
      (code.enter r .groupHeader [.ofNat b]) (groupProgram p pointer b next) := by
  have hsteps : steps + 1 + 1 + 3 * p.split.walkSteps + 20 + 1 + 3 + 3 + 3 + 1 + 1 ≤
      steps + groupSteps p := by
    unfold groupSteps
    omega
  refine .mono ?_ hsteps
  refine header_performs hcode hr (Nat.le_of_lt hb) hstop fun r₂ ha₂ hgroup₂ => ?_
  rw [if_pos hb]
  refine .enter_nil (congrFun hcode _) rfl ?_
  have hbase (r' : Registers Value) (ha : AgreeBelow 1 r r') (c : ConstantBuffer) :
      r'.get? (.base c) = some (.i64 (UInt64.ofNat (p.constants.of c))) :=
    ha.get? (hr.base c) (by simp)
  show code.Performs _
    (.running ⟨r₂, loadSingle _ _ _ ++ (loadSingle _ _ _ ++ (loadSingle _ _ _ ++ _)), _⟩) _
  unfold groupProgram loadConstant
  -- The constants of the group.
  refine loadSingle_performs (hbase _ ha₂ _) hgroup₂ (by simp) fun reciprocal r₃ ha₃ h₃ => ?_
  have hr₃ : AgreeBelow 1 r r₃ := ha₂.trans (ha₃.below (Nat.le_refl 1))
  have hgroup₃ := (ha₃ .group (by simp)).trans hgroup₂
  refine loadSingle_performs (hbase _ hr₃ _) hgroup₃ (by simp) fun epsilon r₄ ha₄ h₄ => ?_
  have hr₄ : AgreeBelow 1 r r₄ := hr₃.trans (ha₄.below (Nat.le_refl 1))
  have hgroup₄ := (ha₄ .group (by simp)).trans hgroup₃
  refine loadSingle_performs (hbase _ hr₄ _) hgroup₄ (by simp) fun one r₅ ha₅ h₅ => ?_
  have hr₅ : AgreeBelow 1 r r₅ := hr₄.trans (ha₅.below (Nat.le_refl 1))
  have hgroup₅ := (ha₅ .group (by simp)).trans hgroup₄
  have hepsilon₅ := (ha₅ (.loaded (.constant .epsilon)) (by simp)).trans h₄
  have hreciprocal₅ := (ha₅ (.loaded (.constant .reciprocal)) (by simp)).trans
    ((ha₄ (.loaded (.constant .reciprocal)) (by simp)).trans h₃)
  refine .set (w := .f32 .zero) rfl ?_
  have hr₆ : AgreeBelow 1 r (r₅.set .zero (.f32 .zero)) := hr₅.set _ (by simp)
  have hin : InGroup p pointer stop b ⟨reciprocal, epsilon, one⟩ (r₅.set .zero (.f32 .zero)) :=
    { toReady := hr.of_agree hr₆
      group := by rw [Registers.get?_set_of_ne (by simp), hgroup₅]
      reciprocal := by rw [Registers.get?_set_of_ne (by simp), hreciprocal₅]
      epsilon := by rw [Registers.get?_set_of_ne (by simp), hepsilon₅]
      one := by rw [Registers.get?_set_of_ne (by simp), h₅]
      zero := Registers.get?_set_self _ _ _ }
  refine mean_performs hcode hinner houter hstorage hin fun r₇ ha₇ => ?_
  -- The next group.
  have hgroup₇ := ha₇.get? hin.group (by simp)
  refine .enter_nil (congrFun hcode _) rfl ?_
  refine .set (evaluate?_addImm hgroup₇ (y := 1) rfl) ?_
  refine .jump [.ofNat (b + 1)] (by simp) (hnext _ ?_)
  exact (hr₆.trans (ha₇.weaken (by omega))).set _ (by simp)

omit steps r next in
theorem groups_performs (hstorage : storageType? p.dstType = some storage) (hstop : stop < 2 ^ 64)
    {count : Nat} (hcount : b + count = stop) {r : Registers Value} (hr : Ready p pointer stop r) :
    code.Performs (4 + count * groupSteps p)
      (code.enter r .groupHeader [.ofNat b]) (groupsProgram p pointer count b) := by
  induction count generalizing b r with
  | zero =>
    have hsteps : 0 + 2 + 1 + 1 ≤ 4 + 0 * groupSteps p := by omega
    refine .mono ?_ hsteps
    refine header_performs hcode hr (by omega) hstop fun r' _ _ => ?_
    rw [if_neg (by omega)]
    exact answer_performs hcode (l := .done) (s := .ok) rfl (by omega) _
  | succ count ih =>
    rw [Nat.succ_mul, ← Nat.add_assoc]
    exact group_performs hcode hinner houter hstorage hr (by omega) hstop fun r' ha =>
      ih (by omega) (hr.of_agree ha)

end

/-! ## The guards -/

omit hcode

theorem apply_or (x y : Bool) : IntegerOp.or.apply (.ofBool x) (.ofBool y) = some (.ofBool (x || y)) := by
  cases x <;> cases y <;> rfl

theorem apply_and (x y : Bool) :
    IntegerOp.and.apply (.ofBool x) (.ofBool y) = some (.ofBool (x && y)) := by
  cases x <;> cases y <;> rfl

theorem evaluate?_isNull {r : Registers Value} {v : Value} {x : UInt64} (h : r.get? v = some (.i64 x)) :
    (Operation.compareImm .eq .i64 v 0).evaluate? r = some (.ofBool (decide (x = 0))) := by
  refine (evaluate?_compareImm (w := .i64 0) (Registers.typed?_eq h rfl) rfl).trans ?_
  have hnull : (x.toNat == (0 : UInt64).toNat) = decide (x = 0) := by
    rw [Bool.eq_iff_iff, beq_iff_eq, decide_eq_true_iff, UInt64.toNat_inj]
  rw [Condition.apply, Condition.holds, hnull]

section

variable {steps : Nat} {r : Registers Value} {rest : List (Instruction Value)}
  {e : Terminator Label Value}

theorem held_set {held : List Role}
    (hheld : ∀ role ∈ held, r.get? (.pointer role) = some (.i64 (pointer role))) (role : Role) (x : UInt64) :
    ∀ role' ∈ held ++ [role], (r.set (.pointer role) (.i64 x)).get? (.pointer role') =
      some (.i64 (Function.update pointer role x role')) := by
  intro role' hrole'
  by_cases hrole : role = role'
  · rw [hrole, Registers.get?_set_self, Function.update_self]
  · rw [Registers.get?_set_of_ne (by simpa using hrole), Function.update_of_ne (Ne.symm hrole)]
    exact hheld role' (by simpa [Ne.symm hrole] using hrole')

theorem loadPointers_performs {data : UInt64} {next : (Role → UInt64) → Task Memory Exit}
    {roles : List Role} (held : List Role) (hdata : r.get? .data = some (.i64 data))
    (hheld : ∀ role ∈ held, r.get? (.pointer role) = some (.i64 (pointer role)))
    (h : ∀ r' pointer', Registers.AgreeOn (fun v => ∀ role, v ≠ .pointer role) r r' →
      (∀ role ∈ held ++ roles, r'.get? (.pointer role) = some (.i64 (pointer' role))) →
      code.Performs steps (.running ⟨r', rest, e⟩) (next pointer')) :
    code.Performs (steps + roles.length) (.running ⟨r, roles.map loadPointer ++ rest, e⟩)
      (loadPointers data next roles pointer) := by
  induction roles generalizing held r pointer with
  | nil => exact h r pointer (.refl _ _) (by simpa using hheld)
  | cons role roles ih =>
    refine .load (a := data + UInt64.ofNat (8 * role.index)) (by simp [Registers.address?, hdata])
      fun n => ⟨.i64 (UInt64.ofNat n), rfl, ?_⟩
    have ha : Registers.AgreeOn (fun v => ∀ role, v ≠ .pointer role) r
        (r.set (.pointer role) (.i64 (UInt64.ofNat n))) := .set (.refl _ _) (by simp) _
    refine ih (held ++ [role]) ((ha .data (by simp)).trans hdata) (held_set hheld role _)
      fun r' pointer' ha' hheld' => ?_
    exact h r' pointer' (ha.trans ha') (by simpa using hheld')

variable (pointer) in
theorem nullTests_performs {t : Task Memory Exit} {roles : List Role} {soFar : Value} {known : Bool}
    (hknown : r.get? soFar = some (.ofBool known)) (hsoFar : ∀ role ∈ roles, soFar ≠ .isNull role)
    (hroles : ∀ role ∈ roles, r.get? (.pointer role) = some (.i64 (pointer role)))
    (h : ∀ r', Registers.AgreeOn (fun v => ∀ role, v ≠ .isNull role ∧ v ≠ .anyNull role) r r' →
      r'.get? (roles.foldl (fun _ role => .anyNull role) soFar) =
        some (.ofBool (known || roles.any (pointer · = 0))) →
      code.Performs steps (.running ⟨r', rest, e⟩) t) :
    code.Performs (steps + 2 * roles.length) (.running ⟨r, nullTests soFar roles ++ rest, e⟩) t := by
  induction roles generalizing soFar known r with
  | nil => exact h r (.refl _ _) (by simpa using hknown)
  | cons role roles ih =>
    refine .set (evaluate?_isNull (hroles role List.mem_cons_self)) ?_
    have hknown' : (r.set (.isNull role) (.ofBool (decide (pointer role = 0)))).get? soFar =
        some (.ofBool known) :=
      (Registers.get?_set_of_ne (hsoFar role List.mem_cons_self).symm _ _).trans hknown
    refine .set ((evaluate?_integer (Registers.typed?_eq hknown' rfl)
      (Registers.typed?_eq (Registers.get?_set_self _ _ _) rfl)).trans (apply_or _ _)) ?_
    generalize hr₁ : (r.set (.isNull role) _).set (.anyNull role) _ = r₁
    have ha : Registers.AgreeOn (fun v => ∀ role, v ≠ .isNull role ∧ v ≠ .anyNull role) r r₁ := by
      rw [← hr₁]
      exact .set (.set (.refl _ _) (fun h => (h role).1 rfl) _) (fun h => (h role).2 rfl) _
    have hknown₁ : r₁.get? (.anyNull role) = some (.ofBool (known || decide (pointer role = 0))) := by
      rw [← hr₁]
      exact Registers.get?_set_self _ _ _
    refine ih hknown₁ (by simp)
      (fun role' hrole' => (ha _ (by simp)).trans (hroles role' (List.mem_cons_of_mem _ hrole')))
      fun r' ha' hnull => h r' (ha.trans ha') ?_
    rw [List.foldl_cons, hnull, List.any_cons, Bool.or_assoc]

end

include hcode

theorem setup_performs (h : p.Accepted) (hstorage : storageType? p.dstType = some storage)
    {start length : Nat} (hslice : start + length ≤ p.split.batch) {r : Registers Value}
    (hpointers : HoldsPointers p pointer r) (hstart : r.get? .start = some (.ofNat start))
    (hstop : r.get? .stop = some (.ofNat (start + length))) :
    code.Performs (8 + p.split.batch * groupSteps p)
      (code.enter r .setup []) (groupsProgram p pointer length start) := by
  have hgroups := Nat.mul_le_mul_right (groupSteps p) (show length ≤ p.split.batch by omega)
  have hsteps : 4 + length * groupSteps p + 1 + 1 + 1 + 1 ≤ 8 + p.split.batch * groupSteps p := by omega
  refine .mono ?_ hsteps
  refine .enter_nil (congrFun hcode _) rfl ?_
  refine .set (evaluate?_constant (x := p.constants.reciprocal) (ofInt_immediate _)) ?_
  refine .set (evaluate?_constant (x := p.constants.epsilon) (ofInt_immediate _)) ?_
  refine .set (evaluate?_constant (x := p.constants.one) (ofInt_immediate _)) ?_
  generalize hr₁ : ((r.set _ _).set _ _).set _ _ = r₁
  have hbase (c : ConstantBuffer) : r₁.get? (.base c) = some (.ofNat (p.constants.of c)) := by
    cases c <;> simp [← hr₁, Registers.get?_set, ConstantAddresses.of]
  have hother (v : Value) (hv : ∀ c, v ≠ .base c) : r₁.get? v = r.get? v := by
    simp [← hr₁, Registers.get?_set, Ne.symm (hv _)]
  have hready : Ready p pointer (start + length) r₁ :=
    ⟨fun role hrole => (hother _ (by simp)).trans (hpointers role hrole), hbase,
      (hother _ (by simp)).trans hstop⟩
  refine .jump [.ofNat start] ?_ ?_
  · rw [List.mapM_cons, hother _ (by simp), hstart]
    rfl
  · have hinner := h.inner_lt
    have houter := h.outer_lt
    have hbatch := h.batch_lt
    exact groups_performs hcode (by omega) (by omega) hstorage (by omega) rfl hready

theorem pointers_performs (h : p.Accepted) (hstorage : storageType? p.dstType = some storage)
    {data : UInt64} {start length : Nat} (hslice : start + length ≤ p.split.batch) {r : Registers Value}
    (hdata : r.get? .data = some (.i64 data)) (hstart : r.get? .start = some (.ofNat start))
    (hstop : r.get? .stop = some (.ofNat (start + length))) :
    code.Performs (20 + p.split.batch * groupSteps p)
      (code.enter r .pointers [])
      (loadPointers data (guardedGroups p start length) (Role.used p.affine) pointer) := by
  obtain ⟨others, hused, hlength, hlast⟩ : ∃ others, Role.used p.affine = .src :: others ∧
      others.length ≤ 3 ∧ others.foldl (fun _ role => Value.anyNull role) (.isNull .src) =
        .anyNull (if p.affine then .beta else .dst) := by
    cases p.affine
    · exact ⟨[.dst], rfl, by decide, rfl⟩
    · exact ⟨[.dst, .alpha, .beta], rfl, by decide, rfl⟩
  have hsrc : Role.src ∉ others := by
    have hnodup : (Role.used p.affine).Nodup := by cases p.affine <;> decide
    rw [hused] at hnodup
    exact (List.nodup_cons.mp hnodup).1
  have hsteps : 8 + p.split.batch * groupSteps p + 1 + 2 * others.length + 1 +
      (Role.used p.affine).length ≤ 20 + p.split.batch * groupSteps p := by
    rw [hused, List.length_cons]
    omega
  refine .mono ?_ hsteps
  refine .enter_nil (congrFun hcode _) rfl ?_
  refine loadPointers_performs [] hdata (by simp) fun r₁ pointer' ha hheld => ?_
  have hpointers : HoldsPointers p pointer' r₁ := fun role hrole => hheld role (by simpa using hrole)
  refine .set (evaluate?_isNull (hpointers .src (mem_used_src _))) ?_
  rw [hused, List.tail_cons, ← List.append_nil (nullTests _ _)]
  refine nullTests_performs pointer' (Registers.get?_set_self _ _ _) ?_ ?_ fun r₂ ha₂ hnull => ?_
  · rintro role hrole hsame
    cases hsame
    exact hsrc hrole
  · intro role hrole
    rw [Registers.get?_set_of_ne (by simp)]
    exact hpointers role (by rw [hused]; exact List.mem_cons_of_mem _ hrole)
  rw [hlast] at hnull
  have hkept (v : Value) (hv : ∀ role, v ≠ .isNull role ∧ v ≠ .anyNull role) :
      r₂.get? v = r₁.get? v := by
    rw [ha₂ v hv, Registers.get?_set_of_ne (hv .src).1.symm]
  have hany : (decide (pointer' .src = 0) || others.any (pointer' · = 0)) = true ↔
      ∃ role ∈ Role.used p.affine, pointer' role = 0 := by
    simp [hused]
  refine .branch hnull ?_
  unfold guardedGroups
  by_cases hex : ∃ role ∈ Role.used p.affine, pointer' role = 0
  · rw [hany.mpr hex, if_pos hex]
    exact answer_performs hcode (l := .nullPointer) (s := .nullPointer) rfl (by omega) _
  · rw [Bool.eq_false_iff.mpr (mt hany.mp hex), if_neg hex]
    refine setup_performs hcode h hstorage hslice ?_ ?_ ?_
    · exact fun role hrole => (hkept _ (by simp)).trans (hpointers role hrole)
    · rw [hkept _ (by simp), ha _ (by simp), hstart]
    · rw [hkept _ (by simp), ha _ (by simp), hstop]

omit hcode in
/-- Two comparisons of wrapped numbers decide what the sum is. -/
theorem slice_test {start length : UInt64} {batch : Nat} (hbatch : batch < 2 ^ 64) :
    (Condition.ule.holds start.toNat (start + length).toNat &&
      Condition.ule.holds (start + length).toNat (UInt64.ofNat batch).toNat) =
      decide (start.toNat + length.toNat ≤ batch) := by
  have hstart := start.toNat_lt
  have hlength := length.toNat_lt
  rw [Condition.holds, Condition.holds, UInt64.toNat_add, UInt64.toNat_ofNat', Nat.mod_eq_of_lt hbatch,
    ← Bool.decide_and]
  congr 1
  simp only [eq_iff_iff]
  -- A sum that wraps around is less than either summand.
  omega

omit hcode in
/-- The registers once the end of the slice is known and tested. -/
def withSlice (s : Split) (start length : UInt64) (r : Registers Value) : Registers Value :=
  (((r.set .stop (.i64 (start + length))).set .noWrap
    (.ofBool (Condition.ule.holds start.toNat (start + length).toNat))).set .inRange
    (.ofBool (Condition.ule.holds (start + length).toNat (UInt64.ofNat s.batch).toNat))).set .sliceOk
    (.ofBool (decide (start.toNat + length.toNat ≤ s.batch)))

omit hcode in
theorem entry_assigns (h : p.Accepted) (start length : UInt64) {r : Registers Value}
    (hstart : r.get? .start = some (.i64 start)) (hlength : r.get? .length = some (.i64 length)) :
    r.Assigns (entry p.split).body (withSlice p.split start length r) := by
  have hbatch := h.batch_lt
  refine .set (w := .i64 (start + length)) (evaluate?_integer (u := .i64 start) (w := .i64 length)
    (Registers.typed?_eq hstart rfl) (Registers.typed?_eq hlength rfl)) ?_
  refine .set (w := .ofBool (Condition.ule.holds start.toNat (start + length).toNat))
    (evaluate?_compare (u := .i64 start) (w := .i64 (start + length))
      (Registers.typed?_eq (by simp [Registers.get?_set, hstart]) rfl) (Registers.typed?_eq (by simp) rfl)) ?_
  refine .set (w := .ofBool (Condition.ule.holds (start + length).toNat (UInt64.ofNat p.split.batch).toNat))
    (evaluate?_compareImm (u := .i64 (start + length))
      (Registers.typed?_eq (by simp [Registers.get?_set]) rfl) (Word.ofInt?_i64 (ofInt_immediate p.split.batch))) ?_
  refine .set (w := .ofBool (decide (start.toNat + length.toNat ≤ p.split.batch))) ?_ (.nil _)
  generalize hr : Registers.set _ Value.inRange _ = r'
  have hnoWrap : r'.get? .noWrap =
      some (.ofBool (Condition.ule.holds start.toNat (start + length).toNat)) := by
    simp [← hr, Registers.get?_set]
  have hinRange : r'.get? .inRange = some (.ofBool (Condition.ule.holds (start + length).toNat
      (UInt64.ofNat p.split.batch).toNat)) := by
    rw [← hr]
    exact Registers.get?_set_self _ _ _
  rw [← slice_test (by omega)]
  exact (evaluate?_integer (Registers.typed?_eq hnoWrap rfl) (Registers.typed?_eq hinRange rfl)).trans (apply_and _ _)

theorem entry_performs (h : p.Accepted) (hstorage : storageType? p.dstType = some storage)
    (data start length : UInt64) :
    code.Performs p.stepBound (code.enter .empty .entry [.i64 data, .i64 start, .i64 length])
      (program p data start length) := by
  have hsteps : 20 + p.split.batch * groupSteps p + 1 + 4 ≤ p.stepBound := by
    unfold Parameters.stepBound groupSteps Split.walkSteps
    omega
  refine .mono ?_ hsteps
  refine .enter (((Registers.empty.set .data (.i64 data)).set .start (.i64 start)).set .length
    (.i64 length)) (by rw [hcode]; rfl) ?_
  rw [hcode, ← List.append_nil (block p storage .entry).body]
  refine .assigns (entry_assigns h start length (by simp [Registers.get?_set]) (by simp)) ?_
  refine .branch (Registers.get?_set_self _ _ _) ?_
  unfold program
  by_cases hslice : start.toNat + length.toNat ≤ p.split.batch
  · rw [decide_eq_true hslice, if_pos hslice]
    refine pointers_performs hcode h hstorage hslice ?_ ?_ ?_
      <;> simp [withSlice, Registers.get?_set, Word.ofNat]
  · rw [decide_eq_false hslice, if_neg hslice]
    exact answer_performs hcode (l := .outOfBounds) (s := .sliceOutOfBounds) rfl (by omega) _

end

/-- **A call of the code takes the loads and stores of the program.** -/
theorem call_stutters {p : Parameters} {name convention : String} {code : Routine Label Value}
    (hcode : p.routine? name convention .i64 = .ok code) {steps : Nat} (hsteps : p.stepBound ≤ steps)
    (data start length : UInt64) :
    (code.call steps [.i64 data, .i64 start, .i64 length]).Stutters (program p data start length) := by
  obtain ⟨h, storage, hstorage, rfl⟩ := Parameters.routine?_eq_ok_iff.mp hcode
  exact entry_performs rfl h hstorage data start length steps hsteps

end AxisNorm.Normalization
