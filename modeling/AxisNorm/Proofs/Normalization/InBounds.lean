import AxisNorm.Proofs.Normalization.Addressing
import AxisNorm.Proofs.Normalization.Order

/-!
# A call stays inside its buffers

* `guards_checks`, `groups_checks`: the blocks before the loop over groups and those of the loop.
* `call_inBounds`: **every instruction of a call whose slice is in range is in bounds.**
-/

namespace AxisNorm.Normalization

open Code

section

variable {code : Routine Label Value} {p : Parameters} {data : UInt64} {start stop : Nat}
  {r : Registers Value} {rest : List (Instruction Value)} {e : Terminator Label Value}

/-! ## The guards -/

theorem loadPointers_checks {roles : List Role} (held : List Role) (pointer : Role → UInt64)
    (hdata : r.get? .data = some (.i64 data)) (hroles : ∀ role ∈ roles, role ∈ Role.used p.affine)
    (hheld : ∀ role ∈ held, r.get? (.pointer role) = some (.i64 (pointer role)))
    (h : ∀ (r' : Registers Value) (pointer' : Role → UInt64),
      Registers.AgreeOn (fun v => ∀ role, v ≠ .pointer role) r r' →
      (∀ role ∈ held ++ roles, r'.get? (.pointer role) = some (.i64 (pointer' role))) →
      ChecksBounds code p data start stop e rest r') :
    ChecksBounds code p data start stop e (roles.map loadPointer ++ rest) r := by
  induction roles generalizing held r pointer with
  | nil => exact h r pointer (.refl _ _) (by simpa using hheld)
  | cons role roles ih =>
    refine .load ⟨rfl, hroles role List.mem_cons_self, by simp [Registers.address?, hdata]⟩
      fun _ _ n w _ _ _ hw => ?_
    obtain rfl : Word.i64 (UInt64.ofNat n) = w := Option.some.inj hw
    have ha : Registers.AgreeOn (fun v => ∀ role, v ≠ .pointer role) r
        (r.set (.pointer role) (.i64 (UInt64.ofNat n))) := .set (.refl _ _) (by simp) _
    refine ih (held ++ [role]) (Function.update pointer role (UInt64.ofNat n))
      ((ha .data (by simp)).trans hdata) (fun role hrole => hroles role (List.mem_cons_of_mem _ hrole))
      (held_set hheld role _) fun r' pointer' ha' hheld' => ?_
    exact h r' pointer' (ha.trans ha') (by simpa using hheld')

theorem nullTests_checks {roles : List Role} {soFar : Value}
    (h : ∀ r', Registers.AgreeOn (fun v => ∀ role, v ≠ .isNull role ∧ v ≠ .anyNull role) r r' →
      ChecksBounds code p data start stop e rest r') :
    ChecksBounds code p data start stop e (nullTests soFar roles ++ rest) r := by
  induction roles generalizing soFar r with
  | nil => exact h r (.refl _ _)
  | cons role roles ih =>
    refine .set (inBounds_of_exact trivial) fun w _ => .set (inBounds_of_exact trivial) fun w' _ => ?_
    refine ih fun r' ha => h r' (.trans ?_ ha)
    exact .set (.set (.refl _ _) (fun h => (h role).1 rfl) _) (fun h => (h role).2 rfl) _

variable {storage : ValueType}

theorem entry_checks (h : p.Accepted) (hstart : start ≤ stop) (hstop : stop ≤ p.split.batch)
    (hr : Assertion p data start stop .entry r) :
    ChecksBounds code p data start stop (block p storage .entry).terminator
      (block p storage .entry).body r := by
  obtain ⟨hdata, hfirst, hlength⟩ := hr
  have hbatch := h.batch_lt
  have hadd := computes_add hfirst hlength (by omega)
  rw [Nat.add_sub_cancel' hstart] at hadd
  refine size_checks hadd ?_
  refine .set (inBounds_of_exact trivial) fun w₁ _ => .set (inBounds_of_exact trivial) fun w₂ _ => ?_
  refine .set (inBounds_of_exact trivial) fun w₃ _ => .branch_any ?_ trivial
  refine ⟨?_, ?_, ?_⟩ <;> simp [Registers.get?_set, hdata, hfirst]

theorem pointers_checks (hr : Assertion p data start stop .pointers r) :
    ChecksBounds code p data start stop (block p storage .pointers).terminator
      (block p storage .pointers).body r := by
  obtain ⟨hdata, hstart, hstop⟩ := hr
  refine loadPointers_checks [] (fun _ => 0) hdata (fun _ hrole => hrole) (by simp) fun r₁ pointer ha hheld => ?_
  refine .set (inBounds_of_exact trivial) fun w _ => ?_
  rw [← List.append_nil (nullTests _ _)]
  refine nullTests_checks fun r₂ ha₂ => .branch_any trivial ?_
  have hkept (v : Value) (hv : ∀ role, v ≠ .isNull role ∧ v ≠ .anyNull role) :
      r₂.get? v = r₁.get? v := by
    rw [ha₂ v hv, Registers.get?_set_of_ne (hv .src).1.symm]
  refine ⟨⟨pointer, fun role hrole => ?_⟩, ?_, ?_⟩
  · rw [hkept _ (by simp)]
    exact hheld role (by simpa using hrole)
  · rw [hkept _ (by simp), ha _ (by simp), hstart]
  · rw [hkept _ (by simp), ha _ (by simp), hstop]

theorem setup_checks (hcode : code.block = block p storage) (hstart : start ≤ stop)
    (hr : Assertion p data start stop .setup r) :
    ChecksBounds code p data start stop (block p storage .setup).terminator
      (block p storage .setup).body r := by
  obtain ⟨⟨pointer, hpointers⟩, hfirst, hstop⟩ := hr
  refine .set_of_eq (inBounds_of_exact trivial) (evaluate?_constant (ofInt_immediate _)) ?_
  refine .set_of_eq (inBounds_of_exact trivial) (evaluate?_constant (ofInt_immediate _)) ?_
  refine .set_of_eq (inBounds_of_exact trivial) (evaluate?_constant (ofInt_immediate _)) ?_
  generalize hr₁ : ((r.set _ _).set _ _).set _ _ = r₁
  have hbase (c : ConstantBuffer) : r₁.get? (.base c) = some (.ofNat (p.constants.of c)) := by
    cases c <;> simp [← hr₁, Registers.get?_set, ConstantAddresses.of]
  have hother (v : Value) (hv : ∀ c, v ≠ .base c) : r₁.get? v = r.get? v := by
    simp [← hr₁, Registers.get?_set, Ne.symm (hv _)]
  have hready : Ready p pointer stop r₁ :=
    ⟨fun role hrole => (hother _ (by simp)).trans (hpointers role hrole), hbase,
      (hother _ (by simp)).trans hstop⟩
  refine enter_checks (n := start) (d := 1) (by rw [hcode]; rfl) (by simp) rfl
    ((hother _ (by simp)).trans hfirst) fun r₂ ha₂ hgroup => ?_
  exact ⟨pointer, start, hstart, hready.of_agree (n := 0) ha₂, hgroup⟩

theorem answer_checks {l : Label} {s : Status} (hl : block p storage l = answer s) :
    ChecksBounds code p data start stop (block p storage l).terminator (block p storage l).body r := by
  rw [hl]
  exact .set (inBounds_of_exact trivial) fun w _ => .ret

/-! ## The loop over groups -/

theorem groupHeader_checks (hstop : stop < 2 ^ 64) (hr : Assertion p data start stop .groupHeader r) :
    ChecksBounds code p data start stop (block p storage .groupHeader).terminator
      (block p storage .groupHeader).body r := by
  obtain ⟨pointer, b, hb, hr⟩ := hr
  refine .set_of_eq (inBounds_of_exact trivial) (evaluate?_ult hr.group hr.stop (by omega) hstop) ?_
  refine .branch (Registers.get?_set_self _ _ _) ?_
  by_cases hlt : b < stop
  · rw [decide_eq_true hlt]
    exact ⟨pointer, b, hlt, hr.toReady.of_agree (n := 0) (.set (.refl _ _) _ (by simp)),
      by simp [Registers.get?_set, hr.group]⟩
  · rw [decide_eq_false hlt]
    trivial

variable (hcode : code.block = block p storage)

include hcode

theorem groupBody_checks (h : p.Accepted) (hstop : stop ≤ p.split.batch)
    (hr : Assertion p data start stop .groupBody r) :
    ChecksBounds code p data start stop (block p storage .groupBody).terminator
      (block p storage .groupBody).body r := by
  obtain ⟨pointer, b, hb, hr⟩ := hr
  have hcount := h.count_lt
  have hbatch : p.split.batch ≤ p.split.outer * p.split.batch * p.split.inner :=
    Nat.le_trans (Nat.le_mul_of_pos_left _ h.outer) (Nat.le_mul_of_pos_right _ h.inner)
  have hload (c : ConstantBuffer) {r : Registers Value} {rest : List (Instruction Value)}
      {e : Terminator Label Value} (hr : AtGroup p pointer stop b r)
      (hrest : ∀ r', AtGroup p pointer stop b r' → ChecksBounds code p data start stop e rest r') :
      ChecksBounds code p data start stop e (loadSingle (.constant c) (.base c) .group ++ rest) r := by
    have hlt : b < p.split.batch := by omega
    refine loadSingle_checks (a := .constant c) (hr.base c) hr.group rfl hlt (by omega) fun r' ha => hrest r' ?_
    exact ⟨hr.toReady.of_agree (n := 0) (ha.below (Nat.le_refl 1)), (ha .group (by simp)).trans hr.group⟩
  show ChecksBounds code p data start stop _
    (loadSingle _ _ _ ++ (loadSingle _ _ _ ++ (loadSingle _ _ _ ++ _))) r
  refine hload _ hr fun r₁ hr₁ => hload _ hr₁ fun r₂ hr₂ => hload _ hr₂ fun r₃ hr₃ => ?_
  refine .set (inBounds_of_exact trivial) fun w _ => ?_
  have hr₄ : AtGroup p pointer stop b (r₃.set .zero w) :=
    ⟨hr₃.toReady.of_agree (n := 0) (.set (.refl _ _) _ (by simp)),
      (Registers.get?_set_of_ne (by simp) _ _).trans hr₃.group⟩
  exact walkStart_checks (fun l => by rw [hcode]; rfl) hb hr₄

theorem centre_checks (hr : Assertion p data start stop .centre r) :
    ChecksBounds code p data start stop (block p storage .centre).terminator
      (block p storage .centre).body r := by
  obtain ⟨pointer, b, hb, hr⟩ := hr
  refine float_checks fun w => walkStart_checks (fun l => by rw [hcode]; rfl) hb (hr.of_agree (n := 0) ?_)
  exact .set (.refl _ _) _ (by simp)

theorem spread_checks (hr : Assertion p data start stop .spread r) :
    ChecksBounds code p data start stop (block p storage .spread).terminator
      (block p storage .spread).body r := by
  obtain ⟨pointer, b, hb, hr⟩ := hr
  refine float_checks fun w₁ => float_checks fun w₂ => ?_
  refine .set (inBounds_of_exact trivial) fun w₃ _ => float_checks fun w₄ => ?_
  refine walkStart_checks (fun l => by rw [hcode]; rfl) hb (hr.of_agree (n := 0) ?_)
  refine .set (.set (.set (.set (.refl _ _) _ ?_) _ ?_) _ ?_) _ ?_ <;> simp

theorem groupLatch_checks (hstop : stop < 2 ^ 63) (hr : Assertion p data start stop .groupLatch r) :
    ChecksBounds code p data start stop (block p storage .groupLatch).terminator
      (block p storage .groupLatch).body r := by
  obtain ⟨pointer, b, hb, hr⟩ := hr
  refine size_checks (computes_addImm (y := 1) rfl hr.group (by omega)) ?_
  refine enter_checks (n := b + 1) (d := 1) (by rw [hcode]; rfl) (by simp) rfl
    (Registers.get?_set_self _ _ _) fun r₁ ha₁ hgroup => ?_
  have hready : Ready p pointer stop (r.set .nextGroup (.ofNat (b + 1))) :=
    hr.toReady.of_agree (n := 0) (.set (.refl _ _) _ (by simp))
  exact ⟨pointer, b + 1, hb, hready.of_agree (n := 0) ha₁, hgroup⟩

/-! ## All together -/

theorem block_checks (h : p.Accepted) (hstorage : storageType? p.dstType = some storage)
    (hstart : start ≤ stop) (hstop : stop ≤ p.split.batch) (l : Label) (r : Registers Value)
    (hr : Assertion p data start stop l r) :
    ChecksBounds code p data start stop (code.block l).terminator (code.block l).body r := by
  have hbatch := h.batch_lt
  have hwalk (q : Pass) (w : WalkLabel) : code.block (.walk q w) = block p storage (.walk q w) := by
    rw [hcode]
  rw [hcode]
  cases l with
  | entry => exact entry_checks h hstart hstop hr
  | outOfBounds => exact answer_checks rfl
  | pointers => exact pointers_checks hr
  | nullPointer => exact answer_checks rfl
  | setup => exact setup_checks hcode hstart hr
  | groupHeader => exact groupHeader_checks (by omega) hr
  | groupBody => exact groupBody_checks hcode h hstop hr
  | walk q w =>
    cases q with
    | mean =>
      exact walk_checks h (hwalk .mean) hstop (meanBody_checks h)
        (fun r pointer b hb hr => ⟨pointer, b, hb, hr⟩) w r hr
    | variance =>
      exact walk_checks h (hwalk .variance) hstop (varianceBody_checks h)
        (fun r pointer b hb hr => ⟨pointer, b, hb, hr⟩) w r hr
    | normalize =>
      exact walk_checks h (hwalk .normalize) hstop (normalizeBody_checks h hstorage)
        (fun r pointer b hb hr => ⟨pointer, b, hb, hr⟩) w r hr
  | centre => exact centre_checks hcode hr
  | spread => exact spread_checks hcode hr
  | groupLatch => exact groupLatch_checks hcode (by omega) hr
  | done => exact answer_checks rfl

end

theorem call_checks {p : Parameters} {storage : ValueType} {code : Routine Label Value}
    (hcode : code.block = block p storage) (hentry : code.entry = .entry) (h : p.Accepted)
    (hstorage : storageType? p.dstType = some storage) {data start length : UInt64}
    (hslice : start.toNat + length.toNat ≤ p.split.batch) {f : Frame Label Value}
    (hf : code.enter .empty code.entry [.i64 data, .i64 start, .i64 length] = .running f) :
    ChecksBounds code p data start.toNat (start.toNat + length.toNat) f.terminator f.pending f.registers := by
  have hr : Assertion p data start.toNat (start.toNat + length.toNat) .entry
      (((Registers.empty.set .data (.i64 data)).set .start (.i64 start)).set .length (.i64 length)) := by
    refine ⟨?_, ?_, ?_⟩ <;> simp [Registers.get?_set, Word.ofNat]
  have hbegin := block_checks hcode h hstorage (Nat.le_add_right _ _) hslice .entry _ hr
  rw [hcode] at hbegin
  rw [hentry, Routine.enter, hcode] at hf
  cases hf
  exact hbegin

/-- **Every instruction of a call whose slice is in range is in bounds.** Indices and byte offsets are
the exact ones, and each load and store is of an element of its buffer. -/
theorem call_inBounds {p : Parameters} {name convention : String} {code : Routine Label Value}
    (hcode : p.routine? name convention .i64 = .ok code) {data start length : UInt64}
    (hslice : start.toNat + length.toNat ≤ p.split.batch) {f : Frame Label Value}
    (hf : code.Reaches (code.enter .empty code.entry [.i64 data, .i64 start, .i64 length]) f)
    {i : Instruction Value} {rest : List (Instruction Value)} (hi : f.pending = i :: rest) :
    InBounds p data f.registers i := by
  obtain ⟨h, storage, hstorage, hcode⟩ := Parameters.routine?_eq_ok_iff.mp hcode
  have hblock : code.block = block p storage := by rw [hcode]
  have hentry : code.entry = .entry := by rw [hcode]
  exact Routine.Reaches.fine_head (block_checks hblock h hstorage (Nat.le_add_right _ _) hslice)
    (fun _ => trivial) hf (fun _ hg => call_checks hblock hentry h hstorage hslice hg) hi

/-- The last element of a small case in the first walk: its place is seven, and its byte offset is formed. -/
theorem call_inBounds_pair : ∃ code f rest, pair.routine? "pair" "system_v" .i64 = .ok code ∧
    code.Reaches (code.enter .empty code.entry [.i64 0x1000, .i64 1, .i64 1]) f ∧
    f.pending = .set (.bytes (.source .mean)) (.integerImm .shl .i64 (.walk .mean .element) 2) :: rest ∧
    f.registers.get? (.walk .mean .element) = some (.i64 7) ∧
    (Operation.integerImm .shl .i64 (.walk .mean .element) 2).Computes f.registers 28 := by
  obtain ⟨code, hcode⟩ := Parameters.accepted_iff.mp pair_accepted
  obtain ⟨n, seen, t, hrun, -, hmapped⟩ := exists_call_runs hcode (Nat.le_refl _) 0x1000 1 1
    (Memory.ofCells pairCells)
  obtain ⟨-, rfl⟩ :=
    hmapped pairPointer (by decide) pointersAt_pair (by decide) (holds_pair.buffersMapped (by decide))
  obtain ⟨f, hreach, hshown⟩ := hrun.exists_reaches
    (by decide : elementVisit pair.split .mean 1 3 ∈ groupsVisits pair.split 1 1)
  obtain ⟨-, storage, hstorage, rfl⟩ := eq_of_routine? hcode
  have hwellFormed := (certified (p := pair) (hstorage.imp And.left And.left) "pair" "system_v").wellFormed
  obtain ⟨l, k, hf⟩ := hwellFormed.at_of_reaches rfl (hwellFormed.start_sound rfl) hreach
  obtain ⟨hpending, helement⟩ := pending_of_visit? rfl hf hshown
  refine ⟨_, f, _, hcode, hreach, hpending, helement, ?_⟩
  rcases call_inBounds hcode (by decide) hreach hpending with ⟨x, hx⟩ | haddress
  · have hnumber : f.registers.number? (.walk .mean .element) = some 7 := by
      rw [Registers.number?, helement]
      rfl
    have hoffset := hx.unbounded?
    rw [Operation.unbounded?, hnumber] at hoffset
    obtain rfl : 28 = x := Int.ofNat.inj (Option.some.inj hoffset)
    exact hx
  · cases haddress

end AxisNorm.Normalization
