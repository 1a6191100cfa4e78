import AxisNorm.Proofs.Code.Footprint
import AxisNorm.Proofs.Normalization.Buffers
import AxisNorm.Proofs.Normalization.InBounds

/-!
# The bytes that a call sees

* `slots`, `inputs`, `results`: the pointers in use, the elements that are loaded, and those that are stored.
* `Pinned`: what the registers for pointers hold at every step (`block_pinned`).
* `call_ignores`: **a call sees the pointers in use and the elements of its buffers, and nothing else.**
-/

namespace AxisNorm.Normalization

open Code Memory

/-- If the buffer of an access is found by a pointer, the pointer is in use. -/
def Access.InUse (affine : Bool) (a : Access) : Prop :=
  ∀ role, a.base = .pointer role → role ∈ Role.used affine

section

variable (p : Parameters) (pointer : Role → UInt64) (data : UInt64)

/-- The address of the buffer of an access. -/
def Access.address : Access → UInt64
  | .constant c => UInt64.ofNat (p.constants.of c)
  | .source _ => pointer .src
  | .alpha => pointer .alpha
  | .beta => pointer .beta

/-- The bytes of the pointers in use. -/
def slots : Set UInt64 :=
  {c | ∃ role ∈ Role.used p.affine, c ∈ span (data + UInt64.ofNat (8 * role.index)) 8}

/-- The bytes of the elements that are loaded. -/
def inputs : Set UInt64 :=
  {c | ∃ a : Access, a.InUse p.affine ∧ ∃ e < a.count p.split, c ∈ elementSpan (a.address p pointer) 4 e}

/-- The bytes of the destination. -/
def results : Set UInt64 :=
  {c | ∃ e < p.split.outer * p.split.batch * p.split.inner, c ∈ resultSpan p pointer e}

/-- The registers for pointers hold pointers in use, and the address of the runtime data is in its own. -/
structure Pinned (r : Registers Value) : Prop where
  data : r.get? .data = some (.i64 data)
  pointer : ∀ role w, r.get? (.pointer role) = some w → role ∈ Role.used p.affine ∧ w = .i64 (pointer role)

end

variable {p : Parameters} {pointer : Role → UInt64} {data : UInt64} {r r' : Registers Value}

/-! ## Registers for pointers -/

/-- What the caller provides: the address of the runtime data, and the pointers in it. -/
def Value.fromCaller : Value → Bool
  | .data | .pointer _ => true
  | _ => false

/-- What the caller provides is not computed; a pointer is loaded from its own slot. -/
def KeepsPinned (p : Parameters) : Instruction Value → Prop
  | .set v _ => v.fromCaller = false
  | .load v type address offset => v.fromCaller = false ∨
      ∃ role ∈ Role.used p.affine, .load v type address offset = loadPointer role
  | .store .. => True

namespace Pinned

theorem of_agree (h : Pinned p pointer data r)
    (ha : Registers.AgreeOn (fun v => v.fromCaller = true) r r') : Pinned p pointer data r' :=
  ⟨(ha .data rfl).trans h.data, fun role w hw => h.pointer role w ((ha (.pointer role) rfl).symm.trans hw)⟩

theorem set {v : Value} (h : Pinned p pointer data r) (hv : v.fromCaller = false) (w : Word) :
    Pinned p pointer data (r.set v w) :=
  h.of_agree (.set (.refl _ _) (by rw [hv]; exact Bool.false_ne_true) w)

theorem setPointer {role : Role} (h : Pinned p pointer data r) (hrole : role ∈ Role.used p.affine) :
    Pinned p pointer data (r.set (.pointer role) (.i64 (pointer role))) := by
  refine ⟨(Registers.get?_set_of_ne (by simp) _ _).trans h.data, fun role' w hw => ?_⟩
  by_cases hsame : role = role'
  · subst hsame
    rw [Registers.get?_set_self] at hw
    exact ⟨hrole, (Option.some.inj hw).symm⟩
  · rw [Registers.get?_set_of_ne (by simpa using hsame)] at hw
    exact h.pointer role' w hw

end Pinned

section

variable {code : Routine Label Value} {storage : ValueType} {e : Terminator Label Value}

/-- What is left of a block keeps the registers for pointers, and so does what follows it. -/
abbrev ChecksPinned (code : Routine Label Value) (p : Parameters) (pointer : Role → UInt64) (data : UInt64) :
    Terminator Label Value → List (Instruction Value) → Registers Value → Prop :=
  code.Checks (PointersAt p pointer data) (fun r _ => Pinned p pointer data r)
    (fun _ r => Pinned p pointer data r)

theorem body_pinned {body : List (Instruction Value)} (hbody : ∀ i ∈ body, KeepsPinned p i)
    (hend : ∀ r, Pinned p pointer data r → ChecksPinned code p pointer data e [] r)
    (hr : Pinned p pointer data r) : ChecksPinned code p pointer data e body r := by
  induction body generalizing r with
  | nil => exact hend r hr
  | cons i rest ih =>
    have hi := hbody i List.mem_cons_self
    have hrest (r : Registers Value) (hr : Pinned p pointer data r) :
        ChecksPinned code p pointer data e rest r := ih (fun j hj => hbody j (List.mem_cons_of_mem i hj)) hr
    cases i with
    | set v op => exact .set hr fun w _ => hrest _ (hr.set hi w)
    | load v type address offset =>
      refine .load hr fun m a n w hm ha hn hw => hrest _ ?_
      rcases hi with hv | ⟨role, hrole, hload⟩
      · exact hr.set hv w
      · cases hload
        obtain rfl : data + UInt64.ofNat (8 * role.index) = a := by
          simpa [Registers.address?, hr.data] using ha
        obtain rfl : n = (pointer role).toNat := Option.some.inj (hn.symm.trans (hm role hrole))
        obtain rfl : Word.i64 (UInt64.ofNat (pointer role).toNat) = w := Option.some.inj hw
        rw [UInt64.ofNat_toNat]
        exact hr.setPointer hrole
    | store type v address offset => exact .store hr (hrest r hr)

attribute [local simp] KeepsPinned Value.fromCaller

theorem parameters_keep {l : Label} (hl : l ≠ .entry) :
    ∀ x ∈ (block p storage l).parameters, x.1.fromCaller = false := by
  cases l with
  | entry => exact absurd rfl hl
  | groupHeader => simp [block, groupHeader]
  | walk q w => cases q <;> cases w <;> simp [block, walkBlock, carried]
  | _ => intro x hx; cases hx

theorem jump_ne_entry {l target : Label} {arguments : List Value}
    (h : (block p storage l).terminator = .jump target arguments) : target ≠ .entry := by
  rintro rfl
  cases l with
  | walk q w => cases q <;> cases w <;> cases h
  | _ => cases h

theorem nullTests_keep (roles : List Role) (soFar : Value) :
    ∀ i ∈ nullTests soFar roles, KeepsPinned p i := by
  induction roles generalizing soFar with
  | nil => intro i hi; cases hi
  | cons role roles ih => exact List.forall_mem_cons.mpr ⟨rfl, List.forall_mem_cons.mpr ⟨rfl, ih _⟩⟩

theorem pointers_keep : ∀ i ∈ (pointers p.affine).body, KeepsPinned p i := by
  refine List.forall_mem_append.mpr ⟨fun i hi => ?_, List.forall_mem_cons.mpr ⟨rfl, nullTests_keep _ _⟩⟩
  obtain ⟨role, hrole, rfl⟩ := List.mem_map.mp hi
  exact .inr ⟨role, hrole, rfl⟩

theorem normalizeBody_keeps : ∀ i ∈ normalizeBody p.affine storage, KeepsPinned p i := by
  have hstore (y : Value) : ∀ i ∈ storeResult storage y, KeepsPinned p i := by
    unfold storeResult
    split <;> simp [roundToHalf, dstAddress]
  have haffine : ∀ i ∈ if p.affine then affineStep else [], KeepsPinned p i := by
    split <;> simp [affineStep, loadSingle]
  have hload : ∀ i ∈ loadDeviation .normalize ++
      [.set .normal (.float .mul (.walk .normalize .deviation) .inverse)], KeepsPinned p i := by
    simp [loadDeviation, loadElement, loadSingle]
  exact List.forall_mem_append.mpr ⟨List.forall_mem_append.mpr ⟨hload, haffine⟩, hstore _⟩

theorem walkBlock_keeps {q : Pass} {body : List (Instruction Value)} {after : Label}
    (hbody : ∀ i ∈ body, KeepsPinned p i) (w : WalkLabel) :
    ∀ i ∈ (walkBlock p.split q body after w).body, KeepsPinned p i := by
  cases w with
  | innerBody =>
    refine List.forall_mem_append.mpr ⟨List.forall_mem_append.mpr ⟨?_, hbody⟩, ?_⟩ <;> simp
  | _ => simp [walkBlock]

theorem body_keeps (l : Label) : ∀ i ∈ (block p storage l).body, KeepsPinned p i := by
  cases l with
  | pointers => exact pointers_keep
  | walk q w =>
    cases q with
    | mean =>
      refine walkBlock_keeps ?_ w
      simp [meanBody, loadElement, loadSingle]
    | variance =>
      refine walkBlock_keeps ?_ w
      simp [varianceBody, loadDeviation, loadElement, loadSingle]
    | normalize => exact walkBlock_keeps normalizeBody_keeps w
  | _ => simp [block, entry, answer, setup, groupHeader, groupBody, loadSingle, walkBounds, centre, spread,
      groupLatch]

theorem block_pinned (hcode : code.block = block p storage) (l : Label) (r : Registers Value)
    (hr : Pinned p pointer data r) :
    ChecksPinned code p pointer data (code.block l).terminator (code.block l).body r := by
  rw [hcode]
  refine body_pinned (body_keeps l) (fun r hr => ?_) hr
  cases hend : (block p storage l).terminator with
  | jump target arguments =>
    refine .jump fun words r' _ hr' => hr.of_agree fun v hv => ?_
    rw [hcode] at hr'
    refine Registers.bind?_agreeOn hr' v fun x hx hxv => ?_
    have hx' := parameters_keep (jump_ne_entry hend) x hx
    rw [hxv, hv] at hx'
    cases hx'
  | branch condition ifTrue ifFalse => exact .branch_any hr hr
  | ret v => exact .ret

end

/-! ## Accesses -/

section

variable {i : Instruction Value}

theorem Pinned.base? {a : Access} {base : UInt64} (hr : Pinned p pointer data r)
    (h : a.base? p r = some (.i64 base)) : a.InUse p.affine ∧ a.address p pointer = base := by
  cases a with
  | constant c =>
    cases h
    exact ⟨fun role hbase => (by cases hbase), rfl⟩
  | _ =>
    obtain ⟨hrole, hw⟩ := hr.pointer _ _ h
    cases hw
    exact ⟨fun role hbase => (by cases hbase; exact hrole), rfl⟩

theorem stored_subset (hi : InBounds p data r i) (hr : Pinned p pointer data r) :
    i.stored r ⊆ results p pointer := by
  cases i with
  | set v op => exact Set.empty_subset _
  | load v type address offset => exact Set.empty_subset _
  | store type v address offset =>
    obtain ⟨htype, base, e, hbase, he, -, haddress⟩ := hi
    obtain ⟨-, hw⟩ := hr.pointer .dst _ hbase
    cases hw
    rintro c ⟨a, ha, hc⟩
    obtain rfl := Option.some.inj (haddress.symm.trans ha)
    rw [htype] at hc
    exact ⟨e, he, hc⟩

theorem bytes_subset (hi : InBounds p data r i) (hr : Pinned p pointer data r) :
    i.bytes r ⊆ slots p data ∪ (inputs p pointer ∪ results p pointer) := by
  cases i with
  | set v op => exact Set.empty_subset _
  | store type v address offset =>
    exact fun c hc => .inr (.inr (stored_subset (i := .store type v address offset) hi hr hc))
  | load v type address offset =>
    rintro c ⟨a, ha, hc⟩
    cases v with
    | pointer role =>
      obtain ⟨rfl, hrole, haddress⟩ := hi
      obtain rfl := Option.some.inj (haddress.symm.trans ha)
      exact .inl ⟨role, hrole, hc⟩
    | loaded access =>
      obtain ⟨rfl, base, e, hbase, he, -, haddress⟩ := hi
      obtain ⟨huse, rfl⟩ := hr.base? hbase
      obtain rfl := Option.some.inj (haddress.symm.trans ha)
      exact .inr (.inl ⟨access, huse, e, he, hc⟩)
    | _ => exact hi.elim

end

theorem PointersAt.of_changed {m m' : Memory} {region : Set UInt64} (h : PointersAt p pointer data m)
    (hc : ChangedIn region m m') (hd : Disjoint (slots p data) region) : PointersAt p pointer data m' := by
  intro role hrole
  rw [hc.load? fun c hcs => Set.disjoint_left.mp hd ⟨role, hrole, hcs⟩]
  exact h role hrole

/-- **A call sees the pointers in use and the elements of its buffers, and nothing else.** -/
theorem call_ignores {name convention : String} {code : Routine Label Value}
    (hcode : p.routine? name convention .i64 = .ok code) {start length : UInt64}
    (hslice : start.toNat + length.toNat ≤ p.split.batch)
    (hdata : Disjoint (slots p data) (results p pointer)) {seen : Set UInt64}
    (hseen : slots p data ∪ (inputs p pointer ∪ results p pointer) ⊆ seen) (steps : Nat) :
    (code.call steps [.i64 data, .i64 start, .i64 length]).Ignores fun m m' =>
      PointersAt p pointer data m ∧ Set.EqOn m.byte? m'.byte? seen := by
  obtain ⟨h, storage, hstorage, hcode⟩ := Parameters.routine?_eq_ok_iff.mp hcode
  have hblock : code.block = block p storage := by rw [hcode]
  have hentry : code.entry = .entry := by rw [hcode]
  -- Both hold of every frame: it is in bounds, and its registers for pointers hold those in use.
  refine Routine.resume_ignores (fun f =>
    ChecksBounds code p data start.toNat (start.toNat + length.toNat) f.terminator f.pending f.registers ∧
      ChecksPinned code p pointer data f.terminator f.pending f.registers) ?_ ?_ ?_ steps ?_
  · rintro f g m ⟨hbounds, hpinned⟩ hm hg
    exact ⟨.next (block_checks hblock h hstorage (Nat.le_add_right _ _) hslice) hbounds trivial hg,
      .next (fun l r hr => block_pinned hblock l r hr) hpinned hm hg⟩
  · rintro ⟨r, _, e⟩ i rest ⟨hbounds, hpinned⟩ rfl
    exact (bytes_subset hbounds.1 hpinned.1).trans hseen
  · rintro ⟨r, _, e⟩ i rest m m' ⟨hbounds, hpinned⟩ rfl hm hc
    exact hm.of_changed (hc.mono (stored_subset hbounds.1 hpinned.1)) hdata
  · intro f hf
    have hr : Pinned p pointer data
        (((Registers.empty.set .data (.i64 data)).set .start (.i64 start)).set .length (.i64 length)) := by
      refine ⟨by simp [Registers.get?_set], fun role w hw => ?_⟩
      simp only [Registers.get?_set, reduceCtorEq, if_false] at hw
      simp [Registers.get?, Registers.empty] at hw
    have hpinned := block_pinned hblock .entry _ hr
    refine ⟨call_checks hblock hentry h hstorage hslice hf, ?_⟩
    rw [hblock] at hpinned
    rw [hentry, Routine.enter, hblock] at hf
    cases hf
    exact hpinned

end AxisNorm.Normalization
