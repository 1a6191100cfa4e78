import AxisNorm.Proofs.Code.Operands
import AxisNorm.Proofs.Normalization.Addressing
import AxisNorm.Proofs.Normalization.Buffers

/-!
# The code of a kernel is well formed

Extents and addresses are immediates, and nothing that makes code well formed depends on immediates. So it is
enough to check one routine for each way to scale and each way to store.

* `dominators`: the blocks through which all ways to a block go.
* `blank_block`: but for immediates there is one block for each label.
* `immediates_block`: the immediates of a block, extents among them as they are.
* `routine_wellFormed`: **the code for any parameters is well formed.**
* `next_ne_badOperand`: **no step of a call has a bad operand**, whatever memory holds.
-/

namespace AxisNorm.Normalization

open Code

/-! ## Dominators -/

/-- The blocks of a walk on all ways from its start to one of them. -/
def WalkLabel.dominators : WalkLabel → List WalkLabel
  | .outerHeader => [.outerHeader]
  | .outerBody => [.outerBody, .outerHeader]
  | .innerHeader => [.innerHeader, .outerBody, .outerHeader]
  | .innerBody => [.innerBody, .innerHeader, .outerBody, .outerHeader]
  | .outerLatch => [.outerLatch, .innerHeader, .outerBody, .outerHeader]

/-- The blocks on all ways to the first walk over a group. -/
def groupDominators : List Label := [.groupBody, .groupHeader, .setup, .pointers, .entry]

/-- The blocks on all ways to a walk: the walks before it have been left at their outer headers. -/
def Pass.dominators : Pass → List Label
  | .mean => groupDominators
  | .variance => [.centre, .walk .mean .outerHeader] ++ groupDominators
  | .normalize =>
    [.spread, .walk .variance .outerHeader, .centre, .walk .mean .outerHeader] ++ groupDominators

/-- The blocks on all ways to a block, itself included. -/
def dominators : Label → List Label
  | .entry => [.entry]
  | .outOfBounds => [.outOfBounds, .entry]
  | .pointers => [.pointers, .entry]
  | .nullPointer => [.nullPointer, .pointers, .entry]
  | .setup => [.setup, .pointers, .entry]
  | .groupHeader => [.groupHeader, .setup, .pointers, .entry]
  | .groupBody => groupDominators
  | .walk pass label => label.dominators.map (.walk pass) ++ pass.dominators
  | .centre => .centre :: .walk .mean .outerHeader :: Pass.mean.dominators
  | .spread => .spread :: .walk .variance .outerHeader :: Pass.variance.dominators
  | .groupLatch => .groupLatch :: .walk .normalize .outerHeader :: Pass.normalize.dominators
  | .done => [.done, .groupHeader, .setup, .pointers, .entry]

/-! ## Control flow -/

def WalkLabel.place : WalkLabel → Nat
  | .outerHeader => 0
  | .outerBody => 1
  | .innerHeader => 2
  | .innerBody => 3
  | .outerLatch => 4

/-- The place of a block in the layout. -/
def Label.place : Label → Nat
  | .entry => 0
  | .outOfBounds => 1
  | .pointers => 2
  | .nullPointer => 3
  | .setup => 4
  | .groupHeader => 5
  | .groupBody => 6
  | .walk .mean label => 7 + label.place
  | .centre => 12
  | .walk .variance label => 13 + label.place
  | .spread => 18
  | .walk .normalize label => 19 + label.place
  | .groupLatch => 24
  | .done => 25

theorem idxOf_layout (l : Label) : layout.idxOf l = l.place := by
  cases l with
  | walk pass label => cases pass <;> cases label <;> decide
  | _ => decide

/-- Where a walk goes on when it is over. -/
def Pass.after : Pass → Label
  | .mean => .centre
  | .variance => .spread
  | .normalize => .groupLatch

def successors : Label → List Label
  | .entry => [.pointers, .outOfBounds]
  | .outOfBounds | .nullPointer | .done => []
  | .pointers => [.nullPointer, .setup]
  | .setup | .groupLatch => [.groupHeader]
  | .groupHeader => [.groupBody, .done]
  | .groupBody => [.walk .mean .outerHeader]
  | .walk pass .outerHeader => [.walk pass .outerBody, pass.after]
  | .walk pass .outerBody | .walk pass .innerBody => [.walk pass .innerHeader]
  | .walk pass .innerHeader => [.walk pass .innerBody, .walk pass .outerLatch]
  | .walk pass .outerLatch => [.walk pass .outerHeader]
  | .centre => [.walk .variance .outerHeader]
  | .spread => [.walk .normalize .outerHeader]

theorem successors_block (p : Parameters) (storage : ValueType) (l : Label) :
    (block p storage l).successors = successors l := by
  cases l with
  | walk pass label => cases pass <;> cases label <;> rfl
  | _ => rfl

/-- From the last block of each loop to its header. -/
def backEdges : List (Label × Label) :=
  [Pass.mean, .variance, .normalize].flatMap
    (fun pass =>
      [(.walk pass .innerBody, .walk pass .innerHeader), (.walk pass .outerLatch, .walk pass .outerHeader)]) ++
    [(.groupLatch, .groupHeader)]

/-! ## But for immediates -/

theorem blank_block {p q : Parameters} (h : q.affine = p.affine) (storage : ValueType) (l : Label) :
    (block q storage l).blank = (block p storage l).blank := by
  cases l with
  | walk pass label =>
    cases pass <;> cases label <;> simp [block, walkBlock, Block.blank, Instruction.blank, Operation.blank, h]
  | _ =>
    simp [block, entry, pointers, setup, groupBody, centre, spread, walkBounds, Block.blank, Instruction.blank,
      Operation.blank, h]

/-- The ways to store. -/
def Stores (storage : ValueType) (type : ElementType) : Prop :=
  storage = .f32 ∧ type = .float32 ∨ storage = .i16 ∧ type = .bfloat16

theorem Stores.eq {storage storage' : ValueType} {type : ElementType} (h : Stores storage type)
    (h' : Stores storage' type) : storage' = storage := by
  rcases h with ⟨rfl, rfl⟩ | ⟨rfl, rfl⟩
  · exact (h'.resolve_right fun h => nomatch h.2).1
  · exact (h'.resolve_left fun h => nomatch h.2).1

/-- Code for no tensor at all. -/
def skeleton (affine : Bool) (storage : ValueType) : Routine Label Value :=
  ⟨"", "", [.i32], .entry, block ⟨⟨0, 0, 0⟩, .float32, .float32, affine, ⟨0, 0, 0⟩⟩ storage, layout⟩

section

variable (affine : Bool) {storage : ValueType} (h : storage = .f32 ∨ storage = .i16)

include h

theorem destinations_skeleton : ∀ l ∈ layout, ∀ x ∈ ((skeleton affine storage).block l).terminator.destinations,
    x.1 ∈ layout ∧ x.2.length = ((skeleton affine storage).block x.1).parameters.length := by
  cases affine <;> rcases h with rfl | rfl <;> decide +kernel

theorem typed_skeleton : ∀ l ∈ layout, ((skeleton affine storage).block l).typed := by
  cases affine <;> rcases h with rfl | rfl <;> decide +kernel

theorem resolved_skeleton : ∀ l ∈ layout,
    Routine.Resolved ((skeleton affine storage).known dominators l) ((skeleton affine storage).profile l) := by
  cases affine <;> rcases h with rfl | rfl <;> decide +kernel

/-- The code that scales and rounds defines all that other code defines, in the same order. -/
theorem unique_skeleton :
    (layout.flatMap fun l => ((skeleton affine storage).block l).defined.map (·.1)).Nodup := by
  have hmost : (layout.flatMap fun l => ((skeleton true .i16).block l).defined.map (·.1)).Nodup := by decide +kernel
  refine List.Nodup.sublist (List.isSublist_iff_sublist.mp ?_) hmost
  cases affine <;> rcases h with rfl | rfl <;> decide +kernel

end

theorem dominators_edge : ∀ l ∈ layout, ∀ l' ∈ successors l, ∀ d ∈ dominators l', d = l' ∨ d ∈ dominators l := by
  decide +kernel

theorem successors_earlier : ∀ l ∈ layout, l = .entry ∨ ∃ l' ∈ layout, l'.place < l.place ∧ l ∈ successors l' := by
  decide +kernel

theorem backEdges_eq :
    (layout.flatMap fun l => ((successors l).filter (·.place ≤ l.place)).map (l, ·)) = backEdges := by
  decide +kernel

theorem backEdges_closed : ∀ e ∈ backEdges, e.2 ∈ dominators e.1 ∧ ∀ l ∈ layout, ∀ l' ∈ successors l, l' ≠ e.2 →
    e.2.place ≤ l'.place ∧ l'.place ≤ e.1.place → e.2.place ≤ l.place ∧ l.place ≤ e.1.place := by
  decide +kernel

theorem place_eq {r : Routine Label Value} (h : r.layout = layout) (l : Label) : r.place l = l.place := by
  rw [Routine.place, h, idxOf_layout]

theorem backEdges_block (p : Parameters) (storage : ValueType) (name convention : String) :
    Routine.backEdges ⟨name, convention, [.i32], .entry, block p storage, layout⟩ = backEdges := by
  have hplace (l : Label) : Routine.place ⟨name, convention, [.i32], .entry, block p storage, layout⟩ l = l.place :=
    place_eq rfl l
  simp only [Routine.backEdges, successors_block, hplace, backEdges_eq]

theorem certified {p : Parameters} {storage : ValueType} (h : storage = .f32 ∨ storage = .i16)
    (name convention : String) :
    Routine.Certified ⟨name, convention, [.i32], .entry, block p storage, layout⟩ dominators := by
  generalize hr : (⟨name, convention, [.i32], .entry, block p storage, layout⟩ : Routine Label Value) = r
  have hlayout : r.layout = layout := hr ▸ rfl
  have hentry : r.entry = .entry := hr ▸ rfl
  have hresults : r.results = (skeleton p.affine storage).results := hr ▸ rfl
  have hblock (l : Label) : (r.block l).blank = ((skeleton p.affine storage).block l).blank :=
    hr ▸ blank_block (by rfl) storage l
  have hsuccessors (l : Label) : (r.block l).successors = successors l := hr ▸ successors_block p storage l
  have hbackEdges : r.backEdges = backEdges := hr ▸ backEdges_block p storage name convention
  exact {
    first := by
      rw [hlayout, hentry]
      rfl
    nodup := hlayout ▸ nodup_layout
    destinations := by
      simpa only [hlayout, Routine.terminator_congr hblock, Routine.parameters_congr hblock] using
        destinations_skeleton p.affine h
    typed := by simpa only [hlayout, Routine.typed_congr hblock] using typed_skeleton p.affine h
    results := by
      rw [hresults]
      rfl
    root := by simp [hentry, dominators]
    edges := by simpa only [hlayout, hsuccessors] using dominators_edge
    earlier := by simpa only [hlayout, hentry, place_eq hlayout, hsuccessors] using successors_earlier
    resolved := by
      simpa only [hlayout, Routine.known_congr hresults hblock, Routine.profile_congr hresults hblock] using
        resolved_skeleton p.affine h
    unique := by
      simpa only [hlayout, Routine.defined_congr hresults hblock] using unique_skeleton p.affine h
    loops := by simpa only [hbackEdges, hlayout, place_eq hlayout, hsuccessors] using backEdges_closed }

/-! ## Immediates -/

/-- Where an immediate comes from. -/
inductive Immediate where
  | fixed (value : Int)
  | outer
  | batch
  | inner
  | address (buffer : ConstantBuffer)

/-- Extents and addresses are 64 bits read as a signed number. -/
def Immediate.value (p : Parameters) : Immediate → Int
  | .fixed value => value
  | .outer => immediate p.split.outer
  | .batch => immediate p.split.batch
  | .inner => immediate p.split.inner
  | .address buffer => immediate (p.constants.of buffer)

/-- The extent that an immediate is taken from. -/
def Immediate.extent? (s : Split) : Immediate → Option Nat
  | .outer => some s.outer
  | .batch => some s.batch
  | .inner => some s.inner
  | _ => none

theorem Immediate.value_extent {p : Parameters} (hp : p.Accepted) {x : Immediate} {n : Nat}
    (hx : x.extent? p.split = some n) : x.value p = n ∧ 0 < n := by
  cases x with
  | outer =>
    cases hx
    exact ⟨immediate_eq hp.outer_lt, hp.outer⟩
  | batch =>
    cases hx
    exact ⟨immediate_eq hp.batch_lt, hp.batch⟩
  | inner =>
    cases hx
    exact ⟨immediate_eq hp.inner_lt, hp.inner⟩
  | fixed value => cases hx
  | address buffer => cases hx

/-- The immediates of the code for one element. -/
def elementImmediates (affine : Bool) (type : ElementType) : Pass → List Immediate
  | .mean | .variance => [.fixed 2]
  | .normalize => [.fixed 2] ++ (if affine then [.fixed 2, .fixed 2] else []) ++
    if type = .bfloat16 then [.fixed 16, .fixed 1, .fixed 0x7fff, .fixed 16, .fixed 1] else [.fixed 2]

/-- The immediates of a block, in their order. -/
def immediates (affine : Bool) (type : ElementType) : Label → List Immediate
  | .entry => [.batch]
  | .outOfBounds => [.fixed 2]
  | .pointers => (Role.used affine).map fun _ => .fixed 0
  | .nullPointer => [.fixed 1]
  | .setup => [.address .reciprocal, .address .epsilon, .address .one]
  | .groupHeader => []
  | .groupBody => [.fixed 2, .fixed 2, .fixed 2, .fixed 0, .outer]
  | .walk _ .outerHeader | .walk _ .innerHeader => []
  | .walk _ .outerBody => [.batch, .inner, .inner, .inner]
  | .walk pass .innerBody => elementImmediates affine type pass ++ [.fixed 1]
  | .walk _ .outerLatch => [.fixed 1]
  | .centre | .spread => [.fixed 0, .outer]
  | .groupLatch => [.fixed 1]
  | .done => [.fixed 0]

theorem immediates_block (p : Parameters) {storage : ValueType} {type : ElementType}
    (h : Stores storage type) (l : Label) :
    (block p storage l).immediates = (immediates p.affine type l).map (·.value p) := by
  obtain ⟨split, src, dst, affine, constants⟩ := p
  cases l with
  | walk pass label =>
    rcases h with ⟨rfl, rfl⟩ | ⟨rfl, rfl⟩ <;> cases affine <;> cases pass <;> cases label <;> rfl
  | pointers => cases affine <;> rfl
  | _ => rfl

/-! ## All together -/

theorem eq_of_routine? {p : Parameters} {name convention : String} {pointerType : ValueType}
    {code : Routine Label Value} (hcode : p.routine? name convention pointerType = .ok code) :
    p.Accepted ∧ ∃ storage, Stores storage p.dstType ∧
      code = ⟨name, convention, [.i32], .entry, block p storage, layout⟩ := by
  obtain rfl := Parameters.pointerType_eq hcode
  obtain ⟨hp, storage, hstorage, hcode⟩ := Parameters.routine?_eq_ok_iff.mp hcode
  refine ⟨hp, storage, ?_, hcode⟩
  cases htype : p.dstType <;> rw [htype] at hstorage <;> cases hstorage
  · exact .inr ⟨rfl, rfl⟩
  · exact .inl ⟨rfl, rfl⟩

theorem returns_block (p : Parameters) (storage : ValueType) (name convention : String) :
    Routine.returns ⟨name, convention, [.i32], .entry, block p storage, layout⟩ = [some 2, some 1, some 0] := rfl

/-- **The code for any parameters is well formed**: blocks end once, lead to blocks that take what they are given,
are all reached, and use what is defined before with the right type. The back edges are those of the seven
loops, and the returns answer the three statuses. Immediates that come from extents are those extents. The code
for parameters that scale and store alike differs in immediates alone, and in these only where extents and
addresses differ. -/
theorem routine_wellFormed {p : Parameters} {name convention : String} {pointerType : ValueType}
    {code : Routine Label Value} (hcode : p.routine? name convention pointerType = .ok code) :
    code.WellFormed ∧ code.backEdges = backEdges ∧ code.returns = [some 2, some 1, some 0] ∧
      (∀ l ∈ code.layout, ∃ steps, (code.block l).lines = steps ++ [.last (code.block l).terminator] ∧
        ∀ x ∈ steps, x.isLast = false) ∧
      (∀ l ∈ code.layout, (code.block l).immediates = (immediates p.affine p.dstType l).map (·.value p)) ∧
      (∀ x n, Immediate.extent? p.split x = some n → x.value p = n ∧ 0 < n) ∧
      ∀ (q : Parameters) (name' convention' : String) (pointerType' : ValueType) (code' : Routine Label Value),
        q.routine? name' convention' pointerType' = .ok code' → q.affine = p.affine → q.dstType = p.dstType →
          code'.layout = code.layout ∧ ∀ l ∈ code.layout, (code'.block l).blank = (code.block l).blank ∧
            (code'.block l).immediates = (immediates p.affine p.dstType l).map (·.value q) := by
  obtain ⟨hp, storage, hstorage, rfl⟩ := eq_of_routine? hcode
  have hcertified := certified (p := p) (hstorage.imp And.left And.left) name convention
  refine ⟨hcertified.wellFormed, backEdges_block p storage name convention, returns_block p storage name convention,
    fun _ _ => Block.lines_eq_append_last _, fun l _ => immediates_block p hstorage l,
    fun x n hx => Immediate.value_extent hp hx,
    fun q name' convention' pointerType' code' hcode' haffine htype => ?_⟩
  obtain ⟨-, storage', hstorage', rfl⟩ := eq_of_routine? hcode'
  rw [htype] at hstorage'
  obtain rfl := hstorage.eq hstorage'
  refine ⟨rfl, fun l _ => ⟨blank_block haffine _ l, ?_⟩⟩
  rw [← haffine]
  exact immediates_block q hstorage l

/-- One group of as many elements as there can be. -/
def longest : Parameters :=
  { pair with split := ⟨1, 1, countLimit⟩, constants := ⟨0x4000, 0x5000, 2 ^ 64 - 64⟩ }

theorem longest_accepted : longest.Accepted where
  src := rfl
  dst := ⟨.f32, rfl⟩
  outer := by decide
  batch := by decide
  inner := by decide
  count := by decide

/-- The code for a small case, and for the largest extent and an address that is negative when read as signed. -/
theorem routine_wellFormed_pair : ∃ code code', pair.routine? "pair" "system_v" .i64 = .ok code ∧
    longest.routine? "longest" "system_v" .i64 = .ok code' ∧ code.WellFormed ∧ code'.WellFormed ∧
    (code'.block .entry).blank = (code.block .entry).blank ∧
    (code.block (.walk .mean .outerBody)).immediates = [2, 2, 2, 2] ∧
    (code'.block (.walk .mean .outerBody)).immediates = [1, 2 ^ 61 - 1, 2 ^ 61 - 1, 2 ^ 61 - 1] ∧
    (code'.block .setup).immediates = [0x4000, 0x5000, -64] := by
  obtain ⟨code, hcode⟩ := Parameters.accepted_iff.mp pair_accepted
  obtain ⟨code', hcode'⟩ := Parameters.accepted_iff.mp longest_accepted
  obtain ⟨hwellFormed, -, -, -, himmediates, -, hsame⟩ := routine_wellFormed hcode
  obtain ⟨-, hblocks⟩ := hsame _ _ _ _ _ hcode' rfl rfl
  have hall (l : Label) : l ∈ code.layout := by
    obtain ⟨-, storage, -, rfl⟩ := eq_of_routine? hcode
    exact mem_layout l
  exact ⟨code, code', hcode, hcode', hwellFormed, (routine_wellFormed hcode').1, (hblocks _ (hall _)).1,
    (himmediates _ (hall _)).trans (by decide +kernel), (hblocks _ (hall _)).2.trans (by decide +kernel),
    (hblocks _ (hall _)).2.trans (by decide +kernel)⟩

/-- **No step of a call has a bad operand**, whatever memory holds at each step. -/
theorem next_ne_badOperand {p : Parameters} {name convention : String} {pointerType : ValueType}
    {code : Routine Label Value} (hcode : p.routine? name convention pointerType = .ok code)
    (data start length : UInt64) {f : Frame Label Value}
    (hreach : code.Reaches (code.enter .empty code.entry [.i64 data, .i64 start, .i64 length]) f) (m : Memory) :
    f.next code m ≠ .trapped .badOperand := by
  obtain ⟨-, storage, hstorage, rfl⟩ := eq_of_routine? hcode
  have hcertified := certified (p := p) (hstorage.imp And.left And.left) name convention
  exact hcertified.wellFormed.next_ne_badOperand rfl rfl hreach m

end AxisNorm.Normalization
