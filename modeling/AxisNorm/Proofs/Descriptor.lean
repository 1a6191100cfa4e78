import AxisNorm.Descriptor
import AxisNorm.Proofs.Epsilon
import AxisNorm.Proofs.Shape

/-!
# Descriptions that have a descriptor

* `Requirement`: the conditions on a description, in the order in which they are checked.
* `Operator.Meets`, `Operator.Reports`: when a condition is met, and which errors tell that it is not.
* `Operator.Checks`: a computation that checks some conditions, one after the other.
* `Descriptor.ofOperator_outcome`: **a description has a descriptor exactly if it meets all conditions,
  and otherwise the first that it does not meet is reported.**
-/

namespace AxisNorm

/-- The conditions on a description. -/
inductive Requirement where
  | kind
  | mode
  | tensorCount
  | srcShape
  | dstShape
  | srcType
  | dstType
  | factorCount (role : Role)
  | factorType (role : Role)
  | epsilon
  deriving DecidableEq, Repr

/-- The order in which the conditions are checked. -/
def Requirement.all : List Requirement :=
  [.kind, .mode, .tensorCount, .srcShape, .dstShape, .srcType, .dstType, .factorCount .alpha,
    .factorType .alpha, .factorCount .beta, .factorType .beta, .epsilon]

instance (shape : Shape) (axis : Nat) : Decidable (shape.Splits axis) :=
  decidable_of_iff (2 ≤ shape.length ∧ axis < shape.length ∧ (∀ d ∈ shape, 0 < d) ∧ shape.prod < sizeLimit)
    ⟨fun h => ⟨h.1, h.2.1, h.2.2.1, h.2.2.2⟩, fun h => ⟨h.rank, h.axis, h.pos, h.count⟩⟩

namespace Operator

variable (op : Operator)

/-- The number of elements in a group of a source: the product of its extents beside the batch axis. -/
def groupSize (src : Tensor) : Nat := (src.shape.eraseIdx op.batchAxis).prod

/-- The description meets a condition. Conditions on tensors that it does not have are met. -/
def Meets : Requirement → Prop
  | .kind => op.kind = .layernormBa
  | .mode => op.propagation = .forwardInference ∧ op.engine = .cpu
  | .tensorCount => op.tensors.length = 2 ∨ op.tensors.length = 4
  | .srcShape => ∀ src ∈ op.tensor? .src, src.shape.Splits op.batchAxis
  | .dstShape => ∀ src ∈ op.tensor? .src, ∀ dst ∈ op.tensor? .dst, dst.shape = src.shape
  | .srcType => ∀ src ∈ op.tensor? .src, src.type = .float32
  | .dstType => ∀ dst ∈ op.tensor? .dst, dst.type = .float32 ∨ dst.type = .bfloat16
  | .factorCount role => ∀ src ∈ op.tensor? .src, ∀ t ∈ op.tensor? role, t.shape.prod = op.groupSize src
  | .factorType role => ∀ t ∈ op.tensor? role, t.type = .float32
  | .epsilon => ∀ text ∈ op.attribute? epsilonAttribute, ∀ src ∈ op.tensor? .src,
      ∀ groups ∈ src.shape[op.batchAxis]?, Epsilon.Gives groups (Text.pieces ',' text.toList)

instance : DecidablePred op.Meets
  | .kind => inferInstanceAs (Decidable (_ = _))
  | .mode => inferInstanceAs (Decidable (_ ∧ _))
  | .tensorCount => inferInstanceAs (Decidable (_ ∨ _))
  | .srcShape => inferInstanceAs (Decidable (∀ src ∈ op.tensor? .src, src.shape.Splits op.batchAxis))
  | .dstShape => inferInstanceAs
      (Decidable (∀ src ∈ op.tensor? .src, ∀ dst ∈ op.tensor? .dst, dst.shape = src.shape))
  | .srcType => inferInstanceAs (Decidable (∀ src ∈ op.tensor? .src, src.type = .float32))
  | .dstType => inferInstanceAs
      (Decidable (∀ dst ∈ op.tensor? .dst, dst.type = .float32 ∨ dst.type = .bfloat16))
  | .factorCount role => inferInstanceAs (Decidable
      (∀ src ∈ op.tensor? .src, ∀ t ∈ op.tensor? role, t.shape.prod = op.groupSize src))
  | .factorType role => inferInstanceAs (Decidable (∀ t ∈ op.tensor? role, t.type = .float32))
  | .epsilon => inferInstanceAs (Decidable (∀ text ∈ op.attribute? epsilonAttribute,
      ∀ src ∈ op.tensor? .src, ∀ groups ∈ src.shape[op.batchAxis]?,
        Epsilon.Gives groups (Text.pieces ',' text.toList)))

/-- The errors that tell that a condition is not met. -/
inductive Reports : Requirement → DescriptorError → Prop
  | kind : Reports .kind (.unsupported (.kind op.kind))
  | mode : Reports .mode (.unsupported (.mode op.propagation op.engine))
  | tensorCount : Reports .tensorCount (.unsupported (.tensorCount op.tensors.length))
  | srcShape {src : Tensor} {cause : ShapeError} (hsrc : op.tensor? .src = some src)
    (hcause : src.shape.SplitFault op.batchAxis cause) : Reports .srcShape (.invalidShape cause)
  | dstShape {src dst : Tensor} (hsrc : op.tensor? .src = some src) (hdst : op.tensor? .dst = some dst) :
    Reports .dstShape (.invalidShape (.mismatch src.shape dst.shape))
  | srcType {src : Tensor} (hsrc : op.tensor? .src = some src) :
    Reports .srcType (.unsupported (.tensorType .src src.type))
  | dstType {dst : Tensor} (hdst : op.tensor? .dst = some dst) :
    Reports .dstType (.unsupported (.tensorType .dst dst.type))
  | factorCount {role : Role} {src t : Tensor} (hsrc : op.tensor? .src = some src)
    (ht : op.tensor? role = some t) :
    Reports (.factorCount role) (.invalidShape (.mismatch [op.groupSize src] t.shape))
  | factorType {role : Role} {t : Tensor} (ht : op.tensor? role = some t) :
    Reports (.factorType role) (.unsupported (.tensorType role t.type))
  | epsilon {text : String} {src : Tensor} {groups : Nat} {cause : EpsilonError}
    (htext : op.attribute? epsilonAttribute = some text) (hsrc : op.tensor? .src = some src)
    (hgroups : src.shape[op.batchAxis]? = some groups)
    (hcause : Epsilon.Fault groups (Text.pieces ',' text.toList) cause) :
    Reports .epsilon (.unsupported (.epsilon cause))

/-- The first condition that the description does not meet. -/
def firstBroken? : Option Requirement := Requirement.all.find? fun r => ¬ op.Meets r

/-- There is room for the buffers with one constant per group. -/
def HasRoom : Prop :=
  ∀ src ∈ op.tensor? .src, ∀ groups ∈ src.shape[op.batchAxis]?, groups * Single.bytes < 2 ^ 63

/-! ## Checks in order -/

variable {α β : Type} {op}

/-- A computation checks conditions, one after the other: it ends with an error that tells of the first
that is not met. If all are met, its result is as given. -/
def Checks (op : Operator) (rs : List Requirement) (x : Except (Failure DescriptorError) α)
    (passed : Except (Failure DescriptorError) α → Prop) : Prop :=
  match rs.find? fun r => ¬ op.Meets r with
  | some r => ∃ e, op.Reports r e ∧ x = .error (.error e)
  | none => passed x

namespace Checks

variable {rs rs' : List Requirement} {r : Requirement} {x : Except (Failure DescriptorError) α}
  {passed : Except (Failure DescriptorError) α → Prop}

theorem single (hmet : op.Meets r → passed x)
    (hbroken : ¬ op.Meets r → ∃ e, op.Reports r e ∧ x = .error (.error e)) : op.Checks [r] x passed := by
  unfold Checks
  by_cases hr : op.Meets r
  · simpa [hr] using hmet hr
  · simpa [hr] using hbroken hr

theorem skip (hr : op.Meets r) (h : op.Checks rs x passed) : op.Checks (r :: rs) x passed := by
  unfold Checks at h ⊢
  rwa [List.find?_cons_of_neg (by simpa using hr)]

theorem bind {P : α → Prop} {f : α → Except (Failure DescriptorError) β}
    {passed : Except (Failure DescriptorError) β → Prop}
    (h : op.Checks rs x fun x => ∃ a, x = .ok a ∧ P a) (hf : ∀ a, P a → op.Checks rs' (f a) passed) :
    op.Checks (rs ++ rs') (x >>= f) passed := by
  unfold Checks at h ⊢
  rw [List.find?_append]
  cases hfind : rs.find? fun r => ¬ op.Meets r with
  | some r =>
    rw [hfind] at h
    obtain ⟨e, he, rfl⟩ := h
    exact ⟨e, he, rfl⟩
  | none =>
    rw [hfind] at h
    obtain ⟨a, rfl, ha⟩ := h
    exact hf a ha

theorem require {condition : Bool} {e : DescriptorError} (hr : condition = true ↔ op.Meets r)
    (he : op.Reports r e) : op.Checks [r] (Descriptor.require condition e) fun x => ∃ a, x = .ok a ∧ True := by
  refine single (fun hmet => ⟨(), ?_, trivial⟩) fun hbroken => ⟨e, he, ?_⟩
  · rw [Descriptor.require, if_pos (hr.mpr hmet)]
  · rw [Descriptor.require, if_neg (mt hr.mp hbroken)]

end Checks

theorem groupSize_eq {src : Tensor} {s : Split} (hs : Split.ofShape src.shape op.batchAxis = .ok s) :
    op.groupSize src = s.outer * s.inner := by
  obtain ⟨-, -, houter, hinner⟩ := Split.ofShape_eq_ok_iff.mp hs
  rw [groupSize, Shape.eraseIdx_prod, houter, hinner]

end Operator

namespace Descriptor

variable {op : Operator} {src dst : Tensor} {s : Split}

section

variable (hsrc : op.tensor? .src = some src)

include hsrc

theorem ofShape_checks : op.Checks [.srcShape]
    ((Split.ofShape src.shape op.batchAxis).mapError (·.map DescriptorError.invalidShape))
    fun x => ∃ s, x = .ok s ∧ Split.ofShape src.shape op.batchAxis = .ok s := by
  have hmeets : op.Meets .srcShape ↔ src.shape.Splits op.batchAxis :=
    ⟨fun h => h src hsrc, fun h src' hsrc' => Option.some.inj (hsrc.symm.trans hsrc') ▸ h⟩
  refine .single (fun hmet => ?_) fun hbroken => ?_
  · obtain ⟨s, hs⟩ := Split.ofShape_of_splits (hmeets.mp hmet)
    exact ⟨s, by rw [hs]; rfl, hs⟩
  · obtain ⟨cause, hcause, herror⟩ := Split.ofShape_fault (mt hmeets.mpr hbroken)
    exact ⟨_, .srcShape hsrc hcause, by rw [herror]; rfl⟩

theorem checkTensors_checks (hdst : op.tensor? .dst = some dst) :
    op.Checks [.srcShape, .dstShape, .srcType, .dstType] (checkTensors src dst op.batchAxis)
      fun x => ∃ s, x = .ok s ∧ Split.ofShape src.shape op.batchAxis = .ok s := by
  refine Operator.Checks.bind (ofShape_checks hsrc) fun s hs => ?_
  refine Operator.Checks.bind (.require ?_ (.dstShape hsrc hdst)) fun _ _ => ?_
  · simp [Operator.Meets, hsrc, hdst]
  refine Operator.Checks.bind (.require ?_ (.srcType hsrc)) fun _ _ => ?_
  · simp [Operator.Meets, hsrc]
  show op.Checks ([.dstType] ++ []) _ _
  refine Operator.Checks.bind (.require ?_ (.dstType hdst)) fun _ _ => ⟨s, rfl, hs⟩
  simp [Operator.Meets, hdst]

theorem checkFactor_checks (hs : Split.ofShape src.shape op.batchAxis = .ok s) {role : Role} {t : Tensor}
    (ht : op.tensor? role = some t) :
    op.Checks [.factorCount role, .factorType role] (checkFactor (s.outer * s.inner) role t)
      fun x => ∃ a, x = .ok a ∧ True := by
  have hfits := Split.fits_of_ofShape hs
  have hsize := Operator.groupSize_eq hs
  have hcount : t.count? = some (s.outer * s.inner) ↔ t.shape.prod = s.outer * s.inner :=
    Shape.count?_eq_some_pos_iff (Nat.mul_pos hfits.outer hfits.inner) hfits.groupSize_lt
  refine Operator.Checks.bind (.require ?_ (hsize ▸ .factorCount hsrc ht)) fun _ _ => ?_
  · simp [Operator.Meets, hsrc, ht, hsize, hcount]
  refine .require ?_ (.factorType ht)
  simp [Operator.Meets, ht]

theorem complete_checks (hs : Split.ofShape src.shape op.batchAxis = .ok s) (type : ElementType)
    (affine : Bool) : op.Checks [.epsilon] (complete op s type affine)
      fun x => op.HasRoom → ∃ d, x = .ok d := by
  have hfits := Split.fits_of_ofShape hs
  obtain ⟨-, hbatch, -, -⟩ := Split.ofShape_eq_ok_iff.mp hs
  refine .single (fun hmet hroom => ?_) fun hbroken => ?_
  · have hroom : s.groupCount * Single.bytes < 2 ^ 63 := hroom src hsrc _ hbatch
    obtain ⟨e, he⟩ := Epsilon.ofAttribute_eq_ok hroom fun text htext => hmet text htext src hsrc _ hbatch
    unfold complete
    rw [he, hfits.groupSize_eq, Checked.reserve_eq_ok_iff.mpr hroom]
    exact ⟨_, rfl⟩
  · have hmeets : op.Meets .epsilon ↔ ∀ text ∈ op.attribute? Operator.epsilonAttribute,
        Epsilon.Gives s.batch (Text.pieces ',' text.toList) := by
      simp [Operator.Meets, hsrc, hbatch]
    cases htext : op.attribute? Operator.epsilonAttribute with
    | none => exact absurd (hmeets.mpr (by simp [htext])) hbroken
    | some text =>
      have hgives : ¬ Epsilon.Gives s.batch (Text.pieces ',' text.toList) := fun h =>
        hbroken (hmeets.mpr (by simpa [htext] using h))
      obtain ⟨cause, hcause, herror⟩ := Epsilon.ofAttribute_fault hgives
      refine ⟨_, .epsilon htext hsrc hbatch hcause, ?_⟩
      unfold complete
      rw [htext, Split.groupCount, herror]
      rfl

end

/-- **The conditions are checked in their order.** -/
theorem ofOperator_checks (op : Operator) :
    op.Checks Requirement.all (ofOperator op) fun x => op.HasRoom → ∃ d, x = .ok d := by
  refine Operator.Checks.bind (.require (by simp [Operator.Meets]) .kind) fun _ _ => ?_
  refine Operator.Checks.bind (.require (by simp [Operator.Meets]) .mode) fun _ _ => ?_
  have hcount (tensors : List Tensor) (h : op.tensors = tensors) :
      op.Meets .tensorCount ↔ tensors.length = 2 ∨ tensors.length = 4 := by
    rw [Operator.Meets, h]
  have htensor (tensors : List Tensor) (h : op.tensors = tensors) (role : Role) :
      op.tensor? role = tensors[role.index]? := by
    rw [Operator.tensor?, h]
  split
  · next src dst htensors =>
    refine .skip ((hcount _ htensors).mpr (.inl rfl)) ?_
    have hsrc := htensor _ htensors .src
    refine Operator.Checks.bind (checkTensors_checks hsrc (htensor _ htensors .dst)) fun s hs => ?_
    -- A description of two tensors has no scale and no shift.
    have hnone (role : Role) (hrole : role = .alpha ∨ role = .beta) : op.tensor? role = none := by
      rw [htensor _ htensors]
      rcases hrole with rfl | rfl <;> rfl
    refine .skip ?_ (.skip ?_ (.skip ?_ (.skip ?_ (complete_checks hsrc hs dst.type false))))
    all_goals simp [Operator.Meets, hnone]
  · next src dst alpha beta htensors =>
    refine .skip ((hcount _ htensors).mpr (.inr rfl)) ?_
    have hsrc := htensor _ htensors .src
    refine Operator.Checks.bind (checkTensors_checks hsrc (htensor _ htensors .dst)) fun s hs => ?_
    rw [(Split.fits_of_ofShape hs).groupSize_eq]
    refine Operator.Checks.bind (checkFactor_checks hsrc hs (htensor _ htensors .alpha)) fun _ _ => ?_
    refine Operator.Checks.bind (checkFactor_checks hsrc hs (htensor _ htensors .beta)) fun _ _ => ?_
    exact complete_checks hsrc hs dst.type true
  · next htwo hfour =>
    have hbroken : ¬ op.Meets .tensorCount := by
      rw [hcount _ rfl]
      match htensors : op.tensors with
      | [] | [_] | [_, _, _] | _ :: _ :: _ :: _ :: _ :: _ => simp
      | [src, dst] => exact (htwo src dst htensors).elim
      | [src, dst, alpha, beta] => exact (hfour src dst alpha beta htensors).elim
    unfold Operator.Checks
    rw [List.find?_cons_of_pos (by simpa using hbroken)]
    exact ⟨_, .tensorCount, rfl⟩

/-- **A description has a descriptor exactly if it meets all conditions, and otherwise the first that it
does not meet is reported.** If there is room for the constants, no arithmetic stops. -/
theorem ofOperator_outcome (op : Operator) :
    (∀ r, op.firstBroken? = some r → ∃ e, op.Reports r e ∧ ofOperator op = .error (.error e)) ∧
    (op.HasRoom → ((∃ d, ofOperator op = .ok d) ↔ ∀ r ∈ Requirement.all, op.Meets r) ∧
      ∀ a, ofOperator op ≠ .error (.arithmetic a)) := by
  have hchecks := ofOperator_checks op
  unfold Operator.Checks at hchecks
  have hnone : op.firstBroken? = none ↔ ∀ r ∈ Requirement.all, op.Meets r := by
    simp [Operator.firstBroken?]
  constructor
  · intro r hr
    rw [Operator.firstBroken?] at hr
    rw [hr] at hchecks
    exact hchecks
  · intro hroom
    rw [← hnone, Operator.firstBroken?]
    cases hfind : Requirement.all.find? fun r => ¬ op.Meets r with
    | some r =>
      rw [hfind] at hchecks
      obtain ⟨e, -, herror⟩ := hchecks
      rw [herror]
      simp
    | none =>
      rw [hfind] at hchecks
      obtain ⟨d, hd⟩ := hchecks hroom
      rw [hd]
      simp

/-- An affine description of two groups of three elements, with a given scale and type of its shift. -/
def sample (alpha : Tensor) (type : ElementType) : Operator where
  kind := .layernormBa
  propagation := .forwardInference
  engine := .cpu
  tensors := [⟨[2, 3], .float32⟩, ⟨[2, 3], .bfloat16⟩, alpha, ⟨[3], type⟩]
  batchAxis := 0
  attributes := ∅

/-- Of two faults in a description the first is reported. -/
theorem ofOperator_outcome_sample :
    (∃ d, ofOperator (sample ⟨[3, 1], .float32⟩ .float32) = .ok d) ∧
      ofOperator (sample ⟨[4], .float32⟩ .float64) =
        .error (.error (.invalidShape (.mismatch [3] [4]))) := by
  constructor
  · have hroom : (sample ⟨[3, 1], .float32⟩ .float32).HasRoom := by
      rintro src ⟨⟩ groups ⟨⟩
      decide
    exact ((ofOperator_outcome _).2 hroom).1.mpr (by decide)
  · have hbroken : (sample ⟨[4], .float32⟩ .float64).firstBroken? = some (.factorCount .alpha) := by decide
    obtain ⟨e, he, herror⟩ := (ofOperator_outcome _).1 _ hbroken
    cases he with
    | factorCount hsrc ht =>
      cases hsrc
      cases ht
      exact herror

/-! ## What a descriptor has of its description -/

theorem require_eq_ok_iff {condition : Bool} {e : DescriptorError} {u : Unit} :
    require condition e = .ok u ↔ condition = true := by
  cases condition <;> simp [require]

theorem checkTensors_eq_ok {axis : Nat} (h : checkTensors src dst axis = .ok s) :
    Split.ofShape src.shape axis = .ok s ∧ (dst.type = .float32 ∨ dst.type = .bfloat16) := by
  obtain ⟨s', hs, h⟩ := bind_eq_ok_iff.mp h
  obtain ⟨-, -, h⟩ := bind_eq_ok_iff.mp h
  obtain ⟨-, -, h⟩ := bind_eq_ok_iff.mp h
  obtain ⟨_, htype, h⟩ := bind_eq_ok_iff.mp h
  cases h
  exact ⟨mapError_eq_ok_iff.mp hs, by simpa [require_eq_ok_iff] using htype⟩

theorem eq_of_complete {type : ElementType} {affine : Bool} {d : Descriptor}
    (h : complete op s type affine = .ok d) : ∃ e n,
    Epsilon.ofAttribute s.groupCount (op.attribute? Operator.epsilonAttribute) = .ok e ∧
    s.groupSize = .ok n ∧
    d = {
      operator := op, split := s, dstType := type, affine, policy := e.policy
      reciprocals := List.replicate s.groupCount (Single.reciprocal n)
      epsilons := e.values
      ones := List.replicate s.groupCount .one } := by
  obtain ⟨e, he, h⟩ := bind_eq_ok_iff.mp h
  obtain ⟨n, hn, h⟩ := bind_eq_ok_iff.mp h
  obtain ⟨-, -, h⟩ := bind_eq_ok_iff.mp h
  cases h
  exact ⟨e, n, mapError_eq_ok_iff.mp he, checked_eq_ok_iff.mp hn, rfl⟩

theorem exists_complete {d : Descriptor} (h : ofOperator op = .ok d) : ∃ src dst : Tensor,
    op.tensor? .src = some src ∧ op.tensor? .dst = some dst ∧
    Split.ofShape src.shape op.batchAxis = .ok d.split ∧ (dst.type = .float32 ∨ dst.type = .bfloat16) ∧
    op.tensors.length = (if d.affine then 4 else 2) ∧
    complete op d.split dst.type d.affine = .ok d := by
  obtain ⟨-, -, h⟩ := bind_eq_ok_iff.mp h
  obtain ⟨-, -, h⟩ := bind_eq_ok_iff.mp h
  split at h
  · next src dst htensors =>
    obtain ⟨s, hs, h⟩ := bind_eq_ok_iff.mp h
    obtain ⟨hshape, htype⟩ := checkTensors_eq_ok hs
    obtain ⟨e, n, -, -, rfl⟩ := eq_of_complete h
    refine ⟨src, dst, ?_, ?_, hshape, htype, ?_, h⟩
    all_goals simp [Operator.tensor?, htensors, Role.index]
  · next src dst alpha beta htensors =>
    obtain ⟨s, hs, h⟩ := bind_eq_ok_iff.mp h
    obtain ⟨hshape, htype⟩ := checkTensors_eq_ok hs
    obtain ⟨n, -, h⟩ := bind_eq_ok_iff.mp h
    obtain ⟨-, -, h⟩ := bind_eq_ok_iff.mp h
    obtain ⟨-, -, h⟩ := bind_eq_ok_iff.mp h
    obtain ⟨e, n, -, -, rfl⟩ := eq_of_complete h
    refine ⟨src, dst, ?_, ?_, hshape, htype, ?_, h⟩
    all_goals simp [Operator.tensor?, htensors, Role.index]
  · cases h

theorem ofOperator_eq_ok {d : Descriptor} (h : ofOperator op = .ok d) :
    (∃ shape, Split.ofShape shape op.batchAxis = .ok d.split) ∧
      (d.dstType = .float32 ∨ d.dstType = .bfloat16) := by
  obtain ⟨src, dst, -, -, hshape, htype, -, hcomplete⟩ := exists_complete h
  obtain ⟨e, n, -, -, hd⟩ := eq_of_complete hcomplete
  have hdst : d.dstType = dst.type := by rw [hd]
  exact ⟨⟨_, hshape⟩, hdst ▸ htype⟩

theorem operator_of_ofOperator {d : Descriptor} (h : ofOperator op = .ok d) : d.operator = op := by
  obtain ⟨_, _, -, -, -, -, -, hcomplete⟩ := exists_complete h
  obtain ⟨_, _, -, -, hd⟩ := eq_of_complete hcomplete
  rw [hd]

end Descriptor

end AxisNorm
