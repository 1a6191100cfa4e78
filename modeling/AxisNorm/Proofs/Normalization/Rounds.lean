import AxisNorm.Proofs.Normalization.Visits

/-!
# The rounds of the loops

Each loop is shown to do one round, with its own bounds in registers that the round leaves alone. The loops around
it then follow from `Counts.tours`.

* `element_tours`, `row_tours`: one element, one row.
* `rows_tours`, `walk_tours`: **a walk shows the elements of its group in the order of their numbers.**
* `groups_tours`: **the loop over groups shows the groups in their order.**
-/

namespace AxisNorm.Normalization

open Code

/-! ## The bodies of the walks -/

/-- What a walk does with an element. -/
def Pass.body (affine : Bool) (storage : ValueType) : Pass → List (Instruction Value)
  | .mean => meanBody
  | .variance => varianceBody
  | .normalize => normalizeBody affine storage

theorem block_walk (p : Parameters) (storage : ValueType) (q : Pass) (l : WalkLabel) :
    block p storage (.walk q l) = walkBlock p.split q (q.body p.affine storage) q.after l := by
  cases q <;> rfl

section

attribute [local simp] Pass.body meanBody varianceBody normalizeBody loadDeviation loadElement loadSingle affineStep
  storeResult dstAddress roundToHalf Instruction.defines

theorem length_body (affine : Bool) (storage : ValueType) (q : Pass) : (q.body affine storage).length ≤ 23 := by
  cases q with
  | normalize => cases affine <;> simp <;> split <;> simp
  | _ => simp

theorem level_body (affine : Bool) (storage : ValueType) (q : Pass) :
    ∀ i ∈ q.body affine storage, ∀ u ∈ i.defines, 5 ≤ u.1.level := by
  cases q with
  | normalize => cases affine <;> simp <;> split <;> simp
  | _ => simp

end

/-- What the body of a walk does once it has the two indices. -/
def Pass.afterIndices (affine : Bool) (storage : ValueType) (q : Pass) : List (Instruction Value) :=
  q.body affine storage ++ [.set (.walk q .nextInner) (.integerImm .add .i64 (.walk q .inner) 1)]

theorem length_afterIndices (affine : Bool) (storage : ValueType) (q : Pass) :
    (q.afterIndices affine storage).length = (q.body affine storage).length + 1 := by
  simp [Pass.afterIndices]

/-! ## The blocks before the walks -/

/-- The block that leads to a walk. -/
def Pass.before : Pass → Label
  | .mean => .groupBody
  | .variance => .centre
  | .normalize => .spread

theorem shown_before {q : Pass} {r : Registers Value} {n : Nat} (hn : n ≠ 0) : shown r q.before n = none := by
  cases q with
  | mean =>
    obtain ⟨n, rfl⟩ := Nat.exists_eq_succ_of_ne_zero hn
    rfl
  | _ => rfl

theorem suffix_before (p : Parameters) (storage : ValueType) (q : Pass) :
    walkBounds p.split q <:+ (block p storage q.before).body ∧ (block p storage q.before).terminator = walkStart q := by
  cases q with
  | mean => exact ⟨⟨_, (List.append_cons _ _ _).symm⟩, rfl⟩
  | variance => exact ⟨⟨[_], rfl⟩, rfl⟩
  | normalize => exact ⟨⟨_, rfl⟩, rfl⟩

theorem length_before (p : Parameters) (storage : ValueType) (q : Pass) :
    2 < (block p storage q.before).body.length ∧ (block p storage q.before).body.length ≤ 12 := by
  cases q <;> simp [Pass.before, block, groupBody, centre, spread, walkBounds, loadSingle]

theorem level_before (p : Parameters) (storage : ValueType) (q : Pass) :
    ∀ i ∈ (block p storage q.before).body, ∀ u ∈ i.defines, 1 ≤ u.1.level ∧ u.1 ≠ .group := by
  cases q <;> simp [Pass.before, block, groupBody, centre, spread, walkBounds, loadSingle, Instruction.defines]

/-! ## What the loops read and leave alone -/

section

variable {s : Split} {q : Pass} {b o : Nat} {r r' : Registers Value}

/-- What the loop over the elements of a row reads and leaves alone. -/
structure ElementLoop (s : Split) (q : Pass) (b o : Nat) (r : Registers Value) : Prop where
  row : r.get? (.walk q .row) = some (.ofNat ((o * s.batch + b) * s.inner))
  positionRow : r.get? (.walk q .positionRow) = some (.ofNat (o * s.inner))
  limit : r.get? (.walk q .innerStop) = some (.ofNat s.inner)

theorem ElementLoop.of_agree (h : ElementLoop s q b o r) (ha : AgreeBelow 4 r r') :
    ElementLoop s q b o r' :=
  ⟨ha.get? h.row (by simp), ha.get? h.positionRow (by simp), ha.get? h.limit (by simp)⟩

/-- What the loop over rows reads and leaves alone. -/
structure RowLoop (s : Split) (q : Pass) (b : Nat) (r : Registers Value) : Prop where
  group : r.get? .group = some (.ofNat b)
  first : r.get? (.walk q .first) = some (.ofNat 0)
  limit : r.get? (.walk q .outerStop) = some (.ofNat s.outer)

theorem RowLoop.of_agree (h : RowLoop s q b r) (ha : AgreeBelow 3 r r') :
    RowLoop s q b r' :=
  ⟨ha.get? h.group (by simp), ha.get? h.first (by simp), ha.get? h.limit (by simp)⟩

end

section

variable {p : Parameters} {storage : ValueType} {code : Routine Label Value} (hcode : code.block = block p storage)
  {goal : Progress Label Value → List Visit → Prop} {steps n : Nat} {items : List Visit} {r : Registers Value}

include hcode

/-! ## The heads of the loops -/

theorem counts_groups : Counts code .groupHeader .groupBody .done .group .stop .moreGroups where
  parameters := ⟨[], by rw [hcode]; rfl, by simp⟩
  body := by rw [hcode]; rfl
  terminator := by rw [hcode]; rfl
  more := ⟨by simp, rfl⟩
  limit := by decide
  quiet _ _ := rfl

theorem counts_rows (q : Pass) : Counts code (.walk q .outerHeader) (.walk q .outerBody) q.after
    (.walk q .outer) (.walk q .outerStop) (.walk q .moreOuter) where
  parameters := ⟨_, by rw [hcode, block_walk]; rfl, carried_level (by simp) rfl⟩
  body := by rw [hcode, block_walk]; rfl
  terminator := by rw [hcode, block_walk]; rfl
  more := ⟨by simp, rfl⟩
  limit := by simp
  quiet _ _ := rfl

theorem counts_elements (q : Pass) : Counts code (.walk q .innerHeader) (.walk q .innerBody) (.walk q .outerLatch)
    (.walk q .inner) (.walk q .innerStop) (.walk q .moreInner) where
  parameters := ⟨_, by rw [hcode, block_walk]; rfl, carried_level (by simp) rfl⟩
  body := by rw [hcode, block_walk]; rfl
  terminator := by rw [hcode, block_walk]; rfl
  more := ⟨by simp, rfl⟩
  limit := by simp
  quiet _ _ := rfl

/-! ## Walks -/

variable {q : Pass} {b o i : Nat}

theorem nextElement_leads {assertion : Label → Registers Value → Prop}
    (hindex : r.get? (.walk q .inner) = some (.ofNat i))
    (h : ∀ r', AgreeBelow 4 r r' → r'.get? (.walk q .inner) = some (.ofNat (i + 1)) →
      assertion (.walk q .innerHeader) r') :
    code.Leads assertion (.jump (.walk q .innerHeader) (.walk q .nextInner :: carried q .next))
      (q.afterIndices p.affine storage) r := by
  refine .straight (fun _ _ _ => trivial) fun r₁ ha₁ => ?_
  have hbody : AgreeBelow 5 r r₁ := ha₁.mono fun v hv i hi u hu huv => by
    have hlevel := level_body p.affine storage q i hi u hu
    rw [huv] at hlevel
    omega
  refine .set_of_eq trivial (evaluate?_addImm (hbody.get? hindex (by simp)) (y := 1) rfl) ?_
  refine (counts_elements hcode q).jump_leads (Registers.get?_set_self _ _ _) fun r₂ ha₂ hr₂ => h r₂ ?_ hr₂
  exact ((hbody.weaken (by omega)).set _ (by simp)).trans ha₂

theorem visit?_innerBody (is : List (Instruction Value)) :
    visit? code ⟨r, is, .jump (.walk q .innerHeader) (.walk q .nextInner :: carried q .next)⟩ =
      shown r (.walk q .innerBody) ((q.afterIndices p.affine storage).length + 2 - is.length) := by
  have h := visit?_eq hcode (.walk q .innerBody) r is
  rw [block_walk] at h
  rw [length_afterIndices]
  simpa [walkBlock] using h

theorem visit?_innerBody_of_ne {is : List (Instruction Value)}
    (his : is.length ≠ (q.afterIndices p.affine storage).length) :
    visit? code ⟨r, is, .jump (.walk q .innerHeader) (.walk q .nextInner :: carried q .next)⟩ = none := by
  rw [visit?_innerBody hcode, shown_innerBody]
  omega

theorem body_tours (hindex : r.get? (.walk q .inner) = some (.ofNat i))
    (h : ∀ r', AgreeBelow 4 r r' → r'.get? (.walk q .inner) = some (.ofNat (i + 1)) →
      code.Tours (visit? code) goal steps items (code.start (.walk q .innerHeader) r')) :
    code.Tours (visit? code) goal (steps + 25)
      (.element q (r.get? (.walk q .position)) (r.get? (.walk q .element)) :: items)
      (.running ⟨r, q.afterIndices p.affine storage,
        .jump (.walk q .innerHeader) (.walk q .nextInner :: carried q .next)⟩) := by
  have hlength := length_body p.affine storage q
  have hfirst : visit? code ⟨r, q.afterIndices p.affine storage,
      .jump (.walk q .innerHeader) (.walk q .nextInner :: carried q .next)⟩ =
        some (.element q (r.get? (.walk q .position)) (r.get? (.walk q .element))) := by
    rw [visit?_innerBody hcode, Nat.add_sub_cancel_left]
    rfl
  have hsteps : steps + (q.afterIndices p.affine storage).length + 1 ≤ steps + 25 := by
    rw [length_afterIndices]
    omega
  refine .mono ?_ hsteps
  refine Routine.Tours.of_leads (fun l r' => l = .walk q .innerHeader ∧ AgreeBelow 4 r r' ∧
    r'.get? (.walk q .inner) = some (.ofNat (i + 1))) hfirst
    (fun r' js hjs => visit?_innerBody_of_ne hcode (Nat.ne_of_lt hjs)) (by simp)
    (nextElement_leads hcode hindex fun r' ha hr' => ⟨rfl, ha, hr'⟩) ?_
  rintro _ r' ⟨rfl, ha, hr'⟩
  exact h r' ha hr'

theorem element_tours (hr : ElementLoop p.split q b o r) (hi : i < p.split.inner)
    (hindex : r.get? (.walk q .inner) = some (.ofNat i))
    (h : ∀ r', AgreeBelow 4 r r' → r'.get? (.walk q .inner) = some (.ofNat (i + 1)) →
      code.Tours (visit? code) goal steps items (code.start (.walk q .innerHeader) r')) :
    code.Tours (visit? code) goal (steps + 30) (elementVisit p.split q b (o * p.split.inner + i) :: items)
      (code.start (.walk q .innerBody) r) := by
  have helement := evaluate?_add hr.row hindex
  have hnumber : (Operation.integer .add .i64 (.walk q .positionRow) (.walk q .inner)).evaluate?
      (r.set (.walk q .element) (.ofNat ((o * p.split.batch + b) * p.split.inner + i))) =
        some (.ofNat (o * p.split.inner + i)) :=
    evaluate?_add (by simp [Registers.get?_set, hr.positionRow]) (by simp [Registers.get?_set, hindex])
  have hstart : code.start (.walk q .innerBody) r = .running ⟨r,
      .set (.walk q .element) (.integer .add .i64 (.walk q .row) (.walk q .inner)) ::
        .set (.walk q .position) (.integer .add .i64 (.walk q .positionRow) (.walk q .inner)) ::
          q.afterIndices p.affine storage,
      .jump (.walk q .innerHeader) (.walk q .nextInner :: carried q .next)⟩ := by
    rw [Routine.start, hcode, block_walk]
    rfl
  rw [hstart]
  refine .mono ?_ (show steps + 25 + 1 + 1 ≤ steps + 30 by omega)
  refine .set (visit?_innerBody_of_ne hcode (by simp +arith)) helement ?_
  refine .set (visit?_innerBody_of_ne hcode (by simp)) hnumber ?_
  generalize hr₁ : (r.set (.walk q .element) _).set (.walk q .position) _ = r₁
  have ha₁ : AgreeBelow 4 r r₁ := by
    rw [← hr₁]
    exact .set (.set (.refl _ _) _ (by simp)) _ (by simp)
  have hindex₁ : r₁.get? (.walk q .inner) = some (.ofNat i) := by
    rw [← hr₁]
    simp [Registers.get?_set, hindex]
  have hvisit : elementVisit p.split q b (o * p.split.inner + i) =
      .element q (r₁.get? (.walk q .position)) (r₁.get? (.walk q .element)) := by
    rw [elementVisit, p.split.position_row b o hi, ← hr₁]
    simp [Registers.get?_set]
  rw [hvisit]
  exact body_tours hcode hindex₁ fun r' ha hr' => h r' (ha₁.trans ha) hr'

theorem rowBounds_leads {assertion : Label → Registers Value → Prop} (hr : RowLoop p.split q b r)
    (houter : r.get? (.walk q .outer) = some (.ofNat o))
    (h : ∀ r', AgreeBelow 3 r r' → r'.get? (.walk q .outer) = some (.ofNat o) → ElementLoop p.split q b o r' →
      r'.get? (.walk q .inner) = some (.ofNat 0) → assertion (.walk q .innerHeader) r') :
    code.Leads assertion (code.block (.walk q .outerBody)).terminator (code.block (.walk q .outerBody)).body r := by
  rw [hcode, block_walk, ← List.append_nil (walkBlock _ _ _ _ .outerBody).body]
  refine .assigns (fun _ _ _ => trivial) (rowBounds_assigns hr.group houter _ _) ?_
  have ha₁ := agreeBelow_withRow p.split q b o r
  have hbounds : ElementLoop p.split q b o (withRow p.split q b o r) := by
    constructor <;> simp [withRow, Registers.get?_set]
  have houter₁ : (withRow p.split q b o r).get? (.walk q .outer) = some (.ofNat o) := by
    simp [withRow, Registers.get?_set, houter]
  refine (counts_elements hcode q).jump_leads (ha₁.get? hr.first (by simp)) fun r₂ ha₂ hindex => ?_
  exact h r₂ (ha₁.trans (ha₂.weaken (by simp))) (ha₂.get? houter₁ (by simp)) (hbounds.of_agree ha₂) hindex

theorem nextRow_leads {assertion : Label → Registers Value → Prop}
    (houter : r.get? (.walk q .outer) = some (.ofNat o))
    (h : ∀ r', AgreeBelow 3 r r' → r'.get? (.walk q .outer) = some (.ofNat (o + 1)) →
      assertion (.walk q .outerHeader) r') :
    code.Leads assertion (code.block (.walk q .outerLatch)).terminator (code.block (.walk q .outerLatch)).body r := by
  rw [hcode, block_walk]
  refine .set_of_eq trivial (evaluate?_addImm houter (y := 1) rfl) ?_
  refine (counts_rows hcode q).jump_leads (Registers.get?_set_self _ _ _) fun r₁ ha₁ hr₁ => h r₁ ?_ hr₁
  exact .trans (.set (.refl _ _) _ (by simp)) ha₁

theorem row_tours (hp : p.Accepted) (hr : RowLoop p.split q b r) (houter : r.get? (.walk q .outer) = some (.ofNat o))
    (h : ∀ r', AgreeBelow 3 r r' → r'.get? (.walk q .outer) = some (.ofNat (o + 1)) →
      code.Tours (visit? code) goal steps items (code.start (.walk q .outerHeader) r')) :
    code.Tours (visit? code) goal (steps + (14 + p.split.inner * 32))
      ((List.range' 0 p.split.inner).flatMap (fun i => [elementVisit p.split q b (o * p.split.inner + i)]) ++ items)
      (code.start (.walk q .outerBody) r) := by
  have hinner := hp.inner_lt
  have hsteps : steps + 2 + 2 + p.split.inner * (2 + 30) + 6 ≤ steps + (14 + p.split.inner * 32) := by omega
  refine .mono ?_ hsteps
  refine quiet_tours hcode (fun l r' => l = .walk q .innerHeader ∧ AgreeBelow 3 r r' ∧
    r'.get? (.walk q .outer) = some (.ofNat o) ∧ ElementLoop p.split q b o r' ∧
    r'.get? (.walk q .inner) = some (.ofNat 0)) (fun _ _ => rfl) (by simp [hcode, block_walk, walkBlock])
    (by simp [hcode, block_walk, walkBlock])
    (rowBounds_leads hcode hr houter fun r' h₁ h₂ h₃ h₄ => ⟨rfl, h₁, h₂, h₃, h₄⟩) ?_
  rintro _ r₁ ⟨rfl, ha₁, houter₁, hr₁, hindex⟩
  refine (counts_elements hcode q).tours hcode (by omega) hr₁.limit ?_ ?_ (Nat.zero_add _) (.refl _ _) hindex
  · intro i hi r₂ steps items ha₂ hindex₂ hnext
    exact element_tours hcode (hr₁.of_agree ha₂) hi hindex₂ fun r₃ ha₃ hr₃ => hnext r₃ (ha₂.trans ha₃) hr₃
  · intro r₂ ha₂
    refine quiet_tours hcode (fun l r' => l = .walk q .outerHeader ∧ AgreeBelow 3 r₂ r' ∧
      r'.get? (.walk q .outer) = some (.ofNat (o + 1))) (fun _ _ => rfl) (by simp [hcode, block_walk, walkBlock])
      (by simp [hcode, block_walk, walkBlock])
      (nextRow_leads hcode (ha₂.get? houter₁ (by simp)) fun r' h₁ h₂ => ⟨rfl, h₁, h₂⟩) ?_
    rintro _ r₃ ⟨rfl, ha₃, hr₃⟩
    exact h r₃ ((ha₁.trans (ha₂.weaken (by simp))).trans ha₃) hr₃

/-- **The loops of a walk show the elements of its group in the order of their numbers.** -/
theorem rows_tours (hp : p.Accepted) (hr : RowLoop p.split q b r) (houter : r.get? (.walk q .outer) = some (.ofNat 0))
    (h : ∀ r', AgreeBelow 3 r r' → code.Tours (visit? code) goal steps items (code.start q.after r')) :
    code.Tours (visit? code) goal (steps + 2 + p.split.walkSteps) (walkVisits p.split q b ++ items)
      (code.start (.walk q .outerHeader) r) := by
  have hcost : p.split.walkSteps = p.split.outer * (2 + (14 + p.split.inner * 32)) := by
    rw [Split.walkSteps, ← Nat.add_assoc]
  have hbound := hp.outer_lt
  rw [walkVisits_eq_flatMap, hcost]
  refine (counts_rows hcode q).tours hcode (by omega) hr.limit ?_ h (Nat.zero_add _) (.refl _ _) houter
  intro o _ r₁ steps items ha houter₁ hnext
  exact row_tours hcode hp (hr.of_agree ha) houter₁ fun r₂ ha₂ hr₂ => hnext r₂ (ha.trans ha₂) hr₂

theorem walkBounds_leads {assertion : Label → Registers Value → Prop} (hgroup : r.get? .group = some (.ofNat b))
    (h : ∀ r', AgreeBelow 2 r r' → RowLoop p.split q b r' → r'.get? (.walk q .outer) = some (.ofNat 0) →
      assertion (.walk q .outerHeader) r') :
    code.Leads assertion (walkStart q) (walkBounds p.split q) r := by
  rw [← List.append_nil (walkBounds p.split q)]
  refine .assigns (fun _ _ _ => trivial) (walkBounds_assigns p.split q r) ?_
  have ha := agreeBelow_withBounds p.split q r
  have hr : RowLoop p.split q b (withBounds p.split q r) :=
    ⟨ha.get? hgroup (by simp), by simp [withBounds, Registers.get?_set], by simp [withBounds]⟩
  refine (counts_rows hcode q).jump_leads hr.first fun r' ha' houter => ?_
  exact h r' (ha.trans (ha'.weaken (by simp))) (hr.of_agree ha') houter

/-- **A walk over a group, from anywhere in the block before it.** -/
theorem walk_tours (hp : p.Accepted) (lead : List (Instruction Value)) {first : Option Visit}
    (hlead : lead ++ walkBounds p.split q <:+ (block p storage q.before).body)
    (hfirst : visit? code ⟨r, lead ++ walkBounds p.split q, walkStart q⟩ = first)
    (hgroup : r.get? .group = some (.ofNat b))
    (h : ∀ r', AgreeBelow 1 r r' → r'.get? .group = some (.ofNat b) →
      code.Tours (visit? code) goal steps items (code.start q.after r')) :
    code.Tours (visit? code) goal (steps + 2 + p.split.walkSteps + (lead ++ walkBounds p.split q).length + 1)
      (first.toList ++ (walkVisits p.split q b ++ items))
      (.running ⟨r, lead ++ walkBounds p.split q, walkStart q⟩) := by
  refine Routine.Tours.of_leads (fun l r' => l = .walk q .outerHeader ∧ AgreeBelow 1 r r' ∧
    RowLoop p.split q b r' ∧ r'.get? (.walk q .outer) = some (.ofNat 0)) hfirst ?_ (by simp [walkStart]) ?_ ?_
  · intro r' js hjs
    have hlength := hlead.length_le
    rw [← (suffix_before p storage q).2, visit?_eq hcode, shown_before]
    omega
  · refine .straight (fun _ _ _ => trivial) fun r₁ ha₁ => ?_
    have hkept {v : Value} (hv : v.level < 1 ∨ v = .group) : r₁.get? v = r.get? v := ha₁ v fun i hi u hu huv => by
      obtain ⟨hlevel, hne⟩ := level_before p storage q i (hlead.mem (List.mem_append_left _ hi)) u hu
      rw [huv] at hlevel hne
      rcases hv with hv | hv
      · omega
      · exact hne hv
    refine walkBounds_leads hcode ((hkept (.inr rfl)).trans hgroup) fun r₂ ha₂ hr₂ houter => ⟨rfl, ?_, hr₂, houter⟩
    exact fun v hv => (ha₂ v (Nat.lt_of_lt_of_le hv (by omega))).trans (hkept (.inl hv))
  · rintro _ r' ⟨rfl, ha, hr', houter⟩
    refine rows_tours hcode hp hr' houter fun r'' ha' => ?_
    exact h r'' (ha.trans (ha'.weaken (by omega))) (ha'.get? hr'.group (by simp))

theorem walkStart_tours (hp : p.Accepted) (hgroup : r.get? .group = some (.ofNat b))
    (h : ∀ r', code.Tours (visit? code) goal steps items (code.start q.after r')) :
    code.Tours (visit? code) goal (steps + 2 + p.split.walkSteps + 3) (walkVisits p.split q b ++ items)
      (.running ⟨r, walkBounds p.split q, walkStart q⟩) := by
  obtain ⟨hsuffix, hend⟩ := suffix_before p storage q
  have hlength := (length_before p storage q).1
  have hquiet : visit? code ⟨r, walkBounds p.split q, walkStart q⟩ = none := by
    rw [← hend, visit?_eq hcode, shown_before]
    have hbounds : (walkBounds p.split q).length = 2 := rfl
    omega
  exact walk_tours hcode hp [] hsuffix hquiet hgroup fun r' _ _ => h r'

/-! ## Groups -/

theorem before_tours (hp : p.Accepted) (hgroup : r.get? .group = some (.ofNat b))
    (h : ∀ r', AgreeBelow 1 r r' → r'.get? .group = some (.ofNat b) →
      code.Tours (visit? code) goal steps items (code.start q.after r')) :
    code.Tours (visit? code) goal (steps + (p.split.walkSteps + 15))
      ((shown r q.before 0).toList ++ (walkVisits p.split q b ++ items)) (code.start q.before r) := by
  obtain ⟨⟨lead, hbody⟩, hend⟩ := suffix_before p storage q
  have hfirst : visit? code ⟨r, lead ++ walkBounds p.split q, walkStart q⟩ = shown r q.before 0 := by
    rw [hbody, ← hend, visit?_eq hcode, Nat.sub_self]
  have hlength := (length_before p storage q).2
  have hsteps : steps + 2 + p.split.walkSteps + (lead ++ walkBounds p.split q).length + 1 ≤
      steps + (p.split.walkSteps + 15) := by
    rw [hbody]
    omega
  rw [Routine.start, hcode, hend, ← hbody]
  exact (walk_tours hcode hp lead ⟨[], hbody⟩ hfirst hgroup h).mono hsteps

theorem group_tours (hp : p.Accepted) (hgroup : r.get? .group = some (.ofNat b))
    (h : ∀ r', AgreeBelow 1 r r' → r'.get? .group = some (.ofNat (b + 1)) →
      code.Tours (visit? code) goal steps items (code.start .groupHeader r')) :
    code.Tours (visit? code) goal (steps + (62 + 3 * p.split.walkSteps)) (groupVisits p.split b ++ items)
      (code.start .groupBody r) := by
  have hsteps : steps + 2 + (p.split.walkSteps + 15) + (p.split.walkSteps + 15) + (p.split.walkSteps + 15) ≤
      steps + (62 + 3 * p.split.walkSteps) := by omega
  have hvisits : groupVisits p.split b ++ items = .group (r.get? .group) :: (walkVisits p.split .mean b ++
      (walkVisits p.split .variance b ++ (walkVisits p.split .normalize b ++ items))) := by
    simp [groupVisits, hgroup]
  rw [hvisits]
  refine .mono ?_ hsteps
  refine before_tours (q := .mean) hcode hp hgroup fun r₁ ha₁ hgroup₁ => ?_
  refine before_tours (q := .variance) hcode hp hgroup₁ fun r₂ ha₂ hgroup₂ => ?_
  refine before_tours (q := .normalize) hcode hp hgroup₂ fun r₃ ha₃ hgroup₃ => ?_
  refine quiet_tours (l := .groupLatch) hcode (fun l r' => l = .groupHeader ∧ AgreeBelow 1 r₃ r' ∧
    r'.get? .group = some (.ofNat (b + 1))) (fun _ _ => rfl) (by simp [hcode, block, groupLatch])
    (by simp [hcode, block, groupLatch]) ?_ ?_
  · rw [hcode]
    refine .set_of_eq trivial (evaluate?_addImm hgroup₃ (y := 1) rfl) ?_
    refine (counts_groups hcode).jump_leads (Registers.get?_set_self _ _ _) fun r' ha hr' => ⟨rfl, ?_, hr'⟩
    exact .trans (.set (.refl _ _) _ (by simp)) ha
  · rintro _ r' ⟨rfl, ha, hr'⟩
    exact h r' (((ha₁.trans ha₂).trans ha₃).trans ha) hr'

/-- **The loop over groups shows the groups in their order.** -/
theorem groups_tours (hp : p.Accepted) {start bound : Nat} (hstart : start ≤ bound) (hbound : bound < 2 ^ 64)
    (hlimit : r.get? .stop = some (.ofNat bound)) (hgroup : r.get? .group = some (.ofNat start))
    (h : ∀ r', AgreeBelow 1 r r' → code.Tours (visit? code) goal steps items (code.start .done r')) :
    code.Tours (visit? code) goal (steps + 2 + (bound - start) * groupSteps p)
      (groupsVisits p.split start (bound - start) ++ items) (code.start .groupHeader r) := by
  have hcost : groupSteps p = 2 + (62 + 3 * p.split.walkSteps) := by
    rw [groupSteps, ← Nat.add_assoc]
  rw [hcost]
  refine (counts_groups hcode).tours hcode hbound hlimit ?_ h (by omega) (.refl _ _) hgroup
  intro b _ r₁ steps items ha hgroup₁ hnext
  exact group_tours hcode hp hgroup₁ fun r₂ ha₂ hr₂ => hnext r₂ (ha.trans ha₂) hr₂

end

end AxisNorm.Normalization
