import AxisNorm.Code.Routine
import Mathlib.Data.List.Nodup

/-!
# Well-formed routines

Whether a routine is well formed is a matter of its blocks alone: of how they end, where they lead, and of
where the values that they use are defined.

* `Routine.WellFormed`: what holds of a well-formed routine. A value is used where its definition dominates.
* `Routine.Available.of_edge`: what is available in a block was so at the end of the block before it.
* `Routine.Certified`: what can be checked block by block, given the dominators of each block.
* `Routine.Certified.wellFormed`: **what passes the checks is well formed.**
* `Routine.profile_congr`, `Routine.defined_congr`, `Routine.known_congr`: what is used and defined does not
  depend on immediates.
-/

namespace AxisNorm.Code

variable {L V : Type}

/-! ## Operands, results and immediates -/

namespace ValueType

/-- The machine has words of the type. -/
def hasWords : ValueType → Bool
  | .i128 | .f64 => false
  | .i8 | .i16 | .i32 | .i64 | .f32 => true

/-- The machine can compute with integers of the type. -/
def hasIntegers : ValueType → Bool
  | .f32 => false
  | type => type.hasWords

end ValueType

namespace Operation

/-- The operands, each with the type that it must have. -/
def uses : Operation V → List (V × ValueType)
  | .integerConst _ _ | .floatConst _ => []
  | .integer _ type a b | .compare _ type a b => [(a, type), (b, type)]
  | .integerImm _ type a _ | .compareImm _ type a _ => [(a, type)]
  | .float _ a b => [(a, .f32), (b, .f32)]
  | .sqrt a | .bitcast a => [(a, .f32)]
  | .reduce a => [(a, .i32)]

def resultType : Operation V → ValueType
  | .integerConst type _ | .integer _ type _ _ | .integerImm _ type _ _ => type
  | .compare _ _ _ _ | .compareImm _ _ _ _ => .i8
  | .floatConst _ | .float _ _ _ | .sqrt _ => .f32
  | .bitcast _ => .i32
  | .reduce _ => .i16

/-- The type is one that there is the operation for. -/
def typed : Operation V → Bool
  | .integerConst type _ | .integer _ type _ _ | .integerImm _ type _ _ | .compare _ type _ _
  | .compareImm _ type _ _ => type.hasIntegers
  | _ => true

/-- The signed numbers in an operation. -/
def immediates : Operation V → List Int
  | .integerConst _ n | .integerImm _ _ _ n | .compareImm _ _ _ n => [n]
  | _ => []

/-- The operation with zero in the place of its signed number. -/
def blank : Operation V → Operation V
  | .integerConst type _ => .integerConst type 0
  | .integerImm op type a _ => .integerImm op type a 0
  | .compareImm cond type a _ => .compareImm cond type a 0
  | op => op

end Operation

namespace Instruction

def uses : Instruction V → List (V × ValueType)
  | .set _ operation => operation.uses
  | .load _ _ address _ => [(address, .i64)]
  | .store type value address _ => [(value, type), (address, .i64)]

def defines : Instruction V → List (V × ValueType)
  | .set result operation => [(result, operation.resultType)]
  | .load result type _ _ => [(result, type)]
  | .store _ _ _ _ => []

def typed : Instruction V → Bool
  | .set _ operation => operation.typed
  | .load _ type _ _ | .store type _ _ _ => type.hasWords

def immediates : Instruction V → List Int
  | .set _ operation => operation.immediates
  | _ => []

def blank : Instruction V → Instruction V
  | .set result operation => .set result operation.blank
  | i => i

end Instruction

/-- The blocks that a terminator leads to, each with what it is given. -/
def Terminator.destinations : Terminator L V → List (L × List V)
  | .jump target arguments => [(target, arguments)]
  | .branch _ ifTrue ifFalse => [(ifTrue, []), (ifFalse, [])]
  | .ret _ => []

/-- An instruction of a block as it is laid out: a step or its end. -/
inductive Line (L V : Type) where
  | step (instruction : Instruction V)
  | last (terminator : Terminator L V)

namespace Line

def isLast : Line L V → Bool
  | step _ => false
  | last _ => true

def defines : Line L V → List (V × ValueType)
  | step i => i.defines
  | last _ => []

end Line

namespace Block

variable (b : Block L V)

def lines : List (Line L V) := b.body.map .step ++ [.last b.terminator]

theorem lines_eq_append_last : ∃ steps, b.lines = steps ++ [.last b.terminator] ∧ ∀ x ∈ steps, x.isLast = false := by
  refine ⟨_, rfl, fun x hx => ?_⟩
  obtain ⟨i, -, rfl⟩ := List.mem_map.mp hx
  rfl

def successors : List L := b.terminator.destinations.map (·.1)

/-- The values that are defined before a line. -/
def definedBefore (n : Nat) : List (V × ValueType) := b.parameters ++ (b.lines.take n).flatMap Line.defines

def defined : List (V × ValueType) := b.parameters ++ b.lines.flatMap Line.defines

def typed : Bool := b.body.all Instruction.typed

def immediates : List Int := b.body.flatMap Instruction.immediates

/-- The block with zeros for its immediates. -/
def blank : Block L V := { b with body := b.body.map Instruction.blank }

/-- The number that a block gives to a value, if that is a constant. -/
def constant? [DecidableEq V] (v : V) : Option Int :=
  b.body.findSome? fun
    | .set result (.integerConst _ n) => if result = v then some n else none
    | _ => none

end Block

/-! ## Well-formed routines -/

namespace Routine

variable (r : Routine L V)

/-- What a line uses. An argument has the type of its parameter, and what is returned that of the result. -/
def uses : Line L V → List (V × ValueType)
  | .step i => i.uses
  | .last (.jump target arguments) => arguments.zip ((r.block target).parameters.map (·.2))
  | .last (.branch condition _ _) => [(condition, .i8)]
  | .last (.ret value) => [value].zip r.results

/-- The constants that are returned, one for each return. -/
def returns [DecidableEq V] : List (Option Int) :=
  r.layout.filterMap fun l =>
    match (r.block l).terminator with
    | .ret v => some ((r.block l).constant? v)
    | _ => none

/-- Ways from the entry to a block, with the blocks on them. -/
inductive Path : L → List L → Prop
  | entry : Path r.entry [r.entry]
  | step {l l' : L} {visited : List L} (h : Path l visited) (hedge : l' ∈ (r.block l).successors) :
    Path l' (l' :: visited)

variable {r} in
theorem Path.mem {l : L} {visited : List L} (h : r.Path l visited) : l ∈ visited := by
  cases h <;> exact List.mem_cons_self

variable {r} in
theorem Path.mem_layout (hfirst : r.layout.head? = some r.entry)
    (hsuccessors : ∀ l ∈ r.layout, ∀ l' ∈ (r.block l).successors, l' ∈ r.layout) {l : L} {visited : List L}
    (h : r.Path l visited) : ∀ d ∈ visited, d ∈ r.layout := by
  induction h with
  | entry => exact fun d hd => List.mem_singleton.mp hd ▸ List.mem_of_mem_head? hfirst
  | step hpath hedge ih => exact List.forall_mem_cons.mpr ⟨hsuccessors _ (ih _ hpath.mem) _ hedge, ih⟩

/-- All ways to a block go through another. -/
def Dominates (d l : L) : Prop := ∀ visited, r.Path l visited → d ∈ visited

/-- A value is there before a line: it is defined earlier in the block or in a block that dominates it. -/
def Available (l : L) (n : Nat) (u : V × ValueType) : Prop :=
  u ∈ (r.block l).definedBefore n ∨ ∃ d, d ≠ l ∧ r.Dominates d l ∧ u ∈ (r.block d).defined

section

variable [DecidableEq L]

/-- The place of a block in the layout. -/
def place (l : L) : Nat := r.layout.idxOf l

/-- The edges that do not lead on in the layout. -/
def backEdges : List (L × L) :=
  r.layout.flatMap fun l => ((r.block l).successors.filter (r.place · ≤ r.place l)).map (l, ·)

/-- The blocks of the loop of a back edge: those from which there is a way to its source that does not go
through its target. -/
inductive InLoop (latch header : L) : L → Prop
  | latch : InLoop latch header latch
  | step {l l' : L} (hl : l ∈ r.layout) (hedge : l' ∈ (r.block l).successors) (hne : l' ≠ header)
    (h : InLoop latch header l') : InLoop latch header l

/-- Control goes from the start of a block to its end and on to the start of another, and values are there
where they are used. -/
structure WellFormed : Prop where
  first : r.layout.head? = some r.entry
  nodup : r.layout.Nodup
  /-- Destinations are blocks that are laid out, and are given as many values as they have parameters. -/
  destinations : ∀ l ∈ r.layout, ∀ x ∈ (r.block l).terminator.destinations,
    x.1 ∈ r.layout ∧ x.2.length = (r.block x.1).parameters.length
  /-- There is the operation for the type. -/
  typed : ∀ l ∈ r.layout, ∀ i ∈ (r.block l).body, i.typed
  /-- A return gives as many values as there are results. -/
  results : ∀ l ∈ r.layout, ∀ v, (r.block l).terminator = .ret v → r.results.length = 1
  reachable : ∀ l ∈ r.layout, ∃ visited, r.Path l visited
  /-- What a line uses is there, and has the type that it must have. -/
  available : ∀ l ∈ r.layout, ∀ n x, (r.block l).lines[n]? = some x → ∀ u ∈ r.uses x, r.Available l n u
  /-- A value is defined once. -/
  unique : (r.layout.flatMap fun l => (r.block l).defined.map (·.1)).Nodup
  /-- A back edge leads to a block that dominates its source, and its source is the last block of the
  loop. -/
  loops : ∀ e ∈ r.backEdges, r.Dominates e.2 e.1 ∧
    ∀ l, r.InLoop e.1 e.2 l → r.place e.2 ≤ r.place l ∧ r.place l ≤ r.place e.1

end

/-! ## What is available -/

section

variable {r} {l l' : L} {n : Nat} {u v : V × ValueType}

theorem Available.of_succ {x : Line L V} (hx : (r.block l).lines[n]? = some x) (h : r.Available l (n + 1) u) :
    r.Available l n u ∨ u ∈ x.defines := by
  rcases h with h | h
  · rw [Block.definedBefore, List.take_add_one, hx, List.flatMap_append, ← List.append_assoc] at h
    exact (List.mem_append.mp h).imp .inl (by simp)
  · exact .inl (.inr h)

theorem Available.of_defined {t : Terminator L V} (hlast : (r.block l).lines.drop n = [.last t])
    (h : u ∈ (r.block l).defined) : r.Available l n u := by
  rw [Block.defined, ← List.take_append_drop n (r.block l).lines, hlast, List.flatMap_append,
    ← List.append_assoc] at h
  exact .inl ((List.mem_append.mp h).resolve_right (by simp [Line.defines]))

/-- What is available at the start of a block is a parameter, or is available at the end of the block before
it. -/
theorem Available.of_edge {t : Terminator L V} (hlast : (r.block l).lines.drop n = [.last t])
    (hedge : l' ∈ (r.block l).successors) (h : r.Available l' 0 u) :
    u ∈ (r.block l').parameters ∨ r.Available l n u := by
  rcases h with h | ⟨d, hne, hdominates, hdefined⟩
  · exact .inl (by simpa [Block.definedBefore] using h)
  · refine .inr ?_
    by_cases hd : d = l
    · exact .of_defined hlast (hd ▸ hdefined)
    · exact .inr ⟨d, hd, fun visited hpath =>
        (List.mem_cons.mp (hdominates _ (hpath.step hedge))).resolve_left hne, hdefined⟩

theorem Available.of_entry (h : r.Available r.entry 0 u) : u ∈ (r.block r.entry).parameters := by
  rcases h with h | ⟨d, hne, hdominates, -⟩
  · simpa [Block.definedBefore] using h
  · exact absurd (List.mem_singleton.mp (hdominates _ .entry)) hne

theorem forall_successors (h : ∀ l ∈ r.layout, ∀ x ∈ (r.block l).terminator.destinations,
      x.1 ∈ r.layout ∧ x.2.length = (r.block x.1).parameters.length) :
    ∀ l ∈ r.layout, ∀ l' ∈ (r.block l).successors, l' ∈ r.layout := by
  intro l hl l' hl'
  obtain ⟨x, hx, rfl⟩ := List.mem_map.mp hl'
  exact (h l hl x hx).1

variable [DecidableEq L] (h : r.WellFormed)

include h

theorem WellFormed.mem_layout {visited : List L} (hpath : r.Path l visited) {d : L} (hd : d ∈ visited) :
    d ∈ r.layout :=
  hpath.mem_layout h.first (forall_successors h.destinations) d hd

theorem WellFormed.exists_defined {visited : List L} (hpath : r.Path l visited) (hu : r.Available l n u) :
    ∃ d ∈ r.layout, u ∈ (r.block d).defined := by
  rcases hu with hu | ⟨d, -, hdominates, hdefined⟩
  · refine ⟨l, h.mem_layout hpath hpath.mem, ?_⟩
    rw [Block.defined, ← List.take_append_drop n (r.block l).lines, List.flatMap_append, ← List.append_assoc]
    exact List.mem_append_left _ hu
  · exact ⟨d, h.mem_layout hpath (hdominates _ hpath), hdefined⟩

theorem WellFormed.eq_of_defined (hl : l ∈ r.layout) (hl' : l' ∈ r.layout) (hu : u ∈ (r.block l).defined)
    (hv : v ∈ (r.block l').defined) (hname : u.1 = v.1) : u = v := by
  have hunique := h.unique
  rw [← List.map_flatMap] at hunique
  exact List.inj_on_of_nodup_map hunique (List.mem_flatMap.mpr ⟨l, hl, hu⟩)
    (List.mem_flatMap.mpr ⟨l', hl', hv⟩) hname

end

/-! ## Checks -/

/-- What the lines of a block use and define. -/
def profile (l : L) : List (List (V × ValueType) × List (V × ValueType)) :=
  (r.block l).lines.map fun x => (r.uses x, x.defines)

/-- The lines use what is known or what lines before them define. -/
def Resolved : List (V × ValueType) → List (List (V × ValueType) × List (V × ValueType)) → Prop
  | _, [] => True
  | known, (uses, defines) :: lines => (∀ u ∈ uses, u ∈ known) ∧ Resolved (defines ++ known) lines

instance decidableResolved [DecidableEq V] : (known : List (V × ValueType)) →
    (lines : List (List (V × ValueType) × List (V × ValueType))) → Decidable (Resolved known lines)
  | _, [] => inferInstanceAs (Decidable True)
  | known, (_, defines) :: lines =>
    have := decidableResolved (defines ++ known) lines
    inferInstanceAs (Decidable (_ ∧ _))

variable {r} in
theorem Resolved.mem {known : List (V × ValueType)} {xs : List (Line L V)}
    (h : Resolved known (xs.map fun x => (r.uses x, x.defines))) {n : Nat} {x : Line L V} (hx : xs[n]? = some x)
    {u : V × ValueType} (hu : u ∈ r.uses x) : u ∈ known ∨ u ∈ (xs.take n).flatMap Line.defines := by
  induction xs generalizing known n with
  | nil => cases hx
  | cons y ys ih =>
    cases n with
    | zero =>
      cases hx
      exact .inl (h.1 u hu)
    | succ n =>
      rw [List.take_succ_cons, List.flatMap_cons, List.mem_append]
      rcases ih h.2 hx with hknown | hbefore
      · exact (List.mem_append.mp hknown).elim (fun hy => .inr (.inl hy)) .inl
      · exact .inr (.inr hbefore)

section

variable [DecidableEq L]

/-- What is known at the start of a block. -/
def known (dominators : L → List L) (l : L) : List (V × ValueType) :=
  (r.block l).parameters ++ ((dominators l).filter (· ≠ l)).flatMap fun d => (r.block d).defined

/-- A routine with the dominators of its blocks. -/
structure Certified (dominators : L → List L) : Prop where
  destinations : ∀ l ∈ r.layout, ∀ x ∈ (r.block l).terminator.destinations,
    x.1 ∈ r.layout ∧ x.2.length = (r.block x.1).parameters.length
  first : r.layout.head? = some r.entry
  nodup : r.layout.Nodup
  typed : ∀ l ∈ r.layout, (r.block l).typed
  results : r.results.length = 1
  root : ∀ d ∈ dominators r.entry, d = r.entry
  /-- What dominates a block dominates what leads there, but for the block itself. -/
  edges : ∀ l ∈ r.layout, ∀ l' ∈ (r.block l).successors, ∀ d ∈ dominators l', d = l' ∨ d ∈ dominators l
  /-- A block before it leads to each block but the entry. -/
  earlier : ∀ l ∈ r.layout, l = r.entry ∨ ∃ l' ∈ r.layout, r.place l' < r.place l ∧ l ∈ (r.block l').successors
  resolved : ∀ l ∈ r.layout, Resolved (r.known dominators l) (r.profile l)
  unique : (r.layout.flatMap fun l => (r.block l).defined.map (·.1)).Nodup
  /-- Between the ends of a back edge nothing is entered from outside but the target. -/
  loops : ∀ e ∈ r.backEdges, e.2 ∈ dominators e.1 ∧
    ∀ l ∈ r.layout, ∀ l' ∈ (r.block l).successors, l' ≠ e.2 →
      r.place e.2 ≤ r.place l' ∧ r.place l' ≤ r.place e.1 → r.place e.2 ≤ r.place l ∧ r.place l ≤ r.place e.1

variable {r}

namespace Certified

variable {dominators : L → List L} (h : r.Certified dominators)

include h

theorem dominates {d l : L} (hd : d ∈ dominators l) : r.Dominates d l := by
  intro visited hpath
  induction hpath generalizing d with
  | entry => exact List.mem_singleton.mpr (h.root d hd)
  | step hpath hedge ih =>
    have hmem := hpath.mem_layout h.first (forall_successors h.destinations) _ hpath.mem
    rcases h.edges _ hmem _ hedge d hd with rfl | hd
    · exact List.mem_cons_self
    · exact List.mem_cons_of_mem _ (ih hd)

theorem reachable {l : L} (hl : l ∈ r.layout) : ∃ visited, r.Path l visited := by
  induction hplace : r.place l using Nat.strongRecOn generalizing l with
  | ind n ih =>
    rcases h.earlier l hl with rfl | ⟨l', hl', hlt, hedge⟩
    · exact ⟨_, .entry⟩
    · obtain ⟨visited, hpath⟩ := ih _ (hplace ▸ hlt) hl' rfl
      exact ⟨_, hpath.step hedge⟩

theorem available {l : L} (hl : l ∈ r.layout) {n : Nat} {x : Line L V} (hx : (r.block l).lines[n]? = some x)
    {u : V × ValueType} (hu : u ∈ r.uses x) : r.Available l n u := by
  rcases (h.resolved l hl).mem hx hu with hknown | hbefore
  · rcases List.mem_append.mp hknown with hparameter | hdominator
    · exact .inl (List.mem_append_left _ hparameter)
    · obtain ⟨d, hd, hdefined⟩ := List.mem_flatMap.mp hdominator
      obtain ⟨hd, hne⟩ := List.mem_filter.mp hd
      exact .inr ⟨d, of_decide_eq_true hne, h.dominates hd, hdefined⟩
  · exact .inl (List.mem_append_right _ hbefore)

/-- **What passes the checks is well formed.** -/
theorem wellFormed : r.WellFormed where
  first := h.first
  nodup := h.nodup
  destinations := h.destinations
  typed l hl := List.all_eq_true.mp (h.typed l hl)
  results _ _ _ _ := h.results
  reachable _ hl := h.reachable hl
  available _ hl _ _ hx _ hu := h.available hl hx hu
  unique := h.unique
  loops e he := by
    obtain ⟨hdominates, hclosed⟩ := h.loops e he
    obtain ⟨l, -, hl⟩ := List.mem_flatMap.mp he
    obtain ⟨l', hl', rfl⟩ := List.mem_map.mp hl
    refine ⟨h.dominates hdominates, fun x hx => ?_⟩
    induction hx with
    | latch => exact ⟨of_decide_eq_true (List.mem_filter.mp hl').2, Nat.le_refl _⟩
    | step hmem hedge hne _ ih => exact hclosed _ hmem _ hedge hne ih

end Certified

end

/-! ## Immediates -/

section

variable {r}
variable {r' : Routine L V} (hresults : r'.results = r.results)
  (hblock : ∀ l, (r'.block l).blank = (r.block l).blank)

theorem profile_blank (i : Instruction V) :
    ((i.blank.uses, i.blank.defines) : List (V × ValueType) × List (V × ValueType)) = (i.uses, i.defines) := by
  cases i with
  | set result op => cases op <;> rfl
  | _ => rfl

theorem typed_blank (i : Instruction V) : i.blank.typed = i.typed := by
  cases i with
  | set result op => cases op <;> rfl
  | _ => rfl

include hblock

theorem typed_congr (l : L) : (r'.block l).typed = (r.block l).typed := by
  have h := congrArg Block.typed (hblock l)
  simpa only [Block.typed, Block.blank, List.all_map, Function.comp_def, typed_blank] using h

theorem parameters_congr (l : L) : (r'.block l).parameters = (r.block l).parameters :=
  (congrArg Block.parameters (hblock l) :)

theorem terminator_congr (l : L) : (r'.block l).terminator = (r.block l).terminator :=
  (congrArg Block.terminator (hblock l) :)

include hresults

theorem profile_congr (l : L) : r'.profile l = r.profile l := by
  have hbody := congrArg (fun b : Block L V => b.body.map fun i => (i.uses, i.defines)) (hblock l)
  simp only [Block.blank, List.map_map, Function.comp_def, profile_blank] at hbody
  have hlast : r'.uses (.last (r.block l).terminator) = r.uses (.last (r.block l).terminator) := by
    cases (r.block l).terminator with
    | jump target arguments => simp only [uses, parameters_congr hblock]
    | branch condition ifTrue ifFalse => rfl
    | ret value => simp only [uses, hresults]
  simp only [profile, Block.lines, List.map_append, List.map_map, Function.comp_def, List.map_cons, List.map_nil,
    terminator_congr hblock, hlast]
  exact congrArg (· ++ _) hbody

theorem defined_congr (l : L) : (r'.block l).defined = (r.block l).defined := by
  have hdefined (r : Routine L V) : (r.block l).defined = (r.block l).parameters ++ (r.profile l).flatMap (·.2) := by
    rw [Block.defined, profile, List.flatMap_map]
  rw [hdefined, hdefined, parameters_congr hblock, profile_congr hresults hblock]

theorem known_congr [DecidableEq L] (dominators : L → List L) (l : L) :
    r'.known dominators l = r.known dominators l := by
  simp only [known, parameters_congr hblock, defined_congr hresults hblock]

end

end Routine

end AxisNorm.Code
