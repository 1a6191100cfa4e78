import AxisNorm.Proofs.Code.Reach
import AxisNorm.Proofs.Code.WellFormed

/-!
# Well-formed routines find their operands

A well-formed routine may load or store where nothing is mapped, but it never lacks an operand or finds one of the
wrong type.

* `Registers.Has`: a register has a word of a type.
* `Frame.At`: a frame before a line of a block, with all values that are available there.
* `Routine.WellFormed.next_sound`: one step leads to such a frame again, unless it ends the call.
* `Routine.WellFormed.next_ne_badOperand`: **no step of a well-formed routine has a bad operand.**
-/

namespace AxisNorm.Code

variable {L V : Type}

/-! ## Words -/

namespace Word

theorem exists_ofInt? {type : ValueType} (h : type.hasIntegers) (n : Int) :
    ∃ w, ofInt? type n = some w ∧ w.type = type := by
  cases type <;> first | exact ⟨_, rfl, rfl⟩ | cases h

theorem exists_ofBits? {type : ValueType} (h : type.hasWords) (n : Nat) :
    ∃ w, ofBits? type n = some w ∧ w.type = type := by
  cases type <;> first | exact ⟨_, rfl, rfl⟩ | cases h

end Word

theorem IntegerOp.exists_apply (op : IntegerOp) {type : ValueType} (h : type.hasIntegers) {u w : Word}
    (hu : u.type = type) (hw : w.type = type) : ∃ x, op.apply u w = some x ∧ x.type = type := by
  subst hu
  cases u <;> cases w <;> cases hw <;> first | exact ⟨_, rfl, rfl⟩ | cases h

theorem Condition.exists_apply (cond : Condition) {type : ValueType} (h : type.hasIntegers) {u w : Word}
    (hu : u.type = type) (hw : w.type = type) : ∃ x, cond.apply u w = some x ∧ x.type = .i8 := by
  subst hu
  cases u <;> cases w <;> cases hw <;> first | exact ⟨_, rfl, rfl⟩ | cases h

/-! ## Registers -/

variable [DecidableEq V] [Hashable V] {r : Registers V}

namespace Registers

/-- The register has a word of the type. -/
def Has (r : Registers V) (u : V × ValueType) : Prop := ∃ w, r.get? u.1 = some w ∧ w.type = u.2

namespace Has

variable {v : V} {u : V × ValueType}

theorem set {w : Word} (h : r.Has u) (hw : v = u.1 → w.type = u.2) : (r.set v w).Has u := by
  by_cases hv : v = u.1
  · exact ⟨w, by rw [hv, get?_set_self], hw hv⟩
  · obtain ⟨x, hx, htype⟩ := h
    exact ⟨x, by rw [get?_set_of_ne hv, hx], htype⟩

theorem exists_typed? {type : ValueType} (h : r.Has (v, type)) : ∃ w, r.typed? type v = some w ∧ w.type = type := by
  obtain ⟨w, hw, htype⟩ := h
  exact ⟨w, typed?_eq hw htype, htype⟩

theorem exists_i8 (h : r.Has (v, .i8)) : ∃ x, r.get? v = some (.i8 x) := by
  obtain ⟨w, hw, htype⟩ := h
  cases w <;> first | exact ⟨_, hw⟩ | cases htype

theorem exists_i32 (h : r.Has (v, .i32)) : ∃ x, r.get? v = some (.i32 x) := by
  obtain ⟨w, hw, htype⟩ := h
  cases w <;> first | exact ⟨_, hw⟩ | cases htype

theorem exists_single? (h : r.Has (v, .f32)) : ∃ x, r.single? v = some x := by
  obtain ⟨w, hw, htype⟩ := h
  cases w <;> first | exact ⟨_, by rw [single?, hw]⟩ | cases htype

theorem exists_address? (h : r.Has (v, .i64)) (offset : Nat) : ∃ a, r.address? v offset = some a := by
  obtain ⟨w, hw, htype⟩ := h
  cases w <;> first | exact ⟨_, by rw [address?, hw]⟩ | cases htype

end Has

theorem has_set (r : Registers V) (v : V) (w : Word) : (r.set v w).Has (v, w.type) := ⟨w, get?_set_self .., rfl⟩

theorem exists_bind? {parameters : List (V × ValueType)} {words : List Word}
    (h : words.map Word.type = parameters.map (·.2)) (r : Registers V) :
    ∃ r', r.bind? parameters words = some r' ∧ ∀ u, r.Has u ∨ u ∈ parameters →
      (∀ v ∈ parameters, v.1 = u.1 → v = u) → r'.Has u := by
  induction parameters generalizing words r with
  | nil =>
    obtain rfl := List.map_eq_nil_iff.mp h
    exact ⟨r, rfl, fun u hu _ => hu.resolve_right List.not_mem_nil⟩
  | cons v parameters ih =>
    cases words with
    | nil => cases h
    | cons w words =>
      obtain ⟨htype, h⟩ := List.cons.inj h
      obtain ⟨r', hr', hhas⟩ := ih h (r.set v.1 w)
      refine ⟨r', by rw [bind?, if_pos htype, hr'], fun u hu hnames => ?_⟩
      refine hhas u ?_ fun x hx => hnames x (List.mem_cons_of_mem _ hx)
      rcases hu with hu | hu
      · exact .inl (hu.set fun hv => htype.trans (congrArg Prod.snd (hnames v List.mem_cons_self hv)))
      · rcases List.mem_cons.mp hu with rfl | hu
        · exact .inl (by simpa only [htype] using has_set r u.1 w)
        · exact .inr hu

theorem exists_mapM {arguments : List V} {types : List ValueType} (hlength : arguments.length = types.length)
    (h : ∀ u ∈ arguments.zip types, r.Has u) :
    ∃ words, arguments.mapM r.get? = some words ∧ words.map Word.type = types := by
  induction arguments generalizing types with
  | nil =>
    obtain rfl := List.eq_nil_of_length_eq_zero hlength.symm
    exact ⟨[], rfl, rfl⟩
  | cons v arguments ih =>
    obtain ⟨type, types, rfl⟩ := List.exists_cons_of_length_eq_add_one hlength.symm
    rw [List.zip_cons_cons, List.forall_mem_cons] at h
    obtain ⟨w, hw, htype⟩ := h.1
    obtain ⟨words, hwords, htypes⟩ := ih (Nat.succ.inj hlength) h.2
    refine ⟨w :: words, ?_, by rw [List.map_cons, htype, htypes]⟩
    rw [List.mapM_cons, hw, hwords]
    rfl

end Registers

theorem Operation.exists_evaluate? {op : Operation V} (htyped : op.typed) (h : ∀ u ∈ op.uses, r.Has u) :
    ∃ w, op.evaluate? r = some w ∧ w.type = op.resultType := by
  cases op with
  | integerConst type n => exact Word.exists_ofInt? htyped n
  | floatConst x => exact ⟨_, rfl, rfl⟩
  | integer op type a b =>
    obtain ⟨u, hu, hutype⟩ := (h (a, type) (by simp [uses])).exists_typed?
    obtain ⟨w, hw, hwtype⟩ := (h (b, type) (by simp [uses])).exists_typed?
    rw [evaluate?_integer hu hw]
    exact op.exists_apply htyped hutype hwtype
  | integerImm op type a n =>
    obtain ⟨u, hu, hutype⟩ := (h (a, type) (by simp [uses])).exists_typed?
    obtain ⟨w, hw, hwtype⟩ := Word.exists_ofInt? htyped n
    rw [evaluate?_integerImm hu hw]
    exact op.exists_apply htyped hutype hwtype
  | compare cond type a b =>
    obtain ⟨u, hu, hutype⟩ := (h (a, type) (by simp [uses])).exists_typed?
    obtain ⟨w, hw, hwtype⟩ := (h (b, type) (by simp [uses])).exists_typed?
    rw [evaluate?_compare hu hw]
    exact cond.exists_apply htyped hutype hwtype
  | compareImm cond type a n =>
    obtain ⟨u, hu, hutype⟩ := (h (a, type) (by simp [uses])).exists_typed?
    obtain ⟨w, hw, hwtype⟩ := Word.exists_ofInt? htyped n
    rw [evaluate?_compareImm hu hw]
    exact cond.exists_apply htyped hutype hwtype
  | float op a b =>
    obtain ⟨x, hx⟩ := (h (a, .f32) (by simp [uses])).exists_single?
    obtain ⟨y, hy⟩ := (h (b, .f32) (by simp [uses])).exists_single?
    exact ⟨.f32 (op.apply x y), by simp [evaluate?, hx, hy], rfl⟩
  | sqrt a =>
    obtain ⟨x, hx⟩ := (h (a, .f32) (by simp [uses])).exists_single?
    exact ⟨.f32 x.sqrt, by simp [evaluate?, hx], rfl⟩
  | bitcast a =>
    obtain ⟨x, hx⟩ := (h (a, .f32) (by simp [uses])).exists_single?
    exact ⟨.i32 x.bits, by simp [evaluate?, hx], rfl⟩
  | reduce a =>
    obtain ⟨x, hx⟩ := (h (a, .i32) (by simp [uses])).exists_i32
    exact ⟨.i16 x.toUInt16, by simp [evaluate?, hx], rfl⟩

/-! ## Frames -/

/-- The frame is before line `n` of a block, and has all values that are available there. -/
structure Frame.At (code : Routine L V) (f : Frame L V) (l : L) (n : Nat) : Prop where
  reachable : ∃ visited, code.Path l visited
  lines : (code.block l).lines.drop n = f.pending.map .step ++ [.last f.terminator]
  terminator : f.terminator = (code.block l).terminator
  has : ∀ u, code.Available l n u → f.registers.Has u

/-- The call goes on where all operands are there, or it ends. -/
inductive Progress.Sound (code : Routine L V) : Progress L V → Prop
  | running {f : Frame L V} {l : L} {n : Nat} (h : f.At code l n) : Sound code (.running f)
  | returned (status : UInt32) : Sound code (.returned status)
  | unmapped (address : UInt64) : Sound code (.trapped (.unmapped address))

variable {code : Routine L V}

namespace Frame.At

variable {l : L} {n : Nat} {i : Instruction V} {rest : List (Instruction V)} {t : Terminator L V}

theorem line {f : Frame L V} (h : f.At code l n) :
    (code.block l).lines[n]? = (f.pending.map Line.step ++ [Line.last f.terminator]).head? := by
  rw [← List.head?_drop, h.lines]

theorem mem_body (h : At code ⟨r, i :: rest, t⟩ l n) : i ∈ (code.block l).body := by
  have hline : Line.step i ∈ (code.block l).lines := List.mem_of_getElem? h.line
  simpa [Block.lines] using hline

theorem pending_eq {f : Frame L V} (h : f.At code l n) : f.pending = (code.block l).body.drop n := by
  have hlines := h.lines
  have hn : n ≤ (code.block l).body.length := by
    have hlength := congrArg List.length hlines
    simp only [Block.lines, List.length_drop, List.length_append, List.length_map, List.length_singleton] at hlength
    omega
  rw [Block.lines, List.drop_append_of_le_length (by rwa [List.length_map]), ← List.map_drop] at hlines
  exact (List.map_injective_iff.mpr (fun _ _ => Line.step.inj) (List.append_inj_left' hlines rfl)).symm

theorem advance (h : At code ⟨r, i :: rest, t⟩ l n) {r' : Registers V}
    (hr' : ∀ u, code.Available l n u ∨ u ∈ i.defines → r'.Has u) : At code ⟨r', rest, t⟩ l (n + 1) where
  reachable := h.reachable
  lines := by
    rw [← List.tail_drop, h.lines]
    rfl
  terminator := h.terminator
  has u hu := hr' u (hu.of_succ h.line)

end Frame.At

namespace Routine.WellFormed

variable [DecidableEq L] (h : code.WellFormed) {l : L} {n : Nat} {rest : List (Instruction V)}
  {t : Terminator L V}

include h

theorem at_set {i : Instruction V} {v : V} {w : Word} (hf : Frame.At code ⟨r, i :: rest, t⟩ l n)
    (hdefines : i.defines = [(v, w.type)]) : Frame.At code ⟨r.set v w, rest, t⟩ l (n + 1) := by
  obtain ⟨visited, hpath⟩ := hf.reachable
  have hline : Line.step i ∈ (code.block l).lines := List.mem_of_getElem? hf.line
  have hdefined : (v, w.type) ∈ (code.block l).defined :=
    List.mem_append_right _ (List.mem_flatMap.mpr ⟨_, hline, by simp [Line.defines, hdefines]⟩)
  refine hf.advance fun u hu => ?_
  rcases hu with hu | hu
  · refine (hf.has u hu).set fun hname => ?_
    obtain ⟨d, hd, hdefined'⟩ := h.exists_defined hpath hu
    exact congrArg Prod.snd (h.eq_of_defined (h.mem_layout hpath hpath.mem) hd hdefined hdefined' hname)
  · rw [hdefines, List.mem_singleton] at hu
    exact hu ▸ Registers.has_set r v w

theorem enter_sound {words : List Word} (hreachable : ∃ visited, code.Path l visited)
    (hwords : words.map Word.type = (code.block l).parameters.map (·.2))
    (hr : ∀ u, code.Available l 0 u → r.Has u ∨ u ∈ (code.block l).parameters) :
    (code.enter r l words).Sound code := by
  obtain ⟨r', hr', hhas⟩ := Registers.exists_bind? hwords r
  rw [enter, hr']
  refine .running (l := l) (n := 0) ⟨hreachable, rfl, rfl, fun u hu => hhas u (hr u hu) fun v hv hname => ?_⟩
  obtain ⟨visited, hpath⟩ := hreachable
  obtain ⟨d, hd, hdefined⟩ := h.exists_defined hpath hu
  exact h.eq_of_defined (h.mem_layout hpath hpath.mem) hd (List.mem_append_left _ hv) hdefined hname

theorem edge_sound {l' : L} {words : List Word} (hf : Frame.At code ⟨r, [], t⟩ l n)
    (hedge : l' ∈ (code.block l).successors)
    (hwords : words.map Word.type = (code.block l').parameters.map (·.2)) : (code.enter r l' words).Sound code := by
  obtain ⟨visited, hpath⟩ := hf.reachable
  exact h.enter_sound ⟨_, hpath.step hedge⟩ hwords fun u hu => (hu.of_edge hf.lines hedge).symm.imp_left (hf.has u)

/-- One step leads to a frame that has what it needs, or ends the call. -/
theorem next_sound (hresults : code.results = [.i32]) {f : Frame L V} (hf : f.At code l n) (m : Memory) :
    (f.next code m).Sound code := by
  obtain ⟨r, pending, t⟩ := f
  obtain ⟨visited, hpath⟩ := hf.reachable
  have hmem : l ∈ code.layout := h.mem_layout hpath hpath.mem
  have huses : ∀ x, (code.block l).lines[n]? = some x → ∀ u ∈ code.uses x, r.Has u :=
    fun x hx u hu => hf.has u (h.available l hmem n x hx u hu)
  cases pending with
  | cons i rest =>
    have huses := huses _ hf.line
    have htyped : i.typed := h.typed l hmem i hf.mem_body
    cases i with
    | set v op =>
      obtain ⟨w, hw, htype⟩ := Operation.exists_evaluate? htyped huses
      simp only [Frame.next, hw, Frame.proceed]
      exact .running (h.at_set hf (by rw [htype]; rfl))
    | load v type address offset =>
      obtain ⟨a, ha⟩ := (huses (address, .i64) (by simp [uses, Instruction.uses])).exists_address? offset
      simp only [Frame.next, ha]
      cases m.load? a type.bytes with
      | none => exact .unmapped a
      | some k =>
        obtain ⟨w, hw, htype⟩ := Word.exists_ofBits? htyped k
        simp only [hw, Frame.proceed]
        exact .running (h.at_set hf (by rw [htype]; rfl))
    | store type v address offset =>
      obtain ⟨w, hw, -⟩ := (huses (v, type) (by simp [uses, Instruction.uses])).exists_typed?
      obtain ⟨a, ha⟩ := (huses (address, .i64) (by simp [uses, Instruction.uses])).exists_address? offset
      simp only [Frame.next, hw, ha]
      split
      · exact .running (hf.advance fun u hu => hf.has u (hu.resolve_right List.not_mem_nil))
      · exact .unmapped a
  | nil =>
    have huses := huses _ hf.line
    have hterminator : t = (code.block l).terminator := hf.terminator
    have hdestinations := hterminator ▸ h.destinations l hmem
    cases t with
    | jump target arguments =>
      obtain ⟨hlayout, hlength⟩ := hdestinations (target, arguments) List.mem_cons_self
      obtain ⟨words, hwords, htypes⟩ := Registers.exists_mapM (hlength.trans (List.length_map ..).symm) huses
      simp only [Frame.next, hwords]
      exact h.edge_sound hf (by simp [Block.successors, ← hterminator, Terminator.destinations]) htypes
    | branch condition ifTrue ifFalse =>
      obtain ⟨b, hb⟩ := (huses (condition, .i8) (by simp [uses])).exists_i8
      simp only [Frame.next, hb]
      have hedge (l' : L) (hl' : l' = ifTrue ∨ l' = ifFalse) : (code.enter r l' []).Sound code := by
        have hdestination : (l', []) ∈ (Terminator.branch condition ifTrue ifFalse).destinations := by
          rcases hl' with rfl | rfl <;> simp [Terminator.destinations]
        refine h.edge_sound hf ?_ ?_
        · rw [Block.successors, ← hterminator]
          exact List.mem_map_of_mem (f := Prod.fst) hdestination
        · rw [List.eq_nil_of_length_eq_zero (hdestinations _ hdestination).2.symm]
          rfl
      split
      · exact hedge _ (.inr rfl)
      · exact hedge _ (.inl rfl)
    | ret value =>
      obtain ⟨status, hstatus⟩ := (huses (value, .i32) (by simp [uses, hresults])).exists_i32
      simp only [Frame.next, hstatus]
      exact .returned status

variable (hresults : code.results = [.i32]) {arguments : List Word}
  (harguments : arguments.map Word.type = code.parameters)

include harguments in
theorem start_sound : (code.enter .empty code.entry arguments).Sound code :=
  h.enter_sound ⟨_, .entry⟩ harguments fun _ hu => .inr hu.of_entry

include hresults in
theorem at_of_reaches {p : Progress L V} {f : Frame L V} (hp : p.Sound code) (hreach : code.Reaches p f) :
    ∃ l n, f.At code l n := by
  induction hreach with
  | here f =>
    cases hp with
    | running hf => exact ⟨_, _, hf⟩
  | step m _ ih =>
    cases hp with
    | running hf => exact ih (h.next_sound hresults hf m)

include hresults harguments in
/-- **No step of a well-formed routine has a bad operand.** -/
theorem next_ne_badOperand {f : Frame L V} (hreach : code.Reaches (code.enter .empty code.entry arguments) f)
    (m : Memory) : f.next code m ≠ .trapped .badOperand := by
  obtain ⟨l, n, hf⟩ := h.at_of_reaches hresults (h.start_sound harguments) hreach
  intro hbad
  have hsound := h.next_sound hresults hf m
  rw [hbad] at hsound
  cases hsound

end Routine.WellFormed

end AxisNorm.Code
