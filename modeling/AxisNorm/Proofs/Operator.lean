import AxisNorm.Operator
import Mathlib.Data.List.Lex
import Mathlib.Tactic.SplitIfs

/-!
# Attributes of a description

* `bytes_lt_of_lt`: the order of texts is that of their bytes.
* `Operator.withAttributes`: updates, one after the other.
* `Operator.Updated`: **what updates leave: the last value that was given, or else the value that was there, each
  name once and in order** (`Operator.withAttributes_updated`).
* `Operator.withAttributes_eq_iff`: **descriptions are equal if their attributes agree.**
-/

namespace AxisNorm

/-! ## The order of names -/

/-- The bytes of a text. -/
def bytes (s : String) : List UInt8 := s.toUTF8.data.toList

theorem bytes_eq (s : String) : bytes s = s.toList.flatMap String.utf8EncodeChar := by
  rw [bytes, String.toUTF8_eq_toByteArray, ← String.utf8Encode_toList, List.utf8Encode,
    List.toList_data_toByteArray]

theorem ofNat_cons_lt {a b : Nat} {xs ys : List UInt8} (ha : a < 256) (hb : b < 256) :
    UInt8.ofNat a :: xs < UInt8.ofNat b :: ys ↔ a < b ∨ a = b ∧ xs < ys := by
  rw [List.cons_lt_cons_iff, UInt8.lt_iff_toNat_lt, ← UInt8.toNat_inj, UInt8.toNat_ofNat', UInt8.toNat_ofNat',
    Nat.mod_eq_of_lt ha, Nat.mod_eq_of_lt hb]

/-- The bytes of a lesser character come first, whatever follows. A longer encoding begins with a greater byte, and
encodings of one length are digits to the base of 64. -/
theorem utf8EncodeChar_append_lt {c d : Char} (h : c < d) (xs ys : List UInt8) :
    String.utf8EncodeChar c ++ xs < String.utf8EncodeChar d ++ ys := by
  have hlt : c.val.toNat < d.val.toNat := h
  have hmax : d.val.toNat < 0x110000 := by
    rcases d.valid with h | ⟨-, h⟩
    · exact Nat.lt_trans h (by decide)
    · exact h
  unfold String.utf8EncodeChar
  dsimp only
  generalize c.val.toNat = m at hlt ⊢
  generalize d.val.toNat = n at hlt hmax ⊢
  split_ifs
  all_goals
    simp only [List.cons_append, List.nil_append]
    repeat rw [ofNat_cons_lt (by omega) (by omega)]
  any_goals omega
  -- Four bytes each.
  have hsecond (v : Nat) : v / 4096 = v / 64 / 64 := by omega
  have hfirst (v : Nat) : v / 262144 = v / 64 / 64 / 64 := by omega
  rw [hsecond m, hsecond n, hfirst m, hfirst n]
  omega

theorem utf8EncodeChar_ne_nil (c : Char) : String.utf8EncodeChar c ≠ [] := by
  rw [← List.length_pos_iff, String.length_utf8EncodeChar]
  exact c.utf8Size_pos

theorem bytes_lt_of_lt {s t : String} (h : s < t) : bytes s < bytes t := by
  rw [bytes_eq, bytes_eq]
  change s.toList < t.toList at h
  generalize s.toList = l at h
  generalize t.toList = m at h
  induction h with
  | @nil d m =>
    obtain ⟨b, rest, hd⟩ := List.exists_cons_of_ne_nil (utf8EncodeChar_ne_nil d)
    rw [List.flatMap_nil, List.flatMap_cons, hd]
    exact List.nil_lt_cons b _
  | rel h => exact utf8EncodeChar_append_lt h _ _
  | cons h ih => exact List.append_left_lt ih

/-! ## Updates -/

namespace Operator

/-- The same description with attributes set one after the other. -/
def withAttributes (op : Operator) (updates : List (String × String)) : Operator :=
  updates.foldl (fun op u => op.withAttribute u.1 u.2) op

variable {op : Operator} {updates : List (String × String)}

theorem attribute?_withAttribute (op : Operator) (name value name' : String) :
    (op.withAttribute name value).attribute? name' = if name = name' then some value else op.attribute? name' := by
  unfold attribute? withAttribute
  rw [Std.ExtTreeMap.getElem?_insert]
  simp only [Std.LawfulEqCmp.compare_eq_iff_eq]

/-- What updates of a description leave. -/
structure Updated (base : Operator) (updates : List (String × String)) (op : Operator) : Prop where
  /-- The last value that was given for a name, or else the value that was there. -/
  value : ∀ name, op.attribute? name = (updates.reverse.lookup name).or (base.attribute? name)
  /-- The list has the attributes with their values. -/
  listed : ∀ name value, (name, value) ∈ op.attributes.toList ↔ op.attribute? name = some value
  /-- It is in the order of the bytes of the names, and has each name once. -/
  ordered : (op.attributes.toList.map fun a => bytes a.1).Pairwise (· < ·)
  /-- Nothing but the attributes has changed. -/
  rest : { op with attributes := base.attributes } = base

theorem mem_attributes_iff (op : Operator) (name value : String) :
    (name, value) ∈ op.attributes.toList ↔ op.attribute? name = some value :=
  Std.ExtTreeMap.mem_toList_iff_getElem?_eq_some

theorem pairwise_attributes (op : Operator) : (op.attributes.toList.map fun a => bytes a.1).Pairwise (· < ·) := by
  rw [List.pairwise_map]
  have hkeys : op.attributes.toList.Pairwise fun a b => compare a.1 b.1 = .lt :=
    Std.ExtTreeMap.ordered_keys_toList
  exact hkeys.imp fun h => bytes_lt_of_lt (compareOfLessAndEq_eq_lt.mp h)

theorem withAttributes_updated (op : Operator) (updates : List (String × String)) :
    Updated op updates (op.withAttributes updates) where
  value name := by
    induction updates generalizing op with
    | nil => rfl
    | cons u updates ih =>
      have hlast := ih (op.withAttribute u.1 u.2)
      rw [attribute?_withAttribute] at hlast
      rw [List.reverse_cons, List.lookup_append, Option.or_assoc, List.lookup_singleton]
      refine hlast.trans (congrArg _ ?_)
      by_cases h : u.1 = name
      · rw [if_pos h, if_pos (beq_iff_eq.mpr h.symm), Option.some_or]
      · rw [if_neg h, if_neg (mt beq_iff_eq.mp (Ne.symm h)), Option.none_or]
  listed := mem_attributes_iff _
  ordered := pairwise_attributes _
  rest := by
    induction updates generalizing op with
    | nil => rfl
    | cons u updates ih =>
      exact congrArg (fun x => { x with attributes := op.attributes }) (ih (op.withAttribute u.1 u.2))

theorem eq_iff_of_rest {op' : Operator} (hrest : { op with attributes := op'.attributes } = op') :
    op = op' ↔ ∀ name, op.attribute? name = op'.attribute? name := by
  refine ⟨fun h name => h ▸ rfl, fun h => ?_⟩
  have hattributes : op.attributes = op'.attributes := Std.ExtTreeMap.ext_getElem? h
  rw [← hrest, ← hattributes]

/-- **Descriptions are equal if their attributes agree**, in whatever order these were set. -/
theorem withAttributes_eq_iff (op : Operator) (us vs : List (String × String)) :
    op.withAttributes us = op.withAttributes vs ↔
      ∀ name, (op.withAttributes us).attribute? name = (op.withAttributes vs).attribute? name := by
  refine eq_iff_of_rest ?_
  have hus := (withAttributes_updated op us).rest
  have hvs := (withAttributes_updated op vs).rest
  exact congrArg (fun x => { x with attributes := (op.withAttributes vs).attributes }) (hus.trans hvs.symm)

end Operator

end AxisNorm
