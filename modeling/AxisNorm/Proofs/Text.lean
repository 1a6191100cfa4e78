import AxisNorm.Text.WhiteSpace
import Mathlib.Data.List.TakeWhile

/-!
# The pieces of a text

* `Text.pieces_eq_splitOn`: the pieces are what lies between the separators.
* `Text.Trims`, `Text.trims_iff`: trimming takes away all white space at the ends and nothing else.
-/

namespace AxisNorm.Text

theorem pieces_eq_splitOn (separator : Char) (cs : List Char) : pieces separator cs = cs.splitOn separator := by
  induction cs with
  | nil => rfl
  | cons c cs ih =>
    obtain ⟨p, ps, hpieces⟩ := List.exists_cons_of_ne_nil (pieces_ne_nil separator cs)
    rw [List.splitOn_cons_eq_if_modifyHead, ← ih, pieces, hpieces]
    by_cases hc : c = separator
    · simp [hc]
    · simp [hc]

/-- The text `t` is `cs` without the white space at its ends. -/
structure Trims (cs t : List Char) : Prop where
  around : ∃ before after, cs = before ++ (t ++ after) ∧ (∀ c ∈ before, isWhiteSpace c = true) ∧
    ∀ c ∈ after, isWhiteSpace c = true
  head : ∀ c ∈ t.head?, isWhiteSpace c = false
  last : ∀ c ∈ t.getLast?, isWhiteSpace c = false

variable {cs t : List Char}

theorem dropWhile_eq_self {p : Char → Bool} (h : ∀ c ∈ cs.head?, p c = false) : cs.dropWhile p = cs := by
  cases cs with
  | nil => rfl
  | cons c cs => exact List.dropWhile_cons_of_neg (Bool.eq_false_iff.mp (h c rfl))

theorem takeWhile_eq_nil {p : Char → Bool} (h : ∀ c ∈ cs.head?, p c = false) : cs.takeWhile p = [] := by
  cases cs with
  | nil => rfl
  | cons c cs => exact List.takeWhile_cons_of_neg (Bool.eq_false_iff.mp (h c rfl))

theorem head?_dropWhile (p : Char → Bool) (cs : List Char) : ∀ c ∈ (cs.dropWhile p).head?, p c = false := by
  intro c hc
  have h := List.head?_dropWhile_not p cs
  rw [Option.mem_def.mp hc] at h
  exact h

theorem trims_trim (cs : List Char) : Trims cs (trim cs) := by
  generalize hd : cs.dropWhile isWhiteSpace = d
  have hcs : cs = cs.takeWhile isWhiteSpace ++ d := by rw [← hd, List.takeWhile_append_dropWhile]
  have hsplit : d = trim cs ++ (d.reverse.takeWhile isWhiteSpace).reverse := by
    rw [trim, hd, ← List.reverse_append, List.takeWhile_append_dropWhile, List.reverse_reverse]
  constructor
  case around =>
    refine ⟨_, _, hsplit ▸ hcs, fun c => List.mem_takeWhile_imp, fun c hc => ?_⟩
    exact List.mem_takeWhile_imp (List.mem_reverse.mp hc)
  case head =>
    intro c hc
    refine head?_dropWhile isWhiteSpace cs c ?_
    rw [hd, hsplit, List.head?_append, Option.mem_def.mp hc]
    rfl
  case last =>
    intro c hc
    rw [trim, List.getLast?_reverse] at hc
    exact head?_dropWhile isWhiteSpace _ c hc

theorem trims_iff : Trims cs t ↔ t = trim cs := by
  constructor
  · rintro ⟨⟨before, after, rfl, hbefore, hafter⟩, hhead, hlast⟩
    rw [trim, List.dropWhile_append_of_pos hbefore]
    cases t with
    | nil =>
      rw [List.nil_append, List.dropWhile_eq_nil_iff.mpr hafter]
      rfl
    | cons c t =>
      have hfirst : ∀ d ∈ (c :: t ++ after).head?, isWhiteSpace d = false := hhead
      rw [dropWhile_eq_self hfirst, List.reverse_append,
        List.dropWhile_append_of_pos fun d hd => hafter d (List.mem_reverse.mp hd),
        dropWhile_eq_self (by rwa [List.head?_reverse]), List.reverse_reverse]
  · rintro rfl
    exact trims_trim cs

end AxisNorm.Text
