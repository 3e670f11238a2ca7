import Mathlib.Data.List.Induction
import HttpSuite.Text.Basic

/-!
# Pieces of a text

A text that is split at its separators falls into the pieces between them, and a piece whose ends
are no blanks is what is left of it when it is trimmed.
-/

namespace HttpSuite.Text

variable {p : Char → Bool}

/-! ## Split -/

theorem splitBy_ne_nil (s : List Char) : splitBy p s ≠ [] := by
  cases s with
  | nil => nofun
  | cons c s =>
      rw [splitBy]
      split
      · nofun
      · split <;> nofun

theorem splitBy_cons_of_neg {c : Char} (hc : p c = false) {s piece : List Char}
    {pieces : List (List Char)} (h : splitBy p s = piece :: pieces) :
    splitBy p (c :: s) = (c :: piece) :: pieces := by
  rw [splitBy, h]
  simp [hc]

theorem splitBy_cons_of_pos {c : Char} (hc : p c = true) (s : List Char) :
    splitBy p (c :: s) = [] :: splitBy p s := by
  cases h : splitBy p s with
  | nil => exact absurd h (splitBy_ne_nil s)
  | cons piece pieces =>
      rw [splitBy, h]
      simp [hc]

theorem splitBy_append_cons {c : Char} (hc : p c = true) (s t : List Char) :
    splitBy p (s ++ c :: t) = splitBy p s ++ splitBy p t := by
  induction s with
  | nil => exact splitBy_cons_of_pos hc t
  | cons d s ih =>
      rw [List.cons_append]
      by_cases hd : p d = true
      · rw [splitBy_cons_of_pos hd, splitBy_cons_of_pos hd, ih, List.cons_append]
      · rw [Bool.not_eq_true] at hd
        obtain ⟨piece, pieces, hs⟩ := List.exists_cons_of_ne_nil (splitBy_ne_nil s (p := p))
        rw [hs, List.cons_append] at ih
        rw [splitBy_cons_of_neg hd hs, splitBy_cons_of_neg hd ih, List.cons_append]

/-- A text without separators is one piece. -/
theorem splitBy_of_forall_neg {s : List Char} (h : ∀ c ∈ s, p c = false) : splitBy p s = [s] := by
  induction s with
  | nil => rfl
  | cons c s ih =>
      obtain ⟨hc, hs⟩ := List.forall_mem_cons.mp h
      exact splitBy_cons_of_neg hc (ih hs)

/-- Characters may be changed before a split or behind it, if separators are told apart alike. -/
theorem splitBy_map {f : Char → Char} (hf : ∀ c, p (f c) = p c) (s : List Char) :
    splitBy p (s.map f) = (splitBy p s).map (List.map f) := by
  induction s with
  | nil => rfl
  | cons c s ih =>
      rw [List.map_cons]
      cases hc : p c with
      | true => rw [splitBy_cons_of_pos hc, splitBy_cons_of_pos ((hf c).trans hc), ih]; rfl
      | false =>
          obtain ⟨piece, pieces, hs⟩ := List.exists_cons_of_ne_nil (splitBy_ne_nil s (p := p))
          rw [hs, List.map_cons] at ih
          rw [splitBy_cons_of_neg hc hs, splitBy_cons_of_neg ((hf c).trans hc) ih]
          rfl

/-! ## Trimmed -/

theorem trimBy_cons {c : Char} (hc : p c = false) (s : List Char) : trimBy p (c :: s) ≠ [] := by
  rw [trimBy, trimStartBy, List.dropWhile_cons_of_neg (by simp [hc]), trimEndBy]
  split
  · simp [hc]
  · nofun

theorem trimEndBy_concat {c : Char} (hc : p c = false) (s : List Char) :
    trimEndBy p (s ++ [c]) = s ++ [c] := by
  induction s with
  | nil =>
      rw [List.nil_append, trimEndBy, trimEndBy, hc]
      rfl
  | cons d s ih =>
      rw [List.cons_append, trimEndBy, ih]
      cases hs : s ++ [c] with
      | nil => exact absurd hs (List.append_ne_nil_of_right_ne_nil s (List.cons_ne_nil c []))
      | cons e rest => rfl

/-- What neither begins nor ends with a blank is left as it is. -/
theorem trimBy_of_ends {s : List Char} (hfirst : ∀ c, s.head? = some c → p c = false)
    (hlast : ∀ c, s.getLast? = some c → p c = false) : trimBy p s = s := by
  have hstart : trimStartBy p s = s := by
    cases s with
    | nil => rfl
    | cons c s => exact List.dropWhile_cons_of_neg (by simp [hfirst c rfl])
  rw [trimBy, hstart]
  cases s using List.reverseRecOn with
  | nil => rfl
  | append_singleton s c => exact trimEndBy_concat (hlast c List.getLast?_concat) s

end HttpSuite.Text
