import HttpSuite.Yaml.Resolve

/-!
# Numbers in decimal digits

A number that was written is read as the same number. The digits of a number are those of its
tenth part with one digit behind them, and that is also how a reader goes on, so everything here
is by that recursion. Where a reader asks for more than a value, that the text has no sign, no
mark of a base and no zero in front, the first digit decides: it is a zero only if it is the
only one.
-/

namespace HttpSuite.Text

/-- The digits of a number, by its tenth part. -/
theorem toDigits_induction {motive : Nat → Prop} (one : ∀ n < 10, motive n)
    (more : ∀ n, 10 ≤ n → motive (n / 10) → motive n) (n : Nat) : motive n := by
  induction n using Nat.strongRecOn with
  | ind n ih =>
      by_cases h : n < 10
      · exact one n h
      · exact more n (by omega) (ih _ (by omega))

theorem isDigit_of_mem_toDigits {n : Nat} {c : Char} (h : c ∈ Nat.toDigits 10 n) :
    c.isDigit = true := Nat.isDigit_of_mem_toDigits (by omega) (by omega) h

theorem hexValue?_digitChar : ∀ {n : Nat}, n < 10 → hexValue? n.digitChar = some n := by
  decide

theorem digitsValue?_concat {base : Nat} {ds : List Char} (h : ds ≠ []) (d : Char) :
    digitsValue? base (ds ++ [d])
      = (digitsValue? base ds).bind fun n => (hexValue? d).bind fun v =>
          if v < base then some (n * base + v) else none := by
  have hds : ds.isEmpty = false := List.isEmpty_eq_false_iff.mpr h
  have happend : (ds ++ [d]).isEmpty = false :=
    List.isEmpty_eq_false_iff.mpr (List.append_ne_nil_of_left_ne_nil h _)
  unfold digitsValue?
  rw [hds, happend, List.foldl_append]
  rfl

theorem digitsValue?_toDigits (n : Nat) : digitsValue? 10 (Nat.toDigits 10 n) = some n := by
  induction n using toDigits_induction with
  | one n h =>
      rw [Nat.toDigits_of_lt_base h]
      show ((hexValue? n.digitChar).bind fun v => if v < 10 then some (0 * 10 + v) else none)
        = some n
      rw [hexValue?_digitChar h, Option.bind_some, if_pos h, Nat.zero_mul, Nat.zero_add]
  | more n h ih =>
      have hlast : n % 10 < 10 := Nat.mod_lt n (by omega)
      rw [Nat.toDigits_of_base_le (by omega) h, digitsValue?_concat Nat.toDigits_ne_nil, ih,
        hexValue?_digitChar hlast, Option.bind_some, Option.bind_some, if_pos hlast,
        Nat.div_add_mod']

/-- The first digit of a number is a zero only if there is no other. -/
theorem toDigits_eq_cons (n : Nat) :
    ∃ c cs, Nat.toDigits 10 n = c :: cs ∧ c.isDigit = true ∧ (c = '0' → cs = []) := by
  cases hdigits : Nat.toDigits 10 n with
  | nil => exact absurd hdigits Nat.toDigits_ne_nil
  | cons c cs =>
      have hdigit : c.isDigit = true := isDigit_of_mem_toDigits (hdigits ▸ List.mem_cons_self)
      refine ⟨c, cs, rfl, hdigit, ?_⟩
      clear hdigit
      induction n using toDigits_induction generalizing cs with
      | one n h =>
          rw [Nat.toDigits_of_lt_base h] at hdigits
          exact fun _ => (List.cons.inj hdigits).2.symm
      | more n h ih =>
          rintro rfl
          rw [Nat.toDigits_of_base_le (by omega) h] at hdigits
          cases htenth : Nat.toDigits 10 (n / 10) with
          | nil => exact absurd htenth Nat.toDigits_ne_nil
          | cons c' cs' =>
              rw [htenth, List.cons_append] at hdigits
              obtain ⟨rfl, -⟩ := List.cons.inj hdigits
              rw [ih cs' htenth rfl] at htenth
              have hvalue := digitsValue?_toDigits (n / 10)
              rw [htenth] at hvalue
              have hnone : n / 10 = 0 := (Option.some.inj hvalue).symm
              omega

end HttpSuite.Text

namespace HttpSuite.Yaml

theorem natural?_toDigits {bound n : Nat} (h : n < bound) :
    natural? bound (Nat.toDigits 10 n) = some n := by
  obtain ⟨c, cs, hdigits, hdigit, hzero⟩ := Text.toDigits_eq_cons n
  have hvalue := Text.digitsValue?_toDigits n
  rw [hdigits] at hvalue ⊢
  have hplus : c ≠ '+' := by
    rintro rfl
    exact absurd hdigit (by decide)
  have hminus : c ≠ '-' := by
    rintro rfl
    exact absurd hdigit (by decide)
  have hdrop : dropPlus (c :: cs) = c :: cs := by
    unfold dropPlus
    split
    · next heq => exact absurd (List.cons.inj heq).1 hplus
    · rfl
  have hnone : c = '0' → ∀ d ds, cs ≠ d :: ds := by
    rintro hc d ds rfl
    exact absurd (hzero hc) (List.cons_ne_nil _ _)
  have hbased : basedNat? bound (c :: cs) = none := by
    unfold basedNat?
    split
    iterate 3
      · next heq =>
          obtain ⟨hc, hcs⟩ := List.cons.inj heq
          exact absurd hcs (hnone hc _ _)
    · rfl
  have hsigned : isSigned (c :: cs) = false := by
    simp [isSigned, hplus, hminus]
  have hleading : hasLeadingZero (c :: cs) = false := by
    unfold hasLeadingZero
    rw [hsigned]
    by_cases hc : c = '0'
    · rw [hzero hc]
      rfl
    · simp [hc]
  unfold natural?
  dsimp only
  rw [hdrop, hbased, hsigned, hleading]
  dsimp only
  rw [if_neg (by decide), hvalue, Option.filter_some, if_pos (decide_eq_true h)]

end HttpSuite.Yaml
