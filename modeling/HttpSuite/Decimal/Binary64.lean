/-!
# Double-precision numbers

A finite double is a sign, a significand and a binary exponent, so that all
arithmetic here is arithmetic on natural numbers and a comparison of two doubles
is a comparison of what they are. The significand has 53 bits unless the
exponent is the least possible one. Numbers too large for a double are no
value of this type: an operation that would leave the range answers `none`.

Everything rests on one function, `Binary64.round`, which takes an exact
quotient to the nearest double, and on a tie to the one whose significand is
even.
-/

namespace HttpSuite

/-- A finite double-precision number: `± significand * 2 ^ exponent`. -/
structure Binary64 where
  /-- Whether the sign is minus; zero has both signs. -/
  negative : Bool
  /-- Of at most 53 bits. -/
  significand : Nat
  /-- From -1074 to 971. -/
  exponent : Int
  significand_lt : significand < Nat.pow 2 53
  exponent_ge : -1074 ≤ exponent
  exponent_le : exponent ≤ 971
  /-- There are exactly 53 bits unless the exponent is the least one. -/
  normal : exponent = -1074 ∨ Nat.pow 2 52 ≤ significand
  deriving DecidableEq, Repr

namespace Binary64

/-- The least exponent. -/
def minExponent : Int := -1074

/-- The greatest exponent. -/
def maxExponent : Int := 971

/-- Zero of the given sign. -/
def zero (negative : Bool) : Binary64 where
  negative := negative
  significand := 0
  exponent := minExponent
  significand_lt := by decide
  exponent_ge := by decide
  exponent_le := by decide
  normal := Or.inl rfl

instance : Inhabited Binary64 := ⟨zero false⟩

/-- Whether the number is zero, of either sign. -/
def isZero (x : Binary64) : Bool := x.significand == 0

/-- The quotient of two numbers, rounded to the nearest integer, a tie to the
even one. -/
def roundDiv (num den : Nat) : Nat :=
  let q := num / den
  let twice := 2 * (num % den)
  if twice > den || (twice == den && q % 2 == 1) then q + 1 else q

/-- The exponent `k` with `2 ^ k ≤ num / den < 2 ^ (k + 1)`. -/
def floorLog2 (num den : Nat) : Int :=
  let k : Int := (Nat.log2 num : Int) - (Nat.log2 den : Int)
  let reaches :=
    if k ≥ 0 then den * Nat.pow 2 k.toNat ≤ num else den ≤ num * Nat.pow 2 (-k).toNat
  if reaches then k else k - 1

/-- The exponent of the double nearest to a quotient, before rounding. -/
def exponentOf (num den : Nat) : Int := max (floorLog2 num den - 52) minExponent

/-- A quotient as a multiple of `2 ^ e`, rounded. -/
def inUnits (num den : Nat) (e : Int) : Nat :=
  if e ≥ 0 then roundDiv num (den * Nat.pow 2 e.toNat)
  else roundDiv (num * Nat.pow 2 (-e).toNat) den

/-! ### The bits of a rounded quotient -/

/-- A quotient is at least a power of two, with everything on the side where it is whole. -/
def Reaches (num den : Nat) (k : Int) : Prop :=
  den * Nat.pow 2 k.toNat ≤ num * Nat.pow 2 (-k).toNat

theorem pow_add (a b : Nat) : Nat.pow 2 (a + b) = Nat.pow 2 a * Nat.pow 2 b := Nat.pow_add 2 a b

theorem reaches_iff {num den a b : Nat} {k : Int} (h : (a : Int) - b = k) :
    Reaches num den k ↔ den * Nat.pow 2 a ≤ num * Nat.pow 2 b := by
  obtain ⟨c, hc⟩ : ∃ c, c = a - k.toNat := ⟨_, rfl⟩
  have ha : a = k.toNat + c := by omega
  have hb : b = (-k).toNat + c := by omega
  have hpos : 0 < Nat.pow 2 c := Nat.two_pow_pos c
  rw [Reaches, ha, hb, pow_add, pow_add, ← Nat.mul_assoc, ← Nat.mul_assoc]
  exact (Nat.mul_le_mul_right_iff hpos).symm

theorem floorLog2_eq (num den : Nat) : ∃ k : Int, k = (Nat.log2 num : Int) - Nat.log2 den
    ∧ ((Reaches num den k ∧ floorLog2 num den = k)
      ∨ (¬ Reaches num den k ∧ floorLog2 num den = k - 1)) := by
  refine ⟨_, rfl, ?_⟩
  have hreaches : (if (Nat.log2 num : Int) - Nat.log2 den ≥ 0
      then den * Nat.pow 2 ((Nat.log2 num : Int) - Nat.log2 den).toNat ≤ num
      else den ≤ num * Nat.pow 2 (-((Nat.log2 num : Int) - Nat.log2 den)).toNat)
      ↔ Reaches num den ((Nat.log2 num : Int) - Nat.log2 den) := by
    split
    · next h =>
        rw [reaches_iff (a := ((Nat.log2 num : Int) - Nat.log2 den).toNat) (b := 0) (by omega)]
        simp
    · next h =>
        rw [reaches_iff (a := 0) (b := (-((Nat.log2 num : Int) - Nat.log2 den)).toNat) (by omega)]
        simp
  by_cases h : Reaches num den ((Nat.log2 num : Int) - Nat.log2 den)
  · exact Or.inl ⟨h, if_pos (hreaches.mpr h)⟩
  · exact Or.inr ⟨h, if_neg fun hif => h (hreaches.mp hif)⟩

theorem floorLog2_spec {num den : Nat} (hnum : num ≠ 0) (hden : den ≠ 0) :
    Reaches num den (floorLog2 num den) ∧ ¬ Reaches num den (floorLog2 num den + 1) := by
  have hnumLow : Nat.pow 2 num.log2 ≤ num := Nat.log2_self_le hnum
  have hnumHigh : num < Nat.pow 2 (num.log2 + 1) := Nat.lt_log2_self
  have hdenLow : Nat.pow 2 den.log2 ≤ den := Nat.log2_self_le hden
  have hdenHigh : den < Nat.pow 2 (den.log2 + 1) := Nat.lt_log2_self
  obtain ⟨k, hk, ⟨hreaches, heq⟩ | ⟨hnot, heq⟩⟩ := floorLog2_eq num den
  · refine heq ▸ ⟨hreaches, ?_⟩
    rw [reaches_iff (a := num.log2 + 1) (b := den.log2) (by omega), Nat.not_le]
    have h₁ := Nat.mul_lt_mul_of_pos_right hnumHigh (Nat.two_pow_pos den.log2)
    have h₂ := Nat.mul_le_mul_right (Nat.pow 2 (num.log2 + 1)) hdenLow
    rw [Nat.mul_comm (Nat.pow 2 den.log2)] at h₂
    exact Nat.lt_of_lt_of_le h₁ h₂
  · refine heq ▸ ⟨?_, by rwa [Int.sub_add_cancel]⟩
    rw [reaches_iff (a := num.log2) (b := den.log2 + 1) (by omega)]
    have h₁ := Nat.mul_le_mul_right (Nat.pow 2 num.log2) (Nat.le_of_lt hdenHigh)
    have h₂ := Nat.mul_le_mul_right (Nat.pow 2 (den.log2 + 1)) hnumLow
    rw [Nat.mul_comm (Nat.pow 2 num.log2)] at h₂
    exact Nat.le_trans h₁ h₂

theorem le_roundDiv {num den n : Nat} (hden : 0 < den) (h : n * den ≤ num) :
    n ≤ roundDiv num den := by
  have hq : n ≤ num / den := (Nat.le_div_iff_mul_le hden).mpr h
  unfold roundDiv
  dsimp only
  split <;> omega

theorem roundDiv_le {num den n : Nat} (hden : 0 < den) (h : num < n * den) :
    roundDiv num den ≤ n := by
  have hq : num / den < n := (Nat.div_lt_iff_lt_mul hden).mpr h
  unfold roundDiv
  dsimp only
  split <;> omega

theorem inUnits_eq (num den : Nat) (e : Int) :
    inUnits num den e = roundDiv (num * Nat.pow 2 (-e).toNat) (den * Nat.pow 2 e.toNat) := by
  unfold inUnits
  split
  · next h =>
      have hneg : (-e).toNat = 0 := by omega
      rw [hneg]
      simp
  · next h =>
      have hpos : e.toNat = 0 := by omega
      rw [hpos]
      simp

/-- A quotient that reaches `2 ^ (e + b)` is at least `2 ^ b` times `2 ^ e`. -/
theorem reaches_add_iff {num den : Nat} (e : Int) (b : Nat) :
    Reaches num den (e + b)
      ↔ Nat.pow 2 b * (den * Nat.pow 2 e.toNat) ≤ num * Nat.pow 2 (-e).toNat := by
  rw [reaches_iff (a := e.toNat + b) (b := (-e).toNat) (by omega), pow_add,
    Nat.mul_comm (Nat.pow 2 b), Nat.mul_assoc]

theorem inUnits_le {num den : Nat} (hden : den ≠ 0) {e : Int}
    (h : ¬ Reaches num den (e + 53)) : inUnits num den e ≤ Nat.pow 2 53 := by
  rw [inUnits_eq]
  refine roundDiv_le (Nat.mul_pos (Nat.pos_of_ne_zero hden) (Nat.two_pow_pos _)) ?_
  exact Nat.lt_of_not_le fun hle => h ((reaches_add_iff e 53).mpr hle)

theorem le_inUnits {num den : Nat} (hden : den ≠ 0) {e : Int} (h : Reaches num den (e + 52)) :
    Nat.pow 2 52 ≤ inUnits num den e := by
  rw [inUnits_eq]
  exact le_roundDiv (Nat.mul_pos (Nat.pos_of_ne_zero hden) (Nat.two_pow_pos _))
    ((reaches_add_iff e 52).mp h)

/-- A quotient that does not reach a power of two reaches no greater one. -/
theorem Reaches.mono {num den : Nat} {k l : Int} (h : Reaches num den l) (hle : k ≤ l) :
    Reaches num den k := by
  obtain ⟨c, hc⟩ : ∃ c : Nat, l = k + c := ⟨(l - k).toNat, by omega⟩
  subst hc
  refine Nat.le_trans ?_ ((reaches_add_iff k c).mp h)
  exact Nat.le_mul_of_pos_left _ (Nat.two_pow_pos c)

theorem inUnits_exponentOf_le {num den : Nat} (hnum : num ≠ 0) (hden : den ≠ 0) :
    inUnits num den (exponentOf num den) ≤ Nat.pow 2 53 := by
  refine inUnits_le hden fun hreaches => (floorLog2_spec hnum hden).2 (hreaches.mono ?_)
  unfold exponentOf
  omega

theorem exponentOf_normal {num den : Nat} (hnum : num ≠ 0) (hden : den ≠ 0) :
    exponentOf num den = minExponent
      ∨ Nat.pow 2 52 ≤ inUnits num den (exponentOf num den) := by
  by_cases h : exponentOf num den = minExponent
  · exact Or.inl h
  · refine Or.inr (le_inUnits hden ((floorLog2_spec hnum hden).1.mono ?_))
    unfold exponentOf at h ⊢
    omega

/-- The double of a significand that rounding may have made one bit too long. -/
def ofRounded (negative : Bool) (m : Nat) (e : Int) (hm : m ≤ Nat.pow 2 53)
    (he : minExponent ≤ e) (hn : e = minExponent ∨ Nat.pow 2 52 ≤ m) : Option Binary64 :=
  if hlong : m = Nat.pow 2 53 then
    if hmax : e + 1 ≤ maxExponent then
      some ⟨negative, Nat.pow 2 52, e + 1, by decide, Int.le_add_one he, hmax,
        Or.inr (Nat.le_refl _)⟩
    else none
  else if hmax : e ≤ maxExponent then
    some ⟨negative, m, e, Nat.lt_of_le_of_ne hm hlong, he, hmax, hn⟩
  else none

/-- The double nearest to `± num / den`. -/
def round (negative : Bool) (num den : Nat) : Option Binary64 :=
  if h : num ≠ 0 ∧ den ≠ 0 then
    ofRounded negative (inUnits num den (exponentOf num den)) (exponentOf num den)
      (inUnits_exponentOf_le h.1 h.2) (Int.le_max_right _ _) (exponentOf_normal h.1 h.2)
  else some (zero negative)

/-- The double nearest to an integer. -/
def ofInt (n : Int) : Option Binary64 := round (n < 0) n.natAbs 1

/-- `2 ^ e` as a fraction. -/
private def powerOfTwo (e : Int) : Nat × Nat :=
  if e ≥ 0 then (Nat.pow 2 e.toNat, 1) else (1, Nat.pow 2 (-e).toNat)

/-- The product, rounded. -/
def mul (x y : Binary64) : Option Binary64 :=
  let (num, den) := powerOfTwo (x.exponent + y.exponent)
  round (x.negative != y.negative) (x.significand * y.significand * num) den

/-- The quotient by a number other than zero, rounded. -/
def div (x y : Binary64) : Option Binary64 :=
  let (num, den) := powerOfTwo (x.exponent - y.exponent)
  round (x.negative != y.negative) (x.significand * num) (y.significand * den)

/-- The double nearest to `± digits * 10 ^ exponent`. Exponents that cannot
matter are cut off first, so that no huge power is ever computed. -/
def ofDecimal (negative : Bool) (digits : Nat) (exponent : Int) : Option Binary64 :=
  if digits == 0 then some (zero negative)
  else
    let bits : Int := Nat.log2 digits
    if bits * 3 / 10 + exponent > 400 then none
    else if (bits + 1) * 31 / 100 + 1 + exponent < -400 then some (zero negative)
    else if exponent ≥ 0 then round negative (digits * Nat.pow 10 exponent.toNat) 1
    else round negative digits (Nat.pow 10 (-exponent).toNat)

/-- Equal as numbers: the two zeros are one number. -/
def numEq (x y : Binary64) : Bool := x == y || (x.isZero && y.isZero)

/-- The number as the machine's floating point type. -/
def toFloat (x : Binary64) : Float :=
  let f := (Float.ofNat x.significand).scaleB x.exponent
  if x.negative then -f else f

/-- The number that a finite floating point value is. -/
def ofFloat? (f : Float) : Option Binary64 :=
  let bits := f.toBits.toNat
  let negative := bits / Nat.pow 2 63 == 1
  let e := bits / Nat.pow 2 52 % 2048
  have hfraction : bits % Nat.pow 2 52 < Nat.pow 2 52 := Nat.mod_lt _ (by decide)
  if e = 0 then
    some ⟨negative, bits % Nat.pow 2 52, minExponent, Nat.lt_trans hfraction (by decide),
      Int.le_refl _, by decide, Or.inl rfl⟩
  -- The greatest exponent is that of the infinities, and of what is no number.
  else if h : 0 < e ∧ e < 2047 then
    some ⟨negative, Nat.pow 2 52 + bits % Nat.pow 2 52, (e : Int) - 1075,
      Nat.add_lt_add_left hfraction _, by omega, by omega, Or.inr (Nat.le_add_right _ _)⟩
  else none

end Binary64

end HttpSuite
