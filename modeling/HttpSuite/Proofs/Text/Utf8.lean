import Mathlib.Data.String.Basic
import HttpSuite.Text.Utf8

/-!
# The order of bytes

UTF-8 keeps the order of texts: a first byte tells how many bytes a character has, more of them
for greater characters, and the bytes are its digits from the highest one on. So bytes compare
as the characters do that they stand for, and two texts in one order as bytes are in the same
order character by character.
-/

namespace HttpSuite.Text

theorem ofNat_cons_lt_ofNat_cons_iff {m n : Nat} (hm : m < 256) (hn : n < 256)
    (x y : List UInt8) :
    UInt8.ofNat m :: x < UInt8.ofNat n :: y ↔ m < n ∨ m = n ∧ x < y := by
  rw [List.cons_lt_cons_iff, UInt8.lt_iff_toNat_lt, ← UInt8.toNat_inj, UInt8.toNat_ofNat',
    UInt8.toNat_ofNat', Nat.mod_eq_of_lt hm, Nat.mod_eq_of_lt hn]

/-- A smaller character has smaller bytes, whatever is behind them. -/
theorem utf8EncodeChar_append_lt {c d : Char} (h : c < d) (x y : List UInt8) :
    String.utf8EncodeChar c ++ x < String.utf8EncodeChar d ++ y := by
  have hlt : c.val.toNat < d.val.toNat := h
  have hbound : d.val.toNat < 1114112 := by
    rcases d.valid with hd | hd <;> omega
  unfold String.utf8EncodeChar
  generalize c.val.toNat = m at hlt ⊢
  generalize d.val.toNat = n at hlt hbound ⊢
  dsimp only
  -- Every digit is the rest of a number of which the digits above it are the quotient.
  have hdigit : ∀ {a b : Nat}, a < b → a / 64 < b / 64 ∨ a / 64 = b / 64 ∧ a % 64 < b % 64 :=
    fun hab => by omega
  have hdiv : ∀ a : Nat, a / 4096 = a / 64 / 64 ∧ a / 262144 = a / 64 / 64 / 64 :=
    fun a => ⟨by omega, by omega⟩
  split_ifs <;> simp (disch := omega) only [List.cons_append, ofNat_cons_lt_ofNat_cons_iff] <;>
    try omega
  rw [(hdiv m).1, (hdiv m).2, (hdiv n).1, (hdiv n).2]
  rcases hdigit hlt with h₁ | ⟨h₁, h₁'⟩
  · rcases hdigit h₁ with h₂ | ⟨h₂, h₂'⟩
    · rcases hdigit h₂ with h₃ | ⟨h₃, h₃'⟩ <;> omega
    · omega
  · omega

theorem utf8_lt_utf8 {s t : List Char} (h : s < t) : utf8 s < utf8 t := by
  induction s generalizing t with
  | nil =>
      cases t with
      | nil => exact absurd h (List.not_lt_nil _)
      | cons d t =>
          cases hbytes : utf8 (d :: t) with
          | nil =>
              have hempty := (List.append_eq_nil_iff.mp hbytes).1
              exact absurd hempty (String.utf8EncodeChar_ne_nil)
          | cons b bytes => exact List.nil_lt_cons b bytes
  | cons c s ih =>
      cases t with
      | nil => exact absurd h (List.not_lt_nil _)
      | cons d t =>
          rcases List.cons_lt_cons_iff.mp h with hlt | ⟨rfl, hlt⟩
          · exact utf8EncodeChar_append_lt hlt _ _
          · exact List.append_left_lt (ih hlt)

theorem utf8_lt_utf8_iff {s t : List Char} : utf8 s < utf8 t ↔ s < t := by
  refine ⟨fun h => ?_, utf8_lt_utf8⟩
  rcases lt_trichotomy s t with hlt | rfl | hgt
  · exact hlt
  · exact absurd h (List.lt_irrefl _)
  · exact absurd (utf8_lt_utf8 hgt) (List.lt_asymm h)

end HttpSuite.Text
