import Mathlib.Data.List.Forall2
import HttpSuite.Duration
import HttpSuite.Proofs.Text.Digits
import HttpSuite.Proofs.Text.Pieces

/-!
# Lengths of time are read back

What is written of a length of time is read as the same length. The reader adds one term after
another to a total and keeps the seconds below the bound of a word, so a length that was read
fits that bound, and for one that fits no sum overflows on the way: all sums are part of it.

The terms of a length are its digits to mixed bases, that the units multiply out to the whole;
those that are zero are not written, and they would add nothing.
-/

namespace HttpSuite.Duration

/-- The seconds of the length fit a word. -/
def Fits (d : Duration) : Prop := d.nanos / second < wordBound

def Unit.nanos : Unit → Nat
  | .part nanos => nanos
  | .short seconds => seconds * second
  | .long seconds => seconds * second

theorem second_pos : 0 < second := by decide

theorem second_add_second_lt : second + second < wordBound := by decide +kernel

theorem word?_of_lt {n : Nat} (h : n < wordBound) : word? n = some n := if_pos h

/-! ## What is read fits -/

theorem add?_fits {total seconds nanos sum : Nat} (h : add? total seconds nanos = some sum) :
    Fits ⟨sum⟩ := by
  unfold add? at h
  simp only [Option.bind_eq_bind, Option.bind_eq_some_iff] at h
  obtain ⟨-, -, w, hword, heq⟩ := h
  cases heq
  unfold word? at hword
  split at hword
  · next hlt => exact hlt
  · cases hword

/-- The last thing that is done is to add. -/
theorem addUnits?_fits {total n sum : Nat} {fraction : Option (Nat × Nat)} {u : Unit}
    (h : addUnits? total n fraction u = some sum) : Fits ⟨sum⟩ := by
  unfold addUnits? at h
  rcases fraction with _ | ⟨num, den⟩
  · cases u <;>
    · simp only [Option.bind_eq_bind, Option.bind_eq_some_iff] at h
      obtain ⟨_, -, whole, hadd, heq⟩ := h
      cases heq
      exact add?_fits hadd
  · cases u <;>
    · simp only [Option.bind_eq_bind, Option.bind_eq_some_iff] at h
      obtain ⟨_, -, _, -, _, -, hadd⟩ := h
      exact add?_fits hadd

theorem readTerms_fits {total sum : Nat} {s : List Char} (htotal : Fits ⟨total⟩)
    (h : readTerms total s = some sum) : Fits ⟨sum⟩ := by
  fun_induction readTerms total s with
  | case1 =>
      cases h
      exact htotal
  | case6 total s c rest _ _ n behind _ _ fraction behind' _ next name total' hadd _ ih =>
      obtain ⟨u, -, hadd⟩ := Option.bind_eq_some_iff.mp hadd
      exact ih (addUnits?_fits hadd) h
  | case2 | case3 | case4 | case5 | case7 => cases h

theorem parse?_fits {text : String} {d : Duration} (h : parse? text = some d) : d.Fits := by
  unfold parse? at h
  split at h
  · cases h
    exact (by decide : (0 : Nat) / second < wordBound)
  · dsimp only at h
    split at h
    · cases h
    · obtain ⟨sum, hsum, rfl⟩ := Option.map_eq_some_iff.mp h
      exact readTerms_fits (by decide : (0 : Nat) / second < wordBound) hsum

/-! ## What is written is read -/

theorem add?_of_lt {total seconds nanos : Nat} (hnanos : total % second + nanos < wordBound)
    (h : total + seconds * second + nanos < wordBound * second) :
    add? total seconds nanos = some (total + seconds * second + nanos) := by
  have hsum : (total + seconds * second + nanos) / second < wordBound :=
    (Nat.div_lt_iff_lt_mul second_pos).mpr h
  unfold add?
  dsimp only
  rw [word?_of_lt hnanos, word?_of_lt hsum]
  rfl

/-- Seconds overflow nothing in a sum that fits. -/
theorem addSeconds?_of_lt {total n seconds : Nat}
    (h : total + n * (seconds * second) < wordBound * second) :
    ((word? (n * seconds)).bind fun w => add? total w 0)
      = some (total + n * (seconds * second)) := by
  rw [← Nat.mul_assoc] at h ⊢
  have hword : n * seconds < wordBound :=
    Nat.lt_of_mul_lt_mul_right (Nat.lt_of_le_of_lt (Nat.le_add_left ..) h)
  have hmod : total % second + 0 < wordBound := by
    have := Nat.mod_lt total second_pos
    have := second_add_second_lt
    omega
  -- The kernel must not see through the sum: a second is a large number to count down from.
  have hsum : total + n * seconds * second + 0 < wordBound * second := by
    rw [Nat.add_zero]
    exact h
  have hadd := add?_of_lt hmod hsum
  rw [Nat.add_zero] at hadd
  rw [word?_of_lt hword, Option.bind_some, hadd]

/-- Nothing overflows in a sum that fits; less than a second goes to the nanoseconds. -/
theorem addUnits?_of_lt {total n : Nat} {u : Unit}
    (hpart : ∀ nanos, u = .part nanos → n * nanos < second)
    (h : total + n * u.nanos < wordBound * second) :
    addUnits? total n none u = some (total + n * u.nanos) := by
  unfold addUnits?
  cases u with
  | part nanos =>
      have hn := hpart nanos rfl
      have hmod := Nat.mod_lt total second_pos
      have hsecond := second_add_second_lt
      have hadd : add? total 0 (n * nanos) = some (total + 0 * second + n * nanos) :=
        add?_of_lt (by omega) (by rw [Nat.zero_mul, Nat.add_zero]; exact h)
      rw [Nat.zero_mul, Nat.add_zero] at hadd
      show ((word? (n * nanos)).bind fun w => (add? total 0 w).bind some) = _
      rw [word?_of_lt (by omega : n * nanos < wordBound), Option.bind_some, hadd]
      rfl
  | short seconds | long seconds =>
      show ((word? (n * seconds)).bind fun w => (add? total w 0).bind some) = _
      simp only [Option.bind_fun_some]
      exact addSeconds?_of_lt h

/-- A digit goes behind those in front. -/
theorem readWhole_digit {n k : Nat} (hk : k < 10) (h : n * 10 + k < wordBound)
    (rest : List Char) : readWhole n (k.digitChar :: rest) = readWhole (n * 10 + k) rest := by
  have hdigit : k.digitChar.isDigit = true :=
    Text.isDigit_of_mem_toDigits (n := k) (Nat.toDigits_of_lt_base hk ▸ List.mem_singleton_self _)
  have hvalue : k.digitChar.toNat - '0'.toNat = k := by
    rw [Nat.toNat_digitChar_of_lt_ten hk]
    exact Nat.add_sub_cancel_left ..
  rw [readWhole, if_pos hdigit, hvalue, word?_of_lt h]
  rfl

theorem readWhole_toDigits {n : Nat} (h : n < wordBound) (rest : List Char) :
    readWhole 0 (Nat.toDigits 10 n ++ rest) = readWhole n rest := by
  induction n using Text.toDigits_induction generalizing rest with
  | one n hn =>
      rw [Nat.toDigits_of_lt_base hn, List.singleton_append, readWhole_digit hn (by omega),
        Nat.zero_mul, Nat.zero_add]
  | more n hn ih =>
      rw [Nat.toDigits_of_base_le (by omega) hn, List.append_assoc, List.singleton_append,
        ih (by omega), readWhole_digit (Nat.mod_lt n (by omega)) (by omega), Nat.div_add_mod']

/-! ### Terms as text -/

def spell (t : Nat × String) : List Char := Nat.toDigits 10 t.1 ++ t.2.toList

/-- The text of terms that come behind others. -/
def spellBehind (ts : List (Nat × String)) : List Char := ts.flatMap fun t => ' ' :: spell t

/-- The name of a unit that can be told from what is around it. -/
structure Names (name : String) (u : Unit) : Prop where
  unit : unit? name = some u
  nonempty : name.toList ≠ []
  /-- Its letters are neither digits nor blanks. -/
  letters : ∀ c ∈ name.toList,
    isUnitChar c = true ∧ c.isDigit = false ∧ Text.isWhitespace c = false

theorem Names.of_all {name : String} {u : Unit} (hunit : unit? name = some u)
    (hnonempty : name.toList ≠ [])
    (hletters : (name.toList.all fun c =>
      isUnitChar c && !c.isDigit && !Text.isWhitespace c) = true) : Names name u := by
  refine ⟨hunit, hnonempty, fun c hc => ?_⟩
  have hletter := List.all_eq_true.mp hletters c hc
  simp only [Bool.and_eq_true, Bool.not_eq_true'] at hletter
  exact ⟨hletter.1.1, hletter.1.2, hletter.2⟩

/-- A number and the name of a unit that can be read. -/
structure Spelt (t : Nat × String) (u : Unit) : Prop extends Names t.2 u where
  number : t.1 < wordBound
  /-- Parts of a second make less than one. -/
  part : ∀ nanos, u = .part nanos → t.1 * nanos < second

theorem isWhitespace_of_isDigit {c : Char} (h : c.isDigit = true) :
    Text.isWhitespace c = false := by
  have hrange : 48 ≤ c.toNat ∧ c.toNat ≤ 57 := by
    simpa [Char.isDigit, UInt32.le_iff_toNat_le] using h
  simp only [Text.isWhitespace, Bool.or_eq_false_iff, Bool.and_eq_false_iff,
    decide_eq_false_iff_not, beq_eq_false_iff_ne]
  omega

theorem Spelt.readWhole {t : Nat × String} {u : Unit} (h : Spelt t u) (rest : List Char) :
    readWhole 0 (spell t ++ rest) = some (t.1, t.2.toList ++ rest) := by
  rw [spell, List.append_assoc, readWhole_toDigits h.number]
  cases hname : t.2.toList with
  | nil => exact absurd hname h.nonempty
  | cons c cs =>
      obtain ⟨hunit, hdigit, hblank⟩ := h.letters c (hname ▸ List.mem_cons_self)
      rw [List.cons_append, Duration.readWhole, hdigit, hblank, hunit]
      rfl

/-- A term is added to the total, whatever term comes behind it. -/
theorem Spelt.readTerms {t : Nat × String} {u : Unit} (h : Spelt t u) {total : Nat}
    (hsum : total + t.1 * u.nanos < wordBound * second) {blanks rest : List Char}
    (hblanks : ∀ c ∈ blanks, Text.isWhitespace c = true)
    (hrest : ∀ c ∈ rest.head?, isUnitChar c = false) :
    readTerms total (blanks ++ (spell t ++ rest)) = readTerms (total + t.1 * u.nanos) rest := by
  obtain ⟨d, ds, hdigits, hdigit, -⟩ := Text.toDigits_eq_cons t.1
  have hspell : spell t ++ rest = d :: (ds ++ t.2.toList ++ rest) := by
    rw [spell, hdigits]
    rfl
  have hdrop : (blanks ++ (spell t ++ rest)).dropWhile Text.isWhitespace
      = d :: (ds ++ t.2.toList ++ rest) := by
    rw [List.dropWhile_append_of_pos hblanks, hspell,
      List.dropWhile_cons_of_neg (by rw [isWhitespace_of_isDigit hdigit]; decide)]
  have hwhole := h.readWhole rest
  rw [hspell] at hwhole
  have hunits : ∀ c ∈ t.2.toList, isUnitChar c = true := fun c hc => (h.letters c hc).1
  have hend : rest.takeWhile isUnitChar = [] ∧ rest.dropWhile isUnitChar = rest := by
    cases rest with
    | nil => exact ⟨rfl, rfl⟩
    | cons c cs =>
        have hc : ¬ isUnitChar c = true := by
          rw [hrest c rfl]
          decide
        exact ⟨List.takeWhile_cons_of_neg hc, List.dropWhile_cons_of_neg hc⟩
  have hname : (t.2.toList ++ rest).takeWhile isUnitChar = t.2.toList := by
    rw [List.takeWhile_append_of_pos hunits, hend.1, List.append_nil]
  have hnext : (t.2.toList ++ rest).dropWhile isUnitChar = rest := by
    rw [List.dropWhile_append_of_pos hunits, hend.2]
  have hlength : rest.length < (blanks ++ (spell t ++ rest)).length := by
    rw [hspell]
    simp only [List.length_append, List.length_cons]
    omega
  -- What is behind the number is no point, so there is no fraction.
  have hpoint : ∀ cs, t.2.toList ++ rest ≠ '.' :: cs := by
    intro cs heq
    obtain ⟨c, name, hcons⟩ := List.exists_cons_of_ne_nil h.nonempty
    rw [hcons] at heq
    cases heq
    exact absurd (hunits '.' (hcons ▸ List.mem_cons_self)) (by decide)
  rw [Duration.readTerms.eq_def, hdrop]
  dsimp only
  rw [hdigit, hwhole, if_neg (by decide)]
  dsimp only
  split
  · next heq =>
      split at heq
      · next hbehind => exact absurd hbehind (hpoint _)
      · cases heq
  · next heq =>
      split at heq
      · next hbehind => exact absurd hbehind (hpoint _)
      · cases heq
        rw [hname, hnext, String.ofList_toList, h.unit, Option.bind_some,
          addUnits?_of_lt h.part hsum]
        exact if_pos hlength

def totalOf (ts : List (Nat × String)) : Nat :=
  ts.foldr (fun t sum => t.1 * ((unit? t.2).map Unit.nanos).getD 0 + sum) 0

theorem Spelt.totalOf_cons {t : Nat × String} {u : Unit} (h : Spelt t u)
    (ts : List (Nat × String)) : totalOf (t :: ts) = t.1 * u.nanos + totalOf ts := by
  rw [totalOf, List.foldr_cons, h.unit]
  rfl

theorem readTerms_terms {t : Nat × String} {ts : List (Nat × String)}
    (hts : ∀ t' ∈ t :: ts, ∃ u, Spelt t' u) {total : Nat}
    (h : total + totalOf (t :: ts) < wordBound * second) {blanks : List Char}
    (hblanks : ∀ c ∈ blanks, Text.isWhitespace c = true) :
    readTerms total (blanks ++ (spell t ++ spellBehind ts))
      = some (total + totalOf (t :: ts)) := by
  induction ts generalizing t total blanks with
  | nil =>
      obtain ⟨u, hu⟩ := hts t List.mem_cons_self
      rw [hu.totalOf_cons] at h ⊢
      have hread : readTerms total (blanks ++ (spell t ++ []))
          = readTerms (total + t.1 * u.nanos) [] :=
        hu.readTerms (Nat.lt_of_le_of_lt (Nat.add_le_add_left (Nat.le_add_right ..) _) h)
          hblanks nofun
      refine hread.trans ?_
      rw [readTerms.eq_def]
      rfl
  | cons next ts ih =>
      obtain ⟨u, hu⟩ := hts t List.mem_cons_self
      rw [hu.totalOf_cons, ← Nat.add_assoc] at h ⊢
      have hread : readTerms total (blanks ++ (spell t ++ spellBehind (next :: ts)))
          = readTerms (total + t.1 * u.nanos) ([' '] ++ (spell next ++ spellBehind ts)) :=
        hu.readTerms (Nat.lt_of_le_of_lt (Nat.le_add_right ..) h) hblanks
          (by rintro c hc; cases hc; rfl)
      exact hread.trans (ih (fun t' ht' => hts t' (List.mem_cons_of_mem _ ht')) h
        (List.forall_mem_singleton.mpr rfl))

/-! ### The terms of a length -/

theorem toList_joinWith (t : Nat × String) (ts : List (Nat × String)) :
    (Text.joinWith " " ((t :: ts).map fun (n, name) => s!"{n}{name}")).toList
      = spell t ++ spellBehind ts := by
  have hterm : ∀ t : Nat × String, s!"{t.1}{t.2}".toList = spell t := by
    intro t
    rw [String.toList_append, Nat.toString_eq_repr, Nat.toList_repr]
    rfl
  induction ts generalizing t with
  | nil =>
      rw [spellBehind, List.flatMap_nil, List.append_nil]
      exact hterm t
  | cons next ts ih =>
      have hjoin : Text.joinWith " " ((t :: next :: ts).map fun (n, name) => s!"{n}{name}")
          = s!"{t.1}{t.2}" ++ " "
            ++ Text.joinWith " " ((next :: ts).map fun (n, name) => s!"{n}{name}") := rfl
      rw [hjoin, String.toList_append, String.toList_append, hterm, ih, List.append_assoc]
      rfl

/-- The units of terms, the largest first. -/
def units : List Unit :=
  [.long year, .long month, .long day, .long 3600, .short 60, .short 1, .part 1000000,
    .part 1000, .part 1]

theorem Names.spelt {name : String} {u : Unit} (h : Names name u)
    (hu : ∀ nanos, u ≠ .part nanos) {n : Nat} (hn : n < wordBound) : Spelt (n, name) u :=
  ⟨h, hn, fun nanos heq => absurd heq (hu nanos)⟩

theorem Names.spelt_part {name : String} {k : Nat} (h : Names name (.part k)) (hk : 0 < k)
    {n : Nat} (hn : n * k < second) : Spelt (n, name) (.part k) := by
  have hle : n ≤ n * k := Nat.le_mul_of_pos_right n hk
  have hsecond := second_add_second_lt
  refine ⟨h, ?_, fun nanos heq => ?_⟩
  · show n < wordBound
    omega
  · cases heq
    exact hn

/-- The name of a unit is the same in the plural, for all that is read. -/
theorem Names.plural {name : String} {u : Unit} (hone : Names name u)
    (hmany : Names (name ++ "s") u) (n : Nat) :
    Names (if n == 1 then name else name ++ "s") u := by
  split
  · exact hone
  · exact hmany

theorem terms_spelt {d : Duration} (h : d.Fits) : List.Forall₂ Spelt d.terms units := by
  have hyear : Names "year" (.long year) := .of_all (by decide) (by decide) (by decide)
  have hyears : Names "years" (.long year) := .of_all (by decide) (by decide) (by decide)
  have hmonth : Names "month" (.long month) := .of_all (by decide) (by decide) (by decide)
  have hmonths : Names "months" (.long month) := .of_all (by decide) (by decide) (by decide)
  have hday : Names "day" (.long day) := .of_all (by decide) (by decide) (by decide)
  have hdays : Names "days" (.long day) := .of_all (by decide) (by decide) (by decide)
  have hhour : Names "h" (.long 3600) := .of_all (by decide) (by decide) (by decide)
  have hminute : Names "m" (.short 60) := .of_all (by decide) (by decide) (by decide)
  have hsecond : Names "s" (.short 1) := .of_all (by decide) (by decide) (by decide)
  have hmilli : Names "ms" (.part 1000000) := .of_all (by decide) (by decide) (by decide)
  have hmicro : Names "us" (.part 1000) := .of_all (by decide) (by decide) (by decide)
  have hnano : Names "ns" (.part 1) := .of_all (by decide) (by decide) (by decide)
  unfold Fits at h
  unfold terms
  dsimp only
  have hrest := Nat.mod_lt d.nanos second_pos
  generalize d.nanos / second = seconds at h ⊢
  generalize d.nanos % second = nanos at hrest ⊢
  have hinYear := Nat.mod_le seconds year
  have hinMonth := Nat.mod_le (seconds % year) month
  have hinDay := Nat.mod_le (seconds % year % month) day
  have hyears' := Nat.div_le_self seconds year
  have hmonths' := Nat.div_le_self (seconds % year) month
  have hdays' := Nat.div_le_self (seconds % year % month) day
  refine .cons ((hyear.plural hyears _).spelt nofun (by omega)) ?_
  refine .cons ((hmonth.plural hmonths _).spelt nofun (by omega)) ?_
  refine .cons ((hday.plural hdays _).spelt nofun (by omega)) ?_
  refine .cons (hhour.spelt nofun (by omega)) ?_
  refine .cons (hminute.spelt nofun (by omega)) ?_
  refine .cons (hsecond.spelt nofun (by omega)) ?_
  refine .cons (hmilli.spelt_part (by omega) (by omega)) ?_
  unfold second at hrest
  refine .cons (hmicro.spelt_part (by omega) (by unfold second; omega)) ?_
  exact .cons (hnano.spelt_part (by omega) (by unfold second; omega)) .nil

theorem totalOf_of_spelt {ts : List (Nat × String)} {us : List Unit}
    (h : List.Forall₂ Spelt ts us) :
    totalOf ts
      = (List.zipWith (· * ·) (ts.map Prod.fst) (us.map Unit.nanos)).foldr (· + ·) 0 := by
  induction h with
  | nil => rfl
  | cons hu _ ih =>
      rw [hu.totalOf_cons, ih, List.map_cons, List.map_cons, List.zipWith_cons_cons,
        List.foldr_cons]

theorem foldr_zipWith_nine (a b c d e f g h i a' b' c' d' e' f' g' h' i' : Nat) :
    (List.zipWith (· * ·) [a, b, c, d, e, f, g, h, i] [a', b', c', d', e', f', g', h', i']).foldr
        (· + ·) 0
      = a * a' + (b * b' + (c * c' + (d * d' + (e * e' + (f * f' + (g * g'
        + (h * h' + (i * i' + 0)))))))) := rfl

theorem totalOf_terms {d : Duration} (h : d.Fits) : totalOf d.terms = d.nanos := by
  -- The sum is put together of variables, because the kernel would count with the numbers.
  have hnumbers : d.terms.map Prod.fst
      = [d.nanos / second / year, d.nanos / second % year / month,
        d.nanos / second % year % month / day, d.nanos / second % year % month % day / 3600,
        d.nanos / second % year % month % day % 3600 / 60,
        d.nanos / second % year % month % day % 60, d.nanos % second / 1000000,
        d.nanos % second / 1000 % 1000, d.nanos % second % 1000] := rfl
  have hunits : units.map Unit.nanos
      = [31557600000000000, 2630016000000000, 86400000000000, 3600000000000, 60000000000,
        1000000000, 1000000, 1000, 1] := rfl
  rw [totalOf_of_spelt (terms_spelt h), hnumbers, hunits, foldr_zipWith_nine]
  unfold second year month day
  omega

theorem totalOf_filter (ts : List (Nat × String)) :
    totalOf (ts.filter (·.1 != 0)) = totalOf ts := by
  induction ts with
  | nil => rfl
  | cons t ts ih =>
      have hcons : ∀ ts, totalOf (t :: ts)
        = t.1 * ((unit? t.2).map Unit.nanos).getD 0 + totalOf ts := fun _ => rfl
      rw [List.filter_cons, hcons]
      split
      · rw [hcons, ih]
      · next hzero =>
          have ht : t.1 = 0 := by simpa using hzero
          rw [ih, ht, Nat.zero_mul, Nat.zero_add]

/-- What is written of a length are terms that make it up. -/
theorem exists_spelt_render {d : Duration} (h : d.Fits) :
    ∃ t ts, d.render.toList = spell t ++ spellBehind ts
      ∧ (∀ t' ∈ t :: ts, ∃ u, Spelt t' u) ∧ totalOf (t :: ts) = d.nanos := by
  by_cases hd : d.nanos = 0
  · have hsecond : Names "s" (.short 1) := .of_all (by decide) (by decide) (by decide)
    have hzero : Spelt (0, "s") (.short 1) := hsecond.spelt nofun (by decide)
    have hrender : d.render = "0s" := if_pos (by simpa using hd)
    refine ⟨(0, "s"), [], by rw [hrender]; decide, ?_, ?_⟩
    · intro t ht
      rw [List.mem_singleton.mp ht]
      exact ⟨_, hzero⟩
    · rw [hzero.totalOf_cons, hd, Nat.zero_mul]
      rfl
  · have hspelt : ∀ t ∈ d.terms.filter (·.1 != 0), ∃ u, Spelt t u := by
      intro t ht
      obtain ⟨i, hi, rfl⟩ := List.getElem_of_mem (List.mem_of_mem_filter ht)
      exact ⟨_, (terms_spelt h).get hi ((terms_spelt h).length_eq ▸ hi)⟩
    have htotal := (totalOf_filter d.terms).trans (totalOf_terms h)
    have hrender : d.render = Text.joinWith " "
        ((d.terms.filter (·.1 != 0)).map fun (n, name) => s!"{n}{name}") :=
      if_neg (by simpa using hd)
    cases hkept : d.terms.filter (·.1 != 0) with
    | nil =>
        rw [hkept] at htotal
        exact absurd htotal.symm hd
    | cons t ts =>
        rw [hkept] at hspelt htotal hrender
        exact ⟨t, ts, by rw [hrender, toList_joinWith], hspelt, htotal⟩

/-- The text of a term begins with a digit and ends with a letter of the unit. -/
theorem Spelt.ends {t : Nat × String} {u : Unit} (h : Spelt t u) :
    ∃ d middle c, spell t = d :: (middle ++ [c]) ∧ d.isDigit = true
      ∧ Text.isWhitespace c = false := by
  obtain ⟨d, ds, hdigits, hdigit, -⟩ := Text.toDigits_eq_cons t.1
  obtain ⟨-, -, hblank⟩ := h.letters _ (List.getLast_mem h.nonempty)
  refine ⟨d, ds ++ t.2.toList.dropLast, _, ?_, hdigit, hblank⟩
  rw [spell, hdigits, List.cons_append, List.append_assoc, List.dropLast_append_getLast]

/-- So does the text of terms. -/
theorem ends_of_spelt {t : Nat × String} {ts : List (Nat × String)}
    (hts : ∀ t' ∈ t :: ts, ∃ u, Spelt t' u) :
    ∃ d middle c, spell t ++ spellBehind ts = d :: (middle ++ [c]) ∧ d.isDigit = true
      ∧ Text.isWhitespace c = false := by
  induction ts generalizing t with
  | nil =>
      obtain ⟨u, hu⟩ := hts t List.mem_cons_self
      obtain ⟨d, middle, c, hspell, hends⟩ := hu.ends
      exact ⟨d, middle, c, (List.append_nil _).trans hspell, hends⟩
  | cons next ts ih =>
      obtain ⟨u, hu⟩ := hts t List.mem_cons_self
      obtain ⟨d, middle, c, hspell, hdigit, -⟩ := hu.ends
      obtain ⟨d', middle', c', hrest, -, hblank⟩ :=
        ih fun t' ht' => hts t' (List.mem_cons_of_mem _ ht')
      refine ⟨d, middle ++ c :: ' ' :: d' :: middle', c', ?_, hdigit, hblank⟩
      show spell t ++ ' ' :: (spell next ++ spellBehind ts) = _
      rw [hrest, hspell]
      simp

theorem parse?_render {d : Duration} (h : d.Fits) : parse? d.render = some d := by
  obtain ⟨t, ts, hrender, hspelt, htotal⟩ := exists_spelt_render h
  obtain ⟨first, middle, last, hends, hdigit, -⟩ := ends_of_spelt hspelt
  have hnotZero : (d.render == "0") = false := by
    rw [beq_eq_false_iff_ne]
    intro hzero
    rw [hzero, hends] at hrender
    cases middle <;> cases hrender
  have hnotBlank : d.render.toList.all Text.isWhitespace = false := by
    rw [hrender, hends, List.all_cons, isWhitespace_of_isDigit hdigit, Bool.false_and]
  have hread : readTerms 0 ([] ++ (spell t ++ spellBehind ts))
      = some (0 + totalOf (t :: ts)) := by
    refine readTerms_terms hspelt ?_ nofun
    rw [htotal, Nat.zero_add]
    exact (Nat.div_lt_iff_lt_mul second_pos).mp h
  rw [List.nil_append, ← hrender, htotal, Nat.zero_add] at hread
  unfold parse?
  rw [hnotZero]
  dsimp only
  rw [hnotBlank, hread]
  rfl

theorem trim_render {d : Duration} (h : d.Fits) : Text.trim d.render = d.render := by
  obtain ⟨t, ts, hrender, hspelt, -⟩ := exists_spelt_render h
  obtain ⟨first, middle, last, hends, hdigit, hblank⟩ := ends_of_spelt hspelt
  have hstart : ¬ Text.isWhitespace first = true := by
    rw [isWhitespace_of_isDigit hdigit]
    decide
  rw [← String.toList_inj, Text.trim, String.toList_ofList, hrender, hends, Text.trimBy,
    Text.trimStartBy, List.dropWhile_cons_of_neg hstart]
  exact Text.trimEndBy_concat hblank (first :: middle)

end HttpSuite.Duration
