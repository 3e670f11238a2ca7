import HttpSuite.Pattern.Check
import HttpSuite.Proofs.Decimal.Binary64
import Mathlib.Data.List.Forall2

/-!
# What a pattern accepts

A value is accepted if checking it finds nothing wrong. For each kind of pattern one lemma
says which values those are, so that no proof about patterns has to open the check, whose
business is mostly the wording of what is wrong.
-/

namespace HttpSuite

/-- Integers that are equal, or numbers that are the same double after conversion. -/
def Number.SameValue : Number → Number → Prop
  | .int a, .int b => a = b
  | a, b => a.toBinary64.value = b.toBinary64.value

theorem Number.numEq_iff (a b : Number) : a.numEq b = true ↔ a.SameValue b := by
  cases a <;> cases b
  case int.int => exact beq_iff_eq
  all_goals exact Binary64.numEq_iff _ _

namespace Pattern

theorem within_eq_nil_iff {segment : String} {failures : List MatchFailure} :
    within segment failures = [] ↔ failures = [] := by
  unfold within
  cases failures <;> simp

theorem accepts_bool {b : Bool} {v : Value} : (bool b).accepts v = true ↔ v = .bool b := by
  rw [accepts_iff]
  cases v <;> simp [check]

theorem accepts_string {s : String} {v : Value} :
    (string s).accepts v = true ↔ v = .string s := by
  rw [accepts_iff]
  cases v with
  | string t => rw [Value.string.injEq, eq_comm (a := t)]; simp [check]
  | _ => simp [check]

theorem accepts_number {n : Number} {v : Value} :
    (number n).accepts v = true ↔ ∃ m, v = .number m ∧ n.SameValue m := by
  rw [accepts_iff]
  cases v <;> simp [check, Number.numEq_iff]

theorem accepts_regexp {source : String} {found : String → Bool} {v : Value} :
    (regexp source found).accepts v = true ↔ ∃ s, v = .string s ∧ found s = true := by
  rw [accepts_iff]
  cases v <;> simp [check]

theorem accepts_length {n : Nat} {v : Value} :
    (length n).accepts v = true ↔ lengthOf? v = some n := by
  rw [accepts_iff, check]
  cases lengthOf? v <;> simp

theorem checkItems_eq_nil_iff {ps : List Pattern} {vs : List Value}
    (hlen : vs.length = ps.length) (index : Nat) :
    checkItems index ps vs = [] ↔ List.Forall₂ (fun p v => p.accepts v = true) ps vs := by
  induction ps generalizing vs index with
  | nil =>
      rw [List.length_eq_zero_iff.mp hlen]
      simp [checkItems]
  | cons p ps ih =>
      cases vs with
      | nil => cases hlen
      | cons v vs =>
          rw [checkItems, List.append_eq_nil_iff, within_eq_nil_iff, List.forall₂_cons,
            accepts_iff, ih (Nat.succ.inj hlen)]

theorem accepts_elements {ps : List Pattern} {v : Value} :
    (elements ps).accepts v = true
      ↔ ∃ vs, v = .array vs ∧ List.Forall₂ (fun p v => p.accepts v = true) ps vs := by
  rw [accepts_iff]
  cases v with
  | array vs =>
      by_cases hlen : vs.length = ps.length
      · simp [check, hlen, checkItems_eq_nil_iff hlen]
      · have hnot : ¬ List.Forall₂ (fun (p : Pattern) v => p.accepts v = true) ps vs :=
          fun h => hlen h.length_eq.symm
        simp [check, hlen, hnot]
  | _ => simp [check]

/-- What a field of a pattern asks of an object. -/
def FieldHolds (field : String × Option Pattern) (entries : Entries Value) : Prop :=
  match field.2 with
  | none => entries.get? field.1 = none
  | some p => ∃ v, entries.get? field.1 = some v ∧ p.accepts v = true

theorem checkFields_eq_nil_iff {fs : List (String × Option Pattern)} {entries : Entries Value} :
    checkFields fs entries = [] ↔ ∀ f ∈ fs, FieldHolds f entries := by
  induction fs with
  | nil => simp [checkFields]
  | cons f fs ih =>
      rw [List.forall_mem_cons, ← ih]
      obtain ⟨key, _ | p⟩ := f
      all_goals
        rw [checkFields, List.append_eq_nil_iff]
        refine and_congr_left' ?_
        cases hget : entries.get? key <;>
          simp [FieldHolds, Entries.contains, hget, within_eq_nil_iff, accepts_iff]

theorem accepts_fields {fs : List (String × Option Pattern)} {v : Value} :
    (fields fs).accepts v = true
      ↔ ∃ entries, v = .object entries ∧ ∀ f ∈ fs, FieldHolds f entries := by
  rw [accepts_iff]
  cases v <;> simp [check, checkFields_eq_nil_iff]

theorem accepts_all {ps : List Pattern} {v : Value} :
    (all ps).accepts v = true ↔ ∀ p ∈ ps, p.accepts v = true := by
  rw [accepts_iff, check]
  induction ps with
  | nil => simp [checkAll]
  | cons p ps ih => rw [checkAll, List.append_eq_nil_iff, ih, List.forall_mem_cons, accepts_iff]

end Pattern

end HttpSuite
