import Mathlib.Data.List.Nodup
import HttpSuite.Config.Validation

/-!
# What validation promises

A context or a case without violations satisfies what is listed in `ContextSpec.Valid` and in
`CaseSpec.Valid`, and nothing else is asked of it: each is an equivalence. The names of
definitions are asked of the flow of a case, and of none of the flows of a context.
-/

namespace HttpSuite

/-- All variables that a round trip takes from its response have names. -/
def RoundTripSpec.Named (spec : RoundTripSpec) : Prop := ∀ d ∈ spec.definitions, d.name ≠ ""

/-- The names that round trips define. -/
def definedNames (flow : List RoundTripSpec) : List String :=
  flow.flatMap fun r => r.definitions.map DefinitionSpec.name

theorem forall_named_iff {flow : List RoundTripSpec} :
    (∀ r ∈ flow, r.Named) ↔ "" ∉ definedNames flow := by
  simp only [definedNames, RoundTripSpec.Named, List.mem_flatMap, List.mem_map, not_exists,
    not_and]

/-- All round trips of a context: those of its flow and those of its validated flows. -/
def ContextSpec.roundTrips (spec : ContextSpec) : List RoundTripSpec :=
  spec.flow ++ spec.validatedFlow.flatMap fun f => f.constructor ++ f.validator

/-- What validation promises of a context. -/
structure ContextSpec.Valid (spec : ContextSpec) : Prop where
  halves : ∀ f ∈ spec.validatedFlow, f.constructor ≠ [] ∧ f.validator ≠ []
  presetters : ∀ p ∈ spec.presetters, p.name ≠ ""
  cleaners : ∀ c ∈ spec.cleaners, c.name ≠ ""
  exports : ∀ e ∈ spec.exports, e.name ≠ ""
  distinct : (spec.exports.map ExportSpec.name).Nodup

/-- What validation promises of a case. -/
def CaseSpec.Valid (spec : CaseSpec) : Prop := ∀ r ∈ spec.flow, r.Named

/-- What holds of all items holds of them beside their places, and the other way round. -/
theorem forall_mem_zipIdx_iff {α : Type} {P : α → Prop} {items : List α} :
    (∀ e ∈ items.zipIdx, P e.1) ↔ ∀ a ∈ items, P a := by
  rw [← List.forall_mem_map (f := Prod.fst), List.zipIdx_map_fst]

theorem indexed_eq_nil_iff {α : Type} {test : α → Bool} {violation : Nat → Violation}
    {items : List α} :
    indexed test violation items = [] ↔ ∀ a ∈ items, test a = false := by
  rw [indexed, List.map_eq_nil_iff, List.filter_eq_nil_iff]
  simp only [Bool.not_eq_true]
  exact forall_mem_zipIdx_iff (P := fun a => test a = false)

theorem exportViolations_eq_nil_iff {specs : List ExportSpec} {index : Nat}
    {taken : List String} :
    exportViolations index taken specs = []
      ↔ (∀ e ∈ specs, e.name ≠ "") ∧ (specs.map ExportSpec.name).Nodup
        ∧ ∀ e ∈ specs, e.name ∉ taken := by
  induction specs generalizing index taken with
  | nil => exact iff_of_true rfl ⟨nofun, List.nodup_nil, nofun⟩
  | cons spec rest ih =>
      rw [exportViolations, List.forall_mem_cons, List.forall_mem_cons, List.map_cons,
        List.nodup_cons]
      split
      · next hname => simp [String.isEmpty_iff.mp hname]
      · next hname =>
          have hne : spec.name ≠ "" := String.isEmpty_eq_false_iff.mp (Bool.not_eq_true _ ▸ hname)
          split
          · next htaken =>
              have hmem : spec.name ∈ taken := by simpa using htaken
              simp [hmem]
          · next htaken =>
              have hfree : spec.name ∉ taken := by simpa using htaken
              rw [ih]
              -- What is asked of the rest is split by whether a name is taken here or before.
              simp only [List.mem_cons, not_or, List.mem_map, not_exists, not_and]
              constructor
              · rintro ⟨hnames, hdistinct, hothers⟩
                exact ⟨⟨hne, hnames⟩, ⟨fun e he => (hothers e he).1, hdistinct⟩, hfree,
                  fun e he => (hothers e he).2⟩
              · rintro ⟨⟨-, hnames⟩, ⟨hown, hdistinct⟩, -, hothers⟩
                exact ⟨hnames, hdistinct, fun e he => ⟨hown e he, hothers e he⟩⟩

/-- A context is accepted exactly if it is valid. -/
theorem ContextSpec.violations_eq_nil_iff {spec : ContextSpec} :
    spec.violations = [] ↔ spec.Valid := by
  rw [violations, List.append_eq_nil_iff, List.append_eq_nil_iff, List.append_eq_nil_iff,
    indexed_eq_nil_iff, indexed_eq_nil_iff, indexed_eq_nil_iff, exportViolations_eq_nil_iff]
  simp only [Bool.or_eq_false_iff, String.isEmpty_eq_false_iff, List.isEmpty_eq_false_iff]
  constructor
  · rintro ⟨⟨⟨hhalves, hpresetters⟩, hcleaners⟩, hexports, hdistinct, -⟩
    exact ⟨hhalves, hpresetters, hcleaners, hexports, hdistinct⟩
  · intro h
    exact ⟨⟨⟨h.halves, h.presetters⟩, h.cleaners⟩, h.exports, h.distinct, fun _ _ => nofun⟩

/-- A case is accepted exactly if it is valid. -/
theorem CaseSpec.violations_eq_nil_iff {spec : CaseSpec} : spec.violations = [] ↔ spec.Valid := by
  rw [violations, List.flatMap_eq_nil_iff]
  simp only [indexed_eq_nil_iff, String.isEmpty_eq_false_iff]
  exact forall_mem_zipIdx_iff (P := RoundTripSpec.Named)

end HttpSuite
