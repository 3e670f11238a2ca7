import HttpSuite.Proofs.Pattern.Check
import HttpSuite.Proofs.Value.Place

/-!
# The constraints of a pattern

A pattern is a number of constraints, each on the value at one place: that it be a certain
scalar, that it be a container of a certain size, that a field be there or not. They are listed
here from the pattern alone, in the order in which it says them.

Not every constraint can be looked at in every value. What is asked of an item means something
only if there is an array of the right length around it, and what is asked of a field only if the
field is there; a constraint names these demands, which are made at the places above it.
-/

namespace HttpSuite

namespace Pattern

/-- What can be asked of a place: that it holds a certain scalar, where the form of a number does
not count, a text in which an expression matches, something of a length, an array of a number of
items, or an object; or that there is something at all, or nothing. -/
inductive Demand where
  | null
  | bool (b : Bool)
  | string (s : String)
  | number (n : Number)
  | regexp (source : String) (found : String → Bool)
  | length (n : Nat)
  | array (count : Nat)
  | object
  | existence (expected : Bool)

namespace Demand

/-- What is at a place is as demanded. -/
def Met : Demand → Option Value → Prop
  | null, v => v = some .null
  | bool b, v => v = some (.bool b)
  | string s, v => v = some (.string s)
  | number n, v => ∃ m, v = some (.number m) ∧ n.SameValue m
  | regexp _ found, v => ∃ s, v = some (.string s) ∧ found s = true
  | length n, v => v.bind lengthOf? = some n
  | array count, v => ∃ items, v = some (.array items) ∧ items.length = count
  | object, v => ∃ fields, v = some (.object fields)
  | existence expected, v => v.isSome = expected

/-- Whether what is at a place is as demanded. -/
def holds : Demand → Option Value → Bool
  | null, some .null => true
  | bool b, some (.bool a) => a == b
  | string s, some (.string t) => t == s
  | number n, some (.number m) => n.numEq m
  | regexp _ found, some (.string s) => found s
  | length n, some v => lengthOf? v == some n
  | array count, some (.array items) => items.length == count
  | object, some (.object _) => true
  | existence expected, v => v.isSome == expected
  | _, _ => false

theorem holds_iff {d : Demand} {v : Option Value} : d.holds v = true ↔ d.Met v := by
  cases d <;> rcases v with _ | v <;> try cases v
  all_goals simp [holds, Met, Number.numEq_iff]

instance (d : Demand) (v : Option Value) : Decidable (d.Met v) := decidable_of_iff _ holds_iff

/-- The written form of what is at a place. -/
def shown (v : Option Value) : String := v.elim "" Value.render

/-- What is said where a demand is not met. -/
def complaint (d : Demand) (v : Option Value) : String :=
  match d with
  | null => s!"expected null, actual: {shown v}"
  | bool b => s!"expected {b}, actual: {shown v}"
  | string s => s!"expected {Value.renderText s}, actual: {shown v}"
  | number n => s!"expected number {n.render}, actual: {shown v}"
  | regexp source _ =>
    match v with
    | some (.string s) => s!"expected {Text.quoted s} to match regexp {Text.quoted source}"
    | v => s!"regexp {Text.quoted source} needs a string, actual: {shown v}"
  | length n =>
    match v.bind lengthOf? with
    | some m => s!"unexpected length, expected: {n}, actual: {m}"
    | none => s!"can't take length of {shown v}"
  | array count =>
    match v with
    | some (.array items) =>
      s!"unexpected slice length, expected: {count}, actual: {items.length}"
    | v => s!"expected array, actual: {shown v}"
  | object => s!"expected object, actual: {shown v}"
  | existence expected =>
    s!"field existence err, expected: {expected}, actual: {v.isSome}"

theorem complaint_existence (expected : Bool) (v : Option Value) :
    (existence expected).complaint v =
      s!"field existence err, expected: {expected}, actual: {v.isSome}" := rfl

theorem complaint_length (n : Nat) (v : Value) :
    (length n).complaint (some v) =
      match lengthOf? v with
      | some m => s!"unexpected length, expected: {n}, actual: {m}"
      | none => s!"can't take length of {v.render}" := rfl

end Demand

/-- A demand, with the way to the place at which it is made. -/
structure Ask where
  place : List Value.Step
  demand : Demand

/-- A demand, with all that is asked of the containers and fields on the way to its place. -/
structure Constraint extends Ask where
  above : List Ask

namespace Ask

/-- A value is at the place as it is asked to be. -/
def Met (a : Ask) (v : Value) : Prop := a.demand.Met (v.at? a.place)

instance (a : Ask) (v : Value) : Decidable (a.Met v) :=
  inferInstanceAs (Decidable (a.demand.Met _))

/-- The same demand, one step deeper. -/
def under (step : Value.Step) (a : Ask) : Ask := { a with place := step :: a.place }

theorem met_under {v w : Value} {step : Value.Step} (h : v.step? step = some w) (a : Ask) :
    (a.under step).Met v ↔ a.Met w := by
  rw [Met, Met, under, Value.at?_cons h]

end Ask

namespace Constraint

/-- All containers above have the right kind and length, and all fields above are there. -/
def Reachable (c : Constraint) (v : Value) : Prop := ∀ a ∈ c.above, a.Met v

/-- What is at the place is not as demanded. -/
def Violated (c : Constraint) (v : Value) : Prop := ¬ c.toAsk.Met v

instance (c : Constraint) (v : Value) : Decidable (c.Reachable v) :=
  inferInstanceAs (Decidable (∀ a ∈ c.above, a.Met v))

instance (c : Constraint) (v : Value) : Decidable (c.Violated v) :=
  inferInstanceAs (Decidable (¬ _))

/-- The same constraint, one step deeper. -/
def under (step : Value.Step) (c : Constraint) : Constraint :=
  { c.toAsk.under step with above := c.above.map (Ask.under step) }

/-- The same constraint where something else is asked above. -/
def behind (a : Ask) (c : Constraint) : Constraint := { c with above := a :: c.above }

/-- A demand on what is looked at, and constraints that depend on it. -/
def guarded (a : Ask) (cs : List Constraint) : List Constraint :=
  { a with above := [] } :: cs.map (behind a)

variable {v w : Value} {step : Value.Step}

theorem reachable_under (h : v.step? step = some w) (c : Constraint) :
    (c.under step).Reachable v ↔ c.Reachable w := by
  simp [Reachable, under, Ask.met_under h]

theorem violated_under (h : v.step? step = some w) (c : Constraint) :
    (c.under step).Violated v ↔ c.Violated w :=
  not_congr (Ask.met_under h c.toAsk)

theorem reachable_behind (a : Ask) (c : Constraint) :
    (c.behind a).Reachable v ↔ a.Met v ∧ c.Reachable v :=
  List.forall_mem_cons

end Constraint

open Constraint (guarded under)

mutual

/-- The constraints of a pattern. -/
def constraints : Pattern → List Constraint
  | null => guarded ⟨[], .null⟩ []
  | bool b => guarded ⟨[], .bool b⟩ []
  | string s => guarded ⟨[], .string s⟩ []
  | number n => guarded ⟨[], .number n⟩ []
  | regexp source found => guarded ⟨[], .regexp source found⟩ []
  | length n => guarded ⟨[], .length n⟩ []
  | elements ps => guarded ⟨[], .array ps.length⟩ (itemConstraints 0 ps)
  | fields fs => guarded ⟨[], .object⟩ (fieldConstraints fs)
  | all ps => partConstraints ps

/-- The constraints on items, from an index on. -/
def itemConstraints (index : Nat) : List Pattern → List Constraint
  | [] => []
  | p :: ps => p.constraints.map (under (.item index)) ++ itemConstraints (index + 1) ps

/-- The constraints on fields. -/
def fieldConstraints : List (String × Option Pattern) → List Constraint
  | [] => []
  | (key, none) :: rest => guarded ⟨[.field key], .existence false⟩ [] ++ fieldConstraints rest
  | (key, some p) :: rest =>
    guarded ⟨[.field key], .existence true⟩ (p.constraints.map (under (.field key)))
      ++ fieldConstraints rest

/-- The constraints of all patterns on the same value. -/
def partConstraints : List Pattern → List Constraint
  | [] => []
  | p :: ps => p.constraints ++ partConstraints ps

end

/-- Induction on a pattern, with a hypothesis for every item, field and part. -/
@[elab_as_elim]
theorem inductionOn {motive : Pattern → Prop} (p : Pattern) (null : motive .null)
    (bool : ∀ b, motive (.bool b)) (string : ∀ s, motive (.string s))
    (number : ∀ n, motive (.number n)) (regexp : ∀ source found, motive (.regexp source found))
    (length : ∀ n, motive (.length n))
    (elements : ∀ ps, (∀ p ∈ ps, motive p) → motive (.elements ps))
    (fields : ∀ fs : List (String × Option Pattern), (∀ f ∈ fs, ∀ p ∈ f.2, motive p) →
      motive (.fields fs))
    (all : ∀ ps, (∀ p ∈ ps, motive p) → motive (.all ps)) : motive p :=
  @Pattern.rec motive (fun ps => ∀ p ∈ ps, motive p) (fun fs => ∀ f ∈ fs, ∀ p ∈ f.2, motive p)
    (fun f => ∀ p ∈ f.2, motive p) (fun found => ∀ p ∈ found, motive p)
    null bool string number regexp length elements fields all nofun
    (fun _ _ hp hrest => List.forall_mem_cons.mpr ⟨hp, hrest⟩) nofun
    (fun _ _ hf hrest => List.forall_mem_cons.mpr ⟨hf, hrest⟩) (fun _ _ hfound => hfound) nofun
    (fun _ hp _ hq => Option.mem_some.mp hq ▸ hp) p

/-! ## Where constraints are -/

namespace Constraint

/-- Where the constraint is reachable, its place is in the value. Only if the constraint is about
there being something, the last step to the place may lead nowhere. -/
def Lands (c : Constraint) : Prop :=
  ∀ v : Value, c.Reachable v → (v.at? c.place.dropLast).isSome = true
    ∧ ((v.at? c.place).isSome = true ∨ ∃ b, c.demand = .existence b)

theorem Lands.behind {c : Constraint} (h : c.Lands) (a : Ask) : (c.behind a).Lands :=
  fun v hv => h v ((reachable_behind a c).mp hv).2

/-- A step can be taken wherever what is asked above it is met. -/
theorem Lands.under_behind {c : Constraint} (h : c.Lands) {a : Ask} {step : Value.Step}
    (hstep : ∀ v : Value, a.Met v → (v.step? step).isSome = true) :
    ((c.under step).behind a).Lands := by
  intro v hv
  obtain ⟨hmet, hreach⟩ := (reachable_behind a _).mp hv
  obtain ⟨w, hw⟩ := Option.isSome_iff_exists.mp (hstep v hmet)
  obtain ⟨hdropped, hplace⟩ := h w ((reachable_under hw c).mp hreach)
  refine ⟨?_, hplace.imp_left fun hsome => (Value.at?_cons hw c.place).symm ▸ hsome⟩
  -- without its last step the place is `v` itself if `c` was at the root of `w`
  change (v.at? (step :: c.place).dropLast).isSome = true
  cases hc : c.place with
  | nil => rfl
  | cons next rest =>
      rw [List.dropLast_cons_cons, Value.at?_cons hw, ← hc]
      exact hdropped

theorem forall_mem_guarded {P : Constraint → Prop} {a : Ask} {cs : List Constraint} :
    (∀ c ∈ guarded a cs, P c) ↔ P { a with above := [] } ∧ ∀ c ∈ cs, P (c.behind a) := by
  simp [guarded]

end Constraint

theorem itemConstraints_lands {ps : List Pattern} (h : ∀ p ∈ ps, ∀ c ∈ p.constraints, c.Lands)
    {index count : Nat} (hcount : index + ps.length ≤ count) :
    ∀ c ∈ itemConstraints index ps, (c.behind ⟨[], .array count⟩).Lands := by
  induction ps generalizing index with
  | nil => exact List.forall_mem_nil _
  | cons p ps ih =>
      obtain ⟨hp, hps⟩ := List.forall_mem_cons.mp h
      rw [List.length_cons] at hcount
      rw [itemConstraints, List.forall_mem_append, List.forall_mem_map]
      refine ⟨fun c hc => (hp c hc).under_behind ?_, ih hps (by omega)⟩
      rintro v ⟨items, hv, hlength⟩
      cases hv
      have hindex : index < items.length := by omega
      simp [Value.step?, hindex]

theorem fieldConstraints_lands {fs : List (String × Option Pattern)}
    (h : ∀ f ∈ fs, ∀ p ∈ f.2, ∀ c ∈ p.constraints, c.Lands) :
    ∀ c ∈ fieldConstraints fs, c.Lands := by
  induction fs with
  | nil => exact List.forall_mem_nil _
  | cons f fs ih =>
      obtain ⟨hf, hfs⟩ := List.forall_mem_cons.mp h
      obtain ⟨key, _ | p⟩ := f
      · rw [fieldConstraints, List.forall_mem_append, Constraint.forall_mem_guarded]
        exact ⟨⟨fun _ _ => ⟨rfl, Or.inr ⟨_, rfl⟩⟩, List.forall_mem_nil _⟩, ih hfs⟩
      · rw [fieldConstraints, List.forall_mem_append, Constraint.forall_mem_guarded,
          List.forall_mem_map]
        refine ⟨⟨fun _ _ => ⟨rfl, Or.inr ⟨_, rfl⟩⟩, fun c hc => ?_⟩, ih hfs⟩
        refine (hf p rfl c hc).under_behind fun v hv => ?_
        rw [← Value.at?_singleton]
        exact hv

/-- Each item has an array of the right length around it, and each field is asked for first. -/
theorem constraints_land (p : Pattern) : ∀ c ∈ p.constraints, c.Lands := by
  induction p using inductionOn with
  | elements ps ih =>
      rw [constraints, Constraint.forall_mem_guarded]
      exact ⟨fun _ _ => ⟨rfl, Or.inl rfl⟩, itemConstraints_lands ih (Nat.zero_add _).le⟩
  | fields fs ih =>
      rw [constraints, Constraint.forall_mem_guarded]
      exact ⟨fun _ _ => ⟨rfl, Or.inl rfl⟩, fun c hc => (fieldConstraints_lands ih c hc).behind _⟩
  | all ps ih =>
      rw [constraints]
      induction ps with
      | nil => exact List.forall_mem_nil _
      | cons p ps ih' =>
          obtain ⟨hp, hps⟩ := List.forall_mem_cons.mp ih
          rw [partConstraints, List.forall_mem_append]
          exact ⟨hp, ih' hps⟩
  | _ =>
      rw [constraints, Constraint.forall_mem_guarded]
      exact ⟨fun _ _ => ⟨rfl, Or.inl rfl⟩, List.forall_mem_nil _⟩

/-- The constraints that a value can be held to and that it violates. -/
def broken (p : Pattern) (v : Value) : List Constraint :=
  p.constraints.filter fun c => c.Reachable v ∧ c.Violated v

theorem mem_broken {p : Pattern} {v : Value} {c : Constraint} :
    c ∈ p.broken v ↔ c ∈ p.constraints ∧ c.Reachable v ∧ c.Violated v := by
  simp [broken]

/-- The place of a broken constraint is in the value, but for a field that is missing. -/
theorem at?_of_mem_broken {p : Pattern} {v : Value} {c : Constraint} (h : c ∈ p.broken v) :
    (v.at? c.place.dropLast).isSome = true
      ∧ (v.at? c.place = none ↔ c.demand = .existence true) := by
  obtain ⟨hc, hreach, hviolated⟩ := mem_broken.mp h
  obtain ⟨hdropped, hplace⟩ := constraints_land p c hc v hreach
  refine ⟨hdropped, ?_⟩
  rw [Constraint.Violated, Ask.Met] at hviolated
  obtain hsome | ⟨b, hb⟩ := hplace
  · have hne : v.at? c.place ≠ none := Option.isSome_iff_ne_none.mp hsome
    refine iff_of_false hne fun hdemand => ?_
    rw [hdemand] at hviolated
    exact hviolated hsome
  · rw [hb] at hviolated
    have hsome : (v.at? c.place).isSome = !b := Bool.eq_not_of_ne hviolated
    rw [hb, Demand.existence.injEq, ← Option.not_isSome_iff_eq_none, hsome]
    cases b <;> simp

end Pattern

end HttpSuite
