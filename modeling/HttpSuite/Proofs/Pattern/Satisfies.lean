import HttpSuite.Proofs.Pattern.Check

/-!
# What it is to satisfy a pattern

`Satisfies` says what it is for a value to fit a pattern, of the value that writes the
pattern and with no word of how it is read: an array fits item by item, an object fits field
by field, and operators all speak of the one value.

The two relations are inductive because they go through lists of values. For each way to
write a pattern one lemma says what satisfies it, and the proofs about reading use only these.
-/

namespace HttpSuite

namespace Pattern

/-- What a field says that is to be absent. -/
def absence : Value := .object [("$exists", .bool false)]

mutual

/-- A value fits what a pattern says. -/
inductive Satisfies (engine : RegexEngine) : Value → Value → Prop
  | null : Satisfies engine .null .null
  | bool (b : Bool) : Satisfies engine (.bool b) (.bool b)
  | string (s : String) : Satisfies engine (.string s) (.string s)
  | number {n m : Number} (h : n.SameValue m) : Satisfies engine (.number n) (.number m)
  | array {ps vs : List Value} (h : List.Forall₂ (Satisfies engine) ps vs) :
      Satisfies engine (.array ps) (.array vs)
  | fields {fs : List (String × Value)} {entries : Entries Value}
      (plain : ∀ f ∈ fs, isOperator f.1 = false)
      (absent : ∀ f ∈ fs, f.2 = absence → entries.get? f.1 = none)
      (present : ∀ f ∈ fs, f.2 ≠ absence → (entries.get? f.1).isSome = true)
      (fits : ∀ f ∈ fs, f.2 ≠ absence → ∀ v, entries.get? f.1 = some v → Satisfies engine f.2 v) :
      Satisfies engine (.object fs) (.object entries)
  | operators {fs : List (String × Value)} {v : Value} (nonempty : fs ≠ [])
      (all : ∀ f ∈ fs, Meets engine f.1 f.2 v) : Satisfies engine (.object fs) v

/-- A value meets an operator with an operand. -/
inductive Meets (engine : RegexEngine) : String → Value → Value → Prop
  | presence (v : Value) : Meets engine "$exists" (.bool true) v
  | regexp {source : String} {found : String → Bool} {s : String}
      (read : engine.compile source = .ok found) (matched : found s = true) :
      Meets engine "$regexp" (.string source) (.string s)
  | textLength (s : String) : Meets engine "$len" (.number (.int s.length)) (.string s)
  | arrayLength (vs : List Value) : Meets engine "$len" (.number (.int vs.length)) (.array vs)
  | objectLength (fs : List (String × Value)) :
      Meets engine "$len" (.number (.int fs.length)) (.object fs)
  | nested {p v : Value} (h : Satisfies engine p v) : Meets engine "$match" p v

end

variable {engine : RegexEngine}

theorem satisfies_null_iff {v : Value} : Satisfies engine .null v ↔ v = .null :=
  ⟨fun h => by cases h; rfl, by rintro rfl; exact .null⟩

theorem satisfies_bool_iff {b : Bool} {v : Value} : Satisfies engine (.bool b) v ↔ v = .bool b :=
  ⟨fun h => by cases h; rfl, by rintro rfl; exact .bool b⟩

theorem satisfies_string_iff {s : String} {v : Value} :
    Satisfies engine (.string s) v ↔ v = .string s :=
  ⟨fun h => by cases h; rfl, by rintro rfl; exact .string s⟩

theorem satisfies_number_iff {n : Number} {v : Value} :
    Satisfies engine (.number n) v ↔ ∃ m, v = .number m ∧ n.SameValue m := by
  constructor
  · intro h
    cases h with
    | number h => exact ⟨_, rfl, h⟩
  · rintro ⟨m, rfl, h⟩
    exact .number h

theorem satisfies_array_iff {ps : List Value} {v : Value} :
    Satisfies engine (.array ps) v
      ↔ ∃ vs, v = .array vs ∧ List.Forall₂ (Satisfies engine) ps vs := by
  constructor
  · intro h
    cases h with
    | array h => exact ⟨_, rfl, h⟩
  · rintro ⟨vs, rfl, h⟩
    exact .array h

/-- The four operators, and what each asks. -/
theorem meets_iff {key : String} {operand v : Value} :
    Meets engine key operand v
      ↔ (key = "$exists" ∧ operand = .bool true)
        ∨ (key = "$regexp" ∧ ∃ source found s, operand = .string source ∧ v = .string s
          ∧ engine.compile source = .ok found ∧ found s = true)
        ∨ (key = "$len" ∧ ∃ n : Nat, operand = .number (.int n) ∧ lengthOf? v = some n)
        ∨ (key = "$match" ∧ Satisfies engine operand v) := by
  constructor
  · intro h
    cases h with
    | presence => exact Or.inl ⟨rfl, rfl⟩
    | regexp read matched => exact Or.inr (Or.inl ⟨rfl, _, _, _, rfl, rfl, read, matched⟩)
    | textLength => exact Or.inr (Or.inr (Or.inl ⟨rfl, _, rfl, rfl⟩))
    | arrayLength => exact Or.inr (Or.inr (Or.inl ⟨rfl, _, rfl, rfl⟩))
    | objectLength => exact Or.inr (Or.inr (Or.inl ⟨rfl, _, rfl, rfl⟩))
    | nested h => exact Or.inr (Or.inr (Or.inr ⟨rfl, h⟩))
  · rintro (⟨rfl, rfl⟩ | ⟨rfl, source, found, s, rfl, rfl, hread, hfound⟩
      | ⟨rfl, n, rfl, hlength⟩ | ⟨rfl, h⟩)
    · exact .presence v
    · exact .regexp hread hfound
    · cases v <;> cases hlength
      · exact .textLength _
      · exact .arrayLength _
      · exact .objectLength _
    · exact .nested h

theorem Meets.isOperator {key : String} {operand v : Value} (h : Meets engine key operand v) :
    isOperator key = true := by
  cases h <;> decide

theorem satisfies_fields_iff {fs : List (String × Value)} {v : Value}
    (plain : ∀ f ∈ fs, Pattern.isOperator f.1 = false) :
    Satisfies engine (.object fs) v
      ↔ ∃ entries, v = .object entries ∧ ∀ f ∈ fs,
        (f.2 = absence → Entries.get? entries f.1 = none)
          ∧ (f.2 ≠ absence → ∃ w, Entries.get? entries f.1 = some w ∧ Satisfies engine f.2 w) := by
  constructor
  · intro h
    cases h with
    | fields _ absent present fits =>
        refine ⟨_, rfl, fun f hf => ⟨absent f hf, fun hne => ?_⟩⟩
        obtain ⟨w, hw⟩ := Option.isSome_iff_exists.mp (present f hf hne)
        exact ⟨w, hw, fits f hf hne w hw⟩
    | operators nonempty all =>
        obtain ⟨f, hf⟩ := List.exists_mem_of_ne_nil _ nonempty
        have hop := (all f hf).isOperator
        rw [plain f hf] at hop
        cases hop
  · rintro ⟨entries, rfl, h⟩
    refine .fields plain (fun f hf => (h f hf).1) (fun f hf hne => ?_) (fun f hf hne v hv => ?_)
    · obtain ⟨w, hw, -⟩ := (h f hf).2 hne
      exact Option.isSome_iff_exists.mpr ⟨w, hw⟩
    · obtain ⟨w, hw, hfits⟩ := (h f hf).2 hne
      rw [hv] at hw
      cases hw
      exact hfits

theorem satisfies_operators_iff {fs : List (String × Value)} {v : Value}
    (h : ∃ f ∈ fs, Pattern.isOperator f.1 = true) :
    Satisfies engine (.object fs) v ↔ ∀ f ∈ fs, Meets engine f.1 f.2 v := by
  obtain ⟨f, hf, hop⟩ := h
  constructor
  · intro h
    cases h with
    | fields plain => rw [plain f hf] at hop; cases hop
    | operators _ all => exact all
  · exact .operators (List.ne_nil_of_mem hf)

theorem meets_regexp_iff {source : String} {found : String → Bool} {v : Value}
    (h : engine.compile source = .ok found) :
    Meets engine "$regexp" (.string source) v ↔ ∃ s, v = .string s ∧ found s = true := by
  simp [meets_iff, h]

theorem meets_length_iff {n : Nat} {v : Value} :
    Meets engine "$len" (.number (.int n)) v ↔ lengthOf? v = some n := by
  simp [meets_iff]

theorem meets_match_iff {p v : Value} : Meets engine "$match" p v ↔ Satisfies engine p v := by
  simp [meets_iff]

end Pattern

end HttpSuite
