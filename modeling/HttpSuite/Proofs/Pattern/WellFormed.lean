import HttpSuite.Proofs.Pattern.Meaning
import HttpSuite.Proofs.Value.Widened

/-!
# Which values are patterns

A value is read as a pattern if and only if every object among the patterns inside it is as it
should be: it has operators or fields but not both, no operators but the four, operands of the
right kinds, and absence is demanded alone and of nothing but a field.

`Inside` says which values are patterns inside a pattern and in which role, from the outside in
as the reader goes. `Fits` takes every object that is met on the way, so it splits along arrays,
fields and `$match`, and the proof that reading succeeds is by induction on the value with one
lemma for each list that the reader walks. None of this speaks of the order of fields.
-/

namespace HttpSuite

namespace Pattern

/-- Where a pattern stands: it is the whole of it, an item of an array, the value of a field of
a plain object, or what `$match` asks for. -/
inductive Role where
  | whole
  | item
  | field
  | target

/-- Among the patterns that a value in a role is made of there is another, in its role. -/
inductive Inside : Role → Value → Role → Value → Prop
  | here (role : Role) (v : Value) : Inside role v role v
  | item {role role' : Role} {items : List Value} {v w : Value} (mem : v ∈ items)
      (inner : Inside .item v role' w) : Inside role (.array items) role' w
  | field {role role' : Role} {fs : List (String × Value)} {f : String × Value} {w : Value}
      (mem : f ∈ fs) (plain : isOperator f.1 = false) (inner : Inside .field f.2 role' w) :
      Inside role (.object fs) role' w
  | target {role role' : Role} {fs : List (String × Value)} {f : String × Value} {w : Value}
      (mem : f ∈ fs) (key : f.1 = "$match") (inner : Inside .target f.2 role' w) :
      Inside role (.object fs) role' w

/-- The fields of an object can be those of a pattern in a role. -/
structure Allowed (engine : RegexEngine) (role : Role) (fs : List (String × Value)) : Prop where
  /-- There are operators or there are fields. -/
  unmixed : (∀ f ∈ fs, isOperator f.1 = false) ∨ ∀ f ∈ fs, isOperator f.1 = true
  /-- There are four operators. -/
  known : ∀ f ∈ fs, isOperator f.1 = true → f.1 ∈ ["$exists", "$regexp", "$match", "$len"]
  /-- Presence is asked for by a truth value. -/
  presence : ∀ f ∈ fs, f.1 = "$exists" → ∃ b, f.2 = .bool b
  /-- An expression is a text that can be read. -/
  regexp : ∀ f ∈ fs, f.1 = "$regexp" →
    ∃ source, f.2 = .string source ∧ ∃ found, engine.compile source = .ok found
  /-- A length is an integer of 64 bits without a sign. -/
  length : ∀ f ∈ fs, f.1 = "$len" →
    ∃ n : Int, f.2 = .number (.int n) ∧ 0 ≤ n ∧ n ≤ Number.maxUnsigned
  /-- Absence is asked for alone, and of fields. -/
  absence : ∀ f ∈ fs, f.1 = "$exists" ∧ f.2 = .bool false → fs.length = 1 ∧ role = .field

/-- Every object among the patterns inside a value in a role is allowed. -/
def Fits (engine : RegexEngine) (role : Role) (v : Value) : Prop :=
  ∀ role' fs, Inside role v role' (.object fs) → Allowed engine role' fs

/-- The value is a pattern. -/
def WellFormed (engine : RegexEngine) (written : Value) : Prop := Fits engine .whole written

variable {engine : RegexEngine}

theorem fits_null (role : Role) : Fits engine role .null := fun _ _ h => nomatch h

theorem fits_bool (role : Role) (b : Bool) : Fits engine role (.bool b) := fun _ _ h => nomatch h

theorem fits_number (role : Role) (n : Number) : Fits engine role (.number n) :=
  fun _ _ h => nomatch h

theorem fits_string (role : Role) (s : String) : Fits engine role (.string s) :=
  fun _ _ h => nomatch h

theorem fits_array {role : Role} {items : List Value} :
    Fits engine role (.array items) ↔ ∀ v ∈ items, Fits engine .item v := by
  constructor
  · intro h v hv role' fs hinside
    exact h role' fs (.item hv hinside)
  · intro h role' fs hinside
    cases hinside with
    | item mem inner => exact h _ mem role' fs inner

theorem fits_object {role : Role} {fs : List (String × Value)} :
    Fits engine role (.object fs)
      ↔ Allowed engine role fs ∧ (∀ f ∈ fs, isOperator f.1 = false → Fits engine .field f.2)
        ∧ ∀ f ∈ fs, f.1 = "$match" → Fits engine .target f.2 := by
  constructor
  · intro h
    refine ⟨h _ _ (.here role _), fun f hf hplain role' gs hinside => ?_,
      fun f hf hkey role' gs hinside => ?_⟩
    · exact h role' gs (.field hf hplain hinside)
    · exact h role' gs (.target hf hkey hinside)
  · rintro ⟨hallowed, hfields, htargets⟩ role' gs hinside
    cases hinside with
    | here => exact hallowed
    | field mem plain inner => exact hfields _ mem plain role' gs inner
    | target mem key inner => exact htargets _ mem key role' gs inner

/-! ## Reading succeeds -/

/-- Where absence cannot be demanded, reading has to end in a pattern. -/
theorem exists_found_iff {role : Role} (hrole : role ≠ .field)
    {x : Except PatternError (Option Pattern)} :
    (∃ found, x = .ok found ∧ (found = none → role = .field)) ↔ ∃ p, x = .ok (some p) := by
  constructor
  · rintro ⟨found, hx, hfound⟩
    cases found with
    | none => exact absurd (hfound rfl) hrole
    | some p => exact ⟨p, hx⟩
  · rintro ⟨p, hx⟩
    exact ⟨some p, hx, nofun⟩

theorem exists_ofItems_iff {items : List Value}
    (ih : ∀ v ∈ items, ∀ path, (∃ p, ofNode engine path v = .ok (some p)) ↔ Fits engine .item v)
    {path : String} {index : Nat} :
    (∃ ps, ofItems engine path index items = .ok ps) ↔ ∀ v ∈ items, Fits engine .item v := by
  induction items generalizing index with
  | nil =>
      rw [ofItems]
      simp
  | cons v rest ih' =>
      obtain ⟨hv, hrest⟩ := List.forall_mem_cons.mp ih
      rw [List.forall_mem_cons, ← hv s!"{path}[{index}]", ← ih' hrest, ofItems]
      constructor
      · rintro ⟨ps, h⟩
        obtain ⟨found, hfound, h⟩ := bind_ok_iff.mp h
        obtain ⟨p, hp, h⟩ := bind_ok_iff.mp h
        obtain ⟨ps', hps, -⟩ := bind_ok_iff.mp h
        rw [demandPresent_ok hp] at hfound
        exact ⟨⟨p, hfound⟩, ps', hps⟩
      · rintro ⟨⟨p, hp⟩, ps, hps⟩
        rw [hp, hps]
        exact ⟨p :: ps, rfl⟩

theorem exists_ofFields_iff {fs : List (String × Value)}
    (ih : ∀ f ∈ fs, ∀ path, (∃ found, ofNode engine path f.2 = .ok found) ↔ Fits engine .field f.2)
    {path : String} :
    (∃ ps, ofFields engine path fs = .ok ps) ↔ ∀ f ∈ fs, Fits engine .field f.2 := by
  induction fs with
  | nil =>
      rw [ofFields]
      simp
  | cons f rest ih' =>
      obtain ⟨key, v⟩ := f
      obtain ⟨hv, hrest⟩ := List.forall_mem_cons.mp ih
      rw [List.forall_mem_cons, ← hv s!"{path}.{key}", ← ih' hrest, ofFields]
      constructor
      · rintro ⟨ps, h⟩
        obtain ⟨found, hfound, h⟩ := bind_ok_iff.mp h
        obtain ⟨ps', hps, -⟩ := bind_ok_iff.mp h
        exact ⟨⟨found, hfound⟩, ps', hps⟩
      · rintro ⟨⟨found, hfound⟩, ps, hps⟩
        dsimp only at hfound
        rw [hfound, hps]
        exact ⟨(key, found) :: ps, rfl⟩

/-- A field of an object of operators can be read. -/
def OperandFits (engine : RegexEngine) (f : String × Value) : Prop :=
  (f.1 = "$exists" ∧ ∃ b, f.2 = .bool b)
    ∨ (f.1 = "$regexp"
      ∧ ∃ source, f.2 = .string source ∧ ∃ found, engine.compile source = .ok found)
    ∨ (f.1 = "$match" ∧ Fits engine .target f.2)
    ∨ (f.1 = "$len" ∧ ∃ n : Int, f.2 = .number (.int n) ∧ 0 ≤ n ∧ n ≤ Number.maxUnsigned)

theorem exists_ofOperators_iff {fs : List (String × Value)}
    (ih : ∀ f ∈ fs, ∀ path, (∃ p, ofNode engine path f.2 = .ok (some p)) ↔ Fits engine .target f.2)
    {path : String} {present : Bool} :
    (∃ r, ofOperators engine path present fs = .ok r) ↔ ∀ f ∈ fs, OperandFits engine f := by
  induction fs generalizing present with
  | nil =>
      rw [ofOperators]
      simp
  | cons f rest ih' =>
      obtain ⟨key, v⟩ := f
      obtain ⟨hv, hrest⟩ := List.forall_mem_cons.mp ih
      rw [List.forall_mem_cons]
      constructor
      · rintro ⟨⟨present', ps⟩, h⟩
        rcases ofOperators_cons_ok h with ⟨rfl, b, rfl, hr⟩ | ⟨p, ps', -, hr, -, hp⟩
        · exact ⟨Or.inl ⟨rfl, b, rfl⟩, (ih' hrest).mp ⟨_, hr⟩⟩
        · refine ⟨?_, (ih' hrest).mp ⟨_, hr⟩⟩
          rcases hp with ⟨rfl, source, found, rfl, hread, -⟩ | ⟨rfl, hnested⟩ | ⟨rfl, n, rfl, hn, -⟩
          · exact Or.inr (Or.inl ⟨rfl, source, rfl, found, hread⟩)
          · exact Or.inr (Or.inr (Or.inl ⟨rfl, (hv path).mp ⟨p, hnested⟩⟩))
          · exact Or.inr (Or.inr (Or.inr ⟨rfl, n, rfl, Int.natCast_nonneg n, hn⟩))
      · rintro ⟨hoperand, hfits⟩
        have hread (present : Bool) : ∃ r, ofOperators engine path present rest = .ok r :=
          (ih' hrest).mpr hfits
        rcases hoperand with ⟨rfl, b, rfl⟩ | ⟨rfl, source, rfl, found, hregex⟩ | ⟨rfl, htarget⟩
          | ⟨rfl, n, rfl, hn⟩
        · obtain ⟨r, hr⟩ := hread b
          exact ⟨r, by simp [ofOperators, hr]⟩
        · obtain ⟨r, hr⟩ := hread present
          refine ⟨(r.1, regexp source found :: r.2), ?_⟩
          simp only [ofOperators, hregex, hr]
          rfl
        · obtain ⟨r, hr⟩ := hread present
          obtain ⟨p, hp⟩ := (hv path).mpr htarget
          refine ⟨(r.1, p :: r.2), ?_⟩
          simp only [ofOperators, hp, hr]
          rfl
        · obtain ⟨r, hr⟩ := hread present
          refine ⟨(r.1, length n.toNat :: r.2), ?_⟩
          simp only [ofOperators, if_pos hn, hr]
          rfl

/-- Plain fields are always allowed. -/
theorem Allowed.of_plain {role : Role} {fs : List (String × Value)}
    (hplain : ∀ f ∈ fs, isOperator f.1 = false) : Allowed engine role fs := by
  have hnot {key : String} (hkey : isOperator key = true) (f) (hf : f ∈ fs) : f.1 ≠ key := by
    rintro rfl
    rw [hplain f hf] at hkey
    cases hkey
  constructor
  · exact Or.inl hplain
  · intro f hf hop
    exact absurd rfl (hnot hop f hf)
  · intro f hf hkey
    exact absurd hkey (hnot (by decide) f hf)
  · intro f hf hkey
    exact absurd hkey (hnot (by decide) f hf)
  · intro f hf hkey
    exact absurd hkey (hnot (by decide) f hf)
  · rintro f hf ⟨hkey, -⟩
    exact absurd hkey (hnot (by decide) f hf)

theorem fits_plain {role : Role} {fs : List (String × Value)}
    (hplain : ∀ f ∈ fs, isOperator f.1 = false) :
    Fits engine role (.object fs) ↔ ∀ f ∈ fs, Fits engine .field f.2 := by
  rw [fits_object]
  constructor
  · rintro ⟨-, hfields, -⟩ f hf
    exact hfields f hf (hplain f hf)
  · intro h
    refine ⟨.of_plain hplain, fun f hf _ => h f hf, fun f hf hkey => ?_⟩
    have hop := hplain f hf
    rw [hkey] at hop
    cases hop

/-- Operators are allowed if all operands are, and absence is demanded alone. -/
theorem fits_operators {role : Role} {fs : List (String × Value)}
    (hop : ∀ f ∈ fs, isOperator f.1 = true) :
    Fits engine role (.object fs)
      ↔ (∀ f ∈ fs, OperandFits engine f)
        ∧ (("$exists", .bool false) ∈ fs → fs.length = 1 ∧ role = .field) := by
  rw [fits_object]
  constructor
  · rintro ⟨hallowed, -, htargets⟩
    refine ⟨fun f hf => ?_, fun hmem => hallowed.absence _ hmem ⟨rfl, rfl⟩⟩
    have hknown := hallowed.known f hf (hop f hf)
    simp only [List.mem_cons, List.not_mem_nil, or_false] at hknown
    rcases hknown with hkey | hkey | hkey | hkey
    · exact Or.inl ⟨hkey, hallowed.presence f hf hkey⟩
    · exact Or.inr (Or.inl ⟨hkey, hallowed.regexp f hf hkey⟩)
    · exact Or.inr (Or.inr (Or.inl ⟨hkey, htargets f hf hkey⟩))
    · exact Or.inr (Or.inr (Or.inr ⟨hkey, hallowed.length f hf hkey⟩))
  · rintro ⟨hoperands, habsence⟩
    have hkeys {f} (hf : f ∈ fs) {key : String} (hkey : f.1 = key) :
        OperandFits engine (key, f.2) := hkey ▸ hoperands f hf
    refine ⟨⟨Or.inr hop, fun f hf _ => ?_, fun f hf hkey => ?_, fun f hf hkey => ?_,
      fun f hf hkey => ?_, ?_⟩, fun f hf hplain => ?_, fun f hf hkey => ?_⟩
    · rcases hoperands f hf with ⟨hkey, -⟩ | ⟨hkey, -⟩ | ⟨hkey, -⟩ | ⟨hkey, -⟩ <;> simp [hkey]
    · simpa [OperandFits] using hkeys hf hkey
    · simpa [OperandFits] using hkeys hf hkey
    · simpa [OperandFits] using hkeys hf hkey
    · rintro ⟨key, v⟩ hf ⟨rfl, rfl⟩
      exact habsence hf
    · rw [hop f hf] at hplain
      cases hplain
    · simpa [OperandFits] using hkeys hf hkey

/-- What is read of an object of operators is a pattern or, with the role of a field, the demand
for absence, exactly if absence is demanded as it may be. -/
theorem exists_finishOperators_iff {role : Role} {path : String} {fs : List (String × Value)}
    {present : Bool} {parts : List Pattern} (hnodup : (Entries.keys fs).Nodup)
    (h : ofOperators engine path true fs = .ok (present, parts)) :
    (∃ found, finishOperators path fs.length present parts = .ok found
        ∧ (found = none → role = .field))
      ↔ (("$exists", .bool false) ∈ fs → fs.length = 1 ∧ role = .field) := by
  unfold finishOperators
  rcases ofOperators_present hnodup h with ⟨b, hmem, rfl⟩ | ⟨hnot, rfl⟩
  · cases present with
    | true =>
        have hnot : ("$exists", Value.bool false) ∉ fs := by
          intro hfalse
          have hget := Entries.get?_of_mem hnodup hmem
          rw [Entries.get?_of_mem hnodup hfalse] at hget
          cases hget
        simp [hnot]
    | false =>
        have hpos := List.length_pos_of_mem hmem
        by_cases hone : fs.length > 1
        · simp [hone, hmem]
          omega
        · have hlen : fs.length = 1 := by omega
          simp [hmem, hlen]
  · have hnot : ("$exists", Value.bool false) ∉ fs := fun hmem =>
      hnot (List.mem_map_of_mem (f := Prod.fst) hmem)
    simp [hnot]

theorem ofNode_plain {path : String} {fs : List (String × Value)}
    (hplain : ∀ f ∈ fs, isOperator f.1 = false) :
    ofNode engine path (.object fs) = (ofFields engine path fs).map fun ps => some (fields ps) := by
  have hfilter : (fs.filter fun f => isOperator f.1) = [] :=
    List.filter_eq_nil_iff.mpr fun f hf => by simp [hplain f hf]
  rw [ofNode, hfilter]
  rfl

theorem ofNode_operators {path : String} {fs : List (String × Value)} (hne : fs ≠ [])
    (hop : ∀ f ∈ fs, isOperator f.1 = true) :
    ofNode engine path (.object fs) = (do
      let r ← ofOperators engine path true fs
      finishOperators path fs.length r.1 r.2) := by
  have hfilter : (fs.filter fun f => isOperator f.1) = fs := List.filter_eq_self.mpr hop
  have hlen : fs.length ≠ 0 := mt List.length_eq_zero_iff.mp hne
  rw [ofNode, hfilter]
  simp [hlen]

theorem ofNode_mixed {path : String} {fs : List (String × Value)}
    (hplain : ¬ ∀ f ∈ fs, isOperator f.1 = false) (hop : ¬ ∀ f ∈ fs, isOperator f.1 = true) :
    ofNode engine path (.object fs) = .error (.mixedKeys path) := by
  have hsome : (fs.filter fun f => isOperator f.1).length ≠ 0 := by
    rw [Ne, List.length_eq_zero_iff, List.filter_eq_nil_iff]
    simpa using hplain
  have hnotAll : (fs.filter fun f => isOperator f.1).length ≠ fs.length := by
    rw [Ne, List.length_filter_eq_length_iff]
    exact hop
  rw [ofNode]
  simp [hsome, hnotAll]

/-- A value in a role is read if and only if it fits. -/
theorem exists_ofNode_iff {role : Role} {v : Value} (hd : v.Distinct) (path : String) :
    (∃ found, ofNode engine path v = .ok found ∧ (found = none → role = .field))
      ↔ Fits engine role v := by
  induction v using Value.inductionOn generalizing role path with
  | null => exact iff_of_true ⟨some null, by rw [ofNode], nofun⟩ (fits_null role)
  | bool b => exact iff_of_true ⟨some (bool b), by rw [ofNode], nofun⟩ (fits_bool role b)
  | number n => exact iff_of_true ⟨some (number n), by rw [ofNode], nofun⟩ (fits_number role n)
  | string s => exact iff_of_true ⟨some (string s), by rw [ofNode], nofun⟩ (fits_string role s)
  | array items ih =>
      have hd := Value.allDistinct_iff.mp (Value.distinct_array.mp hd)
      have hitems : ∀ v ∈ items, ∀ path,
          (∃ p, ofNode engine path v = .ok (some p)) ↔ Fits engine .item v := by
        intro v hv path
        have hrole : Role.item ≠ .field := nofun
        rw [← ih v hv (hd v hv) path, exists_found_iff hrole]
      rw [fits_array, ofNode]
      constructor
      · rintro ⟨found, h, -⟩
        obtain ⟨ps, hps, -⟩ := bind_ok_iff.mp h
        exact (exists_ofItems_iff hitems).mp ⟨ps, hps⟩
      · intro h
        obtain ⟨ps, hps⟩ := (exists_ofItems_iff hitems).mpr h
        exact ⟨some (elements ps), bind_ok_iff.mpr ⟨ps, hps, rfl⟩, nofun⟩
  | object fs ih =>
      obtain ⟨hnodup, hd⟩ := Value.distinct_object.mp hd
      have hd := Value.fieldsDistinct_iff.mp hd
      -- an object has only fields, only operators, or is refused as a mixture
      by_cases hplain : ∀ f ∈ fs, isOperator f.1 = false
      · have hfields : ∀ f ∈ fs, ∀ path, (∃ found, ofNode engine path f.2 = .ok found)
            ↔ Fits engine .field f.2 := by
          intro f hf path
          rw [← ih f hf (hd f hf) path]
          simp
        rw [ofNode_plain hplain, fits_plain hplain]
        constructor
        · rintro ⟨found, h, -⟩
          obtain ⟨ps, hps, -⟩ := map_ok_iff.mp h
          exact (exists_ofFields_iff hfields).mp ⟨ps, hps⟩
        · intro h
          obtain ⟨ps, hps⟩ := (exists_ofFields_iff hfields).mpr h
          exact ⟨some (fields ps), map_ok_iff.mpr ⟨ps, hps, rfl⟩, nofun⟩
      · by_cases hop : ∀ f ∈ fs, isOperator f.1 = true
        · have hne : fs ≠ [] := by
            rintro rfl
            exact hplain nofun
          have htargets : ∀ f ∈ fs, ∀ path, (∃ p, ofNode engine path f.2 = .ok (some p))
              ↔ Fits engine .target f.2 := by
            intro f hf path
            have hrole : Role.target ≠ .field := nofun
            rw [← ih f hf (hd f hf) path, exists_found_iff hrole]
          rw [ofNode_operators hne hop, fits_operators hop]
          constructor
          · rintro ⟨found, h, hfound⟩
            obtain ⟨⟨present, parts⟩, hr, hfinish⟩ := bind_ok_iff.mp h
            refine ⟨(exists_ofOperators_iff htargets).mp ⟨_, hr⟩, ?_⟩
            exact (exists_finishOperators_iff hnodup hr).mp ⟨found, hfinish, hfound⟩
          · rintro ⟨hoperands, habsence⟩
            obtain ⟨⟨present, parts⟩, hr⟩ := (exists_ofOperators_iff htargets).mpr hoperands
            obtain ⟨found, hfinish, hfound⟩ :=
              (exists_finishOperators_iff hnodup hr).mpr habsence
            exact ⟨found, bind_ok_iff.mpr ⟨_, hr, hfinish⟩, hfound⟩
        · rw [ofNode_mixed hplain hop]
          refine iff_of_false ?_ fun hfits => ?_
          · rintro ⟨found, h, -⟩
            cases h
          · exact (fits_object.mp hfits).1.unmixed.elim hplain hop

/-! ## The order of fields -/

theorem Allowed.reordered {role : Role} {fs gs : List (String × Value)}
    (hr : Value.Reordered (.object fs) (.object gs)) (h : Allowed engine role fs) :
    Allowed engine role gs := by
  constructor
  · refine h.unmixed.imp (fun hall g hg => ?_) fun hall g hg => ?_
    all_goals
      obtain ⟨v, hv, -⟩ := hr.exists_of_mem hg
      exact hall (g.1, v) hv
  · intro g hg
    obtain ⟨v, hv, -⟩ := hr.exists_of_mem hg
    exact h.known (g.1, v) hv
  · intro g hg hkey
    obtain ⟨v, hv, hvg⟩ := hr.exists_of_mem hg
    obtain ⟨b, hb⟩ := h.presence _ hv hkey
    exact ⟨b, hvg.eq_bool_iff.mp hb⟩
  · intro g hg hkey
    obtain ⟨v, hv, hvg⟩ := hr.exists_of_mem hg
    obtain ⟨source, hsource, hread⟩ := h.regexp _ hv hkey
    exact ⟨source, hvg.eq_string_iff.mp hsource, hread⟩
  · intro g hg hkey
    obtain ⟨v, hv, hvg⟩ := hr.exists_of_mem hg
    obtain ⟨n, hn, hbounds⟩ := h.length _ hv hkey
    exact ⟨n, hvg.eq_number_iff.mp hn, hbounds⟩
  · rintro g hg ⟨hkey, hfalse⟩
    obtain ⟨v, hv, hvg⟩ := hr.exists_of_mem hg
    have hlen : gs.length = fs.length := by simpa [Entries.keys] using hr.keys_perm.length_eq
    rw [hlen]
    exact h.absence _ hv ⟨hkey, hvg.eq_bool_iff.mpr hfalse⟩

theorem Fits.reordered {role : Role} {v w : Value} (hr : v.Reordered w) (h : Fits engine role v) :
    Fits engine role w := by
  induction hr generalizing role with
  | null | bool | number | string => exact h
  | @array vs ws length items ih =>
      rw [fits_array] at h ⊢
      intro w hw
      obtain ⟨i, hi, rfl⟩ := List.getElem_of_mem hw
      rw [← length] at hi
      exact ih i _ _ (List.getElem?_eq_getElem hi) (List.getElem?_eq_getElem _)
        (h _ (List.getElem_mem hi))
  | @object fs gs added names new fields ih =>
      have hr : Value.Reordered (.object fs) (.object gs) := .object names new fields
      rw [fits_object] at h ⊢
      obtain ⟨hallowed, hfields, htargets⟩ := h
      refine ⟨hallowed.reordered hr, fun g hg hplain => ?_, fun g hg hkey => ?_⟩
      · obtain ⟨v, hv, -⟩ := hr.exists_of_mem hg
        exact ih _ _ _ hv hg (hfields _ hv hplain)
      · obtain ⟨v, hv, -⟩ := hr.exists_of_mem hg
        exact ih _ _ _ hv hg (htargets _ hv hkey)

/-! ## Accepted patterns -/

theorem exists_ofValue {written : Value} (hd : written.Distinct) :
    (∃ p, ofValue written engine = .ok p) ↔ WellFormed engine written := by
  have hrole : Role.whole ≠ .field := nofun
  rw [WellFormed, ← exists_ofNode_iff hd "$", exists_found_iff hrole]
  constructor
  · rintro ⟨p, h⟩
    obtain ⟨found, hfound, h⟩ := bind_ok_iff.mp h
    rw [demandPresent_ok h] at hfound
    exact ⟨p, hfound⟩
  · rintro ⟨p, h⟩
    exact ⟨p, bind_ok_iff.mpr ⟨some p, h, rfl⟩⟩

/-- A value is read as a pattern if and only if it is well formed, and the order of fields in its
objects does not matter for that. -/
theorem exists_ofValue_iff {written : Value} (hd : written.Distinct) :
    ((∃ p, ofValue written engine = .ok p) ↔ WellFormed engine written)
      ∧ ∀ other, written.Reordered other →
        ((∃ p, ofValue other engine = .ok p) ↔ ∃ p, ofValue written engine = .ok p) := by
  refine ⟨exists_ofValue hd, fun other hr => ?_⟩
  rw [exists_ofValue hd, exists_ofValue (hr.distinct hd)]
  exact ⟨Fits.reordered hr.symm, Fits.reordered hr⟩

/-- All operators in a pattern are well formed, but absence cannot be demanded of an item. -/
theorem exists_ofValue_iff_sample :
    sample.Distinct ∧ WellFormed .builtin sample
      ∧ (Value.array [absence]).Distinct ∧ ¬ WellFormed .builtin (.array [absence]) := by
  have hd : sample.Distinct := by
    simp [sample, absence, Value.Distinct, Value.FieldsDistinct, Value.AllDistinct, Entries.keys]
  have hd' : (Value.array [absence]).Distinct := by
    simp [absence, Value.Distinct, Value.FieldsDistinct, Value.AllDistinct, Entries.keys]
  have hread : (ofValue sample .builtin).isOk = true := by decide +kernel
  have hrefused : (ofValue (.array [absence]) .builtin).isOk = false := by decide +kernel
  refine ⟨hd, (exists_ofValue_iff hd).1.mp ?_, hd', fun hwell => ?_⟩
  · cases hp : ofValue sample .builtin with
    | ok p => exact ⟨p, rfl⟩
    | error e => rw [hp] at hread; cases hread
  · obtain ⟨p, hp⟩ := (exists_ofValue_iff hd').1.mpr hwell
    rw [hp] at hrefused
    cases hrefused

end Pattern

end HttpSuite
