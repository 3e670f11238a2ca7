import HttpSuite.Proofs.Pattern.Meaning
import HttpSuite.Proofs.Value.Widened

/-!
# Fields that a pattern does not name

A pattern without `$len` sees nothing of a value but what is under the names that it has itself.
So it accepts a value exactly if it accepts the same value with more fields in its objects, none
of them with a name of the pattern, and with the fields in any order.

The induction is on what was written and not on the data: an operator looks again at the same
value, and a field that is to be absent looks at no value at all. That one holds in both
directions because no field is added under its name.
-/

namespace HttpSuite

namespace Pattern

variable {engine : RegexEngine} {fresh : String → Prop}

theorem forall₂_satisfies_widened {ps : List Value}
    (ih : ∀ p ∈ ps, ∀ {v w : Value}, v.Widened fresh w →
      (Satisfies engine p v ↔ Satisfies engine p w))
    {vs ws : List Value} (h : List.Forall₂ (Value.Widened fresh) vs ws) :
    List.Forall₂ (Satisfies engine) ps vs ↔ List.Forall₂ (Satisfies engine) ps ws := by
  induction h generalizing ps with
  | nil => rfl
  | cons hvw _ ih' =>
      cases ps with
      | nil => simp
      | cons p ps =>
          obtain ⟨hp, hps⟩ := List.forall_mem_cons.mp ih
          rw [List.forall₂_cons, List.forall₂_cons, hp hvw, ih' hps]

theorem meets_widened {key : String} (hkey : key ≠ "$len") {operand v w : Value}
    (h : v.Widened fresh w) (ih : Satisfies engine operand v ↔ Satisfies engine operand w) :
    Meets engine key operand v ↔ Meets engine key operand w := by
  rw [meets_iff, meets_iff, ih]
  simp only [hkey, false_and, false_or, h.eq_string_iff]

/-- What satisfies a pattern is not changed by fields that the pattern does not name. -/
theorem satisfies_widened {written : Value} (hlength : ¬ written.HasName "$len")
    (hfresh : ∀ name, written.HasName name → ¬ fresh name) {v w : Value}
    (h : v.Widened fresh w) : Satisfies engine written v ↔ Satisfies engine written w := by
  induction written using Value.inductionOn generalizing v w with
  | null => rw [satisfies_null_iff, satisfies_null_iff, h.eq_null_iff]
  | bool b => rw [satisfies_bool_iff, satisfies_bool_iff, h.eq_bool_iff]
  | string s => rw [satisfies_string_iff, satisfies_string_iff, h.eq_string_iff]
  | number n =>
      rw [satisfies_number_iff, satisfies_number_iff]
      simp only [h.eq_number_iff]
  | array ps ih =>
      rw [satisfies_array_iff, satisfies_array_iff]
      cases h with
      | @array vs ws length items =>
          have hitems := Value.Widened.array_iff.mp (.array length items)
          have hps := forall₂_satisfies_widened (fun p hp v w => ih p hp
            (fun hname => hlength (.item hp hname)) fun name hname => hfresh name (.item hp hname))
            hitems
          simp [hps]
      | _ => simp
  | object fs ih =>
      have ih : ∀ f ∈ fs, ∀ {v w : Value}, v.Widened fresh w →
          (Satisfies engine f.2 v ↔ Satisfies engine f.2 w) := fun f hf v w =>
        ih f hf (fun hname => hlength (.field hf hname))
          fun name hname => hfresh name (.field hf hname)
      by_cases hplain : ∀ f ∈ fs, isOperator f.1 = false
      · rw [satisfies_fields_iff hplain, satisfies_fields_iff hplain]
        cases h with
        | @object gs gs' added names new fields =>
            have h : Value.Widened fresh (.object gs) (.object gs') := .object names new fields
            simp only [Value.object.injEq, exists_eq_left']
            refine forall₂_congr fun f hf => ?_
            rcases h.lookup (hfresh f.1 (.own hf)) with ⟨hv, hw⟩ | ⟨v, w, hv, hw, hvw⟩
            · simp [hv, hw]
            · simp [hv, hw, ih f hf hvw]
        | _ => simp
      · have hop : ∃ f ∈ fs, isOperator f.1 = true := by simpa using hplain
        rw [satisfies_operators_iff hop, satisfies_operators_iff hop]
        refine forall₂_congr fun f hf => meets_widened ?_ h (ih f hf h)
        rintro hkey
        exact hlength (hkey ▸ .own hf)

/-- Whether a pattern without `$len` accepts a value does not hang on fields that the pattern
does not name, nor on the order of fields. -/
theorem accepts_widened {written : Value} {p : Pattern} (hd : written.Distinct)
    (h : ofValue written engine = .ok p) (hlength : ¬ written.HasName "$len") {v w : Value}
    (hvw : v.Widened (fun name => ¬ written.HasName name) w) :
    p.accepts v = true ↔ p.accepts w = true := by
  have hreads := (reads_ofValue hd h).2
  rw [hreads v, hreads w]
  exact satisfies_widened hlength (fun _ hname => not_not_intro hname) hvw

/-- A user whose name begins with an `a` and who has no `secret`. -/
def namedUser : Value :=
  .object [("user", .object [("name", .object [("$regexp", .string "^a")]), ("secret", absence)])]

theorem hasName_namedUser_iff {name : String} :
    namedUser.HasName name
      ↔ name = "user" ∨ name = "name" ∨ name = "$regexp" ∨ name = "secret" ∨ name = "$exists" := by
  simp [namedUser, absence, Value.hasName_object_iff, eq_comm, or_assoc]

/-- One more field in front of the only one. -/
theorem widened_pair {key other : String} (hother : fresh other) (hne : key ≠ other)
    {v w : Value} (h : v.Widened fresh w) (x : Value) :
    Value.Widened fresh (.object [(key, v)]) (.object [(other, x), (key, w)]) := by
  have hnames : (Entries.keys [(other, x), (key, w)]).Perm (Entries.keys [(key, v)] ++ [other]) :=
    .swap _ _ []
  refine .object hnames (by simpa using hother) fun name v' w' hv hw => ?_
  cases List.mem_singleton.mp hv
  rcases List.mem_pair.mp hw with heq | heq
  · exact absurd (Prod.mk.inj heq).1 hne
  · cases heq
    exact h

theorem accepts_widened_namedUser :
    ∃ p, ofValue namedUser .builtin = .ok p
      ∧ (p.accepts (.object [("user", .object [("name", .string "ada")])]) = true
        ↔ p.accepts (.object [("id", .null),
            ("user", .object [("role", .null), ("name", .string "ada")])]) = true)
      ∧ p.accepts (.object [("user", .object [("name", .string "ada")])]) = true
      ∧ p.accepts (.object [("user", .object [("name", .string "ada"), ("secret", .null)])])
        = false := by
  have hd : namedUser.Distinct := by
    simp [namedUser, absence, Value.Distinct, Value.FieldsDistinct, Entries.keys]
  have hlength : ¬ namedUser.HasName "$len" := by simp [hasName_namedUser_iff]
  have hid : ¬ namedUser.HasName "id" := by simp [hasName_namedUser_iff]
  have hrole : ¬ namedUser.HasName "role" := by simp [hasName_namedUser_iff]
  have hwidened : Value.Widened (fun name => ¬ namedUser.HasName name)
      (.object [("user", .object [("name", .string "ada")])])
      (.object [("id", .null), ("user", .object [("role", .null), ("name", .string "ada")])]) :=
    widened_pair hid (by decide) (widened_pair hrole (by decide) (.string "ada") .null) .null
  have heval : (ofValue namedUser .builtin).map (fun p =>
      (p.accepts (.object [("user", .object [("name", .string "ada")])]),
        p.accepts (.object [("user", .object [("name", .string "ada"), ("secret", .null)])])))
      = .ok (true, false) := by
    decide +kernel
  obtain ⟨p, hp, haccepts⟩ := map_ok_iff.mp heval
  obtain ⟨hada, hsecret⟩ := Prod.mk.inj haccepts
  exact ⟨p, hp, accepts_widened hd hp hlength hwidened, hada, hsecret⟩

end Pattern

end HttpSuite
