import HttpSuite.Proofs.Journal
import HttpSuite.Proofs.Pattern.Satisfies
import HttpSuite.Proofs.Value.Distinct

/-!
# A pattern means what it says

A pattern that has been read accepts exactly the values that satisfy what was written.

Reading and checking go by different trees. The demand that a field be absent is written
inside the field's own pattern and read out of it, so what reading gives for a value is
either a pattern to accept by or the news that the value was `absence`; `Reads` has these two
cases, and the proof is by induction on the value along the functions of the reader. An
object of operators is read from left to right, and a second `$exists` would overrule the
first: this is the one place where it matters that no name comes twice.
-/

namespace HttpSuite

namespace Pattern

/-- What reading makes of a value: the demand for absence, or a pattern for the values that
satisfy it. -/
def Reads (engine : RegexEngine) (written : Value) : Option Pattern → Prop
  | none => written = absence
  | some p => written ≠ absence ∧ ∀ v, p.accepts v = true ↔ Satisfies engine written v

variable {engine : RegexEngine}

theorem demandPresent_ok {path : String} {found : Option Pattern} {p : Pattern}
    (h : demandPresent path found = .ok p) : found = some p := by
  cases found with
  | none => cases h
  | some q => cases h; rfl

theorem forall₂_accepts_iff {items : List Value} {ps : List Pattern}
    (h : List.Forall₂ (fun v p => Reads engine v (some p)) items ps) (vs : List Value) :
    List.Forall₂ (fun p v => p.accepts v = true) ps vs
      ↔ List.Forall₂ (Satisfies engine) items vs := by
  induction h generalizing vs with
  | nil => cases vs <;> simp
  | cons hread _ ih =>
      cases vs with
      | nil => simp
      | cons v vs => rw [List.forall₂_cons, List.forall₂_cons, hread.2 v, ih vs]

/-- The fields of an object, read one by one, ask what the object says. -/
theorem forall_fieldHolds_iff {written : List (String × Value)}
    {fs : List (String × Option Pattern)}
    (h : List.Forall₂ (fun w f => w.1 = f.1 ∧ Reads engine w.2 f.2) written fs)
    (entries : Entries Value) :
    (∀ f ∈ fs, FieldHolds f entries)
      ↔ ∀ w ∈ written, (w.2 = absence → entries.get? w.1 = none)
        ∧ (w.2 ≠ absence → ∃ v, entries.get? w.1 = some v ∧ Satisfies engine w.2 v) := by
  induction h with
  | nil => simp
  | @cons w f written fs hread _ ih =>
      rw [List.forall_mem_cons, List.forall_mem_cons, ih]
      refine and_congr_left' ?_
      obtain ⟨key, _ | p⟩ := f
      · obtain ⟨hkey, habsent : w.2 = absence⟩ := hread
        simp [FieldHolds, hkey, habsent]
      · obtain ⟨hkey, hne, haccepts⟩ := hread
        simp [FieldHolds, hkey, hne, haccepts]

/-- What reading one operator does, and that the rest is read behind it. -/
theorem ofOperators_cons_ok {path key : String} {present present' : Bool} {operand : Value}
    {rest : List (String × Value)} {ps : List Pattern}
    (h : ofOperators engine path present ((key, operand) :: rest) = .ok (present', ps)) :
    (key = "$exists" ∧ ∃ b, operand = .bool b ∧ ofOperators engine path b rest = .ok (present', ps))
      ∨ ∃ p ps', key ≠ "$exists" ∧ ofOperators engine path present rest = .ok (present', ps')
        ∧ ps = p :: ps'
        ∧ ((key = "$regexp" ∧ ∃ source found, operand = .string source
            ∧ engine.compile source = .ok found ∧ p = .regexp source found)
          ∨ (key = "$match" ∧ ofNode engine path operand = .ok (some p))
          ∨ (key = "$len" ∧ ∃ n : Nat, operand = .number (.int n)
            ∧ (n : Int) ≤ Number.maxUnsigned ∧ p = .length n)) := by
  rw [ofOperators.eq_def] at h
  simp only at h
  by_cases hexists : key = "$exists"
  · rw [if_pos (beq_iff_eq.mpr hexists)] at h
    split at h
    · exact Or.inl ⟨hexists, _, rfl, h⟩
    · cases h
  · rw [if_neg (mt beq_iff_eq.mp hexists)] at h
    refine Or.inr ?_
    by_cases hregexp : key = "$regexp"
    · rw [if_pos (beq_iff_eq.mpr hregexp)] at h
      split at h
      · split at h
        · next source _ found hread =>
            obtain ⟨⟨_, ps'⟩, hrest, h⟩ := bind_ok_iff.mp h
            cases h
            exact ⟨_, ps', hexists, hrest, rfl, Or.inl ⟨hregexp, _, _, rfl, hread, rfl⟩⟩
        · cases h
      · cases h
    · rw [if_neg (mt beq_iff_eq.mp hregexp)] at h
      by_cases hmatch : key = "$match"
      · rw [if_pos (beq_iff_eq.mpr hmatch)] at h
        obtain ⟨found, hfound, h⟩ := bind_ok_iff.mp h
        obtain ⟨p, hp, h⟩ := bind_ok_iff.mp h
        obtain ⟨⟨_, ps'⟩, hrest, h⟩ := bind_ok_iff.mp h
        cases h
        rw [demandPresent_ok hp] at hfound
        exact ⟨p, ps', hexists, hrest, rfl, Or.inr (Or.inl ⟨hmatch, hfound⟩)⟩
      · rw [if_neg (mt beq_iff_eq.mp hmatch)] at h
        split at h
        · next hlen =>
            split at h
            · next n =>
                split at h
                · next hn =>
                    obtain ⟨⟨_, ps'⟩, hrest, h⟩ := bind_ok_iff.mp h
                    cases h
                    refine ⟨_, ps', hexists, hrest, rfl, Or.inr (Or.inr ⟨beq_iff_eq.mp hlen, ?_⟩)⟩
                    refine ⟨n.toNat, by rw [Int.toNat_of_nonneg hn.1], ?_, rfl⟩
                    rw [Int.toNat_of_nonneg hn.1]
                    exact hn.2
                · cases h
            · cases h
        · cases h

/-- Whether presence is asked for is what the one `$exists` says, if there is one. -/
theorem ofOperators_present {path : String} {present present' : Bool}
    {es : List (String × Value)} {ps : List Pattern} (hnodup : (Entries.keys es).Nodup)
    (h : ofOperators engine path present es = .ok (present', ps)) :
    (∃ b, ("$exists", .bool b) ∈ es ∧ present' = b)
      ∨ ("$exists" ∉ Entries.keys es ∧ present' = present) := by
  induction es generalizing present ps with
  | nil =>
      cases h
      exact Or.inr ⟨List.not_mem_nil, rfl⟩
  | cons e rest ih =>
      obtain ⟨key, operand⟩ := e
      rw [Entries.keys_cons, List.nodup_cons] at hnodup
      rcases ofOperators_cons_ok h with ⟨rfl, b, rfl, hrest⟩ | ⟨p, ps', hne, hrest, -, -⟩
      · obtain ⟨b', hmem, -⟩ | ⟨-, rfl⟩ := ih hnodup.2 hrest
        · exact absurd (List.mem_map_of_mem (f := Prod.fst) hmem) hnodup.1
        · exact Or.inl ⟨_, List.mem_cons_self, rfl⟩
      · obtain ⟨b, hmem, hb⟩ | ⟨hnot, hb⟩ := ih hnodup.2 hrest
        · exact Or.inl ⟨b, List.mem_cons_of_mem _ hmem, hb⟩
        · refine Or.inr ⟨?_, hb⟩
          rw [Entries.keys_cons, List.mem_cons, not_or]
          exact ⟨Ne.symm hne, hnot⟩

/-- The object of operators `written` is the demand for absence exactly if no presence is
asked for, and then it asks for nothing else. -/
theorem reads_finishOperators {path : String} {written : List (String × Value)}
    {present : Bool} {parts : List Pattern} {found : Option Pattern}
    (hnodup : (Entries.keys written).Nodup) (hop : ∃ f ∈ written, isOperator f.1 = true)
    (hpresent : (∃ b, ("$exists", .bool b) ∈ written ∧ present = b)
      ∨ ("$exists" ∉ Entries.keys written ∧ present = true))
    (hparts : ∀ v, (∀ p ∈ parts, p.accepts v = true)
      ↔ ∀ f ∈ written, f.1 ≠ "$exists" → Meets engine f.1 f.2 v)
    (h : finishOperators path written.length present parts = .ok found) :
    Reads engine (.object written) found := by
  unfold finishOperators at h
  cases present with
  | true =>
      cases h
      -- An operand of `$exists` can only be the one that asked for presence.
      have hexists : ∀ f ∈ written, f.1 = "$exists" → f.2 = .bool true := by
        rintro ⟨_, operand⟩ hf rfl
        rcases hpresent with ⟨_, hmem, rfl⟩ | ⟨hnot, -⟩
        · have hget := Entries.get?_of_mem hnodup hmem
          rw [Entries.get?_of_mem hnodup hf] at hget
          exact Option.some.inj hget
        · exact absurd (List.mem_map_of_mem (f := Prod.fst) hf) hnot
      refine ⟨fun habsent => ?_, fun v => ?_⟩
      · cases habsent
        cases hexists _ List.mem_cons_self rfl
      · rw [accepts_all, hparts v, satisfies_operators_iff hop]
        refine ⟨fun h f hf => ?_, fun h f hf _ => h f hf⟩
        by_cases hkey : f.1 = "$exists"
        · rw [hkey, hexists f hf hkey]
          exact .presence v
        · exact h f hf hkey
  | false =>
      rw [if_neg Bool.false_ne_true] at h
      split at h
      · cases h
      · next hcount =>
          cases h
          obtain ⟨b, hmem, rfl⟩ | ⟨-, hfalse⟩ := hpresent
          · -- The demand for absence stands alone.
            have hlen : written.length = 1 := by
              have hpos := List.length_pos_of_mem hmem
              omega
            obtain ⟨f, rfl⟩ := List.length_eq_one_iff.mp hlen
            rw [← List.mem_singleton.mp hmem]
            rfl
          · cases hfalse

theorem absence_isOperator {written : List (String × Value)} (h : .object written = absence) :
    ∃ f ∈ written, isOperator f.1 = true := by
  cases h
  exact ⟨_, List.mem_cons_self, by decide⟩

mutual

theorem reads_ofNode {path : String} {written : Value} {found : Option Pattern}
    (hd : written.Distinct) (h : ofNode engine path written = .ok found) :
    Reads engine written found := by
  cases written with
  | null =>
      rw [ofNode] at h
      cases h
      exact ⟨nofun, fun v => accepts_null.trans satisfies_null_iff.symm⟩
  | bool b =>
      rw [ofNode] at h
      cases h
      exact ⟨nofun, fun v => accepts_bool.trans satisfies_bool_iff.symm⟩
  | string s =>
      rw [ofNode] at h
      cases h
      exact ⟨nofun, fun v => accepts_string.trans satisfies_string_iff.symm⟩
  | number n =>
      rw [ofNode] at h
      cases h
      exact ⟨nofun, fun v => accepts_number.trans satisfies_number_iff.symm⟩
  | array items =>
      rw [ofNode] at h
      obtain ⟨ps, hps, h⟩ := bind_ok_iff.mp h
      cases h
      have hitems := reads_ofItems (Value.distinct_array.mp hd) hps
      refine ⟨nofun, fun v => ?_⟩
      rw [accepts_elements, satisfies_array_iff]
      simp only [forall₂_accepts_iff hitems]
  | object written =>
      obtain ⟨hnodup, hfields⟩ := Value.distinct_object.mp hd
      rw [ofNode] at h
      simp only at h
      split at h
      · next hzero =>
          obtain ⟨fs, hfs, h⟩ := bind_ok_iff.mp h
          cases h
          have hplain : ∀ f ∈ written, isOperator f.1 = false := by
            intro f hf
            have hnil := List.length_eq_zero_iff.mp (beq_iff_eq.mp hzero)
            exact Bool.eq_false_iff.mpr (List.filter_eq_nil_iff.mp hnil f hf)
          refine ⟨fun habsent => ?_, fun v => ?_⟩
          · obtain ⟨f, hf, hop⟩ := absence_isOperator habsent
            rw [hplain f hf] at hop
            cases hop
          · rw [accepts_fields, satisfies_fields_iff hplain]
            simp only [forall_fieldHolds_iff (reads_ofFields hfields hfs)]
      · next hzero =>
          split at h
          · cases h
          · obtain ⟨⟨present, parts⟩, hparts, h⟩ := bind_ok_iff.mp h
            have hop : ∃ f ∈ written, isOperator f.1 = true := by
              obtain ⟨f, hf⟩ := List.exists_mem_of_length_pos
                (Nat.pos_of_ne_zero (mt beq_iff_eq.mpr hzero))
              exact ⟨f, List.mem_filter.mp hf⟩
            exact reads_finishOperators hnodup hop (ofOperators_present hnodup hparts)
              (reads_ofOperators hfields hparts) h
termination_by sizeOf written

theorem reads_ofItems {path : String} {index : Nat} {items : List Value} {ps : List Pattern}
    (hd : Value.AllDistinct items) (h : ofItems engine path index items = .ok ps) :
    List.Forall₂ (fun v p => Reads engine v (some p)) items ps := by
  cases items with
  | nil =>
      rw [ofItems] at h
      cases h
      exact .nil
  | cons v rest =>
      rw [ofItems] at h
      obtain ⟨found, hfound, h⟩ := bind_ok_iff.mp h
      obtain ⟨p, hp, h⟩ := bind_ok_iff.mp h
      obtain ⟨ps', hrest, h⟩ := bind_ok_iff.mp h
      cases h
      rw [demandPresent_ok hp] at hfound
      exact .cons (reads_ofNode hd.1 hfound) (reads_ofItems hd.2 hrest)
termination_by sizeOf items

theorem reads_ofFields {path : String} {written : List (String × Value)}
    {fs : List (String × Option Pattern)} (hd : Value.FieldsDistinct written)
    (h : ofFields engine path written = .ok fs) :
    List.Forall₂ (fun w f => w.1 = f.1 ∧ Reads engine w.2 f.2) written fs := by
  match written with
  | [] =>
      rw [ofFields] at h
      cases h
      exact .nil
  | (key, v) :: rest =>
      rw [ofFields] at h
      obtain ⟨p, hp, h⟩ := bind_ok_iff.mp h
      obtain ⟨ps', hrest, h⟩ := bind_ok_iff.mp h
      cases h
      exact .cons ⟨rfl, reads_ofNode hd.1 hp⟩ (reads_ofFields hd.2 hrest)
termination_by sizeOf written

theorem reads_ofOperators {path : String} {present present' : Bool}
    {written : List (String × Value)} {parts : List Pattern}
    (hd : Value.FieldsDistinct written)
    (h : ofOperators engine path present written = .ok (present', parts)) (v : Value) :
    (∀ p ∈ parts, p.accepts v = true)
      ↔ ∀ f ∈ written, f.1 ≠ "$exists" → Meets engine f.1 f.2 v := by
  match written with
  | [] =>
      rw [ofOperators] at h
      cases h
      simp
  | (key, operand) :: rest =>
      rw [List.forall_mem_cons]
      rcases ofOperators_cons_ok h with ⟨rfl, b, rfl, hrest⟩ | ⟨p, parts, hne, hrest, rfl, hp⟩
      · rw [reads_ofOperators hd.2 hrest v]
        simp
      · rw [List.forall_mem_cons, reads_ofOperators hd.2 hrest v]
        refine and_congr_left' ?_
        rcases hp with ⟨rfl, source, found, rfl, hread, rfl⟩ | ⟨rfl, hnested⟩
          | ⟨rfl, n, rfl, -, rfl⟩
        · simp [accepts_regexp, meets_regexp_iff hread]
        · have haccepts := (reads_ofNode hd.1 hnested).2 v
          simp [haccepts, meets_match_iff]
        · simp [accepts_length, meets_length_iff]
termination_by sizeOf written

end

theorem reads_ofValue {written : Value} {p : Pattern} (hd : written.Distinct)
    (h : ofValue written engine = .ok p) : Reads engine written (some p) := by
  obtain ⟨found, hfound, h⟩ := bind_ok_iff.mp h
  rw [demandPresent_ok h] at hfound
  exact reads_ofNode hd hfound

/-- A pattern that has been read accepts exactly the values that satisfy what was written. -/
theorem accepts_iff_satisfies {written : Value} {p : Pattern} (hd : written.Distinct)
    (h : ofValue written engine = .ok p) (v : Value) :
    p.accepts v = true ↔ Satisfies engine written v := (reads_ofValue hd h).2 v

/-- A pattern with an integer beyond 53 bits, operators, and a field that is to be absent. -/
def sample : Value :=
  .object [("id", .number (.int 9007199254740993)),
    ("name", .object [("$exists", .bool true), ("$regexp", .string "^a")]),
    ("tags", .object [("$match", .array [.null, .bool true]), ("$len", .number (.int 2))]),
    ("secret", absence)]

/-- A value of that form. -/
def sampleUser (id : Int) : Value :=
  .object [("id", .number (.int id)), ("name", .string "ada"),
    ("tags", .array [.null, .bool true]), ("extra", .null)]

theorem accepts_iff_satisfies_sample :
    sample.Distinct ∧ ∃ p, ofValue sample .builtin = .ok p
      ∧ Satisfies .builtin sample (sampleUser 9007199254740993)
      ∧ ¬ Satisfies .builtin sample (sampleUser 9007199254740992) := by
  have hd : sample.Distinct := by
    simp [sample, absence, Value.Distinct, Value.FieldsDistinct, Value.AllDistinct, Entries.keys]
  have heval : (ofValue sample .builtin).map (fun p => (p.accepts (sampleUser 9007199254740993),
      p.accepts (sampleUser 9007199254740992))) = .ok (true, false) := by
    decide +kernel
  obtain ⟨p, hp, haccepts⟩ := map_ok_iff.mp heval
  rw [Prod.mk.injEq] at haccepts
  refine ⟨hd, p, hp, (accepts_iff_satisfies hd hp _).mp haccepts.1, fun h => ?_⟩
  rw [(accepts_iff_satisfies hd hp _).mpr h] at haccepts
  cases haccepts.2

end Pattern

end HttpSuite
