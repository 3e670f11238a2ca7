import HttpSuite.Proofs.OrderedMap
import HttpSuite.Value.Path
import HttpSuite.Value.Reader

/-!
# Values that are read bind no name twice

An object inside a value is a bare list of entries, so nothing in its type keeps a name
from coming twice. What keeps it is the reader: it puts the fields of every object together
by `ofPairs`. The proof follows the recursion of the reader, which is on the length of the
text that is left. What a path leads to inside such a value is such a value again.
-/

namespace HttpSuite

namespace Value

theorem distinct_null : Distinct null := trivial

theorem distinct_bool (b : Bool) : Distinct (.bool b) := trivial

theorem distinct_number (n : Number) : Distinct (.number n) := trivial

theorem distinct_string (s : String) : Distinct (.string s) := trivial

theorem distinct_ofNat (n : Nat) : Distinct (ofNat n) := distinct_number _

theorem distinct_array {items : List Value} : Distinct (.array items) ↔ AllDistinct items :=
  Iff.rfl

theorem distinct_object {fields : List (String × Value)} :
    Distinct (.object fields) ↔ (Entries.keys fields).Nodup ∧ FieldsDistinct fields :=
  Iff.rfl

theorem allDistinct_iff {items : List Value} :
    AllDistinct items ↔ ∀ v ∈ items, v.Distinct := by
  induction items with
  | nil => exact iff_of_true trivial nofun
  | cons v items ih =>
      rw [List.forall_mem_cons]
      exact and_congr_right' ih

theorem fieldsDistinct_iff {fields : List (String × Value)} :
    FieldsDistinct fields ↔ ∀ e ∈ fields, e.2.Distinct := by
  induction fields with
  | nil => exact iff_of_true trivial nofun
  | cons e fields ih =>
      rw [List.forall_mem_cons]
      exact and_congr_right' ih

theorem FieldsDistinct.insert {fields : Entries Value} (h : FieldsDistinct fields)
    (name : String) {v : Value} (hv : v.Distinct) :
    FieldsDistinct (Entries.insert fields name v) := by
  induction fields with
  | nil => exact ⟨hv, h⟩
  | cons e fields ih =>
      obtain ⟨hfirst, hrest⟩ := h
      rw [Entries.insert]
      split
      · exact ⟨hv, hrest⟩
      · exact ⟨hfirst, ih hrest⟩

theorem FieldsDistinct.extend {fields new : Entries Value} (h : FieldsDistinct fields)
    (hnew : FieldsDistinct new) : FieldsDistinct (Entries.extend fields new) := by
  induction new generalizing fields with
  | nil => exact h
  | cons e new ih =>
      obtain ⟨hfirst, hrest⟩ := hnew
      rw [Entries.extend_cons]
      exact ih (h.insert e.1 hfirst) hrest

/-- The fields of an object that is put together pair by pair. -/
theorem distinct_ofPairs {pairs : List (String × Value)} (h : FieldsDistinct pairs) :
    Distinct (.object (Entries.ofPairs pairs)) :=
  distinct_object.mpr ⟨Entries.nodup_keys_ofPairs pairs, FieldsDistinct.extend trivial h⟩

theorem distinct_of_get? {fields : Entries Value} (h : FieldsDistinct fields) {name : String}
    {v : Value} (hv : Entries.get? fields name = some v) : v.Distinct :=
  fieldsDistinct_iff.mp h _ (Entries.mem_of_get? hv)

/-- What a path leads to inside a value without repeated names has none either. -/
theorem Distinct.select {v w : Value} {path : Path} (hv : v.Distinct)
    (h : v.select path = .ok w) : w.Distinct := by
  induction path generalizing v with
  | nil =>
      rw [Value.select] at h
      cases h
      exact hv
  | cons segment rest ih =>
      rw [Value.select.eq_def] at h
      simp only at h
      split at h
      · split at h
        · exact ih (distinct_ofNat _) h
        · cases h
      · split at h
        · split at h
          · next hfield => exact ih (distinct_of_get? (distinct_object.mp hv).2 hfield) h
          · cases h
        · split at h
          · cases h
          · split at h
            · next hitem =>
                have hmem := List.mem_of_getElem? hitem
                exact ih (allDistinct_iff.mp (distinct_array.mp hv) _ hmem) h
            · cases h
        · cases h

namespace Reader

theorem shorter_ok {α : Type} {s : List Char} {o : Option (α × List Char)} {a : α}
    {r : Rest s.length} (h : shorter s o = some (a, r)) : o = some (a, r.1) := by
  unfold shorter at h
  split at h
  · split at h
    · cases h
      rfl
    · cases h
  · cases h

theorem word_ok {lit : String} {w v : Value} {s : List Char} {r : Rest s.length}
    (h : word lit w s = some (v, r)) : v = w := by
  have hmap := shorter_ok h
  obtain ⟨rest, -, heq⟩ := Option.map_eq_some_iff.mp hmap
  cases heq
  rfl

theorem distinct_ofParts {negative : Bool} {significand : Nat} {exponent : Int} {v : Value}
    (h : ofParts negative significand exponent = some v) : v.Distinct := by
  unfold ofParts at h
  obtain ⟨x, -, h⟩ := Option.bind_eq_some_iff.mp h
  obtain ⟨y, -, h⟩ := Option.bind_eq_some_iff.mp h
  cases h
  exact distinct_number _

theorem distinct_unsigned {negative : Bool} {s rest : List Char} {v : Value}
    (h : unsigned negative s = some (v, rest)) : v.Distinct := by
  unfold unsigned at h
  obtain ⟨first, -, h⟩ := Option.bind_eq_some_iff.mp h
  simp only at h
  split at h
  · cases h
  · split at h
    · cases h
    · split at h
      · split at h
        · cases h
        · obtain ⟨⟨e, r⟩, -, h⟩ := Option.bind_eq_some_iff.mp h
          obtain ⟨w, hw, h⟩ := Option.bind_eq_some_iff.mp h
          cases h
          exact distinct_ofParts hw
      · obtain ⟨⟨e, r⟩, -, h⟩ := Option.bind_eq_some_iff.mp h
        simp only at h
        split at h
        · obtain ⟨w, hw, h⟩ := Option.bind_eq_some_iff.mp h
          cases h
          exact distinct_ofParts hw
        · split at h
          · obtain ⟨w, hw, h⟩ := Option.bind_eq_some_iff.mp h
            cases h
            exact distinct_ofParts hw
          · split at h
            · cases h
              exact distinct_number _
            · split at h
              · obtain ⟨w, hw, h⟩ := Option.bind_eq_some_iff.mp h
                cases h
                exact distinct_ofParts hw
              · cases h
                exact distinct_number _

theorem distinct_readNumber {s : List Char} {v : Value} {r : Rest s.length}
    (h : number s = some (v, r)) : v.Distinct := by
  have hread := shorter_ok h
  split at hread
  · exact distinct_unsigned hread
  · exact distinct_unsigned hread

mutual

theorem distinct_value {depth : Nat} {s : List Char} {v : Value} {r : Rest s.length}
    (h : value depth s = some (v, r)) : v.Distinct := by
  rw [value.eq_def] at h
  split at h
  · cases h
  · next c rest =>
      split at h
      · split at h
        · cases h
          exact distinct_string _
        · cases h
      · split at h
        · split at h
          · cases h
          · split at h
            · next vs q harray =>
                cases h
                exact distinct_array.mpr (distinct_arrayBody harray)
            · cases h
        · split at h
          · split at h
            · cases h
            · split at h
              · next fs q hobject =>
                  cases h
                  exact distinct_ofPairs (distinct_objectBody hobject)
              · cases h
          · split at h
            · rw [word_ok h]
              exact distinct_null
            · split at h
              · rw [word_ok h]
                exact distinct_bool _
              · split at h
                · rw [word_ok h]
                  exact distinct_bool _
                · exact distinct_readNumber h
termination_by 4 * s.length

theorem distinct_arrayBody {depth : Nat} {s : List Char} {vs : List Value} {r : Rest s.length}
    (h : arrayBody depth s = some (vs, r)) : AllDistinct vs := by
  rw [arrayBody] at h
  split at h
  · cases h
  · split at h
    · cases h
      trivial
    · exact distinct_items h
termination_by 4 * s.length + 3

theorem distinct_items {depth : Nat} {s : List Char} {vs : List Value} {r : Rest s.length}
    (h : items depth s = some (vs, r)) : AllDistinct vs := by
  have hs := length_skipBlanks_le s
  rw [items] at h
  split at h
  · cases h
  · next v rest hrest hvalue =>
      have hv := distinct_value hvalue
      split at h
      · cases h
      · split at h
        · cases h
          exact ⟨hv, trivial⟩
        · split at h
          · split at h
            · next us q hitems =>
                cases h
                exact ⟨hv, distinct_items hitems⟩
            · cases h
          · cases h
termination_by 4 * s.length + 2

theorem distinct_objectBody {depth : Nat} {s : List Char} {fs : List (String × Value)}
    {r : Rest s.length} (h : objectBody depth s = some (fs, r)) : FieldsDistinct fs := by
  rw [objectBody] at h
  split at h
  · cases h
  · split at h
    · cases h
      trivial
    · exact distinct_fields h
termination_by 4 * s.length + 3

theorem distinct_fields {depth : Nat} {s : List Char} {fs : List (String × Value)}
    {r : Rest s.length} (h : fields depth s = some (fs, r)) : FieldsDistinct fs := by
  rw [fields] at h
  split at h
  · cases h
  · split at h
    · cases h
    · split at h
      · cases h
      · split at h
        · cases h
        · next colon afterColon hc hnext =>
            have hb := length_skipBlanks_le afterColon
            split at h
            · cases h
            · split at h
              · cases h
              · next v afterValue hv hvalue =>
                  have hdistinct := distinct_value hvalue
                  split at h
                  · cases h
                  · split at h
                    · cases h
                      exact ⟨hdistinct, trivial⟩
                    · split at h
                      · split at h
                        · next us q hfields =>
                            cases h
                            exact ⟨hdistinct, distinct_fields hfields⟩
                        · cases h
                      · cases h
termination_by 4 * s.length + 2

end

end Reader

/-- What a JSON text says binds no name twice in any object. -/
theorem distinct_ofJson? {text : String} {v : Value} (h : ofJson? text = some v) :
    v.Distinct := by
  unfold ofJson? at h
  split at h
  · next w rest hread =>
      split at h
      · cases h
        exact Reader.distinct_value hread
      · cases h
  · cases h

end Value

end HttpSuite
