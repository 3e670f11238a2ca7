import HttpSuite.Proofs.Value.Distinct
import Mathlib.Data.List.Forall2

/-!
# More fields, in any order

`Widened fresh v w` says that `w` is `v` but for its objects: at any depth they may have further
fields, whose names are `fresh`, and all of their fields may stand in another order. If no name
is fresh there is only the order left, and the values are `Reordered`.

The fields of two objects are related by their names and not by their places. So a lookup of a
name that is not fresh finds related values or nothing in both, and that is all that a reader of
objects by name gets to know.
-/

namespace HttpSuite

namespace Value

/-- Induction on a value, with a hypothesis for every item and every field. -/
@[elab_as_elim]
theorem inductionOn {motive : Value → Prop} (v : Value) (null : motive .null)
    (bool : ∀ b, motive (.bool b)) (number : ∀ n, motive (.number n))
    (string : ∀ s, motive (.string s))
    (array : ∀ items, (∀ v ∈ items, motive v) → motive (.array items))
    (object : ∀ fields : List (String × Value), (∀ f ∈ fields, motive f.2) →
      motive (.object fields)) : motive v :=
  @Value.rec motive (fun items => ∀ v ∈ items, motive v)
    (fun fields => ∀ f ∈ fields, motive f.2) (fun f => motive f.2)
    null bool number string array object nofun
    (fun _ _ hv hrest => List.forall_mem_cons.mpr ⟨hv, hrest⟩) nofun
    (fun _ _ hf hrest => List.forall_mem_cons.mpr ⟨hf, hrest⟩) (fun _ _ hv => hv) v

/-- A name is that of a field in a value, at any depth. -/
inductive HasName : Value → String → Prop
  | own {fields : List (String × Value)} {name : String} {v : Value}
      (mem : (name, v) ∈ fields) : HasName (.object fields) name
  | field {fields : List (String × Value)} {key name : String} {v : Value}
      (mem : (key, v) ∈ fields) (inner : HasName v name) : HasName (.object fields) name
  | item {items : List Value} {name : String} {v : Value} (mem : v ∈ items)
      (inner : HasName v name) : HasName (.array items) name

@[simp] theorem not_hasName_bool {b : Bool} {name : String} : ¬ HasName (.bool b) name := nofun

@[simp] theorem not_hasName_string {s name : String} : ¬ HasName (.string s) name := nofun

theorem hasName_object_iff {fields : List (String × Value)} {name : String} :
    HasName (.object fields) name ↔ ∃ f ∈ fields, f.1 = name ∨ HasName f.2 name := by
  constructor
  · intro h
    cases h with
    | own mem => exact ⟨_, mem, Or.inl rfl⟩
    | field mem inner => exact ⟨_, mem, Or.inr inner⟩
  · rintro ⟨f, hf, rfl | hinner⟩
    · exact .own hf
    · exact .field hf hinner

/-- The same value, where objects may have further fields with fresh names, and the fields of
objects may come in any order. -/
inductive Widened (fresh : String → Prop) : Value → Value → Prop
  | null : Widened fresh .null .null
  | bool (b : Bool) : Widened fresh (.bool b) (.bool b)
  | number (n : Number) : Widened fresh (.number n) (.number n)
  | string (s : String) : Widened fresh (.string s) (.string s)
  | array {vs ws : List Value} (length : vs.length = ws.length)
      (items : ∀ (i : Nat) v w, vs[i]? = some v → ws[i]? = some w → Widened fresh v w) :
      Widened fresh (.array vs) (.array ws)
  | object {fs gs : List (String × Value)} {added : List String}
      (names : (Entries.keys gs).Perm (Entries.keys fs ++ added))
      (new : ∀ name ∈ added, fresh name)
      (fields : ∀ name v w, (name, v) ∈ fs → (name, w) ∈ gs → Widened fresh v w) :
      Widened fresh (.object fs) (.object gs)

/-- The same value with the fields of its objects in another order. -/
def Reordered : Value → Value → Prop := Widened fun _ => False

namespace Widened

variable {fresh : String → Prop} {v w : Value}

theorem eq_null_iff (h : Widened fresh v w) : v = .null ↔ w = .null := by
  cases h <;> simp

theorem eq_bool_iff (h : Widened fresh v w) {b : Bool} : v = .bool b ↔ w = .bool b := by
  cases h <;> simp

theorem eq_number_iff (h : Widened fresh v w) {n : Number} :
    v = .number n ↔ w = .number n := by
  cases h <;> simp

theorem eq_string_iff (h : Widened fresh v w) {s : String} :
    v = .string s ↔ w = .string s := by
  cases h <;> simp

theorem array_iff {vs ws : List Value} :
    Widened fresh (.array vs) (.array ws) ↔ List.Forall₂ (Widened fresh) vs ws := by
  rw [List.forall₂_iff_get]
  constructor
  · intro h
    cases h with
    | array length items =>
        refine ⟨length, fun i hv hw => items i _ _ ?_ ?_⟩
        · exact List.getElem?_eq_getElem hv
        · exact List.getElem?_eq_getElem hw
  · rintro ⟨length, items⟩
    refine .array length fun i v w hv hw => ?_
    obtain ⟨hi, rfl⟩ := List.getElem?_eq_some_iff.mp hv
    obtain ⟨hi', rfl⟩ := List.getElem?_eq_some_iff.mp hw
    exact items i hi hi'

/-- A name that is not fresh is in both objects or in none, with related values. -/
theorem lookup {fs gs : Entries Value} (h : Widened fresh (.object fs) (.object gs))
    {name : String} (hname : ¬ fresh name) :
    (fs.get? name = none ∧ gs.get? name = none)
      ∨ ∃ v w, fs.get? name = some v ∧ gs.get? name = some w ∧ Widened fresh v w := by
  cases h with
  | object hnames hfresh hfields =>
      have hmem : name ∈ Entries.keys gs ↔ name ∈ Entries.keys fs := by
        rw [hnames.mem_iff, List.mem_append, or_iff_left fun hadded => hname (hfresh name hadded)]
      cases hv : fs.get? name with
      | none =>
          rw [Entries.get?_eq_none_iff, ← hmem, ← Entries.get?_eq_none_iff] at hv
          exact Or.inl ⟨rfl, hv⟩
      | some v =>
          have hkey := hmem.mpr (Entries.get?_isSome_iff.mp (Option.isSome_of_eq_some hv))
          obtain ⟨w, hw⟩ := Option.isSome_iff_exists.mp (Entries.get?_isSome_iff.mpr hkey)
          exact Or.inr ⟨v, w, rfl, hw,
            hfields name v w (Entries.mem_of_get? hv) (Entries.mem_of_get? hw)⟩

end Widened

namespace Reordered

variable {v w : Value}

theorem keys_perm {fs gs : List (String × Value)} (h : Reordered (.object fs) (.object gs)) :
    (Entries.keys gs).Perm (Entries.keys fs) := by
  cases h with
  | @object _ _ added names new fields =>
      rw [List.eq_nil_iff_forall_not_mem.mpr new, List.append_nil] at names
      exact names

theorem symm (h : Reordered v w) : Reordered w v := by
  induction h with
  | null => exact .null
  | bool b => exact .bool b
  | number n => exact .number n
  | string s => exact .string s
  | @array vs ws length items ih =>
      exact .array length.symm fun i w v hw hv => ih i v w hv hw
  | @object fs gs added names new fields ih =>
      have hnames : (Entries.keys fs).Perm (Entries.keys gs ++ []) := by
        rw [List.append_nil]
        exact (keys_perm (.object names new fields)).symm
      exact .object hnames nofun fun name w v hw hv => ih name v w hv hw

/-- Each field comes from one of the same name. -/
theorem exists_of_mem {fs gs : List (String × Value)} (h : Reordered (.object fs) (.object gs))
    {g : String × Value} (hg : g ∈ gs) : ∃ v, (g.1, v) ∈ fs ∧ v.Reordered g.2 := by
  have hkey := h.keys_perm.mem_iff.mp (List.mem_map_of_mem hg)
  obtain ⟨⟨_, v⟩, hv, rfl⟩ := List.mem_map.mp hkey
  cases h with
  | object names new fields => exact ⟨v, hv, fields _ v g.2 hv hg⟩

theorem distinct (h : Reordered v w) (hd : v.Distinct) : w.Distinct := by
  induction h with
  | null => exact distinct_null
  | bool b => exact distinct_bool b
  | number n => exact distinct_number n
  | string s => exact distinct_string s
  | @array vs ws length items ih =>
      rw [distinct_array, allDistinct_iff] at hd ⊢
      intro w hw
      obtain ⟨i, hi, rfl⟩ := List.getElem_of_mem hw
      rw [← length] at hi
      exact ih i _ _ (List.getElem?_eq_getElem hi) (List.getElem?_eq_getElem _)
        (hd _ (List.getElem_mem hi))
  | @object fs gs added names new fields ih =>
      have h : Reordered (.object fs) (.object gs) := .object names new fields
      rw [distinct_object, fieldsDistinct_iff] at hd ⊢
      refine ⟨h.keys_perm.nodup_iff.mpr hd.1, fun g hg => ?_⟩
      obtain ⟨v, hv, -⟩ := h.exists_of_mem hg
      exact ih g.1 v g.2 hv hg (hd.2 _ hv)

end Reordered

end Value

end HttpSuite
