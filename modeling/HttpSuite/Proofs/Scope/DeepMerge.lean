import HttpSuite.Proofs.Scope.Merge
import HttpSuite.Proofs.Value.Overlay
import HttpSuite.Proofs.Value.Place

/-!
# Merges part by part

Merging a scope part by part is putting one object on top of another, so what it does is told
place by place. Where the source has a value, the result has that value on top of what was there,
and a scalar hides all that is below it (`at?_deepOverwrite`). Where the source ends on the way,
the place is as it was (`Misses.at?_deepOverwrite`). Nothing else happens, and it happens once: a
second merge finds at every place what it would put there.
-/

namespace HttpSuite

namespace Value

/-- A value without parts, other than null. -/
def IsScalar (v : Value) : Prop := v.kind = .boolean ∨ v.kind = .number ∨ v.kind = .string

/-- A value does not reach a place in the one below: going there through objects and arrays that
lie on objects and arrays, it ends in null, or where it has no field or item for the next step. -/
inductive Misses : (above below : Value) → List Step → Prop
  | null {below : Value} {place : List Step} : Misses .null below place
  | missing {above below : Value} {step : Step} {rest : List Step}
      (kinds : above.kind = below.kind) (absent : above.step? step = none) :
      Misses above below (step :: rest)
  | inside {above below v w : Value} {step : Step} {rest : List Step}
      (reaches : above.step? step = some v) (there : below.step? step = some w)
      (inner : Misses v w rest) : Misses above below (step :: rest)

theorem step?_field (v : Value) (key : String) :
    v.step? (.field key) = Entries.get? v.ownFields key := by
  cases v <;> rfl

theorem step?_item (v : Value) (i : Nat) : v.step? (.item i) = v.ownItems[i]? := by
  cases v <;> rfl

theorem Distinct.step? {v w : Value} {step : Step} (hv : v.Distinct) (h : v.step? step = some w) :
    w.Distinct := by
  cases step with
  | field key =>
      rw [step?_field] at h
      exact distinct_of_get? hv.ownFields.2 h
  | item i =>
      rw [step?_item] at h
      exact allDistinct_iff.mp hv.ownItems w (List.mem_of_getElem? h)

theorem Distinct.at? {v w : Value} {place : List Step} (hv : v.Distinct)
    (h : v.at? place = some w) : w.Distinct := by
  induction place generalizing v with
  | nil =>
      cases h
      exact hv
  | cons step rest ih =>
      obtain ⟨u, hstep, hrest⟩ := Option.bind_eq_some_iff.mp h
      exact ih (hv.step? hstep) hrest

theorem IsScalar.step? {v : Value} (h : v.IsScalar) (step : Step) : v.step? step = none := by
  cases v with
  | bool | number | string => cases step <;> rfl
  | null | array | object => simp [IsScalar, kind] at h

theorem IsScalar.deepOverwrite {src : Value} (h : src.IsScalar) (dst : Value) :
    dst.deepOverwrite src = src := by
  cases src with
  | bool | number | string => exact deepOverwrite_plain id id dst
  | null | array | object => simp [IsScalar, kind] at h

/-! ## One step -/

/-- Where a step can be taken above, it leads to what is there on top of what is below. -/
theorem step?_deepOverwrite {src : Value} (hs : src.Distinct) (dst : Value) {step : Step}
    {v : Value} (h : src.step? step = some v) :
    (dst.deepOverwrite src).step? step
      = some (((dst.step? step).getD null).deepOverwrite v) := by
  cases src with
  | object fields =>
      have hn := (distinct_object.mp hs).1
      cases step with
      | field key =>
          have hget : Entries.get? fields key = some v := h
          rw [deepOverwrite_object hn, step?_field dst]
          show Entries.get? (overwriteFields dst.ownFields fields) key = _
          rw [get?_overwriteFields hn, hget]
      | item i => cases h
  | array items =>
      cases step with
      | field key => cases h
      | item i =>
          have hget : items[i]? = some v := h
          rw [deepOverwrite_array, step?_item dst]
          show (overwriteItems dst.ownItems items)[i]? = _
          rw [getElem?_overwriteItems, hget]
  | null | bool | number | string => cases step <;> cases h

/-- Where a step cannot be taken above, it leads where it led, if the values are of a kind. -/
theorem step?_deepOverwrite_of_none {src dst : Value} (hs : src.Distinct)
    (kinds : src.kind = dst.kind) {step : Step} (h : src.step? step = none) :
    (dst.deepOverwrite src).step? step = dst.step? step := by
  by_cases hscalar : src.IsScalar
  · have hbelow : dst.IsScalar := by
      unfold IsScalar
      rwa [← kinds]
    rw [hscalar.deepOverwrite, hscalar.step?, hbelow.step?]
  cases src with
  | null => rw [deepOverwrite_null]
  | object fields =>
      have hn := (distinct_object.mp hs).1
      cases dst with
      | object below =>
          rw [deepOverwrite_object hn]
          cases step with
          | field key =>
              have hget : Entries.get? fields key = none := h
              show Entries.get? (overwriteFields below fields) key = _
              rw [get?_overwriteFields hn, hget]
              rfl
          | item i => rfl
      | null | bool | number | string | array => cases kinds
  | array items =>
      cases dst with
      | array below =>
          rw [deepOverwrite_array]
          cases step with
          | field key => rfl
          | item i =>
              have hget : items[i]? = none := h
              show (overwriteItems below items)[i]? = _
              rw [getElem?_overwriteItems, hget]
              rfl
      | null | bool | number | string | object => cases kinds
  | bool => exact absurd (.inl rfl) hscalar
  | number => exact absurd (.inr (.inl rfl)) hscalar
  | string => exact absurd (.inr (.inr rfl)) hscalar

/-! ## Places -/

theorem at?_null {place : List Step} : (null.at? place).getD null = null := by
  cases place with
  | nil => rfl
  | cons step rest => cases step <;> rfl

/-- At a place that the value above reaches, the result is what it has there on top of what is
below. -/
theorem at?_deepOverwrite {src : Value} (hs : src.Distinct) (dst : Value) {place : List Step}
    {v : Value} (h : src.at? place = some v) :
    (dst.deepOverwrite src).at? place
      = some (((dst.at? place).getD null).deepOverwrite v) := by
  induction place generalizing src dst with
  | nil =>
      cases h
      rfl
  | cons step rest ih =>
      obtain ⟨w, hstep, hrest⟩ := Option.bind_eq_some_iff.mp h
      rw [at?_cons (step?_deepOverwrite hs dst hstep), ih (hs.step? hstep) _ hrest]
      cases hbelow : dst.step? step with
      | none =>
          rw [Option.getD_none, at?_null, at?, hbelow]
          rfl
      | some u => rw [Option.getD_some, at?_cons hbelow]

/-- A place that the value above misses is as it was. -/
theorem Misses.at?_deepOverwrite {src dst : Value} {place : List Step}
    (h : Misses src dst place) (hs : src.Distinct) :
    (dst.deepOverwrite src).at? place = dst.at? place := by
  induction h with
  | null => rw [deepOverwrite_null]
  | missing kinds absent =>
      rw [at?, at?, step?_deepOverwrite_of_none hs kinds absent]
  | inside reaches there _ ih =>
      rw [at?_cons (step?_deepOverwrite hs _ reaches), at?_cons there, there]
      exact ih (hs.step? reaches)

theorem deepOverwrite_again {src dst : Value} (hs : src.Distinct) (hd : dst.Distinct) :
    (dst.deepOverwrite src).deepOverwrite src = dst.deepOverwrite src :=
  overlay_overlay (List.forall_mem_singleton.mpr hs) hd

end Value

/-- A name that is not bound counts as bound to null. -/
theorem MergePolicy.joined_deepOverwrite (old : Option Value) (v : Value) :
    MergePolicy.deepOverwrite.joined old v = (old.getD .null).deepOverwrite v := by
  cases old with
  | none => exact (Value.null_deepOverwrite v).symm
  | some old => rfl

namespace Scope

/-- Merging part by part is putting one object on top of another. -/
theorem toValue_mergeSource (scope source : Scope) :
    (mergeSource .deepOverwrite scope source).toValue
      = scope.toValue.deepOverwrite source.toValue := by
  have hjoined : MergePolicy.deepOverwrite.joined
      = fun old v => (old.getD .null).deepOverwrite v :=
    funext₂ MergePolicy.joined_deepOverwrite
  rw [toValue, toValue, toValue, Value.deepOverwrite, entries_mergeSource, hjoined,
    Value.overwriteFields_eq_extendWith]

/-- Merging part by part puts every scalar of the source where the source has it, leaves every
part of the scope as it was that the source does not reach, and keeps the names of an object in
their order, with the new ones behind them, the scope itself being such an object. Doing it again
changes nothing, and neither does replacing whole values again. -/
theorem merge_part_by_part {scope source : Scope} (hscope : scope.toValue.Distinct)
    (hsource : source.toValue.Distinct) :
    ∃ merged, scope.merge .deepOverwrite [source] = .ok merged
      ∧ (∀ place v, source.toValue.at? place = some v → v.IsScalar →
        merged.toValue.at? place = some v)
      ∧ (∀ place v, scope.toValue.at? place = some v →
        Value.Misses source.toValue scope.toValue place → merged.toValue.at? place = some v)
      ∧ (∀ place below above, scope.toValue.at? place = some (.object below) →
        source.toValue.at? place = some (.object above) →
        ∃ fields, merged.toValue.at? place = some (.object fields)
          ∧ Entries.keys fields
            = Entries.keys below ++ (Entries.keys above).filter fun name => name ∉ Entries.keys below)
      ∧ merged.merge .deepOverwrite [source] = .ok merged
      ∧ ∃ replaced, scope.merge .overwrite [source] = .ok replaced
        ∧ replaced.merge .overwrite [source] = .ok replaced := by
  have hmerged := toValue_mergeSource scope source
  refine ⟨mergeSource .deepOverwrite scope source, rfl, ?_, ?_, ?_, ?_,
    mergeSource .overwrite scope source, rfl, ?_⟩
  · intro place v hv hscalar
    rw [hmerged, Value.at?_deepOverwrite hsource _ hv, hscalar.deepOverwrite]
  · intro place v hv hmisses
    rw [hmerged, hmisses.at?_deepOverwrite hsource, hv]
  · intro place below above hbelow habove
    have hn := (Value.distinct_object.mp (hsource.at? habove)).1
    refine ⟨Value.overwriteFields below above, ?_, Value.keys_overwriteFields hn below⟩
    rw [hmerged, Value.at?_deepOverwrite hsource _ habove, hbelow, Option.getD_some,
      Value.deepOverwrite_object hn]
    rfl
  · refine congrArg Except.ok (OrderedMap.ext (Value.object.inj ?_))
    show (mergeSource .deepOverwrite (mergeSource .deepOverwrite scope source) source).toValue
      = (mergeSource .deepOverwrite scope source).toValue
    rw [toValue_mergeSource, hmerged, Value.deepOverwrite_again hsource hscope]
  · refine congrArg Except.ok ?_
    show mergeSource .overwrite (mergeSource .overwrite scope source) source
      = mergeSource .overwrite scope source
    rw [mergeSource_eq_extend (Or.inl rfl), mergeSource_eq_extend (Or.inl rfl),
      OrderedMap.extend_extend]

/-- A user with two roles. -/
def profile : Scope where
  entries := [("user", .object [("name", .string "ada"),
    ("roles", .array [.string "reader", .string "writer"]),
    ("level", .object [("rank", .ofNat 1)])])]
  nodup := by decide

/-- Another first role and a third one, and a level of another kind. -/
def promotion : Scope where
  entries := [("user", .object [("email", .string "a@b"),
    ("roles", .array [.string "owner", .null, .string "guest"]), ("level", .ofNat 5)])]
  nodup := by decide

theorem merge_part_by_part_promotion :
    profile.toValue.Distinct ∧ promotion.toValue.Distinct
      ∧ ∃ merged, profile.merge .deepOverwrite [promotion] = .ok merged
        ∧ merged.toValue.at? [.field "user", .field "roles", .item 2] = some (.string "guest")
        ∧ merged.toValue.at? [.field "user", .field "level"] = some (.ofNat 5)
        ∧ merged.toValue.at? [.field "user", .field "roles", .item 1] = some (.string "writer")
        ∧ merged.toValue.at? [.field "user", .field "name"] = some (.string "ada")
        ∧ (∃ fields, merged.toValue.at? [.field "user"] = some (.object fields)
          ∧ Entries.keys fields = ["name", "roles", "level", "email"])
        ∧ merged.merge .deepOverwrite [promotion] = .ok merged := by
  have hprofile : profile.toValue.Distinct := by
    simp [profile, toValue, Value.Distinct, Value.FieldsDistinct, Value.AllDistinct, Entries.keys,
      Value.ofNat]
  have hpromotion : promotion.toValue.Distinct := by
    simp [promotion, toValue, Value.Distinct, Value.FieldsDistinct, Value.AllDistinct,
      Entries.keys, Value.ofNat]
  obtain ⟨merged, hmerged, hscalar, hkept, hkeys, hagain, -⟩ :=
    merge_part_by_part hprofile hpromotion
  refine ⟨hprofile, hpromotion, merged, hmerged, hscalar _ _ rfl (.inr (.inr rfl)),
    hscalar _ _ rfl (.inr (.inl rfl)), hkept _ _ rfl ?_, hkept _ _ rfl ?_, ?_, hagain⟩
  · exact .inside rfl rfl (.inside rfl rfl (.inside rfl rfl .null))
  · exact .inside rfl rfl (.missing rfl rfl)
  · exact hkeys [.field "user"] _ _ rfl rfl

end Scope

end HttpSuite
