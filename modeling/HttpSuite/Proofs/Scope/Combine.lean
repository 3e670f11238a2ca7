import Mathlib.Data.List.Induction
import HttpSuite.Proofs.Scope.Merge

/-!
# Merges that collect

A merge that collects cannot tell an array that it has built from one that it was given, so an
array that is there when it begins is taken for the values collected so far. If it begins with
nothing, then what it finds under a name is always what it has built: the values that the name
had in the sources up to there, as they were. So it comes to one array for every name, with all
values of the name in order: `combine_collects`.
-/

namespace HttpSuite

/-- What a name is bound to under which these values were collected. -/
def Value.collection : List Value → Option Value
  | [] => none
  | values => some (.array values)

theorem Value.collect_collection (values : List Value) (v : Value) :
    some (collect (collection values) v) = collection (values ++ [v]) := by
  cases values <;> rfl

namespace Scope

/-- Collecting from scopes in order adds their values of a name behind those that were there,
whatever the values are. -/
theorem get?_combined {name : String} (sources : List Scope) {collected : Scope}
    {values : List Value} (h : collected.get? name = Value.collection values) :
    (sources.foldl (mergeSource .combine) collected).get? name
      = Value.collection (values ++ sources.filterMap fun source => source.get? name) := by
  induction sources generalizing collected values with
  | nil => rw [List.filterMap_nil, List.append_nil, List.foldl_nil, h]
  | cons source rest ih =>
      have hmerged := get?_mergeSource .combine collected source name
      rw [List.foldl_cons, List.filterMap_cons]
      cases hget : source.get? name with
      | none =>
          rw [hget] at hmerged
          exact ih (hmerged.trans h)
      | some v =>
          rw [hget] at hmerged
          dsimp only
          rw [ih (hmerged.trans (h ▸ Value.collect_collection values v)), List.append_assoc]
          rfl

theorem eraseDups_of_nodup {names : List String} (h : names.Nodup) : names.eraseDups = names := by
  induction names with
  | nil => rfl
  | cons name names ih =>
      obtain ⟨hhead, htail⟩ := List.nodup_cons.mp h
      have hfilter : (names.filter fun other => !other == name) = names := by
        rw [List.filter_eq_self]
        intro other hother
        simpa using fun heq : other = name => hhead (heq ▸ hother)
      rw [List.eraseDups_cons, hfilter, ih htail]

/-- Names are in the order in which they first occur. -/
theorem keys_foldl_mergeSource (policy : MergePolicy) (sources : List Scope) :
    (sources.foldl (mergeSource policy) .empty).keys
      = (sources.flatMap OrderedMap.keys).eraseDups := by
  induction sources using List.reverseRecOn with
  | nil => rfl
  | append_singleton sources source ih =>
      have hnew : ∀ names : List String, (source.keys.filter fun name => name ∉ names.eraseDups)
          = source.keys.removeAll names := by
        intro names
        exact List.filter_congr fun name _ => by simp [List.mem_eraseDups]
      have hnodup : (source.keys.removeAll (sources.flatMap OrderedMap.keys)).Nodup :=
        source.nodup_keys.filter _
      rw [List.foldl_append, List.foldl_cons, List.foldl_nil, keys_mergeSource,
        OrderedMap.keys_extend, ih, hnew, List.flatMap_append, List.flatMap_singleton,
        List.eraseDups_append, eraseDups_of_nodup hnodup]

/-- A merge that collects may as well take one source after another. -/
theorem foldlM_merge_combine (sources : List Scope) (scope : Scope) :
    sources.foldlM (fun scope source => merge .combine scope [source]) scope
      = merge .combine scope sources := by
  induction sources generalizing scope with
  | nil => rfl
  | cons source rest ih => exact ih (mergeSource .combine scope source)

/-- Merges that collect from nothing, be it all sources at once or one after another, bind every
name, in the order of first occurrence, to the array of the values that it has in the sources. -/
theorem combine_collects (sources : List Scope) :
    ∃ collected, merge .combine .empty sources = .ok collected
      ∧ sources.foldlM (fun scope source => merge .combine scope [source]) .empty = .ok collected
      ∧ collected.toList = (sources.flatMap OrderedMap.keys).eraseDups.map fun name =>
          (name, .array (sources.filterMap fun source => source.get? name)) := by
  have hkeys := keys_foldl_mergeSource .combine sources
  refine ⟨_, rfl, foldlM_merge_combine sources .empty,
    Entries.ext (hkeys.trans (Entries.keys_map_pair _ _).symm) (OrderedMap.nodup_keys _) ?_⟩
  intro name hname
  have hbound : name ∈ (sources.flatMap OrderedMap.keys).eraseDups := hkeys ▸ hname
  have hvalues : sources.filterMap (fun source => source.get? name) ≠ [] := by
    obtain ⟨source, hsource, hmem⟩ := List.mem_flatMap.mp (List.mem_eraseDups.mp hbound)
    obtain ⟨v, hv⟩ := OrderedMap.exists_get?_of_mem_keys hmem
    exact List.ne_nil_of_mem (List.mem_filterMap.mpr ⟨source, hsource, hv⟩)
  have hcombined : OrderedMap.get? (sources.foldl (mergeSource .combine) .empty) name
      = Value.collection ([] ++ sources.filterMap fun source => source.get? name) :=
    get?_combined sources rfl
  rw [Entries.get?_map_pair _ hbound]
  refine hcombined.trans ?_
  rw [List.nil_append]
  cases hlist : sources.filterMap fun source => source.get? name with
  | nil => exact absurd hlist hvalues
  | cons v values => rfl

end Scope

end HttpSuite
