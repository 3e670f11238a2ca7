import HttpSuite.Proofs.OrderedMap
import HttpSuite.Scope.Chain

/-!
# Merges, name by name

The four policies differ in one value only: what a name is bound to that was bound
before. `MergePolicy.joined` is that value, and behind the merge of a source every name of
the source has it while all others are left alone. A merge that may refuse does so exactly
if a name of the source is bound already, and otherwise it is an extension.

A chain answers like the scope that it flattens to, because both ends of the flattening
let the newer frame win.
-/

namespace HttpSuite

/-- What a name is bound to when a value is merged, in view of what it was bound to. -/
def MergePolicy.joined : MergePolicy → Option Value → Value → Value
  | .deepOverwrite, some old, v => old.deepOverwrite v
  | .combine, old, v => Value.collect old v
  | _, _, v => v

namespace Scope

theorem mergeBinding_eq (policy : MergePolicy) (scope : Scope) (name : String) (v : Value) :
    scope.mergeBinding policy name v
      = scope.insert name (policy.joined (scope.get? name) v) := by
  cases policy with
  | deepOverwrite =>
      unfold mergeBinding
      cases hold : scope.get? name <;> rfl
  | combine | overwrite | conflict => rfl

/-- Merging a source sets its names one after another. -/
theorem entries_mergeSource (policy : MergePolicy) (scope source : Scope) :
    (mergeSource policy scope source).entries
      = Entries.extendWith policy.joined scope.entries source.entries := by
  have hfold : ∀ (es : Entries Value) (acc : Scope),
      (es.foldl (fun acc e => acc.mergeBinding policy e.1 e.2) acc).entries
        = Entries.extendWith policy.joined acc.entries es := by
    intro es
    induction es with
    | nil =>
        intro acc
        rfl
    | cons e es ih =>
        intro acc
        rw [List.foldl_cons, ih, mergeBinding_eq, Entries.extendWith_cons]
        rfl
  exact hfold source.entries scope

/-- Behind a merge, a name of the source is bound to the joined value, and any other name
to what it was bound to. -/
theorem get?_mergeSource (policy : MergePolicy) (scope source : Scope) (name : String) :
    (mergeSource policy scope source).get? name
      = match source.get? name with
        | some v => some (policy.joined (scope.get? name) v)
        | none => scope.get? name := by
  rw [OrderedMap.get?, entries_mergeSource, Entries.get?_extendWith _ source.nodup]
  unfold OrderedMap.get?
  cases Entries.get? source.entries name <;> rfl

/-- Whatever the policy, the names are those of an extension, in the same order. -/
theorem keys_mergeSource (policy : MergePolicy) (scope source : Scope) :
    (mergeSource policy scope source).keys = (scope.extend source).keys := by
  rw [OrderedMap.keys, entries_mergeSource, Entries.keys_extendWith _ source.nodup,
    OrderedMap.keys_extend]
  rfl

theorem mem_keys_mergeSource {policy : MergePolicy} {scope source : Scope} {name : String} :
    name ∈ (mergeSource policy scope source).keys ↔ name ∈ scope.keys ∨ name ∈ source.keys := by
  rw [keys_mergeSource, OrderedMap.mem_keys_extend]

theorem get?_mergeSource_of_not_mem {policy : MergePolicy} {scope source : Scope}
    {name : String} (h : name ∉ source.keys) :
    (mergeSource policy scope source).get? name = scope.get? name := by
  rw [get?_mergeSource, OrderedMap.get?_eq_none_iff.mpr h]

/-- A merge that replaces, or that has nothing to replace, is an extension. -/
theorem mergeSource_eq_extend {policy : MergePolicy}
    (h : policy = .overwrite ∨ policy = .conflict) (scope source : Scope) :
    mergeSource policy scope source = scope.extend source := by
  refine OrderedMap.ext ?_
  rw [entries_mergeSource]
  rcases h with rfl | rfl <;> rfl

/-- A search finds nothing if no name is taken or comes again. -/
theorem firstRepeated?_eq_none_iff {names taken : List String} :
    firstRepeated? taken names = none ↔ names.Nodup ∧ ∀ name ∈ names, name ∉ taken := by
  induction names generalizing taken with
  | nil => simp [firstRepeated?]
  | cons name names ih =>
      rw [firstRepeated?]
      by_cases h : name ∈ taken
      · simp [h]
      · have hc : taken.contains name = false := by simpa using h
        rw [hc, if_neg Bool.false_ne_true, ih, List.nodup_cons, List.forall_mem_cons]
        constructor
        · rintro ⟨hnodup, hall⟩
          refine ⟨⟨fun hmem => hall name hmem List.mem_cons_self, hnodup⟩, h, ?_⟩
          exact fun other hother htaken => hall other hother (List.mem_cons_of_mem _ htaken)
        · rintro ⟨⟨hhead, hnodup⟩, -, hall⟩
          refine ⟨hnodup, fun other hother hmem => ?_⟩
          rcases List.mem_cons.mp hmem with rfl | htaken
          · exact hhead hother
          · exact hall other hother htaken

/-- What a search finds is the first name that is taken or comes again. -/
theorem firstRepeated?_eq_some {names taken : List String} {name : String}
    (h : firstRepeated? taken names = some name) :
    ∃ front back, names = front ++ name :: back ∧ firstRepeated? taken front = none
      ∧ (name ∈ taken ∨ name ∈ front) := by
  induction names generalizing taken with
  | nil => cases h
  | cons first rest ih =>
      rw [firstRepeated?] at h
      split at h
      · next hfirst =>
          cases h
          exact ⟨[], rest, rfl, rfl, Or.inl (by simpa using hfirst)⟩
      · next hfirst =>
          obtain ⟨front, back, hrest, hnone, hname⟩ := ih h
          refine ⟨first :: front, back, by rw [hrest, List.cons_append], ?_, ?_⟩
          · rw [firstRepeated?, if_neg hfirst, hnone]
          · rw [List.mem_cons] at hname ⊢
            exact hname.elim (fun h => h.elim (Or.inr ∘ Or.inl) Or.inl) (Or.inr ∘ Or.inr)

/-- What is found to come again had been taken. -/
theorem mem_of_firstRepeated? {names : List String} (hn : names.Nodup) {taken : List String}
    {name : String} (h : firstRepeated? taken names = some name) :
    name ∈ names ∧ name ∈ taken := by
  obtain ⟨front, back, rfl, -, hname⟩ := firstRepeated?_eq_some h
  have hfront : name ∉ front := fun hmem =>
    (List.nodup_append.mp hn).2.2 name hmem name List.mem_cons_self rfl
  exact ⟨List.mem_append_right _ List.mem_cons_self, hname.resolve_right hfront⟩

theorem merge_conflict_eq_foldl_iff {scope merged : Scope} {sources : List Scope} :
    scope.merge .conflict sources = .ok merged
      ↔ scope.firstConflict? sources = none
        ∧ sources.foldl (mergeSource .conflict) scope = merged := by
  unfold merge
  dsimp only
  cases scope.firstConflict? sources <;> simp

/-- A merge that may refuse names what its search has found. -/
theorem merge_conflict_eq_error_iff {scope : Scope} {sources : List Scope}
    {fault : VariableError} :
    scope.merge .conflict sources = .error fault
      ↔ ∃ name, scope.firstConflict? sources = some name ∧ fault = .conflict name := by
  unfold merge
  dsimp only
  cases scope.firstConflict? sources <;> simp [eq_comm]

theorem firstConflict?_singleton (scope source : Scope) :
    scope.firstConflict? [source] = firstRepeated? scope.keys source.keys := by
  rw [firstConflict?, List.flatMap_singleton]

/-- A merge that may refuse binds no name twice, and otherwise it extends. -/
theorem merge_conflict_ok_iff {scope source merged : Scope} :
    scope.merge .conflict [source] = .ok merged
      ↔ (∀ name ∈ source.keys, name ∉ scope.keys) ∧ merged = scope.extend source := by
  rw [merge_conflict_eq_foldl_iff, firstConflict?_singleton, firstRepeated?_eq_none_iff,
    and_iff_right source.nodup_keys, List.foldl_cons, List.foldl_nil,
    mergeSource_eq_extend (Or.inr rfl), @eq_comm _ merged]

/-- A merge that refuses names what is bound on both sides. -/
theorem merge_conflict_eq_error {scope source : Scope} {fault : VariableError}
    (h : scope.merge .conflict [source] = .error fault) :
    ∃ name, fault = .conflict name ∧ name ∈ source.keys ∧ name ∈ scope.keys := by
  obtain ⟨name, hfirst, rfl⟩ := merge_conflict_eq_error_iff.mp h
  rw [firstConflict?_singleton] at hfirst
  exact ⟨name, rfl, mem_of_firstRepeated? source.nodup_keys hfirst⟩

end Scope

namespace ScopeChain

theorem materialize_push (frame : Scope) (frames : List Scope) :
    materialize ⟨frame :: frames⟩ = (materialize ⟨frames⟩).extend frame := by
  unfold materialize
  rw [List.reverse_cons, List.foldl_append]
  rfl

/-- A chain and the scope that it flattens to answer the same. -/
theorem get?_materialize (chain : ScopeChain) (name : String) :
    chain.materialize.get? name = chain.get? name := by
  obtain ⟨frames⟩ := chain
  induction frames with
  | nil => rfl
  | cons frame frames ih =>
      rw [materialize_push, OrderedMap.get?_extend, ih]
      unfold get?
      rw [List.findSome?_cons]
      cases OrderedMap.get? frame name <;> rfl

theorem contains_iff {chain : ScopeChain} {name : String} :
    chain.contains name = true ↔ name ∈ chain.materialize.keys := by
  rw [← OrderedMap.contains_iff]
  unfold contains OrderedMap.contains
  rw [get?_materialize]

/-- A frame is pushed exactly if it binds no name of the chain. -/
theorem push_ok_iff {chain pushed : ScopeChain} {vars : Scope} :
    chain.push vars = .ok pushed
      ↔ (∀ name ∈ vars.keys, name ∉ chain.materialize.keys)
        ∧ pushed = ⟨vars :: chain.frames⟩ := by
  unfold push
  cases hfind : vars.keys.find? chain.contains with
  | some name =>
      have hmem := List.mem_of_find?_eq_some hfind
      have hbound := contains_iff.mp (List.find?_some hfind)
      simp only [reduceCtorEq, false_iff, not_and]
      exact fun hall => absurd hbound (hall name hmem)
  | none =>
      have hall : ∀ name ∈ vars.keys, name ∉ chain.materialize.keys := by
        intro name hname hbound
        exact List.find?_eq_none.mp hfind name hname (contains_iff.mpr hbound)
      constructor
      · intro h
        cases h
        exact ⟨hall, rfl⟩
      · rintro ⟨-, rfl⟩
        rfl

end ScopeChain

end HttpSuite
