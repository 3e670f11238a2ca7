import Mathlib.Data.List.Flatten
import Mathlib.Data.List.Nodup
import HttpSuite.Proofs.Journal
import HttpSuite.Proofs.Scope.Merge

/-!
# Merges that may refuse

A merge that may refuse first searches the names of its sources for one that is bound already,
and then binds what the sources bind, without looking at what is there. The search keeps a set
of the names that it has seen, while the merge keeps a scope; what makes them agree is that both
go by one list of names, those of the scope with those of the sources behind them. The search
finds nothing exactly if no name comes twice in this list, and then nothing that the merge binds
replaces anything, so the bindings are put one behind the other: `merge_conflict_eq_ok_iff`.

That a refused merge leaves the scope alone is said of the merge in place, whose state is there
behind an error too.
-/

namespace HttpSuite.Scope

/-- The names of a scope and behind them those of sources, as often as they are bound. -/
def namesWith (scope : Scope) (sources : List Scope) : List String :=
  scope.keys ++ sources.flatMap OrderedMap.keys

/-- The name is bound in the scope and in a source, or in two sources. -/
def Clashes (scope : Scope) (sources : List Scope) (name : String) : Prop :=
  (name ∈ scope.keys ∧ ∃ source ∈ sources, name ∈ source.keys)
    ∨ ∃ (i j : Nat) (a b : Scope), i < j ∧ sources[i]? = some a ∧ sources[j]? = some b
        ∧ name ∈ a.keys ∧ name ∈ b.keys

/-- Binding by binding in the order of the sources, the name is the first that is bound already,
in the scope or in front of where it comes again. -/
def ClashesFirst (scope : Scope) (sources : List Scope) (name : String) : Prop :=
  ∃ front back, sources.flatMap OrderedMap.keys = front ++ name :: back
    ∧ (scope.keys ++ front).Nodup ∧ name ∈ scope.keys ++ front

/-- Merging in place. The state is what is left of the scope, also behind an error. -/
def mergeInPlace (policy : MergePolicy) (sources : List Scope) :
    EStateM VariableError Scope Unit := do
  if policy = .conflict then
    if let some name := (← get).firstConflict? sources then
      throw (.conflict name)
  sources.forM fun source => source.toList.forM fun e =>
    modify fun scope => scope.mergeBinding policy e.1 e.2

variable {scope merged : Scope} {sources : List Scope} {name : String}

/-! ## The search -/

theorem nodup_append_keys_iff {names : List String} :
    (scope.keys ++ names).Nodup ↔ firstRepeated? scope.keys names = none := by
  rw [firstRepeated?_eq_none_iff, List.nodup_append', and_iff_right scope.nodup_keys,
    List.disjoint_comm]
  rfl

theorem firstConflict?_eq_none_iff :
    scope.firstConflict? sources = none ↔ (scope.namesWith sources).Nodup :=
  nodup_append_keys_iff.symm

theorem firstConflict?_eq_some (h : scope.firstConflict? sources = some name) :
    scope.ClashesFirst sources name := by
  obtain ⟨front, back, hnames, hnone, hname⟩ := firstRepeated?_eq_some h
  exact ⟨front, back, hnames, nodup_append_keys_iff.mpr hnone, List.mem_append.mpr hname⟩

theorem nodup_namesWith_iff :
    (scope.namesWith sources).Nodup ↔ ∀ name, ¬ scope.Clashes sources name := by
  unfold namesWith
  rw [List.nodup_append', List.nodup_flatMap, List.pairwise_iff_getElem]
  constructor
  · rintro ⟨-, ⟨-, hpairs⟩, hapart⟩ name (⟨hscope, source, hsource, hname⟩ | hsources)
    · exact hapart hscope (List.mem_flatMap.mpr ⟨source, hsource, hname⟩)
    · obtain ⟨i, j, a, b, hij, ha, hb, hnameA, hnameB⟩ := hsources
      obtain ⟨hi, rfl⟩ := List.getElem?_eq_some_iff.mp ha
      obtain ⟨hj, rfl⟩ := List.getElem?_eq_some_iff.mp hb
      exact hpairs i j hi hj hij hnameA hnameB
  · intro h
    refine ⟨scope.nodup_keys, ⟨fun source _ => source.nodup_keys, ?_⟩, ?_⟩
    · intro i j hi hj hij name hnameA hnameB
      exact h name (.inr ⟨i, j, _, _, hij, List.getElem?_eq_getElem hi,
        List.getElem?_eq_getElem hj, hnameA, hnameB⟩)
    · intro name hscope hname
      obtain ⟨source, hsource, hname⟩ := List.mem_flatMap.mp hname
      exact h name (.inl ⟨hscope, source, hsource, hname⟩)

theorem isConflict_iff : scope.isConflict sources = true ↔ ∃ name, scope.Clashes sources name := by
  unfold isConflict
  rw [Option.isSome_iff_ne_none, Ne, firstConflict?_eq_none_iff, nodup_namesWith_iff]
  simp only [not_forall, not_not]

/-- A name that comes again among those of the sources is bound in two of them, as it comes only
once in each. -/
theorem exists_two_sources {front back : List String}
    (hnames : sources.flatMap OrderedMap.keys = front ++ name :: back) (hfront : name ∈ front) :
    ∃ (i j : Nat) (a b : Scope), i < j ∧ sources[i]? = some a ∧ sources[j]? = some b
      ∧ name ∈ a.keys ∧ name ∈ b.keys := by
  by_contra hno
  have honce : ((sources.flatMap OrderedMap.keys).filter (· = name)).Nodup := by
    rw [List.filter_flatMap, List.nodup_flatMap, List.pairwise_iff_getElem]
    refine ⟨fun source _ => source.nodup_keys.filter _, ?_⟩
    intro i j hi hj hij other hotherA hotherB
    obtain ⟨hnameA, heq⟩ := List.mem_filter.mp hotherA
    obtain ⟨hnameB, -⟩ := List.mem_filter.mp hotherB
    rw [of_decide_eq_true heq] at hnameA hnameB
    exact hno ⟨i, j, _, _, hij, List.getElem?_eq_getElem hi, List.getElem?_eq_getElem hj,
      hnameA, hnameB⟩
  rw [hnames, List.filter_append, List.nodup_append'] at honce
  exact honce.2.2 (List.mem_filter.mpr ⟨hfront, decide_eq_true rfl⟩)
    (List.mem_filter.mpr ⟨List.mem_cons_self, decide_eq_true rfl⟩)

theorem ClashesFirst.clashes (h : scope.ClashesFirst sources name) :
    scope.Clashes sources name := by
  obtain ⟨front, back, hnames, -, hbound⟩ := h
  rcases List.mem_append.mp hbound with hscope | hfront
  · have hname : name ∈ sources.flatMap OrderedMap.keys := by
      rw [hnames]
      exact List.mem_append_right _ List.mem_cons_self
    obtain ⟨source, hsource, hname⟩ := List.mem_flatMap.mp hname
    exact .inl ⟨hscope, source, hsource, hname⟩
  · exact .inr (exists_two_sources hnames hfront)

/-! ## The merge -/

theorem toList_extend {source : Scope} (h : (scope.keys ++ source.keys).Nodup) :
    (scope.extend source).toList = scope.toList ++ source.toList := by
  refine Entries.extend_of_nodup ?_
  rw [Entries.keys, List.map_append]
  exact h

theorem namesWith_extend {source : Scope} (h : (scope.keys ++ source.keys).Nodup)
    (rest : List Scope) :
    namesWith (scope.extend source) rest = scope.namesWith (source :: rest) := by
  have hkeys : (scope.extend source).keys = scope.keys ++ source.keys :=
    (congrArg (List.map Prod.fst) (toList_extend h)).trans List.map_append
  rw [namesWith, hkeys, List.append_assoc]
  rfl

theorem nodup_of_namesWith_cons {source : Scope} {rest : List Scope}
    (h : (scope.namesWith (source :: rest)).Nodup) : (scope.keys ++ source.keys).Nodup := by
  rw [namesWith, List.flatMap_cons, ← List.append_assoc] at h
  exact (List.nodup_append'.mp h).1

/-- Bindings that replace nothing are put one behind the other. -/
theorem toList_foldl_mergeSource (h : (scope.namesWith sources).Nodup) :
    (sources.foldl (mergeSource .conflict) scope).toList
      = scope.toList ++ sources.flatMap OrderedMap.toList := by
  induction sources generalizing scope with
  | nil => exact (List.append_nil _).symm
  | cons source rest ih =>
      have hsource := nodup_of_namesWith_cons h
      rw [List.foldl_cons, mergeSource_eq_extend (Or.inr rfl),
        ih (namesWith_extend hsource rest ▸ h), toList_extend hsource, List.append_assoc]
      rfl

/-- A merge that may refuse puts bindings one behind the other, if no name comes twice. -/
theorem merge_conflict_eq_ok_iff :
    scope.merge .conflict sources = .ok merged
      ↔ (scope.namesWith sources).Nodup
        ∧ merged.toList = scope.toList ++ sources.flatMap OrderedMap.toList := by
  rw [merge_conflict_eq_foldl_iff, firstConflict?_eq_none_iff]
  refine and_congr_right fun hnodup => ?_
  rw [← toList_foldl_mergeSource hnodup]
  exact ⟨fun h => congrArg OrderedMap.toList h.symm, fun h => OrderedMap.ext h.symm⟩

theorem merge_conflict_single_iff {source : Scope} :
    scope.merge .conflict [source] = .ok merged
      ↔ (scope.keys ++ source.keys).Nodup ∧ merged = scope.extend source := by
  rw [merge_conflict_ok_iff, nodup_append_keys_iff, firstRepeated?_eq_none_iff,
    and_iff_right source.nodup_keys]

/-- Sources may as well be merged one after another. -/
theorem foldlM_merge_conflict_eq_ok_iff :
    sources.foldlM (fun scope source => merge .conflict scope [source]) scope = .ok merged
      ↔ scope.merge .conflict sources = .ok merged := by
  induction sources generalizing scope with
  | nil => rfl
  | cons source rest ih =>
      rw [List.foldlM_cons, bind_ok_iff, merge_conflict_eq_ok_iff]
      constructor
      · rintro ⟨next, hfirst, hrest⟩
        obtain ⟨hsource, rfl⟩ := merge_conflict_single_iff.mp hfirst
        obtain ⟨hnodup, hlist⟩ := merge_conflict_eq_ok_iff.mp (ih.mp hrest)
        rw [namesWith_extend hsource] at hnodup
        rw [toList_extend hsource, List.append_assoc] at hlist
        exact ⟨hnodup, hlist⟩
      · rintro ⟨hnodup, hlist⟩
        have hsource := nodup_of_namesWith_cons hnodup
        refine ⟨scope.extend source, merge_conflict_single_iff.mpr ⟨hsource, rfl⟩,
          ih.mpr (merge_conflict_eq_ok_iff.mpr ⟨namesWith_extend hsource rest ▸ hnodup, ?_⟩)⟩
        rw [hlist, toList_extend hsource, List.append_assoc]
        rfl

/-! ## In place -/

/-- Actions that only change the state change it one after another. -/
theorem run_forM {ε σ β : Type} {act : β → EStateM ε σ Unit} {f : σ → β → σ}
    (h : ∀ b s, (act b).run s = .ok () (f s b)) (bs : List β) (s : σ) :
    (bs.forM act).run s = .ok () (bs.foldl f s) := by
  induction bs generalizing s with
  | nil => rfl
  | cons b bs ih =>
      show EStateM.bind (act b) (fun _ => bs.forM act) s = _
      have hb : act b s = .ok () (f s b) := h b s
      rw [EStateM.bind, hb]
      exact ih (f s b)

/-- In place the same is left as is the result, and behind an error what was there. -/
theorem run_mergeInPlace (policy : MergePolicy) (sources : List Scope) (scope : Scope) :
    (mergeInPlace policy sources).run scope
      = match scope.merge policy sources with
        | .ok merged => .ok () merged
        | .error fault => .error fault scope := by
  have hbind : (sources.forM fun source => source.toList.forM fun e =>
        modify fun scope => scope.mergeBinding policy e.1 e.2 : EStateM VariableError Scope Unit).run
        scope = .ok () (sources.foldl (mergeSource policy) scope) :=
    run_forM (fun source scope => run_forM (fun _ _ => rfl) source.toList scope) sources scope
  cases policy with
  | conflict =>
      unfold mergeInPlace merge
      cases hfirst : scope.firstConflict? sources with
      | some name => simp [hfirst]
      | none => simpa [hfirst] using hbind
  | combine | overwrite | deepOverwrite => exact hbind

/-- A merge that may refuse binds everything or nothing. It refuses exactly if a name is bound in
the scope and in a source or in two sources, and it names the first one that comes to be bound
again; then the scope is left as it was. Otherwise the bindings of the sources follow those of
the scope. Merging one source after another comes to the same. -/
theorem merge_conflict_all_or_nothing (scope : Scope) (sources : List Scope) :
    (scope.isConflict sources = true ↔ ∃ fault, scope.merge .conflict sources = .error fault)
      ∧ (scope.isConflict sources = true ↔ ∃ name, scope.Clashes sources name)
      ∧ (∀ fault, scope.merge .conflict sources = .error fault →
        (mergeInPlace .conflict sources).run scope = .error fault scope
          ∧ ∃ name, fault = .conflict name ∧ scope.Clashes sources name
            ∧ scope.ClashesFirst sources name)
      ∧ (∀ merged, scope.merge .conflict sources = .ok merged →
        (mergeInPlace .conflict sources).run scope = .ok () merged
          ∧ merged.toList = scope.toList ++ sources.flatMap OrderedMap.toList
          ∧ (merged.toList.map Prod.fst).Nodup)
      ∧ ∀ merged, scope.merge .conflict sources = .ok merged
        ↔ sources.foldlM (fun scope source => merge .conflict scope [source]) scope
          = .ok merged := by
  refine ⟨?_, isConflict_iff, fun fault hfault => ?_, fun merged hmerged => ?_,
    fun merged => foldlM_merge_conflict_eq_ok_iff.symm⟩
  · unfold isConflict
    rw [Option.isSome_iff_exists]
    simp only [merge_conflict_eq_error_iff]
    constructor
    · rintro ⟨name, hfirst⟩
      exact ⟨_, name, hfirst, rfl⟩
    · rintro ⟨-, name, hfirst, -⟩
      exact ⟨name, hfirst⟩
  · obtain ⟨name, hfirst, rfl⟩ := merge_conflict_eq_error_iff.mp hfault
    have hclash := firstConflict?_eq_some hfirst
    refine ⟨?_, name, rfl, hclash.clashes, hclash⟩
    rw [run_mergeInPlace, hfault]
  · refine ⟨?_, (merge_conflict_eq_ok_iff.mp hmerged).2, merged.nodup⟩
    rw [run_mergeInPlace, hmerged]

end HttpSuite.Scope
