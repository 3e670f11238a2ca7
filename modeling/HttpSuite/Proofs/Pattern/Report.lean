import HttpSuite.Proofs.Pattern.Constraint

/-!
# Reports are complete and exact

The report of a check has one leaf for each constraint of the pattern that the value breaks, in
the order of the constraints, and above the leaf the way to the place of the constraint. So
nothing is left out, said twice or said of another place.

The check walks through pattern and value together and stops at containers of the wrong kind or
size and at missing fields, whereas the constraints are listed from the pattern alone and then
sorted out. Both sides are built from the same pieces: what is found one step deeper goes below
the text of the step, and what depends on a demand disappears where the demand is not met. Each
kind of pattern is put together from these two.
-/

namespace HttpSuite

namespace MatchFailure

/-- What a report says at one of its ends, with the segments of the nodes above. -/
structure Leaf where
  segments : List String
  message : Option String
  deriving DecidableEq, Repr

/-- The same leaf one node deeper. -/
def Leaf.below (segment : String) (l : Leaf) : Leaf := { l with segments := segment :: l.segments }

mutual

/-- The leaves of a report. -/
def leaves : MatchFailure → List Leaf
  | node _ message [] => [⟨[], message⟩]
  | node segment _ (child :: rest) => (leaves child ++ leavesAll rest).map (Leaf.below segment)

/-- The leaves of reports, one after another. -/
def leavesAll : List MatchFailure → List Leaf
  | [] => []
  | failure :: rest => leaves failure ++ leavesAll rest

end

mutual

theorem length_leaves : ∀ f : MatchFailure, f.leaves.length = f.leafCount
  | node _ _ [] => rfl
  | node _ _ (child :: rest) => by
      simp [leaves, leafCount, length_leaves child, length_leavesAll rest]

theorem length_leavesAll : ∀ fs : List MatchFailure, (leavesAll fs).length = leafCountAll fs
  | [] => rfl
  | f :: rest => by simp [leavesAll, leafCountAll, length_leaves f, length_leavesAll rest]

end

theorem leaves_ne_nil : ∀ f : MatchFailure, f.leaves ≠ []
  | node _ _ [] => by simp [leaves]
  | node _ _ (child :: _) => by simp [leaves, leaves_ne_nil child]

theorem leavesAll_append (fs gs : List MatchFailure) :
    leavesAll (fs ++ gs) = leavesAll fs ++ leavesAll gs := by
  induction fs with
  | nil => rfl
  | cons f fs ih => rw [List.cons_append, leavesAll, leavesAll, ih, List.append_assoc]

theorem leavesAll_eq_nil_iff {fs : List MatchFailure} : leavesAll fs = [] ↔ fs = [] := by
  cases fs <;> simp [leavesAll, leaves_ne_nil]

/-- The two kinds of nodes: one that says something, without place and without children, and one
that names a place and has children. -/
inductive Proper : MatchFailure → Prop
  | leaf (message : String) : Proper (leaf message)
  | nested {segment : String} {children : List MatchFailure} (named : segment ≠ "")
      (nonempty : children ≠ []) (all : ∀ child ∈ children, Proper child) :
      Proper (nested segment children)

/-- Reports of proper nodes that have these leaves. -/
structure Tells (fs : List MatchFailure) (ls : List Leaf) : Prop where
  proper : ∀ f ∈ fs, f.Proper
  leaves : leavesAll fs = ls

namespace Tells

variable {fs gs : List MatchFailure} {ls ms : List Leaf}

theorem nil : Tells [] [] := ⟨List.forall_mem_nil _, rfl⟩

theorem leaf (message : String) : Tells [.leaf message] [⟨[], some message⟩] :=
  ⟨List.forall_mem_singleton.mpr (.leaf message), rfl⟩

theorem append (hf : Tells fs ls) (hg : Tells gs ms) : Tells (fs ++ gs) (ls ++ ms) := by
  refine ⟨List.forall_mem_append.mpr ⟨hf.proper, hg.proper⟩, ?_⟩
  rw [leavesAll_append, hf.leaves, hg.leaves]

/-- What is told of a place is told below the step to it. -/
theorem within (h : Tells fs ls) (step : Value.Step) :
    Tells (Pattern.within step.text fs) (ls.map (Leaf.below step.text)) := by
  obtain ⟨hproper, rfl⟩ := h
  cases fs with
  | nil => exact .nil
  | cons f fs =>
      refine ⟨List.forall_mem_singleton.mpr ?_, ?_⟩
      · exact .nested step.text_ne_empty (List.cons_ne_nil f fs) hproper
      · exact List.append_nil _

end Tells

end MatchFailure

open MatchFailure

namespace Pattern

/-! ## The check, demand by demand -/

/-- What is reported of one demand on a value. -/
def Demand.failures (d : Demand) (v : Option Value) : List MatchFailure :=
  if d.Met v then [] else [.leaf (d.complaint v)]

theorem Demand.failures_of_met {d : Demand} {v : Option Value} (h : d.Met v) :
    d.failures v = [] :=
  if_pos h

theorem Demand.failures_of_not_met {d : Demand} {v : Option Value} (h : ¬ d.Met v) :
    d.failures v = [.leaf (d.complaint v)] :=
  if_neg h

theorem check_null (v : Value) : null.check v = Demand.null.failures (some v) := by
  rw [check, Demand.failures]
  refine if_congr ?_ rfl rfl
  cases v <;> simp [Demand.Met, Value.isNull]

theorem check_bool (b : Bool) (v : Value) :
    (bool b).check v = (Demand.bool b).failures (some v) := by
  rw [Demand.failures]
  cases v with
  | bool a =>
      rw [check]
      refine if_congr (by simp [Demand.Met]) rfl ?_
      cases a <;> rfl
  | _ => exact (if_neg (by simp [Demand.Met])).symm

theorem check_string (s : String) (v : Value) :
    (string s).check v = (Demand.string s).failures (some v) := by
  rw [Demand.failures]
  cases v with
  | string t =>
      rw [check]
      exact if_congr (by simp [Demand.Met, @eq_comm _ s]) rfl rfl
  | _ => exact (if_neg (by simp [Demand.Met])).symm

theorem check_number (n : Number) (v : Value) :
    (number n).check v = (Demand.number n).failures (some v) := by
  rw [Demand.failures]
  cases v with
  | number m =>
      rw [check]
      exact if_congr (by simp [Demand.Met, Number.numEq_iff]) rfl rfl
  | _ => exact (if_neg (by simp [Demand.Met])).symm

theorem check_regexp (source : String) (found : String → Bool) (v : Value) :
    (regexp source found).check v = (Demand.regexp source found).failures (some v) := by
  rw [Demand.failures]
  cases v with
  | string s =>
      rw [check]
      exact if_congr (by simp [Demand.Met]) rfl rfl
  | _ => exact (if_neg (by simp [Demand.Met])).symm

theorem check_length (n : Nat) (v : Value) :
    (length n).check v = (Demand.length n).failures (some v) := by
  -- what is said hangs on the length alone, so the cases are those of `lengthOf?`
  have hmet : (Demand.length n).Met (some v) ↔ lengthOf? v = some n := Iff.rfl
  rw [check, Demand.failures, Demand.complaint_length]
  cases h : lengthOf? v with
  | none => exact (if_neg (by simp [hmet, h])).symm
  | some m => exact if_congr (by simp [hmet, h]) rfl rfl

theorem check_elements_of_not_met {ps : List Pattern} {v : Value}
    (h : ¬ (Demand.array ps.length).Met (some v)) :
    (elements ps).check v = [.leaf ((Demand.array ps.length).complaint (some v))] := by
  cases v with
  | array items =>
      rw [check, if_neg fun hlength => h ⟨items, rfl, beq_iff_eq.mp hlength⟩]
      rfl
  | _ => rfl

theorem check_fields_of_not_met {fs : List (String × Option Pattern)} {v : Value}
    (h : ¬ Demand.object.Met (some v)) :
    (fields fs).check v = [.leaf (Demand.object.complaint (some v))] := by
  cases v with
  | object entries => exact absurd ⟨entries, rfl⟩ h
  | _ => rfl

/-! ## Constraints that are broken -/

/-- The leaf for a constraint that is broken. -/
def Constraint.leaf (c : Constraint) (v : Value) : Leaf :=
  ⟨c.place.map Value.Step.text, some (c.demand.complaint (v.at? c.place))⟩

/-- The leaves for those of the constraints that are reachable and violated. -/
def complaints (cs : List Constraint) (v : Value) : List Leaf :=
  (cs.filter fun c => c.Reachable v ∧ c.Violated v).map fun c => c.leaf v

theorem complaints_append (cs ds : List Constraint) (v : Value) :
    complaints (cs ++ ds) v = complaints cs v ++ complaints ds v := by
  rw [complaints, List.filter_append, List.map_append, complaints, complaints]

theorem Constraint.leaf_under {v w : Value} {step : Value.Step} (h : v.step? step = some w)
    (c : Constraint) : (c.under step).leaf v = (c.leaf w).below step.text := by
  simp [leaf, under, Ask.under, Value.at?_cons h, Leaf.below]

theorem complaints_under {v w : Value} {step : Value.Step} (h : v.step? step = some w)
    (cs : List Constraint) :
    complaints (cs.map (Constraint.under step)) v
      = (complaints cs w).map (Leaf.below step.text) := by
  simp only [complaints, List.filter_map, List.map_map, Function.comp_def,
    Constraint.reachable_under h, Constraint.violated_under h, Constraint.leaf_under h]

theorem complaints_guarded_of_met {a : Ask} {v : Value} (h : a.Met v) (cs : List Constraint) :
    complaints (Constraint.guarded a cs) v = complaints cs v := by
  -- the demand itself is not violated, and for the rest it is one that is met
  have hhead : ¬ Constraint.Violated { a with above := [] } v := not_not_intro h
  have hrest (c : Constraint) : (c.behind a).Reachable v ↔ c.Reachable v :=
    (Constraint.reachable_behind a c).trans (and_iff_right h)
  rw [complaints, Constraint.guarded, List.filter_cons_of_neg (by simp [hhead]),
    List.filter_map, List.map_map]
  simp only [Function.comp_def, hrest]
  rfl

theorem complaints_guarded_of_not_met {a : Ask} {v : Value} (h : ¬ a.Met v)
    (cs : List Constraint) :
    complaints (Constraint.guarded a cs) v
      = [⟨a.place.map Value.Step.text, some (a.demand.complaint (v.at? a.place))⟩] := by
  have hhead : Constraint.Reachable { a with above := [] } v
      ∧ Constraint.Violated { a with above := [] } v := ⟨List.forall_mem_nil _, h⟩
  have hrest (c : Constraint) : ¬ (c.behind a).Reachable v := fun hc =>
    h ((Constraint.reachable_behind a c).mp hc).1
  rw [complaints, Constraint.guarded, List.filter_cons_of_pos (by simp [hhead]),
    List.filter_map, List.map_cons]
  simp only [Function.comp_def, hrest, false_and, decide_false, List.filter_false]
  rfl

/-- A demand is reported where it is not met, and what depends on it where it is met. -/
theorem tells_guarded {a : Ask} {v : Value} {cs : List Constraint} {fs : List MatchFailure}
    (met : a.Met v → Tells fs (complaints cs v))
    (unmet : ¬ a.Met v →
      Tells fs [⟨a.place.map Value.Step.text, some (a.demand.complaint (v.at? a.place))⟩]) :
    Tells fs (complaints (Constraint.guarded a cs) v) := by
  by_cases h : a.Met v
  · rw [complaints_guarded_of_met h]
    exact met h
  · rw [complaints_guarded_of_not_met h]
    exact unmet h

theorem tells_failures (d : Demand) (v : Value) :
    Tells (d.failures (some v)) (complaints (Constraint.guarded ⟨[], d⟩ []) v) := by
  refine tells_guarded (fun h => ?_) fun h => ?_
  · exact Demand.failures_of_met h ▸ .nil
  · exact Demand.failures_of_not_met h ▸ .leaf _

/-- The items are those of the value from `index` on, so that the steps to them are counted in
the value. -/
theorem tells_checkItems {ps : List Pattern}
    (ih : ∀ p ∈ ps, ∀ v, Tells (p.check v) (complaints p.constraints v)) {v : Value}
    {index : Nat} {items : List Value} (hstep : ∀ i, v.step? (.item (index + i)) = items[i]?)
    (hlength : items.length = ps.length) :
    Tells (checkItems index ps items) (complaints (itemConstraints index ps) v) := by
  induction ps generalizing index items with
  | nil => exact .nil
  | cons p ps ih' =>
      obtain ⟨hp, hps⟩ := List.forall_mem_cons.mp ih
      cases items with
      | nil => cases hlength
      | cons w items =>
          have hw : v.step? (.item index) = some w := hstep 0
          rw [checkItems, itemConstraints, complaints_append, complaints_under hw]
          refine ((hp w).within (.item index)).append (ih' hps (fun i => ?_) (Nat.succ.inj hlength))
          rw [Nat.add_right_comm]
          exact hstep (i + 1)

theorem met_existence_iff {key : String} {expected : Bool} {entries : Entries Value} :
    Ask.Met ⟨[.field key], .existence expected⟩ (.object entries)
      ↔ entries.contains key = expected := by
  rw [Ask.Met, Value.at?_singleton]
  exact Iff.rfl

/-- The report on a missing field, or on one too many, is that of a broken constraint. -/
theorem tells_presenceFailure {key : String} {expected : Bool} {entries : Entries Value}
    (h : ¬ Ask.Met ⟨[.field key], .existence expected⟩ (.object entries)) :
    Tells [presenceFailure s!".{key}" expected]
      [⟨[(Value.Step.field key).text], some ((Demand.existence expected).complaint
        ((Value.object entries).at? [.field key]))⟩] := by
  have hactual : ((Value.object entries).at? [.field key]).isSome = !expected :=
    Bool.eq_not_of_ne h
  rw [Demand.complaint_existence, hactual]
  exact (Tells.leaf _).within (.field key)

theorem tells_checkFields {fs : List (String × Option Pattern)}
    (ih : ∀ f ∈ fs, ∀ p ∈ f.2, ∀ v, Tells (p.check v) (complaints p.constraints v))
    (entries : Entries Value) :
    Tells (checkFields fs entries) (complaints (fieldConstraints fs) (.object entries)) := by
  induction fs with
  | nil => exact .nil
  | cons f fs ih' =>
      obtain ⟨hf, hfs⟩ := List.forall_mem_cons.mp ih
      obtain ⟨key, _ | p⟩ := f
      · rw [checkFields, fieldConstraints, complaints_append]
        refine .append (tells_guarded (fun hmet => ?_) fun hunmet => ?_) (ih' hfs)
        · have hcontains : entries.contains key = false := met_existence_iff.mp hmet
          rw [hcontains, if_neg Bool.false_ne_true]
          exact .nil
        · have hcontains : entries.contains key = true :=
            Bool.eq_true_of_not_eq_false (mt met_existence_iff.mpr hunmet)
          rw [hcontains, if_pos rfl]
          exact tells_presenceFailure hunmet
      · rw [checkFields, fieldConstraints, complaints_append]
        refine .append (tells_guarded (fun hmet => ?_) fun hunmet => ?_) (ih' hfs)
        · obtain ⟨w, hget⟩ := Option.isSome_iff_exists.mp (met_existence_iff.mp hmet)
          have hw : (Value.object entries).step? (.field key) = some w := hget
          rw [hget, complaints_under hw]
          exact (hf p rfl w).within (.field key)
        · have hget : entries.get? key = none :=
            Option.not_isSome_iff_eq_none.mp (mt met_existence_iff.mpr hunmet)
          rw [hget]
          exact tells_presenceFailure hunmet

theorem tells_check (p : Pattern) (v : Value) : Tells (p.check v) (complaints p.constraints v) := by
  induction p using inductionOn generalizing v with
  | null => exact check_null v ▸ tells_failures _ v
  | bool b => exact check_bool b v ▸ tells_failures _ v
  | string s => exact check_string s v ▸ tells_failures _ v
  | number n => exact check_number n v ▸ tells_failures _ v
  | regexp source found => exact check_regexp source found v ▸ tells_failures _ v
  | length n => exact check_length n v ▸ tells_failures _ v
  | elements ps ih =>
      refine tells_guarded (fun hmet => ?_) fun hunmet => ?_
      · obtain ⟨items, hv, hlength⟩ := hmet
        cases hv
        rw [check, if_pos (beq_iff_eq.mpr hlength)]
        -- the items from the first one on are those of the whole array
        refine tells_checkItems ih (fun i => ?_) hlength
        rw [Nat.zero_add]
        rfl
      · exact check_elements_of_not_met hunmet ▸ .leaf _
  | fields fs ih =>
      refine tells_guarded (fun hmet => ?_) fun hunmet => ?_
      · obtain ⟨entries, hv⟩ := hmet
        cases hv
        rw [check]
        exact tells_checkFields ih entries
      · exact check_fields_of_not_met hunmet ▸ .leaf _
  | all ps ih =>
      rw [check, constraints]
      induction ps with
      | nil => exact .nil
      | cons p ps ih' =>
          obtain ⟨hp, hps⟩ := List.forall_mem_cons.mp ih
          rw [checkAll, partConstraints, complaints_append]
          exact (hp v).append (ih' hps)

/-- What a check reports, against the constraints that the value breaks. -/
structure ReportsExactly (p : Pattern) (v : Value) : Prop where
  /-- There is one leaf for each broken constraint, below the steps to its place. -/
  leaves : leavesAll (p.check v) = (p.broken v).map fun c => c.leaf v
  /-- There are as many leaves as broken constraints. -/
  count : leafCountAll (p.check v) = (p.broken v).length
  /-- The steps to the place of a broken constraint can be taken in the value, all but the last
  one where this is to a field that is missing. -/
  placed : ∀ c ∈ p.broken v, (v.at? c.place.dropLast).isSome = true
    ∧ (v.at? c.place = none ↔ c.demand = .existence true)
  /-- Every node says something or has children, and never both. -/
  proper : ∀ f ∈ p.check v, f.Proper
  /-- There is no report exactly if no constraint is broken. -/
  accepted : p.accepts v = true ↔ p.broken v = []

/-- A check reports all that is wrong, each thing once and at its place. -/
theorem check_reports_exactly (p : Pattern) (v : Value) : ReportsExactly p v := by
  obtain ⟨hproper, hleaves⟩ := tells_check p v
  -- `broken` and `complaints` sort out the constraints alike
  change _ = (p.broken v).map fun c => c.leaf v at hleaves
  refine ⟨hleaves, ?_, fun c hc => at?_of_mem_broken hc, hproper, ?_⟩
  · rw [← length_leavesAll, hleaves, List.length_map]
  · rw [accepts_iff, ← leavesAll_eq_nil_iff, hleaves, List.map_eq_nil_iff]

/-- A field that is missing is named once, whatever was to be in it. -/
example :
    leavesAll ((fields [("a", some (elements [bool true])), ("b", some (elements [null]))]).check
        (.object [("a", .array [.null])]))
      = [⟨[".a", "[0]"], some "expected true, actual: null"⟩,
        ⟨[".b"], some "field existence err, expected: true, actual: false"⟩] := by
  decide

end Pattern

end HttpSuite
