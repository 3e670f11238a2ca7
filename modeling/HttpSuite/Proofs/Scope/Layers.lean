import HttpSuite.Proofs.RoundTrip.Mentions
import HttpSuite.Proofs.Scope.DeepMerge

/-!
# Layers of definitions

The variables of a flow are those it begins with and, on top of them, what one round trip
after the other defines. A variable depends on the layers that define it and on nothing else
(`get?_layered`), so scopes that differ in some variables only still do so when the same layers
are put on both.

If what the layers came to is remembered, and the last of them are put on it again, then it
stays as it is: `get?_layered_again`.
-/

namespace HttpSuite

namespace Scope

/-- Both scopes bind alike what is not among the names. -/
def AgreeOff (X : String → Prop) (a b : Scope) : Prop :=
  ∀ name, ¬ X name → a.get? name = b.get? name

/-- Definitions put on top of each other. -/
def layered (ds : List Scope) (vars : Scope) : Scope := ds.foldl (mergeSource .deepOverwrite) vars

/-- What a variable is defined as, from the lowest layer on. -/
def valuesOf (ds : List Scope) (name : String) : List Value := ds.filterMap (·.get? name)

variable {X : String → Prop} {a b : Scope} {name : String}

theorem AgreeOff.on {names : List String} (h : AgreeOff X a b) (hnames : ∀ name ∈ names, ¬ X name) :
    AgreeOn names a b := fun name hname => h name (hnames name hname)

theorem layered_append (ds es : List Scope) (vars : Scope) :
    layered (ds ++ es) vars = layered es (layered ds vars) := List.foldl_append ..

theorem valuesOf_append (ds es : List Scope) (name : String) :
    valuesOf (ds ++ es) name = valuesOf ds name ++ valuesOf es name := List.filterMap_append ..

theorem valuesOf_eq_nil {ds : List Scope} (h : ∀ d ∈ ds, name ∉ d.keys) :
    valuesOf ds name = [] :=
  List.filterMap_eq_nil_iff.mpr fun d hd => OrderedMap.get?_eq_none_iff.mpr (h d hd)

theorem distinct_of_mem_valuesOf {ds : List Scope} (h : ∀ d ∈ ds, d.Distinct) :
    ∀ v ∈ valuesOf ds name, v.Distinct := by
  intro v hv
  obtain ⟨d, hd, hget⟩ := List.mem_filterMap.mp hv
  exact h d hd name v hget

/-- A variable that layers define is their values on top of what it was. -/
theorem get?_layered (ds : List Scope) (vars : Scope) (name : String) :
    (layered ds vars).get? name
      = if valuesOf ds name = [] then vars.get? name
        else some (Value.overlay (valuesOf ds name) ((vars.get? name).getD .null)) := by
  induction ds generalizing vars with
  | nil => rfl
  | cons d ds ih =>
      rw [show layered (d :: ds) vars = layered ds (mergeSource .deepOverwrite vars d) from rfl, ih,
        get?_mergeSource]
      cases hget : d.get? name with
      | none =>
          rw [show valuesOf (d :: ds) name = valuesOf ds name from List.filterMap_cons_none hget]
      | some v =>
          rw [show valuesOf (d :: ds) name = v :: valuesOf ds name from
            List.filterMap_cons_some hget, if_neg (List.cons_ne_nil _ _)]
          dsimp only
          rw [MergePolicy.joined_deepOverwrite, Value.overlay_cons, Option.getD_some]
          split
          · next hempty => rw [hempty, Value.overlay_nil]
          · rfl

/-- Layers that define a variable alike come to the same. -/
theorem get?_layered_congr {ds es : List Scope} (hvalues : valuesOf ds name = valuesOf es name)
    (hbase : a.get? name = b.get? name) :
    (layered ds a).get? name = (layered es b).get? name := by
  rw [get?_layered, get?_layered, hvalues, hbase]

theorem AgreeOff.layered (h : AgreeOff X a b) (ds : List Scope) :
    AgreeOff X (layered ds a) (layered ds b) :=
  fun name hname => get?_layered_congr rfl (h name hname)

/-- The last layers change nothing in a variable that is already what all layers made of
it. -/
theorem get?_layered_again {all ds : List Scope} {pre : List Value} {v : Value}
    (hdistinct : ∀ d ∈ all, d.Distinct) (hvalues : valuesOf all name = pre ++ valuesOf ds name)
    (hbase : a.get? name = none) (hall : (layered all a).get? name = some v)
    (hagain : b.get? name = some v) : (layered ds b).get? name = some v := by
  have hvs : ∀ w ∈ valuesOf all name, w.Distinct := distinct_of_mem_valuesOf hdistinct
  rw [hvalues] at hvs
  obtain ⟨hpre, hds⟩ := List.forall_mem_append.mp hvs
  rw [get?_layered, hbase] at hall
  rw [get?_layered, hagain, Option.getD_some]
  split at hall
  · cases hall
  · rw [hvalues, Value.overlay_append, Option.getD_none] at hall
    cases hall
    split
    · rfl
    · rw [Value.overlay_overlay hds (Value.distinct_null.overlay hpre)]

end Scope

end HttpSuite
