import HttpSuite.Proofs.RoundTrip.Turns
import HttpSuite.Proofs.Scope.Combine

/-!
# What a loop collects

Under each name a loop collects the values of its iterations into an array. An iteration that
was left out contributes what its placeholder has, which is null under the names that the round
trip itself defines. What an iteration that was run defines are the names of the rendered round
trip, and these are those of the template if the round trip has none. So the array has an entry
for every iteration, and the entry of an iteration at its place, exactly if the round trip has
definitions of its own or no iteration was left out: `aligned_iff`.
-/

namespace HttpSuite

/-! ## Names that are defined -/

namespace Sender

/-- A turn that is not left out defines all names that it may define. -/
theorem definable_of_runOnce {sender : Sender} {spec : RoundTripSpec} {template : RoundTrip}
    {scope defined : Scope} {before after : Journal}
    (h : sender.runOnce spec template scope before = (.ok (some defined), after)) {name : String} :
    name ∈ defined.keys ↔ name ∈ spec.definable template := by
  refine ⟨fun hname => ?_, fun hname => ?_⟩
  · have hensures := (sender.runOnce_ensures spec template scope before).2 (some defined)
      (congrArg Prod.fst h)
    exact (hensures defined rfl).keys hname
  · have hcases := sender.runOnce_cases spec template scope before
    rw [h] at hcases
    dsimp only at hcases
    cases hcases with
    | @sent send ready _ exchanged _ _ hsend _ hexchange hresult =>
        cases exchanged with
        | error e => cases hresult
        | ok exchanged =>
            cases hresult
            obtain ⟨hr, -, hrequired, -⟩ := toSend_ok hsend
            obtain ⟨response, hcheck⟩ := (sender.exchange_ensures send.roundTrip send.client
              send.request send.requirement ready).2 defined (congrArg Prod.fst hexchange)
            obtain ⟨body, -, hrequirement⟩ := map_ok_iff.mp hrequired
            rw [← Renderer.names_roundTrip hr] at hname
            obtain ⟨d, hd, rfl⟩ := List.mem_map.mp hname
            refine (Requirement.mem_keys_check hcheck).mpr ⟨d, ?_, rfl⟩
            rw [← hrequirement]
            exact hd

theorem get?_placeholder (spec : RoundTripSpec) (name : String) :
    (placeholder spec).get? name
      = if name ∈ spec.definitions.map (·.name) then some .null else none := by
  have hkeys : name ∈ (placeholder spec).keys ↔ name ∈ spec.definitions.map (·.name) := by
    refine (@Entries.mem_keys_extend _ [] _ name).trans ?_
    rw [Entries.keys_nil, Entries.keys, List.map_map]
    simp only [List.not_mem_nil, false_or]
    rfl
  split
  · next hname =>
      obtain ⟨v, hv⟩ := OrderedMap.exists_get?_of_mem_keys (hkeys.mpr hname)
      have hmem := OrderedMap.mem_of_mem_ofList (Entries.mem_of_get? hv)
      obtain ⟨d, -, hd⟩ := List.mem_map.mp hmem
      cases hd
      exact hv
  · next hname => exact OrderedMap.get?_eq_none_iff.mpr fun hmem => hname (hkeys.mp hmem)

/-! ## Arrays of all iterations -/

/-- The entry of an iteration under a name: the value that it defines, and null if it was left
out. -/
def entryOf (name : String) : Option Scope → Value
  | none => .null
  | some defined => (defined.get? name).getD .null

/-- What an iteration contributes to the array of a name. -/
def contribution (spec : RoundTripSpec) (name : String) (p : Option Scope) : Option Value :=
  (p.getD (placeholder spec)).get? name

theorem get?_collect {spec : RoundTripSpec} {produced : List (Option Scope)} {name : String} :
    (collect spec .empty produced).get? name
      = Value.collection (produced.filterMap (contribution spec name)) := by
  have hempty : (OrderedMap.empty : Scope).get? name = Value.collection [] := rfl
  have hcombined := Scope.get?_combined (produced.map (·.getD (placeholder spec))) hempty
  rw [List.foldl_map, List.nil_append, List.filterMap_map] at hcombined
  exact hcombined

/-- Under a name that every executed iteration defines, the contributions are the entries exactly
if the round trip defines it or no iteration was left out. -/
theorem contributions_eq_entries_iff {spec : RoundTripSpec} {produced : List (Option Scope)}
    {name : String} (hdefined : ∀ defined, some defined ∈ produced → name ∈ defined.keys) :
    produced.filterMap (contribution spec name) = produced.map (entryOf name)
      ↔ name ∈ spec.definitions.map (·.name) ∨ none ∉ produced := by
  constructor
  · intro h
    by_contra hneither
    push Not at hneither
    have hlength : (produced.filterMap (contribution spec name)).length = produced.length := by
      rw [h, List.length_map]
    have hsome := List.filterMap_length_eq_length.mp hlength none hneither.2
    unfold contribution at hsome
    rw [Option.getD_none, get?_placeholder, if_neg hneither.1] at hsome
    cases hsome
  · intro h
    rw [← List.filterMap_eq_map]
    refine List.filterMap_congr fun p hp => ?_
    cases p with
    | none =>
        have hname := h.resolve_right (not_not.mpr hp)
        unfold contribution
        rw [Option.getD_none, get?_placeholder, if_pos hname]
        rfl
    | some defined =>
        obtain ⟨v, hv⟩ := OrderedMap.exists_get?_of_mem_keys (hdefined defined hp)
        unfold contribution
        rw [Option.getD_some, hv]
        show some v = some ((defined.get? name).getD .null)
        rw [hv]
        rfl

/-- A turn has produced this. It was left out exactly if its condition does not hold, and else
run. -/
structure Produces (sender : Sender) (spec : RoundTripSpec) (scope : Scope) (turn : Turn)
    (p : Option Scope) : Prop where
  result : turn.result = .ok p
  leftOut_iff : p = none
    ↔ sender.answer spec (scopeAt scope turn.iteration) turn.before = .ok false
  run_iff : (∃ defined, p = some defined)
    ↔ sender.answer spec (scopeAt scope turn.iteration) turn.before = .ok true

theorem produces_of_sendsOnce {sender : Sender} {spec : RoundTripSpec} {template : RoundTrip}
    {scope : Scope} {turn : Turn} (h : sender.SendsOnce spec template scope turn)
    {p : Option Scope} (hresult : turn.result = .ok p) : sender.Produces spec scope turn p := by
  have hleft := h.leftOut_iff
  rw [hresult, Except.ok.injEq] at hleft
  refine ⟨hresult, hleft, ?_, fun htrue => ?_⟩
  · rintro ⟨defined, rfl⟩
    refine (h.sent (by rw [hresult]; nofun) fun e he => ?_).1
    cases hresult.symm.trans he
  · cases p with
    | none => cases htrue.symm.trans (hleft.mp rfl)
    | some defined => exact ⟨defined, rfl⟩

/-- The array of a name in what a loop defines holds what the iterations contribute, in order:
values as they were taken from responses, arrays among them too. It has the entries of all
iterations exactly if the round trip has definitions of its own or no iteration was left out by
its condition. -/
theorem aligned_iff {sender : Sender} {spec : RoundTripSpec} {template : RoundTrip}
    {scope result : Scope} {journal after : Journal} (hloop : 1 ≤ spec.loop)
    (hrun : sender.run spec template scope journal = (.ok result, after)) :
    ∃ turns produced, sender.InTurns spec template scope journal turns (.ok result) after
      ∧ List.Forall₂ (sender.Produces spec scope) turns produced
      ∧ produced.length = spec.loop
      ∧ ∀ defined name, some defined ∈ produced → name ∈ defined.keys →
        (∀ other, some other ∈ produced → name ∈ other.keys)
        ∧ result.get? name = some (.array (produced.filterMap (contribution spec name)))
        ∧ (result.get? name = some (.array (produced.map (entryOf name)))
          ↔ spec.definitions ≠ [] ∨ none ∉ produced) := by
  obtain ⟨turns, hturns⟩ := sender.exists_inTurns spec template scope journal
  rw [hrun] at hturns
  obtain ⟨produced, hproduced, htogether⟩ := map_ok_iff.mp hturns.comesTo.symm
  have hpairs := mapM_ok_iff.mp hproduced
  have hlength : produced.length = spec.loop := by
    have hiterations := congrArg List.length (hturns.complete result rfl)
    rw [RoundTripSpec.iterations, if_neg (by omega), List.length_map, List.length_map,
      List.length_range] at hiterations
    rw [← hpairs.length_eq, hiterations]
  have hdefinable : ∀ defined name, some defined ∈ produced →
      (name ∈ defined.keys ↔ name ∈ spec.definable template) := by
    intro defined name hmem
    obtain ⟨turn, hturn, hresult⟩ := exists_of_mem_mapM hproduced hmem
    exact definable_of_runOnce (hresult ▸ hturns.own turn hturn)
  have hproduces : List.Forall₂ (sender.Produces spec scope) turns produced :=
    ((List.forall₂_and_left turns produced).mpr ⟨hturns.sends, hpairs⟩).imp
      fun _ _ h => produces_of_sendsOnce h.1 h.2
  refine ⟨turns, produced, hturns, hproduces, hlength, fun defined name hmem hname => ?_⟩
  have hall : ∀ other, some other ∈ produced → name ∈ other.keys := fun other hother =>
    (hdefinable other name hother).mpr ((hdefinable defined name hmem).mp hname)
  have hown : name ∈ spec.definitions.map (·.name) ↔ spec.definitions ≠ [] := by
    have hname := (hdefinable defined name hmem).mp hname
    unfold RoundTripSpec.definable at hname
    constructor
    · rintro hnames hnil
      rw [hnil] at hnames
      cases hnames
    · intro hne
      rwa [if_neg (by rwa [List.isEmpty_iff])] at hname
  have harray : result.get? name
      = some (.array (produced.filterMap (contribution spec name))) := by
    have hcontributed : produced.filterMap (contribution spec name) ≠ [] := by
      obtain ⟨v, hv⟩ := OrderedMap.exists_get?_of_mem_keys hname
      exact List.ne_nil_of_mem (List.mem_filterMap.mpr ⟨some defined, hmem, hv⟩)
    rw [← htogether, together, if_neg (by omega), get?_collect]
    cases hvalues : produced.filterMap (contribution spec name) with
    | nil => exact absurd hvalues hcontributed
    | cons v values => rfl
  refine ⟨hall, harray, ?_⟩
  rw [harray, Option.some.injEq, Value.array.injEq, contributions_eq_entries_iff hall, hown]

/-- A service that has nothing to say but that all is well. -/
def agreeable : Service := ⟨fun _ => true, fun _ _ => .answer {}⟩

/-- A loop of two iterations, of which the first is left out. -/
def secondOnly : RoundTripSpec where
  loop := 2
  condition := some { expr := "iterator != \"[0]\"", args := .empty }
  request := { host := some (.literal "localhost"), api := some (.literal "GET /") }

/-- The same loop, which takes the status of the response. -/
def secondOnlyStatus : RoundTripSpec :=
  { secondOnly with definitions := [{ name := "code", origin := .status }] }

/-- A template that takes the status of the response. -/
def statusTemplate : RoundTrip := { definitions := [⟨"code", .status, []⟩] }

theorem aligned_iff_secondOnly :
    1 ≤ secondOnlyStatus.loop
      ∧ ∃ result after turns produced,
        (Sender.plain agreeable).run secondOnlyStatus {} .empty {} = (.ok result, after)
        ∧ (result.get? "code").map Value.display = some "[null,200]"
        ∧ (Sender.plain agreeable).InTurns secondOnlyStatus {} .empty {} turns (.ok result) after
        ∧ List.Forall₂ ((Sender.plain agreeable).Produces secondOnlyStatus .empty) turns produced
        ∧ produced.length = 2
        ∧ ∀ defined name, some defined ∈ produced → name ∈ defined.keys →
          result.get? name = some (.array (produced.map (entryOf name))) := by
  have hvalue : ((Sender.plain agreeable).run secondOnlyStatus {} .empty {}).1.toOption.map
      (fun defined => (defined.get? "code").map Value.display) = some (some "[null,200]") := by
    decide +kernel
  rcases hrun : (Sender.plain agreeable).run secondOnlyStatus {} .empty {} with ⟨r, after⟩
  rw [hrun] at hvalue
  cases r with
  | error e => cases hvalue
  | ok result =>
      obtain ⟨turns, produced, hturns, hpairs, hlength, hall⟩ :=
        aligned_iff (by decide : 1 ≤ secondOnlyStatus.loop) hrun
      refine ⟨by decide, result, after, turns, produced, rfl, Option.some.inj hvalue, hturns,
        hpairs, hlength, fun defined name hmem hname => ?_⟩
      exact (hall defined name hmem hname).2.2.mpr (.inl (by decide))

/-- The array of a name that only the template defines has one entry behind the two iterations of
a loop, the value of the second one. -/
theorem inherited_definition_misaligned :
    secondOnly.loop = 2
      ∧ ((Sender.plain agreeable).run secondOnly statusTemplate .empty {}).1.toOption.map
          (fun defined => (defined.get? "code").map fun v =>
            (v.display, v.items.toOption.map List.length))
        = some (some ("[200]", some 1)) := by
  refine ⟨rfl, ?_⟩
  decide +kernel

end Sender

end HttpSuite
