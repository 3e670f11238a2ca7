import HttpSuite.Proofs.OrderedMap
import HttpSuite.RoundTrip.Basic

/-!
# Layers of round trips

A round trip is put on top of another field by field, and there are five rules for the fields. In
each of them something else says nothing: a field that is missing, a text or a list that is empty,
a map without entries. What makes layers a matter of their order alone is the same for all rules
and is kept when they are put together in records, so it is said once, in `Layering`.
-/

namespace HttpSuite

universe u

/-- Things are put on top of each other by `on`, where `nothing` says nothing: how they are
grouped does not matter, what says nothing changes nothing, and nor does what is there already. -/
structure Layering {α : Type u} (on : α → α → α) (nothing : α) : Prop where
  /-- Of three layers any two that are next to each other may be joined first. -/
  assoc : ∀ a b c, on (on a b) c = on a (on b c)
  /-- What says nothing is hidden by what is above it. -/
  nothing_below : ∀ a, on nothing a = a
  /-- What says nothing hides nothing. -/
  nothing_above : ∀ a, on a nothing = a
  /-- A layer on top of itself is that layer. -/
  same : ∀ a, on a a = a

namespace Layering

variable {α : Type u} {on : α → α → α} {nothing : α}

theorem again (h : Layering on nothing) (a b : α) : on (on a b) b = on a b := by
  rw [h.assoc, h.same]

/-- What is not empty replaces what was there. -/
theorem replaceUnless {isNothing : α → Bool} (h : ∀ a, isNothing a = true ↔ a = nothing) :
    Layering (fun below above => if isNothing above then below else above) nothing where
  assoc a b c := by
    cases hc : isNothing c with
    | true => simp
    | false => simp [hc]
  nothing_below a := by
    split
    · next ha => exact ((h a).mp ha).symm
    · rfl
  nothing_above _ := if_pos ((h nothing).mpr rfl)
  same _ := ite_self _

theorem text : Layering (fun below above : String => if above.isEmpty then below else above) "" :=
  replaceUnless fun _ => String.isEmpty_iff

theorem list : Layering (fun below above : List α => if above.isEmpty then below else above) [] :=
  replaceUnless fun _ => List.isEmpty_iff

end Layering

theorem Polling.layering : Layering Polling.patched {} where
  assoc a b c := by simp only [patched, Option.or_assoc]
  nothing_below a := by simp only [patched, Option.or_none]
  nothing_above a := by simp only [patched, Option.none_or]
  same a := by simp only [patched, Option.or_self]

/-- Polling that is missing is another thing than polling that sets nothing: only the first says
nothing in a response. -/
theorem Polling.layering_option : Layering Polling.patchedOption none where
  assoc a b c := by
    cases a with
    | none => cases b <;> cases c <;> rfl
    | some a =>
        cases b with
        | none => cases c <;> rfl
        | some b =>
            cases c with
            | none => rfl
            | some c => exact congrArg some (Polling.layering.assoc a b c)
  nothing_below a := by cases a <;> rfl
  nothing_above a := by cases a <;> rfl
  same a := by
    cases a with
    | none => rfl
    | some a => exact congrArg some (Polling.layering.same a)

theorem RequestLayer.layering : Layering RequestLayer.patched {} where
  assoc a b c := by simp only [patched, Option.or_assoc, OrderedMap.extend_assoc]
  nothing_below a := by simp only [patched, Option.or_none, OrderedMap.empty_extend]
  nothing_above a := by simp only [patched, Option.none_or, OrderedMap.extend_empty]
  same a := by simp only [patched, Option.or_self, OrderedMap.extend_self]

theorem ResponseLayer.layering : Layering ResponseLayer.patched {} where
  assoc a b c := by
    simp only [patched, Option.or_assoc, OrderedMap.extend_assoc, Polling.layering_option.assoc]
  nothing_below a := by
    simp only [patched, Option.or_none, OrderedMap.empty_extend,
      Polling.layering_option.nothing_below]
  nothing_above a := by
    simp only [patched, Option.none_or, OrderedMap.extend_empty,
      Polling.layering_option.nothing_above]
  same a := by
    simp only [patched, Option.or_self, OrderedMap.extend_self, Polling.layering_option.same]

attribute [ext] RoundTrip

namespace RoundTrip

theorem layering : Layering patched {} where
  assoc _ _ _ := RoundTrip.ext (Layering.text.assoc ..) Option.or_assoc.symm
    (RequestLayer.layering.assoc ..) (ResponseLayer.layering.assoc ..) (Layering.list.assoc ..)
  nothing_below _ := RoundTrip.ext (Layering.text.nothing_below _) Option.or_none
    (RequestLayer.layering.nothing_below _) (ResponseLayer.layering.nothing_below _)
    (Layering.list.nothing_below _)
  nothing_above _ := RoundTrip.ext (Layering.text.nothing_above _) Option.none_or
    (RequestLayer.layering.nothing_above _) (ResponseLayer.layering.nothing_above _)
    (Layering.list.nothing_above _)
  same _ := RoundTrip.ext (Layering.text.same _) Option.or_self
    (RequestLayer.layering.same _) (ResponseLayer.layering.same _) (Layering.list.same _)

/-- Layers, the lowest first, in groups that are put together before what is around them. -/
inductive Grouping where
  /-- One layer. -/
  | layer (r : RoundTrip)
  /-- A group on top of another. -/
  | group (below above : Grouping)

namespace Grouping

/-- All layers, the lowest first. -/
def layers : Grouping → List RoundTrip
  | layer r => [r]
  | group below above => below.layers ++ above.layers

/-- What the groups come to. -/
def whole : Grouping → RoundTrip
  | layer r => r
  | group below above => below.whole.patched above.whole

/-- Groups on top of a layer may as well be put on it layer by layer. -/
theorem patched_whole (r : RoundTrip) (groups : Grouping) :
    r.patched groups.whole = groups.layers.foldl patched r := by
  induction groups generalizing r with
  | layer above => rfl
  | group below above ihBelow ihAbove =>
      rw [whole, layers, List.foldl_append, ← ihBelow, ← ihAbove, RoundTrip.layering.assoc]

end Grouping

/-- Layers of round trips are a matter of their order alone. Any two that are next to each other
may be joined first, also with regard to the order of headers; the round trip that says nothing
changes nothing, above or below; a layer that is put on again changes nothing. So however layers
are grouped, they come to what they come to one by one. -/
theorem patched_monoid :
    (∀ a b c : RoundTrip, (a.patched b).patched c = a.patched (b.patched c))
      ∧ (∀ a : RoundTrip, patched {} a = a)
      ∧ (∀ a : RoundTrip, a.patched {} = a)
      ∧ (∀ a b : RoundTrip, (a.patched b).patched b = a.patched b)
      ∧ ∀ groups : Grouping, groups.whole = groups.layers.foldl patched {} := by
  refine ⟨layering.assoc, layering.nothing_below, layering.nothing_above, layering.again, ?_⟩
  intro groups
  rw [← Grouping.patched_whole, layering.nothing_below]

end RoundTrip

end HttpSuite
