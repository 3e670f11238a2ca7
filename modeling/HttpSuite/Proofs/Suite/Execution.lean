import HttpSuite.Proofs.Context.Activation
import HttpSuite.Suite.Execution

/-!
# Single steps of an execution

Activating a context in a plan and finishing one, each taken apart once: what is in the
journal afterwards, and what the contexts remember. What a context remembers is looked up by its
number, so both come down to `getD_set`.
-/

namespace HttpSuite

namespace Plan

variable (plan : Plan) (setup : Setup)

/-- What a context remembers. -/
def memoryOf (memories : List ContextMemory) (number : Nat) : ContextMemory :=
  memories.getD number {}

theorem memoryOf_set (memories : List ContextMemory) (number : Nat) (memory : ContextMemory)
    (other : Nat) :
    memoryOf (memories.set number memory) other
      = if number = other ∧ number < memories.length then memory else memoryOf memories other := by
  unfold memoryOf
  rw [List.getD_eq_getElem?_getD, List.getD_eq_getElem?_getD, List.getElem?_set]
  by_cases h : number = other
  · subst h
    by_cases hlt : number < memories.length
    · simp [hlt]
    · simp [hlt]
  · simp [h]

theorem memoryOf_set_self (memories : List ContextMemory) (number other : Nat) :
    memoryOf (memories.set number (memoryOf memories number)) other
      = memoryOf memories other := by
  rw [memoryOf_set]
  split
  · next h => rw [h.1]
  · rfl

theorem memoryOf_start (journal : Journal) (number : Nat) :
    memoryOf (plan.start journal).memories number = {} := by
  unfold memoryOf start
  rw [List.getD_eq_getElem?_getD, List.getElem?_map]
  cases plan.nodes[number]? <;> rfl

/-- Activating a context either succeeds, and then it remembers that, or it fails and
nothing is remembered. -/
theorem activate_cases (number : Nat) (parent : ActiveContext) (progress : Progress) :
    (∃ a after,
      setup.activation (plan.nodes.getD number default) (memoryOf progress.memories number)
          parent (progress.journal.record (.activating number)) = (.ok a, after)
        ∧ plan.activate setup number parent progress
          = (.ok a.active,
            ⟨progress.memories.set number
                ((memoryOf progress.memories number).afterActivation a),
              (after.record (.prepared a.teardown)).record (.activated number)⟩))
      ∨ ∃ e after,
        setup.activation (plan.nodes.getD number default) (memoryOf progress.memories number)
            parent (progress.journal.record (.activating number)) = (.error e, after)
          ∧ plan.activate setup number parent progress
            = (.error e, ⟨progress.memories.set number (memoryOf progress.memories number),
                after⟩) := by
  rcases hrun : setup.activation (plan.nodes.getD number default)
    (memoryOf progress.memories number) parent (progress.journal.record (.activating number))
    with ⟨result, after⟩
  unfold memoryOf at hrun
  cases result with
  | ok a =>
      refine Or.inl ⟨a, after, rfl, ?_⟩
      unfold activate ContextNode.activate
      simp only [Progress.record, hrun]
      rfl
  | error e =>
      refine Or.inr ⟨e, after, rfl, ?_⟩
      unfold activate ContextNode.activate
      simp only [Progress.record, hrun]
      rfl

end Plan

end HttpSuite
