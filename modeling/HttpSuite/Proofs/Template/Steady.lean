import HttpSuite.Template.Basic

/-!
# Functions that are the same on all occasions

Whatever a template calls is called on an occasion, which tells when that is and where in
what is rendered. Most functions do not look at it: they are `Steady`. Only the functions
that a template calls count, so a template that calls no others is rendered to the same on
every occasion, even if the registry has functions that draw something new each time
(`Segment.render_upon`).
-/

namespace HttpSuite

/-- What can be called is the same function on all occasions. -/
def Callable.Steady (callable : Callable) : Prop :=
  ∀ occasion occasion', callable.upon occasion = callable.upon occasion'

theorem Callable.Steady.always (function : TemplateFunction) : (always function).Steady :=
  fun _ _ => rfl

/-- What is registered under the given names is the same on all occasions. -/
def FunctionRegistry.SteadyOn (functions : FunctionRegistry) (names : List String) : Prop :=
  ∀ name ∈ names, ∀ callable, functions.functions.get? name = some callable → callable.Steady

namespace FunctionRegistry

variable {functions : FunctionRegistry} {names : List String}

theorem SteadyOn.mono {fewer : List String} (h : functions.SteadyOn names)
    (hsub : fewer ⊆ names) : functions.SteadyOn fewer := fun name hname => h name (hsub hname)

theorem SteadyOn.of_eq_nil (h : names = []) : functions.SteadyOn names := by
  rw [h]
  exact List.forall_mem_nil _

theorem SteadyOn.of_mem {α : Type} {f : α → List String} {xs : List α}
    (h : functions.SteadyOn (xs.flatMap f)) {x : α} (hx : x ∈ xs) : functions.SteadyOn (f x) :=
  h.mono fun _ hname => List.mem_flatMap.mpr ⟨x, hx, hname⟩

theorem steadyOn_append {others : List String} :
    functions.SteadyOn (names ++ others)
      ↔ functions.SteadyOn names ∧ functions.SteadyOn others := List.forall_mem_append

theorem SteadyOn.upon (h : functions.SteadyOn names) (occasion : Occasion) :
    (functions.upon occasion).SteadyOn names := h

/-- A function that is the same on all occasions answers the same on all of them. -/
theorem call_upon {name : String} (h : functions.SteadyOn [name]) (occasion : Occasion)
    (args : List Argument) :
    (functions.upon occasion).call name args = functions.call name args := by
  unfold call upon
  dsimp only
  cases hget : functions.functions.get? name with
  | none => rfl
  | some callable =>
      exact congrFun (h name (List.mem_singleton_self _) callable hget _ _) args

/-- Of the functions that are always there these do not look at the occasion. -/
theorem steadyOn_builtins (chance : Chance) (sampler : Sampler) :
    (builtins chance sampler).SteadyOn ["exist", "select", "len"] := by
  intro name hname callable hget
  simp only [List.mem_cons, List.not_mem_nil, or_false] at hname
  rcases hname with rfl | rfl | rfl <;>
    · cases hget
      exact Callable.Steady.always _

end FunctionRegistry

/-- The functions that a segment calls. -/
def Segment.called : Segment → List String
  | text _ => []
  | reference _ => []
  | call function _ => [function]

/-- The functions that a template calls. -/
def Template.called (t : Template) : List String := t.segments.flatMap Segment.called

variable {functions : FunctionRegistry}

/-- A segment that calls no function but such that are the same on all occasions stands for the
same on all of them. -/
theorem Segment.render_upon {segment : Segment} (h : functions.SteadyOn segment.called)
    (occasion : Occasion) (scope : Scope) :
    segment.render (functions.upon occasion) scope = segment.render functions scope := by
  cases segment with
  | text s => rfl
  | reference path => rfl
  | call function args => exact FunctionRegistry.call_upon h occasion _

theorem Segment.renderAll_upon {segments : List Segment}
    (h : functions.SteadyOn (segments.flatMap Segment.called)) (occasion : Occasion)
    (scope : Scope) :
    renderAll (functions.upon occasion) scope segments = renderAll functions scope segments := by
  induction segments with
  | nil => rfl
  | cons segment rest ih =>
      obtain ⟨hsegment, hrest⟩ := FunctionRegistry.steadyOn_append.mp h
      rw [renderAll, renderAll, ih hrest]
      unfold FunctionRegistry.within
      rw [render_upon (hsegment.upon occasion), render_upon hsegment, render_upon hsegment]

theorem Template.render_upon {t : Template} (h : functions.SteadyOn t.called)
    (occasion : Occasion) (scope : Scope) :
    t.render (functions.upon occasion) scope = t.render functions scope :=
  Segment.renderAll_upon h occasion scope

end HttpSuite
