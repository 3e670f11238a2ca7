import HttpSuite.Proofs.RoundTrip.Run
import HttpSuite.Proofs.Template.Steady

/-!
# What a round trip refers to

A template refers to the variables that its paths begin with, those of arguments included,
and a condition refers besides to the names in its expression that it gives no text itself.
Of the latter only the texts count. Scopes that are alike in this look the same to a round trip
(`RoundTripSpec.SeesAlike`): it decides the same and renders to the same (`runOnce_congr`). The
lemmas in front of that follow the calls of the model, from segments to round trips. Those of
them that are about more than one template ask only that both renderers give each template
the same text (`Renderer.Alike`).
-/

namespace HttpSuite

/-- Both scopes bind the given names alike. -/
def Scope.AgreeOn (names : List String) (a b : Scope) : Prop :=
  ∀ name ∈ names, a.get? name = b.get? name

/-! ## The names -/

/-- The variables that an argument refers to. -/
def ArgumentSource.names : ArgumentSource → List String
  | literal _ => []
  | reference path => (Path.parse path).take 1

/-- The variables that a segment refers to. -/
def Segment.names : Segment → List String
  | text _ => []
  | reference path => (Path.parse path).take 1
  | call _ args => args.flatMap ArgumentSource.names

/-- The variables that a template refers to. -/
def Template.names (t : Template) : List String := t.segments.flatMap Segment.names

/-- The variables that a condition refers to. -/
def ConditionSpec.names (c : ConditionSpec) : List String :=
  c.args.values.flatMap Template.names
    ++ (Condition.namesIn c.expr).filter fun name => !c.args.contains name

/-- The templates of a round trip. -/
def RoundTripSpec.templates (spec : RoundTripSpec) : List Template :=
  spec.request.host.toList ++ spec.request.scheme.toList ++ spec.request.api.toList
    ++ spec.request.headers.values ++ spec.request.body.toList
    ++ spec.response.headers.values ++ spec.response.body.toList
    ++ spec.definitions.flatMap (·.selector)

/-- The names that a condition looks up: those of its expression that it gives no text. -/
def ConditionSpec.lookups (c : ConditionSpec) : List String :=
  (Condition.namesIn c.expr).filter fun name => !c.args.contains name

/-- The variables that the templates of a round trip refer to, those of its condition
included. -/
def RoundTripSpec.heads (spec : RoundTripSpec) : List String :=
  spec.condition.toList.flatMap (fun c => c.args.values.flatMap Template.names)
    ++ spec.templates.flatMap Template.names

/-- The variables that a round trip refers to. -/
def RoundTripSpec.names (spec : RoundTripSpec) : List String :=
  spec.condition.toList.flatMap ConditionSpec.names ++ spec.templates.flatMap Template.names

/-- The variables that the arguments of a presetter refer to. -/
def PresetSpec.names (spec : PresetSpec) : List String :=
  spec.args.values.flatMap Template.names

/-- The variables that the path of an export refers to. The variable that the path leads to is
not among them. -/
def ExportSpec.names (spec : ExportSpec) : List String := spec.selector.flatMap Template.names

/-- The variables that a context refers to. -/
def ContextSpec.names (spec : ContextSpec) : List String :=
  spec.presetters.flatMap PresetSpec.names ++ spec.flow.flatMap RoundTripSpec.names
    ++ spec.validatedFlow.flatMap (fun flow =>
      flow.constructor.flatMap RoundTripSpec.names ++ flow.validator.flatMap RoundTripSpec.names)
    ++ spec.exports.flatMap ExportSpec.names

namespace Scope

variable {names : List String} {a b : Scope}

theorem AgreeOn.mono {fewer : List String} (h : AgreeOn names a b) (hsub : fewer ⊆ names) :
    AgreeOn fewer a b := fun name hname => h name (hsub hname)

theorem AgreeOn.symm (h : AgreeOn names a b) : AgreeOn names b a :=
  fun name hname => (h name hname).symm

theorem AgreeOn.of_mem {α : Type} {f : α → List String} {xs : List α}
    (h : AgreeOn (xs.flatMap f) a b) {x : α} (hx : x ∈ xs) : AgreeOn (f x) a b :=
  h.mono fun _ hname => List.mem_flatMap.mpr ⟨x, hx, hname⟩

theorem agreeOn_append {others : List String} :
    AgreeOn (names ++ others) a b ↔ AgreeOn names a b ∧ AgreeOn others a b := List.forall_mem_append

theorem AgreeOn.insert (h : AgreeOn names a b) (name : String) (v : Value) :
    AgreeOn names (OrderedMap.insert a name v) (OrderedMap.insert b name v) := by
  intro other hother
  rw [OrderedMap.get?_insert, OrderedMap.get?_insert, h other hother]

/-- Scopes that agree on where a path begins agree on where it leads. -/
theorem AgreeOn.select {path : Path} (h : AgreeOn (path.take 1) a b) :
    a.select path = b.select path := by
  cases path with
  | nil => rfl
  | cons name rest =>
      rw [Scope.select, Scope.select, h name (List.mem_cons_self ..)]

end Scope

/-! ## Templates -/

open Scope

variable {functions : FunctionRegistry} {a b : Scope}

theorem ArgumentSource.resolve_congr {arg : ArgumentSource} (h : AgreeOn arg.names a b) :
    arg.resolve a = arg.resolve b := by
  cases arg with
  | literal text => rfl
  | reference path => rw [resolve, resolve, AgreeOn.select h]

theorem Segment.render_congr {segment : Segment} (h : AgreeOn segment.names a b) :
    segment.render functions a = segment.render functions b := by
  cases segment with
  | text s => rfl
  | reference path => rw [render, render, AgreeOn.select h]
  | call function args =>
      have hargs : args.map (ArgumentSource.resolve a) = args.map (ArgumentSource.resolve b) :=
        List.map_congr_left fun arg harg => ArgumentSource.resolve_congr (h.of_mem harg)
      rw [render, render, hargs]

theorem Segment.renderAll_congr {segments : List Segment}
    (h : AgreeOn (segments.flatMap Segment.names) a b) :
    renderAll functions a segments = renderAll functions b segments := by
  induction segments with
  | nil => rfl
  | cons segment rest ih =>
      rw [renderAll, renderAll, render_congr (h.of_mem (List.mem_cons_self ..)), ih]
      exact h.mono fun _ hname => List.mem_append_right _ hname

theorem Template.render_congr {t : Template} (h : AgreeOn t.names a b) :
    t.render functions a = t.render functions b := Segment.renderAll_congr h

namespace Renderer

variable {r r' : Renderer} {templates : List Template}

/-- Both give the templates the same texts, as whatever part of what is rendered. -/
def Alike (templates : List Template) (r r' : Renderer) : Prop :=
  ∀ t ∈ templates, ∀ (parts : List Nat) (field : String),
    (parts.foldl within r).text field t = (parts.foldl within r').text field t

theorem Alike.trans {r'' : Renderer} (h : Alike templates r r') (h' : Alike templates r' r'') :
    Alike templates r r'' :=
  fun t ht parts field => (h t ht parts field).trans (h' t ht parts field)

theorem alike_append {others : List Template} :
    Alike (templates ++ others) r r' ↔ Alike templates r r' ∧ Alike others r r' :=
  List.forall_mem_append

theorem alike_cons {t : Template} :
    Alike (t :: templates) r r' ↔ Alike [t] r r' ∧ Alike templates r r' := by
  change Alike ([t] ++ templates) r r' ↔ _
  exact alike_append

theorem Alike.within (h : Alike templates r r') (part : Nat) :
    Alike templates (r.within part) (r'.within part) := fun t ht parts => h t ht (part :: parts)

theorem within_foldl (parts : List Nat) (r : Renderer) :
    ∃ occasion, parts.foldl Renderer.within r = ⟨r.functions.upon occasion, r.scope⟩ := by
  induction parts generalizing r with
  | nil => exact ⟨r.functions.occasion, rfl⟩
  | cons part rest ih => exact ih (r.within part)

/-- The scopes may differ in what the templates do not refer to, -/
theorem Alike.of_agreeOn (h : AgreeOn (templates.flatMap Template.names) a b) :
    Alike templates ⟨functions, a⟩ ⟨functions, b⟩ := by
  intro t ht parts field
  induction parts generalizing functions with
  | nil =>
      show text ⟨functions, a⟩ field t = text ⟨functions, b⟩ field t
      unfold text
      dsimp only
      rw [Template.render_congr (h.of_mem ht)]
  | cons part rest ih => exact ih

/-- and the occasions in which they are rendered if the functions do not look at them. -/
theorem Alike.of_steadyOn (h : functions.SteadyOn (templates.flatMap Template.called))
    (occasion occasion' : Occasion) (scope : Scope) :
    Alike templates ⟨functions.upon occasion, scope⟩ ⟨functions.upon occasion', scope⟩ := by
  intro t ht parts field
  obtain ⟨first, hfirst⟩ := within_foldl parts ⟨functions.upon occasion, scope⟩
  obtain ⟨second, hsecond⟩ := within_foldl parts ⟨functions.upon occasion', scope⟩
  have hsteady : functions.SteadyOn t.called := h.of_mem ht
  rw [hfirst, hsecond]
  unfold text
  dsimp only
  rw [Template.render_upon (hsteady.upon occasion), Template.render_upon (hsteady.upon occasion'),
    Template.render_upon hsteady, Template.render_upon hsteady]

theorem Alike.of_both (hsteady : functions.SteadyOn (templates.flatMap Template.called))
    (hagree : AgreeOn (templates.flatMap Template.names) a b) (occasion occasion' : Occasion) :
    Alike templates ⟨functions.upon occasion, a⟩ ⟨functions.upon occasion', b⟩ :=
  (Alike.of_steadyOn hsteady occasion occasion' a).trans (.of_agreeOn hagree)

theorem text_congr (field : String) {t : Template} (h : Alike [t] r r') :
    r.text field t = r'.text field t := h t (List.mem_singleton_self t) [] field

theorem text?_congr (field : String) {t : Option Template} (h : Alike t.toList r r') :
    r.text? field t = r'.text? field t := by
  cases t with
  | none => rfl
  | some t => rw [text?, text?, text_congr field h]

theorem entries_congr (field : String) (es : List (String × Template))
    (h : Alike (es.map (·.2)) r r') : r.entries field es = r'.entries field es := by
  induction es with
  | nil => rfl
  | cons e rest ih =>
      obtain ⟨hfirst, hrest⟩ := alike_cons.mp h
      rw [entries, entries, text_congr _ (hfirst.within _), ih hrest]

theorem args_congr (field : String) {templates : OrderedMap Template}
    (h : Alike templates.values r r') : r.args field templates = r'.args field templates := by
  rw [args, args, entries_congr field templates.toList h]

theorem headers_congr (field : String) {templates : OrderedMap Template}
    (h : Alike templates.values r r') :
    r.headers field templates = r'.headers field templates := by
  rw [headers, headers, entries_congr field templates.toList h]

theorem selector_congr (field : String) {path : List Template} (h : Alike path r r') :
    r.selector field path = r'.selector field path := by
  induction path with
  | nil => rfl
  | cons t rest ih =>
      obtain ⟨hfirst, hrest⟩ := alike_cons.mp h
      rw [selector, selector, text_congr field (hfirst.within _), ih hrest]

theorem definitions_congr {specs : List DefinitionSpec}
    (h : Alike (specs.flatMap (·.selector)) r r') : r.definitions specs = r'.definitions specs := by
  induction specs with
  | nil => rfl
  | cons spec rest ih =>
      obtain ⟨hfirst, hrest⟩ := alike_append.mp h
      rw [definitions, definitions, definition, definition, selector_congr _ (hfirst.within _),
        ih hrest]

theorem api_congr (around : Option String) {t : Option Template} (h : Alike t.toList r r') :
    r.api around t = r'.api around t := by
  cases t with
  | none => rfl
  | some t => rw [api, api, text_congr _ h]

theorem roundTrip_congr {spec : RoundTripSpec} (template : RoundTrip)
    (h : Alike spec.templates r r') : r.roundTrip spec template = r'.roundTrip spec template := by
  simp only [RoundTripSpec.templates, alike_append] at h
  obtain ⟨⟨⟨⟨⟨⟨⟨hhost, hscheme⟩, hapi⟩, hheaders⟩, hbody⟩, hexpected⟩, hpattern⟩, hdefinitions⟩ := h
  rw [roundTrip, roundTrip, layer, layer, text?_congr _ (hhost.within 1),
    text?_congr _ (hscheme.within 2), api_congr _ (hapi.within 3),
    headers_congr _ (hheaders.within 4), text?_congr _ (hbody.within 5),
    headers_congr _ (hexpected.within 6), text?_congr _ (hpattern.within 7),
    definitions_congr (hdefinitions.within 8)]

/-! ## Conditions -/

theorem keys_entries {renderer : Renderer} {field : String} {es : List (String × Template)}
    {rendered : List (String × String)} (h : renderer.entries field es = .ok rendered) :
    Entries.keys rendered = Entries.keys es := by
  induction es generalizing rendered with
  | nil =>
      cases h
      rfl
  | cons e rest ih =>
      obtain ⟨s, -, htail⟩ := bind_ok_iff.mp h
      obtain ⟨others, hothers, hrendered⟩ := bind_ok_iff.mp htail
      cases hrendered
      rw [Entries.keys_cons, Entries.keys_cons, ih hothers]

/-- A condition that has been rendered has the same expression and gives texts to the same
names. -/
theorem condition_ok {renderer : Renderer} {spec : ConditionSpec} {c : Condition}
    (h : renderer.condition spec = .ok c) :
    c.expr = spec.expr ∧ ∀ name, name ∈ c.args.keys ↔ name ∈ spec.args.keys := by
  obtain ⟨args, hargs, hc⟩ := bind_ok_iff.mp h
  obtain ⟨rendered, hrendered, hlist⟩ := map_ok_iff.mp hargs
  cases hc
  cases hlist
  refine ⟨rfl, fun name => ?_⟩
  have hkeys := keys_entries hrendered
  rw [show spec.args.keys = Entries.keys spec.args.toList from rfl, ← hkeys]
  exact Entries.mem_keys_extend.trans (by simp)

theorem condition_congr {spec : ConditionSpec} (h : Alike spec.args.values r r') :
    r.condition spec = r'.condition spec := by
  rw [condition, condition, args_congr _ (h.within 0)]

end Renderer

/-- The text that a name stands for in a condition that gives it none: nothing if it is not
bound. -/
def Scope.textOf (scope : Scope) (name : String) : String :=
  ((scope.get? name).map Value.display).getD ""

theorem Condition.bindings_congr {c : Condition}
    (h : ∀ name ∈ namesIn c.expr, name ∉ c.args.keys → a.textOf name = b.textOf name) :
    c.bindings a = c.bindings b := by
  refine List.map_congr_left fun name hname => ?_
  by_cases hmem : name ∈ c.args.keys
  · obtain ⟨s, hs⟩ := OrderedMap.exists_get?_of_mem_keys hmem
    rw [hs]
    rfl
  · have htext := h name hname hmem
    unfold Scope.textOf at htext
    rw [htext]

/-- A round trip finds the same in both scopes: the same values where its templates look, and
the same texts where its condition does. -/
structure RoundTripSpec.SeesAlike (spec : RoundTripSpec) (a b : Scope) : Prop where
  /-- What begins a path of a template has the same value, or none. -/
  values : AgreeOn spec.heads a b
  /-- What the condition looks up has the same text. -/
  texts : ∀ c, spec.condition = some c → ∀ name ∈ c.lookups, a.textOf name = b.textOf name

namespace RoundTripSpec

variable {spec : RoundTripSpec}

theorem SeesAlike.of_agreeOn (h : AgreeOn spec.names a b) : spec.SeesAlike a b := by
  obtain ⟨hcondition, htemplates⟩ := agreeOn_append.mp h
  constructor
  · refine agreeOn_append.mpr ⟨fun name hname => ?_, htemplates⟩
    obtain ⟨c, hc, hin⟩ := List.mem_flatMap.mp hname
    exact (agreeOn_append.mp (hcondition.of_mem hc)).1 name hin
  · intro c hc name hname
    have hin := hcondition.of_mem (x := c) (by simp [hc])
    rw [Scope.textOf, Scope.textOf, (agreeOn_append.mp hin).2 name hname]

/-- In an iteration both scopes have its number besides. -/
theorem SeesAlike.iteration (h : spec.SeesAlike a b) (i : Nat) :
    spec.SeesAlike (Sender.iterationScope a i) (Sender.iterationScope b i) := by
  refine ⟨h.values.insert _ _, fun c hc name hname => ?_⟩
  have htext := h.texts c hc name hname
  unfold Scope.textOf at htext ⊢
  rw [Sender.iterationScope, Sender.iterationScope, OrderedMap.get?_insert,
    OrderedMap.get?_insert]
  split
  · rfl
  · exact htext

end RoundTripSpec

namespace Sender

theorem decide_congr (engine : ConditionEngine) {c : Condition}
    (h : c.bindings a = c.bindings b) : decide engine c a = decide engine c b := by
  unfold decide Condition.notice? Condition.holds
  rw [h]

variable {sender : Sender} {spec : RoundTripSpec}

theorem isDue_congr (h : spec.SeesAlike a b) : sender.isDue spec a = sender.isDue spec b := by
  unfold isDue
  cases hcondition : spec.condition with
  | none => rfl
  | some c =>
      have hargs : AgreeOn (c.args.values.flatMap Template.names) a b := by
        refine h.values.mono fun name hname => List.mem_append_left _ ?_
        rw [hcondition]
        exact List.mem_flatMap.mpr ⟨c, List.mem_cons_self .., hname⟩
      have hrendered : ∀ journal, (sender.renderer a journal).condition c
          = (sender.renderer b journal).condition c :=
        fun journal => Renderer.condition_congr (.of_agreeOn hargs)
      funext journal
      dsimp only
      rw [Action.bind_apply, Action.bind_apply, Action.inView, Action.inView, hrendered]
      cases hcond : (sender.renderer b journal).condition c with
      | error e => rfl
      | ok rendered =>
          obtain ⟨hexpr, hkeys⟩ := Renderer.condition_ok hcond
          refine congrFun (decide_congr _ (Condition.bindings_congr fun name hname hfree => ?_)) _
          refine h.texts c hcondition name (List.mem_filter.mpr ⟨hexpr ▸ hname, ?_⟩)
          rw [hkeys, ← OrderedMap.contains_iff] at hfree
          simpa using hfree

/-! ## Round trips -/

theorem rendered_congr (template : RoundTrip) (h : spec.SeesAlike a b) (journal : Journal) :
    (sender.renderer a journal).roundTrip spec template
      = (sender.renderer b journal).roundTrip spec template :=
  Renderer.roundTrip_congr template (.of_agreeOn (agreeOn_append.mp h.values).2)

theorem runOnce_congr (template : RoundTrip) (h : spec.SeesAlike a b) :
    sender.runOnce spec template a = sender.runOnce spec template b := by
  rw [runOnce, runOnce, isDue_congr h, funext (rendered_congr template h)]

end Sender

end HttpSuite
