import HttpSuite.Proofs.OrderedMap
import HttpSuite.Proofs.Template.Grammar
import HttpSuite.Proofs.Value.Path

/-!
# Ways to reach into a value

A template reaches into the value of a variable in three ways: by a reference with a path, by
`select` with an argument and a path, and by `exist`, which tells whether there is something.

A reference follows its path from the scope at once, and `select` follows the first half to get
its argument and the second half from there, so the two come to the same wherever the path is
cut. They differ only in what they make of a path that leads nowhere.

`exist` and `select` follow the same path, with one exception: to `exist` a path that is not
defined is no path at all, and it goes by the variable itself, while `select` finds nothing.
-/

namespace HttpSuite

/-! ### What is registered stays -/

namespace FunctionRegistry

/-- The functions that are always there, and others that were registered on top of them, on any
occasion. -/
inductive Extends (chance : Chance) : FunctionRegistry → Prop where
  | builtins {sampler : Sampler} : Extends chance (builtins chance sampler)
  | register {registry registry' : FunctionRegistry} {name : String} {function : Callable}
      (h : Extends chance registry) (hregister : registry.register name function = .ok registry') :
      Extends chance registry'
  | upon {registry : FunctionRegistry} (h : Extends chance registry) (occasion : Occasion) :
      Extends chance (registry.upon occasion)

theorem get?_register {registry registry' : FunctionRegistry} {name taken : String}
    {function old : Callable} (hregister : registry.register name function = .ok registry')
    (h : registry.functions.get? taken = some old) :
    registry'.functions.get? taken = some old := by
  unfold FunctionRegistry.register at hregister
  split at hregister
  · cases hregister
  · next hfree =>
      cases hregister
      exact OrderedMap.get?_insert_of_free hfree h

theorem Extends.get? {chance : Chance} {registry : FunctionRegistry}
    (hregistry : registry.Extends chance) {name : String} {function : Callable}
    (h : ∀ sampler, (FunctionRegistry.builtins chance sampler).functions.get? name
      = some function) :
    registry.functions.get? name = some function := by
  induction hregistry with
  | builtins => exact h _
  | register _ hregister ih => exact get?_register hregister ih
  | upon _ _ ih => exact ih

theorem Extends.within {chance : Chance} {registry : FunctionRegistry}
    (h : registry.Extends chance) (part : Nat) : (registry.within part).Extends chance :=
  h.upon _

end FunctionRegistry

variable {chance : Chance} {registry : FunctionRegistry} {scope : Scope}

/-! ### Templates of one segment -/

theorem Segment.parse_spells {segment : Segment} {source : String}
    (h : segment.Spells source.toList) :
    ∃ t, Template.parse source = .ok t
      ∧ ∀ functions scope,
        t.render functions scope = segment.render (functions.within 0) scope := by
  have hall : SpellsAll [segment] source.toList :=
    List.append_nil source.toList ▸ .cons h .nil
  obtain ⟨t, ht, hsegments⟩ := parse_spellsAll hall (.singleton segment)
  refine ⟨t, ht, fun functions scope => ?_⟩
  rw [Template.render, hsegments, renderAll, List.length_nil]
  cases segment.render (functions.within 0) scope with
  | error e => rfl
  | ok s => exact congrArg Except.ok String.append_empty

theorem Segment.Spells.isName {path : String} {s : List Char}
    (h : (Segment.reference path).Spells s) : Template.IsName path.toList := by
  cases h with
  | reference _ hname _ => exact hname

/-! ### What is selected -/

namespace ArgumentSource

/-- The value that a selection finds. -/
def selected (scope : Scope) (a s : ArgumentSource) : Option Value :=
  (s.resolve scope).text?.bind (TemplateFunction.selectIn (a.resolve scope))

theorem render_select (hregistry : registry.Extends chance) (a s : ArgumentSource) :
    (Segment.call "select" [a, s]).render registry scope
      = .ok (((selected scope a s).map Value.display).getD "") := by
  have hselect : registry.functions.get? "select" = some (.always TemplateFunction.select) :=
    hregistry.get? fun _ => rfl
  rw [Segment.render, FunctionRegistry.call, hselect]
  rfl

/-- Whether the path that is the text of the second argument leads from the first to a value. -/
def Reaches (scope : Scope) (a s : ArgumentSource) (v : Value) : Prop :=
  ∃ w path, (a.resolve scope).value? = some w ∧ (s.resolve scope).text? = some path
    ∧ w.select (Path.parse path) = .ok v

/-- Whether an argument stands for anything. -/
def Defined (scope : Scope) (a : ArgumentSource) : Prop := (a.resolve scope).text? ≠ none

/-- Whether an argument stands for something other than null. -/
def Present (scope : Scope) (a : ArgumentSource) : Prop :=
  ∃ v, (a.resolve scope).value? = some v ∧ v ≠ .null

theorem selected_eq_some_iff {a s : ArgumentSource} {v : Value} :
    selected scope a s = some v ↔ Reaches scope a s v := by
  simp only [selected, TemplateFunction.selectIn, Option.bind_eq_some_iff, toOption_eq_some_iff,
    Reaches]
  grind

theorem selected_literal (x q : String) :
    selected scope (.reference x) (.literal q)
      = ((scope.select (Path.parse x)).bind fun v => v.select (Path.parse q)).toOption := by
  show (scope.select (Path.parse x)).toOption.bind (fun v => (v.select (Path.parse q)).toOption) = _
  cases scope.select (Path.parse x) <;> rfl

end ArgumentSource

/-! ### A path that is cut in two -/

theorem Path.parse_ne_nil_of_isName {x q : String} (h : Template.IsName (x ++ "." ++ q).toList) :
    parse x ≠ [] := by
  rw [String.toList_append, String.toList_append] at h
  cases hx : x.toList with
  | nil =>
      rw [hx] at h
      exact absurd h.1 (by decide +kernel)
  | cons c rest =>
      rw [hx] at h
      have hstart : Template.isNameStart c = true := h.1
      refine parse_ne_nil hx ?_
        (Template.isWhitespace_of_isNameChar (Template.isNameChar_of_isNameStart hstart))
      by_contra hsep
      simp only [separates, Bool.not_eq_false, Bool.or_eq_true, beq_iff_eq] at hsep
      rcases hsep with rfl | rfl <;> exact absurd hstart (by decide +kernel)

theorem Scope.select_cut (scope : Scope) {x q : String}
    (h : Template.IsName (x ++ "." ++ q).toList) :
    scope.select (Path.parse (x ++ "." ++ q))
      = (scope.select (Path.parse x)).bind fun v => v.select (Path.parse q) := by
  have hparse : Path.parse (x ++ "." ++ q) = Path.parse x ++ Path.parse q :=
    Path.parse_split (c := '.') rfl (by simp)
  rw [hparse, scope.select_append (Path.parse_ne_nil_of_isName h)]

/-- A reference and a selection from its first half come to the same wherever the path is cut,
except that a selection of what is not there is empty. For the reference to be written the first
half has to be a name, and the second to consist of characters of names. -/
theorem Template.select_agrees (hregistry : registry.Extends chance) (scope : Scope)
    {x q reference selection : String}
    (hreference : (Segment.reference (x ++ "." ++ q)).Spells reference.toList)
    (hselection : (Segment.call "select" [.reference x, .literal q]).Spells selection.toList) :
    ∃ t u, parse reference = .ok t ∧ parse selection = .ok u
      ∧ (∀ s, t.render registry scope = .ok s → u.render registry scope = .ok s)
      ∧ ∀ e, t.render registry scope = .error e →
        (∃ fault, e = .unresolved (x ++ "." ++ q) fault) ∧ u.render registry scope = .ok "" := by
  obtain ⟨t, ht, hrender⟩ := Segment.parse_spells hreference
  obtain ⟨u, hu, hselect⟩ := Segment.parse_spells hselection
  have hcut := scope.select_cut hreference.isName
  refine ⟨t, u, ht, hu, ?_⟩
  rw [hrender, hselect, ArgumentSource.render_select (hregistry.within 0),
    ArgumentSource.selected_literal, ← hcut, Segment.render]
  cases scope.select (Path.parse (x ++ "." ++ q)) with
  | error fault =>
      refine ⟨nofun, ?_⟩
      rintro e ⟨⟩
      exact ⟨⟨fault, rfl⟩, rfl⟩
  | ok v =>
      refine ⟨?_, nofun⟩
      rintro s ⟨⟩
      rfl

/-- A user with two rows, and the word for them. -/
def userRows : Scope :=
  Scope.ofFields
    [("user", .object [("rows", .array [.array [.ofNat 7, .ofNat 8], .array []])]),
      ("field", .string "rows")]

/-- What a text is rendered to for that user. -/
def renderedForUser (source : String) : Except TemplateError String :=
  (Template.parse source).bind fun t => t.render (.builtins default) userRows

theorem renderedForUser_eq {source : String} {t : Template}
    (h : Template.parse source = .ok t) :
    renderedForUser source = t.render (.builtins default) userRows := by
  rw [renderedForUser, h]
  rfl

/-- The length of the first row, behind an index that is glued to a key, and that of a row that
is not there, behind an index of its own. -/
theorem Template.select_agrees_rows :
    (∃ t u, parse "%\x7buser.rows[0].#\x7d" = .ok t
      ∧ parse "%\x7bselect(user.rows[0], \x60#\x60)\x7d" = .ok u
      ∧ t.render (.builtins default) userRows = .ok "2"
      ∧ u.render (.builtins default) userRows = .ok "2")
    ∧ ∃ t u, parse "%\x7buser.rows.[2].#\x7d" = .ok t
      ∧ parse "%\x7bselect(user, \x60rows.[2].#\x60)\x7d" = .ok u
      ∧ t.render (.builtins default) userRows
        = .error (.unresolved "user.rows.[2].#" (.outOfRange 2 2))
      ∧ u.render (.builtins default) userRows = .ok "" := by
  constructor
  · have hreference : (Segment.reference ("user.rows[0]" ++ "." ++ "#")).Spells
        "%\x7buser.rows[0].#\x7d".toList :=
      (.plain (by decide +kernel) : (Segment.reference "user.rows[0].#").Spells _)
    have hselection : (Segment.call "select" [.reference "user.rows[0]", .literal "#"]).Spells
        "%\x7bselect(user.rows[0], \x60#\x60)\x7d".toList :=
      .pair (by decide +kernel) (.reference (by decide +kernel)) (.literal (by decide))
    obtain ⟨t, u, ht, hu, hok, -⟩ :=
      select_agrees (.builtins : (FunctionRegistry.builtins default).Extends default) userRows
        hreference hselection
    have hrendered : t.render (.builtins default) userRows = .ok "2" := by
      rw [← renderedForUser_eq ht]
      decide +kernel
    exact ⟨t, u, ht, hu, hrendered, hok _ hrendered⟩
  · have hreference : (Segment.reference ("user" ++ "." ++ "rows.[2].#")).Spells
        "%\x7buser.rows.[2].#\x7d".toList :=
      (.plain (by decide +kernel) : (Segment.reference "user.rows.[2].#").Spells _)
    have hselection : (Segment.call "select" [.reference "user", .literal "rows.[2].#"]).Spells
        "%\x7bselect(user, \x60rows.[2].#\x60)\x7d".toList :=
      .pair (by decide +kernel) (.reference (by decide +kernel)) (.literal (by decide))
    obtain ⟨t, u, ht, hu, -, herror⟩ :=
      select_agrees (.builtins : (FunctionRegistry.builtins default).Extends default) userRows
        hreference hselection
    have hrendered : t.render (.builtins default) userRows
        = .error (.unresolved "user.rows.[2].#" (.outOfRange 2 2)) := by
      rw [← renderedForUser_eq ht]
      decide +kernel
    exact ⟨t, u, ht, hu, hrendered, (herror _ hrendered).2⟩

/-! ### Whether there is something -/

theorem Value.any_not_null {found : Option Value} :
    (found.any fun v => !v.isNull) = true ↔ ∃ v, found = some v ∧ v ≠ .null := by
  cases found with
  | none => simp
  | some v => cases v <;> simp [isNull]

namespace ArgumentSource

variable {a s : ArgumentSource}

/-- The value that is asked for: a path that is not defined is no path. -/
def asked (scope : Scope) (a s : ArgumentSource) : Option Value :=
  match (s.resolve scope).text? with
  | some path => TemplateFunction.selectIn (a.resolve scope) path
  | none => (a.resolve scope).value?

theorem render_exist (hregistry : registry.Extends chance) (a s : ArgumentSource) :
    (Segment.call "exist" [a, s]).render registry scope
      = .ok (if (asked scope a s).any fun v => !v.isNull then "true" else "false") := by
  have hexist : registry.functions.get? "exist" = some (.always TemplateFunction.exist) :=
    hregistry.get? fun _ => rfl
  rw [Segment.render, FunctionRegistry.call, hexist]
  rfl

theorem Reaches.defined {v : Value} (h : a.Reaches scope s v) : s.Defined scope := by
  obtain ⟨w, path, -, hpath, -⟩ := h
  exact Option.ne_none_iff_exists'.mpr ⟨path, hpath⟩

theorem asked_of_defined (h : s.Defined scope) : asked scope a s = selected scope a s := by
  obtain ⟨path, hpath⟩ := Option.ne_none_iff_exists'.mp h
  rw [asked, selected, hpath, Option.bind_some]

theorem asked_of_not_defined (h : ¬s.Defined scope) :
    asked scope a s = (a.resolve scope).value? := by
  rw [asked, not_not.mp h]

theorem render_exist_eq_true_iff (hregistry : registry.Extends chance) :
    (Segment.call "exist" [a, s]).render registry scope = .ok "true"
      ↔ (∃ v, a.Reaches scope s v ∧ v ≠ .null) ∨ (¬s.Defined scope ∧ a.Present scope) := by
  have hword : (Segment.call "exist" [a, s]).render registry scope = .ok "true"
      ↔ ∃ v, asked scope a s = some v ∧ v ≠ .null := by
    rw [render_exist hregistry, ← Value.any_not_null]
    split <;> simp_all
  rw [hword]
  by_cases h : s.Defined scope
  · simp only [asked_of_defined h, selected_eq_some_iff, h, not_true_eq_false, false_and, or_false]
  · have hnothing : ∀ v, ¬a.Reaches scope s v := fun v hv => h hv.defined
    simp only [asked_of_not_defined h, h, hnothing, not_false_eq_true, true_and, false_and,
      exists_false, false_or, Present]

end ArgumentSource

/-- What `exist` says is whether `select` finds something other than null, if and only if the
path is defined or there is nothing to follow it from. -/
theorem Template.exist_agrees_iff (hregistry : registry.Extends chance) (scope : Scope)
    {a s : ArgumentSource} {existence selection : String}
    (hexistence : (Segment.call "exist" [a, s]).Spells existence.toList)
    (hselection : (Segment.call "select" [a, s]).Spells selection.toList) :
    ∃ t u, parse existence = .ok t ∧ parse selection = .ok u
      ∧ (∀ v, a.Reaches scope s v → u.render registry scope = .ok v.display)
      ∧ ((∀ v, ¬a.Reaches scope s v) → u.render registry scope = .ok "")
      ∧ (t.render registry scope = .ok "true" ∨ t.render registry scope = .ok "false")
      ∧ ((t.render registry scope = .ok "true" ↔ ∃ v, a.Reaches scope s v ∧ v ≠ .null)
        ↔ s.Defined scope ∨ ¬a.Present scope) := by
  obtain ⟨t, ht, hexist⟩ := Segment.parse_spells hexistence
  obtain ⟨u, hu, hselect⟩ := Segment.parse_spells hselection
  refine ⟨t, u, ht, hu, ?_, ?_, ?_, ?_⟩
  · intro v hv
    rw [hselect, ArgumentSource.render_select (hregistry.within 0),
      ArgumentSource.selected_eq_some_iff.mpr hv]
    rfl
  · intro hnothing
    have hnone : ArgumentSource.selected scope a s = none :=
      Option.eq_none_iff_forall_ne_some.mpr fun v hv =>
        hnothing v (ArgumentSource.selected_eq_some_iff.mp hv)
    rw [hselect, ArgumentSource.render_select (hregistry.within 0), hnone]
    rfl
  · rw [hexist, ArgumentSource.render_exist (hregistry.within 0)]
    split
    · exact Or.inl rfl
    · exact Or.inr rfl
  · rw [hexist, ArgumentSource.render_exist_eq_true_iff (hregistry.within 0)]
    by_cases h : s.Defined scope
    · simp only [h, not_true_eq_false, false_and, or_false, true_or]
    · have hnothing : ∀ v, ¬a.Reaches scope s v := fun v hv => h hv.defined
      simp only [h, hnothing, not_false_eq_true, true_and, false_and, exists_false, false_or,
        iff_false]

/-- A path that is in a variable. -/
theorem Template.exist_agrees_iff_field :
    ∃ t u, parse "%\x7bexist(user, field)\x7d" = .ok t
      ∧ parse "%\x7bselect(user, field)\x7d" = .ok u
      ∧ t.render (.builtins default) userRows = .ok "true"
      ∧ u.render (.builtins default) userRows = .ok "[[7,8],[]]" := by
  have hexistence : (Segment.call "exist" [.reference "user", .reference "field"]).Spells
      "%\x7bexist(user, field)\x7d".toList :=
    .pair (by decide +kernel) (.reference (by decide +kernel)) (.reference (by decide +kernel))
  have hselection : (Segment.call "select" [.reference "user", .reference "field"]).Spells
      "%\x7bselect(user, field)\x7d".toList :=
    .pair (by decide +kernel) (.reference (by decide +kernel)) (.reference (by decide +kernel))
  obtain ⟨t, u, ht, hu, hfound, -, -, hiff⟩ :=
    exist_agrees_iff (.builtins : (FunctionRegistry.builtins default).Extends default) userRows
      hexistence hselection
  have hrows : (ArgumentSource.reference "user").Reaches userRows (.reference "field")
      (.array [.array [.ofNat 7, .ofNat 8], .array []]) :=
    ⟨_, "rows", rfl, rfl, rfl⟩
  exact ⟨t, u, ht, hu, (hiff.mpr (Or.inl hrows.defined)).mpr ⟨_, hrows, nofun⟩, hfound _ hrows⟩

/-- There is a user, and nothing says where to look: `exist` finds it, and `select` nothing. -/
theorem Template.undefined_path_ignored :
    renderedForUser "%\x7bexist(user, ghost)\x7d" = .ok "true"
      ∧ renderedForUser "%\x7bselect(user, ghost)\x7d" = .ok ""
      ∧ ∀ v, ¬(ArgumentSource.reference "user").Reaches userRows (.reference "ghost") v := by
  refine ⟨by decide +kernel, by decide +kernel, ?_⟩
  rintro v ⟨w, path, -, hpath, -⟩
  cases hpath

end HttpSuite
