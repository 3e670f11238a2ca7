import HttpSuite.Proofs.Journal
import HttpSuite.Proofs.OrderedMap
import HttpSuite.RoundTrip.Requirement

/-!
# Checking a response is all or nothing

A round trip expects things of a response and then takes variables from it. Either all that it
expects holds and every definition has a value, and then every name is bound to what its last
definition selects; or there are no variables, and the report has something to say about each
expectation that fails.

The body is read at most once. Whether it was read for the pattern or is read for the first
definition that needs it makes no difference, because what is handed on from one definition to
the next is always what the body says: `extract_spec`. With that, taking all variables is a list
of values beside the list of definitions.
-/

namespace HttpSuite

namespace Response

/-- A header has a value, whatever the case of its name. Should several names differ in their
case only, it is the value of the first. -/
def HasHeader (response : Response) (name value : String) : Prop :=
  ∃ before key after, response.headers.toList = before ++ (key, value) :: after
    ∧ Text.eqIgnoringCase key name = true
    ∧ ∀ e ∈ before, Text.eqIgnoringCase e.1 name = false

theorem header?_eq_some_iff {response : Response} {name value : String} :
    response.header? name = some value ↔ response.HasHeader name value := by
  unfold header? Http.findHeader? HasHeader
  rw [Option.map_eq_some_iff]
  constructor
  · rintro ⟨⟨key, _⟩, hfind, rfl⟩
    obtain ⟨hkey, before, after, hsplit, hbefore⟩ := List.find?_eq_some_iff_append.mp hfind
    exact ⟨before, key, after, hsplit, hkey, fun e he => by simpa using hbefore e he⟩
  · rintro ⟨before, key, after, hsplit, hkey, hbefore⟩
    refine ⟨(key, value), List.find?_eq_some_iff_append.mpr ⟨hkey, before, after, hsplit, ?_⟩, rfl⟩
    exact fun e he => by simp [hbefore e he]

/-- The value of a header, where one that is missing counts as empty. -/
def HeaderIs (response : Response) (name value : String) : Prop :=
  response.HasHeader name value ∨ value = "" ∧ ∀ other, ¬ response.HasHeader name other

theorem headerIs_iff {response : Response} {name value : String} :
    response.HeaderIs name value ↔ (response.header? name).getD "" = value := by
  unfold HeaderIs
  simp only [← header?_eq_some_iff]
  cases response.header? name with
  | none => simp [eq_comm]
  | some actual => simp

end Response

/-- The value that a definition takes from a response. -/
inductive Selects (response : Response) : Definition → Value → Prop
  | status {d : Definition} (origin : d.origin = .status) :
      Selects response d (.ofNat response.status)
  | header {d : Definition} {name value : String} (origin : d.origin = .header)
      (selector : d.selector = [name]) (found : response.HasHeader name value) :
      Selects response d (.string value)
  | body {d : Definition} {body value : Value} (origin : d.origin = .body)
      (read : response.json? = some body) (selected : body.select d.selector = .ok value) :
      Selects response d value

/-- Something that a round trip expects of a response. -/
inductive Clause where
  /-- A status. -/
  | status (code : Nat)
  /-- A value of a header. -/
  | header (name value : String)
  /-- A body without bytes. -/
  | emptyBody
  /-- A body that is JSON and that a pattern accepts. -/
  | body (pattern : String)

/-- What the text of a pattern expects of a body. -/
def Clause.ofBody (text : String) : Clause := if text = "" then .emptyBody else .body text

/-- All that a round trip expects of a response. -/
def RoundTrip.clauses (r : RoundTrip) : List Clause :=
  r.response.statusCode.toList.map .status
    ++ r.response.headers.toList.map (fun e => .header e.1 e.2)
    ++ r.response.body.toList.map .ofBody

namespace Clause

/-- The response is as expected. -/
def Holds (engine : RegexEngine) (response : Response) : Clause → Prop
  | status code => response.status = code
  | header name value => response.HeaderIs name value
  | emptyBody => response.body = []
  | body text =>
    ∃ p v, Pattern.ofJson text engine = .ok p ∧ response.json? = some v ∧ p.accepts v = true

/-- What a report says of an expectation that fails. -/
inductive Faults (engine : RegexEngine) (response : Response) :
    Clause → MatchFailure → Prop
  | status {code : Nat} (h : response.status ≠ code) :
      Faults engine response (.status code)
        (.leaf s!"status code is not matched, expected: {code}, actual: {response.status}")
  | header {name value actual : String} (h : actual ≠ value)
      (found : response.HeaderIs name actual) :
      Faults engine response (.header name value)
        (.leaf s!"response header {name} is not matched, expected: {value}, actual: {actual}")
  | emptyBody (h : response.body ≠ []) :
      Faults engine response .emptyBody
        (.leaf s!"body should be empty, actual: {response.bodyText}")
  | notJson {text : String} (h : response.json? = none) :
      Faults engine response (.body text)
        (.leaf (s!"can't unmarshal body({response.bodyText}) to json, "
          ++ "only json Content-Type is supported"))
  | mismatch {text : String} {p : Pattern} {v : Value}
      (pattern : Pattern.ofJson text engine = .ok p) (json : response.json? = some v)
      (h : p.check v ≠ []) :
      Faults engine response (.body text) (.nested "can't match response body:" (p.check v))

/-- A part of a report is that of a clause: nothing if the clause holds, and otherwise among it
what is said of its failing. -/
def ReportedBy (engine : RegexEngine) (response : Response) (c : Clause)
    (part : List MatchFailure) : Prop :=
  c.Holds engine response ∧ part = []
    ∨ ¬ c.Holds engine response ∧ ∃ f ∈ part, c.Faults engine response f

end Clause

variable {engine : RegexEngine}

theorem selects_status_iff {d : Definition} {response : Response} {v : Value}
    (h : d.origin = .status) : Selects response d v ↔ v = .ofNat response.status := by
  constructor
  · intro hv
    cases hv with
    | status => rfl
    | header origin => rw [h] at origin; cases origin
    | body origin => rw [h] at origin; cases origin
  · rintro rfl
    exact .status h

theorem selects_header_iff {d : Definition} {response : Response} {v : Value}
    (h : d.origin = .header) :
    Selects response d v
      ↔ ∃ name value, d.selector = [name] ∧ response.HasHeader name value ∧ v = .string value := by
  constructor
  · intro hv
    cases hv with
    | status origin => rw [h] at origin; cases origin
    | header _ selector found => exact ⟨_, _, selector, found, rfl⟩
    | body origin => rw [h] at origin; cases origin
  · rintro ⟨name, value, selector, found, rfl⟩
    exact .header h selector found

theorem selects_body_iff {d : Definition} {response : Response} {v : Value}
    (h : d.origin = .body) :
    Selects response d v
      ↔ ∃ body, response.json? = some body ∧ body.select d.selector = .ok v := by
  constructor
  · intro hv
    cases hv with
    | status origin => rw [h] at origin; cases origin
    | header origin => rw [h] at origin; cases origin
    | body _ read selected => exact ⟨_, read, selected⟩
  · rintro ⟨body, read, selected⟩
    exact .body h read selected

/-- A definition selects at most one value. -/
theorem Selects.unique {response : Response} {d : Definition} {v w : Value}
    (hv : Selects response d v) (hw : Selects response d w) : v = w := by
  cases horigin : d.origin with
  | status =>
      rw [selects_status_iff horigin] at hv hw
      rw [hv, hw]
  | header =>
      rw [selects_header_iff horigin] at hv hw
      obtain ⟨name, value, hselector, hfound, rfl⟩ := hv
      obtain ⟨name', value', hselector', hfound', rfl⟩ := hw
      rw [hselector] at hselector'
      cases hselector'
      rw [← Response.header?_eq_some_iff] at hfound hfound'
      rw [hfound] at hfound'
      cases hfound'
      rfl
  | body =>
      rw [selects_body_iff horigin] at hv hw
      obtain ⟨body, hread, hselected⟩ := hv
      obtain ⟨body', hread', hselected'⟩ := hw
      rw [hread] at hread'
      cases hread'
      rw [hselected] at hselected'
      cases hselected'
      rfl

namespace Requirement

/-! ## Taking variables -/

/-- What is known of the body, if anything, is what it says. -/
def Known (response : Response) (parsed : Option Value) : Prop :=
  ∀ body, parsed = some body → response.json? = some body

theorem known_none (response : Response) : Known response none := nofun

theorem Known.or_json {response : Response} {parsed : Option Value} (h : Known response parsed) :
    parsed.or response.json? = response.json? := by
  cases parsed with
  | none => rfl
  | some body => exact (h body rfl).symm

theorem extractHeader_ok_iff {d : Definition} {response : Response} {v : Value} :
    extractHeader d response = .ok v
      ↔ ∃ name value, d.selector = [name] ∧ response.HasHeader name value ∧ v = .string value := by
  unfold extractHeader
  split
  · next name hselector =>
      simp only [hselector, ← Response.header?_eq_some_iff]
      cases hfound : response.header? name with
      | none => simp [hfound]
      | some value => simp [hfound, eq_comm]
  · next hselector =>
      constructor
      · intro h
        cases h
      · rintro ⟨name, -, hname, -⟩
        exact absurd hname (hselector name)

theorem extractPlace_ok_iff {d : Definition} {body v : Value} :
    extractPlace d body = .ok v ↔ body.select d.selector = .ok v := by
  unfold extractPlace
  cases body.select d.selector with
  | ok w => simp
  | error e => simp

/-- A variable has the value that its definition selects, whether the body had been read
before or not, and what is handed on is again what the body says. -/
theorem extract_spec {d : Definition} {response : Response} {parsed : Option Value}
    (hparsed : Known response parsed) :
    Known response (extract d response parsed).2
      ∧ ∀ v, (extract d response parsed).1 = .ok v ↔ Selects response d v := by
  unfold extract
  split
  · next horigin =>
      refine ⟨hparsed, fun v => ?_⟩
      rw [selects_status_iff horigin]
      simp [eq_comm]
  · next horigin =>
      refine ⟨hparsed, fun v => ?_⟩
      rw [selects_header_iff horigin, extractHeader_ok_iff]
  · next horigin =>
      simp only [hparsed.or_json, selects_body_iff horigin]
      cases hjson : response.json? with
      | none =>
          refine ⟨known_none response, fun v => ?_⟩
          simp
      | some body =>
          refine ⟨fun other hother => ?_, fun v => ?_⟩
          · rw [hjson, ← hother]
          · rw [extractPlace_ok_iff]
            simp

/-- The names of definitions with values for them. -/
def bindings (definitions : List Definition) (values : List Value) : List (String × Value) :=
  (definitions.map (·.name)).zip values

/-- Taking variables succeeds if nothing failed before and every definition selects a value.
Then the values are bound in turn. -/
theorem extractAll_ok_iff {response : Response} {parsed : Option Value}
    (hparsed : Known response parsed) {definitions : List Definition} {scope defined : Scope}
    {failures : List MatchFailure} :
    extractAll response parsed definitions scope failures = .ok defined
      ↔ failures = [] ∧ ∃ values, List.Forall₂ (Selects response) definitions values
        ∧ defined.entries = Entries.extend scope.entries (bindings definitions values) := by
  induction definitions generalizing parsed scope failures with
  | nil =>
      cases failures with
      | nil =>
          rw [extractAll]
          constructor
          · intro h
            cases h
            exact ⟨rfl, [], .nil, rfl⟩
          · rintro ⟨-, values, -, hentries⟩
            exact congrArg Except.ok (OrderedMap.ext hentries).symm
      | cons failure failures => simp [extractAll]
  | cons d rest ih =>
      -- what is handed on is known too, so the hypothesis holds for the rest
      obtain ⟨hknown, hselects⟩ := extract_spec (d := d) hparsed
      rw [extractAll]
      cases hextract : extract d response parsed with
      | mk result handed =>
          rw [hextract] at hknown hselects
          cases result with
          | ok v =>
              have hv := (hselects v).mp rfl
              dsimp only
              rw [ih hknown]
              refine and_congr_right' ⟨?_, ?_⟩
              · rintro ⟨values, hvalues, hentries⟩
                exact ⟨v :: values, .cons hv hvalues, hentries⟩
              · rintro ⟨_, hvalues, hentries⟩
                cases hvalues with
                | cons hw hvalues =>
                    cases hv.unique hw
                    exact ⟨_, hvalues, hentries⟩
          | error failure =>
              dsimp only
              rw [ih hknown]
              constructor
              · rintro ⟨hnil, -⟩
                exact absurd hnil (by simp)
              · rintro ⟨-, _, hvalues, -⟩
                cases hvalues with
                | cons hw _ => cases (hselects _).mpr hw

/-- Without the variables of all definitions there is something that went wrong. -/
theorem extractAll_error {response : Response} {parsed : Option Value}
    {definitions : List Definition} {scope : Scope} {failures found : List MatchFailure}
    (h : extractAll response parsed definitions scope failures = .error found) : found ≠ [] := by
  induction definitions generalizing parsed scope failures with
  | nil =>
      cases failures with
      | nil => cases h
      | cons failure failures =>
          cases h
          exact List.cons_ne_nil _ _
  | cons d rest ih =>
      rw [extractAll] at h
      split at h
      · exact ih h
      · exact ih h

/-! ## What a report says of the clauses -/

theorem definitions_ofRoundTrip {r : RoundTrip} {requirement : Requirement}
    (h : ofRoundTrip r engine = .ok requirement) : requirement.definitions = r.definitions := by
  obtain ⟨_, -, rfl⟩ := map_ok_iff.mp h
  rfl

theorem reportedBy_status (response : Response) (code : Nat) :
    (Clause.status code).ReportedBy engine response (statusFailures (some code) response) := by
  unfold statusFailures
  by_cases h : response.status = code
  · have hfilter : (some code).filter (· != response.status) = none := by
      simp [h]
    rw [hfilter]
    exact Or.inl ⟨h, rfl⟩
  · have hfilter : (some code).filter (· != response.status) = some code := by
      simp [Ne.symm h]
    rw [hfilter]
    exact Or.inr ⟨h, _, List.mem_cons_self, .status h⟩

theorem reportedBy_header (response : Response) (name value : String) :
    (Clause.header name value).ReportedBy engine response
      (headerFailure? response name value).toList := by
  have hactual : response.HeaderIs name ((response.header? name).getD "") :=
    Response.headerIs_iff.mpr rfl
  unfold headerFailure?
  by_cases h : (response.header? name).getD "" = value
  · exact Or.inl ⟨Response.headerIs_iff.mpr h, by simp [h]⟩
  · refine Or.inr ⟨mt Response.headerIs_iff.mp h, ?_⟩
    dsimp only
    rw [if_neg (by simpa using h)]
    exact ⟨_, List.mem_singleton_self _, .header h hactual⟩

theorem reportedBy_body {text : String} {expected : BodyRequirement} (response : Response)
    (h : bodyOf engine (some text) = .ok expected) :
    (Clause.ofBody text).ReportedBy engine response (checkBody expected response).1 := by
  rw [bodyOf] at h
  unfold Clause.ofBody
  split at h
  · next hempty =>
      cases h
      rw [if_pos (String.isEmpty_iff.mp hempty), checkBody]
      cases hbody : response.body with
      | nil => exact Or.inl ⟨hbody, by simp⟩
      | cons b rest =>
          have hne : response.body ≠ [] := by simp [hbody]
          refine Or.inr ⟨hne, ?_⟩
          exact ⟨_, List.mem_singleton_self _, .emptyBody hne⟩
  · next hempty =>
      obtain ⟨p, hp, rfl⟩ := map_ok_iff.mp h
      rw [if_neg (mt String.isEmpty_iff.mpr hempty), checkBody]
      cases hjson : response.json? with
      | none =>
          refine Or.inr ⟨?_, _, List.mem_singleton_self _, .notJson hjson⟩
          rintro ⟨_, v, -, hv, -⟩
          rw [hjson] at hv
          cases hv
      | some v =>
          dsimp only
          cases hcheck : p.check v with
          | nil => exact Or.inl ⟨⟨p, v, hp, hjson, Pattern.accepts_iff.mpr hcheck⟩, rfl⟩
          | cons failure failures =>
              have hne : p.check v ≠ [] := by simp [hcheck]
              refine Or.inr ⟨?_, _, List.mem_singleton_self _, hcheck ▸ .mismatch hp hjson hne⟩
              rintro ⟨q, w, hq, hw, haccepts⟩
              rw [hp] at hq
              cases hq
              rw [hjson] at hw
              cases hw
              exact hne (Pattern.accepts_iff.mp haccepts)

/-- A report is made of the parts of the clauses. -/
theorem failures_spec {r : RoundTrip} {requirement : Requirement}
    (h : ofRoundTrip r engine = .ok requirement) (response : Response) :
    ∃ parts, (requirement.failures response).1 = parts.flatten
      ∧ List.Forall₂ (Clause.ReportedBy engine response) r.clauses parts := by
  obtain ⟨expected, hexpected, rfl⟩ := map_ok_iff.mp h
  refine ⟨r.response.statusCode.toList.map (fun code => statusFailures (some code) response)
    ++ r.response.headers.toList.map (fun e => (headerFailure? response e.1 e.2).toList)
    ++ r.response.body.toList.map (fun _ => (checkBody expected response).1), ?_, ?_⟩
  · have hstatus : statusFailures r.response.statusCode response
        = (r.response.statusCode.toList.map
          fun code => statusFailures (some code) response).flatten := by
      cases r.response.statusCode with
      | none => rfl
      | some code => simp
    have hbody : (checkBody expected response).1
        = (r.response.body.toList.map fun _ => (checkBody expected response).1).flatten := by
      cases hbody : r.response.body with
      | none =>
          rw [hbody] at hexpected
          cases hexpected
          rfl
      | some text => simp
    rw [List.flatten_append, List.flatten_append, ← hstatus, ← hbody, ← List.flatMap_def,
      ← List.filterMap_eq_flatMap_toList]
    rfl
  · refine List.rel_append (List.rel_append ?_ ?_) ?_
    · rw [List.forall₂_map_left_iff, List.forall₂_map_right_iff, List.forall₂_same]
      exact fun code _ => reportedBy_status response code
    · rw [List.forall₂_map_left_iff, List.forall₂_map_right_iff, List.forall₂_same]
      exact fun e _ => reportedBy_header response e.1 e.2
    · rw [List.forall₂_map_left_iff, List.forall₂_map_right_iff, List.forall₂_same]
      intro text htext
      refine reportedBy_body response ?_
      rw [← hexpected, Option.mem_toList.mp htext]

theorem flatten_eq_nil_iff {response : Response} {clauses : List Clause}
    {parts : List (List MatchFailure)}
    (h : List.Forall₂ (Clause.ReportedBy engine response) clauses parts) :
    parts.flatten = [] ↔ ∀ c ∈ clauses, c.Holds engine response := by
  induction h with
  | nil => simp
  | @cons c part clauses parts hpart _ ih =>
      rw [List.flatten_cons, List.append_eq_nil_iff, List.forall_mem_cons, ih]
      refine and_congr_left' ?_
      rcases hpart with ⟨hholds, hnil⟩ | ⟨hfails, f, hf, -⟩
      · exact iff_of_true hnil hholds
      · exact iff_of_false (List.ne_nil_of_mem hf) hfails

theorem exists_mem_flatten {response : Response} {clauses : List Clause}
    {parts : List (List MatchFailure)}
    (h : List.Forall₂ (Clause.ReportedBy engine response) clauses parts) {c : Clause}
    (hc : c ∈ clauses) (hfails : ¬ c.Holds engine response) :
    ∃ f ∈ parts.flatten, c.Faults engine response f := by
  induction h with
  | nil => cases hc
  | @cons first part clauses parts hpart _ ih =>
      rw [List.flatten_cons]
      rcases List.mem_cons.mp hc with rfl | hmem
      · rcases hpart with ⟨hholds, -⟩ | ⟨-, f, hf, hfault⟩
        · exact absurd hholds hfails
        · exact ⟨f, List.mem_append_left _ hf, hfault⟩
      · obtain ⟨f, hf, hfault⟩ := ih hmem
        exact ⟨f, List.mem_append_right _ hf, hfault⟩

/-! ## The check -/

theorem known_checkBody {expected : BodyRequirement} {response : Response} :
    Known response (checkBody expected response).2 := by
  unfold checkBody
  split
  · exact known_none response
  · split <;> exact known_none response
  · split
    · exact known_none response
    · next v hjson =>
        intro body hbody
        split at hbody <;> cases hbody <;> exact hjson

/-- The check returns variables exactly if there is nothing to report and every definition selects
a value; then the values are bound one after another. -/
theorem check_ok_iff {requirement : Requirement} {response : Response} {defined : Scope} :
    requirement.check response = .ok defined
      ↔ (requirement.failures response).1 = []
        ∧ ∃ values, List.Forall₂ (Selects response) requirement.definitions values
          ∧ defined = .ofList (bindings requirement.definitions values) := by
  have hknown : Known response (requirement.failures response).2 := known_checkBody
  unfold check
  cases hfailures : requirement.failures response with
  | mk failures parsed =>
      rw [hfailures] at hknown
      cases failures with
      | nil =>
          dsimp only
          rw [extractAll_ok_iff hknown]
          refine and_congr_right' (exists_congr fun values => and_congr_right' ?_)
          exact ⟨fun hentries => OrderedMap.ext hentries, fun hdefined => hdefined ▸ rfl⟩
      | cons failure failures => simp

/-- Without variables there is something wrong, and each clause that fails is reported. -/
theorem check_error {r : RoundTrip} {requirement : Requirement}
    (h : ofRoundTrip r engine = .ok requirement) {response : Response} {found : List MatchFailure}
    (hcheck : requirement.check response = .error found) :
    found ≠ []
      ∧ ∀ c ∈ r.clauses, ¬ c.Holds engine response → ∃ f ∈ found, c.Faults engine response f := by
  obtain ⟨parts, hparts, hreported⟩ := failures_spec h response
  unfold check at hcheck
  cases hfailures : requirement.failures response with
  | mk failures parsed =>
      rw [hfailures] at hcheck hparts
      dsimp only at hparts
      subst hparts
      cases hflatten : parts.flatten with
      | nil =>
          rw [hflatten] at hcheck
          refine ⟨extractAll_error hcheck, fun c hc hfails => ?_⟩
          exact absurd ((flatten_eq_nil_iff hreported).mp hflatten c hc) hfails
      | cons failure failures =>
          rw [hflatten] at hcheck
          cases hcheck
          rw [← hflatten]
          refine ⟨by simp [hflatten], fun c hc hfails => ?_⟩
          exact exists_mem_flatten hreported hc hfails

theorem exists_selected_iff {response : Response} {definitions : List Definition} :
    (∃ values, List.Forall₂ (Selects response) definitions values)
      ↔ ∀ d ∈ definitions, ∃ v, Selects response d v := by
  induction definitions with
  | nil => simp
  | cons d rest ih =>
      rw [List.forall_mem_cons, ← ih]
      constructor
      · rintro ⟨_, hvalues⟩
        cases hvalues with
        | cons hv hrest => exact ⟨⟨_, hv⟩, _, hrest⟩
      · rintro ⟨⟨v, hv⟩, values, hrest⟩
        exact ⟨v :: values, .cons hv hrest⟩

/-- The values of definitions are determined by the response. -/
theorem selected_unique {response : Response} {definitions : List Definition}
    {values values' : List Value} (h : List.Forall₂ (Selects response) definitions values)
    (h' : List.Forall₂ (Selects response) definitions values') : values = values' := by
  have hunique : Relator.RightUnique (Selects response) := fun _ _ _ hv hw => hv.unique hw
  exact List.right_unique_forall₂' hunique h h'

theorem keys_bindings {response : Response} {definitions : List Definition} {values : List Value}
    (h : List.Forall₂ (Selects response) definitions values) :
    Entries.keys (bindings definitions values) = definitions.map (·.name) := by
  refine List.map_fst_zip (Nat.le_of_eq ?_)
  rw [List.length_map, h.length_eq]

theorem mem_keys_check {requirement : Requirement} {response : Response} {defined : Scope}
    (h : requirement.check response = .ok defined) {name : String} :
    name ∈ defined.keys ↔ ∃ d ∈ requirement.definitions, d.name = name := by
  obtain ⟨-, values, hvalues, rfl⟩ := check_ok_iff.mp h
  change name ∈ Entries.keys (Entries.extend [] (bindings requirement.definitions values)) ↔ _
  rw [Entries.mem_keys_extend, keys_bindings hvalues, List.mem_map]
  simp

/-- Behind all bindings a name has the value of the last definition of the name. -/
theorem get?_bindings {response : Response} {before after : List Definition} {d : Definition}
    {values : List Value} (h : List.Forall₂ (Selects response) (before ++ d :: after) values)
    (hlast : ∀ later ∈ after, later.name ≠ d.name) (es : Entries Value) :
    ∃ v, Entries.get? (Entries.extend es (bindings (before ++ d :: after) values)) d.name = some v
      ∧ Selects response d v := by
  induction before generalizing es values with
  | nil =>
      cases h with
      | @cons _ v _ values hv hafter =>
          refine ⟨v, ?_, hv⟩
          have hnot : d.name ∉ Entries.keys (bindings after values) := by
            rw [keys_bindings hafter, List.mem_map]
            rintro ⟨later, hlater, hname⟩
            exact hlast later hlater hname
          change Entries.get? (Entries.extend _ ((d.name, v) :: bindings after values)) _ = _
          rw [Entries.extend_cons, Entries.get?_extend_of_not_mem hnot, Entries.get?_insert,
            if_pos rfl]
  | cons first before ih =>
      cases h with
      | cons _ hrest => exact ih hrest _

/-- What checking a response results in. -/
structure AllOrNothing (engine : RegexEngine) (r : RoundTrip) (response : Response)
    (result : Except (List MatchFailure) Scope) : Prop where
  /-- Variables are returned exactly if all clauses hold and every definition has a value. -/
  returns : (∃ defined, result = .ok defined)
    ↔ (∀ c ∈ r.clauses, c.Holds engine response) ∧ ∀ d ∈ r.definitions, ∃ v, Selects response d v
  /-- The names are those of the definitions. -/
  names : ∀ defined, result = .ok defined →
    ∀ name, name ∈ defined.keys ↔ ∃ d ∈ r.definitions, d.name = name
  /-- A name has the value that its last definition selects. -/
  values : ∀ defined, result = .ok defined → ∀ before d after,
    r.definitions = before ++ d :: after → (∀ later ∈ after, later.name ≠ d.name) →
      ∃ v, defined.get? d.name = some v ∧ Selects response d v
  /-- Else there is a report, in which each clause that fails is found. -/
  reports : ∀ found, result = .error found →
    found ≠ []
      ∧ ∀ c ∈ r.clauses, ¬ c.Holds engine response → ∃ f ∈ found, c.Faults engine response f

/-- A response gives all variables of a round trip, or none and a report of all that it fails.
The variables are the same for all round trips with these definitions, whether their patterns
have the body read before or not. -/
theorem check_all_or_nothing {r : RoundTrip} {requirement : Requirement}
    (h : ofRoundTrip r engine = .ok requirement) (response : Response) :
    AllOrNothing engine r response (requirement.check response)
      ∧ ∀ r' requirement', ofRoundTrip r' engine = .ok requirement' →
        r'.definitions = r.definitions →
        ∀ defined defined', requirement.check response = .ok defined →
          requirement'.check response = .ok defined' → defined' = defined := by
  obtain ⟨parts, hparts, hreported⟩ := failures_spec h response
  refine ⟨⟨?_, fun defined hdefined name => ?_, ?_, fun found hfound => check_error h hfound⟩, ?_⟩
  · rw [← flatten_eq_nil_iff hreported, ← hparts, ← definitions_ofRoundTrip h,
      ← exists_selected_iff]
    simp only [check_ok_iff, exists_and_left]
    simp
  · rw [mem_keys_check hdefined, definitions_ofRoundTrip h]
  · intro defined hdefined before d after hsplit hlast
    obtain ⟨-, values, hvalues, rfl⟩ := check_ok_iff.mp hdefined
    rw [definitions_ofRoundTrip h, hsplit] at hvalues ⊢
    exact get?_bindings hvalues hlast []
  · intro r' requirement' h' hdefinitions defined defined' hdefined hdefined'
    obtain ⟨-, values, hvalues, rfl⟩ := check_ok_iff.mp hdefined
    obtain ⟨-, values', hvalues', rfl⟩ := check_ok_iff.mp hdefined'
    rw [definitions_ofRoundTrip h', hdefinitions, ← definitions_ofRoundTrip h] at hvalues' ⊢
    rw [selected_unique hvalues hvalues']

/-- Two items are expected, and `id` is defined twice. -/
def itemsTrip : RoundTrip where
  response := { statusCode := some 200, body := some "[null,\x7b\"$len\":1\x7d]" }
  definitions := [⟨"id", .status, []⟩, ⟨"items", .body, []⟩, ⟨"id", .body, ["[1]", "[0]"]⟩]

/-- A response with a body. -/
def itemsResponse (status : Nat) (body : String) : Response where
  status := status
  body := Text.utf8 body.toList

theorem check_all_or_nothing_items :
    ∃ requirement, ofRoundTrip itemsTrip .builtin = .ok requirement
      ∧ AllOrNothing .builtin itemsTrip (itemsResponse 200 "[null,[7]]")
        (requirement.check (itemsResponse 200 "[null,[7]]"))
      ∧ ((requirement.check (itemsResponse 200 "[null,[7]]")).toOption.map fun defined =>
          (defined.keys, (defined.get? "id").map Value.display)) = some (["id", "items"], some "7")
      ∧ AllOrNothing .builtin itemsTrip (itemsResponse 500 "[]")
        (requirement.check (itemsResponse 500 "[]"))
      ∧ (requirement.check (itemsResponse 500 "[]")).toOption = none := by
  have heval : (ofRoundTrip itemsTrip .builtin).map (fun requirement =>
      (((requirement.check (itemsResponse 200 "[null,[7]]")).toOption.map fun defined =>
          (defined.keys, (defined.get? "id").map Value.display)),
        (requirement.check (itemsResponse 500 "[]")).toOption.isNone))
      = .ok (some (["id", "items"], some "7"), true) := by
    decide +kernel
  obtain ⟨requirement, hr, heq⟩ := map_ok_iff.mp heval
  obtain ⟨hbinds, hrefused⟩ := Prod.mk.inj heq
  exact ⟨requirement, hr, (check_all_or_nothing hr _).1, hbinds, (check_all_or_nothing hr _).1,
    Option.isNone_iff_eq_none.mp hrefused⟩

end Requirement

end HttpSuite
