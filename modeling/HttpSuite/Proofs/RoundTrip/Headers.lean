import HttpSuite.Proofs.Http.Header
import HttpSuite.Proofs.Journal
import HttpSuite.RoundTrip.Render

/-!
# One entry for each header

The headers of a round trip come from presetters and from the round trips that are rendered and
put on top of each other. All of them spell names in the usual way when they set a header, so a
name has one entry whatever the cases in which it was given, and the value that it was given last.

The invariant is `SetOneByOne`: it is kept by setting a header, and by putting maps on top of each
other of which it holds. What is left is to see that nothing gets into the maps by another way,
for each presetter and for rendering.
-/

namespace HttpSuite

open Http

namespace Http

/-- The headers are what setting these, one after another and in the usual spelling, comes to. -/
abbrev SetOneByOne (headers : OrderedMap String) (sets : List (String × String)) : Prop :=
  Gathered canonicalName List.getLast? headers sets

/-- Sets headers in the usual spelling, one after another. -/
def setAll (headers : OrderedMap String) (sets : List (String × String)) : OrderedMap String :=
  sets.foldl (fun headers e => headers.insert (canonicalName e.1) e.2) headers

variable {headers above : OrderedMap String} {before sets : List (String × String)}

theorem SetOneByOne.set (h : SetOneByOne headers before) (name value : String) :
    SetOneByOne (headers.insert (canonicalName name) value) (before ++ [(name, value)]) :=
  Gathered.insert h spelling_canonicalName List.getLast?_concat

theorem SetOneByOne.setAll (h : SetOneByOne headers before) (sets : List (String × String)) :
    SetOneByOne (setAll headers sets) (before ++ sets) := by
  induction sets generalizing headers before with
  | nil => rwa [List.append_nil]
  | cons e sets ih =>
      rw [List.append_cons]
      exact ih (h.set e.1 e.2)

/-- A map that is put on top counts as if its headers were set after the others. -/
theorem SetOneByOne.extend (h : SetOneByOne headers before) (habove : SetOneByOne above sets) :
    SetOneByOne (headers.extend above) (before ++ sets) where
  spelt key hkey :=
    (OrderedMap.mem_keys_extend.mp hkey).elim (h.spelt key) (habove.spelt key)
  get? name := by
    rw [OrderedMap.get?_extend, valuesUnder_append, List.getLast?_append, h.get?, habove.get?]

theorem entries_setAll (headers : OrderedMap String) (sets : List (String × String)) :
    (setAll headers sets).entries
      = Entries.extend headers.entries (sets.map fun e => (canonicalName e.1, e.2)) := by
  induction sets generalizing headers with
  | nil => rfl
  | cons e sets ih => exact ih _

/-- What is made by setting headers has them set. -/
theorem setAll_of_set {σ : Type} {set : σ → String → String → σ} (headersOf : σ → OrderedMap String)
    (h : ∀ s name value,
      headersOf (set s name value) = (headersOf s).insert (canonicalName name) value)
    (s : σ) (sets : List (String × String)) :
    headersOf (sets.foldl (fun s e => set s e.1 e.2) s) = setAll (headersOf s) sets := by
  induction sets generalizing s with
  | nil => rfl
  | cons e sets ih => exact (ih _).trans (congrArg (setAll · sets) (h s e.1 e.2))

end Http

namespace RoundTrip

/-- The two sides of a round trip that have headers. -/
inductive Side where
  /-- What is sent. -/
  | request
  /-- What is expected. -/
  | response
  deriving DecidableEq

/-- The headers on one side. -/
def headers (r : RoundTrip) : Side → OrderedMap String
  | .request => r.request.headers
  | .response => r.response.headers

/-- A change of a template. -/
inductive Change where
  /-- A presetter that is always there is called with arguments. -/
  | preset (name : String) (args : OrderedMap String)
  /-- A round trip is rendered and put on top. -/
  | overlay (renderer : Renderer) (spec : RoundTripSpec) (around : Option String)

namespace Change

/-- The template behind a change, if the change succeeds. -/
def result? (template : RoundTrip) : Change → Option RoundTrip
  | preset name args =>
    (Presetter.builtins.get? name).bind fun presetter => (presetter template args).toOption
  | overlay renderer spec around => (renderer.layer spec around).toOption.map template.patched

/-- The headers that a presetter of this name sets on one side, as they are written and in
order. -/
def presetSets (name : String) (args : OrderedMap String) : Side → List (String × String)
  | .request =>
    if name = "requestHeader" then args.toList
    else if name = "basicAuth" then
      [("Authorization",
        basicCredentials ((args.get? "username").getD "") ((args.get? "password").getD ""))]
    else if name = "bearerAuth" then
      [("Authorization", bearerCredentials (Text.trim ((args.get? "token").getD "")))]
    else []
  | .response => if name = "responseHeader" then args.toList else []

/-- The headers that a change sets on one side, as they are written and in order. -/
def sets (side : Side) : Change → List (String × String)
  | preset name args => presetSets name args side
  | overlay renderer spec _ =>
    let written :=
      match side with
      | .request => (renderer.within 4).entries "request.headers" spec.request.headers.toList
      | .response => (renderer.within 6).entries "response.headers" spec.response.headers.toList
    written.toOption.getD []

end Change

end RoundTrip

/-! ## Presetters -/

namespace Presetter

variable {args : OrderedMap String} {template next : RoundTrip}

theorem required_ok {name value : String} (h : required args name = .ok value) :
    args.get? name = some value := by
  unfold required at h
  split at h
  · next found hfound =>
      cases h
      exact hfound
  · cases h

theorem host_ok (h : host template args = .ok next) :
    next.request.headers = template.request.headers ∧ next.response = template.response := by
  obtain ⟨name, -, h⟩ := bind_ok_iff.mp h
  dsimp only at h
  split at h
  · cases h
    exact ⟨rfl, rfl⟩
  · split at h
    · cases h
    · cases h
      exact ⟨rfl, rfl⟩

theorem basicAuth_ok (h : basicAuth template args = .ok next) :
    next = { template with
      request := template.request.setHeader "Authorization"
        (basicCredentials ((args.get? "username").getD "") ((args.get? "password").getD "")) } := by
  obtain ⟨user, huser, h⟩ := bind_ok_iff.mp h
  rw [required_ok huser]
  cases h
  rfl

theorem bearerAuth_ok (h : bearerAuth template args = .ok next) :
    next = { template with
      request := template.request.setHeader "Authorization"
        (bearerCredentials (Text.trim ((args.get? "token").getD ""))) } := by
  obtain ⟨token, htoken, h⟩ := bind_ok_iff.mp h
  rw [required_ok htoken]
  dsimp only at h
  split at h
  · cases h
  · cases h
    rfl

end Presetter

namespace RoundTrip

variable {r next : RoundTrip} {side : Side}

/-- A presetter that is always there changes headers only by setting those that it is said to
set. -/
theorem headers_preset {name : String} {presetter : Presetter} {args : OrderedMap String}
    (hget : Presetter.builtins.get? name = some presetter) (h : presetter r args = .ok next) :
    next.headers side = setAll (r.headers side) (Change.sets side (.preset name args)) := by
  have hmem := OrderedMap.mem_of_mem_ofList (Entries.mem_of_get? hget)
  simp only [List.mem_cons, Prod.mk.injEq, List.not_mem_nil, or_false] at hmem
  rcases hmem with ⟨rfl, rfl⟩ | ⟨rfl, rfl⟩ | ⟨rfl, rfl⟩ | ⟨rfl, rfl⟩ | ⟨rfl, rfl⟩
  case inl =>
    cases h
    cases side with
    | request => exact setAll_of_set RequestLayer.headers (fun _ _ _ => rfl) r.request args.toList
    | response => rfl
  case inr.inl =>
    cases h
    cases side with
    | request => rfl
    | response =>
        exact setAll_of_set ResponseLayer.headers (fun _ _ _ => rfl) r.response args.toList
  case inr.inr.inl =>
    obtain ⟨hrequest, hresponse⟩ := Presetter.host_ok h
    cases side with
    | request => exact hrequest
    | response => exact congrArg ResponseLayer.headers hresponse
  case inr.inr.inr.inl =>
    rw [Presetter.basicAuth_ok h]
    cases side <;> rfl
  case inr.inr.inr.inr =>
    rw [Presetter.bearerAuth_ok h]
    cases side <;> rfl

/-! ## Rendered round trips -/

/-- Rendered headers are those of the round trip, set one after another. -/
theorem headers_rendered {renderer : Renderer} {field : String} {templates : OrderedMap Template}
    {rendered : OrderedMap String} (h : renderer.headers field templates = .ok rendered) :
    SetOneByOne rendered ((renderer.entries field templates.toList).toOption.getD []) := by
  obtain ⟨entries, hentries, h⟩ := bind_ok_iff.mp h
  cases h
  have hset : setAll .empty entries
      = OrderedMap.ofList (entries.map fun e => (canonicalName e.1, e.2)) :=
    OrderedMap.ext (entries_setAll .empty entries)
  have hgathered : SetOneByOne (setAll .empty entries) ([] ++ entries) :=
    SetOneByOne.setAll (gathered_empty rfl) entries
  rw [hset] at hgathered
  rw [hentries]
  exact hgathered

theorem headers_layer {renderer : Renderer} {spec : RoundTripSpec} {around : Option String}
    {layer : RoundTrip} (h : renderer.layer spec around = .ok layer) :
    SetOneByOne (layer.headers side) (Change.sets side (.overlay renderer spec around)) := by
  unfold Renderer.layer at h
  simp only [bind_ok_iff] at h
  obtain ⟨_, _, _, _, _, _, sent, hsent, _, _, expected, hexpected, _, _, _, _, h⟩ := h
  cases h
  cases side with
  | request => exact headers_rendered hsent
  | response => exact headers_rendered hexpected

/-! ## Sequences of changes -/

theorem headers_patched (below above : RoundTrip) (side : Side) :
    (below.patched above).headers side = (below.headers side).extend (above.headers side) := by
  cases side <;> rfl

/-- A change sets the headers that it is said to set, behind those that were set before. -/
theorem headers_result? {before : List (String × String)} {change : Change}
    (hbefore : SetOneByOne (r.headers side) before) (h : change.result? r = some next) :
    SetOneByOne (next.headers side) (before ++ change.sets side) := by
  cases change with
  | preset name args =>
      obtain ⟨presetter, hget, hpreset⟩ := Option.bind_eq_some_iff.mp h
      rw [headers_preset hget (toOption_eq_some_iff.mp hpreset)]
      exact hbefore.setAll _
  | overlay renderer spec around =>
      obtain ⟨layer, hlayer, rfl⟩ := Option.map_eq_some_iff.mp h
      rw [headers_patched]
      exact hbefore.extend (headers_layer (toOption_eq_some_iff.mp hlayer))

theorem headers_foldlM {before : List (String × String)} {changes : List Change}
    (hbefore : SetOneByOne (r.headers side) before)
    (h : changes.foldlM Change.result? r = some next) :
    SetOneByOne (next.headers side) (before ++ changes.flatMap (Change.sets side)) := by
  induction changes generalizing r before with
  | nil =>
      cases h
      rwa [List.flatMap_nil, List.append_nil]
  | cons change changes ih =>
      rw [List.foldlM_cons] at h
      obtain ⟨middle, hfirst, hrest⟩ := Option.bind_eq_some_iff.mp h
      rw [List.flatMap_cons, ← List.append_assoc]
      exact ih (headers_result? hbefore hfirst) hrest

/-- A template that any presetters and rendered round trips made of the one that says nothing has
one entry for each header, on either side. What is found under the usual spelling of a name is the
value that was set last under that name in any case. The usual spelling stays as it is, and it is
the same for two names exactly if they are equal but for case. -/
theorem one_entry_per_header {changes : List Change} {made : RoundTrip}
    (h : changes.foldlM Change.result? {} = some made) :
    (∀ side, (made.headers side).keys.Pairwise fun a b => Text.eqIgnoringCase a b = false)
      ∧ (∀ side name, (made.headers side).get? (canonicalName name)
        = (((changes.flatMap (Change.sets side)).filter fun e =>
            Text.eqIgnoringCase e.1 name).map Prod.snd).getLast?)
      ∧ (∀ name, canonicalName (canonicalName name) = canonicalName name)
      ∧ ∀ a b, canonicalName a = canonicalName b ↔ Text.eqIgnoringCase a b = true := by
  have hset : ∀ side,
      SetOneByOne (made.headers side) (changes.flatMap (Change.sets side)) := by
    intro side
    have hempty : SetOneByOne (headers {} side) [] := by
      cases side <;> exact gathered_empty rfl
    exact headers_foldlM hempty h
  exact ⟨fun side => (hset side).pairwise_keys spelling_canonicalName,
    fun side name => (hset side).get? name, spelling_canonicalName.spell_spell,
    spelling_canonicalName.eq_iff⟩

/-- A tenant for all requests, a token, and a round trip with another tenant, each name in another
case. -/
def otherTenant : List Change :=
  [.preset "requestHeader" (.ofList [("x-tenant", "a"), ("ACCEPT", "text/plain")]),
    .preset "bearerAuth" (.ofList [("token", " t0k3n ")]),
    .overlay ⟨.empty, .empty⟩
      { request := { headers := .ofList [("X-TENANT", .literal "b"), ("x-Tenant", .literal "c")] } }
      none]

theorem one_entry_per_header_otherTenant :
    ∃ made, otherTenant.foldlM Change.result? {} = some made
      ∧ (made.headers .request).keys = ["X-Tenant", "Accept", "Authorization"]
      ∧ (made.headers .request).get? (canonicalName "x-TENANT") = some "c" := by
  have hmade : (otherTenant.foldlM Change.result? {}).map (fun made => (made.headers .request).keys)
      = some ["X-Tenant", "Accept", "Authorization"] := by decide +kernel
  obtain ⟨made, hfold, hkeys⟩ := Option.map_eq_some_iff.mp hmade
  refine ⟨made, hfold, hkeys, ?_⟩
  rw [(one_entry_per_header hfold).2.1 .request "x-TENANT"]
  simp only [Text.eqIgnoringCase_eq_toList]
  decide +kernel

end RoundTrip

end HttpSuite
