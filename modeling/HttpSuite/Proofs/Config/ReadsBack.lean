import HttpSuite.Proofs.Config.Codec

/-!
# Suites are read back

Every part of a suite has a codec, and that of a part is put together of those of the parts inside
it just as its reader and its writer are. So all that is left to say about each is which parts it
has and how to look at them; that no two of them have a name in common or touch each other, that
what is left out could have been written, and that they are all there is, is then checked.

That the codecs read and write as suites are read and written, and in no other way, is checked
where the theorem uses them: it is about `NodeReader.context` and `ContextSpec.toValue`.
-/

namespace HttpSuite

open Yaml (Node)

namespace Codec

theorem text_initial : ∃ n, text.read n = .ok "" := ⟨.scalar none .quoted "", rfl⟩

def optionalTemplate : Codec (Option Template) := optional template fun _ => .text _

def templates : Codec (OrderedMap Template) := map template

def condition : Codec ConditionSpec :=
  struct ⟨"", .empty⟩
    [{ name := "expr", codec := text, get := (·.expr), set := fun c v => { c with expr := v },
       required := true, initial := text_initial },
      { name := "args", codec := templates, get := (·.args),
        set := fun c v => { c with args := v } }]
    (by decide) (by simp [Part.Apart]) fun _ => rfl

def request : Codec RequestSpec :=
  struct {}
    [{ name := "host", codec := optionalTemplate, get := (·.host),
       set := fun r v => { r with host := v } },
      { name := "scheme", codec := optionalTemplate, get := (·.scheme),
        set := fun r v => { r with scheme := v } },
      { name := "api", codec := optionalTemplate, get := (·.api),
        set := fun r v => { r with api := v } },
      { name := "headers", codec := templates, get := (·.headers),
        set := fun r v => { r with headers := v } },
      { name := "body", codec := optionalTemplate, get := (·.body),
        set := fun r v => { r with body := v } }]
    (by decide) (by simp [Part.Apart]) fun _ => rfl

def polling : Codec PollingSpec :=
  struct {}
    [{ name := "timeout", codec := duration, get := (·.timeout),
       set := fun p v => { p with timeout := v } },
      { name := "interval", codec := duration, get := (·.interval),
        set := fun p v => { p with interval := v } }]
    (by decide) (by simp [Part.Apart]) fun _ => rfl

def response : Codec ResponseSpec :=
  struct {}
    [{ name := "statusCode", codec := optional (natural 65536 (by decide)) fun _ => .natural _,
       get := (·.statusCode), set := fun r v => { r with statusCode := v } },
      { name := "headers", codec := templates, get := (·.headers),
        set := fun r v => { r with headers := v } },
      { name := "body", codec := optionalTemplate, get := (·.body),
        set := fun r v => { r with body := v } },
      { name := "eventually", codec := optional polling fun _ => .object _,
        get := (·.eventually), set := fun r v => { r with eventually := v } }]
    (by decide) (by simp [Part.Apart]) fun _ => rfl

def definition : Codec DefinitionSpec :=
  struct { name := "" }
    [{ name := "name", codec := text, get := (·.name), set := fun d v => { d with name := v },
       required := true, initial := text_initial },
      { name := "type", codec := origin, get := (·.origin),
        set := fun d v => { d with origin := v } },
      { name := "selector", codec := list template, get := (·.selector),
        set := fun d v => { d with selector := v } }]
    (by decide) (by simp [Part.Apart]) fun _ => rfl

def roundTrip : Codec RoundTripSpec :=
  struct {}
    [{ name := "description", codec := text, get := (·.description),
       set := fun r v => { r with description := v }, initial := text_initial },
      { name := "client", codec := optional text fun _ => .text _, get := (·.client),
        set := fun r v => { r with client := v } },
      { name := "loop", codec := natural (Nat.pow 2 64) (Nat.le_refl _), get := (·.loop),
        set := fun r v => { r with loop := v }, initial := ⟨.scalar none .plain "0", rfl⟩ },
      { name := "when", codec := optional condition fun _ => .object _, get := (·.condition),
        set := fun r v => { r with condition := v } },
      { name := "request", codec := request, get := (·.request),
        set := fun r v => { r with request := v } },
      { name := "response", codec := response, get := (·.response),
        set := fun r v => { r with response := v } },
      { name := "definitions", codec := list definition, get := (·.definitions),
        set := fun r v => { r with definitions := v } }]
    (by decide) (by simp [Part.Apart]) fun _ => rfl

def preset : Codec PresetSpec :=
  struct { name := "" }
    [{ name := "name", codec := text, get := (·.name), set := fun p v => { p with name := v },
       required := true, initial := text_initial },
      { name := "args", codec := templates, get := (·.args),
        set := fun p v => { p with args := v } }]
    (by decide) (by simp [Part.Apart]) fun _ => rfl

def cleaner : Codec CleanerSpec :=
  struct { name := "" }
    [{ name := "name", codec := text, get := (·.name), set := fun c v => { c with name := v },
       required := true, initial := text_initial },
      { name := "forEach", codec := truth, get := (·.forEach),
        set := fun c v => { c with forEach := v }, initial := ⟨.scalar none .plain "false", rfl⟩ },
      { name := "args", codec := templates, get := (·.args),
        set := fun c v => { c with args := v } }]
    (by decide) (by simp [Part.Apart]) fun _ => rfl

def validatedFlow : Codec ValidatedFlow :=
  struct {}
    [{ name := "constructor", codec := list roundTrip, get := (·.constructor),
       set := fun f v => { f with constructor := v } },
      { name := "validator", codec := list roundTrip, get := (·.validator),
        set := fun f v => { f with validator := v } }]
    (by decide) (by simp [Part.Apart]) fun _ => rfl

def «export» : Codec ExportSpec :=
  struct { name := "" }
    [{ name := "name", codec := text, get := (·.name), set := fun e v => { e with name := v },
       required := true, initial := text_initial },
      { name := "selector", codec := list template, get := (·.selector),
        set := fun e v => { e with selector := v } }]
    (by decide) (by simp [Part.Apart]) fun _ => rfl

def context : Codec ContextSpec :=
  struct {}
    [{ name := "summary", codec := text, get := (·.summary),
       set := fun c v => { c with summary := v }, initial := text_initial },
      { name := "description", codec := text, get := (·.description),
        set := fun c v => { c with description := v }, initial := text_initial },
      { name := "presetters", otherName := some "presetter", codec := list preset,
        get := (·.presetters), set := fun c v => { c with presetters := v } },
      { name := "flow", codec := list roundTrip, get := (·.flow),
        set := fun c v => { c with flow := v } },
      { name := "validatedFlow", codec := list validatedFlow, get := (·.validatedFlow),
        set := fun c v => { c with validatedFlow := v } },
      { name := "cleaners", otherName := some "cleaner", codec := list cleaner,
        get := (·.cleaners), set := fun c v => { c with cleaners := v } },
      { name := "exports", codec := list «export», get := (·.exports),
        set := fun c v => { c with exports := v } }]
    (by decide) (by simp [Part.Apart]) fun _ => rfl

def case : Codec CaseSpec :=
  struct {}
    [{ name := "summary", codec := text, get := (·.summary),
       set := fun c v => { c with summary := v }, initial := text_initial },
      { name := "description", codec := text, get := (·.description),
        set := fun c v => { c with description := v }, initial := text_initial },
      { name := "flow", codec := list roundTrip, get := (·.flow),
        set := fun c v => { c with flow := v } },
      { name := "labels", codec := list text, get := (·.labels),
        set := fun c v => { c with labels := v } }]
    (by decide) (by simp [Part.Apart]) fun _ => rfl

end Codec

namespace NodeReader

/-- Whatever a context, a case or a round trip was read from, its value is read as the same. -/
theorem written_reads_back :
    (∀ n c, context n = .ok c → context (.ofValue c.toValue) = .ok c)
      ∧ (∀ n c, case n = .ok c → case (.ofValue c.toValue) = .ok c)
      ∧ ∀ n r, roundTrip n = .ok r → roundTrip (.ofValue r.toValue) = .ok r :=
  ⟨fun _ _ => Codec.context.back, fun _ _ => Codec.case.back, fun _ _ => Codec.roundTrip.back⟩

/-- A case with a body that is written as a structure, an empty pattern and no time to wait. -/
def patientCase : Node :=
  .ofValue (.object [("flow", .array [.object
    [("loop", .ofNat 3), ("request", .object [("body", .object [("a", .null)])]),
      ("response", .object [("body", .string ""),
        ("eventually", .object [("timeout", .string "0")])])]])])

theorem written_reads_back_patientCase :
    ∃ c, case patientCase = .ok c
      ∧ c.flow.map (fun r => (r.loop, r.request.body.map (·.source),
          r.response.body.map (·.source), r.response.eventually.map (·.timeout)))
        = [(3, some "\x7b\"a\":null\x7d", some "", some (some .zero))]
      ∧ case (.ofValue c.toValue) = .ok c := by
  have hread : (match case patientCase with
      | .ok c => c.flow.map fun r => (r.loop, r.request.body.map (·.source),
          r.response.body.map (·.source), r.response.eventually.map (·.timeout))
      | .error _ => [])
      = [(3, some "\x7b\"a\":null\x7d", some "", some (some .zero))] := by decide +kernel
  cases hcase : case patientCase with
  | error e =>
      rw [hcase] at hread
      cases hread
  | ok c =>
      rw [hcase] at hread
      exact ⟨c, rfl, hread, written_reads_back.2.1 _ c hcase⟩

end NodeReader

end HttpSuite
