import HttpSuite.Proofs.Journal
import HttpSuite.Proofs.Template.Steady
import HttpSuite.Proofs.Template.Token
import HttpSuite.Template.Basic

/-!
# Templates one behind the other

If a text is a template, then it ends outside its scripts, and the tokens of a longer text
that begins with it are its own tokens and those of the rest. The one thing that is not kept
is where a text token ends: plain text at the end of the first and at the start of the second
is one token of both. So tokens are put together by `glue`, and the two ways to render come
out the same because what a text stands for is the text.
-/

namespace HttpSuite

namespace Template

/-- Tokens in front of which there is a piece of text, which may be empty. -/
def withText (x : List Char) (tokens : List Token) : List Token :=
  if x = [] then tokens else .text (String.ofList x) :: tokens

/-- The tokens of two texts, where a text token at the end of the first goes on in a text
token at the start of the second. -/
def glue : List Token → List Token → List Token
  | [.text x], .text y :: rest => .text (x ++ y) :: rest
  | [], rest => rest
  | token :: tokens, rest => token :: glue tokens rest

/-- Whether a token is a reference or the name of a function, with which a script begins. -/
def Token.isScript : Token → Bool
  | .variableName _ => true
  | .functionName _ => true
  | _ => false

/-- What may come behind a piece of text: nothing, or a script. -/
def BehindText (tokens : List Token) : Prop := ∀ token ∈ tokens.head?, token.isScript = true

theorem glue_of_not_text {token : Token} (h : token.isScript = true ∨ token.isArg = true)
    (tokens rest : List Token) : glue (token :: tokens) rest = token :: glue tokens rest := by
  cases token <;> simp [Token.isScript, Token.isArg] at h <;> rw [glue] <;> simp

theorem glue_withText {tokens : List Token} (h : tokens ≠ []) (x : List Char)
    (rest : List Token) : glue (withText x tokens) rest = withText x (glue tokens rest) := by
  unfold withText
  split
  · rfl
  · rw [glue]
    · intro _ _ _ _ _ hnil
      exact absurd hnil h

/-- A token that is no text stays in front of what is put together. -/
theorem map_glue_cons {token : Token} (h : token.isScript = true ∨ token.isArg = true)
    (tokens : List Token) (found : Except Stop (List Token)) :
    (found.map (glue tokens)).map (token :: ·) = found.map (glue (token :: tokens)) := by
  cases found with
  | error e => rfl
  | ok rest => rw [Except.map, Except.map, Except.map, glue_of_not_text h]

theorem glue_text (x y : List Char) {tokens : List Token} (h : BehindText tokens) :
    glue (withText x []) (withText y tokens) = withText (x ++ y) tokens := by
  by_cases hx : x = []
  · rw [hx, List.nil_append, withText, if_pos rfl, glue]
  by_cases hy : y = []
  · rw [hy, List.append_nil, withText, withText, withText, if_neg hx, if_pos rfl, if_neg hx]
    cases tokens with
    | nil => rfl
    | cons token rest =>
        cases token <;> first | rfl | cases h _ rfl
  · have hxy : x ++ y ≠ [] := fun hnil => hx (List.append_eq_nil_iff.mp hnil).1
    rw [withText, withText, withText, if_neg hx, if_neg hy, if_neg hxy, glue,
      String.ofList_append]

theorem nextInScript_token {s r : List Char} {token : Token} {mode : Mode}
    (h : nextInScript s = .ok (token, mode, r)) : token.isScript = true := by
  unfold nextInScript at h
  simp only at h
  split at h
  · cases h
  · split at h
    · cases h
    · split at h
      · cases h
      · split at h
        · cases h
          rfl
        · split at h
          · cases h
            rfl
          · cases h

theorem next_script {s : List Char} {step : Step} (h : nextInScript s = .ok step) :
    next .script s = .ok (some step) := by
  rw [next, h]

theorem tokensFrom_script_ok {s : List Char} {tokens : List Token}
    (h : tokensFrom .script s = .ok tokens) :
    ∃ token mode r rest, nextInScript s = .ok (token, mode, r)
      ∧ tokensFrom mode r = .ok rest ∧ tokens = token :: rest := by
  cases hs : nextInScript s with
  | error e =>
      rw [tokensFrom_of_error (e := e) (by simp [next, hs])] at h
      cases h
  | ok step =>
      obtain ⟨token, mode, r⟩ := step
      rw [tokensFrom_of_next (next_script hs), map_ok_iff] at h
      obtain ⟨rest, hrest, rfl⟩ := h
      exact ⟨token, mode, r, rest, rfl, hrest, rfl⟩

theorem readText_nil_end {s r : List Char} (h : readText s = .ok ([], false, r)) : s = [] := by
  fun_induction readText s with grind

/-- A piece of text is taken into one token, unless it is empty, and a script or the end
comes behind it. -/
theorem tokensFrom_of_readText {s x r : List Char} {opens : Bool}
    (h : readText s = .ok (x, opens, r)) :
    tokensFrom .text s
      = (tokensFrom (if opens then .script else .text) r).map (withText x) := by
  cases s with
  | nil =>
      cases h
      rw [if_neg Bool.false_ne_true, tokensFrom_nil]
      rfl
  | cons c rest =>
      cases x with
      | nil =>
          have hopens : opens = true := by
            cases opens with
            | true => rfl
            | false => cases readText_nil_end h
          subst hopens
          have hnext : next .text (c :: rest) = next .script r := by
            simp only [next, nextInText, h]
          rw [tokensFrom_congr hnext, if_pos rfl]
          cases tokensFrom .script r <;> rfl
      | cons d x =>
          have hnext : next .text (c :: rest)
              = .ok (some
                (.text (String.ofList (d :: x)), if opens then .script else .text, r)) := by
            simp only [next, nextInText, h]
          rw [tokensFrom_of_next hnext]
          rfl

theorem tokensFrom_of_readText_error {s : List Char} {e : Stop} (h : readText s = .error e) :
    tokensFrom .text s = .error e := by
  cases s with
  | nil => cases h
  | cons c rest => exact tokensFrom_of_error (by simp only [next, nextInText, h])

theorem behindText_tokensFrom {s x r : List Char} {opens : Bool} {tokens : List Token}
    (hread : readText s = .ok (x, opens, r))
    (h : tokensFrom (if opens then .script else .text) r = .ok tokens) : BehindText tokens := by
  cases opens with
  | true =>
      obtain ⟨token, mode, r', rest, hnext, -, rfl⟩ := tokensFrom_script_ok h
      intro token' htoken
      cases htoken
      exact nextInScript_token hnext
  | false =>
      rw [readText_end hread, if_neg Bool.false_ne_true, tokensFrom_nil] at h
      cases h
      nofun

/-- The tokens of a text that has been taken to its end, and what comes behind it. -/
theorem tokensFrom_append_text {s x r : List Char} (hread : readText s = .ok (x, false, r))
    (t : List Char) :
    tokensFrom .text (s ++ t) = (tokensFrom .text t).map (glue (withText x [])) := by
  have happend := readText_append hread t
  rw [if_neg Bool.false_ne_true] at happend
  cases ht : readText t with
  | error e =>
      rw [ht] at happend
      rw [tokensFrom_of_readText_error happend, tokensFrom_of_readText_error ht]
      rfl
  | ok found =>
      obtain ⟨y, opens, r'⟩ := found
      rw [ht] at happend
      rw [tokensFrom_of_readText happend, tokensFrom_of_readText ht]
      cases hrest : tokensFrom (if opens then .script else .text) r' with
      | error e => rfl
      | ok tokens =>
          rw [Except.map, Except.map, Except.map, glue_text x y (behindText_tokensFrom ht hrest)]

theorem tokensFrom_text_ok {s x r : List Char} {opens : Bool} {tokens : List Token}
    (hread : readText s = .ok (x, opens, r)) (h : tokensFrom .text s = .ok tokens) :
    ∃ rest, tokensFrom (if opens then .script else .text) r = .ok rest
      ∧ tokens = withText x rest := by
  rw [tokensFrom_of_readText hread, map_ok_iff] at h
  obtain ⟨rest, hrest, rfl⟩ := h
  exact ⟨rest, hrest, rfl⟩

theorem length_readText_script {s x r : List Char} (h : readText s = .ok (x, true, r)) :
    r.length < s.length := by
  have hle := length_readText_le h
  cases s with
  | nil => cases h
  | cons c rest =>
      rw [List.length_cons] at hle ⊢
      omega

/-- A text that the lexer takes to its end is taken the same way in front of any other. -/
theorem tokensFrom_append {mode : Mode} {s : List Char} {tokens : List Token}
    (h : tokensFrom mode s = .ok tokens) (t : List Char) :
    tokensFrom mode (s ++ t) = (tokensFrom .text t).map (glue tokens) := by
  induction hn : s.length using Nat.strongRecOn generalizing mode s tokens with
  | ind n ih =>
      subst hn
      cases mode with
      | text =>
          cases hread : readText s with
          | error e =>
              rw [tokensFrom_of_readText_error hread] at h
              cases h
          | ok found =>
              obtain ⟨x, opens, r⟩ := found
              obtain ⟨rest, hrest, rfl⟩ := tokensFrom_text_ok hread h
              cases opens with
              | false =>
                  rw [readText_end hread, if_neg Bool.false_ne_true, tokensFrom_nil] at hrest
                  cases hrest
                  exact tokensFrom_append_text hread t
              | true =>
                  have happend := readText_append hread t
                  rw [if_pos rfl] at happend hrest
                  rw [tokensFrom_of_readText happend, if_pos rfl,
                    ih _ (length_readText_script hread) hrest rfl]
                  obtain ⟨token, _, _, rest', -, -, rfl⟩ := tokensFrom_script_ok hrest
                  cases tokensFrom .text t with
                  | error e => rfl
                  | ok us =>
                      rw [Except.map, Except.map, Except.map,
                        glue_withText (List.cons_ne_nil token rest')]
      | script =>
          obtain ⟨token, mode, r, rest, hnext, hrest, rfl⟩ := tokensFrom_script_ok h
          rw [tokensFrom_of_next (next_script (nextInScript_append hnext t)),
            ih _ (length_nextInScript_lt hnext) hrest rfl,
            map_glue_cons (Or.inl (nextInScript_token hnext))]
      | args =>
          cases hnext : next .args s with
          | error e =>
              rw [tokensFrom_of_error hnext] at h
              cases h
          | ok o =>
              rcases nextInArgs_append hnext with ⟨r, hlt, happend⟩ | ⟨token, r, harg, rfl, happend⟩
              · -- The script is closed, and the rest is taken outside it.
                have hcongr : ∀ t, tokensFrom .args (s ++ t) = tokensFrom .text (r ++ t) :=
                  fun t => tokensFrom_congr (happend t)
                have hs := hcongr []
                rw [List.append_nil, List.append_nil] at hs
                rw [hcongr t]
                exact ih _ hlt (hs ▸ h) rfl
              · rw [tokensFrom_of_next hnext, map_ok_iff] at h
                obtain ⟨rest, hrest, rfl⟩ := h
                have hnext' : next .args (s ++ t) = .ok (some (token, .args, r ++ t)) := happend t
                rw [tokensFrom_of_next hnext', ih _ (length_next_lt hnext) hrest rfl,
                  map_glue_cons (Or.inr harg)]

end Template

/-! ### Rendering -/

/-- Two texts, one behind the other, or the first of their errors. -/
def joinRendered (x y : Except TemplateError String) : Except TemplateError String := do
  let s ← x
  let t ← y
  .ok (s ++ t)

theorem joinRendered_empty (x : Except TemplateError String) : joinRendered (.ok "") x = x := by
  cases x with
  | error e => rfl
  | ok s => exact congrArg Except.ok String.empty_append

theorem joinRendered_assoc (x y z : Except TemplateError String) :
    joinRendered (joinRendered x y) z = joinRendered x (joinRendered y z) := by
  cases x with
  | error e => rfl
  | ok s =>
      cases y with
      | error e => rfl
      | ok t =>
          cases z with
          | error e => rfl
          | ok u => exact congrArg Except.ok String.append_assoc

namespace Segment

variable (functions : FunctionRegistry) (scope : Scope)

theorem renderAll_cons {segment : Segment} (h : functions.SteadyOn segment.called)
    (rest : List Segment) :
    renderAll functions scope (segment :: rest)
      = joinRendered (segment.render functions scope) (renderAll functions scope rest) := by
  rw [renderAll, FunctionRegistry.within, render_upon h]
  rfl

theorem renderAll_text (x : String) (tokens : List Template.Token) :
    renderAll functions scope (ofTokens (.text x :: tokens))
      = joinRendered (.ok x) (renderAll functions scope (ofTokens tokens)) := rfl

theorem argumentsOf_glue {tokens rest : List Template.Token} (h : argumentsOf rest = []) :
    argumentsOf (Template.glue tokens rest) = argumentsOf tokens := by
  fun_induction Template.glue tokens rest with
  | case1 => rfl
  | case2 rest => exact h
  | case3 token tokens rest _ ih =>
      cases token <;> simp only [argumentsOf, ih h]

/-- What tokens put together stand for is what they stand for one behind the other, if the
functions do not look at how much there is behind the first ones. -/
theorem renderAll_glue {tokens rest : List Template.Token} (h : argumentsOf rest = [])
    (hsteady : functions.SteadyOn ((ofTokens tokens).flatMap called)) :
    renderAll functions scope (ofTokens (Template.glue tokens rest))
      = joinRendered (renderAll functions scope (ofTokens tokens))
        (renderAll functions scope (ofTokens rest)) := by
  fun_induction Template.glue tokens rest with
  | case1 x y rest =>
      -- One text token of both.
      have hnil : renderAll functions scope (ofTokens []) = .ok "" := rfl
      rw [renderAll_text, renderAll_text, renderAll_text, hnil, joinRendered_assoc,
        joinRendered_empty, ← joinRendered_assoc]
      rfl
  | case2 rest => exact (joinRendered_empty _).symm
  | case3 token tokens rest _ ih =>
      cases token with
      | arg s => exact ih h hsteady
      | argVariable path => exact ih h hsteady
      | functionName name =>
          obtain ⟨hfunction, hsteady⟩ := FunctionRegistry.steadyOn_append.mp hsteady
          rw [ofTokens, ofTokens, argumentsOf_glue h, renderAll_cons _ _ hfunction,
            renderAll_cons _ _ hfunction, ih h hsteady, joinRendered_assoc]
      | text s => rw [renderAll_text, renderAll_text, ih h hsteady, joinRendered_assoc]
      | variableName path =>
          obtain ⟨hreference, hsteady⟩ := FunctionRegistry.steadyOn_append.mp hsteady
          rw [ofTokens, ofTokens, renderAll_cons _ _ hreference, renderAll_cons _ _ hreference,
            ih h hsteady, joinRendered_assoc]

end Segment

namespace Template

theorem argumentsOf_tokensFrom {s : List Char} {tokens : List Token}
    (h : tokensFrom .text s = .ok tokens) : Segment.argumentsOf tokens = [] := by
  cases hread : readText s with
  | error e =>
      rw [tokensFrom_of_readText_error hread] at h
      cases h
  | ok found =>
      obtain ⟨x, opens, r⟩ := found
      obtain ⟨rest, hrest, rfl⟩ := tokensFrom_text_ok hread h
      have hbehind := behindText_tokensFrom hread hrest
      unfold withText
      split
      · cases rest with
        | nil => rfl
        | cons token rest => cases token <;> first | rfl | cases hbehind _ rfl
      · rfl

theorem parse_source (t : Template) : parse t.source = .ok t := by
  unfold parse
  split
  · next segments hsegments =>
      exact congrArg Except.ok (eq_of_source rfl)
  · next e he =>
      rw [t.segments_eq] at he
      cases he

theorem parse_of_tokens {source : String} {tokens : List Token}
    (h : tokensFrom .text source.toList = .ok tokens) :
    ∃ t, parse source = .ok t ∧ t.segments = Segment.ofTokens tokens := by
  have hsegments : Segment.ofText source = .ok (Segment.ofTokens tokens) := by
    rw [Segment.ofText, tokenize, h]
  refine ⟨⟨source, Segment.ofTokens tokens, hsegments⟩, ?_, rfl⟩
  unfold parse
  split
  · next segments hs =>
      rw [hsegments] at hs
      cases hs
      rfl
  · next e he =>
      rw [hsegments] at he
      cases he

theorem parse_of_stop {source : String} {fault : TemplateFault} {rest : List Char}
    (h : tokensFrom .text source.toList = .error (fault, rest)) :
    parse source = .error (.malformed fault (source.length - rest.length)) := by
  have herror : Segment.ofText source
      = .error (.malformed fault (source.length - rest.length)) := by
    rw [Segment.ofText, tokenize, h]
  unfold parse
  split
  · next segments hs =>
      rw [herror] at hs
      cases hs
  · next e he =>
      rw [herror] at he
      cases he
      rfl

theorem tokens_of_parse {source : String} {t : Template} (h : parse source = .ok t) :
    ∃ tokens, tokensFrom .text source.toList = .ok tokens
      ∧ t.segments = Segment.ofTokens tokens := by
  cases htokens : tokensFrom .text source.toList with
  | ok tokens =>
      obtain ⟨t', ht', hsegments⟩ := parse_of_tokens htokens
      rw [h] at ht'
      cases ht'
      exact ⟨tokens, rfl, hsegments⟩
  | error stop =>
      rw [parse_of_stop htokens] at h
      cases h

/-- Behind a text that is a template, another text is read and rendered as it is on its own. What
the template in front calls must not look at the occasion, for behind it there is more now. -/
theorem parse_append {a b : String} {ta : Template} (ha : parse a = .ok ta) :
    (∀ tb, parse b = .ok tb → ∃ t, parse (a ++ b) = .ok t ∧
        ∀ functions : FunctionRegistry, functions.SteadyOn ta.called → ∀ scope,
        t.render functions scope
          = joinRendered (ta.render functions scope) (tb.render functions scope))
      ∧ ∀ e, parse b = .error e → ∃ fault offset, e = .malformed fault offset
        ∧ parse (a ++ b) = .error (.malformed fault (a.length + offset)) := by
  obtain ⟨as, has, hta⟩ := tokens_of_parse ha
  have happend := tokensFrom_append has b.toList
  rw [← String.toList_append] at happend
  constructor
  · intro tb hb
    obtain ⟨bs, hbs, htb⟩ := tokens_of_parse hb
    rw [hbs] at happend
    obtain ⟨t, ht, hsegments⟩ := parse_of_tokens happend
    refine ⟨t, ht, fun functions hsteady scope => ?_⟩
    rw [called, hta] at hsteady
    rw [render, render, render, hsegments, hta, htb,
      Segment.renderAll_glue functions scope (argumentsOf_tokensFrom hbs) hsteady]
  · intro e hb
    cases hbs : tokensFrom .text b.toList with
    | ok bs =>
        obtain ⟨tb, htb, -⟩ := parse_of_tokens hbs
        rw [hb] at htb
        cases htb
    | error stop =>
        obtain ⟨fault, rest⟩ := stop
        have hlength : rest.length ≤ b.length := by
          rw [← String.length_toList]
          exact length_tokensFrom_error hbs
        rw [parse_of_stop hbs] at hb
        cases hb
        rw [hbs] at happend
        refine ⟨fault, _, rfl, ?_⟩
        rw [parse_of_stop happend, String.length_append, Nat.add_sub_assoc hlength]

/-- Doubled percent signs at the end of the first text take nothing of the second, be it a
script or a fault. The first text calls a function that is always there. -/
theorem parse_append_percent :
    ∃ ta tb t, parse "%\x7blen(a)\x7d%%" = .ok ta ∧ parse "%\x7bb\x7d" = .ok tb
      ∧ parse ("%\x7blen(a)\x7d%%" ++ "%\x7bb\x7d") = .ok t
      ∧ (∀ chance, (FunctionRegistry.builtins chance).SteadyOn ta.called ∧ ∀ scope,
        t.render (.builtins chance) scope = joinRendered (ta.render (.builtins chance) scope)
          (tb.render (.builtins chance) scope))
      ∧ parse "%c" = .error (.malformed .unrecognizedToken 0)
      ∧ parse ("%\x7blen(a)\x7d%%" ++ "%c") = .error (.malformed .unrecognizedToken 11) := by
  have hfirst : (parse "%\x7blen(a)\x7d%%").map segments
      = .ok [.call "len" [.reference "a"], .text "%"] := by decide +kernel
  have hscript : (parse "%\x7bb\x7d").map segments = .ok [.reference "b"] := by decide +kernel
  have hfault : parse "%c" = .error (.malformed .unrecognizedToken 0) := by decide +kernel
  obtain ⟨ta, ha, hsegments⟩ := map_ok_iff.mp hfirst
  obtain ⟨tb, hb, -⟩ := map_ok_iff.mp hscript
  have hsteady : ∀ chance, (FunctionRegistry.builtins chance).SteadyOn ta.called := by
    intro chance
    rw [called, hsegments]
    exact (FunctionRegistry.steadyOn_builtins chance .builtin).mono
      fun _ hname => List.mem_cons_of_mem _ (List.mem_cons_of_mem _ hname)
  obtain ⟨t, ht, hrender⟩ := (parse_append ha).1 tb hb
  obtain ⟨fault, offset, heq, hab⟩ := (parse_append ha).2 _ hfault
  cases heq
  exact ⟨ta, tb, t, ha, hb, ht, fun chance => ⟨hsteady chance, hrender _ (hsteady chance)⟩,
    hfault, hab⟩

end Template

end HttpSuite
