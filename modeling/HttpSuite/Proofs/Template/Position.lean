import HttpSuite.Proofs.Template.Token

/-!
# The lexer by positions

The lexer is given what is left of a source, and where it stands is how much of the source is
gone. As it leaves the end of what it is given, nothing but the position passes from one token to
the next: `nextAt` is a step of the lexer that is told where in the source it stands, and the
tokens of a source are those of its steps from the start, up to the first that gives none.

A step that gives a token goes on, and it does not go beyond the end. So there are no more tokens
than characters, also in front of an error, and every error is at a place of the source.
-/

namespace HttpSuite

/-- The error says what is wrong at a place of a source, and the character that it tells stands
there. -/
def TemplateError.PointsInto (source : List Char) (e : TemplateError) : Prop :=
  ∃ fault offset, e = .malformed fault offset ∧ offset ≤ source.length
    ∧ ∀ c, fault = .unexpectedChar c → source[offset]? = some c

namespace Template

variable {source : List Char}

theorem drop_of_suffix {r : List Char} (h : r <:+ source) :
    source.drop (source.length - r.length) = r := (List.suffix_iff_eq_drop.mp h).symm

/-- What is left at an error tells its place. -/
theorem FoundIn.pointsInto {fault : TemplateFault} {r : List Char} (h : FoundIn source (fault, r)) :
    TemplateError.PointsInto source (.malformed fault (source.length - r.length)) := by
  refine ⟨fault, _, rfl, Nat.sub_le _ _, fun c hc => ?_⟩
  rw [← List.head?_drop, drop_of_suffix h.1]
  exact h.2 c hc

/-- A step of the lexer at a position: the token, how the lexer goes on, and where. -/
def nextAt (source : List Char) (mode : Mode) (position : Nat) :
    Except TemplateError (Option (Token × Mode × Nat)) :=
  match next mode (source.drop position) with
  | .ok none => .ok none
  | .ok (some (token, mode', rest)) => .ok (some (token, mode', source.length - rest.length))
  | .error (fault, rest) => .error (.malformed fault (source.length - rest.length))

/-- A step goes on, not beyond the end, and the next one begins where it stops. -/
theorem nextAt_ok {mode mode' : Mode} {position position' : Nat} {token : Token}
    (h : nextAt source mode position = .ok (some (token, mode', position'))) :
    position < position' ∧ position' ≤ source.length
      ∧ next mode (source.drop position) = .ok (some (token, mode', source.drop position')) := by
  unfold nextAt at h
  split at h
  · cases h
  · next rest hnext =>
      cases h
      have hlt : rest.length < (source.drop position).length := length_next_lt hnext
      have hsuffix := (next_suffix hnext).trans (List.drop_suffix position source)
      rw [List.length_drop] at hlt
      refine ⟨by omega, Nat.sub_le _ _, ?_⟩
      rw [hnext, drop_of_suffix hsuffix]
  · cases h

theorem nextAt_error {mode : Mode} {position : Nat} {e : TemplateError}
    (h : nextAt source mode position = .error e) : e.PointsInto source := by
  unfold nextAt at h
  split at h
  · cases h
  · cases h
  · next hnext =>
      cases h
      exact ((next_error hnext).mono (List.drop_suffix position source)).pointsInto

/-- The tokens that the lexer gives on its way from the start of a source to a position. -/
inductive Reaches (source : List Char) : List Token → Mode → Nat → Prop where
  | start : Reaches source [] .text 0
  | step {tokens : List Token} {token : Token} {mode mode' : Mode} {position position' : Nat}
      (h : Reaches source tokens mode position)
      (hnext : nextAt source mode position = .ok (some (token, mode', position'))) :
      Reaches source (tokens ++ [token]) mode' position'

/-- Every token takes a character at least. -/
theorem Reaches.bounds {tokens : List Token} {mode : Mode} {position : Nat}
    (h : Reaches source tokens mode position) :
    tokens.length ≤ position ∧ position ≤ source.length := by
  induction h with
  | start => exact ⟨Nat.le_refl 0, Nat.zero_le _⟩
  | step _ hnext ih =>
      obtain ⟨hlt, hle, -⟩ := nextAt_ok hnext
      rw [List.length_append, List.length_singleton]
      exact ⟨by omega, hle⟩

/-- From wherever it has come to, the lexer goes on to a last step, and what is found is told by
the tokens up to there and by that step. -/
theorem Reaches.exists_last {before : List Token} {mode : Mode} {position : Nat}
    (h : Reaches source before mode position) :
    ∃ tokens mode' position', Reaches source (before ++ tokens) mode' position'
      ∧ (nextAt source mode' position' = .ok none
          ∧ tokensFrom mode (source.drop position) = .ok tokens
        ∨ ∃ fault r, nextAt source mode' position'
            = .error (.malformed fault (source.length - r.length))
          ∧ tokensFrom mode (source.drop position) = .error (fault, r)) := by
  induction hn : source.length - position using Nat.strongRecOn
    generalizing before mode position with
  | ind n ih =>
      subst hn
      cases hnext : next mode (source.drop position) with
      | error stop =>
          have hat : nextAt source mode position
              = .error (.malformed stop.1 (source.length - stop.2.length)) := by
            rw [nextAt, hnext]
          refine ⟨[], mode, position, (List.append_nil before).symm ▸ h, .inr ?_⟩
          exact ⟨stop.1, stop.2, hat, tokensFrom_of_error hnext⟩
      | ok o =>
          cases o with
          | none =>
              have hat : nextAt source mode position = .ok none := by rw [nextAt, hnext]
              exact ⟨[], mode, position, (List.append_nil before).symm ▸ h,
                .inl ⟨hat, tokensFrom_of_none hnext⟩⟩
          | some step =>
              obtain ⟨token, mode', rest⟩ := step
              have hat : nextAt source mode position
                  = .ok (some (token, mode', source.length - rest.length)) := by
                rw [nextAt, hnext]
              obtain ⟨hlt, hle, hdrop⟩ := nextAt_ok hat
              obtain ⟨tokens, last, position', hreach, hlast⟩ :=
                ih _ (by omega) (h.step hat) rfl
              refine ⟨token :: tokens, last, position', by simpa using hreach, ?_⟩
              rw [tokensFrom_of_next hdrop]
              rcases hlast with ⟨hend, htokens⟩ | ⟨fault, r, hend, htokens⟩
              · exact .inl ⟨hend, by rw [htokens]; rfl⟩
              · exact .inr ⟨fault, r, hend, by rw [htokens]; rfl⟩

/-- The tokens of a source are those on the way to the last step, whose error is the error. -/
theorem exists_last_step (source : String) :
    ∃ tokens mode position, Reaches source.toList tokens mode position
      ∧ (nextAt source.toList mode position = .ok none ∧ tokenize source = .ok tokens
        ∨ ∃ e, nextAt source.toList mode position = .error e ∧ tokenize source = .error e) := by
  have hstart : Reaches source.toList [] .text 0 := .start
  obtain ⟨tokens, mode, position, hreach, hlast⟩ := hstart.exists_last
  rw [List.nil_append] at hreach
  rw [List.drop_zero] at hlast
  refine ⟨tokens, mode, position, hreach, ?_⟩
  rcases hlast with ⟨hend, htokens⟩ | ⟨fault, r, hend, htokens⟩
  · exact .inl ⟨hend, by rw [tokenize, htokens]⟩
  · exact .inr ⟨_, hend, by rw [tokenize, htokens, String.length_toList]⟩

/-- The lexer goes on with every token, so it gives no more tokens than there are characters; and
its errors are at places of the source. -/
theorem lexer_advances (source : String) :
    (∀ mode position token mode' position',
        nextAt source.toList mode position = .ok (some (token, mode', position')) →
          position < position' ∧ position' ≤ source.length)
      ∧ (∀ mode position e, nextAt source.toList mode position = .error e →
          e.PointsInto source.toList)
      ∧ (∀ tokens mode position, Reaches source.toList tokens mode position →
          tokens.length ≤ source.length)
      ∧ (∃ tokens mode position, Reaches source.toList tokens mode position
        ∧ (nextAt source.toList mode position = .ok none ∧ tokenize source = .ok tokens
          ∨ ∃ e, nextAt source.toList mode position = .error e ∧ tokenize source = .error e))
      ∧ (∀ tokens, tokenize source = .ok tokens → tokens.length ≤ source.length)
      ∧ ∀ e, tokenize source = .error e → e.PointsInto source.toList := by
  rw [← String.length_toList]
  have hbound : ∀ tokens mode position, Reaches source.toList tokens mode position →
      tokens.length ≤ source.toList.length := fun _ _ _ h => h.bounds.1.trans h.bounds.2
  have hlast := exists_last_step source
  refine ⟨fun _ _ _ _ _ h => ⟨(nextAt_ok h).1, (nextAt_ok h).2.1⟩, fun _ _ _ => nextAt_error,
    hbound, hlast, ?_⟩
  obtain ⟨tokens, mode, position, hreach, ⟨-, hfound⟩ | ⟨e, hat, hfound⟩⟩ := hlast
  · rw [hfound]
    refine ⟨fun tokens' h => ?_, nofun⟩
    cases h
    exact hbound tokens mode position hreach
  · rw [hfound]
    refine ⟨nofun, fun e' h => ?_⟩
    cases h
    exact nextAt_error hat

/-- A blank inside a name: the character behind it is the sixth. -/
theorem lexer_advances_unexpected :
    ∃ tokens mode position, Reaches "ä%\x7ba b\x7d".toList tokens mode position
      ∧ tokens.length ≤ 7
      ∧ tokenize "ä%\x7ba b\x7d" = .error (.malformed (.unexpectedChar 'b') 5)
      ∧ TemplateError.PointsInto "ä%\x7ba b\x7d".toList
        (.malformed (.unexpectedChar 'b') 5) := by
  have hfound : tokenize "ä%\x7ba b\x7d" = .error (.malformed (.unexpectedChar 'b') 5) := by
    decide +kernel
  have hlength : "ä%\x7ba b\x7d".length = 7 := by decide +kernel
  obtain ⟨-, -, hbound, ⟨tokens, mode, position, hreach, -⟩, -, herror⟩ :=
    lexer_advances "ä%\x7ba b\x7d"
  exact ⟨tokens, mode, position, hreach, hlength ▸ hbound tokens mode position hreach, hfound,
    herror _ hfound⟩

end Template

end HttpSuite
