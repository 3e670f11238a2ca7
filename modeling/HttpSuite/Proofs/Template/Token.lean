import HttpSuite.Proofs.Template.Lexeme
import Mathlib.Data.List.Infix

/-!
# The lexer in front of more text

What the lexer takes from the front of a text it also takes when more text follows: a script and
an argument stop at a character that it has seen, and text outside scripts goes on in any case.

The second half is about what is left. The lexer leaves the end of what it is given, a token
less of it; and an error is told by what is left where it was found, with a character that cannot
stand there in front. Both go through the functions of the lexer in the same order, and through
its tokens.
-/

namespace HttpSuite.Template

open HttpSuite.Text

theorem readText_cons {c : Char} (hc : c ≠ '%') (s : List Char) :
    readText (c :: s) = (readText s).map fun p => (c :: p.1, p.2) := by
  cases s with
  | nil => simp [readText, hc, Except.map]
  | cons d rest =>
      rw [readText, if_neg (mt beq_iff_eq.mp hc)]
      cases readText (d :: rest) <;> rfl

theorem readText_pair (s : List Char) :
    readText ('%' :: '%' :: s) = (readText s).map fun p => ('%' :: p.1, p.2) := by
  rw [readText, if_pos (beq_self_eq_true _), if_pos (beq_self_eq_true _)]
  cases readText s <;> rfl

/-- Text with its percent signs doubled is taken, and what is behind it goes on. -/
theorem readText_escape_append (x t : List Char) :
    readText (escape x ++ t) = (readText t).map fun p => (x ++ p.1, p.2) := by
  induction x with
  | nil => cases h : readText t <;> simp [escape, h, Except.map]
  | cons c x ih =>
      rw [escape_cons, List.append_assoc]
      by_cases hc : c = '%'
      · subst hc
        rw [if_pos (beq_self_eq_true '%'), List.cons_append, List.singleton_append, readText_pair,
          ih]
        cases readText t <;> rfl
      · rw [if_neg (mt beq_iff_eq.mp hc), List.singleton_append, readText_cons hc, ih]
        cases readText t <;> rfl

/-- Text goes on in what follows, unless a script opens behind it. -/
theorem readText_append {s x r : List Char} {opens : Bool} (h : readText s = .ok (x, opens, r))
    (t : List Char) :
    readText (s ++ t) = if opens then .ok (x, true, r ++ t)
      else (readText t).map fun p => (x ++ p.1, p.2) := by
  rw [readText_ok h, List.append_assoc, readText_escape_append]
  cases opens with
  | false => rfl
  | true =>
      have hopen : readText ('%' :: '\x7b' :: (r ++ t)) = .ok ([], true, r ++ t) := rfl
      rw [if_pos rfl, if_pos rfl, List.cons_append, List.cons_append, hopen, Except.map,
        List.append_nil]

theorem nextInScript_append {s r : List Char} {token : Token} {mode : Mode}
    (h : nextInScript s = .ok (token, mode, r)) (t : List Char) :
    nextInScript (s ++ t) = .ok (token, mode, r ++ t) := by
  obtain ⟨b₁, name, b₂, c, hb₁, hname, hb₂, rfl, ⟨rfl, rfl, rfl⟩ | ⟨rfl, rfl, rfl⟩⟩ :=
    nextInScript_ok h
  · have hnext := nextInScript_name hb₁ hb₂ hname (Or.inl rfl) (r ++ t)
    simpa using hnext
  · have hnext := nextInScript_name hb₁ hb₂ hname (Or.inr rfl) (r ++ t)
    simpa using hnext

/-- In a list of arguments either the script is closed, and the lexer goes on outside it, or
there is an argument. -/
theorem nextInArgs_append {s : List Char} {o : Option Step} (h : nextInArgs s = .ok o) :
    (∃ r, r.length < s.length ∧ ∀ t, nextInArgs (s ++ t) = nextInText (r ++ t))
      ∨ ∃ token r, token.isArg = true ∧ o = some (token, .args, r)
        ∧ ∀ t, nextInArgs (s ++ t) = .ok (some (token, .args, r ++ t)) := by
  rcases nextInArgs_ok h with ⟨b₁, b₂, r, hb₁, hb₂, rfl, -⟩ | ⟨a, p, c, r, -, rfl, rfl, hbehind⟩
  · refine .inl ⟨r, by simp only [List.length_append, List.length_cons]; omega, fun t => ?_⟩
    have hclose := nextInArgs_close hb₁ hb₂ (r ++ t)
    simpa using hclose
  · refine .inr ⟨a.token, _, by cases a <;> rfl, rfl, fun t => ?_⟩
    rw [List.append_assoc, List.cons_append, hbehind]
    split <;> rfl

/-! ### What a token leaves -/

theorem skipBlanks_suffix (s : List Char) : skipBlanks s <:+ s := List.dropWhile_suffix _

theorem readName_suffix (s : List Char) : (readName s).2 <:+ s := ⟨_, readName_split s⟩

theorem nextInScript_suffix {s : List Char} {step : Step} (h : nextInScript s = .ok step) :
    step.2.2 <:+ s := by
  obtain ⟨token, mode, r⟩ := step
  obtain ⟨b₁, name, b₂, c, -, -, -, rfl, -⟩ := nextInScript_ok h
  exact ⟨b₁ ++ (name ++ (b₂ ++ [c])), by simp⟩

theorem readText_suffix {s x r : List Char} {opens : Bool} (h : readText s = .ok (x, opens, r)) :
    r <:+ s := by
  have hs := readText_ok h
  cases opens with
  | false =>
      rw [readText_end h]
      exact List.nil_suffix
  | true =>
      rw [if_pos rfl] at hs
      exact ⟨escape x ++ ['%', '\x7b'], by rw [hs]; simp⟩

theorem nextInText_suffix {s : List Char} {step : Step} (h : nextInText s = .ok (some step)) :
    step.2.2 <:+ s := by
  unfold nextInText at h
  split at h
  · cases h
  · split at h
    · cases h
    · next rest hread =>
        split at h
        · next hscript =>
            cases h
            exact (nextInScript_suffix hscript).trans (readText_suffix hread)
        · cases h
    · next hread =>
        cases h
        exact readText_suffix hread

theorem nextInArgs_suffix {s : List Char} {step : Step} (h : nextInArgs s = .ok (some step)) :
    step.2.2 <:+ s := by
  rcases nextInArgs_ok h with ⟨b₁, b₂, r, -, -, rfl, hr⟩ | ⟨a, p, c, r, -, rfl, ho, -⟩
  · refine (nextInText_suffix hr).trans ⟨b₁ ++ ')' :: (b₂ ++ ['\x7d']), by simp⟩
  · cases ho
    dsimp only
    split
    · exact ⟨p ++ [c], by simp⟩
    · exact ⟨p, rfl⟩

/-- What is left behind a token is the end of what there was. -/
theorem next_suffix {mode : Mode} {s : List Char} {step : Step}
    (h : next mode s = .ok (some step)) : step.2.2 <:+ s := by
  cases mode with
  | text => exact nextInText_suffix h
  | args => exact nextInArgs_suffix h
  | script =>
      rw [next] at h
      split at h
      · next hscript =>
          cases h
          exact nextInScript_suffix hscript
      · cases h

/-! ### What is left at an error -/

/-- The error was found in the source: what is left there is the end of it, and a character that
cannot stand there is the first of that. -/
def FoundIn (s : List Char) (stop : Stop) : Prop :=
  stop.2 <:+ s ∧ ∀ c, stop.1 = .unexpectedChar c → stop.2.head? = some c

theorem FoundIn.mono {s r : List Char} {stop : Stop} (h : FoundIn r stop) (hr : r <:+ s) :
    FoundIn s stop := ⟨h.1.trans hr, h.2⟩

theorem foundIn_of_suffix {s r : List Char} {fault : TemplateFault} (hr : r <:+ s)
    (h : ∀ c, fault ≠ .unexpectedChar c) : FoundIn s (fault, r) :=
  ⟨hr, fun c hc => absurd hc (h c)⟩

theorem foundIn_unexpectedChar {s r : List Char} {c : Char} (hr : c :: r <:+ s) :
    FoundIn s (.unexpectedChar c, c :: r) := by
  refine ⟨hr, fun _ hc => ?_⟩
  cases hc
  rfl

theorem readText_error {s : List Char} {stop : Stop} (h : readText s = .error stop) :
    FoundIn s stop := by
  fun_induction readText s with
  | case1 => cases h
  | case2 c hc =>
      cases h
      exact foundIn_of_suffix List.suffix_rfl (by simp)
  | case3 => cases h
  | case4 => cases h
  | case5 c d rest hc hd e hrest ih =>
      cases h
      exact (ih hrest).mono ((List.suffix_cons d rest).trans (List.suffix_cons c (d :: rest)))
  | case6 => cases h
  | case7 =>
      cases h
      exact foundIn_of_suffix List.suffix_rfl (by simp)
  | case8 => cases h
  | case9 c d rest hc e hrest ih =>
      cases h
      exact (ih hrest).mono (List.suffix_cons c (d :: rest))

theorem finishArg_error {s : List Char} {stop : Stop} (h : finishArg s = .error stop) :
    FoundIn s stop := by
  unfold finishArg at h
  split at h
  · cases h
    exact foundIn_of_suffix List.nil_suffix (by simp)
  · next c rest hs =>
      split at h
      · cases h
      · split at h
        · cases h
        · cases h
          have hsuffix : c :: rest <:+ s := hs ▸ skipBlanks_suffix s
          exact foundIn_unexpectedChar hsuffix

theorem argStep_error {token : Token} {s : List Char} {stop : Stop}
    (h : argStep token s = .error stop) : FoundIn s stop := by
  unfold argStep at h
  split at h
  · cases h
  · next hfinish =>
      cases h
      exact finishArg_error hfinish

theorem nextInScript_error {s : List Char} {stop : Stop} (h : nextInScript s = .error stop) :
    FoundIn s stop := by
  unfold nextInScript at h
  simp only at h
  split at h
  · cases h
    exact foundIn_of_suffix List.nil_suffix (by simp)
  · split at h
    · cases h
      exact foundIn_of_suffix (skipBlanks_suffix s) (by simp)
    · split at h
      · cases h
        exact foundIn_of_suffix List.nil_suffix (by simp)
      · next c rest hrest =>
          split at h
          · cases h
          · split at h
            · cases h
            · cases h
              have hsuffix : c :: rest <:+ s := by
                rw [← hrest]
                exact (skipBlanks_suffix _).trans
                  ((readName_suffix _).trans (skipBlanks_suffix s))
              exact foundIn_unexpectedChar hsuffix

theorem nextInText_error {s : List Char} {stop : Stop} (h : nextInText s = .error stop) :
    FoundIn s stop := by
  unfold nextInText at h
  split at h
  · cases h
  · split at h
    · next hread =>
        cases h
        exact readText_error hread
    · next hread =>
        split at h
        · cases h
        · next hscript =>
            cases h
            exact (nextInScript_error hscript).mono (readText_suffix hread)
    · cases h

theorem nextBareArg_error {s : List Char} {stop : Stop} (h : nextBareArg s = .error stop) :
    FoundIn s stop := by
  unfold nextBareArg at h
  simp only at h
  split at h
  · exact (argStep_error h).mono (readName_suffix s)
  · split at h
    · cases h
      exact foundIn_of_suffix List.nil_suffix (by simp)
    · next x rest hbare =>
        split at h
        · cases h
          exact foundIn_of_suffix List.suffix_rfl (by simp)
        · obtain ⟨c, r, -, rfl, rfl, -⟩ := readBare_ok hbare
          exact (argStep_error h).mono (List.suffix_append x (c :: r))

theorem nextInArgs_error {s : List Char} {stop : Stop} (h : nextInArgs s = .error stop) :
    FoundIn s stop := by
  unfold nextInArgs at h
  split at h
  · cases h
    exact foundIn_of_suffix List.nil_suffix (by simp)
  · next c rest hs =>
      have hsuffix : c :: rest <:+ s := hs ▸ skipBlanks_suffix s
      have hrest : rest <:+ s := (List.suffix_cons c rest).trans hsuffix
      split at h
      · split at h
        · cases h
          exact foundIn_of_suffix List.nil_suffix (by simp)
        · next d rest' hclose =>
            have hsuffix' : d :: rest' <:+ s := (hclose ▸ skipBlanks_suffix rest).trans hrest
            split at h
            · exact (nextInText_error h).mono ((List.suffix_cons d rest').trans hsuffix')
            · cases h
              exact foundIn_of_suffix hsuffix' (by simp)
      · split at h
        · split at h
          · next x r hx =>
              obtain ⟨-, rfl⟩ := readQuoted_ok hx
              exact (argStep_error h).mono
                (((List.suffix_cons _ r).trans (List.suffix_append x _)).trans hrest)
          · cases h
            exact foundIn_of_suffix hsuffix (by simp)
        · exact (nextBareArg_error h).mono hsuffix

theorem next_error {mode : Mode} {s : List Char} {stop : Stop}
    (h : next mode s = .error stop) : FoundIn s stop := by
  cases mode with
  | text => exact nextInText_error h
  | args => exact nextInArgs_error h
  | script =>
      rw [next] at h
      split at h
      · cases h
      · next hscript =>
          cases h
          exact nextInScript_error hscript

/-! ### One token after another -/

theorem tokensFrom_of_error {mode : Mode} {s : List Char} {e : Stop}
    (h : next mode s = .error e) : tokensFrom mode s = .error e := by
  rw [tokensFrom]
  split <;> simp_all

theorem tokensFrom_of_none {mode : Mode} {s : List Char} (h : next mode s = .ok none) :
    tokensFrom mode s = .ok [] := by
  rw [tokensFrom]
  split <;> simp_all

theorem tokensFrom_of_next {mode mode' : Mode} {s r : List Char} {token : Token}
    (h : next mode s = .ok (some (token, mode', r))) :
    tokensFrom mode s = (tokensFrom mode' r).map (token :: ·) := by
  rw [tokensFrom]
  split
  · next h' => rw [h] at h'; cases h'
  · next h' => rw [h] at h'; cases h'
  · next h' =>
      rw [h] at h'
      cases h'
      cases tokensFrom mode' r <;> rfl

/-- The tokens are those of any place at which the same token is next. -/
theorem tokensFrom_congr {mode mode' : Mode} {s s' : List Char}
    (h : next mode s = next mode' s') : tokensFrom mode s = tokensFrom mode' s' := by
  cases hnext : next mode s with
  | error e => rw [tokensFrom_of_error hnext, tokensFrom_of_error (h ▸ hnext)]
  | ok o =>
      cases o with
      | none => rw [tokensFrom_of_none hnext, tokensFrom_of_none (h ▸ hnext)]
      | some step =>
          rw [tokensFrom_of_next hnext]
          rw [h] at hnext
          exact (tokensFrom_of_next hnext).symm

theorem tokensFrom_error {mode : Mode} {s : List Char} {stop : Stop}
    (h : tokensFrom mode s = .error stop) : FoundIn s stop := by
  induction hn : s.length using Nat.strongRecOn generalizing mode s with
  | ind n ih =>
      subst hn
      cases hnext : next mode s with
      | error e =>
          rw [tokensFrom_of_error hnext] at h
          cases h
          exact next_error hnext
      | ok o =>
          cases o with
          | none =>
              rw [tokensFrom_of_none hnext] at h
              cases h
          | some step =>
              obtain ⟨token, mode', rest⟩ := step
              rw [tokensFrom_of_next hnext] at h
              cases hrest : tokensFrom mode' rest with
              | ok tokens =>
                  rw [hrest] at h
                  cases h
              | error e =>
                  rw [hrest] at h
                  cases h
                  exact (ih _ (length_next_lt hnext) hrest rfl).mono (next_suffix hnext)

theorem length_tokensFrom_error {mode : Mode} {s r : List Char} {fault : TemplateFault}
    (h : tokensFrom mode s = .error (fault, r)) : r.length ≤ s.length :=
  (tokensFrom_error h).1.length_le

end HttpSuite.Template
