import HttpSuite.Template.Error

/-!
# Tokens of templates

A template is text with scripts in it. Outside a script two percent signs stand
for one; a percent sign and a brace open a script. A script is the name of a
variable, or the name of a function with its arguments in round brackets. An
argument is quoted with backticks and taken as it is; or it is a name, if a comma
or bracket follows; or it is anything else up to the next comma or bracket that
no other bracket encloses.

The lexer is a machine with three modes that takes one token at a time from the
front of what is left. It never looks at what it has taken, so an error is told
by what is left where it was found; `tokenize` turns that into an offset. Every
token leaves less than was there before it, `length_next_lt`, and that is why the
machine stops.
-/

namespace HttpSuite.Template

open HttpSuite.Text

/-- A token of a template. -/
inductive Token where
  /-- Text, each pair of percent signs already one. -/
  | text (s : String)
  /-- A reference to a variable. -/
  | variableName (name : String)
  /-- The name of a function that is called. -/
  | functionName (name : String)
  /-- An argument that is a text. -/
  | arg (s : String)
  /-- An argument that refers to a variable. -/
  | argVariable (name : String)
  deriving DecidableEq, Repr, Inhabited

/-- Where the lexer stands. -/
inductive Mode where
  /-- Outside all scripts. -/
  | text
  /-- Behind the opening of a script. -/
  | script
  /-- Behind the opening of an argument list, or behind an argument. -/
  | args
  deriving DecidableEq, Repr, Inhabited

/-- A fault, and what was left of the source where it was found. -/
abbrev Stop := TemplateFault × List Char

/-- Characters that begin a name. -/
def isNameStart (c : Char) : Bool := isAlphabetic c || c == '_'

/-- Characters inside a name, which may be a path. -/
def isNameChar (c : Char) : Bool :=
  isAlphanumeric c || c == '_' || c == '.' || c == '[' || c == ']' || c == '#'

/-- Drops blanks at the front. -/
def skipBlanks (s : List Char) : List Char := s.dropWhile isWhitespace

/-- The name at the front, which may be empty, and what follows it. -/
def readName : List Char → List Char × List Char
  | [] => ([], [])
  | c :: rest =>
    if isNameStart c then ((c :: rest).takeWhile isNameChar, (c :: rest).dropWhile isNameChar)
    else ([], c :: rest)

/-- The text at the front, whether a script begins behind it, and what follows.
Without a script the text reaches to the end. -/
def readText : List Char → Except Stop (List Char × Bool × List Char)
  | [] => .ok ([], false, [])
  | [c] => if c == '%' then .error (.unrecognizedToken, [c]) else .ok ([c], false, [])
  | c :: d :: rest =>
    if c == '%' then
      if d == '%' then
        match readText rest with
        | .ok (t, opens, r) => .ok ('%' :: t, opens, r)
        | .error e => .error e
      else if d == '\x7b' then .ok ([], true, rest)
      else .error (.unrecognizedToken, c :: d :: rest)
    else
      match readText (d :: rest) with
      | .ok (t, opens, r) => .ok (c :: t, opens, r)
      | .error e => .error e

/-- The text up to the closing backtick, and what follows it. -/
def readQuoted : List Char → Option (List Char × List Char)
  | [] => none
  | c :: rest =>
    if c == '\x60' then some ([], rest) else (readQuoted rest).map fun (t, r) => (c :: t, r)

/-- The text up to the next comma or closing bracket that no bracket encloses,
and what follows from there on. -/
def readBare (depth : Nat) : List Char → Option (List Char × List Char)
  | [] => none
  | c :: rest =>
    if depth == 0 && (c == ',' || c == ')') then some ([], c :: rest)
    else
      let depth :=
        if c == '(' || c == '[' || c == '\x7b' then depth + 1
        else if c == ')' || c == ']' || c == '\x7d' then depth - 1
        else depth
      (readBare depth rest).map fun (t, r) => (c :: t, r)

/-- A token, the mode behind it, and what is left. -/
abbrev Step := Token × Mode × List Char

/-- The token of a script: a reference, or the name of a function. -/
def nextInScript (s : List Char) : Except Stop Step :=
  let s := skipBlanks s
  if s.isEmpty then .error (.unclosedScript, [])
  else
    let (name, rest) := readName s
    if name.isEmpty then .error (.emptyName, s)
    else
      match skipBlanks rest with
      | [] => .error (.unclosedScript, [])
      | c :: rest =>
        if c == '\x7d' then .ok (.variableName (String.ofList name), .text, rest)
        else if c == '(' then .ok (.functionName (String.ofList name), .args, rest)
        else .error (.unexpectedChar c, c :: rest)

/-- The token outside scripts; `none` at the end. -/
def nextInText (s : List Char) : Except Stop (Option Step) :=
  match s with
  | [] => .ok none
  | _ =>
    match readText s with
    | .error e => .error e
    | .ok ([], _, rest) =>
      match nextInScript rest with
      | .ok step => .ok (some step)
      | .error e => .error e
    | .ok (t, opens, rest) =>
      .ok (some (.text (String.ofList t), if opens then .script else .text, rest))

/-- Takes the comma behind an argument; a closing bracket is left. -/
def finishArg (s : List Char) : Except Stop (List Char) :=
  match skipBlanks s with
  | [] => .error (.unclosedArguments, [])
  | c :: rest =>
    if c == ',' then .ok rest
    else if c == ')' then .ok (c :: rest)
    else .error (.unexpectedChar c, c :: rest)

/-- An argument that has been read, with the comma behind it taken. -/
def argStep (token : Token) (rest : List Char) : Except Stop (Option Step) :=
  match finishArg rest with
  | .ok rest => .ok (some (token, .args, rest))
  | .error e => .error e

/-- An argument that is not quoted. -/
def nextBareArg (s : List Char) : Except Stop (Option Step) :=
  let after := skipBlanks (readName s).2
  if !(readName s).1.isEmpty && (after.head? == some ',' || after.head? == some ')') then
    argStep (.argVariable (String.ofList (readName s).1)) (readName s).2
  else
    match readBare 0 s with
    | none => .error (.unclosedArguments, [])
    | some (t, rest) =>
      let t := trimEndBy isWhitespace t
      if t.isEmpty then .error (.emptyName, s) else argStep (.arg (String.ofList t)) rest

/-- The next argument; behind the last one the script is closed, and the token is
the one outside it. -/
def nextInArgs (s : List Char) : Except Stop (Option Step) :=
  match skipBlanks s with
  | [] => .error (.unclosedArguments, [])
  | c :: rest =>
    if c == ')' then
      match skipBlanks rest with
      | [] => .error (.unclosedScript, [])
      | d :: rest => if d == '\x7d' then nextInText rest else .error (.unclosedScript, d :: rest)
    else if c == '\x60' then
      match readQuoted rest with
      | some (t, rest) => argStep (.arg (String.ofList t)) rest
      | none => .error (.unclosedQuote, c :: rest)
    else nextBareArg (c :: rest)

/-- The next token; `none` at the end of the source. -/
def next (mode : Mode) (s : List Char) : Except Stop (Option Step) :=
  match mode with
  | .text => nextInText s
  | .script =>
    match nextInScript s with
    | .ok step => .ok (some step)
    | .error e => .error e
  | .args => nextInArgs s

/-! ### Every token leaves less -/

theorem length_dropWhile_le {α : Type} (p : α → Bool) (s : List α) :
    (s.dropWhile p).length ≤ s.length :=
  (List.dropWhile_sublist p).length_le

theorem length_skipBlanks_le (s : List Char) : (skipBlanks s).length ≤ s.length :=
  length_dropWhile_le isWhitespace s

theorem length_readName (s : List Char) :
    (readName s).1.length + (readName s).2.length = s.length := by
  cases s with
  | nil => rfl
  | cons c rest =>
    rw [readName]
    split
    · have := congrArg List.length
        (List.takeWhile_append_dropWhile (p := isNameChar) (l := c :: rest))
      rw [List.length_append] at this
      exact this
    · simp

theorem length_readName_le (s : List Char) : (readName s).2.length ≤ s.length := by
  have := length_readName s
  omega

theorem length_readText_le {s t r : List Char} {opens : Bool}
    (h : readText s = .ok (t, opens, r)) : r.length ≤ s.length - 1 := by
  fun_induction readText s generalizing t opens r with grind

theorem length_readQuoted_le {s t r : List Char} (h : readQuoted s = some (t, r)) :
    r.length ≤ s.length := by
  induction s generalizing t r with
  | nil => simp [readQuoted] at h
  | cons c rest ih =>
    simp only [readQuoted] at h
    split at h
    · simp_all
    · obtain ⟨⟨t', r'⟩, h', heq⟩ := Option.map_eq_some_iff.1 h
      have := ih h'
      grind

theorem length_readBare {depth : Nat} {s t r : List Char} (h : readBare depth s = some (t, r)) :
    r.length + t.length = s.length := by
  induction s generalizing depth t r with
  | nil => simp [readBare] at h
  | cons c rest ih =>
    simp only [readBare] at h
    split at h
    · grind
    · obtain ⟨⟨t', r'⟩, h', heq⟩ := Option.map_eq_some_iff.1 h
      have := ih h'
      grind

theorem length_trimEndBy_le (p : Char → Bool) (s : List Char) :
    (trimEndBy p s).length ≤ s.length := by
  fun_induction trimEndBy p s with grind

theorem length_finishArg_le {s r : List Char} (h : finishArg s = .ok r) :
    r.length ≤ s.length := by
  have := length_skipBlanks_le s
  grind [finishArg]

theorem length_nextInScript_lt {s : List Char} {step : Step} (h : nextInScript s = .ok step) :
    step.2.2.length < s.length := by
  have h₁ := length_skipBlanks_le s
  have h₂ := length_readName_le (skipBlanks s)
  have h₃ := length_skipBlanks_le (readName (skipBlanks s)).2
  grind [nextInScript]

theorem length_nextInText_lt {s : List Char} {step : Step} (h : nextInText s = .ok (some step)) :
    step.2.2.length < s.length := by
  unfold nextInText at h
  split at h
  · simp at h
  · next hne =>
    have hpos : 0 < s.length := List.length_pos_iff.2 hne
    split at h
    · simp at h
    · next rest hr =>
      have := length_readText_le hr
      split at h
      · next step' hs =>
        simp only [Except.ok.injEq, Option.some.injEq] at h
        subst h
        have := length_nextInScript_lt hs
        omega
      · simp at h
    · next t opens rest _ hr =>
      have := length_readText_le hr
      simp only [Except.ok.injEq, Option.some.injEq] at h
      subst h
      show rest.length < s.length
      omega

theorem length_argStep_le {token : Token} {s : List Char} {step : Step}
    (h : argStep token s = .ok (some step)) : step.2.2.length ≤ s.length := by
  unfold argStep at h
  split at h
  · next r hr =>
    have := length_finishArg_le hr
    simp only [Except.ok.injEq, Option.some.injEq] at h
    subst h
    exact this
  · simp at h

theorem length_nextBareArg_lt {s : List Char} {step : Step}
    (h : nextBareArg s = .ok (some step)) : step.2.2.length < s.length := by
  simp only [nextBareArg] at h
  have hn := length_readName s
  split at h
  · next hname =>
    have := length_argStep_le h
    have : (readName s).1.length ≠ 0 := by
      intro h0
      simp [List.eq_nil_of_length_eq_zero h0] at hname
    omega
  · split at h
    · simp at h
    · next t rest hb =>
      have hb := length_readBare hb
      have ht := length_trimEndBy_le isWhitespace t
      split at h
      · simp at h
      · next hne =>
        have := length_argStep_le h
        have : (trimEndBy isWhitespace t).length ≠ 0 := by
          intro h0
          simp [List.eq_nil_of_length_eq_zero h0] at hne
        omega

theorem length_nextInArgs_lt {s : List Char} {step : Step} (h : nextInArgs s = .ok (some step)) :
    step.2.2.length < s.length := by
  unfold nextInArgs at h
  have hs := length_skipBlanks_le s
  split at h
  · simp at h
  · next c rest heq =>
    rw [heq, List.length_cons] at hs
    split at h
    · have hr := length_skipBlanks_le rest
      split at h
      · simp at h
      · next d rest' heq' =>
        rw [heq', List.length_cons] at hr
        split at h
        · have := length_nextInText_lt h
          omega
        · simp at h
    · split at h
      · split at h
        · next t r hq =>
          have := length_readQuoted_le hq
          have := length_argStep_le h
          omega
        · simp at h
      · have := length_nextBareArg_lt h
        rw [List.length_cons] at this
        omega

/-- Every token leaves less. -/
theorem length_next_lt {mode : Mode} {s : List Char} {step : Step}
    (h : next mode s = .ok (some step)) : step.2.2.length < s.length := by
  cases mode with
  | text => exact length_nextInText_lt h
  | args => exact length_nextInArgs_lt h
  | script =>
    simp only [next] at h
    split at h
    · next hs =>
      simp only [Except.ok.injEq, Option.some.injEq] at h
      subst h
      exact length_nextInScript_lt hs
    · simp at h

/-- The tokens from a place in the source on. -/
def tokensFrom (mode : Mode) (s : List Char) : Except Stop (List Token) :=
  match h : next mode s with
  | .error e => .error e
  | .ok none => .ok []
  | .ok (some (token, mode', rest)) =>
    have : rest.length < s.length := length_next_lt h
    match tokensFrom mode' rest with
    | .ok tokens => .ok (token :: tokens)
    | .error e => .error e
termination_by s.length

/-- The tokens of a template. -/
def tokenize (source : String) : Except TemplateError (List Token) :=
  match tokensFrom .text source.toList with
  | .ok tokens => .ok tokens
  | .error (fault, rest) => .error (.malformed fault (source.length - rest.length))

end HttpSuite.Template
