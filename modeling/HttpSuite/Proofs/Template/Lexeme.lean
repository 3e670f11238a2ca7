import HttpSuite.Template.Basic
import Mathlib.Data.List.TakeWhile

/-!
# What the lexer takes

The two directions of one thing. Where a name, a quoted text or a whole argument is written, with
blanks around it, the lexer takes just that, whatever is behind the character that ends it; and
where the lexer has taken something, it was written so. The second is stated with the first, so
a step that succeeds can be taken again in front of anything else: of what is behind a token the
lexer sees the bracket behind an argument, and nothing more.

A character that ends an argument is neither a blank nor part of a name, so no run of these goes
on behind it; that is all that is needed of it.
-/

namespace HttpSuite

/-- The token of an argument. -/
def ArgumentSource.token : ArgumentSource → Template.Token
  | literal text => .arg text
  | reference path => .argVariable path

namespace Template

open HttpSuite.Text

/-! ### Blanks and names -/

/-- Nothing but blanks. -/
def Blank (s : List Char) : Prop := ∀ c ∈ s, isWhitespace c = true

/-- A name, which may go on as a path. -/
def IsName : List Char → Prop
  | [] => False
  | c :: rest => isNameStart c = true ∧ ∀ d ∈ rest, isNameChar d = true

instance (s : List Char) : Decidable (Blank s) :=
  decidable_of_iff (s.all isWhitespace = true) List.all_eq_true

instance : (s : List Char) → Decidable (IsName s)
  | [] => inferInstanceAs (Decidable False)
  | c :: rest =>
    decidable_of_iff (isNameStart c = true ∧ rest.all isNameChar = true)
      (and_congr_right' List.all_eq_true)

theorem blank_nil : Blank [] := nofun

theorem isNameChar_of_isNameStart {c : Char} (h : isNameStart c = true) :
    isNameChar c = true := by
  simp only [isNameStart, Bool.or_eq_true] at h
  rcases h with h | h <;> simp [isNameChar, isAlphanumeric, h]

theorem le_toNat_of_isAlpha {c : Char} (h : c.isAlpha = true) : 65 ≤ c.toNat := by
  rcases (Bool.or_eq_true _ _).mp h with hupper | hlower
  · exact UInt32.le_iff_toNat_le.mp (of_decide_eq_true hupper).1
  · have hle : 97 ≤ c.toNat :=
      UInt32.le_iff_toNat_le.mp (of_decide_eq_true ((Bool.and_eq_true _ _).mp hlower).1)
    omega

/-- Letters and digits are told by their categories, which no blank has; the other characters
of names are single ones. -/
theorem isNameChar_of_isWhitespace {c : Char} (h : isWhitespace c = true) :
    isNameChar c = false := by
  have hascii : c.toNat < 128 → c.toNat ≤ 32 := by
    simp only [isWhitespace, Bool.or_eq_true, Bool.and_eq_true, decide_eq_true_eq, beq_iff_eq] at h
    omega
  have hletter : isAlphabetic c = false := by
    unfold isAlphabetic
    split
    · next hlt =>
        by_contra halpha
        have := le_toNat_of_isAlpha (Bool.not_eq_false _ ▸ halpha)
        have := hascii hlt
        omega
    · rfl
  have hdigit : isNumeric c = false := by
    unfold isNumeric
    split
    · next hlt =>
        have := hascii hlt
        simp [Char.isDigit, UInt32.le_iff_toNat_le]
        omega
    · rfl
  have hsign : ∀ d, isWhitespace d = false → c ≠ d := by
    rintro d hd rfl
    rw [h] at hd
    cases hd
  simp [isNameChar, isAlphanumeric, hletter, hdigit, hsign '_' (by decide), hsign '.' (by decide),
    hsign '[' (by decide), hsign ']' (by decide), hsign '#' (by decide)]

theorem isWhitespace_of_isNameChar {c : Char} (h : isNameChar c = true) :
    isWhitespace c = false := by
  by_contra hblank
  rw [isNameChar_of_isWhitespace (Bool.not_eq_false _ ▸ hblank)] at h
  cases h

theorem IsName.nameChar {s : List Char} (h : IsName s) : ∀ c ∈ s, isNameChar c = true := by
  cases s with
  | nil => nofun
  | cons c rest =>
      intro d hd
      rcases List.mem_cons.mp hd with rfl | hd
      · exact isNameChar_of_isNameStart h.1
      · exact h.2 d hd

/-- Whether a token is an argument. -/
def Token.isArg : Token → Bool
  | .arg _ => true
  | .argVariable _ => true
  | _ => false

/-- Whether a character ends an argument. -/
def endsArg (c : Char) : Bool := c == ',' || c == ')'

/-! ### What is written is taken -/

theorem skipBlanks_blank {b : List Char} (hb : Blank b) {c : Char} (hc : isWhitespace c = false)
    (r : List Char) : skipBlanks (b ++ c :: r) = c :: r := by
  rw [skipBlanks, List.dropWhile_append_of_pos hb, List.dropWhile_cons_of_neg (by simp [hc])]

theorem skipBlanks_name {b name : List Char} (hb : Blank b) (hname : IsName name)
    (r : List Char) : skipBlanks (b ++ (name ++ r)) = name ++ r := by
  cases name with
  | nil => exact hname.elim
  | cons c rest =>
      exact skipBlanks_blank hb
        (isWhitespace_of_isNameChar (isNameChar_of_isNameStart hname.1)) (rest ++ r)

/-- A name ends where blanks or another character stand. -/
theorem readName_name {name b : List Char} (hname : IsName name) (hb : Blank b) {c : Char}
    (hc : isNameChar c = false) (r : List Char) :
    readName (name ++ (b ++ c :: r)) = (name, b ++ c :: r) := by
  have hstop : (b ++ c :: r).takeWhile isNameChar = []
      ∧ (b ++ c :: r).dropWhile isNameChar = b ++ c :: r := by
    cases b with
    | nil => simp [hc]
    | cons d b => simp [isNameChar_of_isWhitespace (hb d List.mem_cons_self)]
  cases name with
  | nil => exact hname.elim
  | cons d rest =>
      rw [List.cons_append, readName, if_pos hname.1, ← List.cons_append,
        List.takeWhile_append_of_pos hname.nameChar, List.dropWhile_append_of_pos hname.nameChar,
        hstop.1, hstop.2, List.append_nil]

theorem readQuoted_literal {s : List Char} (h : '\x60' ∉ s) (r : List Char) :
    readQuoted (s ++ '\x60' :: r) = some (s, r) := by
  induction s with
  | nil => rfl
  | cons c s ih =>
      simp only [List.mem_cons, not_or] at h
      obtain ⟨hc, hs⟩ := h
      rw [List.cons_append, readQuoted, if_neg (by simpa using Ne.symm hc), ih hs]
      rfl

theorem nextInScript_name {b₁ b₂ name : List Char} (hb₁ : Blank b₁) (hb₂ : Blank b₂)
    (hname : IsName name) {c : Char} (hc : c = '\x7d' ∨ c = '(') (r : List Char) :
    nextInScript (b₁ ++ (name ++ (b₂ ++ c :: r)))
      = .ok (if c = '\x7d' then (.variableName (String.ofList name), .text, r)
        else (.functionName (String.ofList name), .args, r)) := by
  have hchar : isNameChar c = false := by rcases hc with rfl | rfl <;> decide +kernel
  have hblank : isWhitespace c = false := by rcases hc with rfl | rfl <;> decide
  have hne : name ≠ [] := by
    rintro rfl
    exact hname
  unfold nextInScript
  simp only [skipBlanks_name hb₁ hname, readName_name hname hb₂ hchar, skipBlanks_blank hb₂ hblank]
  rcases hc with rfl | rfl <;> simp [hne]

theorem isNameChar_of_endsArg {c : Char} (h : endsArg c = true) : isNameChar c = false := by
  simp only [endsArg, Bool.or_eq_true, beq_iff_eq] at h
  rcases h with rfl | rfl <;> decide +kernel

theorem isWhitespace_of_endsArg {c : Char} (h : endsArg c = true) : isWhitespace c = false := by
  simp only [endsArg, Bool.or_eq_true, beq_iff_eq] at h
  rcases h with rfl | rfl <;> decide

/-- Behind an argument the comma is taken and the bracket is left. -/
theorem argStep_blank (token : Token) {b : List Char} (hb : Blank b) {c : Char}
    (hc : endsArg c = true) (r : List Char) :
    argStep token (b ++ c :: r)
      = .ok (some (token, .args, if c = ',' then r else c :: r)) := by
  rw [argStep, finishArg, skipBlanks_blank hb (isWhitespace_of_endsArg hc)]
  simp only [endsArg, Bool.or_eq_true, beq_iff_eq] at hc
  rcases hc with rfl | rfl <;> rfl

theorem nextInArgs_literal {b₁ b₂ s : List Char} (hb₁ : Blank b₁) (hb₂ : Blank b₂)
    (h : '\x60' ∉ s) {c : Char} (hc : endsArg c = true) (r : List Char) :
    nextInArgs (b₁ ++ '\x60' :: (s ++ '\x60' :: (b₂ ++ c :: r)))
      = .ok (some (.arg (String.ofList s), .args, if c = ',' then r else c :: r)) := by
  rw [nextInArgs, skipBlanks_blank hb₁ (by decide)]
  simp only [readQuoted_literal h, argStep_blank _ hb₂ hc]
  rfl

theorem nextBareArg_name {name b : List Char} (hname : IsName name) (hb : Blank b) {c : Char}
    (hc : endsArg c = true) (r : List Char) :
    nextBareArg (name ++ (b ++ c :: r))
      = .ok (some (.argVariable (String.ofList name), .args, if c = ',' then r else c :: r)) := by
  have hne : name ≠ [] := by
    rintro rfl
    exact hname
  have hends : (some c == some ',' || some c == some ')') = true := hc
  rw [nextBareArg, readName_name hname hb (isNameChar_of_endsArg hc)]
  simp only [skipBlanks_blank hb (isWhitespace_of_endsArg hc), List.head?_cons, hends,
    argStep_blank _ hb hc]
  simp [hne]

theorem nextInArgs_name {b₁ b₂ name : List Char} (hb₁ : Blank b₁) (hb₂ : Blank b₂)
    (hname : IsName name) {c : Char} (hc : endsArg c = true) (r : List Char) :
    nextInArgs (b₁ ++ (name ++ (b₂ ++ c :: r)))
      = .ok (some (.argVariable (String.ofList name), .args, if c = ',' then r else c :: r)) := by
  have hskip := skipBlanks_name hb₁ hname (b₂ ++ c :: r)
  have hbare := nextBareArg_name hname hb₂ hc r
  cases name with
  | nil => exact hname.elim
  | cons d rest =>
      have hbracket : d ≠ ')' := by
        rintro rfl
        exact absurd hname.1 (by decide +kernel)
      have hquote : d ≠ '\x60' := by
        rintro rfl
        exact absurd hname.1 (by decide +kernel)
      rw [List.cons_append] at hskip hbare
      rw [nextInArgs, List.cons_append, hskip]
      simp only [beq_eq_false_iff_ne.mpr hbracket, beq_eq_false_iff_ne.mpr hquote,
        if_neg Bool.false_ne_true]
      exact hbare

theorem nextInArgs_close {b₁ b₂ : List Char} (hb₁ : Blank b₁) (hb₂ : Blank b₂) (r : List Char) :
    nextInArgs (b₁ ++ ')' :: (b₂ ++ '\x7d' :: r)) = nextInText r := by
  rw [nextInArgs, skipBlanks_blank hb₁ (by decide)]
  simp only [beq_self_eq_true, if_true]
  rw [skipBlanks_blank hb₂ (by decide)]
  rfl

/-! ### What is taken was written -/

theorem readName_split (s : List Char) : (readName s).1 ++ (readName s).2 = s := by
  cases s with
  | nil => rfl
  | cons c rest =>
      rw [readName]
      split
      · exact List.takeWhile_append_dropWhile
      · rfl

theorem skipBlanks_split (s : List Char) : ∃ b, Blank b ∧ s = b ++ skipBlanks s :=
  ⟨s.takeWhile isWhitespace, fun _ hc => List.mem_takeWhile_imp hc,
    List.takeWhile_append_dropWhile.symm⟩

theorem isWhitespace_of_skipBlanks {s r : List Char} {c : Char} (h : skipBlanks s = c :: r) :
    isWhitespace c = false := by
  have hhead := List.head?_dropWhile_not isWhitespace s
  rw [show s.dropWhile isWhitespace = c :: r from h] at hhead
  simpa using hhead

theorem isName_readName {s : List Char} (h : (readName s).1 ≠ []) : IsName (readName s).1 := by
  cases s with
  | nil => exact absurd rfl h
  | cons c rest =>
      rw [readName] at h ⊢
      split at h
      · next hc =>
          rw [if_pos hc, List.takeWhile_cons_of_pos (isNameChar_of_isNameStart hc)]
          exact ⟨hc, fun _ hd => List.mem_takeWhile_imp hd⟩
      · exact absurd rfl h

/-- Text was written with its percent signs doubled. -/
theorem readText_ok {s x r : List Char} {opens : Bool} (h : readText s = .ok (x, opens, r)) :
    s = escape x ++ if opens then '%' :: '\x7b' :: r else [] := by
  fun_induction readText s generalizing x opens r with
  | case1 =>
      cases h
      rfl
  | case2 => cases h
  | case3 c hc =>
      cases h
      simp [escape, mt beq_iff_eq.mpr hc]
  | case4 c d rest hc hd y opens' r' hrest ih =>
      cases h
      rw [beq_iff_eq.mp hc, beq_iff_eq.mp hd, escape_cons, List.append_assoc, ← ih hrest]
      rfl
  | case5 => cases h
  | case6 c d rest hc _ hd =>
      cases h
      rw [beq_iff_eq.mp hc, beq_iff_eq.mp hd]
      rfl
  | case7 => cases h
  | case8 c d rest hc y opens' r' hrest ih =>
      cases h
      rw [escape_cons, List.append_assoc, ← ih hrest, if_neg hc]
      rfl
  | case9 => cases h

theorem readText_end {s x r : List Char} (h : readText s = .ok (x, false, r)) : r = [] := by
  fun_induction readText s generalizing x with grind

/-- A script begins with a name, and a brace or a bracket behind it tells what it names. -/
theorem nextInScript_ok {s r : List Char} {token : Token} {mode : Mode}
    (h : nextInScript s = .ok (token, mode, r)) :
    ∃ b₁ name b₂ c, Blank b₁ ∧ IsName name ∧ Blank b₂ ∧ s = b₁ ++ (name ++ (b₂ ++ c :: r))
      ∧ (c = '\x7d' ∧ token = .variableName (String.ofList name) ∧ mode = .text
        ∨ c = '(' ∧ token = .functionName (String.ofList name) ∧ mode = .args) := by
  obtain ⟨b₁, hb₁, hs⟩ := skipBlanks_split s
  obtain ⟨b₂, hb₂, hafter⟩ := skipBlanks_split (readName (skipBlanks s)).2
  have hsplit : s = b₁ ++ ((readName (skipBlanks s)).1
      ++ (b₂ ++ skipBlanks (readName (skipBlanks s)).2)) := by
    rw [← hafter, readName_split, ← hs]
  unfold nextInScript at h
  simp only at h
  split at h
  · cases h
  · split at h
    · cases h
    · next hname =>
        have hname := isName_readName (mt List.isEmpty_iff.mpr hname)
        split at h
        · cases h
        · next c rest hrest =>
            rw [hrest] at hsplit
            split at h
            · next hc =>
                cases h
                exact ⟨b₁, _, b₂, c, hb₁, hname, hb₂, hsplit, .inl ⟨beq_iff_eq.mp hc, rfl, rfl⟩⟩
            · split at h
              · next hc =>
                  cases h
                  exact ⟨b₁, _, b₂, c, hb₁, hname, hb₂, hsplit,
                    .inr ⟨beq_iff_eq.mp hc, rfl, rfl⟩⟩
              · cases h

theorem readQuoted_ok {s x r : List Char} (h : readQuoted s = some (x, r)) :
    '\x60' ∉ x ∧ s = x ++ '\x60' :: r := by
  induction s generalizing x r with
  | nil => cases h
  | cons c rest ih =>
      rw [readQuoted] at h
      split at h
      · next hc =>
          cases h
          exact ⟨List.not_mem_nil, by rw [beq_iff_eq.mp hc]; rfl⟩
      · next hc =>
          obtain ⟨⟨y, r'⟩, hrest, heq⟩ := Option.map_eq_some_iff.mp h
          cases heq
          obtain ⟨hy, rfl⟩ := ih hrest
          refine ⟨?_, rfl⟩
          rw [List.mem_cons, not_or]
          exact ⟨fun heq => hc (beq_iff_eq.mpr heq.symm), hy⟩

/-- What is not quoted ends where a comma or a bracket does not belong to it, whatever is behind
that. -/
theorem readBare_ok {depth : Nat} {s x r : List Char} (h : readBare depth s = some (x, r)) :
    ∃ c r', endsArg c = true ∧ r = c :: r' ∧ s = x ++ c :: r'
      ∧ ∀ t, readBare depth (x ++ c :: t) = some (x, c :: t) := by
  induction s generalizing depth x r with
  | nil => cases h
  | cons c rest ih =>
      rw [readBare] at h
      split at h
      · next hc =>
          cases h
          exact ⟨c, rest, (Bool.and_eq_true_iff.mp hc).2, rfl, rfl, fun t => if_pos hc⟩
      · next hc =>
          obtain ⟨⟨y, r'⟩, hrest, heq⟩ := Option.map_eq_some_iff.mp h
          cases heq
          obtain ⟨d, r', hd, rfl, rfl, hbehind⟩ := ih hrest
          refine ⟨d, r', hd, rfl, rfl, fun t => ?_⟩
          rw [List.cons_append, readBare, if_neg hc]
          dsimp only
          rw [hbehind]
          rfl

theorem finishArg_ok {s r : List Char} (h : finishArg s = .ok r) :
    ∃ b c r', Blank b ∧ endsArg c = true ∧ s = b ++ c :: r'
      ∧ r = if c = ',' then r' else c :: r' := by
  obtain ⟨b, hb, hs⟩ := skipBlanks_split s
  unfold finishArg at h
  split at h
  · cases h
  · next c r' hrest =>
      rw [hrest] at hs
      split at h
      · next hc =>
          cases h
          have hc := beq_iff_eq.mp hc
          exact ⟨b, c, _, hb, by rw [hc]; rfl, hs, (if_pos hc).symm⟩
      · next hcomma =>
          split at h
          · next hc =>
              cases h
              exact ⟨b, c, r', hb, by rw [beq_iff_eq.mp hc]; rfl, hs,
                (if_neg (mt beq_iff_eq.mpr hcomma)).symm⟩
          · cases h

/-- An argument is followed by blanks and by what ends it. -/
theorem argStep_ok {token : Token} {s : List Char} {o : Option Step}
    (h : argStep token s = .ok o) :
    ∃ b c r, Blank b ∧ endsArg c = true ∧ s = b ++ c :: r
      ∧ o = some (token, .args, if c = ',' then r else c :: r) := by
  unfold argStep at h
  split at h
  · next r hr =>
      cases h
      obtain ⟨b, c, r', hb, hc, hs, rfl⟩ := finishArg_ok hr
      exact ⟨b, c, r', hb, hc, hs, rfl⟩
  · cases h

/-! ### What is behind is not looked at -/

theorem takeWhile_stop {p : Char → Bool} {c : Char} (hc : p c = false) (u t : List Char) :
    (u ++ c :: t).takeWhile p = u.takeWhile p := by
  induction u with
  | nil => exact List.takeWhile_cons_of_neg (by simp [hc])
  | cons d u ih => rw [List.cons_append, List.takeWhile_cons, List.takeWhile_cons, ih]

theorem dropWhile_stop {p : Char → Bool} {c : Char} (hc : p c = false) (u t : List Char) :
    (u ++ c :: t).dropWhile p = u.dropWhile p ++ c :: t := by
  induction u with
  | nil => exact List.dropWhile_cons_of_neg (by simp [hc])
  | cons d u ih =>
      rw [List.cons_append, List.dropWhile_cons, List.dropWhile_cons, ih]
      split <;> rfl

theorem skipBlanks_stop {c : Char} (hc : isWhitespace c = false) (u t : List Char) :
    skipBlanks (u ++ c :: t) = skipBlanks u ++ c :: t := dropWhile_stop hc u t

theorem readName_stop {c : Char} (hc : isNameChar c = false) (u t : List Char) :
    readName (u ++ c :: t) = ((readName u).1, (readName u).2 ++ c :: t) := by
  cases u with
  | nil =>
      have hstart : ¬ isNameStart c = true := mt isNameChar_of_isNameStart (by simp [hc])
      show readName (c :: t) = ([], c :: t)
      rw [readName, if_neg hstart]
  | cons d u =>
      rw [List.cons_append, readName, readName, ← List.cons_append, takeWhile_stop hc,
        dropWhile_stop hc]
      split <;> rfl

/-- An argument that is not quoted is read up to what ends it, whatever is behind that. -/
theorem nextBareArg_ok {s : List Char} {o : Option Step} (h : nextBareArg s = .ok o) :
    ∃ (a : ArgumentSource) (p : List Char) (c : Char) (r : List Char), endsArg c = true
      ∧ p ≠ [] ∧ s = p ++ c :: r
      ∧ o = some (a.token, .args, if c = ',' then r else c :: r)
      ∧ ∀ t, nextBareArg (p ++ c :: t)
        = .ok (some (a.token, .args, if c = ',' then t else c :: t)) := by
  unfold nextBareArg at h
  simp only at h
  split at h
  · next hname =>
      have hne : (readName s).1 ≠ [] := by
        intro hnil
        simp [hnil] at hname
      obtain ⟨b, c, r, hb, hc, hrest, rfl⟩ := argStep_ok h
      refine ⟨.reference (String.ofList (readName s).1), (readName s).1 ++ b, c, r, hc,
        by simp [hne], ?_, rfl, fun t => ?_⟩
      · rw [List.append_assoc, ← hrest, readName_split]
      · rw [List.append_assoc]
        exact nextBareArg_name (isName_readName hne) hb hc t
  · next hname =>
      split at h
      · cases h
      · next x rest hbare =>
          obtain ⟨c, r, hc, rfl, rfl, hbehind⟩ := readBare_ok hbare
          split at h
          · cases h
          · next htrim =>
              have hx : x ≠ [] := by
                rintro rfl
                exact htrim rfl
              have hstep : ∀ t, argStep (.arg (String.ofList (trimEndBy isWhitespace x))) (c :: t)
                  = .ok (some (.arg (String.ofList (trimEndBy isWhitespace x)), .args,
                    if c = ',' then t else c :: t)) := fun t => argStep_blank _ blank_nil hc t
              have ho := h.symm.trans (hstep r)
              refine ⟨.literal (String.ofList (trimEndBy isWhitespace x)), x, c, r, hc, hx, rfl,
                Except.ok.inj ho, fun t => ?_⟩
              -- What is behind `c` does not tell whether there is a name in front of it.
              simp only [readName_stop (isNameChar_of_endsArg hc),
                skipBlanks_stop (isWhitespace_of_endsArg hc), List.head?_append,
                List.head?_cons] at hname
              rw [nextBareArg]
              simp only [readName_stop (isNameChar_of_endsArg hc),
                skipBlanks_stop (isWhitespace_of_endsArg hc), List.head?_append, List.head?_cons,
                if_neg hname, hbehind, if_neg htrim]
              exact hstep t

/-- In a list of arguments either the script is closed, and the lexer goes on outside it, or
there is an argument, which does not depend on what is behind the character that ends it. -/
theorem nextInArgs_ok {s : List Char} {o : Option Step} (h : nextInArgs s = .ok o) :
    (∃ b₁ b₂ r, Blank b₁ ∧ Blank b₂ ∧ s = b₁ ++ ')' :: (b₂ ++ '\x7d' :: r)
        ∧ nextInText r = .ok o)
      ∨ ∃ (a : ArgumentSource) (p : List Char) (c : Char) (r : List Char), endsArg c = true
        ∧ s = p ++ c :: r ∧ o = some (a.token, .args, if c = ',' then r else c :: r)
        ∧ ∀ t, nextInArgs (p ++ c :: t)
          = .ok (some (a.token, .args, if c = ',' then t else c :: t)) := by
  obtain ⟨b₁, hb₁, hs⟩ := skipBlanks_split s
  unfold nextInArgs at h
  split at h
  · cases h
  · next d rest hrest =>
      rw [hrest] at hs
      split at h
      · next hd =>
          obtain ⟨b₂, hb₂, hclose⟩ := skipBlanks_split rest
          split at h
          · cases h
          · next e r hr =>
              rw [hr] at hclose
              split at h
              · next he =>
                  rw [beq_iff_eq.mp hd, hclose, beq_iff_eq.mp he] at hs
                  exact .inl ⟨b₁, b₂, r, hb₁, hb₂, hs, h⟩
              · cases h
      · next hd =>
          refine .inr ?_
          split at h
          · next hquote =>
              split at h
              · next x r hx =>
                  obtain ⟨hclosed, rfl⟩ := readQuoted_ok hx
                  obtain ⟨b₂, c, r, hb₂, hc, rfl, rfl⟩ := argStep_ok h
                  refine ⟨.literal (String.ofList x), b₁ ++ '\x60' :: (x ++ '\x60' :: b₂), c, r, hc,
                    ?_, rfl, fun t => ?_⟩
                  · rw [hs, beq_iff_eq.mp hquote]
                    simp
                  · have hnext := nextInArgs_literal hb₁ hb₂ hclosed hc t
                    simpa [ArgumentSource.token] using hnext
              · cases h
          · next hquote =>
              obtain ⟨a, p, c, r, hc, hp, heq, rfl, hbehind⟩ := nextBareArg_ok h
              refine ⟨a, b₁ ++ p, c, r, hc, by rw [hs, heq, List.append_assoc], rfl, fun t => ?_⟩
              cases p with
              | nil => exact absurd rfl hp
              | cons e p =>
                  cases heq
                  have hnext := hbehind t
                  rw [List.cons_append] at hnext
                  rw [List.append_assoc, List.cons_append, nextInArgs,
                    skipBlanks_blank hb₁ (isWhitespace_of_skipBlanks hrest)]
                  simp only [if_neg hd, if_neg hquote]
                  exact hnext

end Template

end HttpSuite
