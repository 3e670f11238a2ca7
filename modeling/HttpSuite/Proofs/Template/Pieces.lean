import HttpSuite.Proofs.Template.Grammar

/-!
# No token is lost

A template falls into pieces, one for each text and one for each script with everything between
its braces. By the shape of what the lexer takes, each piece is read alone as what it is read as
in its place, and its tokens are those of one segment: an argument stands in the piece of its
call. That makes writing the segments back as tokens the inverse of putting tokens together to
segments, although that leaves out arguments without a call in front of them.

The induction is on what is left of the source. Within a list of arguments a step leaves the
bracket that closes the list, so the piece of the rest begins with it.
-/

namespace HttpSuite

/-! ### Tokens put together one by one -/

namespace Segment

open Template

/-- Gives an argument to the call at the end; without a call there it is left out. -/
def addArgument (segments : List Segment) (a : ArgumentSource) : List Segment :=
  match segments.getLast? with
  | some (.call function args) => segments.dropLast ++ [.call function (args ++ [a])]
  | _ => segments

/-- Takes one more token to the segments of those in front of it. -/
def push (segments : List Segment) : Token → List Segment
  | .text s => segments ++ [.text s]
  | .variableName path => segments ++ [.reference path]
  | .functionName name => segments ++ [.call name []]
  | .arg s => addArgument segments (.literal s)
  | .argVariable path => addArgument segments (.reference path)

theorem foldl_addArgument_call (segments : List Segment) (function : String)
    (first args : List ArgumentSource) :
    args.foldl addArgument (segments ++ [.call function first])
      = segments ++ [.call function (first ++ args)] := by
  induction args generalizing first with
  | nil => rw [List.foldl_nil, List.append_nil]
  | cons a args ih =>
      have hadd : addArgument (segments ++ [.call function first]) a
          = segments ++ [.call function (first ++ [a])] := by
        simp [addArgument]
      rw [List.foldl_cons, hadd, ih, List.append_assoc, List.singleton_append]

theorem foldl_addArgument_of_forall {segments : List Segment}
    (h : ∀ a, addArgument segments a = segments) (args : List ArgumentSource) :
    args.foldl addArgument segments = segments := by
  induction args with
  | nil => rfl
  | cons a args ih => rw [List.foldl_cons, h, ih]

/-- The arguments at the front go to the last segment, and the rest becomes segments of its
own. -/
theorem foldl_push (segments : List Segment) (tokens : List Token) :
    tokens.foldl push segments
      = (argumentsOf tokens).foldl addArgument segments ++ ofTokens tokens := by
  induction tokens generalizing segments with
  | nil => exact (List.append_nil segments).symm
  | cons token rest ih =>
      rw [List.foldl_cons, ih]
      cases token with
      | text s =>
          have hleft : ∀ a, addArgument (push segments (.text s)) a = push segments (.text s) := by
            simp [push, addArgument]
          rw [foldl_addArgument_of_forall hleft, push, List.append_assoc]
          rfl
      | variableName path =>
          have hleft : ∀ a, addArgument (push segments (.variableName path)) a
              = push segments (.variableName path) := by
            simp [push, addArgument]
          rw [foldl_addArgument_of_forall hleft, push, List.append_assoc]
          rfl
      | functionName name =>
          rw [push, foldl_addArgument_call, List.nil_append, List.append_assoc]
          rfl
      | arg s => rfl
      | argVariable path => rfl

/-- Tokens put together at once and one by one become the same segments. -/
theorem ofTokens_eq_foldl (tokens : List Token) : ofTokens tokens = tokens.foldl push [] := by
  rw [foldl_push, foldl_addArgument_of_forall fun _ => rfl, List.nil_append]

end Segment

namespace Template

/-! ### Pieces -/

theorem tokensFrom_args_nil : tokensFrom .args [] = .error (.unclosedArguments, []) :=
  tokensFrom_of_error rfl

/-- What is left of a list of arguments is taken with the brace behind it, and then comes text. -/
theorem tokensFrom_args_ok {s : List Char} {tokens : List Token}
    (h : tokensFrom .args s = .ok tokens) :
    ∃ (args : List ArgumentSource) (p r : List Char) (rest : List Token), s = p ++ r
      ∧ tokens = args.map ArgumentSource.token ++ rest
      ∧ tokensFrom .args p = .ok (args.map ArgumentSource.token)
      ∧ tokensFrom .text r = .ok rest := by
  induction hn : s.length using Nat.strongRecOn generalizing s tokens with
  | ind n ih =>
      subst hn
      cases hnext : next .args s with
      | error e =>
          rw [tokensFrom_of_error hnext] at h
          cases h
      | ok o =>
          rcases nextInArgs_ok hnext with
            ⟨b₁, b₂, r, hb₁, hb₂, rfl, hr⟩ | ⟨a, q, c, r, -, rfl, rfl, hbehind⟩
          · have hclose : next .args (b₁ ++ ')' :: (b₂ ++ ['\x7d'])) = next .text [] :=
              nextInArgs_close hb₁ hb₂ []
            have hsame : next .args (b₁ ++ ')' :: (b₂ ++ '\x7d' :: r)) = next .text r :=
              hnext.trans hr.symm
            have hrest : tokensFrom .text r = .ok tokens := (tokensFrom_congr hsame).symm.trans h
            refine ⟨[], b₁ ++ ')' :: (b₂ ++ ['\x7d']), r, tokens, by simp, rfl, ?_, hrest⟩
            rw [tokensFrom_congr hclose, tokensFrom_nil]
            rfl
          · rw [tokensFrom_of_next hnext, map_ok_iff] at h
            obtain ⟨tokens, hrest, rfl⟩ := h
            obtain ⟨args, p, r', rest, hsplit, rfl, hp, hr'⟩ :=
              ih _ (length_next_lt hnext) hrest rfl
            have hfirst : ∀ t, tokensFrom .args (q ++ c :: t)
                = (tokensFrom .args (if c = ',' then t else c :: t)).map (a.token :: ·) :=
              fun t => tokensFrom_of_next (hbehind t)
            by_cases hc : c = ','
            · rw [if_pos hc] at hsplit
              refine ⟨a :: args, q ++ c :: p, r', rest, by simp [hsplit], rfl, ?_, hr'⟩
              rw [hfirst, if_pos hc, hp]
              rfl
            · rw [if_neg hc] at hsplit
              -- The bracket that has been left is the first of the next piece.
              cases p with
              | nil =>
                  rw [tokensFrom_args_nil] at hp
                  cases hp
              | cons d p =>
                  cases hsplit
                  refine ⟨a :: args, q ++ c :: p, r', rest, by simp, rfl, ?_, hr'⟩
                  rw [hfirst, if_neg hc, hp]
                  rfl

/-- A script is taken up to the brace that closes it, and then comes text. -/
theorem tokensFrom_script_piece {s : List Char} {tokens : List Token}
    (h : tokensFrom .script s = .ok tokens) :
    ∃ (segment : Segment) (p r : List Char) (rest : List Token), segment.isText = false
      ∧ s = p ++ r ∧ tokens = segment.tokens ++ rest
      ∧ tokensFrom .script p = .ok segment.tokens ∧ tokensFrom .text r = .ok rest := by
  obtain ⟨token, mode, r, rest, hnext, hrest, rfl⟩ := tokensFrom_script_ok h
  obtain ⟨b₁, name, b₂, c, hb₁, hname, hb₂, rfl, ⟨rfl, rfl, rfl⟩ | ⟨rfl, rfl, rfl⟩⟩ :=
    nextInScript_ok hnext
  · refine ⟨.reference (String.ofList name), b₁ ++ (name ++ (b₂ ++ ['\x7d'])), r, rest, rfl,
      by simp, rfl, ?_, hrest⟩
    have hpiece := nextInScript_name hb₁ hb₂ hname (Or.inl rfl) []
    rw [if_pos rfl] at hpiece
    rw [tokensFrom_of_next (next_script hpiece), tokensFrom_nil]
    rfl
  · obtain ⟨args, p, r', rest', rfl, rfl, hp, hr'⟩ := tokensFrom_args_ok hrest
    refine ⟨.call (String.ofList name) args, b₁ ++ (name ++ (b₂ ++ '(' :: p)), r', rest', rfl,
      by simp, rfl, ?_, hr'⟩
    have hpiece := nextInScript_name hb₁ hb₂ hname (Or.inr rfl) p
    rw [if_neg (by decide)] at hpiece
    rw [tokensFrom_of_next (next_script hpiece), hp]
    rfl

/-- The source falls into pieces, each of which alone is read as a segment, and these have the
tokens. -/
def InPieces (s : List Char) (tokens : List Token) : Prop :=
  ∃ (segments : List Segment) (pieces : List (List Char)), pieces.flatten = s
    ∧ segments.flatMap Segment.tokens = tokens ∧ (∀ x, .text x ∈ segments → x ≠ "")
    ∧ List.Forall₂ (fun segment piece => tokensFrom .text piece = .ok segment.tokens)
      segments pieces

theorem inPieces_nil : InPieces [] [] := ⟨[], [], rfl, rfl, nofun, .nil⟩

theorem InPieces.cons {segment : Segment} {piece s : List Char} {tokens : List Token}
    (hpiece : tokensFrom .text piece = .ok segment.tokens) (hne : segment ≠ .text "")
    (h : InPieces s tokens) : InPieces (piece ++ s) (segment.tokens ++ tokens) := by
  obtain ⟨segments, pieces, rfl, rfl, htexts, hread⟩ := h
  refine ⟨segment :: segments, piece :: pieces, rfl, rfl, fun x hx => ?_, .cons hpiece hread⟩
  rcases List.mem_cons.mp hx with rfl | hx
  · rintro rfl
    exact hne rfl
  · exact htexts x hx

/-- A text in front is a piece of its own unless it is empty. -/
theorem InPieces.withText {s : List Char} {tokens : List Token} (h : InPieces s tokens)
    (x : List Char) : InPieces (escape x ++ s) (withText x tokens) := by
  by_cases hx : x = []
  · rw [hx, Template.withText, if_pos rfl]
    exact h
  · rw [Template.withText, if_neg hx]
    have hpiece : tokensFrom .text (escape x) = .ok (Segment.text (String.ofList x)).tokens :=
      tokensFrom_escape hx
    refine InPieces.cons hpiece ?_ h
    simpa using hx

theorem inPieces_tokensFrom {s : List Char} {tokens : List Token}
    (h : tokensFrom .text s = .ok tokens) : InPieces s tokens := by
  induction hn : s.length using Nat.strongRecOn generalizing s tokens with
  | ind n ih =>
      subst hn
      cases hread : readText s with
      | error e =>
          rw [tokensFrom_of_readText_error hread] at h
          cases h
      | ok found =>
          obtain ⟨x, opens, r⟩ := found
          obtain ⟨rest, hrest, rfl⟩ := tokensFrom_text_ok hread h
          have hs := readText_ok hread
          cases opens with
          | false =>
              rw [readText_end hread, if_neg Bool.false_ne_true, tokensFrom_nil] at hrest
              cases hrest
              rw [hs, if_neg Bool.false_ne_true]
              exact inPieces_nil.withText x
          | true =>
              rw [if_pos rfl] at hrest hs
              obtain ⟨segment, p, r', rest', hscript, rfl, rfl, hp, hr'⟩ :=
                tokensFrom_script_piece hrest
              have hlt : r'.length < s.length := by
                rw [hs]
                simp only [List.length_append, List.length_cons]
                omega
              have hpiece : tokensFrom .text ('%' :: '\x7b' :: p) = .ok segment.tokens :=
                (Segment.tokensFrom_script p).trans hp
              have hne : segment ≠ .text "" := by
                rintro rfl
                cases hscript
              rw [hs]
              exact ((ih _ hlt hr' rfl).cons hpiece hne).withText x

/-! ### The order of tokens -/

/-- Texts that are not empty, names of variables, and names of functions each with nothing but
arguments behind it. -/
inductive Grouped : List Token → Prop where
  | nil : Grouped []
  | text {s : String} {rest : List Token} (h : s ≠ "") (hrest : Grouped rest) :
      Grouped (.text s :: rest)
  | variableName {path : String} {rest : List Token} (hrest : Grouped rest) :
      Grouped (.variableName path :: rest)
  | call {name : String} {args rest : List Token} (hargs : ∀ a ∈ args, a.isArg = true)
      (hrest : Grouped rest) : Grouped (.functionName name :: (args ++ rest))

theorem grouped_flatMap_tokens {segments : List Segment} (h : ∀ x, .text x ∈ segments → x ≠ "") :
    Grouped (segments.flatMap Segment.tokens) := by
  induction segments with
  | nil => exact .nil
  | cons segment rest ih =>
      have hrest := ih fun x hx => h x (List.mem_cons_of_mem segment hx)
      rw [List.flatMap_cons]
      cases segment with
      | text s => exact .text (h s List.mem_cons_self) hrest
      | reference path => exact .variableName hrest
      | call function args =>
          refine .call (fun token htoken => ?_) hrest
          obtain ⟨a, -, rfl⟩ := List.mem_map.mp htoken
          cases a <;> rfl

theorem tokenize_ofList (s : List Char) {tokens : List Token}
    (h : tokensFrom .text s = .ok tokens) : tokenize (String.ofList s) = .ok tokens := by
  rw [tokenize, String.toList_ofList, h]

/-- The tokens of a template are in order, its segments written back are these tokens, and every
segment is what a piece of the source of its own is read as. -/
theorem no_token_lost {source : String} {tokens : List Token} (h : tokenize source = .ok tokens) :
    Grouped tokens
      ∧ ∃ t, parse source = .ok t ∧ t.segments = tokens.foldl Segment.push []
        ∧ t.segments.flatMap Segment.tokens = tokens
        ∧ ∃ pieces : List (List Char), pieces.flatten = source.toList
          ∧ List.Forall₂ (fun segment piece => tokenize (String.ofList piece) = .ok segment.tokens)
            t.segments pieces := by
  have htokens : tokensFrom .text source.toList = .ok tokens := by
    rw [tokenize] at h
    split at h
    · next found hfound =>
        cases h
        exact hfound
    · cases h
  obtain ⟨segments, pieces, hsource, rfl, htexts, hread⟩ := inPieces_tokensFrom htokens
  obtain ⟨t, ht, hsegments⟩ := parse_of_tokens htokens
  have hput := (Segment.ofTokens_eq_foldl _).symm.trans (Segment.ofTokens_flatMap_tokens segments)
  rw [Segment.ofTokens_flatMap_tokens] at hsegments
  refine ⟨grouped_flatMap_tokens htexts, t, ht, hsegments.trans hput.symm, by rw [hsegments],
    pieces, hsource, ?_⟩
  rw [hsegments]
  exact hread.imp fun _ _ => tokenize_ofList _

/-- Arguments of each kind, one with a bracket of its own and one that is quoted, and a comma
behind the last. -/
theorem no_token_lost_offer :
    ∃ tokens, tokenize "5%% of %\x7bpick(a, [b,c], \x60)\x7d\x60, d ,)\x7d%\x7be()\x7d." = .ok tokens
      ∧ tokens = [.text "5% of ", .functionName "pick", .argVariable "a", .arg "[b,c]",
        .arg ")\x7d", .argVariable "d", .functionName "e", .text "."]
      ∧ Grouped tokens
      ∧ ∃ t, parse "5%% of %\x7bpick(a, [b,c], \x60)\x7d\x60, d ,)\x7d%\x7be()\x7d." = .ok t
        ∧ t.segments.flatMap Segment.tokens = tokens := by
  have htokens : tokenize "5%% of %\x7bpick(a, [b,c], \x60)\x7d\x60, d ,)\x7d%\x7be()\x7d."
      = .ok [.text "5% of ", .functionName "pick", .argVariable "a", .arg "[b,c]",
        .arg ")\x7d", .argVariable "d", .functionName "e", .text "."] := by decide +kernel
  obtain ⟨hgrouped, t, ht, -, hback, -⟩ := no_token_lost htokens
  exact ⟨_, htokens, rfl, hgrouped, t, ht, hback⟩

end Template

end HttpSuite
