import Mathlib
import HttpSuite.Http.Service
import HttpSuite.Proofs.OrderedMap
import HttpSuite.Proofs.Text.Pieces

/-!
# Names of headers

Headers are kept in maps that tell names apart by their letters' case, under a spelling that does
not: the usual one in requests, lower case in responses. A spelling is good for this if it is the
same exactly for names that are equal but for case (`Spelling`). Then a map whose names all are
spelt that way has one entry for each name, and what it has under a name depends on the values
that came under the name in any case (`Gathered`). Requests keep the last of them, responses join
them all.
-/

namespace HttpSuite

namespace Text

theorem eqIgnoringCase_iff {a b : String} :
    eqIgnoringCase a b = true ↔ asciiLower a = asciiLower b := beq_iff_eq

theorem toList_asciiLower (s : String) : (asciiLower s).toList = s.toList.map Char.toLower :=
  String.toList_map

theorem asciiLower_asciiLower (s : String) : asciiLower (asciiLower s) = asciiLower s := by
  refine String.toList_inj.mp ?_
  rw [toList_asciiLower, toList_asciiLower, List.map_map]
  exact List.map_congr_left fun c _ => Char.toLower_toLower_eq_toLower c

/-- Equality but for case on characters, which can be decided where that on texts takes long. -/
theorem eqIgnoringCase_eq_toList (a b : String) :
    eqIgnoringCase a b = (a.toList.map Char.toLower == b.toList.map Char.toLower) := by
  rw [Bool.eq_iff_iff, eqIgnoringCase_iff, beq_iff_eq, ← String.toList_inj, toList_asciiLower,
    toList_asciiLower]

end Text

namespace Http

/-- A way to spell names of headers by which names are the same if they are but for case. -/
structure Spelling (spell : String → String) : Prop where
  /-- Two names are spelt alike exactly if they are equal but for case. -/
  eq_iff : ∀ a b, spell a = spell b ↔ Text.eqIgnoringCase a b = true
  /-- What is spelt that way stays as it is. -/
  spell_spell : ∀ name, spell (spell name) = spell name

theorem spelling_asciiLower : Spelling Text.asciiLower where
  eq_iff _ _ := Text.eqIgnoringCase_iff.symm
  spell_spell := Text.asciiLower_asciiLower

/-! ## The usual spelling -/

theorem toLower_eq_hyphen_iff {c : Char} : c.toLower = '-' ↔ c = '-' := by
  constructor
  · intro h
    have hupper : ¬ c.isUpper = true := by
      intro hupper
      have halpha : c.toLower.isLower = c.isAlpha := Char.isLower_toLower_eq_isAlpha c
      rw [h, Char.isAlpha, hupper] at halpha
      cases halpha
    rwa [Char.toLower_eq_of_not_isUpper hupper] at h
  · rintro rfl
    rfl

theorem joinHyphen_cons {part : List Char} {parts : List (List Char)} (h : parts ≠ []) :
    joinHyphen (part :: parts) = part ++ '-' :: joinHyphen parts := by
  cases parts with
  | nil => exact absurd rfl h
  | cons next rest => rfl

/-- Joining undoes a split. -/
theorem joinHyphen_splitBy (s : List Char) : joinHyphen (Text.splitBy (· == '-') s) = s := by
  induction s with
  | nil => rfl
  | cons c s ih =>
      by_cases hc : c = '-'
      · subst hc
        rw [Text.splitBy_cons_of_pos rfl, joinHyphen_cons (Text.splitBy_ne_nil s), ih]
        rfl
      · obtain ⟨part, parts, hs⟩ := List.exists_cons_of_ne_nil
          (Text.splitBy_ne_nil s (p := (· == '-')))
        rw [hs] at ih
        rw [Text.splitBy_cons_of_neg (by simpa using hc) hs, ← ih]
        cases parts <;> rfl

theorem map_joinHyphen {f : Char → Char} (hf : f '-' = '-') (parts : List (List Char)) :
    (joinHyphen parts).map f = joinHyphen (parts.map (List.map f)) := by
  induction parts with
  | nil => rfl
  | cons part parts ih =>
      cases parts with
      | nil => rfl
      | cons next rest =>
          rw [joinHyphen_cons (List.cons_ne_nil next rest), List.map_append, List.map_cons, hf, ih]
          rfl

theorem map_toLower_capitalized (part : List Char) :
    (capitalized part).map Char.toLower = part.map Char.toLower := by
  cases part with
  | nil => rfl
  | cons c part => simp [capitalized]

theorem capitalized_map_toLower (part : List Char) :
    capitalized (part.map Char.toLower) = capitalized part := by
  cases part with
  | nil => rfl
  | cons c part => simp [capitalized]

/-- The usual spelling changes nothing but the case. -/
theorem asciiLower_canonicalName (name : String) :
    Text.asciiLower (canonicalName name) = Text.asciiLower name := by
  refine String.toList_inj.mp ?_
  rw [Text.toList_asciiLower, Text.toList_asciiLower, canonicalName, String.toList_ofList,
    map_joinHyphen rfl, List.map_map]
  have hparts : List.map Char.toLower ∘ capitalized = List.map Char.toLower :=
    funext map_toLower_capitalized
  rw [hparts, ← map_joinHyphen rfl, joinHyphen_splitBy]

/-- The usual spelling does not depend on the case. -/
theorem canonicalName_asciiLower (name : String) :
    canonicalName (Text.asciiLower name) = canonicalName name := by
  have hhyphen : ∀ c : Char, (c.toLower == '-') = (c == '-') := fun c =>
    Bool.eq_iff_iff.mpr (by simpa using toLower_eq_hyphen_iff)
  have hparts : capitalized ∘ List.map Char.toLower = capitalized := funext capitalized_map_toLower
  rw [canonicalName, canonicalName, Text.toList_asciiLower, Text.splitBy_map hhyphen, List.map_map,
    hparts]

theorem spelling_canonicalName : Spelling canonicalName where
  eq_iff a b := by
    rw [Text.eqIgnoringCase_iff]
    constructor
    · intro h
      rw [← asciiLower_canonicalName a, h, asciiLower_canonicalName]
    · intro h
      rw [← canonicalName_asciiLower a, h, canonicalName_asciiLower]
  spell_spell name := by
    rw [← canonicalName_asciiLower (canonicalName name), asciiLower_canonicalName,
      canonicalName_asciiLower]

/-! ## Values under a name -/

/-- The values that come under a name in any case, in order. -/
def valuesUnder (name : String) (headers : List (String × String)) : List String :=
  (headers.filter fun e => Text.eqIgnoringCase e.1 name).map Prod.snd

theorem valuesUnder_append (name : String) (headers more : List (String × String)) :
    valuesUnder name (headers ++ more) = valuesUnder name headers ++ valuesUnder name more := by
  rw [valuesUnder, List.filter_append, List.map_append]
  rfl

theorem valuesUnder_singleton (name other value : String) :
    valuesUnder name [(other, value)]
      = if Text.eqIgnoringCase other name = true then [value] else [] := by
  unfold valuesUnder
  rw [List.filter_singleton]
  cases Text.eqIgnoringCase other name <;> rfl

theorem valuesUnder_eq_nil_iff {name : String} {headers : List (String × String)} :
    valuesUnder name headers = [] ↔ ∀ e ∈ headers, Text.eqIgnoringCase e.1 name = false := by
  rw [valuesUnder, List.map_eq_nil_iff, List.filter_eq_nil_iff]
  simp

/-- The names of a map are spelt in one way, and it has under each name what the values come to
that came under it. -/
structure Gathered (spell : String → String) (join : List String → Option String)
    (headers : OrderedMap String) (came : List (String × String)) : Prop where
  /-- Names are spelt in this way. -/
  spelt : ∀ key ∈ headers.keys, spell key = key
  /-- What is there under a name. -/
  get? : ∀ name, headers.get? (spell name) = join (valuesUnder name came)

variable {spell : String → String} {join : List String → Option String}
  {headers : OrderedMap String} {came : List (String × String)}

theorem gathered_empty (hjoin : join [] = none) : Gathered spell join .empty [] where
  spelt := nofun
  get? _ := hjoin.symm

/-- Names that are equal but for case are the same entry. -/
theorem Gathered.pairwise_keys (h : Gathered spell join headers came) (hspell : Spelling spell) :
    headers.keys.Pairwise fun a b => Text.eqIgnoringCase a b = false := by
  refine headers.nodup_keys.imp_of_mem fun {a b} ha hb hne => ?_
  refine Bool.eq_false_iff.mpr fun heq => hne ?_
  rw [← h.spelt a ha, ← h.spelt b hb]
  exact (hspell.eq_iff a b).mpr heq

/-- A value that comes under a name is set together with those that came before it. -/
theorem Gathered.insert (h : Gathered spell join headers came) (hspell : Spelling spell)
    {name value set : String} (hset : join (valuesUnder name came ++ [value]) = some set) :
    Gathered spell join (headers.insert (spell name) set) (came ++ [(name, value)]) where
  spelt key hkey := by
    rw [OrderedMap.keys_insert] at hkey
    split at hkey
    · exact h.spelt key hkey
    · rcases List.mem_append.mp hkey with hkey | hkey
      · exact h.spelt key hkey
      · rw [List.mem_singleton.mp hkey, hspell.spell_spell]
  get? other := by
    have hcase : Text.eqIgnoringCase name other = true ↔ spell other = spell name := by
      rw [← hspell.eq_iff, eq_comm]
    rw [OrderedMap.get?_insert, valuesUnder_append, valuesUnder_singleton]
    by_cases heq : spell other = spell name
    · have hvalues : valuesUnder other came = valuesUnder name came := by
        refine congrArg _ (List.filter_congr fun e _ => Bool.eq_iff_iff.mpr ?_)
        rw [← hspell.eq_iff, ← hspell.eq_iff, heq]
      rw [if_pos heq, if_pos (hcase.mpr heq), hvalues, hset]
    · rw [if_neg heq, if_neg (mt hcase.mp heq), List.append_nil, h.get?]

/-! ## Responses -/

/-- The text for values under one name, with a comma between every two of them. -/
def joined : List String → Option String
  | [] => none
  | values => some (", ".intercalate values)

theorem joined_concat (values : List String) (value : String) :
    joined (values ++ [value])
      = some (match joined values with
        | some old => old ++ ", " ++ value
        | none => value) := by
  cases values with
  | nil => rw [List.nil_append, joined, joined, String.intercalate_singleton]; nofun
  | cons first rest =>
      have hne : first :: rest ≠ [] := List.cons_ne_nil first rest
      show some (", ".intercalate (first :: rest ++ [value])) = _
      rw [String.intercalate_append_of_ne_nil hne (List.cons_ne_nil value []),
        String.intercalate_singleton]
      rfl

theorem addHeader_eq_insert (headers : OrderedMap String) (name value : String) :
    addHeader headers name value
      = headers.insert (Text.asciiLower name)
          (match headers.get? (Text.asciiLower name) with
          | some old => old ++ ", " ++ value
          | none => value) := by
  unfold addHeader
  dsimp only
  cases headers.get? (Text.asciiLower name) <;> rfl

theorem Gathered.addHeader (h : Gathered Text.asciiLower joined headers came)
    (name value : String) :
    Gathered Text.asciiLower joined (addHeader headers name value) (came ++ [(name, value)]) := by
  rw [addHeader_eq_insert]
  refine h.insert spelling_asciiLower ?_
  rw [joined_concat, h.get?]

/-- Headers that are added one after another are gathered. -/
theorem gathered_addHeaders (added : List (String × String)) :
    Gathered Text.asciiLower joined
      (added.foldl (fun headers e => Http.addHeader headers e.1 e.2) .empty) added := by
  induction added using List.reverseRecOn with
  | nil => exact gathered_empty rfl
  | append_singleton added e ih =>
      rw [List.foldl_append]
      exact ih.addHeader e.1 e.2

/-- Where all names are in lower case, the first entry whose name is equal but for case is that of
the name in lower case. -/
theorem find?_eqIgnoringCase {entries : Entries String}
    (h : ∀ key ∈ Entries.keys entries, Text.asciiLower key = key) (name : String) :
    (entries.find? fun e => Text.eqIgnoringCase e.1 name).map Prod.snd
      = Entries.get? entries (Text.asciiLower name) := by
  induction entries with
  | nil => rfl
  | cons e entries ih =>
      obtain ⟨hkey, hkeys⟩ := List.forall_mem_cons.mp h
      have hcase : Text.eqIgnoringCase e.1 name = true ↔ Text.asciiLower name = e.1 := by
        rw [Text.eqIgnoringCase_iff, hkey, eq_comm]
      rw [List.find?_cons, Entries.get?_cons, ← ih hkeys]
      by_cases heq : Text.asciiLower name = e.1
      · rw [if_pos heq, hcase.mpr heq]
        rfl
      · rw [if_neg heq, Bool.eq_false_iff.mpr fun hsame => heq (hcase.mp hsame)]

theorem Gathered.findHeader? (h : Gathered Text.asciiLower joined headers came) (name : String) :
    findHeader? headers name = joined (valuesUnder name came) :=
  (find?_eqIgnoringCase h.spelt name).trans (h.get? name)

end Http

namespace Response

open Http

/-- A new response to which headers were added one after another. -/
def ofAdded (status : Nat) (added : List (String × String)) : Response :=
  added.foldl (fun r e => r.addHeader e.1 e.2) { status := status }

theorem headers_ofAdded (status : Nat) (added : List (String × String)) :
    (ofAdded status added).headers
      = added.foldl (fun headers e => Http.addHeader headers e.1 e.2) .empty :=
  (List.foldl_hom Response.headers fun _ _ => rfl).symm

/-- What is found in a response under a name are the values that were added under that name,
whatever its case here and there: all of them, in order, with a comma between every two. If there
are none, nothing is found. -/
theorem header?_ofAdded (status : Nat) (added : List (String × String)) (name : String) :
    ((ofAdded status added).header? name = none
        ↔ ∀ e ∈ added, Text.eqIgnoringCase e.1 name = false)
      ∧ (ofAdded status added).header? name
        = match (added.filter fun e => Text.eqIgnoringCase e.1 name).map Prod.snd with
          | [] => none
          | values => some (", ".intercalate values) := by
  have hfound : (ofAdded status added).header? name = joined (valuesUnder name added) := by
    unfold header?
    rw [headers_ofAdded]
    exact (gathered_addHeaders added).findHeader? name
  refine ⟨?_, hfound⟩
  rw [hfound, ← valuesUnder_eq_nil_iff]
  cases valuesUnder name added <;> simp [joined]

end Response

/-- A client finds in an answer what was sent under a name, without the values that are no
texts. -/
theorem Answer.header?_readFor (answer : Answer) (method : Method) (name : String) :
    (answer.readFor method).header? name
      = Http.joined (Http.valuesUnder name (answer.headers.filter fun e => isVisible e.2)) :=
  (Http.gathered_addHeaders _).findHeader? name

end HttpSuite
