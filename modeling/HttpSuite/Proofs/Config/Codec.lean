import Mathlib.Data.List.Pairwise
import HttpSuite.Config.Printer
import HttpSuite.Config.Reader
import HttpSuite.Proofs.Duration
import HttpSuite.Proofs.Journal
import HttpSuite.Proofs.OrderedMap
import HttpSuite.Proofs.Template.Append

/-!
# Readers and writers that fit

A part of a suite is read from the nodes of a document and written as a value. The two fit if
whatever was read, of any node at all, is written as a value that is read as the same thing. A
`Codec` is a reader and a writer with that proof, and every way in which readers are put together
puts codecs together.

The proof asks only for what can be read, not for everything that the type has room for: a number
has to be below its bound and a length of time has to fit a word, and there is no other way to
know it than that it was read.

For a mapping with fields this is an invariant of the loop over its entries: whatever was read so
far, each part is as its reader left it or as it was in the beginning. Reading a part back needs
that writing it into what has been read does not touch the other parts, so a `Part` comes with
the two laws of looking and setting, and the third, about two parts, is a condition on the list.
-/

namespace HttpSuite

open Yaml (Node)

/-- A reader and a writer that fit. -/
structure Codec (α : Type) where
  read : NodeReader α
  write : α → Value
  /-- What was read is read again. -/
  back : ∀ {n : Node} {a : α}, read n = .ok a → read (.ofValue (write a)) = .ok a

namespace Codec

variable {α : Type}

/-! ## Scalars -/

def text : Codec String where
  read := NodeReader.text
  write := .string
  back := fun _ => rfl

def truth : Codec Bool where
  read := NodeReader.truth
  write := .bool
  back := fun {_ a} _ => by cases a <;> decide

theorem natural_ok {bound : Nat} {n : Node} {k : Nat} (h : NodeReader.natural bound n = .ok k) :
    k < bound := by
  unfold NodeReader.natural at h
  split at h
  · split at h
    · cases h
      assumption
    · cases h
  · cases h

theorem natural_ofNat {bound k : Nat} (hbound : bound ≤ Nat.pow 2 64) (h : k < bound) :
    NodeReader.natural bound (.ofValue (.ofNat k)) = .ok k := by
  have hdigits : Yaml.natural? (Nat.pow 2 64) (Number.render (.int k)).toList = some k := by
    have hrender : (Number.render (.int k)).toList = Nat.toDigits 10 k := Nat.toList_repr ..
    rw [hrender]
    exact Yaml.natural?_toDigits (Nat.lt_of_lt_of_le h hbound)
  have hbare : NodeReader.bareText? "int" (.ofValue (.ofNat k))
      = some (Number.render (.int k)) := by
    rw [Value.ofNat, Node.ofValue]
    rfl
  rw [NodeReader.natural, hbare, Option.bind_some, hdigits]
  exact if_pos h

/-- A natural number below a bound, which a word can hold. -/
def natural (bound : Nat) (hbound : bound ≤ Nat.pow 2 64) : Codec Nat where
  read := NodeReader.natural bound
  write := .ofNat
  back := fun h => natural_ofNat hbound (natural_ok h)

def template : Codec Template where
  read := NodeReader.template
  write := Template.toValue
  back := fun {_ t} _ => by
    have hsource : NodeReader.templateSource (.ofValue t.toValue) = .ok t.source := by
      rw [Template.toValue, Node.ofValue, NodeReader.templateSource, Node.value?]
      rfl
    rw [NodeReader.template, hsource]
    show (match Template.parse t.source with
      | .ok t => Except.ok t
      | .error e => Except.error (DocumentError.template e)) = Except.ok t
    rw [Template.parse_source]

def origin : Codec Origin where
  read := NodeReader.origin
  write o := .string o.name
  back := fun {_ o} _ => by cases o <;> decide

theorem duration_ok {n : Node} {d : Duration} (h : NodeReader.duration n = .ok (some d)) :
    d.Fits := by
  obtain ⟨source, -, h⟩ := bind_ok_iff.mp h
  cases source with
  | none => cases h
  | some raw =>
      dsimp only at h
      split at h
      · cases h
      · split at h
        · next d' hparse =>
            cases h
            exact Duration.parse?_fits hparse
        · cases h

def duration : Codec (Option Duration) where
  read := NodeReader.duration
  write := Value.ofOption Duration.toValue
  back := fun {n d} h => by
    cases d with
    | none => decide
    | some d =>
        have hfits := duration_ok h
        have hparse := Duration.parse?_render hfits
        have hempty : d.render.isEmpty = false := by
          rw [← Bool.not_eq_true, String.isEmpty_iff]
          intro hempty
          rw [hempty] at hparse
          cases hparse
        have hduration : NodeReader.duration (.ofValue (.string d.render))
            = if (Text.trim d.render).isEmpty then .ok none
              else match Duration.parse? (Text.trim d.render) with
                | some d => .ok (some d)
                | none => .error (.invalidDuration d.render) := by
          rw [Node.ofValue]
          rfl
        rw [Duration.trim_render hfits, hempty, hparse] at hduration
        exact hduration

/-! ## What may be missing -/

/-- Values that cannot be taken for nothing. -/
inductive Definite : Value → Prop where
  | text (s : String) : Definite (.string s)
  | natural (n : Nat) : Definite (.ofNat n)
  | object (fields : List (String × Value)) : Definite (.object fields)

theorem optional_ofValue (read : NodeReader α) {v : Value} (h : Definite v) :
    NodeReader.optional read (.ofValue v) = (read (.ofValue v)).map some := by
  cases h with
  | text s =>
      rw [Node.ofValue]
      rfl
  | object fields =>
      rw [Node.ofValue]
      rfl
  | natural n =>
      -- A number begins with a digit, and no word for null does.
      obtain ⟨c, cs, hdigits, hdigit, -⟩ := Text.toDigits_eq_cons n
      have hlist : (Number.render (.int n)).toList = c :: cs := Nat.toList_repr.trans hdigits
      have hword : ∀ word : String, word.toList.head?.any Char.isDigit = false →
          Number.render (.int n) ≠ word := by
        rintro word hhead rfl
        rw [hlist, List.head?_cons, Option.any_some, hdigit] at hhead
        cases hhead
      have hempty : (Number.render (.int n)).isEmpty = false := by
        rw [← Bool.not_eq_true, String.isEmpty_iff]
        exact hword "" (by decide)
      have hnull : Yaml.isNullWord (Number.render (.int n)) = false := by
        simp only [Yaml.isNullWord, Bool.or_eq_false_iff, beq_eq_false_iff_ne]
        exact ⟨⟨⟨hword _ (by decide), hword _ (by decide)⟩, hword _ (by decide)⟩,
          hword _ (by decide)⟩
      rw [Value.ofNat, Node.ofValue]
      show (if (Number.render (.int n)).isEmpty || Yaml.isNullWord (Number.render (.int n))
        then _ else _) = _
      rw [hempty, hnull]
      rfl

theorem optional_ok {read : NodeReader α} {n : Node} {a : α}
    (h : NodeReader.optional read n = .ok (some a)) : read n = .ok a := by
  unfold NodeReader.optional at h
  have hpresent : (read n).map some = .ok (some a) → read n = .ok a := by
    intro hread
    obtain ⟨a', ha', heq⟩ := map_ok_iff.mp hread
    cases heq
    exact ha'
  dsimp only at h
  split at h
  · cases h
  · split at h
    · exact hpresent h
    · split at h
      · split at h
        · cases h
        · exact hpresent h
      · split at h
        · split at h <;> cases h
        · exact hpresent h
  · exact hpresent h

def optional (c : Codec α) (h : ∀ a, Definite (c.write a)) : Codec (Option α) where
  read := NodeReader.optional c.read
  write := Value.ofOption c.write
  back := fun {_ a} hread => by
    cases a with
    | none =>
        rw [Value.ofOption, Node.ofValue]
        rfl
    | some a =>
        rw [Value.ofOption, optional_ofValue c.read (h a), c.back (optional_ok hread)]
        rfl

/-! ## Items and entries -/

theorem list_ok {read : NodeReader α} {n : Node} {as : List α}
    (h : NodeReader.list read n = .ok as) {a : α} (ha : a ∈ as) : ∃ m, read m = .ok a := by
  unfold NodeReader.list at h
  split at h
  · next items =>
      obtain ⟨m, -, hm⟩ := exists_of_mem_mapM h ha
      exact ⟨m, hm⟩
  · split at h
    · cases h
      cases ha
    · cases h

theorem list_ofValue {read : NodeReader α} {write : α → Value} {as : List α}
    (h : ∀ a ∈ as, read (.ofValue (write a)) = .ok a) :
    NodeReader.list read (.ofValue (.array (as.map write))) = .ok as := by
  rw [Node.ofValue]
  refine mapM_ok_iff.mpr ?_
  induction as with
  | nil =>
      rw [List.map_nil, Node.ofValues]
      exact .nil
  | cons a as ih =>
      rw [List.map_cons, Node.ofValues]
      exact .cons (h a List.mem_cons_self) (ih fun a ha => h a (List.mem_cons_of_mem _ ha))

def list (c : Codec α) : Codec (List α) where
  read := NodeReader.list c.read
  write := Value.ofList c.write
  back := fun hread => list_ofValue fun _ ha =>
    let ⟨_, hm⟩ := list_ok hread ha
    c.back hm

theorem map_ok {read : NodeReader α} {n : Node} {m : OrderedMap α}
    (h : NodeReader.map read n = .ok m) {e : String × α} (he : e ∈ m.toList) :
    ∃ node, read node = .ok e.2 := by
  obtain ⟨es, -, h⟩ := bind_ok_iff.mp h
  obtain ⟨pairs, hpairs, h⟩ := bind_ok_iff.mp h
  cases h
  obtain ⟨entry, -, hentry⟩ := exists_of_mem_mapM hpairs (OrderedMap.mem_of_mem_ofList he)
  obtain ⟨key, -, hentry⟩ := bind_ok_iff.mp hentry
  obtain ⟨a, ha, hentry⟩ := bind_ok_iff.mp hentry
  exact ⟨_, ha.trans (congrArg Except.ok (congrArg Prod.snd (Except.ok.inj hentry)))⟩

theorem map_ofValue {read : NodeReader α} {write : α → Value} {m : OrderedMap α}
    (h : ∀ e ∈ m.toList, read (.ofValue (write e.2)) = .ok e.2) :
    NodeReader.map read (.ofValue (Value.ofMap write m)) = .ok m := by
  rw [Value.ofMap, Node.ofValue]
  refine bind_ok_iff.mpr ⟨_, rfl, bind_ok_iff.mpr ⟨m.toList, mapM_ok_iff.mpr ?_, ?_⟩⟩
  · generalize m.toList = es at h
    induction es with
    | nil =>
        rw [List.map_nil, Node.ofFields]
        exact .nil
    | cons e es ih =>
        rw [List.map_cons, Node.ofFields]
        refine .cons ?_ (ih fun e he => h e (List.mem_cons_of_mem _ he))
        exact bind_ok_iff.mpr ⟨e.1, rfl, bind_ok_iff.mpr ⟨e.2, h e List.mem_cons_self, rfl⟩⟩
  · exact congrArg Except.ok (OrderedMap.ofList_toList m)

def map (c : Codec α) : Codec (OrderedMap α) where
  read := NodeReader.map c.read
  write := Value.ofMap c.write
  back := fun hread => map_ofValue fun _ he =>
    let ⟨_, hnode⟩ := map_ok hread he
    c.back hnode

end Codec

/-! ## Mappings with fields -/

/-- A part of an `α` that has a field of its own; it may be left out of `start`. -/
structure Part (α : Type) (start : α) where
  {β : Type}
  codec : Codec β
  name : String
  get : α → β
  set : α → β → α
  otherName : Option String := none
  required : Bool := false
  /-- What was set is there. -/
  get_set : ∀ a b, get (set a b) = b := by intros; rfl
  /-- What is there in the beginning could have been read. -/
  initial : ∃ n, codec.read n = .ok (get start) := by exact ⟨.void, rfl⟩

namespace Part

variable {α : Type} {start : α}

def field (p : Part α start) : NodeReader.Field α :=
  ⟨p.name, p.otherName, p.required, fun n a => (p.codec.read n).map (p.set a)⟩

/-- The names under which a part can be written. -/
def labels (p : Part α start) : List String := p.name :: p.otherName.toList

/-- Two parts do not touch each other. -/
def Apart (p q : Part α start) : Prop :=
  (∀ a b, p.get (q.set a b) = p.get a) ∧ ∀ a b, q.get (p.set a b) = q.get a

instance : Std.Symm (Apart : Part α start → Part α start → Prop) := ⟨fun _ _ h => ⟨h.2, h.1⟩⟩

/-- Every part is as its reader can leave it. -/
def Read (parts : List (Part α start)) (a : α) : Prop :=
  ∀ p ∈ parts, ∃ n, p.codec.read n = .ok (p.get a)

theorem read_set {parts : List (Part α start)} (happart : parts.Pairwise Apart) {a : α}
    (h : Read parts a) {p : Part α start} (hp : p ∈ parts) {n : Node} {b : p.β}
    (hb : p.codec.read n = .ok b) : Read parts (p.set a b) := by
  intro q hq
  by_cases heq : q = p
  · subst heq
    rw [q.get_set]
    exact ⟨n, hb⟩
  · rw [(happart.forall hq hp heq).1]
    exact h q hq

theorem read_readEntries {parts : List (Part α start)} (happart : parts.Pairwise Apart)
    {entries : List (Node × Node)} {seen seen' : List String} {a a' : α} (ha : Read parts a)
    (h : NodeReader.readEntries (parts.map field) seen a entries = .ok (seen', a')) :
    Read parts a' := by
  induction entries generalizing seen a with
  | nil =>
      cases h
      exact ha
  | cons entry entries ih =>
      rw [NodeReader.readEntries] at h
      obtain ⟨key, -, h⟩ := bind_ok_iff.mp h
      split at h
      · cases h
      · next f hf =>
          split at h
          · cases h
          · obtain ⟨next, hnext, h⟩ := bind_ok_iff.mp h
            obtain ⟨p, hp, rfl⟩ := List.mem_map.mp (List.mem_of_find?_eq_some hf)
            obtain ⟨b, hb, rfl⟩ := map_ok_iff.mp hnext
            exact ih (read_set happart ha hp hb) h

theorem nodup_names {parts : List (Part α start)} (h : (parts.flatMap labels).Nodup) :
    (parts.map name).Nodup := by
  refine h.sublist ?_
  clear h
  induction parts with
  | nil => exact .slnil
  | cons p parts ih => exact (ih.trans (List.sublist_append_right _ _)).cons_cons _

/-- A name is looked up as the part that has it. -/
theorem find?_field {parts : List (Part α start)} (hlabels : (parts.flatMap labels).Nodup)
    {p : Part α start} (hp : p ∈ parts) :
    ((parts.map field).find? fun f => f.name == p.name || f.otherName == some p.name)
      = some p.field := by
  induction parts with
  | nil => cases hp
  | cons q parts ih =>
      rw [List.flatMap_cons, List.nodup_append] at hlabels
      rw [List.map_cons, List.find?_cons]
      rcases List.mem_cons.mp hp with rfl | hp
      · have hname : (p.field.name == p.name) = true := beq_self_eq_true p.name
        rw [hname]
        rfl
      · have hlabel : p.name ∈ parts.flatMap labels :=
          List.mem_flatMap.mpr ⟨p, hp, List.mem_cons_self⟩
        have hname : (q.field.name == p.name) = false :=
          beq_eq_false_iff_ne.mpr (hlabels.2.2 _ List.mem_cons_self _ hlabel)
        have hother : (q.field.otherName == some p.name) = false := by
          rw [beq_eq_false_iff_ne]
          intro heq
          refine hlabels.2.2 p.name (List.mem_cons_of_mem _ ?_) _ hlabel rfl
          rw [Option.mem_toList]
          exact heq
        rw [hname, hother]
        exact ih hlabels.2.1 hp

def entry (a : α) (p : Part α start) : String × Value := (p.name, p.codec.write (p.get a))

/-- Reading what was written sets one part after another. -/
theorem readEntries_written {parts : List (Part α start)} (hlabels : (parts.flatMap labels).Nodup)
    {a : α} (ha : Read parts a) {ps : List (Part α start)} (hps : ∀ p ∈ ps, p ∈ parts)
    (hnames : (ps.map name).Nodup) {seen : List String} (hseen : ∀ p ∈ ps, p.name ∉ seen)
    (s : α) :
    NodeReader.readEntries (parts.map field) seen s (Node.ofFields (ps.map (entry a)))
      = .ok ((ps.map name).reverse ++ seen, ps.foldl (fun s p => p.set s (p.get a)) s) := by
  induction ps generalizing seen s with
  | nil =>
      rw [List.map_nil, Node.ofFields, NodeReader.readEntries]
      rfl
  | cons p ps ih =>
      obtain ⟨hname, hnames⟩ := List.nodup_cons.mp hnames
      have hp := hps p List.mem_cons_self
      obtain ⟨n, hread⟩ := ha p hp
      have hset : p.field.read (.ofValue (p.codec.write (p.get a))) s
          = .ok (p.set s (p.get a)) := by
        show (p.codec.read _).map _ = _
        rw [p.codec.back hread]
        rfl
      have hfresh : ¬ seen.contains p.name = true :=
        fun h => hseen p List.mem_cons_self (List.contains_iff_mem.mp h)
      have hlater : ∀ q ∈ ps, q.name ∉ p.name :: seen := by
        intro q hq hmem
        rcases List.mem_cons.mp hmem with heq | hmem
        · exact hname (heq ▸ List.mem_map_of_mem hq)
        · exact hseen q (List.mem_cons_of_mem _ hq) hmem
      rw [List.map_cons, entry, Node.ofFields, NodeReader.readEntries]
      refine bind_ok_iff.mpr ⟨p.name, rfl, ?_⟩
      rw [find?_field hlabels hp]
      refine (if_neg hfresh).trans (bind_ok_iff.mpr ⟨_, hset, ?_⟩)
      refine (ih (fun q hq => hps q (List.mem_cons_of_mem _ hq)) hnames hlater _).trans ?_
      rw [List.map_cons, List.reverse_cons, List.append_assoc]
      rfl

end Part

namespace Codec

variable {α : Type}

/-- A mapping with a field for each part, if no two of them have a name in common or touch each
other and the parts are all there is. -/
def struct (start : α) (parts : List (Part α start)) (hlabels : (parts.flatMap Part.labels).Nodup)
    (happart : parts.Pairwise Part.Apart)
    (hall : ∀ a, parts.foldl (fun s p => p.set s (p.get a)) start = a) : Codec α where
  read := NodeReader.struct (parts.map Part.field) start
  write a := .object (parts.map (Part.entry a))
  back := fun {n a} hread => by
    obtain ⟨es, -, hread⟩ := bind_ok_iff.mp hread
    obtain ⟨⟨seen, a'⟩, hentries, hread⟩ := bind_ok_iff.mp hread
    -- What was read is what the loop over the entries has come to.
    have hparts : Part.Read parts a := by
      dsimp only at hread
      split at hread
      · cases hread
      · cases hread
        exact Part.read_readEntries happart (fun p _ => p.initial) hentries
    have hwritten := Part.readEntries_written hlabels hparts (fun _ hp => hp)
      (Part.nodup_names hlabels) (fun _ _ => List.not_mem_nil) start
    rw [hall, List.append_nil] at hwritten
    -- All parts are written, so no field is missing that must be there.
    have hmissing : ((parts.map Part.field).find? fun f =>
        f.required && !(parts.map Part.name).reverse.contains f.name) = none := by
      rw [List.find?_eq_none]
      intro f hf
      obtain ⟨p, hp, rfl⟩ := List.mem_map.mp hf
      have hseen : p.field.name ∈ (parts.map Part.name).reverse :=
        List.mem_reverse.mpr (List.mem_map_of_mem hp)
      rw [List.contains_iff_mem.mpr hseen]
      simp
    rw [Node.ofValue]
    refine bind_ok_iff.mpr ⟨_, rfl, bind_ok_iff.mpr ⟨_, hwritten, ?_⟩⟩
    dsimp only
    rw [hmissing]

end Codec

end HttpSuite
