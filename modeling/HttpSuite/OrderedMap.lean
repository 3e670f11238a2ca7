/-!
# Maps that remember the order of insertion

Scopes, headers, arguments and objects are all maps from names whose order can
be seen in what the program prints. Such a map is a list of entries in which no
name occurs twice. Setting a name that is there changes its value in place;
setting a new one puts it behind all others.

The operations are first written on plain lists of entries, because an object
inside a value is such a list, and then lifted to the type that carries the
proof that names are distinct.
-/

namespace HttpSuite

universe u v

/-- Entries of a map, in order. -/
abbrev Entries (α : Type u) := List (String × α)

namespace Entries

variable {α : Type u} {β : Type v}

/-- The names, in order. -/
def keys (es : Entries α) : List String := es.map Prod.fst

/-- The value of a name. -/
def get? (es : Entries α) (name : String) : Option α := es.lookup name

/-- Whether a name is bound. -/
def contains (es : Entries α) (name : String) : Bool := (es.get? name).isSome

/-- Sets a name: in place if it is there, at the end otherwise. -/
def insert : Entries α → String → α → Entries α
  | [], name, value => [(name, value)]
  | (k, v) :: rest, name, value =>
    if k == name then (k, value) :: rest else (k, v) :: insert rest name value

/-- Sets the names of `new` one after another. -/
def extend (es new : Entries α) : Entries α := new.foldl (fun acc e => acc.insert e.1 e.2) es

/-- The entries of a list of pairs: a repeated name keeps its first place and
its last value. -/
def ofPairs (pairs : List (String × α)) : Entries α := extend [] pairs

theorem keys_insert (es : Entries α) (name : String) (value : α) :
    keys (insert es name value) = if name ∈ keys es then keys es else keys es ++ [name] := by
  induction es with
  | nil => simp [insert, keys]
  | cons e rest ih =>
    obtain ⟨k, v⟩ := e
    simp only [insert, keys, List.map_cons] at ih ⊢
    by_cases hk : k = name
    · subst hk
      simp
    · have hk' : ¬ name = k := fun h => hk h.symm
      simp only [beq_iff_eq, hk, if_false, List.map_cons, List.mem_cons, hk', false_or]
      rw [ih]
      split <;> simp_all

theorem nodup_keys_insert {es : Entries α} (h : (keys es).Nodup) (name : String) (value : α) :
    (keys (insert es name value)).Nodup := by
  rw [keys_insert]
  split
  · exact h
  · next hn =>
    rw [List.nodup_append]
    refine ⟨h, by simp, ?_⟩
    intro a ha b hb
    simp only [List.mem_singleton] at hb
    subst hb
    intro hab
    exact hn (hab ▸ ha)

theorem nodup_keys_extend {es : Entries α} (h : (keys es).Nodup) (new : Entries α) :
    (keys (extend es new)).Nodup := by
  unfold extend
  induction new generalizing es with
  | nil => exact h
  | cons e rest ih => exact ih (nodup_keys_insert h e.1 e.2)

theorem nodup_keys_ofPairs (pairs : List (String × α)) : (keys (ofPairs pairs)).Nodup := by
  unfold ofPairs
  exact nodup_keys_extend (by simp [keys]) pairs

end Entries

/-- A map from names that remembers the order in which they were first set. -/
structure OrderedMap (α : Type u) where
  /-- The bindings, in order. -/
  entries : Entries α
  /-- No name is bound twice. -/
  nodup : (Entries.keys entries).Nodup
  deriving DecidableEq

namespace OrderedMap

variable {α : Type u} {β : Type v}

/-- The map that binds nothing. -/
def empty : OrderedMap α := ⟨[], List.nodup_nil⟩

instance : EmptyCollection (OrderedMap α) := ⟨empty⟩

instance : Inhabited (OrderedMap α) := ⟨empty⟩

/-- The bindings, in order. -/
def toList (m : OrderedMap α) : List (String × α) := m.entries

/-- The names, in order. -/
def keys (m : OrderedMap α) : List String := Entries.keys m.entries

/-- The values, in the order of their names. -/
def values (m : OrderedMap α) : List α := m.entries.map Prod.snd

/-- How many names are bound. -/
def size (m : OrderedMap α) : Nat := m.entries.length

/-- Whether nothing is bound. -/
def isEmpty (m : OrderedMap α) : Bool := m.entries.isEmpty

/-- The value of a name. -/
def get? (m : OrderedMap α) (name : String) : Option α := Entries.get? m.entries name

/-- Whether a name is bound. -/
def contains (m : OrderedMap α) (name : String) : Bool := (m.get? name).isSome

/-- Sets a name: in place if it is there, at the end otherwise. -/
def insert (m : OrderedMap α) (name : String) (value : α) : OrderedMap α :=
  ⟨Entries.insert m.entries name value, Entries.nodup_keys_insert m.nodup name value⟩

/-- Removes a name and keeps the order of the rest. -/
def erase (m : OrderedMap α) (name : String) : OrderedMap α :=
  ⟨m.entries.filter fun e => e.1 != name, m.nodup.sublist (List.filter_sublist.map Prod.fst)⟩

/-- Sets the names of `new` one after another. -/
def extend (m new : OrderedMap α) : OrderedMap α :=
  ⟨Entries.extend m.entries new.entries, Entries.nodup_keys_extend m.nodup new.entries⟩

/-- The map of a list of pairs: a repeated name keeps its first place and its
last value. -/
def ofList (pairs : List (String × α)) : OrderedMap α :=
  ⟨Entries.ofPairs pairs, Entries.nodup_keys_ofPairs pairs⟩

/-- Applies a function to every value, which may look at the name. -/
def mapWithKey (f : String → α → β) (m : OrderedMap α) : OrderedMap β :=
  ⟨m.entries.map fun e => (e.1, f e.1 e.2), by
    have h : Entries.keys (m.entries.map fun e => (e.1, f e.1 e.2)) = Entries.keys m.entries := by
      simp [Entries.keys, Function.comp_def]
    rw [h]
    exact m.nodup⟩

/-- Applies a function to every value. -/
def map (f : α → β) (m : OrderedMap α) : OrderedMap β := m.mapWithKey fun _ => f

end OrderedMap

end HttpSuite
