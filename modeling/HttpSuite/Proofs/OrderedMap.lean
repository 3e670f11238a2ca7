import HttpSuite.OrderedMap

/-!
# Looking names up

What a map that remembers the order of insertion answers after it was changed. Every
other module reasons about maps through the lemmas below and never looks at the list of
entries itself: a lookup behind `insert`, `erase` and `extend`, and the names and their order.

On bare entries the names may repeat, so the lemma on `extend` needs to know that they do
not in what is added. On the type of maps that is a field.
-/

namespace HttpSuite

universe u

namespace Entries

variable {α : Type u}

@[simp] theorem get?_nil (name : String) : get? ([] : Entries α) name = none := rfl

theorem get?_cons (e : String × α) (es : Entries α) (name : String) :
    get? (e :: es) name = if name = e.1 then some e.2 else get? es name := by
  obtain ⟨k, v⟩ := e
  unfold get?
  rw [List.lookup_cons]
  by_cases h : name = k
  · subst h
    simp
  · have hb : (name == k) = false := by simpa using h
    simp [hb, h]

@[simp] theorem keys_nil : keys ([] : Entries α) = [] := rfl

@[simp] theorem keys_cons (e : String × α) (es : Entries α) :
    keys (e :: es) = e.1 :: keys es := rfl

theorem get?_isSome_iff {es : Entries α} {name : String} :
    (get? es name).isSome = true ↔ name ∈ keys es := by
  induction es with
  | nil => simp
  | cons e es ih =>
      rw [get?_cons, keys_cons, List.mem_cons]
      by_cases h : name = e.1
      · simp [h]
      · simp [h, ih]

theorem get?_eq_none_iff {es : Entries α} {name : String} :
    get? es name = none ↔ name ∉ keys es := by
  rw [← get?_isSome_iff]
  cases get? es name <;> simp

/-- What is looked up is one of the entries. -/
theorem mem_of_get? {es : Entries α} {name : String} {value : α}
    (h : get? es name = some value) : (name, value) ∈ es := by
  induction es with
  | nil => simp at h
  | cons e es ih =>
      rw [get?_cons] at h
      split at h
      · next hk =>
          obtain ⟨k, v⟩ := e
          simp only at hk h
          cases h
          exact List.mem_cons.mpr (Or.inl (by rw [hk]))
      · exact List.mem_cons.mpr (Or.inr (ih h))

/-- An entry is what is looked up, if its name comes once. -/
theorem get?_of_mem {es : Entries α} (hn : (keys es).Nodup) {name : String} {value : α}
    (h : (name, value) ∈ es) : get? es name = some value := by
  induction es with
  | nil => cases h
  | cons e es ih =>
      obtain ⟨hhead, htail⟩ := List.nodup_cons.mp hn
      rw [get?_cons]
      rcases List.mem_cons.mp h with rfl | hmem
      · simp
      · have hne : name ≠ e.1 := by
          rintro rfl
          exact hhead (List.mem_map.mpr ⟨_, hmem, rfl⟩)
        rw [if_neg hne]
        exact ih htail hmem

/-- Entries with the same distinct names, each bound to the same, are the same. -/
theorem ext {es fs : Entries α} (hkeys : keys es = keys fs) (hn : (keys es).Nodup)
    (hget : ∀ name ∈ keys es, get? es name = get? fs name) : es = fs := by
  induction es generalizing fs with
  | nil =>
      cases fs with
      | nil => rfl
      | cons f fs => cases hkeys
  | cons e es ih =>
      cases fs with
      | nil => cases hkeys
      | cons f fs =>
          obtain ⟨hhead, htail⟩ := List.nodup_cons.mp hn
          obtain ⟨hname, hrest⟩ := List.cons.inj hkeys
          have hvalue := hget e.1 (List.mem_cons_self ..)
          rw [get?_cons, get?_cons, if_pos rfl, if_pos hname] at hvalue
          have hes : es = fs := by
            apply ih hrest htail
            intro name hmem
            have hne : name ≠ e.1 := fun h => hhead (h ▸ hmem)
            have hne' : name ≠ f.1 := fun h => hne (h.trans hname.symm)
            have := hget name (List.mem_cons_of_mem _ hmem)
            rwa [get?_cons, get?_cons, if_neg hne, if_neg hne'] at this
          rw [hes, Prod.ext hname (Option.some.inj hvalue)]

theorem keys_map_pair (names : List String) (f : String → α) :
    keys (names.map fun name => (name, f name)) = names := by
  rw [keys, List.map_map]
  exact List.map_id names

theorem get?_map_pair {names : List String} (f : String → α) {name : String} (h : name ∈ names) :
    get? (names.map fun name => (name, f name)) name = some (f name) := by
  induction names with
  | nil => cases h
  | cons first names ih =>
      rw [List.map_cons, get?_cons]
      by_cases hname : name = first
      · rw [if_pos hname, hname]
      · rw [if_neg hname, ih (List.mem_of_ne_of_mem hname h)]

/-- What is looked up does not hang on the order of entries whose names come once. -/
theorem get?_of_perm {es es' : Entries α} (h : es.Perm es') (hn : (keys es).Nodup)
    (name : String) : get? es name = get? es' name := by
  have hkeys : (keys es).Perm (keys es') := h.map Prod.fst
  cases hget : get? es name with
  | none =>
      rw [get?_eq_none_iff, hkeys.mem_iff] at hget
      exact (get?_eq_none_iff.mpr hget).symm
  | some value => exact (get?_of_mem (hkeys.nodup_iff.mp hn) (h.mem_iff.mp (mem_of_get? hget))).symm

theorem get?_insert (es : Entries α) (name : String) (value : α) (other : String) :
    get? (insert es name value) other = if other = name then some value else get? es other := by
  induction es with
  | nil => simp [insert, get?_cons]
  | cons e es ih =>
      obtain ⟨k, v⟩ := e
      rw [insert]
      by_cases hk : k = name
      · subst hk
        simp only [beq_self_eq_true, if_true, get?_cons]
        split <;> rfl
      · have hb : (k == name) = false := by simpa using hk
        simp only [hb, Bool.false_eq_true, if_false, get?_cons, ih]
        by_cases ho : other = k
        · simp [ho, hk]
        · simp [ho]

/-- What is in a map after a name was set was there before, or it was set. -/
theorem mem_insert {es : Entries α} {name : String} {value : α} {e : String × α}
    (h : e ∈ insert es name value) : e ∈ es ∨ e = (name, value) := by
  induction es with
  | nil => exact Or.inr (List.mem_singleton.mp h)
  | cons first es ih =>
      obtain ⟨k, v⟩ := first
      rw [insert] at h
      split at h
      · next hk =>
          rcases List.mem_cons.mp h with rfl | hmem
          · exact Or.inr (by rw [beq_iff_eq.mp hk])
          · exact Or.inl (List.mem_cons_of_mem _ hmem)
      · rcases List.mem_cons.mp h with rfl | hmem
        · exact Or.inl List.mem_cons_self
        · exact (ih hmem).imp_left (List.mem_cons_of_mem _)

theorem insert_of_not_mem {es : Entries α} {name : String} (h : name ∉ keys es) (value : α) :
    insert es name value = es ++ [(name, value)] := by
  induction es with
  | nil => rfl
  | cons e es ih =>
      rw [keys_cons, List.mem_cons, not_or] at h
      rw [insert, if_neg (by simpa using Ne.symm h.1), ih h.2, List.cons_append]

theorem extend_cons (es : Entries α) (e : String × α) (new : Entries α) :
    extend es (e :: new) = extend (insert es e.1 e.2) new := rfl

theorem mem_extend {es new : Entries α} {e : String × α} (h : e ∈ extend es new) :
    e ∈ es ∨ e ∈ new := by
  induction new generalizing es with
  | nil => exact Or.inl h
  | cons first new ih =>
      rw [extend_cons] at h
      rcases ih h with hmem | hmem
      · rcases mem_insert hmem with hmem | rfl
        · exact Or.inl hmem
        · exact Or.inr List.mem_cons_self
      · exact Or.inr (List.mem_cons_of_mem _ hmem)

/-- Names that all are new come behind the others. -/
theorem extend_of_nodup {es new : Entries α} (h : (keys (es ++ new)).Nodup) :
    extend es new = es ++ new := by
  induction new generalizing es with
  | nil => exact (List.append_nil es).symm
  | cons e new ih =>
      have hkeys : keys (es ++ [e] ++ new) = keys (es ++ e :: new) := by simp
      have hfresh : e.1 ∉ keys es := by
        rw [keys, List.map_append, List.nodup_append] at h
        exact fun hmem => h.2.2 e.1 hmem e.1 List.mem_cons_self rfl
      rw [extend_cons, insert_of_not_mem hfresh, ih (hkeys ▸ h), List.append_assoc]
      rfl

theorem mem_keys_extend {es new : Entries α} {name : String} :
    name ∈ keys (extend es new) ↔ name ∈ keys es ∨ name ∈ keys new := by
  induction new generalizing es with
  | nil => simp [extend]
  | cons e new ih =>
      rw [extend_cons, ih, keys_insert, keys_cons, List.mem_cons]
      split
      · next h =>
          constructor
          · rintro (hes | hnew)
            · exact Or.inl hes
            · exact Or.inr (Or.inr hnew)
          · rintro (hes | rfl | hnew)
            · exact Or.inl hes
            · exact Or.inl h
            · exact Or.inr hnew
      · rw [List.mem_append, List.mem_singleton, or_assoc]

/-- A name that is not set keeps its value. -/
theorem get?_extend_of_not_mem {es new : Entries α} {name : String} (h : name ∉ keys new) :
    get? (extend es new) name = get? es name := by
  induction new generalizing es with
  | nil => rfl
  | cons e new ih =>
      rw [keys_cons, List.mem_cons, not_or] at h
      rw [extend_cons, ih h.2, get?_insert, if_neg h.1]

/-- Sets names one after another, each to what is made of the value that it has, if any, and the
new one. -/
def extendWith (f : Option α → α → α) (es new : Entries α) : Entries α :=
  new.foldl (fun acc e => insert acc e.1 (f (get? acc e.1) e.2)) es

theorem extendWith_cons (f : Option α → α → α) (es : Entries α) (e : String × α)
    (new : Entries α) :
    extendWith f es (e :: new) = extendWith f (insert es e.1 (f (get? es e.1) e.2)) new := rfl

theorem extend_eq_extendWith (es new : Entries α) :
    extend es new = extendWith (fun _ value => value) es new := rfl

/-- A name that is set has what is made of the value that it had. -/
theorem get?_extendWith (f : Option α → α → α) {new : Entries α} (hn : (keys new).Nodup)
    (es : Entries α) (name : String) :
    get? (extendWith f es new) name
      = ((get? new name).map (f (get? es name))).or (get? es name) := by
  induction new generalizing es with
  | nil => rfl
  | cons e new ih =>
      obtain ⟨hhead, htail⟩ := List.nodup_cons.mp hn
      rw [extendWith_cons, ih htail, get?_insert, get?_cons]
      by_cases h : name = e.1
      · subst h
        rw [get?_eq_none_iff.mpr hhead]
        simp
      · simp [h]

/-- Whatever names are set to, the new ones come last, in their order. -/
theorem keys_extendWith (f : Option α → α → α) {new : Entries α} (hn : (keys new).Nodup)
    (es : Entries α) :
    keys (extendWith f es new)
      = keys es ++ (keys new).filter fun name => name ∉ keys es := by
  induction new generalizing es with
  | nil => simp [extendWith]
  | cons e new ih =>
      obtain ⟨hhead, htail⟩ := List.nodup_cons.mp hn
      rw [extendWith_cons, ih htail, keys_insert, keys_cons]
      by_cases h : e.1 ∈ keys es
      · simp [h]
      · have hfilter : ((keys new).filter fun name => name ∉ keys es ++ [e.1])
            = (keys new).filter fun name => name ∉ keys es := by
          apply List.filter_congr
          intro name hname
          have hne : name ≠ e.1 := fun heq => hhead (heq ▸ hname)
          simp [hne]
        rw [if_neg h, hfilter, List.filter_cons]
        simp [h]

/-- Behind `extend` a name has its new value, or else the one that it had. -/
theorem get?_extend {new : Entries α} (hn : (keys new).Nodup) (es : Entries α) (name : String) :
    get? (extend es new) name = (get? new name).or (get? es name) := by
  rw [extend_eq_extendWith, get?_extendWith _ hn]
  cases get? new name <;> rfl

/-- Behind `extend` the new names come last, in their order. -/
theorem keys_extend {new : Entries α} (hn : (keys new).Nodup) (es : Entries α) :
    keys (extend es new) = keys es ++ (keys new).filter fun name => name ∉ keys es :=
  keys_extendWith (fun _ value => value) hn es

end Entries

namespace OrderedMap

variable {α : Type u}

/-- Maps are the same as soon as their entries are. -/
theorem ext {m n : OrderedMap α} (h : m.entries = n.entries) : m = n := by
  cases m
  cases n
  cases h
  rfl

theorem nodup_keys (m : OrderedMap α) : m.keys.Nodup := m.nodup

theorem contains_iff {m : OrderedMap α} {name : String} :
    m.contains name = true ↔ name ∈ m.keys := Entries.get?_isSome_iff

theorem get?_eq_none_iff {m : OrderedMap α} {name : String} :
    m.get? name = none ↔ name ∉ m.keys := Entries.get?_eq_none_iff

theorem mem_keys_of_get? {m : OrderedMap α} {name : String} {value : α}
    (h : m.get? name = some value) : name ∈ m.keys := by
  apply contains_iff.mp
  unfold contains
  rw [h]
  rfl

theorem exists_get?_of_mem_keys {m : OrderedMap α} {name : String} (h : name ∈ m.keys) :
    ∃ value, m.get? name = some value :=
  Option.isSome_iff_exists.mp (contains_iff.mpr h)

theorem mem_of_mem_ofList {pairs : List (String × α)} {e : String × α}
    (h : e ∈ (ofList pairs).toList) : e ∈ pairs :=
  (Entries.mem_extend h).resolve_left nofun

/-- A map is that of its entries. -/
theorem ofList_toList (m : OrderedMap α) : ofList m.toList = m := by
  have hnodup : (Entries.keys ([] ++ m.entries)).Nodup := m.nodup
  exact ext (Entries.extend_of_nodup hnodup)

theorem get?_of_perm {m m' : OrderedMap α} (h : m.toList.Perm m'.toList) (name : String) :
    m.get? name = m'.get? name := Entries.get?_of_perm h m.nodup name

theorem get?_insert (m : OrderedMap α) (name : String) (value : α) (other : String) :
    (m.insert name value).get? other = if other = name then some value else m.get? other :=
  Entries.get?_insert m.entries name value other

theorem get?_insert_self (m : OrderedMap α) (name : String) (value : α) :
    (m.insert name value).get? name = some value := by
  rw [get?_insert, if_pos rfl]

/-- Setting a name that is free takes nothing from the others. -/
theorem get?_insert_of_free {m : OrderedMap α} {name taken : String} {value old : α}
    (hfree : ¬m.contains name = true) (h : m.get? taken = some old) :
    (m.insert name value).get? taken = some old := by
  have hne : name ≠ taken := by
    rintro rfl
    exact hfree (contains_iff.mpr (mem_keys_of_get? h))
  rw [get?_insert, if_neg hne.symm, h]

theorem keys_insert (m : OrderedMap α) (name : String) (value : α) :
    (m.insert name value).keys = if name ∈ m.keys then m.keys else m.keys ++ [name] :=
  Entries.keys_insert m.entries name value

theorem keys_erase (m : OrderedMap α) (name : String) :
    (m.erase name).keys = m.keys.filter fun other => other != name := by
  unfold keys erase Entries.keys
  rw [List.filter_map]
  rfl

/-- Behind `erase` a name is not bound, and the others are as they were. -/
theorem get?_erase (m : OrderedMap α) (name other : String) :
    (m.erase name).get? other = if other = name then none else m.get? other := by
  by_cases h : other = name
  · rw [if_pos h, get?_eq_none_iff, keys_erase, h]
    simp
  · rw [if_neg h]
    show Entries.get? (m.entries.filter _) other = Entries.get? m.entries other
    induction m.entries with
    | nil => rfl
    | cons e es ih =>
        rw [List.filter_cons]
        by_cases he : e.1 = name
        · rw [if_neg (by simpa using he), ih, Entries.get?_cons, if_neg (he ▸ h)]
        · rw [if_pos (by simpa using he), Entries.get?_cons, Entries.get?_cons, ih]

/-- Behind `extend` a name has its new value, or else the one that it had. -/
theorem get?_extend (m new : OrderedMap α) (name : String) :
    (m.extend new).get? name = (new.get? name).or (m.get? name) :=
  Entries.get?_extend new.nodup m.entries name

/-- Behind `extend` the new names come last, in their order. -/
theorem keys_extend (m new : OrderedMap α) :
    (m.extend new).keys = m.keys ++ new.keys.filter fun name => name ∉ m.keys :=
  Entries.keys_extend new.nodup m.entries

/-- Names that are all new come behind the old ones. -/
theorem keys_extend_of_disjoint {m new : OrderedMap α} (h : ∀ name ∈ new.keys, name ∉ m.keys) :
    (m.extend new).keys = m.keys ++ new.keys := by
  rw [keys_extend, List.filter_eq_self.mpr]
  intro name hname
  simpa using h name hname

theorem mem_keys_extend {m new : OrderedMap α} {name : String} :
    name ∈ (m.extend new).keys ↔ name ∈ m.keys ∨ name ∈ new.keys := Entries.mem_keys_extend

/-- Maps are the same as soon as they answer the same and have their names in the same order. -/
theorem ext_of_get? {m n : OrderedMap α} (hkeys : m.keys = n.keys)
    (hget : ∀ name, m.get? name = n.get? name) : m = n :=
  ext (Entries.ext hkeys m.nodup fun name _ => hget name)

/-- Erasing a name that was set where it was free gives back the map as it was. -/
theorem erase_insert (m : OrderedMap α) {name : String} (h : name ∉ m.keys) (value : α) :
    (m.insert name value).erase name = m := by
  refine ext_of_get? ?_ fun other => ?_
  · rw [keys_erase, keys_insert, if_neg h, List.filter_append, List.filter_eq_self.mpr]
    · simp
    · intro other hother
      simpa using ne_of_mem_of_not_mem hother h
  · rw [get?_erase, get?_insert]
    split
    · next heq => rw [heq, get?_eq_none_iff.mpr h]
    · rfl

@[simp] theorem extend_empty (m : OrderedMap α) : m.extend empty = m := rfl

@[simp] theorem empty_extend (m : OrderedMap α) : empty.extend m = m := ofList_toList m

@[simp] theorem extend_self (m : OrderedMap α) : m.extend m = m := by
  refine ext_of_get? ?_ fun name => by rw [get?_extend, Option.or_self]
  rw [keys_extend, List.filter_eq_nil_iff.mpr, List.append_nil]
  intro name hname
  simpa using hname

/-- It does not matter which of two extensions comes first, not even for the order of names. -/
theorem extend_assoc (m n o : OrderedMap α) : (m.extend n).extend o = m.extend (n.extend o) := by
  refine ext_of_get? ?_ fun name => by simp only [get?_extend, Option.or_assoc]
  have hnew : (o.keys.filter fun name => name ∉ (m.extend n).keys)
      = (o.keys.filter fun name => name ∉ n.keys).filter fun name => name ∉ m.keys := by
    rw [List.filter_filter]
    refine List.filter_congr fun name _ => ?_
    simp [mem_keys_extend]
  rw [keys_extend (m.extend n), hnew, keys_extend m, keys_extend m, keys_extend n,
    List.filter_append, List.append_assoc]

/-- Names that were set are not changed by setting them again. -/
theorem extend_extend (m new : OrderedMap α) : (m.extend new).extend new = m.extend new := by
  rw [extend_assoc, extend_self]

end OrderedMap

end HttpSuite
