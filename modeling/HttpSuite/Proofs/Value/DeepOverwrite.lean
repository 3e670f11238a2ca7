import HttpSuite.Proofs.Value.Distinct
import HttpSuite.Scope.Merge

/-!
# Values on top of each other

`deepOverwrite` goes through two values at once, so what it does is told place by place: a
field or an item of the result is the one below with the one above on top of it, where
something missing below counts as null.

From that it is seen exactly when nothing of the value below is left:
`deepOverwrite_eq_iff`. It is not always so, since null on top hides only null, an array
keeps the items that lie beyond the end of the one on top, and an object keeps the fields that
the one on top lacks, and its order.
-/

namespace HttpSuite

namespace Value

@[simp] theorem deepOverwrite_null (dst : Value) : dst.deepOverwrite null = dst := by
  rw [deepOverwrite]

@[simp] theorem null_deepOverwrite (src : Value) : null.deepOverwrite src = src := by
  cases src <;> simp [deepOverwrite]

/-- One more field on top. A field that is missing below counts as null there. -/
theorem overwriteFields_cons (dst : Entries Value) (name : String) (v : Value)
    (src : List (String × Value)) :
    overwriteFields dst ((name, v) :: src)
      = overwriteFields
          (Entries.insert dst name (((Entries.get? dst name).getD null).deepOverwrite v)) src := by
  rw [overwriteFields]
  cases h : Entries.get? dst name with
  | none => simp
  | some old => simp

/-- Fields are set one after another. -/
theorem overwriteFields_eq_extendWith (dst : Entries Value) (src : List (String × Value)) :
    overwriteFields dst src
      = Entries.extendWith (fun old v => (old.getD null).deepOverwrite v) dst src := by
  induction src generalizing dst with
  | nil =>
      rw [overwriteFields]
      rfl
  | cons e src ih => rw [overwriteFields_cons, ih, Entries.extendWith_cons]

theorem keys_overwriteFields {src : List (String × Value)} (hn : (Entries.keys src).Nodup)
    (dst : Entries Value) :
    Entries.keys (overwriteFields dst src)
      = Entries.keys dst ++ (Entries.keys src).filter fun name => name ∉ Entries.keys dst := by
  rw [overwriteFields_eq_extendWith, Entries.keys_extendWith _ hn]

/-- A field of the result is the one below with the one above on top. -/
theorem get?_overwriteFields {src : List (String × Value)} (hn : (Entries.keys src).Nodup)
    (dst : Entries Value) (name : String) :
    Entries.get? (overwriteFields dst src) name
      = match Entries.get? src name with
        | some v => some (((Entries.get? dst name).getD null).deepOverwrite v)
        | none => Entries.get? dst name := by
  rw [overwriteFields_eq_extendWith, Entries.get?_extendWith _ hn]
  cases Entries.get? src name <;> rfl

/-- An item of the result is the one below with the one above on top. -/
theorem getElem?_overwriteItems (dst src : List Value) (i : Nat) :
    (overwriteItems dst src)[i]?
      = match src[i]? with
        | some v => some ((dst[i]?.getD null).deepOverwrite v)
        | none => dst[i]? := by
  induction src generalizing dst i with
  | nil => simp [overwriteItems]
  | cons v src ih =>
      cases dst with
      | nil =>
          rw [overwriteItems]
          cases i with
          | zero => simp
          | succ i => simpa using ih [] i
      | cons old olds =>
          rw [overwriteItems]
          cases i with
          | zero => simp
          | succ i => simpa using ih olds i

/-- One more item on top. An item that is missing below counts as null there. -/
theorem overwriteItems_cons (dst : List Value) (v : Value) (src : List Value) :
    overwriteItems dst (v :: src)
      = (dst.head?.getD null).deepOverwrite v :: overwriteItems dst.tail src := by
  cases dst with
  | nil =>
      rw [overwriteItems]
      simp
  | cons old olds =>
      rw [overwriteItems]
      rfl

theorem overwriteFields_nil {src : List (String × Value)} (hn : (Entries.keys src).Nodup) :
    overwriteFields [] src = src := by
  have hkeys : Entries.keys (overwriteFields [] src) = Entries.keys src := by
    rw [keys_overwriteFields hn]
    simp
  refine Entries.ext hkeys (hkeys ▸ hn) ?_
  intro name _
  rw [get?_overwriteFields hn]
  cases Entries.get? src name <;> simp

theorem overwriteItems_nil (src : List Value) : overwriteItems [] src = src := by
  induction src with
  | nil => rw [overwriteItems]
  | cons v src ih => rw [overwriteItems, ih]

/-- The fields of an object; other values have none. -/
def ownFields : Value → Entries Value
  | object fields => fields
  | _ => []

/-- The items of an array; other values have none. -/
def ownItems : Value → List Value
  | array items => items
  | _ => []

theorem deepOverwrite_object {fields : List (String × Value)} (hn : (Entries.keys fields).Nodup)
    (dst : Value) :
    dst.deepOverwrite (object fields) = object (overwriteFields dst.ownFields fields) := by
  cases dst with
  | object dstFields => rw [deepOverwrite, ownFields]
  | null | bool | number | string | array =>
      rw [ownFields, overwriteFields_nil hn]
      · rw [deepOverwrite]
        simp
      · simp

theorem deepOverwrite_array (items : List Value) (dst : Value) :
    dst.deepOverwrite (array items) = array (overwriteItems dst.ownItems items) := by
  cases dst with
  | array dstItems => rw [deepOverwrite, ownItems]
  | null | bool | number | string | object =>
      rw [ownItems, overwriteItems_nil]
      · rw [deepOverwrite]
        simp
      · simp

/-! ## When nothing of the value below is left -/

mutual

/-- Nothing of the value below is left when the one above is put on top of it. -/
def Hides : (above below : Value) → Prop
  | null, below => below = null
  | object fields, below =>
    Entries.keys below.ownFields <+: Entries.keys fields ∧ FieldsHide fields below.ownFields
  | array items, below =>
    below.ownItems.length ≤ items.length ∧ ItemsHide items below.ownItems
  | _, _ => True

/-- Every field hides the one of the same name. -/
def FieldsHide : (above : List (String × Value)) → (below : Entries Value) → Prop
  | [], _ => True
  | (name, v) :: above, below =>
    v.Hides ((Entries.get? below name).getD null) ∧ FieldsHide above below

/-- Every item hides the one at the same place. -/
def ItemsHide : (above below : List Value) → Prop
  | [], _ => True
  | v :: above, below => v.Hides (below.head?.getD null) ∧ ItemsHide above below.tail

end

/-- Fields are as above exactly if the names below are the first ones above, and each value
is as above. -/
theorem overwriteFields_eq_iff {src : List (String × Value)} (hn : (Entries.keys src).Nodup)
    (dst : Entries Value) :
    overwriteFields dst src = src
      ↔ Entries.keys dst <+: Entries.keys src
        ∧ ∀ e ∈ src, ((Entries.get? dst e.1).getD null).deepOverwrite e.2 = e.2 := by
  have hget := get?_overwriteFields hn dst
  constructor
  · intro heq
    refine ⟨⟨_, (keys_overwriteFields hn dst).symm.trans (congrArg Entries.keys heq)⟩, ?_⟩
    intro e hmem
    have hvalue := hget e.1
    rw [heq, Entries.get?_of_mem hn hmem] at hvalue
    exact (Option.some.inj hvalue).symm
  · rintro ⟨⟨new, hnew⟩, hall⟩
    have hkeys : Entries.keys (overwriteFields dst src) = Entries.keys src := by
      have hne := (List.nodup_append.mp (hnew ▸ hn)).2.2
      have hold : ((Entries.keys dst).filter fun name => name ∉ Entries.keys dst) = [] := by
        simp
      have hrest : (new.filter fun name => name ∉ Entries.keys dst) = new := by
        rw [List.filter_eq_self]
        intro name hname
        simpa using fun hdst => hne name hdst name hname rfl
      rw [keys_overwriteFields hn, ← hnew, List.filter_append,
        hold, hrest, List.nil_append]
    refine Entries.ext hkeys (hkeys ▸ hn) ?_
    intro name hname
    rw [hkeys] at hname
    obtain ⟨v, hv⟩ := Option.isSome_iff_exists.mp (Entries.get?_isSome_iff.mpr hname)
    rw [hget name, hv]
    exact congrArg some (hall _ (Entries.mem_of_get? hv))

mutual

/-- A value on top of another is itself exactly if it hides the one below. -/
theorem deepOverwrite_eq_iff : ∀ {above : Value}, above.Distinct → ∀ below : Value,
    below.deepOverwrite above = above ↔ above.Hides below
  | .null, _, below => by
      rw [deepOverwrite_null, Hides]
  | .object fields, h, below => by
      obtain ⟨hn, hfields⟩ := distinct_object.mp h
      rw [deepOverwrite_object hn, Hides, object.injEq, overwriteFields_eq_iff hn,
        fieldsHide_iff hfields]
  | .array items, h, below => by
      rw [deepOverwrite_array, Hides, array.injEq,
        overwriteItems_eq_iff (distinct_array.mp h)]
  | .bool b, _, below => by
      rw [deepOverwrite, Hides] <;> simp
  | .number n, _, below => by
      rw [deepOverwrite, Hides] <;> simp
  | .string s, _, below => by
      rw [deepOverwrite, Hides] <;> simp

theorem fieldsHide_iff : ∀ {above : List (String × Value)}, FieldsDistinct above →
    ∀ {below : Entries Value},
    (∀ e ∈ above, ((Entries.get? below e.1).getD null).deepOverwrite e.2 = e.2)
      ↔ FieldsHide above below
  | [], _, _ => by
      simp [FieldsHide]
  | (name, v) :: above, h, below => by
      rw [FieldsDistinct] at h
      rw [List.forall_mem_cons, FieldsHide, deepOverwrite_eq_iff h.1, fieldsHide_iff h.2]

theorem overwriteItems_eq_iff : ∀ {above : List Value}, AllDistinct above →
    ∀ {below : List Value},
    overwriteItems below above = above
      ↔ below.length ≤ above.length ∧ ItemsHide above below
  | [], _, below => by
      rw [overwriteItems, ItemsHide]
      simp
  | v :: above, h, below => by
      rw [AllDistinct] at h
      have hlength : below.tail.length ≤ above.length ↔ below.length ≤ (v :: above).length := by
        rw [List.length_tail, List.length_cons]
        omega
      rw [overwriteItems_cons, List.cons.injEq, ItemsHide, deepOverwrite_eq_iff h.1,
        overwriteItems_eq_iff h.2, hlength, and_left_comm]

end

end Value

end HttpSuite
