import HttpSuite.Proofs.Value.DeepOverwrite
import Mathlib.Data.List.Induction

/-!
# A series of values on top, twice

A context whose exports are remembered puts the same definitions on top of them again. Here
is why that changes nothing: `overlay_overlay`.

Going through the series a second time is not the same as leaving it out, since the value
may be replaced on the way and built up again. But a series either contains a step at
which everything below is replaced, and then it comes to the same whatever it is put on
(`overlay_cases`), or it consists of objects only, or of arrays only. Then a place inside
has a series of its own, whose values are smaller.
-/

namespace HttpSuite

namespace Value

theorem Distinct.ownFields {v : Value} (h : v.Distinct) :
    (Entries.keys v.ownFields).Nodup ∧ FieldsDistinct v.ownFields := by
  cases v with
  | object fields => exact distinct_object.mp h
  | null | bool | number | string | array => exact ⟨List.nodup_nil, trivial⟩

theorem Distinct.ownItems {v : Value} (h : v.Distinct) : AllDistinct v.ownItems := by
  cases v with
  | array items => exact distinct_array.mp h
  | null | bool | number | string | object => trivial

theorem distinct_getD {fields : Entries Value} (h : FieldsDistinct fields) (name : String) :
    ((Entries.get? fields name).getD null).Distinct := by
  cases hget : Entries.get? fields name with
  | none => exact distinct_null
  | some v => exact distinct_of_get? h hget

theorem distinct_getElem?_getD {items : List Value} (h : AllDistinct items) (i : Nat) :
    (items[i]?.getD null).Distinct := by
  cases hget : items[i]? with
  | none => exact distinct_null
  | some v => exact allDistinct_iff.mp h v (List.mem_of_getElem? hget)

theorem nodup_keys_overwriteFields {dst : Entries Value} (hd : (Entries.keys dst).Nodup)
    {src : List (String × Value)} (hs : (Entries.keys src).Nodup) :
    (Entries.keys (overwriteFields dst src)).Nodup := by
  rw [keys_overwriteFields hs, ← Entries.keys_extend hs]
  exact Entries.nodup_keys_extend hd src

mutual

/-- Two values without repeated names on top of each other have none either. -/
theorem Distinct.deepOverwrite {dst : Value} (hd : dst.Distinct) :
    ∀ {src : Value}, src.Distinct → (dst.deepOverwrite src).Distinct
  | .null, _ => by
      rw [deepOverwrite_null]
      exact hd
  | .object fields, hs => by
      obtain ⟨hn, hfields⟩ := distinct_object.mp hs
      rw [deepOverwrite_object hn, distinct_object]
      exact ⟨nodup_keys_overwriteFields hd.ownFields.1 hn,
        FieldsDistinct.overwriteFields hd.ownFields.2 hfields⟩
  | .array items, hs => by
      rw [deepOverwrite_array, distinct_array]
      exact AllDistinct.overwriteItems hd.ownItems (distinct_array.mp hs)
  | .bool b, _ => by
      rw [Value.deepOverwrite]
      · exact distinct_bool b
      all_goals simp
  | .number n, _ => by
      rw [Value.deepOverwrite]
      · exact distinct_number n
      all_goals simp
  | .string s, _ => by
      rw [Value.deepOverwrite]
      · exact distinct_string s
      all_goals simp

theorem FieldsDistinct.overwriteFields {dst : Entries Value} (hd : FieldsDistinct dst) :
    ∀ {src : List (String × Value)}, FieldsDistinct src →
      FieldsDistinct (overwriteFields dst src)
  | [], _ => by
      rw [Value.overwriteFields]
      exact hd
  | (name, v) :: src, hs => by
      rw [FieldsDistinct] at hs
      rw [overwriteFields_cons]
      exact FieldsDistinct.overwriteFields
        (hd.insert name ((distinct_getD hd name).deepOverwrite hs.1)) hs.2

theorem AllDistinct.overwriteItems {dst : List Value} (hd : AllDistinct dst) :
    ∀ {src : List Value}, AllDistinct src → AllDistinct (overwriteItems dst src)
  | [], _ => by
      rw [Value.overwriteItems]
      exact hd
  | v :: src, hs => by
      rw [AllDistinct] at hs
      cases dst with
      | nil =>
          rw [overwriteItems_nil]
          exact hs
      | cons old olds =>
          rw [AllDistinct] at hd
          rw [Value.overwriteItems]
          exact ⟨hd.1.deepOverwrite hs.1, AllDistinct.overwriteItems hd.2 hs.2⟩

end

/-! ## Series -/

/-- Values put on top of a value one after another. -/
def overlay (ws : List Value) (b : Value) : Value := ws.foldl deepOverwrite b

@[simp] theorem overlay_nil (b : Value) : overlay [] b = b := rfl

@[simp] theorem overlay_cons (w : Value) (ws : List Value) (b : Value) :
    overlay (w :: ws) b = overlay ws (b.deepOverwrite w) := rfl

theorem overlay_append (us ws : List Value) (b : Value) :
    overlay (us ++ ws) b = overlay ws (overlay us b) := List.foldl_append ..

theorem overlay_concat (us : List Value) (w b : Value) :
    overlay (us ++ [w]) b = (overlay us b).deepOverwrite w := by
  rw [overlay_append]
  rfl

theorem Distinct.overlay {b : Value} (hb : b.Distinct) {ws : List Value}
    (hws : ∀ w ∈ ws, w.Distinct) : (overlay ws b).Distinct := by
  induction ws generalizing b with
  | nil => exact hb
  | cons w ws ih =>
      obtain ⟨hw, hws⟩ := List.forall_mem_cons.mp hws
      exact ih (hb.deepOverwrite hw) hws

/-- The objects of a series, as their fields. -/
def objectsOf (ws : List Value) : List (List (String × Value)) :=
  ws.filterMap fun
    | object fields => some fields
    | _ => none

/-- The arrays of a series, as their items. -/
def arraysOf (ws : List Value) : List (List Value) :=
  ws.filterMap fun
    | array items => some items
    | _ => none

theorem mem_of_mem_objectsOf {ws : List Value} :
    ∀ fields ∈ objectsOf ws, object fields ∈ ws := by
  intro fields hmem
  obtain ⟨w, hw, hfields⟩ := List.mem_filterMap.mp hmem
  cases w with
  | object fs =>
      cases hfields
      exact hw
  | null | bool | number | string | array => cases hfields

theorem mem_of_mem_arraysOf {ws : List Value} : ∀ items ∈ arraysOf ws, array items ∈ ws := by
  intro items hmem
  obtain ⟨w, hw, hitems⟩ := List.mem_filterMap.mp hmem
  cases w with
  | array is =>
      cases hitems
      exact hw
  | null | bool | number | string | object => cases hitems

/-- Whether a value is null or an object. -/
def IsLayer : Value → Prop
  | null | object _ => True
  | _ => False

/-- Whether a value is null or an array. -/
def IsRow : Value → Prop
  | null | array _ => True
  | _ => False

/-- Fields put on top of fields one after another. -/
def stackFields (fss : List (List (String × Value))) (d : Entries Value) : Entries Value :=
  fss.foldl overwriteFields d

/-- Items put on top of items one after another. -/
def stackItems (iss : List (List Value)) (d : List Value) : List Value :=
  iss.foldl overwriteItems d

theorem overlay_of_layers {ws : List Value} (hlayers : ∀ w ∈ ws, w.IsLayer)
    (hws : ∀ w ∈ ws, w.Distinct) (b : Value) :
    overlay ws b
      = if objectsOf ws = [] then b else object (stackFields (objectsOf ws) b.ownFields) := by
  induction ws generalizing b with
  | nil => rfl
  | cons w ws ih =>
      obtain ⟨hw, htail⟩ := List.forall_mem_cons.mp hws
      obtain ⟨hl, hlayer⟩ := List.forall_mem_cons.mp hlayers
      cases w with
      | null =>
          rw [overlay_cons, deepOverwrite_null, ih hlayer htail]
          rfl
      | object fields =>
          rw [overlay_cons, deepOverwrite_object (distinct_object.mp hw).1, ih hlayer htail,
            show objectsOf (object fields :: ws) = fields :: objectsOf ws from rfl,
            if_neg (List.cons_ne_nil _ _)]
          split
          · next hnil =>
              rw [hnil]
              rfl
          · rfl
      | bool | number | string | array => exact False.elim hl

theorem overlay_of_rows {ws : List Value} (hrows : ∀ w ∈ ws, w.IsRow) (b : Value) :
    overlay ws b
      = if arraysOf ws = [] then b else array (stackItems (arraysOf ws) b.ownItems) := by
  induction ws generalizing b with
  | nil => rfl
  | cons w ws ih =>
      obtain ⟨hr, hrow⟩ := List.forall_mem_cons.mp hrows
      cases w with
      | null =>
          rw [overlay_cons, deepOverwrite_null, ih hrow]
          rfl
      | array items =>
          rw [overlay_cons, deepOverwrite_array, ih hrow,
            show arraysOf (array items :: ws) = items :: arraysOf ws from rfl,
            if_neg (List.cons_ne_nil _ _)]
          split
          · next hnil =>
              rw [hnil]
              rfl
          · rfl
      | bool | number | string | object => exact False.elim hr

theorem deepOverwrite_plain {src : Value} (hl : ¬ src.IsLayer) (hr : ¬ src.IsRow)
    (dst : Value) : dst.deepOverwrite src = src := by
  cases src with
  | null | object => exact absurd trivial hl
  | array => exact absurd trivial hr
  | bool | number | string => rw [deepOverwrite] <;> simp

theorem overlay_concat_plain {w : Value} (hl : ¬ w.IsLayer) (hr : ¬ w.IsRow)
    (ws : List Value) : ∃ c, ∀ b, overlay (ws ++ [w]) b = c :=
  ⟨w, fun b => (overlay_concat ws w b).trans (deepOverwrite_plain hl hr _)⟩

theorem isRow_of_objectsOf {ws : List Value} (hlayers : ∀ w ∈ ws, w.IsLayer)
    (hnone : objectsOf ws = []) : ∀ w ∈ ws, w.IsRow := by
  intro w hmem
  have hl := hlayers w hmem
  cases w with
  | null => trivial
  | object fields =>
      have : fields ∈ objectsOf ws := List.mem_filterMap.mpr ⟨_, hmem, rfl⟩
      rw [hnone] at this
      cases this
  | bool | number | string | array => exact False.elim hl

theorem isLayer_of_arraysOf {ws : List Value} (hrows : ∀ w ∈ ws, w.IsRow)
    (hnone : arraysOf ws = []) : ∀ w ∈ ws, w.IsLayer := by
  intro w hmem
  have hr := hrows w hmem
  cases w with
  | null => trivial
  | array items =>
      have : items ∈ arraysOf ws := List.mem_filterMap.mpr ⟨_, hmem, rfl⟩
      rw [hnone] at this
      cases this
  | bool | number | string | object => exact False.elim hr

theorem forall_mem_concat {p : Value → Prop} {ws : List Value} {w : Value}
    (hws : ∀ v ∈ ws, p v) (hw : p w) : ∀ v ∈ ws ++ [w], p v := by
  intro v hmem
  rcases List.mem_append.mp hmem with h | h
  · exact hws v h
  · exact List.mem_singleton.mp h ▸ hw

/-- A series consists of objects, or of arrays, null aside, or what it comes to does not
depend on what is below. -/
theorem overlay_cases {ws : List Value} (hws : ∀ w ∈ ws, w.Distinct) :
    (∀ w ∈ ws, w.IsLayer) ∨ (∀ w ∈ ws, w.IsRow) ∨ ∃ c, ∀ b, overlay ws b = c := by
  induction ws using List.reverseRecOn with
  | nil => exact Or.inl (by simp)
  | append_singleton ws w ih =>
      have hinit : ∀ v ∈ ws, v.Distinct := fun v hv => hws v (List.mem_append_left _ hv)
      have hw : w.Distinct := hws w (by simp)
      rcases ih hinit with hlayers | hrows | ⟨c, hc⟩
      · cases w with
        | null | object => exact Or.inl (forall_mem_concat hlayers trivial)
        | array items =>
            by_cases hnone : objectsOf ws = []
            · exact Or.inr (Or.inl (forall_mem_concat (isRow_of_objectsOf hlayers hnone) trivial))
            · refine Or.inr (Or.inr ⟨array items, fun b => ?_⟩)
              rw [overlay_concat, overlay_of_layers hlayers hinit, if_neg hnone,
                deepOverwrite_array]
              exact congrArg array (overwriteItems_nil items)
        | bool | number | string => exact Or.inr (Or.inr (overlay_concat_plain id id ws))
      · cases w with
        | null | array => exact Or.inr (Or.inl (forall_mem_concat hrows trivial))
        | object fields =>
            by_cases hnone : arraysOf ws = []
            · exact Or.inl (forall_mem_concat (isLayer_of_arraysOf hrows hnone) trivial)
            · have hn := (distinct_object.mp hw).1
              refine Or.inr (Or.inr ⟨object fields, fun b => ?_⟩)
              rw [overlay_concat, overlay_of_rows hrows, if_neg hnone, deepOverwrite_object hn]
              exact congrArg object (overwriteFields_nil hn)
        | bool | number | string => exact Or.inr (Or.inr (overlay_concat_plain id id ws))
      · refine Or.inr (Or.inr ⟨c.deepOverwrite w, fun b => ?_⟩)
        rw [overlay_concat, hc]

/-! ## The series at a place -/

/-- What the fields of a series have under one name. -/
def valuesAt (fss : List (List (String × Value))) (name : String) : List Value :=
  fss.filterMap (Entries.get? · name)

/-- What the items of a series have at one place. -/
def itemsAt (iss : List (List Value)) (i : Nat) : List Value := iss.filterMap (·[i]?)

theorem get?_stackFields {fss : List (List (String × Value))}
    (hn : ∀ fs ∈ fss, (Entries.keys fs).Nodup) (d : Entries Value) (name : String) :
    Entries.get? (stackFields fss d) name
      = if valuesAt fss name = [] then Entries.get? d name
        else some (overlay (valuesAt fss name) ((Entries.get? d name).getD null)) := by
  induction fss generalizing d with
  | nil => rfl
  | cons fs fss ih =>
      obtain ⟨hhead, htail⟩ := List.forall_mem_cons.mp hn
      show Entries.get? (stackFields fss (overwriteFields d fs)) name = _
      rw [ih htail, get?_overwriteFields hhead]
      cases hget : Entries.get? fs name with
      | none =>
          rw [show valuesAt (fs :: fss) name = valuesAt fss name by simp [valuesAt, hget]]
      | some v =>
          rw [show valuesAt (fs :: fss) name = v :: valuesAt fss name by simp [valuesAt, hget],
            if_neg (List.cons_ne_nil _ _), overlay_cons]
          split
          · next hnil =>
              rw [hnil]
              rfl
          · rfl

theorem getElem?_stackItems (iss : List (List Value)) (d : List Value) (i : Nat) :
    (stackItems iss d)[i]?
      = if itemsAt iss i = [] then d[i]?
        else some (overlay (itemsAt iss i) (d[i]?.getD null)) := by
  induction iss generalizing d with
  | nil => rfl
  | cons items iss ih =>
      show (stackItems iss (overwriteItems d items))[i]? = _
      rw [ih, getElem?_overwriteItems]
      cases hget : items[i]? with
      | none => rw [show itemsAt (items :: iss) i = itemsAt iss i by simp [itemsAt, hget]]
      | some v =>
          rw [show itemsAt (items :: iss) i = v :: itemsAt iss i by simp [itemsAt, hget],
            if_neg (List.cons_ne_nil _ _), overlay_cons]
          split
          · next hnil =>
              rw [hnil]
              rfl
          · rfl

/-- Once the names of a series are there, their order stays. -/
theorem keys_stackFields_of_subset {fss : List (List (String × Value))}
    (hn : ∀ fs ∈ fss, (Entries.keys fs).Nodup) {d : Entries Value}
    (hsub : ∀ fs ∈ fss, Entries.keys fs ⊆ Entries.keys d) :
    Entries.keys (stackFields fss d) = Entries.keys d := by
  induction fss generalizing d with
  | nil => rfl
  | cons fs fss ih =>
      obtain ⟨hhead, htail⟩ := List.forall_mem_cons.mp hn
      obtain ⟨hsubHead, hsubTail⟩ := List.forall_mem_cons.mp hsub
      have hkeys : Entries.keys (overwriteFields d fs) = Entries.keys d := by
        have hnil : ((Entries.keys fs).filter fun name => name ∉ Entries.keys d) = [] := by
          rw [List.filter_eq_nil_iff]
          intro name hname
          simpa using hsubHead hname
        rw [keys_overwriteFields hhead, hnil, List.append_nil]
      show Entries.keys (stackFields fss (overwriteFields d fs)) = _
      rw [ih htail (fun gs hgs => hkeys ▸ hsubTail gs hgs), hkeys]

theorem keys_subset_stackFields_of_mem {fss : List (List (String × Value))}
    (hn : ∀ fs ∈ fss, (Entries.keys fs).Nodup) (d : Entries Value) {fs : List (String × Value)}
    (hmem : fs ∈ fss) : Entries.keys fs ⊆ Entries.keys (stackFields fss d) := by
  intro name hname
  rw [← Entries.get?_isSome_iff] at hname ⊢
  rw [get?_stackFields hn, if_neg]
  · rfl
  · obtain ⟨v, hv⟩ := Option.isSome_iff_exists.mp hname
    exact List.ne_nil_of_mem (List.mem_filterMap.mpr ⟨fs, hmem, hv⟩)

/-- A value at a name is part of one of the series. -/
theorem of_mem_valuesAt {ws : List Value} {name : String} {v : Value}
    (h : v ∈ valuesAt (objectsOf ws) name) :
    ∃ w ∈ ws, sizeOf v < sizeOf w ∧ (w.Distinct → v.Distinct) := by
  obtain ⟨fs, hfs, hget⟩ := List.mem_filterMap.mp h
  refine ⟨object fs, mem_of_mem_objectsOf fs hfs, ?_, ?_⟩
  · have hlt := List.sizeOf_lt_of_mem (Entries.mem_of_get? hget)
    have hpair : sizeOf (name, v) = 1 + sizeOf name + sizeOf v := rfl
    have hobject : sizeOf (object fs) = 1 + sizeOf fs := object.sizeOf_spec fs
    omega
  · exact fun hw => distinct_of_get? (distinct_object.mp hw).2 hget

theorem of_mem_itemsAt {ws : List Value} {i : Nat} {v : Value}
    (h : v ∈ itemsAt (arraysOf ws) i) :
    ∃ w ∈ ws, sizeOf v < sizeOf w ∧ (w.Distinct → v.Distinct) := by
  obtain ⟨items, hmem, hget⟩ := List.mem_filterMap.mp h
  refine ⟨array items, mem_of_mem_arraysOf items hmem, ?_, ?_⟩
  · have hlt := List.sizeOf_lt_of_mem (List.mem_of_getElem? hget)
    have harray : sizeOf (array items) = 1 + sizeOf items := array.sizeOf_spec items
    omega
  · exact fun hw => allDistinct_iff.mp (distinct_array.mp hw) v (List.mem_of_getElem? hget)

/-- Objects put on top of each other come to the same again, if the series at every name
does. -/
theorem stackFields_stackFields {fss : List (List (String × Value))}
    (hn : ∀ fs ∈ fss, (Entries.keys fs).Nodup) {d : Entries Value}
    (hd : (Entries.keys (stackFields fss d)).Nodup)
    (hat : ∀ name, overlay (valuesAt fss name)
        (overlay (valuesAt fss name) ((Entries.get? d name).getD null))
      = overlay (valuesAt fss name) ((Entries.get? d name).getD null)) :
    stackFields fss (stackFields fss d) = stackFields fss d := by
  have hkeys : Entries.keys (stackFields fss (stackFields fss d))
      = Entries.keys (stackFields fss d) :=
    keys_stackFields_of_subset hn fun _ hmem => keys_subset_stackFields_of_mem hn d hmem
  refine Entries.ext hkeys (hkeys ▸ hd) ?_
  intro name _
  rw [get?_stackFields hn (stackFields fss d), get?_stackFields hn d]
  by_cases hnil : valuesAt fss name = []
  · rw [if_pos hnil, if_pos hnil]
  · rw [if_neg hnil, if_neg hnil, Option.getD_some, hat name]

theorem stackItems_stackItems {iss : List (List Value)} {d : List Value}
    (hat : ∀ i : Nat, overlay (itemsAt iss i) (overlay (itemsAt iss i) (d[i]?.getD null))
      = overlay (itemsAt iss i) (d[i]?.getD null)) :
    stackItems iss (stackItems iss d) = stackItems iss d := by
  apply List.ext_getElem?
  intro i
  rw [getElem?_stackItems iss (stackItems iss d), getElem?_stackItems iss d]
  by_cases hnil : itemsAt iss i = []
  · rw [if_pos hnil, if_pos hnil]
  · rw [if_neg hnil, if_neg hnil, Option.getD_some, hat i]

/-- A series of values that was put on top once changes nothing when it is put on top
again. -/
theorem overlay_overlay {ws : List Value} (hws : ∀ w ∈ ws, w.Distinct) {b : Value}
    (hb : b.Distinct) : overlay ws (overlay ws b) = overlay ws b := by
  -- The series at a place has smaller values, so the induction is on a bound of their sizes.
  suffices hbound : ∀ n, ∀ ws : List Value, (∀ w ∈ ws, w.Distinct) → (∀ w ∈ ws, sizeOf w < n) →
      ∀ b : Value, b.Distinct → overlay ws (overlay ws b) = overlay ws b from
    hbound (sizeOf ws) ws hws (fun _ hmem => List.sizeOf_lt_of_mem hmem) b hb
  intro n
  induction n with
  | zero =>
      intro ws _ hsize b _
      cases ws with
      | nil => rfl
      | cons w ws => exact absurd (hsize w (List.mem_cons_self ..)) (Nat.not_lt_zero _)
  | succ n ih =>
      intro ws hws hsize b hb
      rcases overlay_cases hws with hlayers | hrows | ⟨c, hc⟩
      · have hn : ∀ fs ∈ objectsOf ws, (Entries.keys fs).Nodup :=
          fun fs hfs => (distinct_object.mp (hws _ (mem_of_mem_objectsOf fs hfs))).1
        rw [overlay_of_layers hlayers hws, overlay_of_layers hlayers hws]
        by_cases hnone : objectsOf ws = []
        · rw [if_pos hnone, if_pos hnone]
        · rw [if_neg hnone, if_neg hnone, ownFields]
          refine congrArg object (stackFields_stackFields hn ?_ ?_)
          · have := hb.overlay hws
            rw [overlay_of_layers hlayers hws, if_neg hnone] at this
            exact (distinct_object.mp this).1
          · intro name
            refine ih _ ?_ ?_ _ (distinct_getD hb.ownFields.2 name)
            · intro v hv
              obtain ⟨w, hw, -, hdistinct⟩ := of_mem_valuesAt hv
              exact hdistinct (hws w hw)
            · intro v hv
              obtain ⟨w, hw, hlt, -⟩ := of_mem_valuesAt hv
              exact Nat.lt_of_lt_of_le hlt (Nat.le_of_lt_succ (hsize w hw))
      · rw [overlay_of_rows hrows, overlay_of_rows hrows]
        by_cases hnone : arraysOf ws = []
        · rw [if_pos hnone, if_pos hnone]
        · rw [if_neg hnone, if_neg hnone, ownItems]
          refine congrArg array (stackItems_stackItems fun i => ?_)
          refine ih _ ?_ ?_ _ (distinct_getElem?_getD hb.ownItems i)
          · intro v hv
            obtain ⟨w, hw, -, hdistinct⟩ := of_mem_itemsAt hv
            exact hdistinct (hws w hw)
          · intro v hv
            obtain ⟨w, hw, hlt, -⟩ := of_mem_itemsAt hv
            exact Nat.lt_of_lt_of_le hlt (Nat.le_of_lt_succ (hsize w hw))
      · rw [hc, hc]

end Value

end HttpSuite
