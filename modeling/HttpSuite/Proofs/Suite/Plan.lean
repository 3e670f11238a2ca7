import HttpSuite.Suite.Plan

/-!
# How a plan is laid out

The contexts of folders are numbered in the order in which they are met, so the numbers of
what lies in a folder follow each other without a gap. Three things about a plan come from
this, and `LaidOut` has them together: a case has its own contexts from that range behind
those that it was given; a number tells the numbers in front of it on every path through it;
and the count of a context, which is the result of a recursion of its own, is that of the
selected cases whose path it is on.
-/

namespace HttpSuite

theorem split_unique {n : Nat} {front back p q : List Nat} (hfront : n ∉ front)
    (hback : n ∉ back) (h : front ++ n :: back = p ++ n :: q) : p = front := by
  induction front generalizing p with
  | nil =>
      cases p with
      | nil => rfl
      | cons m p =>
          obtain ⟨-, htail⟩ := List.cons.inj h
          rw [List.nil_append] at h
          exact absurd (htail ▸ List.mem_append_right p (List.mem_cons_self ..)) hback
  | cons m front ih =>
      cases p with
      | nil =>
          obtain ⟨hhead, -⟩ := List.cons.inj h
          exact absurd (hhead ▸ List.mem_cons_self ..) hfront
      | cons m' p =>
          obtain ⟨hhead, htail⟩ := List.cons.inj h
          rw [hhead, ih (fun hmem => hfront (List.mem_cons_of_mem _ hmem)) htail]

/-- Where everything tells what is in front of it, nothing comes twice. -/
theorem nodup_of_front {front : Nat → List Nat} {pre l : List Nat}
    (h : ∀ p m q, pre ++ l = p ++ m :: q → p = front m) : l.Nodup := by
  induction l generalizing pre with
  | nil => exact List.nodup_nil
  | cons n l ih =>
      rw [List.nodup_cons]
      constructor
      · intro hmem
        obtain ⟨s, t, rfl⟩ := List.append_of_mem hmem
        have hfirst := h pre n _ rfl
        have hsecond := h (pre ++ n :: s) n t (by simp)
        have hlength := congrArg List.length (hsecond.trans hfirst.symm)
        rw [List.length_append, List.length_cons] at hlength
        omega
      · refine ih fun p m q (heq : pre ++ [n] ++ l = p ++ m :: q) => h p m q ?_
        rw [← heq, List.append_assoc, List.singleton_append]

namespace Plan

/-- The cases that are to be run. -/
def selected (plan : Plan) : List PlannedCase := plan.cases.filter (·.selected)

/-- How many of the cases are selected and have a context around them. -/
def countThrough (n : Nat) (cases : List PlannedCase) : Nat :=
  (cases.filter fun c => c.selected && n ∈ c.path).length

/-- The contexts have the numbers from the given one on, and the cases are inside those of a
path. -/
structure LaidOut (number : Nat) (path : List Nat) (plan : Plan) : Prop where
  /-- Behind the path a case has contexts of the plan. -/
  own : ∀ c ∈ plan.cases, ∃ rest, c.path = path ++ rest
    ∧ ∀ m ∈ rest, number ≤ m ∧ m < number + plan.nodes.length
  /-- A context of the plan has the same ones around it on every path. -/
  around : ∃ front : Nat → List Nat, ∀ c ∈ plan.cases, ∀ p m q, number ≤ m →
    c.path = p ++ m :: q → p = front m
  /-- A context counts the selected cases that it is around. -/
  total : ∀ i node, plan.nodes[i]? = some node →
    node.total = countThrough (number + i) plan.cases

theorem countThrough_append (n : Nat) (xs ys : List PlannedCase) :
    countThrough n (xs ++ ys) = countThrough n xs + countThrough n ys := by
  unfold countThrough
  rw [List.filter_append, List.length_append]

theorem countThrough_cons (n : Nat) (c : PlannedCase) (cases : List PlannedCase) :
    countThrough n (c :: cases)
      = (if c.selected = true ∧ n ∈ c.path then 1 else 0) + countThrough n cases := by
  unfold countThrough
  rw [List.filter_cons]
  by_cases h : c.selected = true ∧ n ∈ c.path
  · rw [if_pos h, if_pos (by simpa using h), List.length_cons, Nat.add_comm]
  · rw [if_neg h, if_neg (by simpa using h), Nat.zero_add]

theorem countThrough_eq_zero_iff {n : Nat} {cases : List PlannedCase} :
    countThrough n cases = 0 ↔ ∀ c ∈ cases.filter (·.selected), n ∉ c.path := by
  unfold countThrough
  rw [List.length_eq_zero_iff, List.filter_eq_nil_iff]
  simp only [List.mem_filter, Bool.and_eq_true, decide_eq_true_eq, not_and, and_imp]

theorem countThrough_eq_zero {n : Nat} {cases : List PlannedCase}
    (h : ∀ c ∈ cases, n ∉ c.path) : countThrough n cases = 0 := by
  rw [countThrough_eq_zero_iff]
  exact fun c hc => h c (List.mem_filter.mp hc).1

theorem countThrough_eq_selected {n : Nat} {cases : List PlannedCase}
    (h : ∀ c ∈ cases, n ∈ c.path) :
    countThrough n cases = (cases.filter (·.selected)).length := by
  unfold countThrough
  congr 1
  apply List.filter_congr
  intro c hc
  simp [h c hc]

/-- A number of the plan is not among those of the path, so it comes behind it. -/
theorem LaidOut.mem_bounds {number : Nat} {path : List Nat} {plan : Plan}
    (h : plan.LaidOut number path) {c : PlannedCase} (hc : c ∈ plan.cases) {m : Nat}
    (hm : m ∈ c.path) : m ∈ path ∨ (number ≤ m ∧ m < number + plan.nodes.length) := by
  obtain ⟨rest, hpath, hrest⟩ := h.own c hc
  rw [hpath] at hm
  rcases List.mem_append.mp hm with hmem | hmem
  · exact Or.inl hmem
  · exact Or.inr (hrest m hmem)

theorem LaidOut.bounds {number low m : Nat} {path : List Nat} {plan : Plan}
    (h : plan.LaidOut number path) (hpath : ∀ m ∈ path, m < low) {c : PlannedCase}
    (hc : c ∈ plan.cases) (hm : m ∈ c.path) (hlow : low ≤ m) :
    number ≤ m ∧ m < number + plan.nodes.length := by
  rcases h.mem_bounds hc hm with hin | hin
  · exact absurd (hpath m hin) (Nat.not_lt.mpr hlow)
  · exact hin

theorem laidOut_empty (number : Nat) (path : List Nat) : Plan.empty.LaidOut number path where
  own c hc := by cases hc
  around := ⟨fun _ => [], fun c hc => by cases hc⟩
  total i node h := by cases h

/-- One plan behind another. -/
theorem LaidOut.append {number : Nat} {path : List Nat} (hpath : ∀ m ∈ path, m < number)
    {first second : Plan} (hfirst : first.LaidOut number path)
    (hsecond : second.LaidOut (number + first.nodes.length) path) :
    (first.append second).LaidOut number path := by
  have hlength : (first.append second).nodes.length
      = first.nodes.length + second.nodes.length := List.length_append
  refine ⟨?_, ?_, ?_⟩
  · intro c hc
    rcases List.mem_append.mp hc with hmem | hmem
    · obtain ⟨rest, heq, hrest⟩ := hfirst.own c hmem
      refine ⟨rest, heq, fun m hm => ?_⟩
      have := hrest m hm
      omega
    · obtain ⟨rest, heq, hrest⟩ := hsecond.own c hmem
      refine ⟨rest, heq, fun m hm => ?_⟩
      have := hrest m hm
      omega
  · obtain ⟨front₁, hfront₁⟩ := hfirst.around
    obtain ⟨front₂, hfront₂⟩ := hsecond.around
    refine ⟨fun m => if m < number + first.nodes.length then front₁ m else front₂ m, ?_⟩
    intro c hc p m q hm heq
    have hmem : m ∈ c.path := by
      rw [heq]
      exact List.mem_append_right _ (List.mem_cons_self ..)
    rcases List.mem_append.mp hc with hc | hc
    · have hin := hfirst.bounds hpath hc hmem hm
      exact (hfront₁ c hc p m q hm heq).trans (if_pos hin.2).symm
    · have hin := hsecond.bounds hpath hc hmem hm
      exact (hfront₂ c hc p m q hin.1 heq).trans (if_neg (Nat.not_lt.mpr hin.1)).symm
  · intro i node hnode
    have hcases : (first.append second).cases = first.cases ++ second.cases := rfl
    rw [hcases, countThrough_append]
    change (first.nodes ++ second.nodes)[i]? = some node at hnode
    by_cases hi : i < first.nodes.length
    · have hother : ∀ c ∈ second.cases, number + i ∉ c.path := by
        intro c hc hmem
        have := hsecond.bounds hpath hc hmem (Nat.le_add_right ..)
        omega
      rw [List.getElem?_append_left hi] at hnode
      rw [hfirst.total i node hnode, countThrough_eq_zero hother, Nat.add_zero]
    · have hother : ∀ c ∈ first.cases, number + i ∉ c.path := by
        intro c hc hmem
        have := hfirst.bounds hpath hc hmem (Nat.le_add_right ..)
        omega
      have hnumber : number + i = number + first.nodes.length + (i - first.nodes.length) := by
        omega
      rw [List.getElem?_append_right (by omega)] at hnode
      rw [countThrough_eq_zero hother, Nat.zero_add, hnumber]
      exact hsecond.total _ node hnode

theorem not_mem_own {number m : Nat} {path : List Nat} (hpath : ∀ m ∈ path, m < number)
    {c : PlannedCase} (hc : c.path = path ++ [number]) (hm : number < m) : m ∉ c.path := by
  intro hmem
  rw [hc] at hmem
  rcases List.mem_append.mp hmem with hin | hin
  · have := hpath m hin
    omega
  · have := List.mem_singleton.mp hin
    omega

/-- A context with its own cases in front of what lies further inside. -/
theorem LaidOut.enter {number : Nat} {path : List Nat} (hpath : ∀ m ∈ path, m < number)
    {node : ContextNode} {cases : List PlannedCase}
    (hcases : ∀ c ∈ cases, c.path = path ++ [number])
    {inner : Plan} (hinner : inner.LaidOut (number + 1) (path ++ [number]))
    (htotal : node.total = ((cases ++ inner.cases).filter (·.selected)).length) :
    (Plan.append ⟨[node], cases⟩ inner).LaidOut number path := by
  have hlength : (Plan.append ⟨[node], cases⟩ inner).nodes.length = 1 + inner.nodes.length :=
    List.length_append
  have hown : ∀ c ∈ inner.cases, ∃ rest, c.path = path ++ number :: rest
      ∧ ∀ m ∈ rest, number + 1 ≤ m ∧ m < number + 1 + inner.nodes.length := by
    intro c hc
    obtain ⟨rest, heq, hrest⟩ := hinner.own c hc
    exact ⟨rest, by rw [heq, List.append_assoc, List.singleton_append], hrest⟩
  have hfree : number ∉ path := fun hmem => Nat.lt_irrefl _ (hpath number hmem)
  have hmem : ∀ c ∈ cases ++ inner.cases, ∃ rest, c.path = path ++ number :: rest
      ∧ ∀ m ∈ rest, number + 1 ≤ m ∧ m < number + 1 + inner.nodes.length := by
    intro c hc
    rcases List.mem_append.mp hc with hc | hc
    · exact ⟨[], hcases c hc, fun m hm => by cases hm⟩
    · exact hown c hc
  refine ⟨?_, ?_, ?_⟩
  · intro c hc
    obtain ⟨rest, heq, hrest⟩ := hmem c hc
    refine ⟨number :: rest, heq, ?_⟩
    intro m hm
    rcases List.mem_cons.mp hm with rfl | hm
    · omega
    · have := hrest m hm
      omega
  · obtain ⟨front, hfront⟩ := hinner.around
    refine ⟨fun m => if m = number then path else front m, ?_⟩
    intro c hc p m q hm heq
    obtain ⟨rest, hrestEq, hrest⟩ := hmem c hc
    by_cases hnumber : m = number
    · subst hnumber
      have hback : m ∉ rest := fun hin => by
        have := hrest m hin
        omega
      exact (split_unique hfree hback (hrestEq ▸ heq)).trans (if_pos rfl).symm
    · refine Eq.trans ?_ (if_neg hnumber).symm
      have hbehind : number < m := Nat.lt_of_le_of_ne hm (Ne.symm hnumber)
      rcases List.mem_append.mp hc with hc | hc
      · refine absurd ?_ (not_mem_own hpath (hcases c hc) hbehind)
        rw [heq]
        exact List.mem_append_right _ (List.mem_cons_self ..)
      · exact hfront c hc p m q hbehind heq
  · intro i node' hnode
    change ([node] ++ inner.nodes)[i]? = some node' at hnode
    cases i with
    | zero =>
        cases hnode
        rw [htotal, Nat.add_zero]
        refine (countThrough_eq_selected ?_).symm
        intro c hc
        obtain ⟨rest, heq, -⟩ := hmem c hc
        rw [heq]
        exact List.mem_append_right _ (List.mem_cons_self ..)
    | succ i =>
        have hother : ∀ c ∈ cases, number + (i + 1) ∉ c.path :=
          fun c hc => not_mem_own hpath (hcases c hc) (by omega)
        have hnumber : number + (i + 1) = number + 1 + i := by omega
        show node'.total = countThrough (number + (i + 1)) (cases ++ inner.cases)
        rw [countThrough_append, countThrough_eq_zero hother, Nat.zero_add, hnumber]
        exact hinner.total i node' hnode

end Plan

namespace Folder

open Plan

mutual

/-- The count of a folder is that of the cases that its plan selects. -/
theorem length_selected_plan (filter : LabelFilter) : ∀ (folder : Folder) (number : Nat)
    (path : List Nat) (breadcrumb : List String),
    (folder.plan filter number path breadcrumb).selected.length = folder.selectedCount filter
  | ⟨name, place, context, count, cases, folders⟩, number, path, breadcrumb => by
      have hinner := length_selected_planAll filter folders (number + 1) (path ++ [number])
        (breadcrumb ++ [titleOf name context.summary])
      unfold Plan.selected at hinner
      rw [Folder.plan, selectedCount, Plan.selected, Plan.append, List.filter_append,
        List.length_append, hinner, List.filter_map, List.length_map]
      rfl

theorem length_selected_planAll (filter : LabelFilter) : ∀ (folders : List Folder) (number : Nat)
    (path : List Nat) (breadcrumb : List String),
    (planAll filter number path breadcrumb folders).selected.length
      = selectedCounts filter folders
  | [], _, _, _ => by
      rw [planAll, selectedCounts]
      rfl
  | folder :: rest, number, path, breadcrumb => by
      have hfirst := length_selected_plan filter folder number path breadcrumb
      have hrest := length_selected_planAll filter rest
        (number + (folder.plan filter number path breadcrumb).nodes.length) path breadcrumb
      unfold Plan.selected at hfirst hrest
      rw [planAll, selectedCounts, Plan.selected, Plan.append, List.filter_append,
        List.length_append, hfirst, hrest]

end

mutual

theorem laidOut_plan (filter : LabelFilter) : ∀ (folder : Folder) (number : Nat)
    (path : List Nat) (breadcrumb : List String), (∀ m ∈ path, m < number) →
    (folder.plan filter number path breadcrumb).LaidOut number path
  | ⟨name, place, context, count, cases, folders⟩, number, path, breadcrumb, hpath => by
      have hin : ∀ m ∈ path ++ [number], m < number + 1 := by
        intro m hm
        rcases List.mem_append.mp hm with hm | hm
        · have := hpath m hm
          omega
        · have := List.mem_singleton.mp hm
          omega
      have hinner := laidOut_planAll filter folders (number + 1) (path ++ [number])
        (breadcrumb ++ [titleOf name context.summary]) hin
      have hlength := length_selected_plan filter ⟨name, place, context, count, cases, folders⟩
        number path breadcrumb
      rw [Folder.plan] at hlength ⊢
      refine LaidOut.enter hpath ?_ hinner hlength.symm
      intro c hc
      obtain ⟨file, -, rfl⟩ := List.mem_map.mp hc
      rfl

theorem laidOut_planAll (filter : LabelFilter) : ∀ (folders : List Folder) (number : Nat)
    (path : List Nat) (breadcrumb : List String), (∀ m ∈ path, m < number) →
    (planAll filter number path breadcrumb folders).LaidOut number path
  | [], number, path, _, _ => by
      rw [planAll]
      exact laidOut_empty number path
  | folder :: rest, number, path, breadcrumb, hpath => by
      rw [planAll]
      refine LaidOut.append hpath (laidOut_plan filter folder number path breadcrumb hpath) ?_
      refine laidOut_planAll filter rest _ path breadcrumb ?_
      intro m hm
      have := hpath m hm
      omega

end

end Folder

/-! ## What the filter leaves alone -/

namespace Plan

/-- What a plan does not owe to the filter: what the contexts are called and say, and where the
cases are and what they say. -/
def outline (plan : Plan) :
    List (String × ContextSpec) × List (List Nat × List String × CaseSpec) :=
  (plan.nodes.map fun node => (node.title, node.spec),
    plan.cases.map fun c => (c.path, c.breadcrumb, c.spec))

theorem outline_append (first second : Plan) :
    (first.append second).outline
      = (first.outline.1 ++ second.outline.1, first.outline.2 ++ second.outline.2) := by
  unfold append outline
  rw [List.map_append, List.map_append]

end Plan

namespace Folder

open Plan

mutual

theorem outline_plan (filter filter' : LabelFilter) : ∀ (folder : Folder) (number : Nat)
    (path : List Nat) (breadcrumb : List String),
    (folder.plan filter number path breadcrumb).outline
      = (folder.plan filter' number path breadcrumb).outline
  | ⟨name, place, context, count, cases, folders⟩, number, path, breadcrumb => by
      have hinner := outline_planAll filter filter' folders (number + 1) (path ++ [number])
        (breadcrumb ++ [titleOf name context.summary])
      rw [Folder.plan, Folder.plan, outline_append, outline_append, hinner]
      unfold Plan.outline
      simp [planCase]

theorem outline_planAll (filter filter' : LabelFilter) : ∀ (folders : List Folder)
    (number : Nat) (path : List Nat) (breadcrumb : List String),
    (planAll filter number path breadcrumb folders).outline
      = (planAll filter' number path breadcrumb folders).outline
  | [], _, _, _ => by rw [planAll, planAll]
  | folder :: rest, number, path, breadcrumb => by
      have hfirst := outline_plan filter filter' folder number path breadcrumb
      have hlength := congrArg (fun outline => outline.1.length) hfirst
      simp only [Plan.outline, List.length_map] at hlength
      rw [planAll, planAll, outline_append, outline_append, hfirst, hlength,
        outline_planAll filter filter' rest _ path breadcrumb]

end

end Folder

namespace Plan

theorem outline_ofFolders (filter filter' : LabelFilter) (folders : List Folder) :
    (ofFolders filter folders).outline = (ofFolders filter' folders).outline :=
  Folder.outline_planAll filter filter' folders 0 [] []

/-- The plan of folders is laid out from the first number on. -/
theorem laidOut_ofFolders (filter : LabelFilter) (folders : List Folder) :
    (ofFolders filter folders).LaidOut 0 [] :=
  Folder.laidOut_planAll filter folders 0 [] [] fun _ hm => by cases hm

variable {plan : Plan} (h : plan.LaidOut 0 [])

include h

theorem LaidOut.lt_length {c : PlannedCase} (hc : c ∈ plan.cases) {n : Nat} (hn : n ∈ c.path) :
    n < plan.nodes.length := by
  rcases h.mem_bounds hc hn with hin | hin
  · cases hin
  · omega

/-- No context is twice on a path. -/
theorem LaidOut.nodup_path {c : PlannedCase} (hc : c ∈ plan.cases) : c.path.Nodup := by
  obtain ⟨front, hfront⟩ := h.around
  exact nodup_of_front fun p m q (heq : [] ++ c.path = _) => hfront c hc p m q (Nat.zero_le m) heq

theorem LaidOut.total_eq {n : Nat} (hn : n < plan.nodes.length) :
    (plan.nodes.getD n default).total = countThrough n plan.cases := by
  have hnode := List.getElem?_eq_getElem hn
  rw [List.getD_eq_getElem?_getD, hnode, Option.getD_some, h.total n _ hnode, Nat.zero_add]

end Plan

end HttpSuite
