import HttpSuite.Proofs.Suite.Execution
import HttpSuite.Proofs.Suite.Visits

/-!
# Cleaners are called when they are due

`cleaners_run_when_due` says of a whole execution what each visit contains. A context only
counts the cases that it has finished, and compares the count with a number that comes from a
different recursion. That this singles out the last case it is around is seen by counting the
cases on both sides, `Plan.LaidOut.total_eq`. The invariant of the run is `Tracks`: each context
has counted the cases so far that it is around, and remembers what its last activation in
the visits so far has left.
-/

namespace HttpSuite

/-- The calls that a context makes when it is finished. -/
def ContextMemory.cleanings (memory : ContextMemory) (total : Nat) (activated : Bool) :
    List Cleaning :=
  match memory.teardown with
  | some t => t.cleanings (isDue activated (memory.finished + 1 == total))
  | none => []

/-- A context that remembers the last activation calls what is due. -/
theorem ContextMemory.cleanings_eq_due {memory : ContextMemory} {total n : Nat}
    {earlier : List Visit} {v : Visit} {last : Bool}
    (hteardown : memory.teardown = lastTeardown? (earlier ++ [v]) n)
    (hlast : (memory.finished + 1 == total) = last) :
    memory.cleanings total (v.teardown? n).isSome = v.due earlier last n := by
  unfold cleanings Visit.due
  rw [hteardown, lastTeardown?_concat, hlast]
  cases v.teardown? n with
  | some t =>
      show t.cleanings (isDue true last) = _
      congr 1
      funext call
      unfold isDue
      cases call.forEach <;> simp
  | none =>
      rw [Option.none_or]
      cases lastTeardown? earlier n with
      | none => cases last <;> rfl
      | some t =>
          cases last with
          | true =>
              show t.cleanings (isDue false true) = _
              congr 1
              funext call
              unfold isDue
              cases call.forEach <;> rfl
          | false =>
              show t.cleanings (isDue false false) = []
              unfold Teardown.cleanings
              rw [List.map_eq_nil_iff, List.filter_eq_nil_iff]
              intro call _
              unfold isDue
              cases call.forEach <;> simp

/-! ## What a context leaves to be cleared up -/

/-- The calls are those of the cleaners of a context, and all of these are there. -/
structure Teardown.Of (setup : Setup) (spec : ContextSpec) (t : Teardown) : Prop where
  entries : t.Matches spec
  known : ∀ call ∈ t.calls, (setup.cleaners.get? call.name).isSome = true

namespace Setup

variable {setup : Setup}

theorem entries_cleanerCalls {vars : Scope} {specs : List CleanerSpec} {calls : List CleanerCall}
    (h : setup.cleanerCalls vars specs = .ok calls) :
    calls.map (fun call => (call.name, call.forEach))
      = specs.map fun s => (s.name, s.forEach) := by
  induction specs generalizing calls with
  | nil =>
      cases h
      rfl
  | cons spec rest ih =>
      rw [cleanerCalls] at h
      split at h
      · cases h
      · next args hargs =>
          obtain ⟨others, hothers, rfl⟩ := map_ok_iff.mp h
          rw [List.map_cons, List.map_cons, ih hothers]

theorem activation_teardown {node : ContextNode} {memory : ContextMemory}
    {parent : ActiveContext} {journal after : Journal} {a : Activation}
    (h : setup.activation node memory parent journal = (.ok a, after)) :
    a.teardown.Of setup node.spec := by
  obtain ⟨_, _, _, _, _, _, hsteps⟩ := activation_eq_ok h
  have hentries := entries_cleanerCalls hsteps.calls
  refine ⟨hentries, ?_⟩
  intro call hcall
  have hmem : (call.name, call.forEach) ∈ node.spec.cleaners.map fun s => (s.name, s.forEach) := by
    rw [← hentries]
    exact List.mem_map.mpr ⟨call, hcall, rfl⟩
  obtain ⟨spec, hspec, heq⟩ := List.mem_map.mp hmem
  have hname : spec.name = call.name := congrArg Prod.fst heq
  have hcheck := hsteps.collaborators
  unfold ContextNode.checkCollaborators at hcheck
  split at hcheck
  · cases hcheck
  · split at hcheck
    · cases hcheck
    · next hnone =>
        have := List.find?_eq_none.mp hnone spec hspec
        rw [← hname]
        simpa only [OrderedMap.contains, Bool.not_eq_true, Bool.not_eq_false'] using this

/-! ## Calling cleaners -/

variable {start journal : Journal} {v : Visit} {past : List Visit} {n : Nat}

theorem clean_reads (h : start.Reads journal ⟨v :: past, n⟩) {call : CleanerCall}
    (hknown : (setup.cleaners.get? call.name).isSome = true) (title : String)
    (template : RoundTrip) :
    start.Reads (setup.clean title template call journal).2
      ⟨{ v with cleaned := v.cleaned ++ [(n, ⟨call.name, template, call.args⟩)] } :: past, n⟩ := by
  unfold clean
  split
  · next hnone =>
      rw [hnone] at hknown
      cases hknown
  · next cleaner _ =>
      have hcleaned := (h.record (.noted .info s!"{title}: cleaning with {call.name}")).record
        (.cleaned call.name template call.args)
      dsimp only
      split
      · exact hcleaned
      · exact hcleaned.record _

theorem cleanAll_reads (title : String) (template : RoundTrip) {calls : List CleanerCall}
    (hknown : ∀ call ∈ calls, (setup.cleaners.get? call.name).isSome = true)
    (h : start.Reads journal ⟨v :: past, n⟩) :
    start.Reads (setup.cleanAll title template calls journal).2
      ⟨{ v with cleaned := v.cleaned
          ++ calls.map fun call => (n, ⟨call.name, template, call.args⟩) } :: past, n⟩ := by
  induction calls generalizing journal v with
  | nil => simpa [cleanAll] using h
  | cons call rest ih =>
      obtain ⟨hfirst, hrest⟩ := List.forall_mem_cons.mp hknown
      have := ih hrest (clean_reads h hfirst title template)
      simpa [cleanAll] using this

end Setup

namespace Plan

variable {plan : Plan} {setup : Setup} {start : Journal} {v : Visit} {past : List Visit}

/-- Finishing a context calls its cleaners that are due now, and it counts one more case. -/
theorem finish_reads {progress : Progress} {context number : Nat} (activated : Bool)
    (h : start.Reads progress.journal ⟨v :: past, context⟩)
    (hteardown : ∀ t, (memoryOf progress.memories number).teardown = some t →
      t.Of setup (plan.nodes.getD number default).spec) :
    start.Reads (plan.finish setup number activated progress).2.journal
        ⟨{ v with cleaned := v.cleaned ++ ((memoryOf progress.memories number).cleanings
            (plan.nodes.getD number default).total activated).map ((number, ·)) } :: past, number⟩
      ∧ (plan.finish setup number activated progress).2.memories
        = progress.memories.set number (memoryOf progress.memories number).afterFinish := by
  have hbegin : start.Reads (progress.journal.record (.finishing number)) ⟨v :: past, number⟩ :=
    h.record (.finishing number)
  have hmemory : progress.memories.getD number {} = memoryOf progress.memories number := rfl
  unfold Plan.finish ContextNode.finish ContextMemory.due ContextMemory.cleanings
  simp only [hmemory, Progress.record]
  cases ht : (memoryOf progress.memories number).teardown with
  | none =>
      refine ⟨?_, rfl⟩
      simpa using hbegin
  | some t =>
      have hknown : ∀ call ∈ t.calls.filter (ContextMemory.isDue activated
          ((memoryOf progress.memories number).finished + 1
            == (plan.nodes.getD number default).total)),
          (setup.cleaners.get? call.name).isSome = true :=
        fun call hcall => (hteardown t ht).known call (List.mem_filter.mp hcall).1
      have hcleaned := Setup.cleanAll_reads (plan.nodes.getD number default).title t.template
        hknown hbegin
      refine ⟨?_, rfl⟩
      simpa [Teardown.cleanings, Function.comp_def] using hcleaned

/-! ## What contexts remember -/

/-- Activations have left this: nothing was counted meanwhile, and a context remembers what it
has left itself, or what it did before. -/
structure Leaves (before after : List ContextMemory) (acts : List (Nat × Teardown)) : Prop where
  length : after.length = before.length
  finished : ∀ n, (memoryOf after n).finished = (memoryOf before n).finished
  teardown : ∀ n,
    (memoryOf after n).teardown = (acts.lookup n).or (memoryOf before n).teardown

theorem Leaves.refl (memories : List ContextMemory) : Leaves memories memories [] where
  length := rfl
  finished _ := rfl
  teardown _ := rfl

theorem Leaves.set_self (memories : List ContextMemory) (number : Nat) :
    Leaves memories (memories.set number (memoryOf memories number)) [] where
  length := List.length_set
  finished n := congrArg ContextMemory.finished (memoryOf_set_self memories number n)
  teardown n := congrArg ContextMemory.teardown (memoryOf_set_self memories number n)

theorem Leaves.set {memories : List ContextMemory} {number : Nat}
    (hnumber : number < memories.length) {memory : ContextMemory} {t : Teardown}
    (hfinished : memory.finished = (memoryOf memories number).finished)
    (hteardown : memory.teardown = some t) :
    Leaves memories (memories.set number memory) [(number, t)] := by
  refine ⟨List.length_set, ?_, ?_⟩
  · intro n
    rw [memoryOf_set]
    split
    · next hn => rw [hfinished, hn.1]
    · rfl
  · intro n
    rw [memoryOf_set, List.lookup_cons]
    by_cases hn : number = n
    · rw [if_pos ⟨hn, hnumber⟩, hteardown, hn, beq_self_eq_true]
      rfl
    · have hne : (n == number) = false := beq_eq_false_iff_ne.mpr fun heq => hn heq.symm
      rw [if_neg fun h => hn h.1, hne]
      rfl

theorem Leaves.cons {before middle after : List ContextMemory} {number : Nat} {t : Teardown}
    {acts : List (Nat × Teardown)} (hfirst : Leaves before middle [(number, t)])
    (hrest : Leaves middle after acts) (hnew : number ∉ acts.map (·.1)) :
    Leaves before after ((number, t) :: acts) := by
  refine ⟨hrest.length.trans hfirst.length, fun n => (hrest.finished n).trans (hfirst.finished n),
    ?_⟩
  intro n
  rw [hrest.teardown, hfirst.teardown, List.lookup_cons, List.lookup_cons]
  by_cases hn : n = number
  · have hnone : acts.lookup n = none := by
      rw [List.lookup_eq_none_iff]
      intro act hact
      rw [bne_iff_ne]
      intro heq
      exact hnew (List.mem_map.mpr ⟨act, hact, heq.symm.trans hn⟩)
    rw [hnone, hn, beq_self_eq_true]
    rfl
  · rw [beq_eq_false_iff_ne.mpr hn]
    rfl

/-- The contexts of a path have counted one more case. -/
structure Counted (path : List Nat) (before after : List ContextMemory) : Prop where
  length : after.length = before.length
  memory : ∀ n, memoryOf after n
    = if n ∈ path then (memoryOf before n).afterFinish else memoryOf before n

theorem Counted.cons {number : Nat} {rest : List Nat} {before middle : List ContextMemory}
    (h : Counted rest before middle) (hnumber : number < before.length) :
    Counted (number :: rest) before
      (middle.set number (memoryOf before number).afterFinish) := by
  refine ⟨List.length_set.trans h.length, ?_⟩
  intro n
  rw [memoryOf_set, h.memory, h.length]
  by_cases hn : number = n
  · subst hn
    rw [if_pos ⟨rfl, hnumber⟩, if_pos (List.mem_cons_self ..)]
  · have hiff : n ∈ number :: rest ↔ n ∈ rest := by
      rw [List.mem_cons]
      exact or_iff_right fun heq => hn heq.symm
    rw [if_neg fun h => hn h.1]
    simp only [hiff]

/-! ## Along a path -/

/-- Activating a context leaves something, which it then remembers, or it fails and it remembers
what it did. -/
theorem activate_reads {progress : Progress} {context number : Nat}
    (hnumber : number < progress.memories.length)
    (h : start.Reads progress.journal ⟨v :: past, context⟩) (parent : ActiveContext) :
    (∃ active t next, plan.activate setup number parent progress = (.ok active, next)
        ∧ t.Of setup (plan.nodes.getD number default).spec
        ∧ start.Reads next.journal
          ⟨{ v with prepared := v.prepared ++ [(number, t)] } :: past, number⟩
        ∧ Leaves progress.memories next.memories [(number, t)])
      ∨ ∃ e next, plan.activate setup number parent progress = (.error e, next)
        ∧ start.Reads next.journal ⟨v :: past, number⟩
        ∧ Leaves progress.memories next.memories [] := by
  have hbegin : start.Reads (progress.journal.record (.activating number))
      ⟨v :: past, number⟩ := h.record (.activating number)
  have hquiet := (setup.activation_keeps (plan.nodes.getD number default)
    (memoryOf progress.memories number) parent
    (progress.journal.record (.activating number))).1.mono fun _ h => h.quiet
  rcases plan.activate_cases setup number parent progress with
    ⟨a, after, hrun, heq⟩ | ⟨e, after, hrun, heq⟩
  · rw [hrun] at hquiet
    refine Or.inl ⟨a.active, a.teardown, _, heq, Setup.activation_teardown hrun, ?_, ?_⟩
    · exact ((hbegin.quiet hquiet).record (.prepared a.teardown)).record (.activated number)
    · exact Leaves.set hnumber rfl rfl
  · rw [hrun] at hquiet
    exact Or.inr ⟨e, _, heq, hbegin.quiet hquiet, Leaves.set_self _ _⟩

variable (plan setup) in
/-- What contexts leave that are activated along a path: the first ones of the path do. -/
theorem activatePath_reads {path : List Nat} (hnodup : path.Nodup) {progress : Progress}
    {context : Nat} (hlt : ∀ n ∈ path, n < progress.memories.length)
    (h : start.Reads progress.journal ⟨v :: past, context⟩) (parent : ActiveContext) :
    ∃ acts context',
      acts.map (·.1) = path.take (plan.activatePath setup path parent progress).1
      ∧ (∀ n t, (n, t) ∈ acts → t.Of setup (plan.nodes.getD n default).spec)
      ∧ start.Reads (plan.activatePath setup path parent progress).2.2.journal
          ⟨{ v with prepared := v.prepared ++ acts } :: past, context'⟩
      ∧ Leaves progress.memories (plan.activatePath setup path parent progress).2.2.memories
          acts := by
  induction path generalizing progress context v parent with
  | nil =>
      refine ⟨[], context, rfl, by simp, ?_, Leaves.refl _⟩
      rw [List.append_nil]
      exact h
  | cons number rest ih =>
      obtain ⟨hnew, hrest⟩ := List.nodup_cons.mp hnodup
      obtain ⟨hnumber, hltRest⟩ := List.forall_mem_cons.mp hlt
      rcases activate_reads hnumber h parent with
        ⟨active, t, next, heq, hof, hprepared, hleaves⟩ | ⟨e, next, heq, hreads, hleaves⟩
      · obtain ⟨acts, context', hacts, hofs, hreads, hmore⟩ :=
          ih hrest (fun n hn => hleaves.length ▸ hltRest n hn) hprepared active
        have hpath : plan.activatePath setup (number :: rest) parent progress
            = ((plan.activatePath setup rest active next).1 + 1,
              (plan.activatePath setup rest active next).2) := by
          rw [activatePath, heq]
        rw [hpath]
        refine ⟨(number, t) :: acts, context', ?_, ?_, ?_, hleaves.cons hmore ?_⟩
        · rw [List.map_cons, hacts]
          rfl
        · intro n t' hmem
          rcases List.mem_cons.mp hmem with heq | hmem
          · cases heq
            exact hof
          · exact hofs n t' hmem
        · simpa using hreads
        · rw [hacts]
          exact fun hmem => hnew (List.mem_of_mem_take hmem)
      · rw [activatePath, heq]
        exact ⟨[], number, rfl, by simp, by simpa using hreads, hleaves⟩

/-- Whether the first context of a path was activated, and what was activated behind it. -/
theorem lookup_activated {number : Nat} {rest : List Nat} (hnew : number ∉ rest)
    {acts : List (Nat × Teardown)} {activated : Nat}
    (hacts : acts.map (·.1) = (number :: rest).take activated) :
    (acts.lookup number).isSome = decide (0 < activated)
      ∧ acts.tail.map (·.1) = rest.take (activated - 1)
      ∧ ∀ n ∈ rest, acts.tail.lookup n = acts.lookup n := by
  cases activated with
  | zero =>
      rw [List.take_zero, List.map_eq_nil_iff] at hacts
      subst hacts
      exact ⟨rfl, rfl, fun _ _ => rfl⟩
  | succ k =>
      cases acts with
      | nil => cases hacts
      | cons act acts =>
          obtain ⟨hcons, htail⟩ := List.cons.inj hacts
          have hhead : act.1 = number := hcons
          refine ⟨?_, htail, ?_⟩
          · rw [← hhead, List.lookup_cons, beq_self_eq_true]
            simp
          · intro n hn
            have hne : (n == act.1) = false := by
              rw [beq_eq_false_iff_ne, hhead]
              rintro rfl
              exact hnew hn
            rw [List.tail_cons, List.lookup_cons, hne]

/-- What finishing the contexts of a path calls, from the innermost one outwards. -/
def cleaningsOf (plan : Plan) (path : List Nat) (memories : List ContextMemory)
    (acts : List (Nat × Teardown)) : List (Nat × Cleaning) :=
  path.reverse.flatMap fun n =>
    ((memoryOf memories n).cleanings (plan.nodes.getD n default).total
      (acts.lookup n).isSome).map ((n, ·))

theorem cleaningsOf_cons (plan : Plan) (number : Nat) (rest : List Nat)
    (memories : List ContextMemory) (acts : List (Nat × Teardown)) :
    plan.cleaningsOf (number :: rest) memories acts
      = plan.cleaningsOf rest memories acts
        ++ ((memoryOf memories number).cleanings (plan.nodes.getD number default).total
          (acts.lookup number).isSome).map ((number, ·)) := by
  unfold cleaningsOf
  rw [List.reverse_cons, List.flatMap_append, List.flatMap_singleton]

theorem cleaningsOf_congr (plan : Plan) {path : List Nat} {acts acts' : List (Nat × Teardown)}
    (h : ∀ n ∈ path, acts.lookup n = acts'.lookup n) (memories : List ContextMemory) :
    plan.cleaningsOf path memories acts = plan.cleaningsOf path memories acts' := by
  apply List.flatMap_congr
  intro n hn
  rw [h n (List.mem_reverse.mp hn)]

/-- Along a path the cleaners of each context are called that are due to it, and each context
counts one more case. -/
theorem finishPath_reads {path : List Nat} (hnodup : path.Nodup) {progress : Progress}
    {context : Nat} (hlt : ∀ n ∈ path, n < progress.memories.length)
    (hteardown : ∀ n ∈ path, ∀ t, (memoryOf progress.memories n).teardown = some t →
      t.Of setup (plan.nodes.getD n default).spec)
    (h : start.Reads progress.journal ⟨v :: past, context⟩)
    {acts : List (Nat × Teardown)} {activated : Nat}
    (hacts : acts.map (·.1) = path.take activated) :
    (∃ context', start.Reads (plan.finishPath setup path activated progress).2.journal
        ⟨{ v with cleaned := v.cleaned ++ plan.cleaningsOf path progress.memories acts } :: past,
          context'⟩)
      ∧ Counted path progress.memories
          (plan.finishPath setup path activated progress).2.memories := by
  induction path generalizing acts activated with
  | nil =>
      refine ⟨⟨context, ?_⟩, rfl, fun n => rfl⟩
      show start.Reads _ ⟨{ v with cleaned := v.cleaned ++ [] } :: past, context⟩
      rw [List.append_nil]
      exact h
  | cons number rest ih =>
      obtain ⟨hnew, hrest⟩ := List.nodup_cons.mp hnodup
      obtain ⟨hnumber, hltRest⟩ := List.forall_mem_cons.mp hlt
      obtain ⟨hteardownHead, hteardownRest⟩ := List.forall_mem_cons.mp hteardown
      obtain ⟨hflag, htail, hlookup⟩ := lookup_activated hnew hacts
      -- The inner contexts are finished first, and do not change what this one remembers.
      obtain ⟨⟨context', hreads⟩, hcounted⟩ := ih hrest hltRest hteardownRest htail
      obtain ⟨next, hnext⟩ :
          ∃ next, next = (plan.finishPath setup rest (activated - 1) progress).2 :=
        ⟨_, rfl⟩
      rw [← hnext] at hreads hcounted
      have hsame : memoryOf next.memories number = memoryOf progress.memories number := by
        rw [hcounted.memory, if_neg hnew]
      rw [← hsame] at hteardownHead
      obtain ⟨hfinish, hset⟩ := finish_reads (decide (0 < activated)) hreads hteardownHead
      have hpath : (plan.finishPath setup (number :: rest) activated progress).2
          = (plan.finish setup number (decide (0 < activated)) next).2 := by
        rw [hnext]
        rfl
      rw [hpath]
      refine ⟨⟨number, ?_⟩, ?_⟩
      · rw [cleaningsOf_cons, ← plan.cleaningsOf_congr hlookup, hflag, ← hsame,
          ← List.append_assoc]
        exact hfinish
      · rw [hset, hsame]
        exact hcounted.cons hnumber

/-! ## Executing a plan -/

/-- Between two cases, each context has counted the cases so far that it is around, and
remembers what its last activation in the visits so far has left. -/
structure Tracks (plan : Plan) (setup : Setup) (start : Journal) (done : List PlannedCase)
    (visits : List Visit) (progress : Progress) : Prop where
  length : progress.memories.length = plan.nodes.length
  reads : ∃ context, start.Reads progress.journal ⟨visits.reverse, context⟩
  finished : ∀ n, n < plan.nodes.length →
    (memoryOf progress.memories n).finished = countThrough n done
  teardown : ∀ n, (memoryOf progress.memories n).teardown = lastTeardown? visits n
  known : ∀ n t, (memoryOf progress.memories n).teardown = some t →
    t.Of setup (plan.nodes.getD n default).spec

theorem tracks_start : Tracks plan setup start [] [] (plan.start start) where
  length := List.length_map _
  reads := ⟨0, Journal.Reads.refl start⟩
  finished n _ := by
    rw [memoryOf_start]
    rfl
  teardown n := by
    rw [memoryOf_start]
    rfl
  known n t h := by
    rw [memoryOf_start] at h
    cases h

/-- The flow of a case changes nothing that is remembered, and calls no cleaner. -/
theorem runFlow_reads {r : Reading} {progress : Progress} (h : start.Reads progress.journal r)
    (c : PlannedCase) (active : ActiveContext) :
    start.Reads (runFlow setup c active progress).2.journal r
      ∧ (runFlow setup c active progress).2.memories = progress.memories := by
  have hbegin := h.record .flowBegins
  have hquiet := (setup.runCase_keeps c.spec active (progress.journal.record .flowBegins)).1.mono
    fun _ h => h.quiet
  unfold runFlow
  simp only [Progress.record]
  rcases hrun : setup.runCase c.spec active (progress.journal.record .flowBegins)
    with ⟨result, after⟩
  rw [hrun] at hquiet
  cases result with
  | ok vars => exact ⟨hbegin.quiet hquiet, rfl⟩
  | error e => exact ⟨hbegin.quiet hquiet, rfl⟩

/-- A context is finished for the last time when no selected case that it is around comes
later. -/
theorem last_iff {n total : Nat} {done rest : List PlannedCase} {c : PlannedCase}
    (hselected : c.selected = true) (hn : n ∈ c.path)
    (htotal : total = countThrough n (done ++ c :: rest)) :
    (countThrough n done + 1 == total)
      = (rest.filter (·.selected)).all fun other => n ∉ other.path := by
  have hcount : countThrough n (done ++ c :: rest)
      = countThrough n done + (1 + countThrough n rest) := by
    rw [countThrough_append, countThrough_cons, if_pos ⟨hselected, hn⟩]
  rw [Bool.eq_iff_iff, beq_iff_eq, htotal, hcount, List.all_eq_true]
  simp only [decide_eq_true_eq]
  rw [← countThrough_eq_zero_iff]
  omega

theorem of_lookup_or {acts : List (Nat × Teardown)} {n : Nat}
    (hofs : ∀ n t, (n, t) ∈ acts → t.Of setup (plan.nodes.getD n default).spec)
    {old : Option Teardown}
    (hold : ∀ t, old = some t → t.Of setup (plan.nodes.getD n default).spec) {t : Teardown}
    (h : (acts.lookup n).or old = some t) : t.Of setup (plan.nodes.getD n default).spec := by
  rcases Option.or_eq_some_iff.mp h with hact | ⟨-, hrest⟩
  · obtain ⟨l₁, l₂, heq, -⟩ := List.lookup_eq_some_iff.mp hact
    exact hofs n t (by rw [heq]; simp)
  · exact hold t hrest

/-- A case was run between what its contexts have left and the cleaners that are due to them.
The memories in the middle are those behind the activations. -/
structure Visited (plan : Plan) (setup : Setup) (start : Journal) (c : PlannedCase)
    (past : List Visit) (before middle : List ContextMemory) (acts : List (Nat × Teardown))
    (after : Progress) : Prop where
  front : acts.map (·.1) <+: c.path
  of : ∀ n t, (n, t) ∈ acts → t.Of setup (plan.nodes.getD n default).spec
  leaves : Leaves before middle acts
  reads : ∃ context, start.Reads after.journal
    ⟨⟨acts, plan.cleaningsOf c.path middle acts⟩ :: past, context⟩
  counted : Counted c.path middle after.memories

variable (plan setup) in
theorem runCase_reads {c : PlannedCase} (hnodup : c.path.Nodup) {progress : Progress}
    {context : Nat} (hlt : ∀ n ∈ c.path, n < progress.memories.length)
    (hknown : ∀ n t, (memoryOf progress.memories n).teardown = some t →
      t.Of setup (plan.nodes.getD n default).spec)
    (h : start.Reads progress.journal ⟨{} :: past, context⟩) (root : ActiveContext) :
    ∃ middle acts, Visited plan setup start c past progress.memories middle acts
      (plan.runCase setup root c progress).2 := by
  obtain ⟨acts, context', hacts, hofs, hreads, hleaves⟩ :=
    activatePath_reads plan setup hnodup hlt h root
  rcases hrun : plan.activatePath setup c.path root progress with ⟨activated, result, reached⟩
  rw [hrun] at hacts hreads hleaves
  -- Whether there is a flow to run or not, it changes nothing that is remembered.
  obtain ⟨flown, hrunCase, hflowReads, hflowMemories⟩ : ∃ flown,
      (plan.runCase setup root c progress).2
        = (plan.finishPath setup c.path activated flown).2
      ∧ start.Reads flown.journal
        ⟨{ ({} : Visit) with prepared := [] ++ acts } :: past, context'⟩
      ∧ flown.memories = reached.memories := by
    unfold runCase
    rw [hrun]
    cases result with
    | error e => exact ⟨reached, rfl, hreads, rfl⟩
    | ok active => exact ⟨(runFlow setup c active reached).2, rfl, runFlow_reads hreads c active⟩
  rw [← hflowMemories] at hleaves
  have hteardown : ∀ n ∈ c.path, ∀ t, (memoryOf flown.memories n).teardown = some t →
      t.Of setup (plan.nodes.getD n default).spec := by
    intro n _ t ht
    exact of_lookup_or hofs (hknown n) (hleaves.teardown n ▸ ht)
  obtain ⟨hfinished, hcounted⟩ := finishPath_reads hnodup
    (fun n hn => by rw [hleaves.length]; exact hlt n hn) hteardown hflowReads hacts
  rw [hrunCase]
  refine ⟨flown.memories, acts, ?_, hofs, hleaves, ?_, hcounted⟩
  · rw [hacts]
    exact List.take_prefix _ _
  · simpa using hfinished

variable (plan setup) in
theorem reportCase_reads {c : PlannedCase} (hselected : c.selected = true)
    (hnodup : c.path.Nodup) {progress : Progress} {context : Nat}
    (hlt : ∀ n ∈ c.path, n < progress.memories.length)
    (hknown : ∀ n t, (memoryOf progress.memories n).teardown = some t →
      t.Of setup (plan.nodes.getD n default).spec)
    (h : start.Reads progress.journal ⟨past, context⟩) (root : ActiveContext) :
    ∃ middle acts, Visited plan setup start c past progress.memories middle acts
      (plan.reportCase setup root c progress).2 := by
  obtain ⟨begun, hbegun⟩ : ∃ begun, begun = (progress.record .caseBegins).record
    (.noted .info s!"running {breadcrumbName c.breadcrumb}") := ⟨_, rfl⟩
  have hbegin : start.Reads begun.journal ⟨{} :: past, context⟩ := by
    rw [hbegun]
    exact (h.record .caseBegins).record _
  have hmemories : begun.memories = progress.memories := by
    rw [hbegun]
    rfl
  obtain ⟨middle, acts, hvisited⟩ := runCase_reads plan setup hnodup (hmemories ▸ hlt)
    (hmemories ▸ hknown) hbegin root
  rw [hmemories] at hvisited
  refine ⟨middle, acts, ?_⟩
  unfold Plan.reportCase
  rw [if_neg (by simp [hselected]), ← hbegun]
  dsimp only
  rcases hrun : plan.runCase setup root c begun with ⟨result, after⟩
  rw [hrun] at hvisited
  cases result with
  | ok _ => exact hvisited
  | error e =>
      obtain ⟨context', hreads⟩ := hvisited.reads
      exact { hvisited with reads := ⟨context', hreads.record _⟩ }

section

variable {done rest : List PlannedCase} {c : PlannedCase} {visits : List Visit}
  {progress after : Progress} {middle : List ContextMemory} {acts : List (Nat × Teardown)}
  (hlaid : plan.LaidOut 0 []) (hcases : plan.cases = done ++ c :: rest)
  (hselected : c.selected = true) (h : Tracks plan setup start done visits progress)
  (hvisited : Visited plan setup start c visits.reverse progress.memories middle acts after)

include h hvisited

/-- Behind the activations a context remembers what its last one has left, this visit included. -/
theorem Tracks.teardown_middle (cleaned : List (Nat × Cleaning)) (n : Nat) :
    (memoryOf middle n).teardown = lastTeardown? (visits ++ [⟨acts, cleaned⟩]) n := by
  rw [hvisited.leaves.teardown, h.teardown, lastTeardown?_concat]
  rfl

include hselected

theorem Tracks.visit :
    Tracks plan setup start (done ++ [c])
      (visits ++ [⟨acts, plan.cleaningsOf c.path middle acts⟩]) after := by
  refine ⟨?_, ?_, ?_, ?_, ?_⟩
  · rw [hvisited.counted.length, hvisited.leaves.length, h.length]
  · rw [List.reverse_append]
    exact hvisited.reads
  · intro n hn
    have hfinished : (memoryOf middle n).finished = countThrough n done := by
      rw [hvisited.leaves.finished, h.finished n hn]
    rw [hvisited.counted.memory, countThrough_append, countThrough_cons]
    by_cases hpath : n ∈ c.path
    · rw [if_pos hpath, if_pos ⟨hselected, hpath⟩, ← hfinished]
      rfl
    · rw [if_neg hpath, if_neg (fun h => hpath h.2), ← hfinished]
      rfl
  · intro n
    rw [hvisited.counted.memory, ← h.teardown_middle hvisited]
    split <;> rfl
  · intro n t ht
    rw [hvisited.counted.memory] at ht
    refine of_lookup_or hvisited.of (h.known n) ?_
    rw [← hvisited.leaves.teardown]
    split at ht <;> exact ht

include hlaid hcases

theorem Tracks.serves :
    Visit.Serves plan visits c (rest.filter (·.selected))
      ⟨acts, plan.cleaningsOf c.path middle acts⟩ := by
  refine ⟨hvisited.front, fun n t hmem => (hvisited.of n t hmem).entries, ?_⟩
  apply List.flatMap_congr
  intro n hn
  rw [List.mem_reverse] at hn
  have hc : c ∈ plan.cases := by
    rw [hcases]
    exact List.mem_append_right _ (List.mem_cons_self ..)
  have hbound := hlaid.lt_length hc hn
  refine congrArg (List.map _) (ContextMemory.cleanings_eq_due (h.teardown_middle hvisited _ n) ?_)
  rw [hvisited.leaves.finished, h.finished n hbound]
  exact last_iff hselected hn (hcases ▸ hlaid.total_eq hbound)

end

/-- One selected case: its visit contains what is due, and the contexts keep count. -/
theorem Tracks.reportCase {done rest : List PlannedCase} {c : PlannedCase}
    {visits : List Visit} {progress : Progress} (hlaid : plan.LaidOut 0 [])
    (hcases : plan.cases = done ++ c :: rest) (hselected : c.selected = true)
    (h : Tracks plan setup start done visits progress) (root : ActiveContext) :
    ∃ v, Visit.Serves plan visits c (rest.filter (·.selected)) v
      ∧ Tracks plan setup start (done ++ [c]) (visits ++ [v])
        (plan.reportCase setup root c progress).2 := by
  have hc : c ∈ plan.cases := by
    rw [hcases]
    exact List.mem_append_right _ (List.mem_cons_self ..)
  have hlt : ∀ n ∈ c.path, n < progress.memories.length := by
    intro n hn
    rw [h.length]
    exact hlaid.lt_length hc hn
  obtain ⟨context, hreads⟩ := h.reads
  obtain ⟨middle, acts, hvisited⟩ :=
    reportCase_reads plan setup hselected (hlaid.nodup_path hc) hlt h.known hreads root
  exact ⟨_, h.serves hlaid hcases hselected hvisited, h.visit hselected hvisited⟩

/-- A case that is not selected is no visit, and nothing is remembered of it. -/
theorem Tracks.skipCase {done : List PlannedCase} {c : PlannedCase} {visits : List Visit}
    {progress : Progress} (hselected : c.selected = false)
    (h : Tracks plan setup start done visits progress) (root : ActiveContext) :
    Tracks plan setup start (done ++ [c]) visits (plan.reportCase setup root c progress).2 := by
  have hreport : (plan.reportCase setup root c progress).2
      = progress.record (.noted .info s!"skipping {breadcrumbName c.breadcrumb}") := by
    unfold Plan.reportCase
    rw [hselected]
    rfl
  obtain ⟨context, hreads⟩ := h.reads
  rw [hreport]
  refine ⟨h.length, ⟨context, hreads.record _⟩, ?_, h.teardown, h.known⟩
  intro n hn
  rw [countThrough_append, countThrough_cons, if_neg (by simp [hselected])]
  exact h.finished n hn

/-- All cases from some point on: there is a visit for each selected one, and it contains what
is due. -/
theorem Tracks.reportAll (hlaid : plan.LaidOut 0 []) (root : ActiveContext)
    {done rest : List PlannedCase} {visits : List Visit} {progress : Progress}
    (hcases : plan.cases = done ++ rest) (h : Tracks plan setup start done visits progress) :
    ∃ more, more.length = (rest.filter (·.selected)).length
      ∧ (∀ k c v, (rest.filter (·.selected))[k]? = some c → more[k]? = some v →
        Visit.Serves plan (visits ++ more.take k) c ((rest.filter (·.selected)).drop (k + 1)) v)
      ∧ Tracks plan setup start plan.cases (visits ++ more)
        (plan.reportAll setup root rest progress).2 := by
  induction rest generalizing done visits progress with
  | nil =>
      rw [List.append_nil] at hcases
      refine ⟨[], rfl, fun k c v hc => by simp at hc, ?_⟩
      rw [List.append_nil, hcases]
      exact h
  | cons c rest ih =>
      have hnext : plan.cases = (done ++ [c]) ++ rest := by
        rw [hcases, List.append_assoc, List.singleton_append]
      have hreport : (plan.reportAll setup root (c :: rest) progress).2
          = (plan.reportAll setup root rest (plan.reportCase setup root c progress).2).2 := rfl
      rw [hreport]
      cases hselected : c.selected with
      | false =>
          have hfilter : (c :: rest).filter (·.selected) = rest.filter (·.selected) := by
            rw [List.filter_cons, hselected]
            rfl
          rw [hfilter]
          exact ih hnext (h.skipCase hselected root)
      | true =>
          have hfilter : (c :: rest).filter (·.selected) = c :: rest.filter (·.selected) := by
            rw [List.filter_cons, hselected]
            rfl
          obtain ⟨v, hserves, htracks⟩ := h.reportCase hlaid hcases hselected root
          obtain ⟨more, hlength, hall, hend⟩ := ih hnext htracks
          rw [hfilter]
          refine ⟨v :: more, ?_, ?_, ?_⟩
          · rw [List.length_cons, List.length_cons, hlength]
          · intro k c' v' hc' hv'
            cases k with
            | zero =>
                cases hc'
                cases hv'
                rw [List.take_zero, List.append_nil]
                exact hserves
            | succ k =>
                have := hall k c' v' hc' hv'
                rwa [List.append_assoc, List.singleton_append] at this
          · rwa [List.append_assoc, List.singleton_append] at hend

/-- Over a whole execution there is one visit for each selected case, in order, and it contains
exactly what is due: the cleaners for every case of those contexts that were activated for
this one, with what this activation has left, and the other cleaners of those contexts that
are around no later selected case, with what their last activation has left, if there was
one. So each cleaner for every case is called once for each activation of its context, and each
other one once if there was any. Whether cleaners fail makes no difference. -/
theorem cleaners_run_when_due (filter : LabelFilter) (folders : List Folder) (setup : Setup)
    (root : ActiveContext) (journal : Journal) :
    ∃ events,
      ((ofFolders filter folders).execute setup root journal).2.journal.events
          = journal.events ++ events
      ∧ (visitsOf events).length = (ofFolders filter folders).selected.length
      ∧ (∀ k c v, (ofFolders filter folders).selected[k]? = some c →
          (visitsOf events)[k]? = some v →
            Visit.Serves (ofFolders filter folders) ((visitsOf events).take k) c
              ((ofFolders filter folders).selected.drop (k + 1)) v)
      ∧ ∀ n, ((visitsOf events).flatMap (·.calls n)).length
        = (visitsOf events).countP (·.activates n)
            * ((ofFolders filter folders).nodes.getD n default).spec.forEachCount
          + if (visitsOf events).any (·.activates n)
            then ((ofFolders filter folders).nodes.getD n default).spec.onceCount else 0 := by
  have hlaid := laidOut_ofFolders filter folders
  have htracks : Tracks (ofFolders filter folders) setup journal [] []
    ((ofFolders filter folders).start journal) := tracks_start
  obtain ⟨visits, hlength, hall, hend⟩ :=
    htracks.reportAll hlaid root (List.nil_append (ofFolders filter folders).cases).symm
  obtain ⟨context, events, hevents, hreading⟩ := hend.reads
  have hvisits : visitsOf events = visits := by
    unfold visitsOf
    rw [hreading, List.reverse_reverse, List.nil_append]
  refine ⟨events, hevents, ?_⟩
  rw [hvisits]
  refine ⟨hlength, hall, fun n => length_calls_all ?_ hlength hall⟩
  exact fun c hc => hlaid.nodup_path (List.mem_filter.mp hc).1

end Plan

end HttpSuite
