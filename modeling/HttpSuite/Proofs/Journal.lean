import Mathlib.Data.List.Forall2
import HttpSuite.Journal

/-!
# Two ways to reason about actions

An action does two things, it writes into the journal and it ends in a result or an
error, and most of what is proved about one is proved step by step along its binds.

`Ensures P Q` is the unary form: all entries that are written satisfy `P`, whether the
action fails or not, and a result satisfies `Q`. It composes along `bind`, where the second
action may assume `Q` of what the first one hands it. `Fails E` is its counterpart for errors.

For comparing two runs there is the `outcome` of an action. What a `Steady` action ends in
does not depend on the journal, so its outcome is a function of its arguments alone, and
two runs of it can be compared as if there were no journal.
-/

namespace HttpSuite

theorem bind_ok_iff {ε α β : Type} {x : Except ε α} {f : α → Except ε β} {b : β} :
    x >>= f = .ok b ↔ ∃ a, x = .ok a ∧ f a = .ok b := by
  cases x with
  | error e =>
      constructor
      · intro h
        cases h
      · rintro ⟨a, ha, -⟩
        cases ha
  | ok a =>
      constructor
      · intro h
        exact ⟨a, rfl, h⟩
      · rintro ⟨a', ha, h⟩
        cases ha
        exact h

theorem toOption_eq_some_iff {ε α : Type} {x : Except ε α} {a : α} :
    x.toOption = some a ↔ x = .ok a := by
  cases x <;> simp [Except.toOption]

theorem map_ok_iff {ε α β : Type} {x : Except ε α} {f : α → β} {b : β} :
    x.map f = .ok b ↔ ∃ a, x = .ok a ∧ f a = b := by
  cases x with
  | error e =>
      constructor
      · intro h
        cases h
      · rintro ⟨a, ha, -⟩
        cases ha
  | ok a =>
      constructor
      · intro h
        cases h
        exact ⟨a, rfl, rfl⟩
      · rintro ⟨a', ha, h⟩
        cases ha
        exact congrArg Except.ok h

theorem mapError_ok_iff {ε ε' α : Type} {x : Except ε α} {f : ε → ε'} {a : α} :
    x.mapError f = .ok a ↔ x = .ok a := by
  cases x with
  | error e =>
      constructor
      · intro h
        cases h
      · intro h
        cases h
  | ok b =>
      constructor
      · intro h
        cases h
        rfl
      · intro h
        cases h
        rfl

theorem mapM_ok_iff {ε α β : Type} {f : β → Except ε α} {xs : List β} {ys : List α} :
    xs.mapM f = .ok ys ↔ List.Forall₂ (fun x y => f x = .ok y) xs ys := by
  induction xs generalizing ys with
  | nil =>
      rw [List.mapM_nil, List.forall₂_nil_left_iff]
      exact ⟨fun h => by cases h; rfl, fun h => by rw [h]; rfl⟩
  | cons x xs ih =>
      rw [List.mapM_cons, bind_ok_iff, List.forall₂_cons_left_iff]
      constructor
      · rintro ⟨y, hy, h⟩
        obtain ⟨ys, hys, h⟩ := bind_ok_iff.mp h
        cases h
        exact ⟨y, ys, hy, ih.mp hys, rfl⟩
      · rintro ⟨y, ys, hy, hys, rfl⟩
        exact ⟨y, hy, bind_ok_iff.mpr ⟨ys, ih.mpr hys, rfl⟩⟩

theorem exists_of_mem_mapM {ε α β : Type} {f : β → Except ε α} {xs : List β} {ys : List α}
    (h : xs.mapM f = .ok ys) {y : α} (hy : y ∈ ys) : ∃ x ∈ xs, f x = .ok y := by
  have hpairs := mapM_ok_iff.mp h
  obtain ⟨i, hi, rfl⟩ := List.getElem_of_mem hy
  have hi' := hpairs.length_eq ▸ hi
  exact ⟨xs[i], List.getElem_mem hi', hpairs.get hi' hi⟩

namespace Journal

/-- All entries that came in between satisfy a predicate, and nothing was taken back. -/
def Since (before after : Journal) (P : Event → Prop) : Prop :=
  ∃ new, after.events = before.events ++ new ∧ ∀ event ∈ new, P event

theorem Since.refl (journal : Journal) (P : Event → Prop) : journal.Since journal P :=
  ⟨[], by simp, by simp⟩

theorem Since.trans {a b c : Journal} {P : Event → Prop} (hab : a.Since b P)
    (hbc : b.Since c P) : a.Since c P := by
  obtain ⟨new₁, h₁, hP₁⟩ := hab
  obtain ⟨new₂, h₂, hP₂⟩ := hbc
  refine ⟨new₁ ++ new₂, by rw [h₂, h₁, List.append_assoc], ?_⟩
  intro event hmem
  rcases List.mem_append.mp hmem with h | h
  · exact hP₁ event h
  · exact hP₂ event h

theorem Since.mono {a b : Journal} {P P' : Event → Prop} (h : a.Since b P)
    (hP : ∀ event, P event → P' event) : a.Since b P' := by
  obtain ⟨new, hnew, hall⟩ := h
  exact ⟨new, hnew, fun event hmem => hP event (hall event hmem)⟩

theorem since_record (journal : Journal) {P : Event → Prop} {event : Event} (h : P event) :
    journal.Since (journal.record event) P := by
  refine ⟨[event], rfl, ?_⟩
  intro e he
  rw [List.mem_singleton.mp he]
  exact h

theorem since_wait (nanos : Nat) (journal : Journal) (P : Event → Prop) :
    journal.Since (journal.wait nanos) P :=
  ⟨[], by simp [wait], by simp⟩

end Journal

namespace Action

variable {ε ε' α β : Type}

theorem bind_apply (a : Action ε α) (f : α → Action ε β) (journal : Journal) :
    (a >>= f) journal
      = match a journal with
        | (.ok x, journal) => f x journal
        | (.error e, journal) => (.error e, journal) := by
  show ExceptT.bindCont f (a journal).1 (a journal).2 = _
  rcases a journal with ⟨r, j⟩
  cases r <;> rfl

theorem pure_apply (x : α) (journal : Journal) :
    (pure x : Action ε α) journal = (.ok x, journal) := rfl

theorem throw_apply (e : ε) (journal : Journal) :
    (throw e : Action ε α) journal = (.error e, journal) := rfl

theorem bind_eq_ok_iff {a : Action ε α} {f : α → Action ε β} {journal after : Journal} {y : β} :
    (a >>= f) journal = (.ok y, after)
      ↔ ∃ x between, a journal = (.ok x, between) ∧ f x between = (.ok y, after) := by
  rw [bind_apply]
  rcases a journal with ⟨r, between⟩
  cases r with
  | error e =>
      constructor
      · intro h
        cases h
      · rintro ⟨x, between', hx, -⟩
        cases hx
  | ok x =>
      constructor
      · intro h
        exact ⟨x, between, rfl, h⟩
      · rintro ⟨x', between', hx, h⟩
        cases hx
        exact h

/-- Two actions in a row fail where one of them does. -/
theorem bind_eq_error_iff {a : Action ε α} {f : α → Action ε β} {journal after : Journal}
    {e : ε} :
    (a >>= f) journal = (.error e, after)
      ↔ a journal = (.error e, after)
        ∨ ∃ x between, a journal = (.ok x, between) ∧ f x between = (.error e, after) := by
  rw [bind_apply]
  rcases a journal with ⟨r, between⟩
  cases r with
  | error e' =>
      constructor
      · intro h
        cases h
        exact .inl rfl
      · rintro (h | ⟨x, between', hx, -⟩)
        · cases h
          rfl
        · cases hx
  | ok x =>
      constructor
      · intro h
        exact .inr ⟨x, between, rfl, h⟩
      · rintro (h | ⟨x', between', hx, h⟩)
        · cases h
        · cases hx
          exact h

/-- An action whose first part ends in the same everywhere goes on from there. -/
theorem bind_fst {a : Action ε α} {f : α → Action ε β} {x : α} {r : Except ε β}
    (ha : ∀ journal, (a journal).1 = .ok x) (hf : ∀ journal, (f x journal).1 = r)
    (journal : Journal) : ((a >>= f) journal).1 = r := by
  have hx := ha journal
  rw [bind_apply]
  rcases hrun : a journal with ⟨result, after⟩
  rw [hrun] at hx
  cases hx
  exact hf after

theorem ofExcept_eq_ok_iff {f : ε → ε'} {x : Except ε α} {journal after : Journal} {a : α} :
    ofExcept f x journal = (.ok a, after) ↔ x = .ok a ∧ after = journal := by
  cases x with
  | error e =>
      constructor
      · intro h
        cases h
      · rintro ⟨hx, -⟩
        cases hx
  | ok b =>
      constructor
      · intro h
        cases h
        exact ⟨rfl, rfl⟩
      · rintro ⟨hx, rfl⟩
        cases hx
        rfl

theorem ofExcept_id_eq_error {x : Except ε α} {journal after : Journal} {e : ε}
    (h : ofExcept id x journal = (.error e, after)) : x = .error e := by
  cases x with
  | error e' =>
      cases h
      rfl
  | ok a => cases h

theorem ofExcept_fst {f : ε → ε'} {x : Except ε α} {a : α} (h : x = .ok a) (journal : Journal) :
    (ofExcept f x journal).1 = .ok a := by
  rw [h]
  rfl

theorem inView_eq_ok_iff {f : Journal → Except ε α} {journal after : Journal} {a : α} :
    inView f journal = (.ok a, after) ↔ f journal = .ok a ∧ after = journal :=
  Prod.ext_iff.trans (and_congr_right fun _ => eq_comm)

theorem inView_eq_error_iff {f : Journal → Except ε α} {journal after : Journal} {e : ε} :
    inView f journal = (.error e, after) ↔ f journal = .error e ∧ after = journal :=
  Prod.ext_iff.trans (and_congr_right fun _ => eq_comm)

/-! ## What an action writes and what it results in -/

/-- All that the action writes satisfies `P`, and its result, if it has one, `Q`. -/
def Ensures (a : Action ε α) (P : Event → Prop) (Q : α → Prop) : Prop :=
  ∀ journal, journal.Since (a journal).2 P ∧ ∀ r, (a journal).1 = .ok r → Q r

variable {P : Event → Prop} {Q : α → Prop} {R : β → Prop}

theorem Ensures.pure {x : α} (h : Q x) : (Pure.pure x : Action ε α).Ensures P Q := by
  intro journal
  refine ⟨Journal.Since.refl _ _, ?_⟩
  intro r hr
  rw [pure_apply] at hr
  cases hr
  exact h

theorem Ensures.throw (e : ε) : (MonadExcept.throw e : Action ε α).Ensures P Q := by
  intro journal
  refine ⟨Journal.Since.refl _ _, ?_⟩
  intro r hr
  rw [throw_apply] at hr
  cases hr

theorem Ensures.bind {a : Action ε α} {f : α → Action ε β} (ha : a.Ensures P Q)
    (hf : ∀ x, Q x → (f x).Ensures P R) : (a >>= f).Ensures P R := by
  intro journal
  rw [bind_apply]
  obtain ⟨hsince, hres⟩ := ha journal
  rcases hrun : a journal with ⟨r, after⟩
  rw [hrun] at hsince hres
  cases r with
  | error e =>
      refine ⟨hsince, ?_⟩
      intro r hr
      cases hr
  | ok x =>
      obtain ⟨hsince', hres'⟩ := hf x (hres x rfl) after
      exact ⟨hsince.trans hsince', hres'⟩

theorem Ensures.mono {a : Action ε α} {P' : Event → Prop} {Q' : α → Prop}
    (h : a.Ensures P Q) (hP : ∀ event, P event → P' event) (hQ : ∀ x, Q x → Q' x) :
    a.Ensures P' Q' := by
  intro journal
  obtain ⟨hsince, hres⟩ := h journal
  exact ⟨hsince.mono hP, fun r hr => hQ r (hres r hr)⟩

theorem Ensures.ofExcept {f : ε → ε'} {x : Except ε α} (h : ∀ a, x = .ok a → Q a) :
    (Action.ofExcept f x).Ensures P Q := by
  intro journal
  cases x with
  | error e =>
      refine ⟨Journal.Since.refl _ _, ?_⟩
      intro r hr
      cases hr
  | ok a =>
      refine ⟨Journal.Since.refl _ _, ?_⟩
      intro r hr
      cases hr
      exact h a rfl

theorem Ensures.record {event : Event} {Q : Unit → Prop} (h : P event) (hQ : Q ()) :
    (Action.record event : Action ε Unit).Ensures P Q :=
  fun journal => ⟨Journal.since_record journal h, fun _ _ => hQ⟩

theorem Ensures.bind_ofExcept {f : ε → ε'} {x : Except ε α} {g : α → Action ε' β}
    (hg : ∀ a, x = .ok a → (g a).Ensures P R) : (Action.ofExcept f x >>= g).Ensures P R :=
  Ensures.bind (Ensures.ofExcept fun _ h => h) hg

theorem Ensures.bind_inView {f : Journal → Except ε α} {g : α → Action ε β}
    (hg : ∀ a journal, f journal = .ok a → (g a).Ensures P R) :
    (Action.inView f >>= g).Ensures P R :=
  Ensures.bind (Q := fun a => ∃ journal, f journal = .ok a)
    (fun journal => ⟨Journal.Since.refl _ _, fun _ h => ⟨journal, h⟩⟩)
    fun a ⟨journal, h⟩ => hg a journal h

theorem Ensures.bind_record {event : Event} {g : Unit → Action ε β} (h : P event)
    (hg : (g ()).Ensures P R) : (Action.record event >>= g).Ensures P R :=
  Ensures.bind (Ensures.record (Q := fun _ => True) h trivial) fun _ _ => hg

theorem Ensures.mapError {f : ε → ε'} {a : Action ε α} (h : a.Ensures P Q) :
    (a.mapError f).Ensures P Q := by
  intro journal
  obtain ⟨hsince, hres⟩ := h journal
  unfold Action.mapError
  rcases hrun : a journal with ⟨r, after⟩
  rw [hrun] at hsince hres
  cases r with
  | error e =>
      refine ⟨hsince, ?_⟩
      intro r hr
      cases hr
  | ok x =>
      refine ⟨hsince, ?_⟩
      intro r hr
      cases hr
      exact hres x rfl

/-- Behind an attempt it is known how the action ended, and of a result what the action
ensures. -/
theorem Ensures.attempt {a : Action ε α} (h : a.Ensures P Q) :
    (a.attempt : Action ε' (Except ε α)).Ensures P fun r => ∀ x, r = .ok x → Q x := by
  intro journal
  obtain ⟨hsince, hres⟩ := h journal
  refine ⟨hsince, ?_⟩
  intro r hr
  cases hr
  exact hres

theorem mapError_fst (f : ε → ε') (a : Action ε α) (journal : Journal) :
    (a.mapError f journal).1 = (a journal).1.mapError f := by
  unfold Action.mapError
  rcases a journal with ⟨r, after⟩
  cases r <;> rfl

/-! ## How an action fails -/

/-- Whenever the action fails, the error satisfies `E`. -/
def Fails (a : Action ε α) (E : ε → Prop) : Prop :=
  ∀ journal e, (a journal).1 = .error e → E e

section Fails

variable {E : ε → Prop} {E' : ε' → Prop}

theorem Fails.mono {a : Action ε α} {E₂ : ε → Prop} (ha : a.Fails E) (h : ∀ e, E e → E₂ e) :
    a.Fails E₂ := fun journal e he => h e (ha journal e he)

theorem Fails.pure (x : α) : (Pure.pure x : Action ε α).Fails E := nofun

theorem Fails.throw {e : ε} (h : E e) : (MonadExcept.throw e : Action ε α).Fails E := by
  intro journal e' he
  rw [throw_apply] at he
  cases he
  exact h

theorem Fails.record (event : Event) : (Action.record event : Action ε Unit).Fails E := nofun

theorem Fails.ofExcept {f : ε → ε'} {x : Except ε α} (h : ∀ e, x = .error e → E' (f e)) :
    (Action.ofExcept f x).Fails E' := by
  intro journal e he
  cases x with
  | error e' =>
      cases he
      exact h e' rfl
  | ok a => cases he

theorem Fails.mapError {f : ε → ε'} (a : Action ε α) (h : ∀ e, E' (f e)) :
    (a.mapError f).Fails E' := by
  intro journal e he
  rw [mapError_fst] at he
  cases hrun : (a journal).1 with
  | ok x =>
      rw [hrun] at he
      cases he
  | error e' =>
      rw [hrun] at he
      cases he
      exact h e'

theorem Fails.attempt (a : Action ε α) : (a.attempt : Action ε' (Except ε α)).Fails E' := nofun

/-- The second action may use that it goes on from a result of the first. -/
theorem Fails.bind {a : Action ε α} {f : α → Action ε β} (ha : a.Fails E)
    (hf : ∀ x journal, (a journal).1 = .ok x → (f x).Fails E) : (a >>= f).Fails E := by
  intro journal e he
  rw [bind_apply] at he
  rcases hrun : a journal with ⟨r, after⟩
  rw [hrun] at he
  cases r with
  | error e' =>
      cases he
      exact ha journal e (by rw [hrun])
  | ok x => exact hf x journal (by rw [hrun]) after e he

theorem Fails.bind_ofExcept {f : ε → ε'} {x : Except ε α} {g : α → Action ε' β}
    (hx : ∀ e, x = .error e → E' (f e)) (hg : ∀ a, (g a).Fails E') :
    (Action.ofExcept f x >>= g).Fails E' :=
  Fails.bind (Fails.ofExcept hx) fun a _ _ => hg a

theorem Fails.bind_inView {f : Journal → Except ε α} {g : α → Action ε β}
    (hf : ∀ journal e, f journal = .error e → E e) (hg : ∀ a, (g a).Fails E) :
    (Action.inView f >>= g).Fails E :=
  Fails.bind hf fun a _ _ => hg a

theorem Fails.bind_record {event : Event} {g : Unit → Action ε β} (hg : (g ()).Fails E) :
    (Action.record event >>= g).Fails E :=
  Fails.bind (Fails.record event) fun _ _ _ => hg

end Fails

/-! ## What an action ends in -/

/-- What the action ends in where nothing has happened before. -/
def outcome (a : Action ε α) : Except ε α := (a {}).1

/-- The action ends in the same whatever has happened before. -/
def Steady (a : Action ε α) : Prop := ∀ journal, (a journal).1 = a.outcome

theorem Steady.outcome_eq {a : Action ε α} (h : a.Steady) {r : Except ε α}
    {journal after : Journal} (hrun : a journal = (r, after)) : a.outcome = r := by
  rw [← h journal, hrun]

theorem Steady.fst_eq {a : Action ε α} (h : a.Steady) {r : Except ε α} (hr : a.outcome = r)
    (journal : Journal) : (a journal).1 = r := (h journal).trans hr

theorem outcome_ofExcept (f : ε → ε') (x : Except ε α) :
    (Action.ofExcept f x).outcome = x.mapError f := by
  cases x <;> rfl

theorem outcome_mapError (f : ε → ε') (a : Action ε α) :
    (a.mapError f).outcome = a.outcome.mapError f := mapError_fst f a {}

theorem Steady.bind_fst {a : Action ε α} {f : α → Action ε β} (ha : a.Steady)
    (hf : ∀ x, (f x).Steady) (journal : Journal) :
    ((a >>= f) journal).1 = a.outcome >>= fun x => (f x).outcome := by
  rw [bind_apply, ← ha journal]
  rcases a journal with ⟨r, after⟩
  cases r with
  | error e => rfl
  | ok x => exact hf x after

/-- Where steady actions follow each other, the second one goes on from what the first one
always ends in. -/
theorem outcome_bind {a : Action ε α} {f : α → Action ε β} (ha : a.Steady)
    (hf : ∀ x, (f x).Steady) :
    (a >>= f).outcome = a.outcome >>= fun x => (f x).outcome := ha.bind_fst hf {}

theorem outcome_bind_eq_ok_iff {a : Action ε α} {f : α → Action ε β} {y : β} (ha : a.Steady)
    (hf : ∀ x, (f x).Steady) :
    (a >>= f).outcome = .ok y ↔ ∃ x, a.outcome = .ok x ∧ (f x).outcome = .ok y := by
  rw [outcome_bind ha hf, bind_ok_iff]

theorem outcome_ofExcept_eq_ok_iff {f : ε → ε'} {x : Except ε α} {a : α} :
    (Action.ofExcept f x).outcome = .ok a ↔ x = .ok a := by
  rw [outcome_ofExcept, mapError_ok_iff]

theorem outcome_mapError_eq_ok_iff {f : ε → ε'} {a : Action ε α} {x : α} :
    (a.mapError f).outcome = .ok x ↔ a.outcome = .ok x := by
  rw [outcome_mapError, mapError_ok_iff]

/-- What comes next decides the outcome through its own outcomes. -/
theorem outcome_bind_congr {a : Action ε α} {f g : α → Action ε β} (ha : a.Steady)
    (hf : ∀ x, (f x).Steady) (hg : ∀ x, (g x).Steady) (h : ∀ x, (f x).outcome = (g x).outcome) :
    (a >>= f).outcome = (a >>= g).outcome := by
  rw [outcome_bind ha hf, outcome_bind ha hg]
  exact congrArg _ (funext h)

theorem Steady.pure (x : α) : (Pure.pure x : Action ε α).Steady := fun _ => rfl

theorem Steady.throw (e : ε) : (MonadExcept.throw e : Action ε α).Steady := fun _ => rfl

theorem Steady.ofExcept (f : ε → ε') (x : Except ε α) : (Action.ofExcept f x).Steady := by
  intro journal
  cases x <;> rfl

theorem Steady.inView {f : Journal → Except ε α} (h : ∀ journal, f journal = f {}) :
    (Action.inView f).Steady := h

theorem Steady.record (event : Event) : (Action.record event : Action ε Unit).Steady :=
  fun _ => rfl

/-- An entry of the journal does not change how it ends. -/
theorem outcome_bind_record {event : Event} {f : Unit → Action ε β} (h : (f ()).Steady) :
    (Action.record event >>= f).outcome = (f ()).outcome := h _

theorem Steady.mapError {f : ε → ε'} {a : Action ε α} (h : a.Steady) :
    (a.mapError f).Steady := by
  intro journal
  rw [mapError_fst, h journal, outcome_mapError]

theorem Steady.attempt {a : Action ε α} (h : a.Steady) :
    (a.attempt : Action ε' (Except ε α)).Steady := by
  intro journal
  show Except.ok (a journal).1 = _
  rw [h journal]
  rfl

theorem Steady.bind {a : Action ε α} {f : α → Action ε β} (ha : a.Steady)
    (hf : ∀ x, (f x).Steady) : (a >>= f).Steady := by
  intro journal
  rw [ha.bind_fst hf, outcome_bind ha hf]

end Action

end HttpSuite
