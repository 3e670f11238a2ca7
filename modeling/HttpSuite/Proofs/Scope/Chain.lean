import HttpSuite.Proofs.Scope.Conflict

/-!
# Chains that share their frames

A chain searches its frames from the innermost one outwards, and is flattened from the outermost
one inwards, where what comes later replaces what was there. The two agree on a chain that came
about by pushes because a push is, on the flattened scope, a merge that may refuse
(`map_materialize_push`): no name is ever bound twice, so nothing is replaced, and it does not
matter from which end a name is looked for.

A chain is a value here, so that nothing can happen to it. What the chains of siblings have in
common are their frames, which exist once and are reached by way of the frame above. For that
reason pushes are followed in a store of all frames as well: what a push adds lies above
everything that was there, and no chain that was there leads to it (`Shows.pushAll`).
-/

namespace HttpSuite

theorem Scope.firstRepeated?_append_eq_find? {names seen taken : List String} (hn : names.Nodup)
    (hseen : ∀ name ∈ names, name ∉ seen) :
    firstRepeated? (seen ++ taken) names = names.find? taken.contains := by
  induction names generalizing seen with
  | nil => rfl
  | cons name names ih =>
      obtain ⟨hhead, htail⟩ := List.nodup_cons.mp hn
      have hname : (seen ++ taken).contains name = taken.contains name := by
        simp [hseen name List.mem_cons_self]
      have hrest : ∀ other ∈ names, other ∉ name :: seen := by
        intro other hother hmem
        rcases List.mem_cons.mp hmem with rfl | hmem
        · exact hhead hother
        · exact hseen other (List.mem_cons_of_mem _ hother) hmem
      rw [firstRepeated?, List.find?_cons, hname]
      cases taken.contains name with
      | true => rfl
      | false => exact ih htail hrest

/-- Among names that come once, a search finds the first that is taken. -/
theorem Scope.firstRepeated?_eq_find? {names taken : List String} (hn : names.Nodup) :
    firstRepeated? taken names = names.find? taken.contains :=
  firstRepeated?_append_eq_find? hn fun _ _ => List.not_mem_nil

namespace ScopeChain

variable {chain pushed : ScopeChain} {vars : Scope}

/-- The chain came about by pushes, on the empty chain or on a root. -/
inductive Stacked : ScopeChain → Prop
  | empty : Stacked .empty
  | root (vars : Scope) : Stacked (.root vars)
  | push {chain pushed : ScopeChain} {vars : Scope} (h : Stacked chain)
      (hpush : chain.push vars = .ok pushed) : Stacked pushed

/-! ## Pushes and merges -/

theorem firstConflict?_materialize (chain : ScopeChain) (vars : Scope) :
    chain.materialize.firstConflict? [vars] = vars.keys.find? chain.contains := by
  rw [Scope.firstConflict?_singleton, Scope.firstRepeated?_eq_find? vars.nodup_keys]
  refine congrArg (fun p => vars.keys.find? p) (funext fun name => Bool.eq_iff_iff.mpr ?_)
  rw [contains_iff, List.contains_iff_mem]

/-- A push is a merge that may refuse, with the same words for a refusal. -/
theorem map_materialize_push (chain : ScopeChain) (vars : Scope) :
    (chain.push vars).map materialize = chain.materialize.merge .conflict [vars] := by
  unfold push Scope.merge
  dsimp only
  rw [firstConflict?_materialize]
  cases vars.keys.find? chain.contains with
  | some name => rfl
  | none =>
      show Except.ok (materialize ⟨vars :: chain.frames⟩) = _
      rw [materialize_push, List.foldl_cons, List.foldl_nil,
        Scope.mergeSource_eq_extend (Or.inr rfl)]

theorem push_eq_error_iff_isConflict :
    (∃ fault, chain.push vars = .error fault) ↔ chain.materialize.isConflict [vars] = true := by
  unfold Scope.isConflict push
  rw [firstConflict?_materialize]
  cases vars.keys.find? chain.contains <;> simp

/-- From the outermost frame on, the frames are merged without a conflict. -/
theorem Stacked.merge_frames (h : Stacked chain) :
    Scope.merge .conflict .empty chain.frames.reverse = .ok chain.materialize := by
  rw [← Scope.foldlM_merge_conflict_eq_ok_iff]
  induction h with
  | empty => rfl
  | root vars =>
      refine bind_ok_iff.mpr ⟨materialize (.root vars), ?_, rfl⟩
      exact Scope.merge_conflict_ok_iff.mpr ⟨fun _ _ => nofun, rfl⟩
  | @push chain pushed vars h hpush ih =>
      have hmerged := map_materialize_push chain vars
      rw [hpush] at hmerged
      obtain ⟨-, rfl⟩ := push_ok_iff.mp hpush
      rw [List.reverse_cons, List.foldlM_append, bind_ok_iff]
      exact ⟨chain.materialize, ih, bind_ok_iff.mpr ⟨_, hmerged.symm, rfl⟩⟩

theorem Stacked.toList_materialize (h : Stacked chain) :
    chain.materialize.toList = chain.frames.reverse.flatMap OrderedMap.toList :=
  (Scope.merge_conflict_eq_ok_iff.mp h.merge_frames).2

/-- No two frames bind a name. -/
theorem Stacked.pairwise_disjoint (h : Stacked chain) :
    chain.frames.Pairwise fun newer older => newer.keys.Disjoint older.keys := by
  obtain ⟨hnodup, -⟩ := Scope.merge_conflict_eq_ok_iff.mp h.merge_frames
  have hkeys : (chain.frames.reverse.flatMap OrderedMap.keys).Nodup := hnodup
  have hpairs := List.pairwise_reverse.mp (List.nodup_flatMap.mp hkeys).2
  exact hpairs.imp List.disjoint_comm.mp

end ScopeChain

/-! ## Shared frames -/

/-- A frame that chains may have in common. -/
structure SharedFrame where
  /-- What it binds. -/
  vars : Scope
  /-- The place of the frame below it. -/
  below : Option Nat

/-- The frames of all chains, the newest first. The place of a frame is how many are older. -/
abbrev FrameStore := List SharedFrame

namespace FrameStore

/-- The frames from a place downwards. -/
def framesFrom : FrameStore → Option Nat → List Scope
  | _, none => []
  | [], some _ => []
  | frame :: older, some place =>
    if place = older.length then frame.vars :: framesFrom older frame.below
    else framesFrom older (some place)

/-- The chain whose innermost frame is at a place; without one it is the empty chain. -/
def chain (store : FrameStore) (head : Option Nat) : ScopeChain := ⟨framesFrom store head⟩

/-- The chain is in the store, with its innermost frame at this place. -/
def Shows (store : FrameStore) (head : Option Nat) (held : ScopeChain) : Prop :=
  (∀ place ∈ head, place < store.length) ∧ chain store head = held

/-- Pushes a frame and tells its place. The state is what is in the store, also behind an error. -/
def push (head : Option Nat) (vars : Scope) :
    EStateM VariableError FrameStore (Option Nat) := do
  let store ← get
  if let some name := vars.keys.find? (chain store head).contains then
    throw (.conflict name)
  set (⟨vars, head⟩ :: store : FrameStore)
  return some store.length

/-- What is in a store behind pushes on any of its chains, whether they are refused or not. -/
def pushAll : (store : FrameStore) → List (Option Nat × Scope) → FrameStore
  | store, [] => store
  | store, (head, vars) :: pushes =>
    match (push head vars).run store with
    | .ok _ grown => pushAll grown pushes
    | .error _ left => pushAll left pushes

variable {store : FrameStore} {head : Option Nat} {held pushed : ScopeChain} {vars : Scope}

/-- A push in a store comes to the same as one on the chain, and behind an error what was there is
left. -/
theorem run_push (store : FrameStore) (head : Option Nat) (vars : Scope) :
    (push head vars).run store
      = match (chain store head).push vars with
        | .ok _ => .ok (some store.length) (⟨vars, head⟩ :: store)
        | .error fault => .error fault store := by
  unfold push ScopeChain.push
  simp only [EStateM.run_bind, EStateM.run_get]
  cases vars.keys.find? (chain store head).contains <;> rfl

/-- A frame that is added shows up on top of the chain that it was put on. -/
theorem shows_cons_self (store : FrameStore) (frame : SharedFrame) :
    Shows (frame :: store) (some store.length)
      ⟨frame.vars :: (chain store frame.below).frames⟩ := by
  constructor
  · rintro place ⟨⟩
    exact Nat.lt_succ_self _
  · unfold chain
    rw [framesFrom, if_pos rfl]

/-- No place that was taken leads to a new frame. -/
theorem Shows.cons (h : Shows store head held) (frame : SharedFrame) :
    Shows (frame :: store) head held := by
  obtain ⟨hplaces, rfl⟩ := h
  cases head with
  | none => exact ⟨nofun, by cases store <;> rfl⟩
  | some place =>
      have hplace := hplaces place rfl
      refine ⟨fun other hother => Nat.lt_succ_of_lt (hplaces other hother), ?_⟩
      unfold chain
      rw [framesFrom, if_neg (Nat.ne_of_lt hplace)]

theorem Shows.push_ok (h : Shows store head held) (hpush : held.push vars = .ok pushed) :
    ∃ new grown, (push head vars).run store = .ok new grown ∧ Shows grown new pushed := by
  obtain ⟨-, rfl⟩ := h
  obtain ⟨-, rfl⟩ := ScopeChain.push_ok_iff.mp hpush
  exact ⟨some store.length, ⟨vars, head⟩ :: store, by rw [run_push, hpush],
    shows_cons_self store ⟨vars, head⟩⟩

theorem Shows.push_error {fault : VariableError} (h : Shows store head held)
    (hpush : held.push vars = .error fault) :
    (push head vars).run store = .error fault store := by
  obtain ⟨-, rfl⟩ := h
  rw [run_push, hpush]

/-- Whatever is pushed on whichever chains, a chain that is in a store stays as it is. -/
theorem Shows.pushAll (h : Shows store head held) (pushes : List (Option Nat × Scope)) :
    Shows (pushAll store pushes) head held := by
  induction pushes generalizing store with
  | nil => exact h
  | cons p pushes ih =>
      rw [FrameStore.pushAll, run_push]
      cases (chain store p.1).push p.2 with
      | ok pushed => exact ih (h.cons _)
      | error fault => exact ih h

/-- Every chain can be put into a store. -/
theorem exists_shows (held : ScopeChain) : ∃ store head, Shows store head held := by
  obtain ⟨frames⟩ := held
  induction frames with
  | nil => exact ⟨[], none, nofun, rfl⟩
  | cons vars frames ih =>
      obtain ⟨store, head, -, hchain⟩ := ih
      have hshows := shows_cons_self store ⟨vars, head⟩
      rw [hchain] at hshows
      exact ⟨⟨vars, head⟩ :: store, some store.length, hshows⟩

end FrameStore

namespace ScopeChain

/-- A chain that came about by pushes binds no name in two frames. It answers like the scope that
it flattens to, which lists the bindings of all frames from the outermost one on, each in its own
order. A push on it is refused exactly if that scope is in conflict with what is pushed; then
everything is left as it was, and in any case this and all other chains that share frames stay as
they were, whatever is pushed on any of them. -/
theorem stacked_agrees {chain : ScopeChain} (h : Stacked chain) :
    (chain.frames.Pairwise fun newer older => newer.keys.Disjoint older.keys)
      ∧ (∀ name, chain.get? name = chain.materialize.get? name)
      ∧ chain.materialize.toList = chain.frames.reverse.flatMap OrderedMap.toList
      ∧ (∀ vars, (∃ fault, chain.push vars = .error fault)
        ↔ chain.materialize.isConflict [vars] = true)
      ∧ (∃ store head, FrameStore.Shows store head chain)
      ∧ ∀ store head, FrameStore.Shows store head chain →
        (∀ vars fault, chain.push vars = .error fault →
          (FrameStore.push head vars).run store = .error fault store)
        ∧ (∀ vars pushed, chain.push vars = .ok pushed →
          ∃ new grown, (FrameStore.push head vars).run store = .ok new grown
            ∧ FrameStore.Shows grown new pushed)
        ∧ ∀ pushes other held, FrameStore.Shows store other held →
          FrameStore.Shows (FrameStore.pushAll store pushes) other held := by
  refine ⟨h.pairwise_disjoint, fun name => (get?_materialize chain name).symm,
    h.toList_materialize, fun vars => push_eq_error_iff_isConflict,
    FrameStore.exists_shows chain, fun store head hshows => ⟨?_, ?_, ?_⟩⟩
  · exact fun vars fault hpush => hshows.push_error hpush
  · exact fun vars pushed hpush => hshows.push_ok hpush
  · exact fun pushes other held hheld => hheld.pushAll pushes

/-- A host, and a token in the frame above it. -/
def hostAndToken : ScopeChain where
  frames := [.ofList [("token", .string "t0k3n")], .ofList [("host", .string "localhost")]]

/-- A port, and again a host. -/
def portAndHost : Scope := .ofList [("port", .ofNat 8080), ("host", .string "example.org")]

theorem stacked_agrees_token :
    hostAndToken.Stacked
      ∧ hostAndToken.get? "host" = hostAndToken.materialize.get? "host"
      ∧ hostAndToken.materialize.toList
        = [("host", .string "localhost"), ("token", .string "t0k3n")]
      ∧ ∃ fault store head, FrameStore.Shows store head hostAndToken
        ∧ (FrameStore.push head portAndHost).run store = .error fault store := by
  have hpush : (root (.ofList [("host", .string "localhost")])).push
      (.ofList [("token", .string "t0k3n")]) = .ok hostAndToken := rfl
  have hstacked : hostAndToken.Stacked := .push (.root _) hpush
  obtain ⟨-, hget, hlist, hconflict, ⟨store, head, hshows⟩, hstore⟩ := stacked_agrees hstacked
  obtain ⟨fault, hrefused⟩ := (hconflict portAndHost).mpr (by decide)
  exact ⟨hstacked, hget "host", hlist, fault, store, head, hshows,
    (hstore store head hshows).1 portAndHost fault hrefused⟩

end ScopeChain

end HttpSuite
