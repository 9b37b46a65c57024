import PacketCache.Reading

namespace PacketCache.Awaiting

open PacketCache.Reading PacketCache.Subscriber

variable {α : Type} {s s' : State α} {index : Nat} {position : OnReadDone α}

theorem await_step {event : Event α} (hstep : step s event = some s') :
    isAwaiting event = true ∧ stepAwait s = some s' ∨
      isAwaiting event = false ∧ s'.await = s.await ∧
        (s.mTryCancel = true → s'.mTryCancel = true) := by
  cases event with
  | readDone result =>
    rw [step] at hstep
    split at hstep
    · cases hstep
    · obtain rfl := Option.some.inj hstep
      exact Or.inr ⟨rfl, rfl, id⟩
  | onDone status =>
    rw [step] at hstep
    split at hstep
    · obtain rfl := Option.some.inj hstep
      exact Or.inr ⟨rfl, rfl, id⟩
    · cases hstep
  | reaction index =>
    obtain ⟨position, _, rfl⟩ := Option.map_eq_some_iff.mp hstep
    exact Or.inr ⟨rfl, stepReaction_await, stepReaction_frame.2.2.2.2⟩
  | awaiting => exact Or.inl ⟨rfl, hstep⟩
  | stop =>
    obtain rfl := Option.some.inj hstep
    exact Or.inr ⟨rfl, rfl, id⟩

section Stopped

def readable (s : State α) : Nat :=
  s.reads.length + s.outstandingReads + s.reactions.countP isStarting

theorem readable_le (h : Sound s) : readable s ≤ s.reads.length + 1 := by
  have hone : s.reactions.countP isStarting ≤ s.reactions.length := List.countP_le_length
  have hlen := h.single.single
  rw [readable]
  omega

theorem readable_step (h : Sound s) (hk : s.mKeepRunning = false) (event : Event α)
    (hstep : step s event = some s') : readable s' ≤ readable s := by
  cases event with
  | readDone result =>
    rw [step] at hstep
    split at hstep
    · cases hstep
    · rename_i hopen
      obtain ⟨ho, _⟩ := not_or.mp hopen
      obtain rfl := Option.some.inj hstep
      simp [readable]
      omega
  | onDone status =>
    rw [step] at hstep
    split at hstep
    · obtain rfl := Option.some.inj hstep
      exact le_rfl
    · cases hstep
  | reaction index =>
    obtain ⟨position, hp, rfl⟩ := Option.map_eq_some_iff.mp hstep
    obtain ⟨rfl, hr, ho, _⟩ := h.single.reaction hp
    cases position with
    | entered result => cases result <;> simp [readable, stepReaction, hr]
    | loadTryCancel => cases ht : s.mTryCancel <;> simp [readable, stepReaction, hr, ht]
    | loadKeepRunning ok => simp [readable, stepReaction, hr, hk]
    | callback packet | storeTryCancel | tryCancel | startRead =>
      simp [readable, stepReaction, hr, Nat.add_assoc]
  | awaiting =>
    obtain ⟨_, _, _, rfl⟩ := stepAwait_frame hstep
    exact le_rfl
  | stop =>
    obtain rfl := Option.some.inj hstep
    exact le_rfl

def stepsToCancel : Await → Nat
  | .wait => 5
  | .testDone => 4
  | .loadKeepRunning => 3
  | .loadTryCancel => 2
  | .storeTryCancel => 1
  | .tryCancel | .returned _ _ => 0

def stepsToReturn : Await → Nat
  | .loadKeepRunning => 6
  | .loadTryCancel => 5
  | .storeTryCancel => 4
  | .tryCancel => 3
  | .wait => 2
  | .testDone => 1
  | .returned _ _ => 0

theorem stepAwait_hasReturned (h : s.await.hasReturned) : stepAwait s = none := by
  obtain ⟨status, had, h⟩ := h
  rw [stepAwait, h]

theorem stepAwait_tried (ht : s.mTryCancel = true) (hstep : stepAwait s = some s') :
    s'.mTryCancel = true := by
  rw [stepAwait] at hstep
  split at hstep
  iterate 3 split at hstep <;> obtain rfl := Option.some.inj hstep <;> exact ht
  · obtain rfl := Option.some.inj hstep
    rfl
  iterate 2
    obtain rfl := Option.some.inj hstep
    exact ht
  cases hstep

def Ends (s : State α) : Prop := s.mTryCancel = true ∨ s.await.hasReturned

theorem hasReturned_step {event : Event α} (hstep : step s event = some s')
    (h : s.await.hasReturned) : s'.await.hasReturned := by
  obtain ⟨_, hawait⟩ | ⟨_, hawait, _⟩ := await_step hstep
  · rw [stepAwait_hasReturned h] at hawait
    cases hawait
  · exact hawait ▸ h

theorem Ends.step {event : Event α} (hstep : Reading.step s event = some s') (h : Ends s) :
    Ends s' := by
  cases h with
  | inl ht =>
    obtain ⟨_, hawait⟩ | ⟨_, _, hkeep⟩ := await_step hstep
    · exact Or.inl (stepAwait_tried ht hawait)
    · exact Or.inl (hkeep ht)
  | inr hreturned => exact Or.inr (hasReturned_step hstep hreturned)

theorem stepAwait_toCancel (h : Sound s) (hk : s.mKeepRunning = false)
    (hstep : stepAwait s = some s') :
    Ends s' ∨ stepsToCancel s'.await + 1 ≤ stepsToCancel s.await := by
  rw [stepAwait] at hstep
  split at hstep <;> rename_i hawait
  · split at hstep <;> obtain rfl := Option.some.inj hstep
    · exact Or.inl (Or.inr ⟨_, _, rfl⟩)
    · exact Or.inr (by simp [stepsToCancel, hawait])
  · obtain rfl := Option.some.inj (by simpa [hk] using hstep)
    exact Or.inr (by simp [stepsToCancel, hawait])
  · split at hstep <;> rename_i ht <;> obtain rfl := Option.some.inj hstep
    · exact Or.inr (by simp [stepsToCancel, hawait])
    · exact Or.inl (Or.inl (by simpa using ht))
  · obtain rfl := Option.some.inj hstep
    exact Or.inl (Or.inl rfl)
  · obtain rfl := Option.some.inj hstep
    exact Or.inl (Or.inl (by
      by_contra ht
      exact (h.cancels.untried (Bool.not_eq_true _ ▸ ht)).2.2 hawait))
  · obtain rfl := Option.some.inj hstep
    exact Or.inr (by simp [stepsToCancel, hawait])
  · cases hstep

theorem stepAwait_toReturn (hd : s.mDone = true) (hstep : stepAwait s = some s') :
    stepsToReturn s'.await + 1 ≤ stepsToReturn s.await := by
  rw [stepAwait] at hstep
  split at hstep <;> rename_i hawait
  · obtain rfl := Option.some.inj (by simpa [hd] using hstep)
    simp [stepsToReturn, hawait]
  iterate 2
    split at hstep <;> obtain rfl := Option.some.inj hstep <;> simp [stepsToReturn, hawait]
  iterate 3
    obtain rfl := Option.some.inj hstep
    simp [stepsToReturn, hawait]
  cases hstep

def After (event : Event α) : State α → Prop := Transitions.After step {} (event ∈ ·)

theorem After.step {event later : Event α} (h : After event s)
    (hstep : Reading.step s later = some s') : After event s' :=
  Transitions.After.next (fun _ _ hm => List.mem_append_left _ hm) h hstep

theorem After.stopped (h : After .stop s) : s.mKeepRunning = false := by
  obtain ⟨events, hrun, hm⟩ := h
  rw [(Recorded.run hrun).keepRunning, List.any_eq_true.mpr ⟨.stop, hm, rfl⟩]
  rfl

theorem After.done {status : StatusCode} (h : After (.onDone status) s) : s.mDone = true := by
  obtain ⟨events, hrun, hm⟩ := h
  exact (((Recorded.run hrun).status status).mp hm).1

theorem After.sound {event : Event α} (h : After event s) : Sound s := by
  obtain ⟨events, hrun, _⟩ := h
  exact Sound.run hrun

variable {events : List (Event α)}

theorem readable_run (h : After .stop s) (hrun : Transitions.run step s events = some s') :
    readable s' ≤ readable s :=
  (Transitions.run_invariant (I := fun t => After .stop t ∧ readable t ≤ readable s)
    (fun _ event _ ht hstep => ⟨ht.1.step hstep,
      (readable_step ht.1.sound ht.1.stopped event hstep).trans ht.2⟩) ⟨h, le_rfl⟩ hrun).2

theorem ends_run (h : After .stop s) (hrun : Transitions.run step s events = some s')
    (hcount : 5 ≤ events.countP isAwaiting) : Ends s' := by
  have hfive : stepsToCancel s.await ≤ 5 := by cases s.await <;> simp [stepsToCancel]
  refine Transitions.reached_of_rank (I := After .stop) isAwaiting Ends
    (fun t => stepsToCancel t.await)
    (fun _ _ _ ht hstep => ⟨ht.step hstep, Ends.step hstep⟩) (fun t event t' ht hstep => ?_)
    (fun t ht hzero => ?_) h hrun (hfive.trans hcount)
  · obtain ⟨hc, hawait⟩ | ⟨hc, hawait, _⟩ := await_step hstep
    · simpa [hc] using stepAwait_toCancel ht.sound ht.stopped hawait
    · simp [hc, hawait]
  · cases hawait : t.await with
    | returned status had => exact Or.inr ⟨status, had, hawait⟩
    | tryCancel =>
      left
      by_contra hf
      exact (ht.sound.cancels.untried (Bool.not_eq_true _ ▸ hf)).2.2 hawait
    | testDone | loadKeepRunning | loadTryCancel | storeTryCancel | wait =>
      simp [hawait, stepsToCancel] at hzero

theorem hasReturned_run {status : StatusCode} (h : After (.onDone status) s)
    (hrun : Transitions.run step s events = some s') (hcount : 6 ≤ events.countP isAwaiting) :
    s'.await.hasReturned := by
  have hsix : stepsToReturn s.await ≤ 6 := by cases s.await <;> simp [stepsToReturn]
  refine Transitions.reached_of_rank (I := After (.onDone status)) isAwaiting
    (fun t => t.await.hasReturned) (fun t => stepsToReturn t.await)
    (fun _ _ _ ht hstep => ⟨ht.step hstep, hasReturned_step hstep⟩)
    (fun t event t' ht hstep => Or.inr ?_) (fun t ht hzero => ?_) h hrun (hsix.trans hcount)
  · obtain ⟨hc, hawait⟩ | ⟨hc, hawait, _⟩ := await_step hstep
    · simpa [hc] using stepAwait_toReturn ht.done hawait
    · simp [hc, hawait]
  · cases hawait : t.await with
    | returned returned had => exact ⟨returned, had, rfl⟩
    | testDone | loadKeepRunning | loadTryCancel | storeTryCancel | tryCancel | wait =>
      simp [hawait, stepsToReturn] at hzero

theorem after_of_run {before after : List (Event α)} {event : Event α}
    (hrun : run (before ++ event :: after) = some s) :
    ∃ mid, run (before ++ [event]) = some mid ∧ After event mid ∧
      Transitions.run step mid after = some s := by
  rw [List.append_cons] at hrun
  obtain ⟨mid, hmid, hafter⟩ := Transitions.run_append.mp hrun
  exact ⟨mid, hmid, ⟨_, hmid, by simp⟩, hafter⟩

end Stopped

theorem hadSuccessfulRead_attempt (events : List (Event α)) (status : StatusCode) :
    (attempt events status).hadSuccessfulRead = (results events).any Option.isSome := by
  have hfold : ∀ (reads : List Bool) (had : Bool),
      reads.foldl onReadDone had = (had || reads.any id) := by
    intro reads
    induction reads with
    | nil => simp
    | cons ok reads ih => cases ok <;> simp [ih, onReadDone]
  simp [Attempt.hadSuccessfulRead, attempt, hfold]

/-- The callback gets the packets that are read, in their order and one at a time, whatever
the threads do. Within six steps after `OnDone`, `await` returns with its status, all the
packets have been given to the callback, and the result is what the loop over the attempts
takes it to be. -/
theorem await_result {events : List (Event α)} {s : State α} (hrun : run events = some s) :
    s.reactions.length + s.outstandingReads ≤ 1 ∧
      (∃ inHand : List α, inHand.length ≤ 1 ∧
        (results events).filterMap id = s.delivered ++ inHand) ∧
      (∀ status had, s.await = .returned status had → .onDone status ∈ events ∧
        s.delivered = (results events).filterMap id ∧
        had = (attempt events status).hadSuccessfulRead ∧
        s.mKeepRunning = !(attempt events status).stopInCall) ∧
      ∀ before status after, events = before ++ .onDone status :: after →
        6 ≤ after.countP isAwaiting → ∃ had, s.await = .returned status had := by
  have hsound := Sound.run hrun
  have hrecorded := Recorded.run hrun
  have hdelivered := hsound.delivers.delivered
  rw [hrecorded.reads] at hdelivered
  refine ⟨hsound.single.single, ⟨_, flatMap_undelivered_length ?_, hdelivered⟩, ?_, ?_⟩
  · exact (Nat.le_add_right _ _).trans hsound.single.single
  · intro status had hreturned
    obtain ⟨hd, rfl, rfl⟩ := hsound.returns status had hreturned
    have hnone := (hsound.single.finished hd).1
    have hhad := hsound.delivers.had
    rw [hnone] at hdelivered hhad
    refine ⟨(hrecorded.status _).mpr ⟨hd, rfl⟩, by simpa using hdelivered.symm, ?_,
      hrecorded.keepRunning⟩
    rw [hadSuccessfulRead_attempt, ← hrecorded.reads, hhad]
    simp
  · rintro before status after rfl hcount
    obtain ⟨mid, _, hmid, hafter⟩ := after_of_run hrun
    obtain ⟨returned, had, hreturned⟩ := hasReturned_run hmid hafter hcount
    have hstatus := (hrecorded.status status).mp (by simp)
    obtain ⟨_, rfl, _⟩ := hsound.returns returned had hreturned
    exact ⟨had, hstatus.2 ▸ hreturned⟩

def bothCancel : List (Event ℕ) :=
  [.readDone (some 7), .reaction 0, .reaction 0, .stop, .reaction 0, .awaiting, .awaiting,
    .awaiting, .reaction 0, .reaction 0, .reaction 0, .awaiting, .awaiting, .onDone .cancelled,
    .awaiting, .awaiting]

theorem await_result_bothCancel : ∃ s, run bothCancel = some s ∧
    s.await = .returned .cancelled true ∧ s.delivered = [7] ∧
    (attempt bothCancel .cancelled).hadSuccessfulRead = true := by
  refine ⟨_, rfl, rfl, ?_, ?_⟩
  · exact ((@await_result _ bothCancel _ rfl).2.2.1 _ _ rfl).2.1
  · exact ((@await_result _ bothCancel _ rfl).2.2.1 _ _ rfl).2.2.1.symm

/-- The call is cancelled at most twice, and only for a stop. Once a stop is requested, at
most one more read is over, and after five steps of `await` the call has been cancelled, or
`TryCancel` is the next step of one of the threads, or `await` has returned. -/
theorem stop_cancels {events : List (Event α)} {s : State α} (hrun : run events = some s) :
    s.cancels ≤ 2 ∧ (0 < s.cancels → .stop ∈ events) ∧
      ∀ before after, events = before ++ .stop :: after →
        (results after).length ≤ 1 ∧
        (5 ≤ after.countP isAwaiting → 0 < s.cancels ∨ s.reactions.any isTrying = true ∨
          s.await = .tryCancel ∨ s.await.hasReturned) := by
  have hsound := Sound.run hrun
  have hrecorded := Recorded.run hrun
  refine ⟨?_, fun hcancelled => ?_, ?_⟩
  · have hcancels := hsound.cancels.cancels
    omega
  · have hset : s.mTryCancel = true := by
      by_contra ht
      have hzero := (hsound.cancels.untried (Bool.not_eq_true _ ▸ ht)).1
      omega
    have hstopped : s.mKeepRunning = false := by
      by_contra hk
      have hunset := (hsound.keeps (Bool.not_eq_false _ ▸ hk)).1
      simp [hset] at hunset
    rw [hrecorded.keepRunning] at hstopped
    obtain ⟨event, hm, hstop⟩ := List.any_eq_true.mp (by simpa using hstopped)
    cases event with
    | stop => exact hm
    | readDone result | onDone status | reaction index | awaiting => cases hstop
  · rintro before after rfl
    obtain ⟨mid, hbefore, hmid, hafter⟩ := after_of_run hrun
    refine ⟨?_, fun hcount => ?_⟩
    · have hreadable := readable_run hmid hafter
      have hmore := readable_le hmid.sound
      have hreads := congrArg List.length hrecorded.reads
      have hearlier := congrArg List.length (Recorded.run hbefore).reads
      simp only [readable, results, List.filterMap_append, List.filterMap_cons,
        List.filterMap_nil, List.length_append, List.length_nil] at hreadable hmore hreads hearlier ⊢
      omega
    · cases ends_run hmid hafter hcount with
      | inl hset =>
        obtain hc | hr | ha := hsound.cancels.tried hset
        · exact Or.inl hc
        · exact Or.inr (Or.inl hr)
        · exact Or.inr (Or.inr (Or.inl ha))
      | inr hreturned => exact Or.inr (Or.inr (Or.inr hreturned))

theorem stop_cancels_bothCancel : ∃ s, run bothCancel = some s ∧ s.cancels = 2 ∧
    .stop ∈ bothCancel ∧ (results (bothCancel.drop 4)).length ≤ 1 := by
  refine ⟨_, rfl, rfl, (@stop_cancels _ bothCancel _ rfl).2.1 (by decide), ?_⟩
  exact ((@stop_cancels _ bothCancel _ rfl).2.2 (bothCancel.take 3) (bothCancel.drop 4) rfl).1

end PacketCache.Awaiting
