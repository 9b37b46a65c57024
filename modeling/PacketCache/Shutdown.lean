import PacketCache.Lifecycle

namespace PacketCache.Shutdown

open PacketCache.Lifecycle

variable {s s' : State} {event : Event} {events : List Event} {thread : Thread}
variable {futures futures' : Thread → Future}

section Ending

def finds (futures : Thread → Future) (rest : List Thread) (isOkay : Bool) : Bool :=
  !isOkay || rest.any (fun thread => (futures thread).outcome = some .threw)

/-- What the main thread has left to do, once there is a cause to stop and the threads end. -/
def stepsToEnd (s : State) : Nat :=
  match s.mainThread with
  | .areFuturesOkay rest isOkay => rest.length + if finds s.futures rest isOkay then 14 else 21
  | .wait => 20
  | .testInterrupted => 19
  | .stopSubscriber => 13
  | .stopThreads => 12
  | .stopService => 11
  | .stop rest => rest.length + 6
  | .destructor rest _ => rest.length + 1
  | .exited _ | .terminated => 0

def hasEnded : MainThread → Bool
  | .exited _ | .terminated => true
  | _ => false

def isMain : Event → Bool
  | .main => true
  | _ => false

theorem finds_congr (h : ∀ thread, (futures' thread).outcome = (futures thread).outcome)
    (rest : List Thread) (isOkay : Bool) : finds futures' rest isOkay = finds futures rest isOkay := by
  simp only [finds, h]

theorem finds_all (h : ∃ thread, (futures thread).outcome = some .threw) (isOkay : Bool) :
    finds futures mFuturesMap isOkay = true := by
  obtain ⟨thread, hthrew⟩ := h
  have hany : mFuturesMap.any (fun thread => (futures thread).outcome = some .threw) = true :=
    List.any_eq_true.mpr ⟨thread, by cases thread <;> decide, by simpa using hthrew⟩
  rw [finds, hany, Bool.or_true]

theorem finds_false {rest : List Thread} : finds futures rest false = true := rfl

theorem finds_cons {rest : List Thread} {isOkay : Bool}
    (h : (futures thread).outcome ≠ some .threw) :
    finds futures (thread :: rest) isOkay = finds futures rest isOkay := by
  simp [finds, h]

theorem finds_threw {rest : List Thread} {isOkay : Bool}
    (h : (futures thread).outcome = some .threw) :
    finds futures (thread :: rest) isOkay = true := by
  simp [finds, h]

theorem areFuturesOkay_stepsToEnd {rest : List Thread} {isOkay : Bool}
    (hm : s.mainThread = .areFuturesOkay rest isOkay) (hstep : stepMain s = some s') :
    stepsToEnd s' + 1 ≤ stepsToEnd s := by
  cases rest with
  | nil =>
    simp only [stepMain, hm] at hstep
    cases isOkay with
    | true =>
      obtain rfl := Option.some.inj hstep
      simp [stepsToEnd, hm, finds]
    | false =>
      obtain rfl := Option.some.inj hstep
      simp [stepsToEnd, hm, finds]
  | cons thread rest =>
    simp only [stepMain, hm] at hstep
    split at hstep
    · obtain rfl := Option.some.inj hstep
      simp only [stepsToEnd, hm, List.length_cons, finds_false, if_true]
      split <;> omega
    · split at hstep <;> rename_i ho <;> obtain rfl := Option.some.inj hstep
      · simp only [stepsToEnd, hm, List.length_cons]
        rw [finds_cons (by simp [ho])]
        exact Nat.le_of_eq (Nat.add_right_comm _ _ _)
      · simp only [stepsToEnd, hm, List.length_cons]
        rw [finds_cons (by simp [ho]), finds_congr take_outcome]
        exact Nat.le_of_eq (Nat.add_right_comm _ _ _)
      · simp only [stepsToEnd, hm, List.length_cons, finds_threw ho, finds_false, if_true]
        omega

theorem stepMain_stepsToEnd (hcause : s.HasCause) (hstep : stepMain s = some s') :
    stepsToEnd s' + 1 ≤ stepsToEnd s := by
  cases hm : s.mainThread with
  | testInterrupted =>
    simp only [stepMain, hm] at hstep
    split at hstep <;> rename_i hi <;> obtain rfl := Option.some.inj hstep
    · simp [stepsToEnd, hm]
    · have hthrew := hcause.resolve_left hi
      simp only [stepsToEnd, hm]
      rw [if_pos (finds_all hthrew true)]
      exact Nat.le_refl _
  | areFuturesOkay rest isOkay => exact areFuturesOkay_stepsToEnd hm hstep
  | wait | stopSubscriber | stopThreads | stopService =>
    simp only [stepMain, hm] at hstep
    obtain rfl := Option.some.inj hstep
    simp [stepsToEnd, hm, mFuturesMap]
  | stop rest =>
    cases rest with
    | nil =>
      simp only [stepMain, hm] at hstep
      obtain rfl := Option.some.inj hstep
      simp [stepsToEnd, hm, mFuturesMap]
    | cons thread rest =>
      simp only [stepMain, hm] at hstep
      repeat' split at hstep
      all_goals cases hstep
      all_goals simp [stepsToEnd, hm, mFuturesMap]
  | destructor rest failed =>
    cases rest with
    | nil =>
      simp only [stepMain, hm] at hstep
      obtain rfl := Option.some.inj hstep
      simp [stepsToEnd, hm]
    | cons thread rest =>
      simp only [stepMain, hm] at hstep
      repeat' split at hstep
      all_goals cases hstep
      all_goals simp [stepsToEnd, hm]
  | exited failed | terminated => simp [stepMain, hm] at hstep

theorem stepsToEnd_later (hm : s'.mainThread = s.mainThread)
    (h : ∀ thread, (s.futures thread).Later (s'.futures thread)) :
    stepsToEnd s' ≤ stepsToEnd s := by
  have hfinds : ∀ rest isOkay, finds s.futures rest isOkay = true →
      finds s'.futures rest isOkay = true := by
    intro rest isOkay hf
    simp only [finds, Bool.or_eq_true, List.any_eq_true, decide_eq_true_eq] at hf ⊢
    refine hf.imp_right (fun hany => ?_)
    obtain ⟨thread, hr, hthrew⟩ := hany
    exact ⟨thread, hr, ((h thread).outcome (by simp [hthrew])).trans hthrew⟩
  simp only [stepsToEnd, hm]
  cases s.mainThread with
  | areFuturesOkay rest isOkay =>
    by_cases hf : finds s.futures rest isOkay = true
    · simp only [hf, hfinds rest isOkay hf, if_true, Nat.le_refl]
    · simp only [hf, Bool.false_eq_true, if_false]
      split <;> omega
  | _ => exact Nat.le_refl _

theorem step_cases (hstep : step s event = some s') :
    isMain event = true ∧ stepMain s = some s' ∨
      isMain event = false ∧ s'.mainThread = s.mainThread ∧
        ∀ thread, (s.futures thread).Later (s'.futures thread) := by
  obtain ⟨_, hstep⟩ := step_eq_some.mp hstep
  cases event with
  | main => exact Or.inl ⟨rfl, hstep⟩
  | signal =>
    obtain rfl := Option.some.inj hstep
    exact Or.inr ⟨rfl, rfl, fun _ => ⟨rfl, fun _ => rfl⟩⟩
  | serverStarts =>
    obtain rfl := stepRunning_serverStarts hstep
    exact Or.inr ⟨rfl, rfl, fun _ => ⟨rfl, fun _ => rfl⟩⟩
  | serverFails =>
    obtain ⟨_, rfl⟩ := stepRunning_serverFails hstep
    exact Or.inr ⟨rfl, rfl, fun _ => ⟨rfl, fun _ => rfl⟩⟩
  | ends thread outcome =>
    obtain ⟨hnone, _, rfl⟩ := stepRunning_ends hstep
    exact Or.inr ⟨rfl, rfl, later_update hnone⟩

theorem stepsToEnd_step (hcause : s.HasCause) (hstep : step s event = some s') :
    stepsToEnd s' + (if isMain event then 1 else 0) ≤ stepsToEnd s := by
  obtain ⟨hmain, hstep⟩ | ⟨hmain, hsame, hlater⟩ := step_cases hstep
  · rw [hmain, if_pos rfl]
    exact stepMain_stepsToEnd hcause hstep
  · rw [hmain]
    exact stepsToEnd_later hsame hlater

def remaining : MainThread → List Thread
  | .areFuturesOkay rest _ | .stop rest | .destructor rest _ => rest
  | _ => []

theorem remaining_step (h : (remaining s.mainThread).length ≤ 4)
    (hstep : step s event = some s') : (remaining s'.mainThread).length ≤ 4 := by
  obtain ⟨_, hstep⟩ | ⟨_, hsame, _⟩ := step_cases hstep
  · rw [stepMain] at hstep
    repeat' split at hstep
    all_goals cases hstep
    all_goals simp_all only [remaining, mFuturesMap, List.length_cons, List.length_nil]
    all_goals omega
  · rwa [hsame]

theorem remaining_le (hrun : run events = some s) : (remaining s.mainThread).length ≤ 4 :=
  Transitions.run_invariant (I := fun s => (remaining s.mainThread).length ≤ 4)
    (fun _ _ _ h hstep => remaining_step h hstep) (by simp [remaining]) hrun

theorem stepsToEnd_le (hlen : (remaining s.mainThread).length ≤ 4) : stepsToEnd s ≤ 25 := by
  cases hm : s.mainThread with
  | areFuturesOkay rest isOkay =>
    simp only [hm, remaining] at hlen
    simp only [stepsToEnd, hm]
    split <;> omega
  | stop rest | destructor rest failed =>
    simp only [hm, remaining] at hlen
    simp only [stepsToEnd, hm]
    omega
  | _ => simp [stepsToEnd, hm]

theorem threw_of_ended (h : Sound s) (hl : isLooping s.mainThread = true)
    (hended : (s.futures thread).outcome ≠ none) :
    (s.futures thread).outcome = some .threw := by
  have hphase : phase s.mainThread = 0 := by
    cases hm : s.mainThread <;> first | rfl | simp [hm, isLooping] at hl
  obtain ⟨outcome, ho⟩ := Option.ne_none_iff_exists'.mp hended
  cases outcome with
  | returned => exact absurd ho (h.not_returned hphase thread)
  | threw => exact ho

theorem stepsToEnd_le_of_ended (h : Sound s) (hlen : (remaining s.mainThread).length ≤ 4)
    (hended : ∀ thread, (s.futures thread).outcome ≠ none) : stepsToEnd s ≤ 21 := by
  cases hm : s.mainThread with
  | areFuturesOkay rest isOkay =>
    simp only [hm, remaining] at hlen
    simp only [stepsToEnd, hm]
    cases rest with
    | nil => split <;> simp
    | cons thread rest =>
      have hthrew := threw_of_ended h (by rw [hm]; rfl) (hended thread)
      rw [finds_threw hthrew, if_pos rfl]
      omega
  | stop rest | destructor rest failed =>
    simp only [hm, remaining] at hlen
    simp only [stepsToEnd, hm]
    omega
  | _ => simp [stepsToEnd, hm]

def isCause : Event → Bool
  | .signal | .ends _ .threw => true
  | _ => false

def After (P : List Event → Prop) : State → Prop := Transitions.After step {} P

theorem After.sound {P : List Event → Prop} (h : After P s) : Sound s := by
  obtain ⟨_, hrun, _⟩ := h
  exact Sound.run hrun

theorem After.hasCause (h : After (∃ event ∈ ·, isCause event = true) s) : s.HasCause := by
  obtain ⟨events, hrun, event, hm, hcause⟩ := h
  have hrecorded := Recorded.run hrun
  cases event with
  | signal => exact Or.inl (hrecorded.interrupted.mpr hm)
  | ends thread outcome =>
    cases outcome with
    | threw => exact Or.inr ⟨thread, (hrecorded.ended thread .threw).mpr hm⟩
    | returned => cases hcause
  | serverStarts | serverFails | main => cases hcause

theorem hasCause_of_ended (h : Sound s) (hended : ∀ thread, (s.futures thread).outcome ≠ none) :
    s.HasCause := by
  cases hl : isLooping s.mainThread with
  | false => exact h.cause hl
  | true => exact Or.inr ⟨.cleanDeques, threw_of_ended h hl (hended .cleanDeques)⟩

def allEnded (events : List Event) : Prop := ∀ thread, ∃ outcome, .ends thread outcome ∈ events

theorem After.ended (h : After allEnded s) (thread : Thread) :
    (s.futures thread).outcome ≠ none := by
  obtain ⟨events, hrun, hended⟩ := h
  obtain ⟨outcome, hm⟩ := hended thread
  rw [((Recorded.run hrun).ended thread outcome).mpr hm]
  simp

theorem isOver_of_ended (h : After allEnded s) (hm : hasEnded s.mainThread = false) :
    s.isOver = false := by
  have hended := h.ended .gRPCService
  obtain ⟨events, hrun, _⟩ := h
  have hcrashed : s.crashed = false := by
    by_contra hc
    exact hended ((Recorded.run hrun).waits (Bool.not_eq_false _ ▸ hc))
  cases hmain : s.mainThread <;> simp [hmain, hasEnded, State.isOver, hcrashed] at hm ⊢

theorem not_isLooping_step (h : isLooping s.mainThread = false) (hstep : step s event = some s') :
    isLooping s'.mainThread = false := by
  obtain ⟨_, hstep⟩ | ⟨_, hsame, _⟩ := step_cases hstep
  · rw [stepMain] at hstep
    repeat' split at hstep
    all_goals cases hstep
    all_goals simp_all [isLooping]
  · rwa [hsame]

theorem not_isLooping_of_le (h : stepsToEnd s ≤ 13) : isLooping s.mainThread = false := by
  cases hm : s.mainThread with
  | areFuturesOkay rest isOkay =>
    simp only [stepsToEnd, hm] at h
    split at h <;> omega
  | testInterrupted | wait => simp [stepsToEnd, hm] at h
  | _ => rfl

theorem hasEnded_step (h : hasEnded s.mainThread = true) (hstep : step s event = some s') :
    hasEnded s'.mainThread = true := by
  obtain ⟨_, hstep⟩ | ⟨_, hsame, _⟩ := step_cases hstep
  · cases hm : s.mainThread <;> simp [hm, hasEnded, stepMain] at h hstep
  · rwa [hsame]

theorem hasEnded_of_stepsToEnd (h : stepsToEnd s = 0) : hasEnded s.mainThread = true := by
  cases hm : s.mainThread with
  | areFuturesOkay rest isOkay =>
    simp only [stepsToEnd, hm] at h
    split at h <;> omega
  | exited failed | terminated => rfl
  | _ => simp [stepsToEnd, hm] at h

theorem stepMain_enabled (h : ∀ thread, (s.futures thread).outcome ≠ none)
    (hm : hasEnded s.mainThread = false) : ∃ s', stepMain s = some s' := by
  rw [← Option.ne_none_iff_exists', stepMain]
  repeat' split
  all_goals simp_all [hasEnded]

theorem stops_run (h : After (∃ event ∈ ·, isCause event = true) s)
    (hrun : Transitions.run step s events = some s') (hs : stepsToEnd s ≤ 25)
    (hcount : 12 ≤ events.countP isMain) : isLooping s'.mainThread = false := by
  refine Transitions.reached_of_rank isMain (fun s => isLooping s.mainThread = false)
    (fun s => stepsToEnd s - 13)
    (fun s event s' hi hstep => ⟨Transitions.After.next ?_ hi hstep,
      fun hl => not_isLooping_step hl hstep⟩) (fun s event s' hi hstep => ?_)
    (fun s _ hzero => not_isLooping_of_le (by omega)) h hrun
    (Nat.le_trans (Nat.sub_le_sub_right hs 13) hcount)
  · exact fun _ _ ⟨cause, hm, hc⟩ => ⟨cause, List.mem_append_left _ hm, hc⟩
  · have hle := stepsToEnd_step (After.hasCause hi) hstep
    by_cases hlow : stepsToEnd s' ≤ 13
    · exact Or.inl (not_isLooping_of_le hlow)
    · exact Or.inr (by omega)

theorem ends_run (h : After allEnded s) (hrun : Transitions.run step s events = some s')
    (hs : stepsToEnd s ≤ 21) (hcount : 21 ≤ events.countP isMain) :
    hasEnded s'.mainThread = true := by
  refine Transitions.reached_of_rank isMain (fun s => hasEnded s.mainThread = true) stepsToEnd
    (fun s event s' hi hstep => ⟨Transitions.After.next ?_ hi hstep,
      fun hl => hasEnded_step hl hstep⟩) (fun s event s' hi hstep => Or.inr ?_)
    (fun s _ hzero => hasEnded_of_stepsToEnd hzero) h hrun (Nat.le_trans hs hcount)
  · exact fun _ _ hall thread => (hall thread).imp (fun _ hm => List.mem_append_left _ hm)
  · exact stepsToEnd_step (hasCause_of_ended (After.sound hi) (After.ended hi)) hstep

/-- Within 12 steps after a signal or an exception of a thread, the main thread stops. When
all threads have ended it is never held up, and within 21 steps the program ends. -/
theorem run_ends {before after : List Event} (hrun : run (before ++ after) = some s) :
    ((∃ event ∈ before, isCause event = true) → 12 ≤ after.countP isMain →
        isLooping s.mainThread = false) ∧
      (allEnded before →
        (hasEnded s.mainThread = true ∨ ∃ next, step s .main = some next) ∧
        (21 ≤ after.countP isMain → hasEnded s.mainThread = true)) := by
  obtain ⟨mid, hmid, hafter⟩ := Transitions.run_append.mp hrun
  have hlen := remaining_le hmid
  refine ⟨fun hcause => stops_run ⟨before, hmid, hcause⟩ hafter (stepsToEnd_le hlen),
    fun hall => ⟨?_, ends_run ⟨before, hmid, hall⟩ hafter ?_⟩⟩
  rotate_left
  · exact stepsToEnd_le_of_ended (Sound.run hmid) hlen (After.ended ⟨before, hmid, hall⟩)
  have hended : After allEnded s := ⟨before ++ after, hrun, fun thread =>
    (hall thread).imp (fun _ hm => List.mem_append_left _ hm)⟩
  cases hm : hasEnded s.mainThread with
  | true => exact Or.inl rfl
  | false =>
    obtain ⟨next, hnext⟩ := stepMain_enabled hended.ended hm
    exact Or.inr ⟨next, step_eq_some.mpr ⟨isOver_of_ended hended hm, hnext⟩⟩

def allThrow : List Event :=
  List.replicate 5 .main ++ mFuturesMap.map (.ends · .threw)

theorem run_ends_allThrow : ∃ s, run (allThrow ++ List.replicate 21 .main) = some s ∧
    isLooping s.mainThread = false ∧ hasEnded s.mainThread = true := by
  have hall : allEnded allThrow := fun thread => ⟨.threw, by cases thread <;> decide⟩
  refine ⟨_, rfl, ?_, ?_⟩
  · exact (@run_ends _ allThrow (List.replicate 21 .main) rfl).1
      ⟨.ends .cleanDeques .threw, by decide, rfl⟩ (by decide)
  · exact ((@run_ends _ allThrow (List.replicate 21 .main) rfl).2 hall).2 (by decide)

end Ending

section Shutdown

theorem shutDown_step (hstep : step s event = some s') (hs : s'.shutDown = true) :
    s.shutDown = true ∨
      event = .main ∧ s.mainThread = .stopService ∧ s.mServerStarted = true := by
  obtain ⟨_, hstep⟩ := step_eq_some.mp hstep
  cases event with
  | signal =>
    obtain rfl := Option.some.inj hstep
    exact Or.inl hs
  | serverStarts =>
    obtain rfl := stepRunning_serverStarts hstep
    exact Or.inl hs
  | serverFails =>
    obtain ⟨_, rfl⟩ := stepRunning_serverFails hstep
    exact Or.inl hs
  | ends thread outcome =>
    obtain ⟨_, _, rfl⟩ := stepRunning_ends hstep
    exact Or.inl hs
  | main =>
    rw [stepRunning, stepMain] at hstep
    repeat' split at hstep
    all_goals cases hstep
    all_goals first
      | exact Or.inl hs
      | exact Or.inr ⟨rfl, ‹_›, hs⟩

theorem shutDown_run (hrun : run events = some s) (hs : s.shutDown = true) :
    ∃ before after mid, events = before ++ .main :: after ∧ run before = some mid ∧
      mid.mainThread = .stopService ∧ mid.mServerStarted = true := by
  induction events using List.reverseRecOn generalizing s with
  | nil =>
    obtain rfl := Transitions.run_nil.mp hrun
    cases hs
  | append_singleton events event ih =>
    obtain ⟨mid, hmid, hstep⟩ := Transitions.run_snoc.mp hrun
    obtain hdown | ⟨rfl, hstop, hstarted⟩ := shutDown_step hstep hs
    · obtain ⟨before, after, stopping, rfl, hstopping⟩ := ih hmid hdown
      exact ⟨before, after ++ [event], stopping, by simp, hstopping⟩
    · exact ⟨events, [], mid, rfl, hmid, hstop, hstarted⟩

/-- If the server starts only after `stop` has looked for it, nothing ever ends its wait, and
unless the service throws the program does not exit. -/
theorem exited_after_shutdown {failed : Bool} (hrun : run events = some s)
    (hexit : s.mainThread = .exited failed) (hthrew : .ends .gRPCService .threw ∉ events) :
    ∃ before after mid, events = before ++ .main :: after ∧ run before = some mid ∧
      mid.mainThread = .stopService ∧ mid.mServerStarted = true := by
  have hsound := Sound.run hrun
  have hrecorded := Recorded.run hrun
  obtain ⟨outcome, hm⟩ := ended_of_exited hrun hexit .gRPCService
  cases outcome with
  | threw => exact absurd hm hthrew
  | returned =>
    have hreturned := (hrecorded.ended .gRPCService .returned).mpr hm
    exact shutDown_run hrun (hsound.returned .gRPCService hreturned)

theorem exited_after_shutdown_subscriberThrows : ∃ before after mid,
    subscriberThrows = before ++ .main :: after ∧ run before = some mid ∧
      mid.mainThread = .stopService ∧ mid.mServerStarted = true :=
  @exited_after_shutdown _ subscriberThrows false rfl rfl (by decide)

end Shutdown

end PacketCache.Shutdown
