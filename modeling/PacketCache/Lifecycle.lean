import PacketCache.Transitions
import Mathlib.Logic.Function.Basic

namespace PacketCache.Lifecycle

/-- The threads that `start` launches, by the keys of their futures. -/
inductive Thread
  | cleanDeques
  | dataPacketSubscriber
  | packetProcessor
  | gRPCService
deriving DecidableEq

def mFuturesMap : List Thread :=
  [.cleanDeques, .dataPacketSubscriber, .packetProcessor, .gRPCService]

inductive Outcome
  | returned
  | threw
deriving DecidableEq

inductive Taker
  | areFuturesOkay
  | stop
  | destructor
deriving DecidableEq

/-- A future that something was got from is no longer valid. -/
structure Future where
  outcome : Option Outcome := none
  taken : Option Taker := none

/-- Where the main thread stands: in the loop of `handleMainThread`, in `stop`, in the
destructor, which calls `stop` again, or at its end. The exit code says whether an exception
came out of `start`. -/
inductive MainThread
  | testInterrupted
  | areFuturesOkay (rest : List Thread) (isOkay : Bool)
  | wait
  | stopSubscriber
  | stopThreads
  | stopService
  | stop (rest : List Thread)
  | destructor (rest : List Thread) (failed : Bool)
  | exited (failed : Bool)
  | terminated

/-- A `Process` that has launched its threads. `importing` is the subscriber's flag, the flag
`shutDown` says that `Shutdown` was called, and `crashed` that `Wait` was called on no server. -/
structure State where
  futures : Thread → Future := fun _ => {}
  mainThread : MainThread := .testInterrupted
  mInterrupted : Bool := false
  importing : Bool := true
  mKeepRunning : Bool := true
  mServerStarted : Bool := false
  shutDown : Bool := false
  crashed : Bool := false

/-- `BuildAndStart` either starts the server or, as when the port is taken, fails to. -/
inductive Event
  | signal
  | serverStarts
  | serverFails
  | ends (thread : Thread) (outcome : Outcome)
  | main
deriving DecidableEq

def State.mayReturn (s : State) : Thread → Bool
  | .cleanDeques | .packetProcessor => !s.mKeepRunning
  | .dataPacketSubscriber => !s.importing
  | .gRPCService => s.shutDown

def State.take (s : State) (thread : Thread) (taker : Taker) : State :=
  { s with futures :=
      Function.update s.futures thread { s.futures thread with taken := some taker } }

/-- The next step of the main thread. `wait_for` throws for a future that is not valid, and
`get` waits for the end of the thread. An exception in the destructor is the end. -/
def stepMain (s : State) : Option State :=
  match s.mainThread with
  | .testInterrupted =>
    if s.mInterrupted then some { s with mainThread := .stopSubscriber }
    else some { s with mainThread := .areFuturesOkay mFuturesMap true }
  | .areFuturesOkay [] isOkay =>
    if isOkay then some { s with mainThread := .wait }
    else some { s with mainThread := .stopSubscriber }
  | .areFuturesOkay (thread :: rest) isOkay =>
    if (s.futures thread).taken.isSome then
      some { s with mainThread := .areFuturesOkay rest false }
    else
      match (s.futures thread).outcome with
      | none => some { s with mainThread := .areFuturesOkay rest isOkay }
      | some .returned =>
        some { s.take thread .areFuturesOkay with mainThread := .areFuturesOkay rest isOkay }
      | some .threw =>
        some { s.take thread .areFuturesOkay with mainThread := .areFuturesOkay rest false }
  | .wait => some { s with mainThread := .testInterrupted }
  | .stopSubscriber => some { s with importing := false, mainThread := .stopThreads }
  | .stopThreads => some { s with mKeepRunning := false, mainThread := .stopService }
  | .stopService => some { s with
      shutDown := s.mServerStarted
      mServerStarted := false
      mainThread := .stop mFuturesMap }
  | .stop [] => some { s with mainThread := .destructor mFuturesMap false }
  | .stop (thread :: rest) =>
    if (s.futures thread).taken.isSome then some { s with mainThread := .stop rest }
    else
      match (s.futures thread).outcome with
      | none => none
      | some .returned => some { s.take thread .stop with mainThread := .stop rest }
      | some .threw =>
        some { s.take thread .stop with mainThread := .destructor mFuturesMap true }
  | .destructor [] failed => some { s with mainThread := .exited failed }
  | .destructor (thread :: rest) failed =>
    if (s.futures thread).taken.isSome then some { s with mainThread := .destructor rest failed }
    else
      match (s.futures thread).outcome with
      | none => none
      | some .returned =>
        some { s.take thread .destructor with mainThread := .destructor rest failed }
      | some .threw => some { s.take thread .destructor with mainThread := .terminated }
  | .exited _ | .terminated => none

def State.isOver (s : State) : Bool :=
  match s.mainThread with
  | .exited _ | .terminated => true
  | _ => s.crashed

/-- A step of a process that is not over. `ServiceImpl::start` does not look at the pointer
that `BuildAndStart` returns, so that without a server it takes the process down. -/
def stepRunning (s : State) : Event → Option State
  | .signal => some { s with mInterrupted := true }
  | .serverStarts =>
    if (s.futures .gRPCService).outcome.isSome ∨ s.mServerStarted ∨ s.shutDown then none
    else some { s with mServerStarted := true }
  | .serverFails =>
    if (s.futures .gRPCService).outcome.isSome ∨ s.mServerStarted ∨ s.shutDown then none
    else some { s with crashed := true }
  | .ends thread outcome =>
    if (s.futures thread).outcome.isSome ∨ outcome = .returned ∧ !s.mayReturn thread then none
    else some { s with
      futures := Function.update s.futures thread
        { s.futures thread with outcome := some outcome } }
  | .main => stepMain s

def step (s : State) (event : Event) : Option State :=
  if s.isOver then none else stepRunning s event

def run (events : List Event) : Option State := Transitions.run step {} events

def Future.Uncaught (future : Future) : Prop :=
  future.outcome = some .threw ∧ future.taken ≠ some .areFuturesOkay

structure Future.Settled (future : Future) : Prop where
  ended : future.outcome ≠ none
  taken : future.taken ≠ none
  caught : ¬future.Uncaught

def State.HasCause (s : State) : Prop :=
  s.mInterrupted = true ∨ ∃ thread, (s.futures thread).outcome = some .threw

def isLooping : MainThread → Bool
  | .testInterrupted | .areFuturesOkay _ _ | .wait => true
  | _ => false

def phase : MainThread → Nat
  | .testInterrupted | .areFuturesOkay _ _ | .wait | .stopSubscriber => 0
  | .stopThreads => 1
  | .stopService => 2
  | .stop _ | .destructor _ _ | .exited _ | .terminated => 3

def Known (futures : Thread → Future) : MainThread → Prop
  | .testInterrupted | .wait => ∀ thread, (futures thread).taken = none
  | .areFuturesOkay rest isOkay => rest.Nodup ∧ ∀ thread, (futures thread).taken = none ∨
      thread ∉ rest ∧ isOkay = false ∧ (futures thread).taken = some .areFuturesOkay
  | .stopSubscriber | .stopThreads | .stopService => ∀ thread,
      (futures thread).taken = none ∨ (futures thread).taken = some .areFuturesOkay
  | .stop rest => ∀ thread,
      thread ∈ rest ∧ (futures thread).taken = none ∨ (futures thread).Settled
  | .destructor rest failed =>
    if failed then ∃ first, (futures first).taken ≠ none ∧ (futures first).Uncaught ∧
      ∀ thread, thread ≠ first →
        thread ∈ rest ∧ (futures thread).taken = none ∨ (futures thread).Settled
    else ∀ thread, (futures thread).Settled
  | .exited failed =>
    if failed then ∃ first, (futures first).Uncaught ∧
      ∀ thread, thread ≠ first → (futures thread).Settled
    else ∀ thread, (futures thread).Settled
  | .terminated => ∃ first second, first ≠ second ∧ (futures first).Uncaught ∧
      (futures second).Uncaught

structure Sound (s : State) : Prop where
  importing : s.importing = decide (phase s.mainThread < 1)
  keepRunning : s.mKeepRunning = decide (phase s.mainThread < 2)
  shutDown : s.shutDown = true → phase s.mainThread = 3
  returned : ∀ thread, (s.futures thread).outcome = some .returned → s.mayReturn thread = true
  taken : ∀ thread, (s.futures thread).taken = some .areFuturesOkay →
    (s.futures thread).outcome = some .threw
  known : Known s.futures s.mainThread
  cause : isLooping s.mainThread = false → s.HasCause
  notOkay : ∀ rest, s.mainThread = .areFuturesOkay rest false → s.HasCause

variable {s s' : State} {event : Event} {events : List Event} {thread : Thread}
variable {future future' : Future} {futures futures' : Thread → Future} {taker : Taker}

theorem step_eq_some :
    step s event = some s' ↔ s.isOver = false ∧ stepRunning s event = some s' := by
  rw [step]
  cases s.isOver <;> simp

theorem crashed_of_isOver (h : s.isOver = false) : s.crashed = false := by
  cases hm : s.mainThread <;> simp_all [State.isOver]

theorem stepRunning_serverStarts (hstep : stepRunning s .serverStarts = some s') :
    s' = { s with mServerStarted := true } := by
  rw [stepRunning] at hstep
  split at hstep
  · cases hstep
  · exact (Option.some.inj hstep).symm

theorem stepRunning_serverFails (hstep : stepRunning s .serverFails = some s') :
    (s.futures .gRPCService).outcome = none ∧ s' = { s with crashed := true } := by
  rw [stepRunning] at hstep
  split at hstep
  · cases hstep
  · rename_i hopen
    exact ⟨by simpa using (not_or.mp hopen).1, (Option.some.inj hstep).symm⟩

theorem stepRunning_ends {outcome : Outcome}
    (hstep : stepRunning s (.ends thread outcome) = some s') :
    (s.futures thread).outcome = none ∧ (outcome = .returned → s.mayReturn thread = true) ∧
      s' = { s with
        futures := Function.update s.futures thread
          { s.futures thread with outcome := some outcome } } := by
  rw [stepRunning] at hstep
  split at hstep
  · cases hstep
  · rename_i hopen
    obtain ⟨hnone, hmay⟩ := not_or.mp hopen
    exact ⟨by simpa using hnone, fun hreturned => by simpa [hreturned] using hmay,
      (Option.some.inj hstep).symm⟩

structure Future.Later (future future' : Future) : Prop where
  taken : future'.taken = future.taken
  outcome : future.outcome ≠ none → future'.outcome = future.outcome

theorem Future.Later.settled (h : future.Later future') (hs : future.Settled) :
    future'.Settled := by
  obtain ⟨hended, htaken, hcaught⟩ := hs
  refine ⟨h.outcome hended ▸ hended, h.taken ▸ htaken, fun hu => hcaught ⟨?_, h.taken ▸ hu.2⟩⟩
  rw [← h.outcome hended]
  exact hu.1

theorem Future.Later.uncaught (h : future.Later future') (hu : future.Uncaught) :
    future'.Uncaught :=
  ⟨(h.outcome (by simp [hu.1])).trans hu.1, h.taken ▸ hu.2⟩

theorem Known.later (h : ∀ thread, (futures thread).Later (futures' thread))
    (mainThread : MainThread) (hk : Known futures mainThread) : Known futures' mainThread := by
  have hsettled : ∀ thread, (futures thread).Settled → (futures' thread).Settled :=
    fun thread => (h thread).settled
  cases mainThread with
  | testInterrupted | wait => exact fun thread => (h thread).taken.trans (hk thread)
  | areFuturesOkay rest isOkay =>
    refine ⟨hk.1, fun thread => ?_⟩
    rw [(h thread).taken]
    exact hk.2 thread
  | stopSubscriber | stopThreads | stopService =>
    intro thread
    rw [(h thread).taken]
    exact hk thread
  | stop rest =>
    exact fun thread => (hk thread).imp (fun ht => ⟨ht.1, (h thread).taken.trans ht.2⟩)
      (hsettled thread)
  | destructor rest failed =>
    cases failed with
    | false => exact fun thread => hsettled thread (hk thread)
    | true =>
      obtain ⟨first, htaken, hu, hothers⟩ := hk
      exact ⟨first, (h first).taken ▸ htaken, (h first).uncaught hu,
        fun thread hne => (hothers thread hne).imp
          (fun ht => ⟨ht.1, (h thread).taken.trans ht.2⟩) (hsettled thread)⟩
  | exited failed =>
    cases failed with
    | false => exact fun thread => hsettled thread (hk thread)
    | true =>
      obtain ⟨first, hu, hothers⟩ := hk
      exact ⟨first, (h first).uncaught hu, fun thread hne => hsettled thread (hothers thread hne)⟩
  | terminated =>
    obtain ⟨first, second, hne, hfirst, hsecond⟩ := hk
    exact ⟨first, second, hne, (h first).uncaught hfirst, (h second).uncaught hsecond⟩

theorem later_update {outcome : Outcome} (hnone : (futures thread).outcome = none)
    (other : Thread) : (futures other).Later (Function.update futures thread
      { futures thread with outcome := some outcome } other) := by
  by_cases hother : other = thread
  · subst hother
    rw [Function.update_self]
    exact ⟨rfl, fun hended => absurd hnone hended⟩
  · rw [Function.update_of_ne hother]
    exact ⟨rfl, fun _ => rfl⟩

theorem Sound.start : Sound {} := by
  refine ⟨rfl, rfl, ?_, ?_, ?_, fun _ => rfl, ?_, ?_⟩
  all_goals simp [isLooping]

theorem Sound.signal (h : Sound s) : Sound { s with mInterrupted := true } :=
  ⟨h.importing, h.keepRunning, h.shutDown, fun thread => by
    cases thread <;> exact h.returned _, h.taken, h.known, fun _ => Or.inl rfl,
    fun _ _ => Or.inl rfl⟩

theorem Sound.server (h : Sound s) (mServerStarted crashed : Bool) :
    Sound { s with mServerStarted, crashed } :=
  ⟨h.importing, h.keepRunning, h.shutDown, fun thread => by
    cases thread <;> exact h.returned _, h.taken, h.known, h.cause, h.notOkay⟩

theorem Sound.ends {outcome : Outcome} (h : Sound s)
    (hstep : stepRunning s (.ends thread outcome) = some s') : Sound s' := by
  obtain ⟨hnone, hmay, rfl⟩ := stepRunning_ends hstep
  have hlater := fun other => @later_update thread s.futures outcome hnone other
  have hcause : s.HasCause → State.HasCause { s with
      futures := Function.update s.futures thread
        { s.futures thread with outcome := some outcome } } := by
    rintro (hi | ⟨other, hother⟩)
    · exact Or.inl hi
    · exact Or.inr ⟨other, ((hlater other).outcome (by simp [hother])).trans hother⟩
  refine ⟨h.importing, h.keepRunning, h.shutDown, fun other hreturned => ?_,
    fun other htaken => ?_, Known.later hlater _ h.known, fun hl => hcause (h.cause hl),
    fun rest hr => hcause (h.notOkay rest hr)⟩
  · by_cases hother : other = thread
    · subst hother
      obtain rfl : outcome = .returned := by simpa using hreturned
      cases other <;> exact hmay rfl
    · have hsame : (s.futures other).outcome = some .returned := by
        simpa [Function.update_of_ne hother] using hreturned
      cases other <;> exact h.returned _ hsame
  · have hthrew := h.taken other ((hlater other).taken ▸ htaken)
    exact ((hlater other).outcome (by simp [hthrew])).trans hthrew

theorem Sound.not_returned (h : Sound s) (hphase : phase s.mainThread = 0) (thread : Thread) :
    (s.futures thread).outcome ≠ some .returned := by
  intro hreturned
  have hmay := h.returned thread hreturned
  have hdown : s.shutDown = false := by
    by_contra hd
    have hthree := h.shutDown (Bool.not_eq_false _ ▸ hd)
    omega
  cases thread <;> simp [State.mayReturn, h.importing, h.keepRunning, hphase, hdown] at hmay

theorem Sound.moved {mainThread : MainThread} (h : Sound s)
    (hphase : phase mainThread = phase s.mainThread) (hknown : Known s.futures mainThread)
    (hcause : isLooping mainThread = false → s.HasCause)
    (hnotOkay : ∀ rest, mainThread = .areFuturesOkay rest false → s.HasCause) :
    Sound { s with mainThread } :=
  ⟨hphase ▸ h.importing, hphase ▸ h.keepRunning, hphase ▸ h.shutDown,
    fun thread => by cases thread <;> exact h.returned _, h.taken, hknown, hcause, hnotOkay⟩

theorem take_same : (s.take thread taker).futures thread =
    { s.futures thread with taken := some taker } :=
  Function.update_self ..

theorem take_other {other : Thread} (h : other ≠ thread) :
    (s.take thread taker).futures other = s.futures other :=
  Function.update_of_ne h ..

theorem take_outcome (other : Thread) :
    ((s.take thread taker).futures other).outcome = (s.futures other).outcome := by
  by_cases hother : other = thread
  · rw [hother, take_same]
  · rw [take_other hother]

theorem Sound.took {mainThread : MainThread} (h : Sound s)
    (houtcome : taker = .areFuturesOkay → (s.futures thread).outcome = some .threw)
    (hphase : phase mainThread = phase s.mainThread)
    (hknown : Known (s.take thread taker).futures mainThread)
    (hcause : isLooping mainThread = false → s.HasCause)
    (hnotOkay : ∀ rest, mainThread = .areFuturesOkay rest false → s.HasCause) :
    Sound { s.take thread taker with mainThread } := by
  have hkeep : s.HasCause → State.HasCause { s.take thread taker with mainThread } := by
    rintro (hi | ⟨other, hother⟩)
    · exact Or.inl hi
    · exact Or.inr ⟨other, (take_outcome other).trans hother⟩
  refine ⟨hphase ▸ h.importing, hphase ▸ h.keepRunning, hphase ▸ h.shutDown,
    fun other hreturned => ?_, fun other htaken => ?_, hknown, fun hl => hkeep (hcause hl),
    fun rest hr => hkeep (hnotOkay rest hr)⟩
  · have hsame := h.returned other ((take_outcome other).symm.trans hreturned)
    cases other <;> exact hsame
  · refine (take_outcome other).trans ?_
    by_cases hother : other = thread
    · subst hother
      have htaker : some taker = some Taker.areFuturesOkay := by
        simpa [take_same] using htaken
      exact houtcome (Option.some.inj htaker)
    · exact h.taken other (by simpa [take_other hother] using htaken)

theorem unsettled_of_returned {other : Thread} {rest : List Thread}
    (hreturned : (s.futures thread).outcome = some .returned)
    (h : other ∈ thread :: rest ∧ (s.futures other).taken = none ∨ (s.futures other).Settled) :
    other ∈ rest ∧ ((s.take thread taker).futures other).taken = none ∨
      ((s.take thread taker).futures other).Settled := by
  by_cases hother : other = thread
  · subst hother
    rw [take_same]
    exact Or.inr ⟨by simp [hreturned], by simp, by simp [Future.Uncaught, hreturned]⟩
  · rw [take_other hother]
    exact h.imp_left (fun ht => ⟨(List.mem_cons.mp ht.1).resolve_left hother, ht.2⟩)

theorem uncaught_take (hthrew : (s.futures thread).outcome = some .threw)
    (htaker : taker ≠ .areFuturesOkay) : ((s.take thread taker).futures thread).Uncaught := by
  rw [take_same]
  exact ⟨hthrew, by simpa using htaker⟩

theorem mem_rest_of_taken {other : Thread} {rest : List Thread}
    (htaken : (s.futures thread).taken.isSome)
    (h : other ∈ thread :: rest ∧ (s.futures other).taken = none) : other ∈ rest := by
  refine (List.mem_cons.mp h.1).resolve_left (fun hother => ?_)
  rw [← hother, h.2] at htaken
  cases htaken

section Main

variable (h : Sound s) (hstep : stepMain s = some s')
include h hstep

theorem Sound.testInterrupted (hm : s.mainThread = .testInterrupted) : Sound s' := by
  have hknown := h.known
  rw [hm] at hknown
  simp only [stepMain, hm] at hstep
  split at hstep <;> rename_i hi <;> obtain rfl := Option.some.inj hstep
  · exact h.moved (by simp [hm, phase]) (fun thread => Or.inl (hknown thread))
      (fun _ => Or.inl hi) (by simp)
  · exact h.moved (by simp [hm, phase]) ⟨by decide, fun thread => Or.inl (hknown thread)⟩
      (by simp [isLooping]) (by simp)

theorem Sound.wait (hm : s.mainThread = .wait) : Sound s' := by
  have hknown := h.known
  rw [hm] at hknown
  simp only [stepMain, hm] at hstep
  obtain rfl := Option.some.inj hstep
  exact h.moved (by simp [hm, phase]) hknown (by simp [isLooping]) (by simp)

theorem Sound.areFuturesOkay_nil {isOkay : Bool} (hm : s.mainThread = .areFuturesOkay [] isOkay) :
    Sound s' := by
  have hknown := h.known
  rw [hm] at hknown
  simp only [stepMain, hm] at hstep
  cases isOkay with
  | true =>
    obtain rfl := Option.some.inj hstep
    refine h.moved (by simp [hm, phase]) (fun thread => ?_) (by simp [isLooping]) (by simp)
    exact (hknown.2 thread).resolve_right (fun hf => by cases hf.2.1)
  | false =>
    obtain rfl := Option.some.inj hstep
    exact h.moved (by simp [hm, phase]) (fun thread => (hknown.2 thread).imp_right (fun ht => ht.2.2))
      (fun _ => h.notOkay [] hm) (by simp)

theorem Sound.areFuturesOkay_cons {rest : List Thread} {isOkay : Bool}
    (hm : s.mainThread = .areFuturesOkay (thread :: rest) isOkay) : Sound s' := by
  have hknown := h.known
  have hphase : phase s.mainThread = 0 := by rw [hm]; rfl
  rw [hm] at hknown
  obtain ⟨hnodup, hall⟩ := hknown
  obtain ⟨hnew, hnodup⟩ := List.nodup_cons.mp hnodup
  have htaken : (s.futures thread).taken = none :=
    (hall thread).resolve_right (fun ht => ht.1 List.mem_cons_self)
  have hrest : ∀ other, (s.futures other).taken = none ∨
      other ∉ rest ∧ isOkay = false ∧ (s.futures other).taken = some .areFuturesOkay :=
    fun other => (hall other).imp_right
      (fun ht => ⟨fun hr => ht.1 (List.mem_cons_of_mem _ hr), ht.2⟩)
  simp only [stepMain, hm, htaken, Option.isSome_none, Bool.false_eq_true, if_false] at hstep
  split at hstep
  · obtain rfl := Option.some.inj hstep
    refine h.moved (by rw [hphase]; rfl) ⟨hnodup, hrest⟩ (by simp [isLooping]) (fun later hl => ?_)
    obtain ⟨_, rfl⟩ := MainThread.areFuturesOkay.inj hl
    exact h.notOkay _ hm
  · rename_i hreturned
    exact absurd hreturned (h.not_returned hphase thread)
  · rename_i hthrew
    obtain rfl := Option.some.inj hstep
    refine h.took (fun _ => hthrew) (by rw [hphase]; rfl) ⟨hnodup, fun other => ?_⟩
      (by simp [isLooping]) (fun _ _ => Or.inr ⟨thread, hthrew⟩)
    by_cases hother : other = thread
    · subst hother
      exact Or.inr ⟨hnew, rfl, by rw [take_same]⟩
    · rw [take_other hother]
      exact (hrest other).imp_right (fun ht => ⟨ht.1, rfl, ht.2.2⟩)

theorem Sound.stopSubscriber (hm : s.mainThread = .stopSubscriber) : Sound s' := by
  have hknown := h.known
  have hcause := h.cause
  rw [hm] at hknown hcause
  have hphase : phase s.mainThread = 0 := by rw [hm]; rfl
  simp only [stepMain, hm] at hstep
  obtain rfl := Option.some.inj hstep
  refine ⟨rfl, ?_, fun hd => ?_, fun thread hreturned => ?_, h.taken, hknown,
    fun _ => hcause rfl, by simp⟩
  · rw [h.keepRunning, hphase]
    rfl
  · have hthree := h.shutDown hd
    omega
  · exact absurd hreturned (h.not_returned hphase thread)

theorem Sound.stopThreads (hm : s.mainThread = .stopThreads) : Sound s' := by
  have hknown := h.known
  have hcause := h.cause
  rw [hm] at hknown hcause
  simp only [stepMain, hm] at hstep
  obtain rfl := Option.some.inj hstep
  refine ⟨?_, rfl, fun hd => ?_, fun thread hreturned => ?_, h.taken, hknown,
    fun _ => hcause rfl, by simp⟩
  · simpa [hm, phase] using h.importing
  · have hthree := h.shutDown hd
    simp [hm, phase] at hthree
  · have hmay := h.returned thread hreturned
    cases thread with
    | cleanDeques | packetProcessor => rfl
    | dataPacketSubscriber | gRPCService => exact hmay

theorem Sound.stopService (hm : s.mainThread = .stopService) : Sound s' := by
  have hknown := h.known
  have hcause := h.cause
  rw [hm] at hknown hcause
  have hdown : s.shutDown = false := by
    by_contra hd
    have hthree := h.shutDown (Bool.not_eq_false _ ▸ hd)
    simp [hm, phase] at hthree
  simp only [stepMain, hm] at hstep
  obtain rfl := Option.some.inj hstep
  refine ⟨?_, ?_, fun _ => rfl, fun thread hreturned => ?_, h.taken, fun thread => ?_,
    fun _ => hcause rfl, by simp⟩
  · simpa [hm, phase] using h.importing
  · simpa [hm, phase] using h.keepRunning
  · have hmay := h.returned thread hreturned
    cases thread with
    | cleanDeques | packetProcessor | dataPacketSubscriber => exact hmay
    | gRPCService => simp [State.mayReturn, hdown] at hmay
  · cases hknown thread with
    | inl htaken => exact Or.inl ⟨by cases thread <;> decide, htaken⟩
    | inr htaken =>
      have hthrew := h.taken thread htaken
      exact Or.inr ⟨by simp [hthrew], by simp [htaken], fun hu => hu.2 htaken⟩

theorem Sound.stop_nil (hm : s.mainThread = .stop []) : Sound s' := by
  have hknown := h.known
  have hcause := h.cause
  rw [hm] at hknown hcause
  simp only [stepMain, hm] at hstep
  obtain rfl := Option.some.inj hstep
  exact h.moved (by rw [hm]; rfl) (fun thread => (hknown thread).resolve_left (by simp))
    (fun _ => hcause rfl) (by simp)

theorem Sound.stop_cons {rest : List Thread} (hm : s.mainThread = .stop (thread :: rest)) :
    Sound s' := by
  have hknown := h.known
  have hcause := h.cause
  rw [hm] at hknown hcause
  simp only [stepMain, hm] at hstep
  split at hstep
  · rename_i htaken
    obtain rfl := Option.some.inj hstep
    refine h.moved (by rw [hm]; rfl) (fun other => (hknown other).imp_left (fun ht => ?_))
      (fun _ => hcause rfl) (by simp)
    exact ⟨mem_rest_of_taken htaken ht, ht.2⟩
  · split at hstep
    · cases hstep
    · rename_i hreturned
      obtain rfl := Option.some.inj hstep
      refine h.took (by simp) (by rw [hm]; rfl) (fun other => ?_) (fun _ => hcause rfl) (by simp)
      exact unsettled_of_returned hreturned (hknown other)
    · rename_i hthrew
      obtain rfl := Option.some.inj hstep
      refine h.took (by simp) (by rw [hm]; rfl)
        ⟨thread, by simp [take_same], uncaught_take hthrew (by simp), fun other hother => ?_⟩
        (fun _ => hcause rfl) (by simp)
      rw [take_other hother]
      exact (hknown other).imp_left (fun ht => ⟨by cases other <;> decide, ht.2⟩)

theorem Sound.destructor_nil {failed : Bool} (hm : s.mainThread = .destructor [] failed) :
    Sound s' := by
  have hknown := h.known
  have hcause := h.cause
  rw [hm] at hknown hcause
  simp only [stepMain, hm] at hstep
  obtain rfl := Option.some.inj hstep
  refine h.moved (by rw [hm]; rfl) ?_ (fun _ => hcause rfl) (by simp)
  cases failed with
  | false => exact hknown
  | true =>
    obtain ⟨first, _, hu, hothers⟩ := hknown
    exact ⟨first, hu, fun other hother => (hothers other hother).resolve_left (by simp)⟩

theorem Sound.destructor_cons {rest : List Thread} {failed : Bool}
    (hm : s.mainThread = .destructor (thread :: rest) failed) : Sound s' := by
  have hknown := h.known
  have hcause := h.cause
  rw [hm] at hknown hcause
  simp only [stepMain, hm] at hstep
  cases failed with
  | false =>
    rw [if_pos (Option.isSome_iff_ne_none.mpr (hknown thread).taken)] at hstep
    obtain rfl := Option.some.inj hstep
    exact h.moved (by rw [hm]; rfl) hknown (fun _ => hcause rfl) (by simp)
  | true =>
    obtain ⟨first, hfirst, hu, hothers⟩ := hknown
    split at hstep
    · rename_i htaken
      obtain rfl := Option.some.inj hstep
      refine h.moved (by rw [hm]; rfl) ⟨first, hfirst, hu, fun other hother =>
        (hothers other hother).imp_left (fun ht => ?_)⟩ (fun _ => hcause rfl) (by simp)
      exact ⟨mem_rest_of_taken htaken ht, ht.2⟩
    · rename_i hopen
      have hne : first ≠ thread := fun he => hopen (Option.isSome_iff_ne_none.mpr (he ▸ hfirst))
      split at hstep
      · cases hstep
      · rename_i hreturned
        obtain rfl := Option.some.inj hstep
        refine h.took (by simp) (by rw [hm]; rfl) ⟨first, ?_, ?_, fun other hother => ?_⟩
          (fun _ => hcause rfl) (by simp)
        · rwa [take_other hne]
        · rwa [take_other hne]
        · exact unsettled_of_returned hreturned (hothers other hother)
      · rename_i hthrew
        obtain rfl := Option.some.inj hstep
        refine h.took (by simp) (by rw [hm]; rfl)
          ⟨first, thread, hne, ?_, uncaught_take hthrew (by simp)⟩ (fun _ => hcause rfl) (by simp)
        rwa [take_other hne]

theorem Sound.main : Sound s' := by
  cases hm : s.mainThread with
  | testInterrupted => exact h.testInterrupted hstep hm
  | areFuturesOkay rest isOkay =>
    cases rest with
    | nil => exact h.areFuturesOkay_nil hstep hm
    | cons thread rest => exact h.areFuturesOkay_cons hstep hm
  | wait => exact h.wait hstep hm
  | stopSubscriber => exact h.stopSubscriber hstep hm
  | stopThreads => exact h.stopThreads hstep hm
  | stopService => exact h.stopService hstep hm
  | stop rest =>
    cases rest with
    | nil => exact h.stop_nil hstep hm
    | cons thread rest => exact h.stop_cons hstep hm
  | destructor rest failed =>
    cases rest with
    | nil => exact h.destructor_nil hstep hm
    | cons thread rest => exact h.destructor_cons hstep hm
  | exited failed | terminated => simp [stepMain, hm] at hstep

end Main

theorem Sound.step (h : Sound s) (event : Event) (hstep : Lifecycle.step s event = some s') :
    Sound s' := by
  obtain ⟨_, hstep⟩ := step_eq_some.mp hstep
  cases event with
  | signal =>
    obtain rfl := Option.some.inj hstep
    exact h.signal
  | serverStarts =>
    obtain rfl := stepRunning_serverStarts hstep
    exact h.server true s.crashed
  | serverFails =>
    obtain ⟨_, rfl⟩ := stepRunning_serverFails hstep
    exact h.server s.mServerStarted true
  | ends thread outcome => exact h.ends hstep
  | main => exact h.main hstep

theorem Sound.run (hrun : Lifecycle.run events = some s) : Sound s :=
  Transitions.run_invariant (fun _ event _ h hstep => h.step event hstep) Sound.start hrun

/-- What the events have left in the state. Without a server its thread never ends. -/
structure Recorded (events : List Event) (s : State) : Prop where
  interrupted : s.mInterrupted = true ↔ .signal ∈ events
  ended : ∀ thread outcome,
    (s.futures thread).outcome = some outcome ↔ .ends thread outcome ∈ events
  crashed : s.crashed = true ↔ .serverFails ∈ events
  waits : s.crashed = true → (s.futures .gRPCService).outcome = none

theorem stepMain_frame (hstep : stepMain s = some s') : s'.mInterrupted = s.mInterrupted ∧
    s'.crashed = s.crashed ∧
    ∀ thread, (s'.futures thread).outcome = (s.futures thread).outcome := by
  rw [stepMain] at hstep
  repeat' split at hstep
  all_goals cases hstep
  all_goals first
    | exact ⟨rfl, rfl, fun _ => rfl⟩
    | exact ⟨rfl, rfl, take_outcome⟩

theorem Recorded.step (h : Recorded events s) (event : Event)
    (hstep : Lifecycle.step s event = some s') : Recorded (events ++ [event]) s' := by
  obtain ⟨hinterrupted, hended, hcrashed, _⟩ := h
  obtain ⟨hover, hstep⟩ := step_eq_some.mp hstep
  have hrunning := crashed_of_isOver hover
  cases event with
  | signal =>
    obtain rfl := Option.some.inj hstep
    exact ⟨by simp, by simpa using hended, by simpa using hcrashed, by simp [hrunning]⟩
  | serverStarts =>
    obtain rfl := stepRunning_serverStarts hstep
    exact ⟨by simpa using hinterrupted, by simpa using hended, by simpa using hcrashed,
      by simp [hrunning]⟩
  | serverFails =>
    obtain ⟨hnone, rfl⟩ := stepRunning_serverFails hstep
    exact ⟨by simpa using hinterrupted, by simpa using hended, by simp, fun _ => hnone⟩
  | ends thread outcome =>
    obtain ⟨hnone, _, rfl⟩ := stepRunning_ends hstep
    refine ⟨by simpa using hinterrupted, fun other result => ?_, by simpa using hcrashed,
      by simp [hrunning]⟩
    by_cases hother : other = thread
    · subst hother
      have hnot : .ends other result ∉ events := fun hm => by
        simpa [hnone] using (hended other result).mpr hm
      simpa [hnot] using eq_comm
    · simpa [Function.update_of_ne hother, hother] using hended other result
  | main =>
    obtain ⟨hi, hc, ho⟩ := stepMain_frame hstep
    exact ⟨by simpa [hi] using hinterrupted, by simpa [ho] using hended,
      by simpa [hc] using hcrashed, by simp [hc, hrunning]⟩

theorem Recorded.run (hrun : Lifecycle.run events = some s) : Recorded events s := by
  induction events using List.reverseRecOn generalizing s with
  | nil =>
    obtain rfl := Transitions.run_nil.mp hrun
    exact ⟨by simp, by simp, by simp, by simp⟩
  | append_singleton events event ih =>
    obtain ⟨mid, hmid, hstep⟩ := Transitions.run_snoc.mp hrun
    exact (ih hmid).step event hstep

theorem ended_of_exited {failed : Bool} (hrun : run events = some s)
    (hm : s.mainThread = .exited failed) (thread : Thread) :
    ∃ outcome, .ends thread outcome ∈ events := by
  have hknown := (Sound.run hrun).known
  rw [hm] at hknown
  have hne : (s.futures thread).outcome ≠ none := by
    cases failed with
    | false => exact (hknown thread).ended
    | true =>
      obtain ⟨first, hu, hothers⟩ := hknown
      by_cases hthread : thread = first
      · rw [hthread, hu.1]
        simp
      · exact (hothers thread hthread).ended
  obtain ⟨outcome, ho⟩ := Option.ne_none_iff_exists'.mp hne
  exact ⟨outcome, ((Recorded.run hrun).ended thread outcome).mp ho⟩

def subscriberThrows : List Event :=
  [.serverStarts, .ends .dataPacketSubscriber .threw] ++ List.replicate 9 .main ++
    [.ends .cleanDeques .returned, .ends .packetProcessor .returned,
      .ends .gRPCService .returned] ++ List.replicate 10 .main

end PacketCache.Lifecycle
