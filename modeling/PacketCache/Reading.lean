import PacketCache.Subscriber
import PacketCache.Transitions
import Mathlib.Tactic.SplitIfs

namespace PacketCache.Reading

open PacketCache.Subscriber

variable {α : Type}

/-- Where a call of `OnReadDone` stands: at its start with the result of the read, at the
call of the callback, at a load or a store of a flag, at `TryCancel` or at `StartRead`. -/
inductive OnReadDone (α : Type)
  | entered (result : Option α)
  | callback (packet : α)
  | loadKeepRunning (ok : Bool)
  | loadTryCancel
  | storeTryCancel
  | tryCancel
  | startRead

inductive Await
  | testDone
  | loadKeepRunning
  | loadTryCancel
  | storeTryCancel
  | tryCancel
  | wait
  | returned (status : StatusCode) (hadSuccessfulRead : Bool)

/-- An `AsyncSubscriber` whose constructor has started the first read: the reads that are
under way, the calls of `OnReadDone` that have begun and the thread in `await`, which share
the flags. The last two fields record the results of the reads and the packets that the
callback got. -/
structure State (α : Type) where
  mKeepRunning : Bool := true
  mTryCancel : Bool := false
  mDone : Bool := false
  mStatus : StatusCode := .ok
  mHadSuccessfulRead : Bool := false
  outstandingReads : Nat := 1
  cancels : Nat := 0
  reactions : List (OnReadDone α) := []
  await : Await := .testDone
  reads : List (Option α) := []
  delivered : List α := []

/-- gRPC calls `OnReadDone` for a read that was started, and `OnDone` once, when every read
is over and every call of `OnReadDone` has returned. -/
inductive Event (α : Type)
  | readDone (result : Option α)
  | onDone (status : StatusCode)
  | reaction (index : Nat)
  | awaiting
  | stop

namespace State

@[simp] def move (s : State α) (index : Nat) (position : OnReadDone α) : State α :=
  { s with reactions := s.reactions.set index position }

@[simp] def leave (s : State α) (index : Nat) : State α :=
  { s with reactions := s.reactions.eraseIdx index }

end State

/-- The next step of a call of `OnReadDone`. An exception of the callback is logged. -/
def stepReaction (s : State α) (index : Nat) : OnReadDone α → State α
  | .entered none => s.move index (.loadKeepRunning false)
  | .entered (some packet) => { s with mHadSuccessfulRead := true }.move index (.callback packet)
  | .callback packet =>
    { s with delivered := s.delivered ++ [packet] }.move index (.loadKeepRunning true)
  | .loadKeepRunning ok =>
    if !s.mKeepRunning then s.move index .loadTryCancel
    else if ok then s.move index .startRead
    else s.leave index
  | .loadTryCancel => if !s.mTryCancel then s.move index .storeTryCancel else s.leave index
  | .storeTryCancel => { s with mTryCancel := true }.move index .tryCancel
  | .tryCancel => { s with cancels := s.cancels + 1 }.leave index
  | .startRead => { s with outstandingReads := s.outstandingReads + 1 }.leave index

/-- The next step of `await`. The wait ends with a notification or after a while. -/
def stepAwait (s : State α) : Option (State α) :=
  match s.await with
  | .testDone =>
    if s.mDone then some { s with await := .returned s.mStatus s.mHadSuccessfulRead }
    else some { s with await := .loadKeepRunning }
  | .loadKeepRunning =>
    if !s.mKeepRunning then some { s with await := .loadTryCancel }
    else some { s with await := .wait }
  | .loadTryCancel =>
    if !s.mTryCancel then some { s with await := .storeTryCancel }
    else some { s with await := .wait }
  | .storeTryCancel => some { s with mTryCancel := true, await := .tryCancel }
  | .tryCancel => some { s with cancels := s.cancels + 1, await := .wait }
  | .wait => some { s with await := .testDone }
  | .returned _ _ => none

def step (s : State α) : Event α → Option (State α)
  | .readDone result =>
    if s.outstandingReads = 0 ∨ s.mDone then none
    else some { s with
      outstandingReads := s.outstandingReads - 1
      reactions := s.reactions ++ [.entered result]
      reads := s.reads ++ [result] }
  | .onDone status =>
    if s.outstandingReads = 0 ∧ s.reactions.isEmpty ∧ !s.mDone then
      some { s with mStatus := status, mDone := true }
    else none
  | .reaction index => s.reactions[index]?.map (stepReaction s index)
  | .awaiting => stepAwait s
  | .stop => some { s with mKeepRunning := false }

@[simp] def undelivered : OnReadDone α → List α
  | .entered (some packet) | .callback packet => [packet]
  | _ => []

@[simp] def isUnrecorded : OnReadDone α → Bool
  | .entered (some _) => true
  | _ => false

@[simp] def isCancelling : OnReadDone α → Bool
  | .storeTryCancel | .tryCancel => true
  | _ => false

@[simp] def isTrying : OnReadDone α → Bool
  | .tryCancel => true
  | _ => false

@[simp] def isGivingUp : OnReadDone α → Bool
  | .loadTryCancel | .storeTryCancel | .tryCancel => true
  | _ => false

@[simp] def isStarting : OnReadDone α → Bool
  | .startRead => true
  | _ => false

def awaitCancelling : Await → Nat
  | .storeTryCancel | .tryCancel => 1
  | _ => 0

@[simp] def awaitGivingUp : Await → Bool
  | .loadTryCancel | .storeTryCancel | .tryCancel => true
  | _ => false

def Await.hasReturned (position : Await) : Prop := ∃ status had, position = .returned status had

structure Single (s : State α) : Prop where
  single : s.reactions.length + s.outstandingReads ≤ 1
  finished : s.mDone = true → s.reactions = [] ∧ s.outstandingReads = 0

structure Delivers (s : State α) : Prop where
  delivered : s.reads.filterMap id = s.delivered ++ s.reactions.flatMap undelivered
  had : s.reads.any Option.isSome = (s.mHadSuccessfulRead || s.reactions.any isUnrecorded)

/-- Both threads may find that the call is not cancelled yet, and cancel it. -/
structure Cancels (s : State α) : Prop where
  untried : s.mTryCancel = false →
    s.cancels = 0 ∧ s.reactions.any isTrying = false ∧ s.await ≠ .tryCancel
  tried : s.mTryCancel = true →
    0 < s.cancels ∨ s.reactions.any isTrying = true ∨ s.await = .tryCancel
  cancels : s.cancels + s.reactions.countP isCancelling + awaitCancelling s.await ≤ 2

def Keeps (s : State α) : Prop :=
  s.mKeepRunning = true → s.mTryCancel = false ∧ s.reactions.any isGivingUp = false ∧
    awaitGivingUp s.await = false

def Returns (s : State α) : Prop :=
  ∀ status had, s.await = .returned status had →
    s.mDone = true ∧ status = s.mStatus ∧ had = s.mHadSuccessfulRead

structure Sound (s : State α) : Prop where
  single : Single s
  delivers : Delivers s
  cancels : Cancels s
  keeps : Keeps s
  returns : Returns s

variable {s s' : State α} {index : Nat} {position : OnReadDone α}

theorem awaitCancelling_le (position : Await) : awaitCancelling position ≤ 1 := by
  unfold awaitCancelling
  split <;> omega

theorem Single.reaction (h : Single s) (hp : s.reactions[index]? = some position) :
    index = 0 ∧ s.reactions = [position] ∧ s.outstandingReads = 0 ∧ s.mDone = false := by
  have hsingle := h.single
  obtain ⟨hlt, _⟩ := List.getElem?_eq_some_iff.mp hp
  obtain rfl : index = 0 := by omega
  obtain ⟨only, honly⟩ := List.length_eq_one_iff.mp (by omega : s.reactions.length = 1)
  refine ⟨rfl, ?_, by omega, ?_⟩
  · rw [honly] at hp ⊢
    simpa using hp
  · cases hd : s.mDone with
    | false => rfl
    | true =>
      rw [(h.finished hd).1] at honly
      cases honly

theorem stepReaction_await : (stepReaction s index position).await = s.await := by
  cases position with
  | entered result => cases result <;> rfl
  | loadKeepRunning ok => cases hk : s.mKeepRunning <;> cases ok <;> simp [stepReaction, hk]
  | loadTryCancel => cases ht : s.mTryCancel <;> simp [stepReaction, ht]
  | callback packet | storeTryCancel | tryCancel | startRead => rfl

theorem Returns.reaction (h : Returns s) (hd : s.mDone = false) :
    Returns (stepReaction s 0 position) := by
  intro status had hreturned
  rw [stepReaction_await] at hreturned
  exact absurd (h status had hreturned).1 (by simp [hd])

section Reaction

variable (hr : s.reactions = [position])
include hr

theorem stepReaction_single (ho : s.outstandingReads = 0) (hd : s.mDone = false) :
    Single (stepReaction s 0 position) := by
  cases position with
  | entered result =>
    cases result <;> exact ⟨by simp [stepReaction, hr, ho], by simp [stepReaction, hd]⟩
  | loadKeepRunning ok =>
    cases hk : s.mKeepRunning <;> cases ok <;>
      exact ⟨by simp [stepReaction, hr, ho, hk], by simp [stepReaction, hd, hk]⟩
  | loadTryCancel =>
    cases ht : s.mTryCancel <;>
      exact ⟨by simp [stepReaction, hr, ho, ht], by simp [stepReaction, hd, ht]⟩
  | callback packet | storeTryCancel | tryCancel | startRead =>
    exact ⟨by simp [stepReaction, hr, ho], by simp [stepReaction, hd]⟩

theorem Delivers.reaction (h : Delivers s) : Delivers (stepReaction s 0 position) := by
  obtain ⟨hdelivered, hhad⟩ := h
  rw [hr] at hdelivered hhad
  cases position with
  | entered result =>
    cases result <;>
      exact ⟨by simpa [stepReaction, hr] using hdelivered, by simpa [stepReaction, hr] using hhad⟩
  | loadKeepRunning ok =>
    cases hk : s.mKeepRunning <;> cases ok <;>
      exact ⟨by simpa [stepReaction, hr, hk] using hdelivered,
        by simpa [stepReaction, hr, hk] using hhad⟩
  | loadTryCancel =>
    cases ht : s.mTryCancel <;>
      exact ⟨by simpa [stepReaction, hr, ht] using hdelivered,
        by simpa [stepReaction, hr, ht] using hhad⟩
  | callback packet | storeTryCancel | tryCancel | startRead =>
    exact ⟨by simpa [stepReaction, hr] using hdelivered, by simpa [stepReaction, hr] using hhad⟩

theorem Cancels.reaction (h : Cancels s) : Cancels (stepReaction s 0 position) := by
  obtain ⟨huntried, htried, hcancels⟩ := h
  rw [hr] at huntried htried hcancels
  cases position with
  | entered result =>
    cases result <;>
      exact ⟨by simpa [stepReaction, hr] using huntried, by simpa [stepReaction, hr] using htried,
        by simpa [stepReaction, hr] using hcancels⟩
  | loadKeepRunning ok =>
    cases hk : s.mKeepRunning <;> cases ok <;>
      exact ⟨by simpa [stepReaction, hr, hk] using huntried,
        by simpa [stepReaction, hr, hk] using htried,
        by simpa [stepReaction, hr, hk] using hcancels⟩
  | loadTryCancel =>
    cases ht : s.mTryCancel with
    | true =>
      exact ⟨by simp [stepReaction, ht], by simpa [stepReaction, hr, ht] using htried,
        by simpa [stepReaction, hr, ht] using hcancels⟩
    | false =>
      obtain ⟨hzero, _, hawait⟩ := huntried ht
      have hone := awaitCancelling_le s.await
      refine ⟨by simpa [stepReaction, hr, ht] using ⟨hzero, hawait⟩,
        by simp [stepReaction, ht], ?_⟩
      simp only [stepReaction, ht, hr, hzero, State.move, List.set_cons_zero, Bool.not_false,
        if_true, List.countP_singleton, isCancelling]
      omega
  | storeTryCancel =>
    exact ⟨by simp [stepReaction], by simp [stepReaction, hr],
      by simpa [stepReaction, hr] using hcancels⟩
  | tryCancel =>
    have hset : s.mTryCancel = true := by
      by_contra ht
      simpa using (huntried (Bool.not_eq_true _ ▸ ht)).2.1
    exact ⟨by simp [stepReaction, hset], by simp [stepReaction],
      by simpa [stepReaction, hr] using hcancels⟩
  | callback packet | startRead =>
    exact ⟨by simpa [stepReaction, hr] using huntried, by simpa [stepReaction, hr] using htried,
      by simpa [stepReaction, hr] using hcancels⟩

theorem Keeps.reaction (h : Keeps s) : Keeps (stepReaction s 0 position) := by
  rw [Keeps, hr] at h
  cases position with
  | entered result => cases result <;> simpa [Keeps, stepReaction, hr] using h
  | loadKeepRunning ok =>
    cases hk : s.mKeepRunning with
    | false => simp [Keeps, stepReaction, hk]
    | true => cases ok <;> simpa [Keeps, stepReaction, hr, hk] using h
  | loadTryCancel | storeTryCancel | tryCancel =>
    have hk : s.mKeepRunning = false := by
      by_contra hk
      simpa using (h (Bool.not_eq_false _ ▸ hk)).2.1
    cases ht : s.mTryCancel <;> simp [Keeps, stepReaction, hk, ht]
  | callback packet | startRead => simpa [Keeps, stepReaction, hr] using h

end Reaction

section Awaiting

variable (hstep : stepAwait s = some s')
include hstep

theorem stepAwait_frame : ∃ await mTryCancel cancels,
    s' = { s with await, mTryCancel, cancels } := by
  rw [stepAwait] at hstep
  split at hstep
  iterate 3 split at hstep <;> exact ⟨_, _, _, (Option.some.inj hstep).symm⟩
  iterate 3 exact ⟨_, _, _, (Option.some.inj hstep).symm⟩
  cases hstep

theorem Single.awaiting (h : Single s) : Single s' := by
  obtain ⟨_, _, _, rfl⟩ := stepAwait_frame hstep
  exact ⟨h.single, h.finished⟩

theorem Delivers.awaiting (h : Delivers s) : Delivers s' := by
  obtain ⟨_, _, _, rfl⟩ := stepAwait_frame hstep
  exact ⟨h.delivered, h.had⟩

theorem Cancels.awaiting (hs : Single s) (h : Cancels s) : Cancels s' := by
  obtain ⟨huntried, htried, hcancels⟩ := h
  rw [stepAwait] at hstep
  split at hstep
  · rename_i hawait
    rw [hawait] at hcancels
    split at hstep <;> obtain rfl := Option.some.inj hstep <;>
      exact ⟨by simpa [hawait] using huntried, by simpa [hawait] using htried, hcancels⟩
  · rename_i hawait
    rw [hawait] at hcancels
    split at hstep <;> obtain rfl := Option.some.inj hstep <;>
      exact ⟨by simpa [hawait] using huntried, by simpa [hawait] using htried, hcancels⟩
  · rename_i hawait
    rw [hawait] at hcancels
    split at hstep <;> rename_i ht <;> obtain rfl := Option.some.inj hstep
    · obtain ⟨hzero, hany, _⟩ := huntried (by simpa using ht)
      have hone : s.reactions.countP isCancelling ≤ s.reactions.length := List.countP_le_length
      have hlen := hs.single
      refine ⟨by simp [hzero, hany], by simpa [hawait] using htried, ?_⟩
      simp only [hzero, awaitCancelling]
      omega
    · exact ⟨by simpa [hawait] using huntried, by simpa [hawait] using htried, hcancels⟩
  · rename_i hawait
    rw [hawait] at hcancels
    obtain rfl := Option.some.inj hstep
    exact ⟨by simp, by simp, hcancels⟩
  · rename_i hawait
    rw [hawait] at hcancels
    obtain rfl := Option.some.inj hstep
    have hset : s.mTryCancel = true := by
      by_contra ht
      exact (huntried (Bool.not_eq_true _ ▸ ht)).2.2 hawait
    refine ⟨by simp [hset], by simp, ?_⟩
    simp only [awaitCancelling] at hcancels ⊢
    omega
  · rename_i hawait
    rw [hawait] at hcancels
    obtain rfl := Option.some.inj hstep
    exact ⟨by simpa [hawait] using huntried, by simpa [hawait] using htried, hcancels⟩
  · cases hstep

theorem Keeps.awaiting (h : Keeps s) : Keeps s' := by
  intro hk
  have hk : s.mKeepRunning = true := by
    obtain ⟨_, _, _, rfl⟩ := stepAwait_frame hstep
    exact hk
  obtain ⟨ht, hreactions, hawaiting⟩ := h hk
  rw [stepAwait] at hstep
  split at hstep <;> rename_i hawait
  iterate 2 split at hstep <;> obtain rfl := Option.some.inj hstep <;> simp_all
  iterate 3 simp [hawait] at hawaiting
  · obtain rfl := Option.some.inj hstep
    exact ⟨ht, hreactions, rfl⟩
  · cases hstep

theorem Returns.awaiting : Returns s' := by
  intro status had hreturned
  rw [stepAwait] at hstep
  split at hstep
  · split at hstep <;> rename_i hd <;> obtain rfl := Option.some.inj hstep
    · obtain ⟨rfl, rfl⟩ := Await.returned.inj hreturned
      exact ⟨hd, rfl, rfl⟩
    · cases hreturned
  iterate 2 split at hstep <;> obtain rfl := Option.some.inj hstep <;> cases hreturned
  iterate 3 obtain rfl := Option.some.inj hstep; cases hreturned
  cases hstep

end Awaiting

theorem Sound.start : Sound ({} : State α) :=
  ⟨⟨by simp, by simp⟩, ⟨by simp, by simp⟩, ⟨by simp, by simp, by simp [awaitCancelling]⟩,
    by simp [Keeps], by simp [Returns]⟩

theorem Sound.readDone {result : Option α} (h : Sound s)
    (hstep : step s (.readDone result) = some s') : Sound s' := by
  rw [step] at hstep
  split at hstep
  · cases hstep
  · rename_i hopen
    obtain ⟨ho, hd⟩ := not_or.mp hopen
    have hlen := h.single.single
    have hnone : s.reactions = [] := List.length_eq_zero_iff.mp (by omega)
    obtain rfl := Option.some.inj hstep
    refine ⟨⟨?_, ?_⟩, ⟨?_, ?_⟩, ⟨?_, ?_, ?_⟩, ?_, h.returns⟩
    · simp only [hnone, List.nil_append, List.length_singleton]
      omega
    · exact fun hdone => absurd hdone hd
    · have hdelivered := h.delivers.delivered
      cases result <;> simp_all
    · have hhad := h.delivers.had
      cases result <;> simp_all
    · simpa [hnone] using h.cancels.untried
    · simpa [hnone] using h.cancels.tried
    · simpa [hnone] using h.cancels.cancels
    · intro hk
      simpa [hnone] using h.keeps hk

theorem Sound.onDone {status : StatusCode} (h : Sound s)
    (hstep : step s (.onDone status) = some s') : Sound s' := by
  rw [step] at hstep
  split at hstep
  · rename_i hover
    obtain ⟨ho, hnone, hd⟩ := hover
    obtain rfl := Option.some.inj hstep
    refine ⟨⟨h.single.single, fun _ => ⟨List.isEmpty_iff.mp hnone, ho⟩⟩,
      ⟨h.delivers.delivered, h.delivers.had⟩,
      ⟨h.cancels.untried, h.cancels.tried, h.cancels.cancels⟩,
      h.keeps, ?_⟩
    intro returned had hreturned
    have hdone := (h.returns returned had hreturned).1
    simp [hdone] at hd
  · cases hstep

theorem Sound.stop (h : Sound s) (hstep : step s .stop = some s') : Sound s' := by
  obtain rfl := Option.some.inj hstep
  exact ⟨⟨h.single.single, h.single.finished⟩, ⟨h.delivers.delivered, h.delivers.had⟩,
    ⟨h.cancels.untried, h.cancels.tried, h.cancels.cancels⟩, (fun hk => by cases hk), h.returns⟩

theorem Sound.reaction (h : Sound s) (hstep : step s (.reaction index) = some s') :
    Sound s' := by
  obtain ⟨position, hp, rfl⟩ := Option.map_eq_some_iff.mp hstep
  obtain ⟨rfl, hr, ho, hd⟩ := h.single.reaction hp
  exact ⟨stepReaction_single hr ho hd, h.delivers.reaction hr, h.cancels.reaction hr,
    h.keeps.reaction hr, h.returns.reaction hd⟩

theorem Sound.step (h : Sound s) (event : Event α) (hstep : Reading.step s event = some s') :
    Sound s' := by
  cases event with
  | readDone result => exact h.readDone hstep
  | onDone status => exact h.onDone hstep
  | reaction index => exact h.reaction hstep
  | awaiting =>
    exact ⟨h.single.awaiting hstep, h.delivers.awaiting hstep, h.cancels.awaiting hstep h.single,
      h.keeps.awaiting hstep, Returns.awaiting hstep⟩
  | stop => exact h.stop hstep

def run (events : List (Event α)) : Option (State α) := Transitions.run step {} events

theorem Sound.run {events : List (Event α)} (hrun : Reading.run events = some s) : Sound s :=
  Transitions.run_invariant (fun _ event _ h hstep => h.step event hstep) Sound.start hrun

def results (events : List (Event α)) : List (Option α) :=
  events.filterMap fun
    | .readDone result => some result
    | _ => none

@[simp] def isStop : Event α → Bool
  | .stop => true
  | _ => false

def isAwaiting : Event α → Bool
  | .awaiting => true
  | _ => false

/-- The call as the loop over the attempts sees it. -/
def attempt (events : List (Event α)) (status : StatusCode) : Attempt :=
  { reads := (results events).map Option.isSome, stopInCall := events.any isStop, status }

structure Recorded (events : List (Event α)) (s : State α) : Prop where
  reads : s.reads = results events
  keepRunning : s.mKeepRunning = !events.any isStop
  status : ∀ status, .onDone status ∈ events ↔ s.mDone = true ∧ s.mStatus = status

theorem stepReaction_frame : (stepReaction s index position).reads = s.reads ∧
    (stepReaction s index position).mKeepRunning = s.mKeepRunning ∧
    (stepReaction s index position).mDone = s.mDone ∧
    (stepReaction s index position).mStatus = s.mStatus ∧
    (s.mTryCancel = true → (stepReaction s index position).mTryCancel = true) := by
  cases position with
  | entered result => cases result <;> simp [stepReaction]
  | loadKeepRunning ok => cases hk : s.mKeepRunning <;> cases ok <;> simp [stepReaction, hk]
  | loadTryCancel => cases ht : s.mTryCancel <;> simp [stepReaction, ht]
  | callback packet | storeTryCancel | tryCancel | startRead => simp [stepReaction]

theorem Recorded.step {events : List (Event α)} (h : Recorded events s) (event : Event α)
    (hstep : Reading.step s event = some s') : Recorded (events ++ [event]) s' := by
  obtain ⟨hreads, hkeep, hstatus⟩ := h
  cases event with
  | readDone result =>
    rw [Reading.step] at hstep
    split at hstep
    · cases hstep
    · obtain rfl := Option.some.inj hstep
      exact ⟨by simp [hreads, results], by simpa using hkeep, by simpa using hstatus⟩
  | onDone status =>
    rw [Reading.step] at hstep
    split at hstep
    · rename_i hover
      obtain rfl := Option.some.inj hstep
      refine ⟨by simpa [results] using hreads, by simpa using hkeep, fun earlier => ?_⟩
      have hnone : .onDone earlier ∉ events := by
        intro hm
        simpa [((hstatus earlier).mp hm).1] using hover.2.2
      simpa [hnone] using eq_comm
    · cases hstep
  | reaction index =>
    obtain ⟨position, _, rfl⟩ := Option.map_eq_some_iff.mp hstep
    obtain ⟨hr, hk, hd, hs, _⟩ := @stepReaction_frame _ s index position
    exact ⟨by simpa [hr, results] using hreads, by simpa [hk] using hkeep,
      by simpa [hd, hs] using hstatus⟩
  | awaiting =>
    obtain ⟨_, _, _, rfl⟩ := stepAwait_frame hstep
    exact ⟨by simpa [results] using hreads, by simpa using hkeep, by simpa using hstatus⟩
  | stop =>
    obtain rfl := Option.some.inj hstep
    exact ⟨by simpa [results] using hreads, by simp, by simpa using hstatus⟩

theorem Recorded.run {events : List (Event α)} (hrun : Reading.run events = some s) :
    Recorded events s := by
  induction events using List.reverseRecOn generalizing s with
  | nil =>
    obtain rfl := Transitions.run_nil.mp hrun
    exact ⟨rfl, rfl, by simp⟩
  | append_singleton events event ih =>
    obtain ⟨mid, hmid, hstep⟩ := Transitions.run_snoc.mp hrun
    exact (ih hmid).step event hstep

theorem flatMap_undelivered_length {reactions : List (OnReadDone α)} (h : reactions.length ≤ 1) :
    (reactions.flatMap undelivered).length ≤ 1 := by
  cases reactions with
  | nil => simp
  | cons position rest =>
    obtain rfl : rest = [] := List.length_eq_zero_iff.mp (by simpa using h)
    cases position with
    | entered result => cases result <;> simp
    | callback packet | loadKeepRunning ok | loadTryCancel | storeTryCancel | tryCancel
    | startRead => simp

end PacketCache.Reading
