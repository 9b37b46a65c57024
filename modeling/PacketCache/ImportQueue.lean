import PacketCache.BoundedQueue
import PacketCache.Messages
import Mathlib.Tactic.SplitIfs

namespace PacketCache.ImportQueue

open PacketCache.BoundedQueue PacketCache.Messages

/-- Where a call of `Process::addPacket` stands: at the test of the size before the loop,
at the test of the loop, at the `try_pop` of its body, or at the `try_push`. -/
inductive Stage
  | check
  | loop
  | pop
  | push
deriving DecidableEq

inductive Action
  | observed (full : Bool)
  | discarded (work : ServiceApi.Packet)
  | foundEmpty
  | pushed
  | refused
deriving DecidableEq

structure AddPacket where
  packet : ServiceApi.Packet
  stage : Stage
  log : List Action

/-- Where `processPackets` stands: at its `try_pop`, at the increment of the counter that
follows it, or at what it does with the packet, which leaves the queue alone. -/
inductive ProcessPackets
  | poll
  | popped (packet : ServiceApi.Packet)
  | received (packet : ServiceApi.Packet)

structure History where
  handed : List ServiceApi.Packet := []
  enqueued : List ServiceApi.Packet := []
  removed : List ServiceApi.Packet := []
  discarded : List ServiceApi.Packet := []
  obtained : List ServiceApi.Packet := []
  finished : List AddPacket := []

structure State (Q : Type) where
  mImportQueue : Q
  addPacket : Option AddPacket := none
  processPackets : ProcessPackets := .poll
  packetsReceivedCounter : Nat := 0
  importOverflowPacketCounter : Nat := 0
  history : History := {}

inductive Event
  | call (packet : ServiceApi.Packet)
  | producer
  | consumer

variable {Q : Type} (operations : Operations Q ServiceApi.Packet) (mMaximumImportQueueSize : Nat)

def AddPacket.next (self : AddPacket) (stage : Stage) (action : Action) : AddPacket :=
  { self with stage := stage, log := self.log ++ [action] }

namespace State

def enter (s : State Q) (packet : ServiceApi.Packet) : State Q :=
  { s with
    addPacket := some ⟨packet, .check, []⟩
    history := { s.history with handed := s.history.handed ++ [packet] } }

def goOn (s : State Q) (self : AddPacket) (stage : Stage) (action : Action) : State Q :=
  { s with addPacket := some (self.next stage action) }

def finish (s : State Q) (self : AddPacket) (action : Action) : State Q :=
  { s with
    addPacket := none
    history := { s.history with finished := s.history.finished ++ [self.next .push action] } }

def discard (s : State Q) (work : ServiceApi.Packet) (queue : Q) : State Q :=
  { s with
    mImportQueue := queue
    history := { s.history with
      removed := s.history.removed ++ [work], discarded := s.history.discarded ++ [work] } }

def enqueue (s : State Q) (packet : ServiceApi.Packet) (queue : Q) : State Q :=
  { s with
    mImportQueue := queue
    history := { s.history with enqueued := s.history.enqueued ++ [packet] } }

def obtain (s : State Q) (packet : ServiceApi.Packet) (queue : Q) : State Q :=
  { s with
    mImportQueue := queue
    processPackets := .popped packet
    history := { s.history with
      removed := s.history.removed ++ [packet], obtained := s.history.obtained ++ [packet] } }

end State

/-- The next atomic operation of a call of `Process::addPacket`. A packet that the loop
pops and a packet that `try_push` refuses are logged, and no counter is touched. -/
def stepAddPacket (s : State Q) (self : AddPacket) : State Q :=
  match self.stage with
  | .check =>
    if mMaximumImportQueueSize ≤ operations.size s.mImportQueue then
      s.goOn self .loop (.observed true)
    else s.goOn self .push (.observed false)
  | .loop =>
    if mMaximumImportQueueSize ≤ operations.size s.mImportQueue then
      s.goOn self .pop (.observed true)
    else s.goOn self .push (.observed false)
  | .pop =>
    match operations.tryPop s.mImportQueue with
    | none => s.goOn self .push .foundEmpty
    | some (work, queue) => (s.discard work queue).goOn self .loop (.discarded work)
  | .push =>
    match operations.tryPush self.packet s.mImportQueue with
    | none => s.finish self .refused
    | some queue => (s.enqueue self.packet queue).finish self .pushed

def stepProcessPackets (s : State Q) : State Q :=
  match s.processPackets with
  | .poll =>
    match operations.tryPop s.mImportQueue with
    | none => s
    | some (packet, queue) => s.obtain packet queue
  | .popped packet =>
    { s with
      processPackets := .received packet
      packetsReceivedCounter := s.packetsReceivedCounter + 1 }
  | .received _ => { s with processPackets := .poll }

/-- One step of one of the two threads. The producer enters a call only when it is in
none, and moves on only when it is in one. -/
def step (s : State Q) : Event → Option (State Q)
  | .call packet =>
    match s.addPacket with
    | some _ => none
    | none => some (s.enter packet)
  | .producer => s.addPacket.map (stepAddPacket operations mMaximumImportQueueSize s)
  | .consumer => some (stepProcessPackets operations s)

/-- Every list of events is an interleaving of the two threads. -/
def run (s : State Q) (events : List Event) : Option (State Q) :=
  events.foldlM (step operations mMaximumImportQueueSize) s

variable {operations mMaximumImportQueueSize} {s s' : State Q}

theorem step_call {packet : ServiceApi.Packet} :
    step operations mMaximumImportQueueSize s (.call packet) = some s' ↔
      s.addPacket = none ∧ s.enter packet = s' := by
  cases hs : s.addPacket <;> simp [step, hs]

theorem step_producer :
    step operations mMaximumImportQueueSize s .producer = some s' ↔
      ∃ self, s.addPacket = some self ∧
        stepAddPacket operations mMaximumImportQueueSize s self = s' :=
  Option.map_eq_some_iff

theorem step_consumer :
    step operations mMaximumImportQueueSize s .consumer = some s' ↔
      stepProcessPackets operations s = s' :=
  Option.some_inj

theorem run_cons {event : Event} {events : List Event} :
    run operations mMaximumImportQueueSize s (event :: events) = some s' ↔
      ∃ mid, step operations mMaximumImportQueueSize s event = some mid ∧
        run operations mMaximumImportQueueSize mid events = some s' :=
  Option.bind_eq_some_iff

theorem stepAddPacket_cases (operations : Operations Q ServiceApi.Packet)
    (mMaximumImportQueueSize : Nat) (s : State Q) (self : AddPacket) :
    (∃ work queue, self.stage = .pop ∧ operations.tryPop s.mImportQueue = some (work, queue) ∧
      stepAddPacket operations mMaximumImportQueueSize s self =
        (s.discard work queue).goOn self .loop (.discarded work)) ∨
    (∃ queue, self.stage = .push ∧
      operations.tryPush self.packet s.mImportQueue = some queue ∧
      stepAddPacket operations mMaximumImportQueueSize s self =
        (s.enqueue self.packet queue).finish self .pushed) ∨
    (self.stage = .push ∧ operations.tryPush self.packet s.mImportQueue = none ∧
      stepAddPacket operations mMaximumImportQueueSize s self = s.finish self .refused) ∨
    ∃ stage action, (self.stage = .pop → operations.tryPop s.mImportQueue = none) ∧
      stepAddPacket operations mMaximumImportQueueSize s self = s.goOn self stage action := by
  cases hstage : self.stage with
  | check | loop =>
    refine Or.inr (Or.inr (Or.inr ?_))
    simp only [stepAddPacket, hstage]
    split_ifs
    · exact ⟨_, _, by simp, rfl⟩
    · exact ⟨_, _, by simp, rfl⟩
  | pop =>
    cases ht : operations.tryPop s.mImportQueue with
    | none =>
      exact Or.inr (Or.inr (Or.inr ⟨.push, .foundEmpty, by simp,
        by simp only [stepAddPacket, hstage, ht]⟩))
    | some popped =>
      obtain ⟨work, queue⟩ := popped
      exact Or.inl ⟨work, queue, rfl, rfl, by simp only [stepAddPacket, hstage, ht]⟩
  | push =>
    cases ht : operations.tryPush self.packet s.mImportQueue with
    | none => exact Or.inr (Or.inr (Or.inl ⟨rfl, rfl, by simp only [stepAddPacket, hstage, ht]⟩))
    | some queue =>
      exact Or.inr (Or.inl ⟨queue, rfl, rfl, by simp only [stepAddPacket, hstage, ht]⟩)

theorem stepProcessPackets_cases (operations : Operations Q ServiceApi.Packet) (s : State Q) :
    (∃ packet queue, s.processPackets = .poll ∧
      operations.tryPop s.mImportQueue = some (packet, queue) ∧
      stepProcessPackets operations s = s.obtain packet queue) ∨
    ((stepProcessPackets operations s).mImportQueue = s.mImportQueue ∧
      (stepProcessPackets operations s).addPacket = s.addPacket ∧
      (stepProcessPackets operations s).history = s.history) := by
  cases hp : s.processPackets with
  | poll =>
    cases ht : operations.tryPop s.mImportQueue with
    | none => exact Or.inr (by simp only [stepProcessPackets, hp, ht, and_self])
    | some popped =>
      obtain ⟨packet, queue⟩ := popped
      exact Or.inl ⟨packet, queue, rfl, rfl, by simp only [stepProcessPackets, hp, ht]⟩
  | popped packet => exact Or.inr (by simp only [stepProcessPackets, hp, and_self])
  | received packet => exact Or.inr (by simp only [stepProcessPackets, hp, and_self])

theorem step_cases {event : Event}
    (hstep : step operations mMaximumImportQueueSize s event = some s') :
    (∃ self work queue, event = .producer ∧ s.addPacket = some self ∧ self.stage = .pop ∧
      operations.tryPop s.mImportQueue = some (work, queue) ∧
      s' = (s.discard work queue).goOn self .loop (.discarded work)) ∨
    (s'.history.discarded = s.history.discarded ∧
      ∀ self, event = .producer → s.addPacket = some self → self.stage = .pop →
        operations.tryPop s.mImportQueue = none) := by
  cases event with
  | call packet =>
    obtain ⟨_, rfl⟩ := step_call.mp hstep
    exact Or.inr ⟨rfl, by simp⟩
  | producer =>
    obtain ⟨self, hs, rfl⟩ := step_producer.mp hstep
    obtain ⟨work, queue, hstage, ht, he⟩ | ⟨queue, hstage, _, he⟩ | ⟨hstage, _, he⟩ |
        ⟨stage, action, hnone, he⟩ := stepAddPacket_cases operations mMaximumImportQueueSize s self
    · exact Or.inl ⟨self, work, queue, rfl, hs, hstage, ht, he⟩
    · exact Or.inr ⟨by rw [he]; rfl, by simp [hs, hstage]⟩
    · exact Or.inr ⟨by rw [he]; rfl, by simp [hs, hstage]⟩
    · exact Or.inr ⟨by rw [he]; rfl, by simpa [hs] using hnone⟩
  | consumer =>
    obtain rfl := step_consumer.mp hstep
    obtain ⟨packet, queue, _, _, he⟩ | ⟨_, _, hh⟩ := stepProcessPackets_cases operations s
    · exact Or.inr ⟨by rw [he]; rfl, by simp⟩
    · exact Or.inr ⟨by rw [hh], by simp⟩

end PacketCache.ImportQueue
