import PacketCache.Provenance
import PacketCache.Reading

namespace PacketCache.Pipeline

open PacketCache.BoundedQueue PacketCache.Identifiers PacketCache.Messages PacketCache.MultiStream
open PacketCache.Packets PacketCache.Platform PacketCache.Provenance PacketCache.Reactors
open PacketCache.Reading PacketCache.Service
open PacketCache.MapRuns (named)
open PacketCache.Process (mMaximumImportQueueSize)

/-- A process and the `AsyncSubscriber` of the attempt under way, the callback of which is
`Process::addPacket`. -/
structure State (Q : Type) where
  subscriber : Reading.State ServiceApi.Packet := {}
  process : Process.State Q

inductive Event
  | subscriber (event : Reading.Event ServiceApi.Packet)
  | process (event : Process.Event)
  | reconnect

variable {Q : Type} (build : Build) (operations : Operations Q ServiceApi.Packet)
variable (mOptions : IniFile.ProgramOptions)

def stepReaction (s : State Q) (index : Nat) : Option (State Q) :=
  match s.process.importQueue.addPacket with
  | some _ => none
  | none =>
    match s.subscriber.reactions[index]? with
    | some (.callback packet) =>
      (Process.step build operations mOptions s.process (.call packet)).bind fun process =>
        (Reading.step s.subscriber (.reaction index)).map fun subscriber => ⟨subscriber, process⟩
    | _ =>
      (Reading.step s.subscriber (.reaction index)).map fun subscriber => { s with subscriber }

def step (s : State Q) : Event → Option (State Q)
  | .subscriber (.reaction index) => stepReaction build operations mOptions s index
  | .subscriber event =>
    (Reading.step s.subscriber event).map fun subscriber => { s with subscriber }
  | .process (.call _) => none
  | .process event =>
    (Process.step build operations mOptions s.process event).map fun process => { s with process }
  | .reconnect =>
    match s.subscriber.await with
    | .returned _ _ => some { s with subscriber := { mKeepRunning := s.subscriber.mKeepRunning } }
    | _ => none

def run (queue : Q) (events : List Event) : Option (State Q) :=
  Transitions.run (step build operations mOptions)
    { process := { importQueue := { mImportQueue := queue } } } events

def packetsRead (events : List Event) : List ServiceApi.Packet :=
  events.filterMap fun
    | .subscriber (.readDone result) => result
    | _ => none

def ofProcess : Event → Option Process.Event
  | .process event => some event
  | _ => none

structure Piped (queue : Q) (events : List Event) (s : State Q) : Prop where
  sound : Sound s.subscriber
  packets : packetsRead events =
    s.process.importQueue.history.handed ++ s.subscriber.reactions.flatMap undelivered
  process : ∃ seen, Process.run build operations mOptions queue seen = some s.process ∧
    readings seen = readings (events.filterMap ofProcess)

variable {build operations mOptions} {s s' : State Q} {p p' : Process.State Q} {queue : Q}
variable {subscriber subscriber' : Reading.State ServiceApi.Packet} {events : List Event}

theorem handed_consumer {now : Int}
    (hstep : Process.step build operations mOptions p (.consumer now) = some p') :
    p'.importQueue.history.handed = p.importQueue.history.handed := by
  have hqueue : p'.importQueue = ImportQueue.stepProcessPackets operations p.importQueue := by
    cases hp : p.importQueue.processPackets with
    | poll | popped packet =>
      simp only [Process.step, hp, Option.some.injEq] at hstep
      rw [← hstep]
    | received packet =>
      simp only [Process.step, hp] at hstep
      obtain ⟨_, rfl⟩ | ⟨_, rfl⟩ := Process.importPacket_cases hstep <;> rfl
  rw [hqueue]
  obtain ⟨_, _, _, _, hobtained⟩ | ⟨_, _, hhistory⟩ :=
    ImportQueue.stepProcessPackets_cases operations p.importQueue
  · rw [hobtained]
    rfl
  · rw [hhistory]

theorem handed_step {event : Process.Event}
    (hstep : Process.step build operations mOptions p event = some p') :
    p'.importQueue.history.handed = p.importQueue.history.handed ++
      match event with
      | .call packet => [packet]
      | _ => [] := by
  cases event with
  | call packet =>
    obtain ⟨q, hq, rfl⟩ := Option.map_eq_some_iff.mp hstep
    obtain ⟨_, rfl⟩ := ImportQueue.step_call.mp hq
    rfl
  | producer =>
    obtain ⟨q, hq, rfl⟩ := Option.map_eq_some_iff.mp hstep
    obtain ⟨self, _, rfl⟩ := ImportQueue.step_producer.mp hq
    rw [List.append_nil]
    obtain ⟨_, _, _, _, he⟩ | ⟨_, _, _, he⟩ | ⟨_, _, he⟩ | ⟨_, _, _, he⟩ :=
      ImportQueue.stepAddPacket_cases operations (mMaximumImportQueueSize mOptions)
        p.importQueue self
    all_goals
      rw [he]
      rfl
  | consumer now => rw [List.append_nil, handed_consumer hstep]
  | cleaner now =>
    rw [List.append_nil]
    obtain rfl := Option.some.inj hstep
    cases hc : p.cleanDeques <;> simp only [Process.cleanDeques, hc]

def delivering : OnReadDone ServiceApi.Packet → List ServiceApi.Packet
  | .callback packet => [packet]
  | _ => []

theorem stepReaction_delivered {index : Nat} {position : OnReadDone ServiceApi.Packet} :
    (Reading.stepReaction subscriber index position).delivered =
      subscriber.delivered ++ delivering position := by
  cases position with
  | entered result => cases result <;> simp [Reading.stepReaction, delivering]
  | loadKeepRunning ok =>
    cases hk : subscriber.mKeepRunning <;> cases ok <;>
      simp [Reading.stepReaction, delivering, hk]
  | loadTryCancel =>
    cases ht : subscriber.mTryCancel <;> simp [Reading.stepReaction, delivering, ht]
  | callback packet | storeTryCancel | tryCancel | startRead =>
    simp [Reading.stepReaction, delivering]

theorem undelivered_reaction {index : Nat} {position : OnReadDone ServiceApi.Packet}
    (h : Sound subscriber) (hp : subscriber.reactions[index]? = some position) :
    subscriber.reactions.flatMap undelivered = delivering position ++
      (Reading.stepReaction subscriber index position).reactions.flatMap undelivered := by
  obtain ⟨rfl, hr, _, _⟩ := h.single.reaction hp
  have hbefore := h.delivers.delivered
  have hafter := (h.delivers.reaction hr).delivered
  rw [stepReaction_frame.1, hbefore, stepReaction_delivered, List.append_assoc] at hafter
  exact List.append_cancel_left hafter

theorem undelivered_step {event : Reading.Event ServiceApi.Packet}
    (hstep : Reading.step subscriber event = some subscriber')
    (hr : ∀ index, event ≠ .reaction index) :
    subscriber'.reactions.flatMap undelivered =
      subscriber.reactions.flatMap undelivered ++ packetsRead [.subscriber event] := by
  cases event with
  | readDone result =>
    rw [Reading.step] at hstep
    split at hstep
    · cases hstep
    · obtain rfl := Option.some.inj hstep
      cases result <;> simp [packetsRead]
  | onDone status =>
    rw [Reading.step] at hstep
    split at hstep
    · obtain rfl := Option.some.inj hstep
      simp [packetsRead]
    · cases hstep
  | reaction index => exact absurd rfl (hr index)
  | awaiting =>
    obtain ⟨_, _, _, rfl⟩ := stepAwait_frame hstep
    simp [packetsRead]
  | stop =>
    obtain rfl := Option.some.inj hstep
    simp [packetsRead]

theorem Piped.start (queue : Q) : Piped build operations mOptions queue []
    { process := { importQueue := { mImportQueue := queue } } } :=
  ⟨Sound.start, rfl, [], rfl, rfl⟩

theorem sound_again (mKeepRunning : Bool) :
    Sound ({ mKeepRunning } : Reading.State ServiceApi.Packet) := by
  cases mKeepRunning with
  | true => exact Sound.start
  | false => exact Sound.start.stop rfl

theorem filterMap_ofProcess {event : Event} (h : ofProcess event = none) :
    (events ++ [event]).filterMap ofProcess = events.filterMap ofProcess := by
  rw [List.filterMap_append, List.filterMap_cons_none h, List.filterMap_nil, List.append_nil]

theorem Piped.reads {event : Reading.Event ServiceApi.Packet}
    (h : Piped build operations mOptions queue events s)
    (hstep : Reading.step s.subscriber event = some subscriber')
    (hr : ∀ index, event ≠ .reaction index) :
    Piped build operations mOptions queue (events ++ [.subscriber event])
      { s with subscriber := subscriber' } := by
  refine ⟨h.sound.step event hstep, ?_, ?_⟩
  · rw [undelivered_step hstep hr, ← List.append_assoc, ← h.packets]
    exact List.filterMap_append
  · obtain ⟨seen, hseen, hreadings⟩ := h.process
    exact ⟨seen, hseen, by rwa [filterMap_ofProcess rfl]⟩

theorem Piped.reaction {index : Nat} (h : Piped build operations mOptions queue events s)
    (hstep : stepReaction build operations mOptions s index = some s') :
    Piped build operations mOptions queue (events ++ [.subscriber (.reaction index)]) s' := by
  have hread : packetsRead (events ++ [.subscriber (.reaction index)]) = packetsRead events := by
    simp [packetsRead]
  obtain ⟨seen, hseen, hreadings⟩ := h.process
  rw [stepReaction] at hstep
  split at hstep
  · cases hstep
  split at hstep
  · rename_i packet hp
    obtain ⟨process, hprocess, hstep⟩ := Option.bind_eq_some_iff.mp hstep
    obtain ⟨subscriber, hsubscriber, rfl⟩ := Option.map_eq_some_iff.mp hstep
    refine ⟨h.sound.step _ hsubscriber, ?_, seen ++ [.call packet],
      Transitions.run_snoc.mpr ⟨_, hseen, hprocess⟩, ?_⟩
    · obtain ⟨position, hposition, rfl⟩ := Option.map_eq_some_iff.mp hsubscriber
      obtain rfl : .callback packet = position := Option.some.inj (hp.symm.trans hposition)
      rw [hread, h.packets, undelivered_reaction h.sound hposition, handed_step hprocess,
        List.append_assoc]
      rfl
    · rw [filterMap_ofProcess rfl, ← hreadings]
      simp [readings]
  · rename_i hnot
    obtain ⟨subscriber, hsubscriber, rfl⟩ := Option.map_eq_some_iff.mp hstep
    refine ⟨h.sound.step _ hsubscriber, ?_, seen, hseen, by rwa [filterMap_ofProcess rfl]⟩
    obtain ⟨position, hposition, rfl⟩ := Option.map_eq_some_iff.mp hsubscriber
    have hsame : delivering position = [] := by
      cases position with
      | callback packet => exact absurd hposition (hnot packet)
      | _ => rfl
    rw [hread, h.packets, undelivered_reaction h.sound hposition, hsame, List.nil_append]

theorem Piped.event {event : Process.Event} (h : Piped build operations mOptions queue events s)
    (hstep : Process.step build operations mOptions s.process event = some p')
    (hc : ∀ packet, event ≠ .call packet) :
    Piped build operations mOptions queue (events ++ [.process event])
      { s with process := p' } := by
  obtain ⟨seen, hseen, hreadings⟩ := h.process
  refine ⟨h.sound, ?_, seen ++ [event], Transitions.run_snoc.mpr ⟨_, hseen, hstep⟩, ?_⟩
  · have hhanded := handed_step hstep
    cases event with
    | call packet => exact absurd rfl (hc packet)
    | producer | consumer now | cleaner now =>
      simp only [List.append_nil] at hhanded
      simp only [hhanded, ← h.packets]
      simp [packetsRead]
  · simp only [readings, ofProcess, List.filterMap_append] at hreadings ⊢
    rw [hreadings]
    rfl

theorem Piped.reconnect (h : Piped build operations mOptions queue events s)
    (hstep : step build operations mOptions s .reconnect = some s') :
    Piped build operations mOptions queue (events ++ [.reconnect]) s' := by
  obtain ⟨seen, hseen, hreadings⟩ := h.process
  rw [step] at hstep
  split at hstep
  · rename_i status had hreturned
    obtain rfl := Option.some.inj hstep
    have hdone := (h.sound.returns status had hreturned).1
    have hnone := (h.sound.single.finished hdone).1
    have hpackets := h.packets
    rw [hnone] at hpackets
    exact ⟨sound_again _, by simpa [packetsRead] using hpackets, seen, hseen,
      by rwa [filterMap_ofProcess rfl]⟩
  · cases hstep

theorem Piped.step (h : Piped build operations mOptions queue events s) (event : Event)
    (hstep : Pipeline.step build operations mOptions s event = some s') :
    Piped build operations mOptions queue (events ++ [event]) s' := by
  cases event with
  | subscriber event =>
    cases event with
    | reaction index => exact h.reaction hstep
    | readDone result | onDone status | awaiting | stop =>
      simp only [Pipeline.step, Option.map_eq_some_iff] at hstep
      obtain ⟨subscriber, hsubscriber, rfl⟩ := hstep
      exact h.reads hsubscriber (by simp)
  | process event =>
    cases event with
    | call packet => cases hstep
    | producer | consumer now | cleaner now =>
      simp only [Pipeline.step, Option.map_eq_some_iff] at hstep
      obtain ⟨process, hprocess, rfl⟩ := hstep
      exact h.event hprocess (by simp)
  | reconnect => exact h.reconnect hstep

theorem Piped.run (hrun : Pipeline.run build operations mOptions queue events = some s) :
    Piped build operations mOptions queue events s := by
  induction events using List.reverseRecOn generalizing s with
  | nil =>
    obtain rfl := Transitions.run_nil.mp hrun
    exact Piped.start queue
  | append_singleton events event ih =>
    obtain ⟨mid, hmid, hstep⟩ := Transitions.run_snoc.mp hrun
    exact (ih hmid).step event hstep

variable {contents : Q → List ServiceApi.Packet}

/-- What the subscribers read goes to the import queue in its order, all but at most the last
packet, and every packet of a reply is what the cache made of a packet that was read: of the
requested stream, valid, and inside the limits when it was checked, and no packet comes back
more often than it was read. -/
theorem reply_from_read (build : Build) (mOptions : IniFile.ProgramOptions)
    (service : ServiceImpl) (context : Metadata) (request : CacheApi.DataRequest)
    (hf : Fifo operations (mMaximumImportQueueSize mOptions) contents)
    (hmax : 1 ≤ mMaximumImportQueueSize mOptions) (hq : contents queue = [])
    (hrun : Pipeline.run build operations mOptions queue events = some s) :
    (∃ inHand : List ServiceApi.Packet, inHand.length ≤ 1 ∧
        packetsRead events = s.process.importQueue.history.handed ++ inHand) ∧
      ∀ status response timeSeries,
        (GetTimeSeries build s.process.mStreamDequeMap service context request).reply =
          some (status, response) →
        timeSeries ∈ response.timeSeries →
        timeSeries.packets = [] ∨ ∃ streamRequest ∈ request.streamRequests, ∃ key,
          timeSeries.streamIdentifier = streamRequest.streamIdentifier ∧
          toString (streamRequest.streamIdentifier.getD {}) = .ok key ∧
          timeSeries.packets.Subperm ((packetsRead events).filterMap
            (imported mOptions (readings (events.filterMap ofProcess)) key)) := by
  have hpiped := Piped.run hrun
  have hsingle := hpiped.sound.single.single
  refine ⟨⟨_, flatMap_undelivered_length (by omega), hpiped.packets⟩, ?_⟩
  intro status response timeSeries hreply hm
  obtain ⟨seen, hseen, hreadings⟩ := hpiped.process
  obtain hnil | ⟨streamRequest, hrequest, key, hid, hkey, hsubperm⟩ :=
    reply_from_handed build mOptions service context request hf hmax hq hseen hreply hm
  · exact Or.inl hnil
  · refine Or.inr ⟨streamRequest, hrequest, key, hid, hkey, ?_⟩
    rw [hreadings] at hsubperm
    rw [hpiped.packets]
    exact hsubperm.trans ((List.sublist_append_left _ _).filterMap _).subperm

def onePacketRead : List Event :=
  [.subscriber (.readDone (some (Importing.sampled (some ⟨0, 0⟩) .integer32))),
    .subscriber (.reaction 0), .subscriber (.reaction 0), .process .producer, .process .producer,
    .subscriber (.reaction 0), .process (.consumer 0), .process (.consumer 0),
    .process (.consumer 0)]

def oneTimeSeries : CacheApi.TimeSeries :=
  ⟨some (named "UU" "FTU" "HHZ" "01"), [⟨some ⟨0, 0⟩, some 1, some .integer32, some 5, some []⟩]⟩

theorem reply_from_read_one_packet :
    oneTimeSeries.packets = [] ∨
      ∃ streamRequest ∈ [windowed (named "UU" "FTU" "HHZ" "01") 0 9], ∃ key,
        oneTimeSeries.streamIdentifier = streamRequest.streamIdentifier ∧
        toString (streamRequest.streamIdentifier.getD {}) = .ok key ∧
        oneTimeSeries.packets.Subperm ((packetsRead onePacketRead).filterMap
          (imported {} (readings (onePacketRead.filterMap ofProcess)) key)) := by
  have hreply : (Pipeline.run .debug (bounded ServiceApi.Packet 4096) {} [] onePacketRead).bind
      (fun s => (GetTimeSeries .debug s.process.mStreamDequeMap (start {}) []
        ⟨none, [windowed (named "UU" "FTU" "HHZ" "01") 0 9]⟩).reply) =
      some (⟨.ok, ""⟩, ⟨none, [oneTimeSeries]⟩) := by
    decide +kernel
  obtain ⟨s, hrun, hanswer⟩ := Option.bind_eq_some_iff.mp hreply
  exact (reply_from_read .debug {} (start {}) [] _ (bounded_fifo _ _) (by decide) rfl hrun).2
    _ _ _ hanswer (List.mem_singleton_self _)

end PacketCache.Pipeline
