import PacketCache.Iterators
import PacketCache.MultiStream
import PacketCache.Process
import PacketCache.Reactors
import PacketCache.Retention

namespace PacketCache.Provenance

open PacketCache.BoundedQueue PacketCache.Cleanup PacketCache.Identifiers PacketCache.Iterators
open PacketCache.MapRuns PacketCache.Messages PacketCache.MultiStream PacketCache.Packets
open PacketCache.Platform PacketCache.Process PacketCache.Query PacketCache.Reactors
open PacketCache.Retention PacketCache.Service PacketCache.StreamDeque
open PacketCache.StreamDequeMap PacketCache.Times

variable {build : Build} {maximum : Nat} {mDeque placed : List PacketTime} {p : PacketTime}
variable {packets : List CacheApi.Packet}

theorem subperm_of_placing (h : Placing maximum mDeque p placed) :
    placed.Subperm (p :: mDeque) := by
  cases h with
  | skipped h => exact h ▸ (List.sublist_cons_self p mDeque).subperm
  | stored h => exact h.subperm
  | displaced dropped _ h => exact (List.sublist_cons_self dropped placed).subperm.trans h.subperm

theorem mDeque_subperm_added (build : Build) (calls : List Call) (key : String) :
    (dequeOf (MapRuns.run build calls) key).mDeque.Subperm (added calls key) := by
  induction calls using List.reverseRecOn with
  | nil => exact List.Subperm.refl _
  | append_singleton calls c ih =>
    have hgrows : (added calls key).Subperm (added (calls ++ [c]) key) := by
      rw [added_snoc]
      exact (List.sublist_append_left _ _).subperm
    rw [MapRuns.run_snoc]
    cases c with
    | removeExpiredPackets oldestTime =>
      rw [dequeOf_removeExpiredPackets]
      exact List.filter_sublist.subperm.trans (ih.trans hgrows)
    | addPacket packet =>
      obtain hsame | ⟨item, placed, ha, hp, hplaced⟩ :=
        dequeOf_addPacket (Keyed.run build calls) packet key
      · rw [hsame]
        exact ih.trans hgrows
      · rw [hplaced, added_addPacket calls ha]
        have hcons := (List.subperm_cons item).mpr ih
        exact (subperm_of_placing (placing_run hp)).trans
          (hcons.trans (List.perm_append_singleton item _).symm.subperm)

theorem onePacket_sublist {it : Nat} (h : onePacket mDeque it = .ok packets) :
    packets.Sublist (mDeque.map PacketTime.packet) := by
  rw [onePacket] at h
  cases hitem : mDeque[it]? with
  | none => simp [hitem] at h
  | some item =>
    simp only [hitem, Except.ok.injEq] at h
    rw [← h]
    exact List.singleton_sublist.mpr (List.mem_map_of_mem (List.mem_of_getElem? hitem))

theorem getPackets_sublist {self : StreamDequeImpl} {window : Int × Int}
    (h : StreamDeque.getPackets build self window = .ok packets) :
    packets.Sublist (self.mDeque.map PacketTime.packet) := by
  rw [StreamDeque.getPackets] at h
  split_ifs at h with hordered
  rw [getPackets_positions] at h
  cases hfirst : firstPosition self.mDeque window.1 with
  | none =>
    simp only [hfirst, Except.ok.injEq] at h
    rw [← h]
    exact List.nil_sublist _
  | some it0 =>
    simp only [hfirst] at h
    split_ifs at h
    · exact onePacket_sublist h
    · exact onePacket_sublist h
    · obtain rfl := Except.ok.inj h
      exact List.nil_sublist _
    · obtain rfl := Except.ok.inj h
      apply (copyLoop_isPrefixOf window.2 _).sublist.trans
      exact ((List.take_sublist _ _).trans (List.drop_sublist _ _)).map PacketTime.packet

theorem map_getPackets_sublist {map : StreamDequeMapImpl} {identifier : StreamIdentifier}
    {window : Int × Int} (h : getPackets build map identifier window = .ok packets) :
    ∃ key, toString identifier = .ok key ∧
      packets.Sublist ((dequeOf map key).mDeque.map PacketTime.packet) := by
  rw [StreamDequeMap.getPackets] at h
  split_ifs at h
  rw [StreamDequeMapImpl.getPackets] at h
  cases hkey : toString identifier with
  | error e => simp [hkey] at h
  | ok key =>
    refine ⟨key, rfl, ?_⟩
    cases hget : map.mStreamDequeMap[key]? with
    | none =>
      simp only [hkey, hget, Except.ok.injEq] at h
      rw [← h]
      exact List.nil_sublist _
    | some deque =>
      simp only [hkey, hget] at h
      rw [dequeOf_some hget]
      exact getPackets_sublist h

theorem singleStream_packets {map : StreamDequeMapImpl} {streamRequest : CacheApi.StreamRequest}
    {response : CacheApi.DataResponse} {timeSeries : CacheApi.TimeSeries}
    (hr : response.timeSeries = [])
    (hm : timeSeries ∈ (singleStream build map streamRequest response).response.timeSeries)
    (hne : timeSeries.packets ≠ []) :
    timeSeries.streamIdentifier = streamRequest.streamIdentifier ∧
      packetsOf build map streamRequest = .ok timeSeries.packets := by
  rw [singleStream] at hm
  cases hv : isValidRequest streamRequest with
  | error reason => simp [hv, hr] at hm
  | ok u =>
    cases hc : Request.construct streamRequest with
    | error e => simp [hv, hc, hr] at hm
    | ok request =>
      have hpackets : getPackets build map request.identifier request.startAndEndTime =
        packetsOf build map streamRequest := construct_identifier hc
      cases hp : packetsOf build map streamRequest with
      | error e =>
        rw [hp] at hpackets
        cases he : e.isException <;>
          simp [hv, hc, queryTimeSeries, hpackets, caught, he, hr] at hm
      | ok packets =>
        rw [hp] at hpackets
        simp only [hv, hc, queryTimeSeries, hpackets, hr, List.nil_append,
          List.mem_singleton] at hm
        rw [setDataPackets] at hm
        split_ifs at hm with hempty
        · obtain ⟨identifier, _, _, hid, _⟩ := isValidRequest_fields hv
          obtain ⟨name, _, hrequest⟩ := Request.construct_eq_ok.mp hc
          refine ⟨?_, by rw [hm]; rfl⟩
          rw [hm, ← hrequest, hid, Option.getD_some]
        · rw [hm] at hne
          exact absurd rfl hne

theorem multipleStreams_packets {map : StreamDequeMapImpl}
    {streamRequests : List CacheApi.StreamRequest} {response : CacheApi.DataResponse}
    {timeSeries : CacheApi.TimeSeries} (hr : response.timeSeries = [])
    (hm : timeSeries ∈ (multipleStreams build map streamRequests response).response.timeSeries) :
    timeSeries.packets = [] := by
  rw [multipleStreams] at hm
  obtain ⟨reason, hb, _⟩ | ⟨e, hb, _, _⟩ | ⟨hb, _⟩ := buildRequests_cases 0 streamRequests
  · simp [hb, hr] at hm
  · simp [hb, hr] at hm
  · simp only [hb, queryRequests, Bool.false_eq_true, ↓reduceIte, hr, List.nil_append] at hm
    rw [List.eq_of_mem_replicate hm]

theorem packets_of_reply {map : StreamDequeMapImpl} {service : ServiceImpl} {context : Metadata}
    {request : CacheApi.DataRequest} {status : Status} {response : CacheApi.DataResponse}
    {timeSeries : CacheApi.TimeSeries}
    (hreply : (GetTimeSeries build map service context request).reply = some (status, response))
    (hm : timeSeries ∈ response.timeSeries) (hne : timeSeries.packets ≠ []) :
    ∃ streamRequest ∈ request.streamRequests,
      timeSeries.streamIdentifier = streamRequest.streamIdentifier ∧
      packetsOf build map streamRequest = .ok timeSeries.packets := by
  have hresponse : (GetTimeSeries build map service context request).response = response := by
    rw [Construction.reply] at hreply
    split at hreply
    · simp only [Option.some.injEq, Prod.mk.injEq] at hreply
      exact hreply.2
    · cases hreply
  rw [← hresponse, GetTimeSeries, validated] at hm
  split_ifs at hm with haccess
  · cases hm
  · cases hrequests : request.streamRequests with
    | nil => simp [hrequests] at hm
    | cons first rest =>
      cases rest with
      | nil =>
        simp only [hrequests] at hm
        exact ⟨first, by simp, singleStream_packets rfl hm hne⟩
      | cons second rest =>
        simp only [hrequests] at hm
        exact absurd (multipleStreams_packets rfl hm) hne

section Runs

variable {Q : Type} {operations : Operations Q ServiceApi.Packet}
variable {mOptions : IniFile.ProgramOptions} {contents : Q → List ServiceApi.Packet}
variable {s : State Q} {queue : Q} {events : List Event}

def readings (events : List Event) : List Int :=
  events.filterMap (fun event => match event with
    | .consumer now => some now
    | _ => none)

def imported (mOptions : IniFile.ProgramOptions) (readings : List Int) (key : String)
    (packet : ServiceApi.Packet) : Option CacheApi.Packet :=
  if readings.any (fun now => !isRefused mOptions now packet) then
    (addedBy key (.addPacket packet)).map PacketTime.packet
  else none

theorem passed_of_offered (hrun : Process.run build operations mOptions queue events = some s) :
    ∀ packet ∈ offered s.history.calls, ∃ now ∈ readings events,
      isRefused mOptions now packet = false := by
  induction events using List.reverseRecOn generalizing s with
  | nil =>
    obtain rfl := Transitions.run_nil.mp hrun
    simp [offered]
  | append_singleton events event ih =>
    obtain ⟨mid, hmid, hstep⟩ := Transitions.run_snoc.mp hrun
    have hearlier : ∀ packet ∈ offered mid.history.calls,
        ∃ now ∈ readings (events ++ [event]), isRefused mOptions now packet = false := by
      intro packet hm
      obtain ⟨now, hnow, hpassed⟩ := ih hmid packet hm
      exact ⟨now, by simp only [readings, List.filterMap_append, List.mem_append]; exact Or.inl hnow,
        hpassed⟩
    cases step_stepped hstep with
    | queue event moved queue hq hi => exact hearlier
    | rejected now packet hp hr => exact hearlier
    | cleaned now oldestTime hc ho =>
      simp only [offered_removeExpiredPackets]
      exact hearlier
    | counted now nRemoved hc => exact hearlier
    | offered now packet hp hr =>
      simp only [record_calls, offered_addPacket, List.mem_append, List.mem_singleton]
      rintro other (hm | rfl)
      · exact hearlier other hm
      · exact ⟨now, by simp [readings], hr⟩

theorem offered_sublist_handed {maximum : Nat}
    (hq : QueueRuns.Invariant contents maximum s.importQueue) (hi : Imported build s) :
    (offered s.history.calls).Sublist s.importQueue.history.handed := by
  have htraced : s.importQueue.history.enqueued = _ := hq.traced
  have hremoved : s.importQueue.history.removed.Sublist s.importQueue.history.enqueued := by
    rw [htraced]
    exact List.sublist_append_left _ _
  have henqueued : s.importQueue.history.enqueued.Sublist s.importQueue.history.handed := by
    rw [hq.handed, hq.enqueued]
    exact List.sublist_append_left _ _
  have hoffered := (List.sublist_append_left _ _).trans hi.order
  exact hoffered.trans (hq.obtained.trans (hremoved.trans henqueued))

theorem map_added (calls : List Call) (key : String) {times : List Int}
    (h : ∀ packet ∈ offered calls, ∃ now ∈ times, isRefused mOptions now packet = false) :
    (added calls key).map PacketTime.packet =
      (offered calls).filterMap (imported mOptions times key) := by
  induction calls with
  | nil => rfl
  | cons c calls ih =>
    cases c with
    | removeExpiredPackets oldestTime =>
      exact ih h
    | addPacket packet =>
      have hrest := ih (fun other hm => h other (by simpa [offered] using Or.inr hm))
      obtain ⟨now, hnow, hpassed⟩ := h packet (by simp [offered])
      have hany : times.any (fun now => !isRefused mOptions now packet) = true :=
        List.any_eq_true.mpr ⟨now, hnow, by simp [hpassed]⟩
      have himported : imported mOptions times key packet =
          (addedBy key (.addPacket packet)).map PacketTime.packet := by
        rw [imported, if_pos hany]
      have hcons : offered (.addPacket packet :: calls) = packet :: offered calls := rfl
      rw [hcons, List.filterMap_cons, himported, added, List.filterMap_cons, ← hrest, ← added]
      cases addedBy key (.addPacket packet) <;> rfl

/-- Every packet of a reply is what the cache made of a packet that the subscriber handed
over: of the requested stream, valid, and inside the limits when it was checked, and no packet
comes back more often than it was handed over. -/
theorem reply_from_handed (build : Build) (mOptions : IniFile.ProgramOptions)
    (service : ServiceImpl) (context : Metadata) (request : CacheApi.DataRequest)
    (hf : Fifo operations (mMaximumImportQueueSize mOptions) contents)
    (hmax : 1 ≤ mMaximumImportQueueSize mOptions) (hq : contents queue = [])
    (hrun : Process.run build operations mOptions queue events = some s)
    {status : Status} {response : CacheApi.DataResponse} {timeSeries : CacheApi.TimeSeries}
    (hreply : (GetTimeSeries build s.mStreamDequeMap service context request).reply =
      some (status, response))
    (hm : timeSeries ∈ response.timeSeries) :
    timeSeries.packets = [] ∨ ∃ streamRequest ∈ request.streamRequests, ∃ key,
      timeSeries.streamIdentifier = streamRequest.streamIdentifier ∧
      toString (streamRequest.streamIdentifier.getD {}) = .ok key ∧ timeSeries.packets.Subperm
        (s.importQueue.history.handed.filterMap (imported mOptions (readings events) key)) := by
  by_cases hne : timeSeries.packets = []
  · exact Or.inl hne
  · right
    obtain ⟨streamRequest, hrequest, hid, hpackets⟩ := packets_of_reply hreply hm hne
    obtain ⟨key, hkey, hsublist⟩ := map_getPackets_sublist hpackets
    obtain ⟨seen, hseen⟩ := run_importQueue hrun
    have hinvariant := (QueueRuns.Invariant.start hq).run hf hmax hseen
    have himported := Imported.run hrun
    refine ⟨streamRequest, hrequest, key, hid, hkey, hsublist.subperm.trans ?_⟩
    rw [himported.map]
    obtain ⟨items, hperm, hadded⟩ := mDeque_subperm_added build s.history.calls key
    have hoffered := hadded.map PacketTime.packet
    rw [map_added s.history.calls key (passed_of_offered hrun)] at hoffered
    exact ⟨items.map PacketTime.packet, hperm.map _,
      hoffered.trans ((offered_sublist_handed hinvariant himported).filterMap _)⟩

end Runs

end PacketCache.Provenance
