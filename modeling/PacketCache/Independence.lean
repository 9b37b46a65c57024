import PacketCache.MultiStream
import PacketCache.Reactors

namespace PacketCache.Independence

open PacketCache.Identifiers PacketCache.MapRuns PacketCache.Messages PacketCache.MultiStream
open PacketCache.Packets PacketCache.Platform PacketCache.Reactors PacketCache.Service
open PacketCache.StreamDeque PacketCache.StreamDequeMap

variable {build : Build} {map other : StreamDequeMapImpl} {key : String}

def concerns (key : String) : Call → Bool
  | .addPacket packet =>
    match toString (packet.streamIdentifier.getD {}) with
    | .ok name => name = key
    | .error _ => false
  | .removeExpiredPackets _ => true

theorem concerns_of_accept {packet : ServiceApi.Packet} {name : String} {item : PacketTime}
    (ha : accept packet = .ok (name, item)) :
    concerns key (.addPacket packet) = decide (name = key) := by
  simp [concerns, (accept_ok ha).1]

theorem call_unconcerned (hk : Keyed map) {c : Call} (h : concerns key c = false) :
    (call build map c).mStreamDequeMap[key]? = map.mStreamDequeMap[key]? := by
  cases c with
  | removeExpiredPackets oldestTime => cases h
  | addPacket packet =>
    obtain ⟨e, final, hf, hsame, _⟩ | ⟨name, item, placed, final, ha, _, hf, hu⟩ :=
      addPacket_cases build hk packet
    · rw [call, hf, finalState_error, hsame key]
    · rw [concerns_of_accept ha, decide_eq_false_iff_not] at h
      rw [call, hf, finalState_ok, hu key, if_neg (Ne.symm h)]

theorem dequeOf_congr (h : map.mStreamDequeMap[key]? = other.mStreamDequeMap[key]?) :
    dequeOf map key = dequeOf other key := by
  rw [dequeOf, dequeOf, h]

theorem call_congr (hk : Keyed map) (hko : Keyed other)
    (h : map.mStreamDequeMap[key]? = other.mStreamDequeMap[key]?) (c : Call) :
    (call build map c).mStreamDequeMap[key]? = (call build other c).mStreamDequeMap[key]? := by
  cases hc : concerns key c with
  | false => rw [call_unconcerned hk hc, call_unconcerned hko hc, h]
  | true =>
    cases c with
    | removeExpiredPackets oldestTime => simp only [call, removeExpiredPackets_getElem?, h]
    | addPacket packet =>
      have hadd := addPacket_accept build hk packet
      have hother := addPacket_accept build hko packet
      cases ha : accept packet with
      | error e =>
        simp only [ha] at hadd hother
        obtain ⟨final, hf, hs⟩ := hadd
        obtain ⟨final', hf', hs'⟩ := hother
        rw [call, call, hf, hf', finalState_error, finalState_error, hs key, hs' key, h]
      | ok accepted =>
        obtain ⟨name, item⟩ := accepted
        obtain rfl : name = key := by simpa [concerns_of_accept ha] using hc
        simp only [ha, dequeOf_congr h] at hadd hother
        cases hp : placePacket build (dequeOf other name).mMaximumNumberOfPackets
            (dequeOf other name).mDeque item with
        | error e =>
          simp only [hp] at hadd hother
          obtain ⟨final, hf, hs⟩ := hadd
          obtain ⟨final', hf', hs'⟩ := hother
          rw [call, call, hf, hf', finalState_error, finalState_error, hs name, hs' name, h]
        | ok placed =>
          simp only [hp] at hadd hother
          obtain ⟨final, hf, hu⟩ := hadd
          obtain ⟨final', hf', hu'⟩ := hother
          rw [call, call, hf, hf', finalState_ok, finalState_ok, hu name, hu' name, if_pos rfl,
            if_pos rfl]

theorem run_filter (build : Build) (calls : List Call) (key : String) :
    (run build (calls.filter (concerns key))).mStreamDequeMap[key]? =
      (run build calls).mStreamDequeMap[key]? := by
  induction calls using List.reverseRecOn with
  | nil => rfl
  | append_singleton calls c ih =>
    rw [List.filter_append, run_snoc]
    cases hc : concerns key c with
    | false =>
      rw [List.filter_cons_of_neg (by simp [hc]), List.filter_nil, List.append_nil, ih,
        call_unconcerned (Keyed.run build calls) hc]
    | true =>
      rw [List.filter_cons_of_pos hc, List.filter_nil, run_snoc]
      exact call_congr (Keyed.run build _) (Keyed.run build calls) ih c

theorem packetsOf_congr {streamRequest : CacheApi.StreamRequest}
    (h : ∀ key, toString (streamRequest.streamIdentifier.getD {}) = .ok key →
      map.mStreamDequeMap[key]? = other.mStreamDequeMap[key]?) :
    packetsOf build map streamRequest = packetsOf build other streamRequest :=
  getPackets_congr build h

theorem singleStream_congr {streamRequest : CacheApi.StreamRequest}
    (h : ∀ key, toString (streamRequest.streamIdentifier.getD {}) = .ok key →
      map.mStreamDequeMap[key]? = other.mStreamDequeMap[key]?) (response : CacheApi.DataResponse) :
    singleStream build map streamRequest response =
      singleStream build other streamRequest response := by
  have hquery : ∀ request, Request.construct streamRequest = .ok request →
      queryTimeSeries build map request = queryTimeSeries build other request := by
    intro request hc
    rw [queryTimeSeries, queryTimeSeries, construct_identifier hc, construct_identifier hc,
      packetsOf_congr h]
  rw [singleStream, singleStream]
  cases isValidRequest streamRequest with
  | error reason => rfl
  | ok u =>
    cases hc : Request.construct streamRequest with
    | error e => rfl
    | ok request => simp only [hquery request hc]

theorem multipleStreams_congr (streamRequests : List CacheApi.StreamRequest)
    (response : CacheApi.DataResponse) :
    multipleStreams build map streamRequests response =
      multipleStreams build other streamRequests response := by
  rw [multipleStreams, multipleStreams]
  obtain ⟨reason, hb, _⟩ | ⟨e, hb, _, _⟩ | ⟨hb, _⟩ := buildRequests_cases 0 streamRequests
  · simp only [hb]
  · simp only [hb]
  · simp only [hb, queryRequests]

theorem getTimeSeries_congr {service : ServiceImpl} {context : Metadata}
    {request : CacheApi.DataRequest}
    (h : ∀ streamRequest ∈ request.streamRequests, ∀ key,
      toString (streamRequest.streamIdentifier.getD {}) = .ok key →
        map.mStreamDequeMap[key]? = other.mStreamDequeMap[key]?) :
    GetTimeSeries build map service context request =
      GetTimeSeries build other service context request := by
  rw [GetTimeSeries, GetTimeSeries]
  cases hr : request.streamRequests with
  | nil => rfl
  | cons first rest =>
    cases rest with
    | nil => simp only [singleStream_congr (h first (by simp [hr]))]
    | cons second rest => simp only [@multipleStreams_congr build map other]

/-- Two runs that agree on the packets of the requested streams and on the clean-ups, in
their order, answer a request in the same way, whatever they do with other streams. -/
theorem reply_depends_on_own_streams (build : Build) (service : ServiceImpl) (context : Metadata)
    (request : CacheApi.DataRequest) (calls others : List Call)
    (h : ∀ streamRequest ∈ request.streamRequests, ∀ key,
      toString (streamRequest.streamIdentifier.getD {}) = .ok key →
        calls.filter (concerns key) = others.filter (concerns key)) :
    GetTimeSeries build (run build calls) service context request =
      GetTimeSeries build (run build others) service context request := by
  refine getTimeSeries_congr (fun streamRequest hm key hkey => ?_)
  rw [← run_filter build calls, h streamRequest hm key hkey, run_filter]

theorem reply_depends_on_own_streams_other_station :
    GetTimeSeries .release (run .release
        [.addPacket (fiveSamples (named "UU" "FTU" "HHZ" "01") 0),
          .addPacket (fiveSamples (named "UU" "CTU" "HHZ" "01") 0), .removeExpiredPackets 0])
        (start {}) [] ⟨none, [windowed (named "UU" "FTU" "HHZ" "01") 0 9]⟩ =
      GetTimeSeries .release (run .release
        [.addPacket (fiveSamples (named "UU" "FTU" "HHZ" "01") 0), .removeExpiredPackets 0])
        (start {}) [] ⟨none, [windowed (named "UU" "FTU" "HHZ" "01") 0 9]⟩ := by
  refine reply_depends_on_own_streams .release (start {}) [] _ _ _ ?_
  intro streamRequest hm key hkey
  obtain rfl := List.mem_singleton.mp hm
  have hname : toString (named "UU" "FTU" "HHZ" "01") = .ok "UU.FTU.HHZ.01" := by decide +kernel
  obtain rfl := Except.ok.inj (hname.symm.trans hkey)
  have hown : concerns "UU.FTU.HHZ.01"
      (.addPacket (fiveSamples (named "UU" "FTU" "HHZ" "01") 0)) = true := by decide +kernel
  have hforeign : concerns "UU.FTU.HHZ.01"
      (.addPacket (fiveSamples (named "UU" "CTU" "HHZ" "01") 0)) = false := by decide +kernel
  have hcleanup : concerns "UU.FTU.HHZ.01" (.removeExpiredPackets 0) = true := rfl
  simp only [List.filter_cons, hown, hforeign, hcleanup, Bool.false_eq_true, ↓reduceIte]

end PacketCache.Independence
