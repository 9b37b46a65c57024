import Mathlib.Data.List.Forall2
import PacketCache.MapRuns
import PacketCache.Service

namespace PacketCache.MultiStream

open PacketCache.MapRuns PacketCache.Messages PacketCache.Packets PacketCache.Platform
open PacketCache.Service PacketCache.StreamDequeMap PacketCache.Times

variable (build : Build) (map : StreamDequeMapImpl) (service : ServiceImpl) (context : Metadata)
variable (identifier : Option String)

def alone (streamRequest : CacheApi.StreamRequest) : Option (Status × CacheApi.DataResponse) :=
  (GetTimeSeries build map service context ⟨identifier, [streamRequest]⟩).reply

def together (streamRequests : List CacheApi.StreamRequest) :
    Option (Status × CacheApi.DataResponse) :=
  (GetTimeSeries build map service context ⟨identifier, streamRequests⟩).reply

/-- The time series of the reply to all are, one for one, those of the replies to each. -/
def AnswersOneByOne (streamRequests : List CacheApi.StreamRequest) : Prop :=
  ∃ response, together build map service context identifier streamRequests =
      some (⟨.ok, ""⟩, response) ∧
    List.Forall₂ (fun streamRequest timeSeries => ∃ single,
      alone build map service context identifier streamRequest = some (⟨.ok, ""⟩, single) ∧
        single.timeSeries = [timeSeries]) streamRequests response.timeSeries

def packetsOf (streamRequest : CacheApi.StreamRequest) : Except Fault (List CacheApi.Packet) :=
  getPackets build map (streamRequest.streamIdentifier.getD {})
    (timestampToNanoseconds (streamRequest.startTime.getD {}),
      timestampToNanoseconds (streamRequest.endTime.getD {}))

structure Answered (streamRequest : CacheApi.StreamRequest) (packets : List CacheApi.Packet)
    (request : Request) : Prop where
  accepted : service.rejects context = false
  valid : isValidRequest streamRequest = .ok ()
  constructed : Request.construct streamRequest = .ok request
  found : packetsOf build map streamRequest = .ok packets

variable {build map service context identifier} {streamRequest : CacheApi.StreamRequest}
variable {packets : List CacheApi.Packet} {request : Request}

theorem construct_identifier (h : Request.construct streamRequest = .ok request) :
    getPackets build map request.identifier request.startAndEndTime =
      packetsOf build map streamRequest := by
  obtain ⟨name, _, rfl⟩ := Request.construct_eq_ok.mp h
  rfl

theorem Answered.reply (h : Answered build map service context streamRequest packets request) :
    alone build map service context identifier streamRequest =
      some (⟨.ok, ""⟩, ⟨identifier, [setDataPackets packets
        { streamIdentifier := some request.identifier }]⟩) := by
  have hquery : queryTimeSeries build map request =
      .ok (setDataPackets packets { streamIdentifier := some request.identifier }) := by
    rw [queryTimeSeries, construct_identifier h.constructed, h.found]
  simp [alone, GetTimeSeries, validated, h.accepted, singleStream, h.valid, h.constructed, hquery,
    Construction.reply, List.findSome?_cons, Action.status]

theorem exists_answered {single : CacheApi.DataResponse}
    (h : alone build map service context identifier streamRequest = some (⟨.ok, ""⟩, single)) :
    ∃ packets request, Answered build map service context streamRequest packets request := by
  rw [alone, GetTimeSeries, validated] at h
  cases hr : service.rejects context with
  | true => simp [hr, Construction.reply, List.findSome?_cons, Action.status] at h
  | false =>
    simp only [hr, Bool.false_eq_true, ↓reduceIte, singleStream] at h
    cases hv : isValidRequest streamRequest with
    | error reason => simp [hv, Construction.reply, List.findSome?_cons, Action.status] at h
    | ok u =>
      cases hc : Request.construct streamRequest with
      | error e => simp [hv, hc, Construction.reply, List.findSome?_cons, Action.status] at h
      | ok request =>
        cases hp : packetsOf build map streamRequest with
        | ok packets => exact ⟨packets, request, hr, hv, hc, hp⟩
        | error e =>
          have hquery : queryTimeSeries build map request = .error e := by
            rw [queryTimeSeries, construct_identifier hc, hp]
          cases he : e.isException <;>
            simp [hv, hc, hquery, caught, he, Construction.reply, List.findSome?_cons,
              Action.status, serverError] at h

theorem buildRequests_nil {streamRequests : List CacheApi.StreamRequest}
    (h : ∀ streamRequest ∈ streamRequests, ∃ packets request,
      Answered build map service context streamRequest packets request) (ir : Nat) :
    buildRequests ir [] false streamRequests = .built [] false := by
  induction streamRequests generalizing ir with
  | nil => rfl
  | cons streamRequest rest ih =>
    obtain ⟨packets, request, ha⟩ := h streamRequest (by simp)
    simp only [buildRequests, ha.valid, ha.constructed, markDuplicate, List.findIdx?_nil,
      Bool.or_false]
    exact ih (fun x hx => h x (by simp [hx])) (ir + 1)

theorem together_eq {streamRequests : List CacheApi.StreamRequest}
    (hlength : 2 ≤ streamRequests.length)
    (h : ∀ streamRequest ∈ streamRequests, ∃ packets request,
      Answered build map service context streamRequest packets request) :
    together build map service context identifier streamRequests =
      some (⟨.ok, ""⟩, ⟨identifier, List.replicate streamRequests.length {}⟩) := by
  have hbuild := buildRequests_nil h 0
  match streamRequests, hlength with
  | a :: b :: rest, _ =>
    obtain ⟨_, _, ha⟩ := h a (by simp)
    simp [together, GetTimeSeries, validated, ha.accepted, multipleStreams, hbuild, queryRequests,
      Construction.reply, List.findSome?_cons, Action.status]

theorem setDataPackets_eq_empty (timeSeries : CacheApi.TimeSeries) :
    setDataPackets packets timeSeries = {} ↔ packets = [] := by
  cases packets with
  | nil => simp [setDataPackets]
  | cons packet packets => simp [setDataPackets, CacheApi.TimeSeries.mk.injEq]

theorem forall₂_replicate {α β : Type} {R : α → β → Prop} (l : List α) (b : β) :
    List.Forall₂ R l (List.replicate l.length b) ↔ ∀ a ∈ l, R a b := by
  induction l with
  | nil => simp
  | cons a l ih => simp [List.replicate_succ, ih]

/-- Stream requests that are all answered alone are answered one by one exactly when the
map has no packets for any of them. -/
theorem answersOneByOne_iff_no_packets (build : Build) (map : StreamDequeMapImpl)
    (service : ServiceImpl) (context : Metadata) (identifier : Option String)
    (streamRequests : List CacheApi.StreamRequest) (hlength : 2 ≤ streamRequests.length)
    (halone : ∀ streamRequest ∈ streamRequests, ∃ single,
      alone build map service context identifier streamRequest = some (⟨.ok, ""⟩, single)) :
    AnswersOneByOne build map service context identifier streamRequests ↔
      ∀ streamRequest ∈ streamRequests, packetsOf build map streamRequest = .ok [] := by
  have hanswered : ∀ streamRequest ∈ streamRequests, ∃ packets request,
      Answered build map service context streamRequest packets request := by
    intro streamRequest hm
    obtain ⟨single, hs⟩ := halone streamRequest hm
    exact exists_answered hs
  rw [AnswersOneByOne, together_eq hlength hanswered]
  simp only [Option.some.injEq, Prod.mk.injEq, true_and, exists_eq_left', forall₂_replicate]
  refine forall₂_congr (fun streamRequest hm => ?_)
  obtain ⟨packets, request, ha⟩ := hanswered streamRequest hm
  rw [ha.reply, ha.found]
  simp [setDataPackets_eq_empty]

def windowed (identifier : StreamIdentifier) (startTime endTime : Int64) :
    CacheApi.StreamRequest :=
  ⟨some identifier, some ⟨startTime, 0⟩, some ⟨endTime, 0⟩⟩

theorem answersOneByOne_iff_no_packets_elsewhere :
    AnswersOneByOne .debug (run .debug [.addPacket (fiveSamples (named "UU" "FTU" "HHZ" "01") 0)])
        (start {}) [] (some "client")
        [windowed (named "UU" "FTU" "HHZ" "01") 10 19, windowed (named "UU" "FTU" "HHN" "01") 0 9] ↔
      ∀ streamRequest ∈ [windowed (named "UU" "FTU" "HHZ" "01") 10 19,
        windowed (named "UU" "FTU" "HHN" "01") 0 9],
        packetsOf .debug (run .debug [.addPacket (fiveSamples (named "UU" "FTU" "HHZ" "01") 0)])
          streamRequest = .ok [] := by
  refine answersOneByOne_iff_no_packets .debug _ (start {}) [] (some "client") _ (by decide)
    (fun streamRequest hm => ⟨⟨some "client", [{}]⟩, ?_⟩)
  simp only [List.mem_cons, List.not_mem_nil, or_false] at hm
  obtain rfl | rfl := hm
  all_goals decide +kernel

/-- Two streams with a packet each are answered with two empty time series. -/
theorem stored_packets_not_answered :
    (∀ streamRequest ∈ [windowed (named "UU" "FTU" "HHZ" "01") 0 9,
        windowed (named "UU" "FTU" "HHN" "01") 0 9],
      isValidRequest streamRequest = .ok () ∧
        ((alone .release (run .release [.addPacket (fiveSamples (named "UU" "FTU" "HHZ" "01") 0),
          .addPacket (fiveSamples (named "UU" "FTU" "HHN" "01") 0)]) (start {}) [] none
          streamRequest).map Prod.fst = some ⟨.ok, ""⟩)) ∧
      together .release (run .release [.addPacket (fiveSamples (named "UU" "FTU" "HHZ" "01") 0),
          .addPacket (fiveSamples (named "UU" "FTU" "HHN" "01") 0)]) (start {}) [] none
        [windowed (named "UU" "FTU" "HHZ" "01") 0 9, windowed (named "UU" "FTU" "HHN" "01") 0 9] =
        some (⟨.ok, ""⟩, ⟨none, [{}, {}]⟩) ∧
      ¬ AnswersOneByOne .release
        (run .release [.addPacket (fiveSamples (named "UU" "FTU" "HHZ" "01") 0),
          .addPacket (fiveSamples (named "UU" "FTU" "HHN" "01") 0)]) (start {}) [] none
        [windowed (named "UU" "FTU" "HHZ" "01") 0 9,
          windowed (named "UU" "FTU" "HHN" "01") 0 9] := by
  have htogether : together .release
      (run .release [.addPacket (fiveSamples (named "UU" "FTU" "HHZ" "01") 0),
        .addPacket (fiveSamples (named "UU" "FTU" "HHN" "01") 0)]) (start {}) [] none
      [windowed (named "UU" "FTU" "HHZ" "01") 0 9, windowed (named "UU" "FTU" "HHN" "01") 0 9] =
      some (⟨.ok, ""⟩, ⟨none, [{}, {}]⟩) := by
    decide +kernel
  have halone : alone .release
      (run .release [.addPacket (fiveSamples (named "UU" "FTU" "HHZ" "01") 0),
        .addPacket (fiveSamples (named "UU" "FTU" "HHN" "01") 0)]) (start {}) [] none
      (windowed (named "UU" "FTU" "HHZ" "01") 0 9) = some (⟨.ok, ""⟩, ⟨none,
        [⟨some (named "UU" "FTU" "HHZ" "01"),
          [⟨some ⟨0, 0⟩, some 1, some .unknown, some 5, some []⟩]⟩]⟩) := by
    decide +kernel
  refine ⟨by decide +kernel, htogether, ?_⟩
  rintro ⟨response, hr, hall⟩
  rw [htogether] at hr
  simp only [Option.some.injEq, Prod.mk.injEq, true_and] at hr
  subst hr
  obtain ⟨⟨single, hs, hts⟩, _⟩ := List.forall₂_cons.mp hall
  rw [halone] at hs
  simp only [Option.some.injEq, Prod.mk.injEq, true_and] at hs
  subst hs
  simp at hts

end PacketCache.MultiStream
