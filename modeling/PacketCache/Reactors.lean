import PacketCache.Service
import PacketCache.StreamNames

namespace PacketCache.Reactors

open PacketCache.Identifiers PacketCache.Messages PacketCache.Packets PacketCache.Platform
open PacketCache.Service PacketCache.StreamDequeMap PacketCache.StreamNames

/-- A call, with the content that the map has when its constructor reads it. -/
inductive Rpc
  | getTimeSeries (context : Metadata) (request : CacheApi.DataRequest) (map : StreamDequeMapImpl)
  | getAvailableStreams (context : Metadata) (request : CacheApi.AvailableStreamsRequest)
      (map : StreamDequeMapImpl)

def Rpc.construct (build : Build) (service : ServiceImpl) :
    Rpc → Construction (List CacheApi.TimeSeries)
  | .getTimeSeries context request map =>
    let construction := GetTimeSeries build map service context request
    { construction with response := construction.response.timeSeries }
  | .getAvailableStreams context request map =>
    { GetAvailableStreams build map service context request with response := [] }

def Action.isFinish : Action → Bool
  | .finish _ => true
  | _ => false

def Action.isOutcome : Action → Bool
  | .incrementSuccessfulRPCCounter | .incrementInvalidAccessCounter
  | .incrementInvalidRequestCounter | .incrementServerErrorCounter => true
  | _ => false

def Action.isGauge : Action → Bool
  | .incrementNumberOfClients | .fetchSubNumberOfClients | .storeZeroNumberOfClients => true
  | _ => false

def EmptyCode (streamRequest : CacheApi.StreamRequest) : Prop :=
  ∃ identifier, streamRequest.streamIdentifier = some identifier ∧
    (identifier.network = some "" ∨ identifier.station = some "" ∨ identifier.channel = some "")

/-- Some stream request has an empty code, and it and those before it are valid. -/
def ReachesEmptyCode : List CacheApi.StreamRequest → Prop
  | [] => False
  | streamRequest :: rest =>
    isValidRequest streamRequest = .ok () ∧ (EmptyCode streamRequest ∨ ReachesEmptyCode rest)

def Malformed (service : ServiceImpl) : Rpc → Prop
  | .getTimeSeries context request _ =>
    service.rejects context = false ∧ ReachesEmptyCode request.streamRequests
  | .getAvailableStreams _ _ _ => False

structure Returns {Response : Type} (series : Response → List CacheApi.TimeSeries)
    (construction : Construction Response) : Prop where
  thrown : construction.thrown = none
  finish : construction.actions.countP Action.isFinish = 1
  outcome : (construction.actions ++ onDone construction.mSuccess).countP Action.isOutcome = 1
  gauge : ∀ action ∈ construction.actions, Action.isGauge action = false
  series : series construction.response ≠ [] → .finish ⟨.ok, ""⟩ ∈ construction.actions

def Escapes {Response : Type} (construction : Construction Response) (e : Fault) : Prop :=
  construction.actions = [] ∧ construction.thrown = some e

variable {Response : Type} {series : Response → List CacheApi.TimeSeries}
variable {build : Build} {map : StreamDequeMapImpl} {streamRequest : CacheApi.StreamRequest}

theorem presentCode_error {field : String} {value : Option String} {e : Fault}
    (h : presentCode field value = .error e) :
    e.isException = true ∧ (value = none ∨ value = some "") := by
  cases value with
  | none =>
    obtain rfl := Except.error.inj h
    exact ⟨rfl, Or.inl rfl⟩
  | some code =>
    rw [presentCode] at h
    split_ifs at h with he
    obtain rfl := Except.error.inj h
    exact ⟨rfl, Or.inr (by rw [he])⟩

theorem toString_error {identifier : StreamIdentifier} {e : Fault}
    (h : toString identifier = .error e) :
    e.isException = true ∧ ((identifier.network = none ∨ identifier.network = some "") ∨
      (identifier.station = none ∨ identifier.station = some "") ∨
      (identifier.channel = none ∨ identifier.channel = some "")) := by
  obtain hn | hs | hc := toString_fault h
  · exact ⟨(presentCode_error hn).1, Or.inl (presentCode_error hn).2⟩
  · exact ⟨(presentCode_error hs).1, Or.inr (Or.inl (presentCode_error hs).2)⟩
  · exact ⟨(presentCode_error hc).1, Or.inr (Or.inr (presentCode_error hc).2)⟩

theorem construct_error {e : Fault} (hv : isValidRequest streamRequest = .ok ())
    (h : Request.construct streamRequest = .error e) :
    e.isException = true ∧ EmptyCode streamRequest := by
  obtain ⟨identifier, _, _, hid, ⟨hn, hs, hc, _⟩, _⟩ := isValidRequest_fields hv
  rw [Request.construct_eq_error, hid, Option.getD_some] at h
  obtain ⟨he, hempty⟩ := toString_error h
  simp only [hn, hs, hc, false_or] at hempty
  exact ⟨he, identifier, hid, hempty⟩

theorem construct_ok {request : Request} (h : Request.construct streamRequest = .ok request) :
    ¬ EmptyCode streamRequest := by
  rintro ⟨identifier, hid, hempty⟩
  obtain ⟨name, hname, _⟩ := Request.construct_eq_ok.mp h
  rw [hid, Option.getD_some] at hname
  obtain ⟨network, station, channel, hp, _⟩ := toString_ok hname
  have hn := hp.network
  have hs := hp.station
  have hc := hp.channel
  simp only [hn.1, hs.1, hc.1, Option.some.injEq, hn.2, hs.2, hc.2, or_self] at hempty

theorem caught_cases {actions : List Action} {response : Response} (e : Fault)
    (hfinish : actions.countP Action.isFinish = 1)
    (houtcome : (actions ++ onDone false).countP Action.isOutcome = 1)
    (hgauge : ∀ action ∈ actions, Action.isGauge action = false) (hseries : series response = []) :
    Returns series (caught actions response e) ∨
      e.isException = false ∧ Escapes (caught actions response e) e := by
  cases he : e.isException with
  | true =>
    apply Or.inl
    rw [caught, if_pos he]
    exact ⟨rfl, hfinish, houtcome, hgauge, fun hne => absurd hseries hne⟩
  | false =>
    refine Or.inr ⟨rfl, ?_⟩
    rw [caught, if_neg (by simp [he])]
    exact ⟨rfl, rfl⟩

/-- The spec of a body: it returns balanced, or a fault leaves it, an exception exactly
when the request is malformed. -/
def Spec (series : Response → List CacheApi.TimeSeries) (malformed : Prop)
    (body : Construction Response) : Prop :=
  Returns series body ∧ ¬ malformed ∨
    ∃ e, Escapes body e ∧ (e.isException = true ↔ malformed)

theorem spec_of_caught {malformed : Prop} {body : Construction Response} {e : Fault}
    (h : Returns series body ∨ e.isException = false ∧ Escapes body e) (hm : ¬ malformed) :
    Spec series malformed body := by
  cases h with
  | inl hreturns => exact Or.inl ⟨hreturns, hm⟩
  | inr hescapes => exact Or.inr ⟨e, hescapes.2, by simp [hescapes.1, hm]⟩

theorem singleStream_spec (response : CacheApi.DataResponse) (hr : response.timeSeries = []) :
    Spec CacheApi.DataResponse.timeSeries (ReachesEmptyCode [streamRequest])
      (singleStream build map streamRequest response) := by
  cases hv : isValidRequest streamRequest with
  | error reason =>
    simp only [singleStream, hv]
    refine Or.inl ⟨⟨rfl, rfl, rfl, by simp [Action.isGauge], fun hne => absurd hr hne⟩, ?_⟩
    simp [ReachesEmptyCode, hv]
  | ok u =>
    cases hc : Request.construct streamRequest with
    | error e =>
      obtain ⟨he, hempty⟩ := construct_error hv hc
      simp only [singleStream, hv, hc]
      exact Or.inr ⟨e, ⟨rfl, rfl⟩, iff_of_true he ⟨hv, Or.inl hempty⟩⟩
    | ok request =>
      have hm : ¬ ReachesEmptyCode [streamRequest] := by
        simp [ReachesEmptyCode, construct_ok hc]
      cases hq : queryTimeSeries build map request with
      | error e =>
        simp only [singleStream, hv, hc, hq]
        exact spec_of_caught (caught_cases e rfl rfl (by simp [Action.isGauge]) hr) hm
      | ok timeSeries =>
        simp only [singleStream, hv, hc, hq]
        exact Or.inl ⟨⟨rfl, rfl, rfl, by simp [Action.isGauge], fun _ => by simp⟩, hm⟩

theorem buildRequests_cases (ir : Nat) (streamRequests : List CacheApi.StreamRequest) :
    (∃ reason, buildRequests ir [] false streamRequests = .refused reason ∧
        ¬ ReachesEmptyCode streamRequests) ∨
      (∃ e, buildRequests ir [] false streamRequests = .threw e ∧ e.isException = true ∧
        ReachesEmptyCode streamRequests) ∨
      buildRequests ir [] false streamRequests = .built [] false ∧
        ¬ ReachesEmptyCode streamRequests := by
  induction streamRequests generalizing ir with
  | nil => exact Or.inr (Or.inr ⟨rfl, id⟩)
  | cons streamRequest rest ih =>
    cases hv : isValidRequest streamRequest with
    | error reason =>
      refine Or.inl ⟨reason ++ " for stream request " ++ Nat.repr ir, ?_, ?_⟩
      · simp only [buildRequests, hv]
      · simp [ReachesEmptyCode, hv]
    | ok u =>
      cases hc : Request.construct streamRequest with
      | error e =>
        obtain ⟨he, hempty⟩ := construct_error hv hc
        exact Or.inr (Or.inl ⟨e, by simp only [buildRequests, hv, hc], he, hv, Or.inl hempty⟩)
      | ok request =>
        have hstep : buildRequests ir [] false (streamRequest :: rest) =
            buildRequests (ir + 1) [] false rest := by
          simp only [buildRequests, hv, hc, markDuplicate, List.findIdx?_nil, Bool.or_false]
        have hreach : ReachesEmptyCode (streamRequest :: rest) ↔ ReachesEmptyCode rest := by
          simp [ReachesEmptyCode, hv, construct_ok hc]
        rw [hstep, hreach]
        exact ih (ir + 1)

theorem multipleStreams_spec (streamRequests : List CacheApi.StreamRequest)
    (response : CacheApi.DataResponse) (hr : response.timeSeries = []) :
    Spec CacheApi.DataResponse.timeSeries (ReachesEmptyCode streamRequests)
      (multipleStreams build map streamRequests response) := by
  cases buildRequests_cases 0 streamRequests with
  | inl hrefused =>
    obtain ⟨reason, hb, hm⟩ := hrefused
    simp only [multipleStreams, hb]
    exact Or.inl ⟨⟨rfl, rfl, rfl, by simp [Action.isGauge], fun hne => absurd hr hne⟩, hm⟩
  | inr hrest =>
    cases hrest with
    | inl hthrew =>
      obtain ⟨e, hb, he, hm⟩ := hthrew
      simp only [multipleStreams, hb]
      exact Or.inr ⟨e, ⟨rfl, rfl⟩, iff_of_true he hm⟩
    | inr hbuilt =>
      simp only [multipleStreams, hbuilt.1, queryRequests, Bool.false_eq_true, ↓reduceIte]
      exact Or.inl ⟨⟨rfl, rfl, rfl, by simp [Action.isGauge], fun _ => by simp⟩, hbuilt.2⟩

theorem getTimeSeries_spec (build : Build) (map : StreamDequeMapImpl) (service : ServiceImpl)
    (context : Metadata) (request : CacheApi.DataRequest) :
    ∃ body, GetTimeSeries build map service context request =
        validated service context {} body ∧
      Spec CacheApi.DataResponse.timeSeries (ReachesEmptyCode request.streamRequests) body := by
  refine ⟨_, rfl, ?_⟩
  cases request.streamRequests with
  | nil =>
    exact Or.inl ⟨⟨rfl, rfl, rfl, by simp [Action.isGauge], fun hne => absurd rfl hne⟩, id⟩
  | cons streamRequest rest =>
    cases rest with
    | nil => exact singleStream_spec _ rfl
    | cons other rest => exact multipleStreams_spec _ _ rfl

theorem getAvailableStreams_spec (build : Build) (map : StreamDequeMapImpl)
    (service : ServiceImpl) (context : Metadata) (request : CacheApi.AvailableStreamsRequest) :
    ∃ body, GetAvailableStreams build map service context request =
        validated service context {} body ∧ Spec (fun _ => []) False body := by
  refine ⟨_, rfl, ?_⟩
  cases map.getAvailableStreams build with
  | error e => exact spec_of_caught (caught_cases e rfl rfl (by simp [Action.isGauge]) rfl) id
  | ok streams => exact Or.inl ⟨⟨rfl, rfl, rfl, by simp [Action.isGauge], fun _ => by simp⟩, id⟩

structure Constructs (malformed : Prop) (construction : Construction (List CacheApi.TimeSeries))
    (rest : List Action) : Prop where
  actions : construction.actions = .incrementNumberOfClients :: rest
  spec : Spec id malformed { construction with actions := rest }

theorem validated_constructs (service : ServiceImpl) (context : Metadata) {malformed : Prop}
    (empty : Response) {body : Construction Response} (hempty : series empty = [])
    (h : Spec series malformed body) :
    ∃ rest, Constructs (service.rejects context = false ∧ malformed)
      { validated service context empty body with
        response := series (validated service context empty body).response } rest := by
  rw [validated]
  cases hr : service.rejects context with
  | true =>
    refine ⟨_, rfl, Or.inl ⟨⟨rfl, rfl, rfl, by simp [Action.isGauge], fun hne => ?_⟩, by simp⟩⟩
    exact absurd hempty hne
  | false =>
    refine ⟨body.actions, rfl, ?_⟩
    simp only [true_and]
    cases h with
    | inl hreturns =>
      obtain ⟨⟨h1, h2, h3, h4, h5⟩, hm⟩ := hreturns
      exact Or.inl ⟨⟨h1, h2, h3, h4, h5⟩, hm⟩
    | inr hescapes => exact Or.inr hescapes

theorem construct_constructs (build : Build) (service : ServiceImpl) (rpc : Rpc) :
    ∃ rest, Constructs (Malformed service rpc) (rpc.construct build service) rest := by
  cases rpc with
  | getTimeSeries context request map =>
    obtain ⟨body, he, h⟩ := getTimeSeries_spec build map service context request
    simp only [Rpc.construct, he]
    exact validated_constructs service context {} rfl h
  | getAvailableStreams context request map =>
    obtain ⟨body, he, h⟩ := getAvailableStreams_spec build map service context request
    have hc := validated_constructs service context {} rfl h
    simp only [and_false] at hc
    simp only [Rpc.construct, he]
    exact hc

end PacketCache.Reactors
