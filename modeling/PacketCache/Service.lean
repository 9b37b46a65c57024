import PacketCache.ServerOptions
import PacketCache.StreamDequeMap

namespace PacketCache.Service

open PacketCache.Identifiers PacketCache.Messages PacketCache.Packets PacketCache.Platform
open PacketCache.ServerOptions PacketCache.StreamDequeMap PacketCache.Times

inductive StatusCode
  | ok
  | invalidArgument
  | unauthenticated
  | internal
deriving DecidableEq

structure Status where
  code : StatusCode
  message : String := ""
deriving DecidableEq

/-- What a reactor does to the metrics and to its call, each one atomic. The decrement
of the client gauge is a subtraction and, sometimes, a store. -/
inductive Action
  | incrementNumberOfClients
  | fetchSubNumberOfClients
  | storeZeroNumberOfClients
  | incrementSuccessfulRPCCounter
  | incrementInvalidAccessCounter
  | incrementInvalidRequestCounter
  | incrementServerErrorCounter
  | finish (status : Status)
deriving DecidableEq

/-- What the constructor of a reactor does, in order, and what it leaves: the response,
and the fault that leaves it when it does not return. -/
structure Construction (Response : Type) where
  actions : List Action
  response : Response
  mSuccess : Bool := false
  thrown : Option Fault := none
deriving DecidableEq

structure ServiceImpl where
  mGRPCOptions : GRPCServerOptions
  mSecured : Bool

/-- The choice of credentials in `ServiceImpl::start`. -/
def start (mGRPCOptions : GRPCServerOptions) : ServiceImpl :=
  if mGRPCOptions.mServerKey = none ∨ mGRPCOptions.mServerCertificate = none then
    ⟨mGRPCOptions, false⟩
  else ⟨mGRPCOptions, true⟩

abbrev Metadata := List (String × String)

def validateClient (context : Metadata) (accessToken : String) : Bool :=
  accessToken = "" ||
    context.any (fun item => item.1 = "x-custom-auth-token" && item.2 = accessToken)

def ServiceImpl.rejects (service : ServiceImpl) (context : Metadata) : Bool :=
  service.mSecured &&
    match service.mGRPCOptions.mAccessToken with
    | some accessToken => !validateClient context accessToken
    | none => false

structure Request where
  identifier : StreamIdentifier
  startAndEndTime : Int × Int
  identifierString : String
  duplicateRequestIndex : Int := -1
  globalRequestIndex : Int := -1

def Request.construct (request : CacheApi.StreamRequest) : Except Fault Request :=
  let identifier := request.streamIdentifier.getD {}
  let requestStartTime := timestampToNanoseconds (request.startTime.getD {})
  let requestEndTime := timestampToNanoseconds (request.endTime.getD {})
  match toString identifier with
  | .error e => .error e
  | .ok identifierString =>
    .ok { identifier, startAndEndTime := (requestStartTime, requestEndTime), identifierString }

theorem Request.construct_eq_ok {streamRequest : CacheApi.StreamRequest} {request : Request} :
    Request.construct streamRequest = .ok request ↔
      ∃ name, toString (streamRequest.streamIdentifier.getD {}) = .ok name ∧
        { identifier := streamRequest.streamIdentifier.getD {}
          startAndEndTime := (timestampToNanoseconds (streamRequest.startTime.getD {}),
            timestampToNanoseconds (streamRequest.endTime.getD {}))
          identifierString := name } = request := by
  cases hname : toString (streamRequest.streamIdentifier.getD {}) <;>
    simp [Request.construct, hname]

theorem Request.construct_eq_error {streamRequest : CacheApi.StreamRequest} {e : Fault} :
    Request.construct streamRequest = .error e ↔
      toString (streamRequest.streamIdentifier.getD {}) = .error e := by
  cases hname : toString (streamRequest.streamIdentifier.getD {}) <;>
    simp [Request.construct, hname]

/-- `operator==` on two requests. -/
def Request.matches (lhs rhs : Request) : Bool :=
  if lhs.duplicateRequestIndex = -1 ∧ rhs.duplicateRequestIndex = -1 then false
  else if lhs.startAndEndTime.1 ≠ rhs.startAndEndTime.1 then false
  else if lhs.startAndEndTime.2 ≠ rhs.startAndEndTime.2 then false
  else if lhs.identifierString ≠ rhs.identifierString then false
  else true

def setDataPackets (dataPackets : List CacheApi.Packet) (timeSeries : CacheApi.TimeSeries) :
    CacheApi.TimeSeries :=
  if dataPackets ≠ [] then { timeSeries with packets := timeSeries.packets ++ dataPackets } else {}

def queryTimeSeries (build : Build) (map : StreamDequeMapImpl) (request : Request) :
    Except Fault CacheApi.TimeSeries :=
  match getPackets build map request.identifier request.startAndEndTime with
  | .error e => .error e
  | .ok dataPackets =>
    .ok (setDataPackets dataPackets { streamIdentifier := some request.identifier })

def serverError : Status := ⟨.internal, "Server error - try using a different endpoint"⟩

section Reactors

variable {Response : Type} (build : Build) (map : StreamDequeMapImpl)

/-- An exception that a handler catches ends the call; any other fault ends the process. -/
def caught (actions : List Action) (response : Response) (e : Fault) : Construction Response :=
  if e.isException then { actions := actions, response := response }
  else { actions := [], response := response, thrown := some e }

def singleStream (streamRequest : CacheApi.StreamRequest) (response : CacheApi.DataResponse) :
    Construction CacheApi.DataResponse :=
  match isValidRequest streamRequest with
  | .error reason =>
    { actions := [.incrementInvalidRequestCounter, .finish ⟨.invalidArgument, reason⟩], response }
  | .ok _ =>
    match Request.construct streamRequest with
    | .error e => { actions := [], response, thrown := some e }
    | .ok request =>
      match queryTimeSeries build map request with
      | .error e => caught [.finish serverError, .incrementServerErrorCounter] response e
      | .ok timeSeries =>
        { actions := [.incrementSuccessfulRPCCounter, .finish ⟨.ok, ""⟩]
          response := { response with timeSeries := response.timeSeries ++ [timeSeries] } }

def markDuplicate (ir : Nat) (requests : List Request) (request : Request) : Bool × Request :=
  match requests.findIdx? (fun other => request.matches other) with
  | some jr => (true, { request with duplicateRequestIndex := jr, globalRequestIndex := ir })
  | none => (false, request)

inductive Built
  | refused (reason : String)
  | threw (e : Fault)
  | built (requests : List Request) (hasDuplicates : Bool)

/-- The loop over the stream requests. It checks each one and looks for it among the
`requests`, but appends none to them: the marked request goes out of scope. -/
def buildRequests (ir : Nat) (requests : List Request) (hasDuplicates : Bool) :
    List CacheApi.StreamRequest → Built
  | [] => .built requests hasDuplicates
  | streamRequest :: rest =>
    match isValidRequest streamRequest with
    | .error reason => .refused (reason ++ " for stream request " ++ Nat.repr ir)
    | .ok _ =>
      match Request.construct streamRequest with
      | .error e => .threw e
      | .ok request =>
        let (found, _) := markDuplicate ir requests request
        buildRequests (ir + 1) requests (hasDuplicates || found) rest

/-- An element of a vector, which the code takes without a check of the bounds. -/
def element (timeSeries : List CacheApi.TimeSeries) (index : Int) :
    Except Fault CacheApi.TimeSeries :=
  if index < 0 then .error .pastTheEnd
  else
    match timeSeries[index.toNat]? with
    | some value => .ok value
    | none => .error .pastTheEnd

def assign (timeSeries : List CacheApi.TimeSeries) (index : Int) (value : CacheApi.TimeSeries) :
    Except Fault (List CacheApi.TimeSeries) :=
  if 0 ≤ index ∧ index < timeSeries.length then .ok (timeSeries.set index.toNat value)
  else .error .pastTheEnd

def queryRequests : List Request → List CacheApi.TimeSeries →
    Except Fault (List CacheApi.TimeSeries)
  | [], timeSeriesFromQuery => .ok timeSeriesFromQuery
  | request :: rest, timeSeriesFromQuery =>
    if request.duplicateRequestIndex = -1 then
      match queryTimeSeries build map request with
      | .error e => .error e
      | .ok timeSeries =>
        match assign timeSeriesFromQuery request.globalRequestIndex timeSeries with
        | .error e => .error e
        | .ok timeSeriesFromQuery => queryRequests rest timeSeriesFromQuery
    else queryRequests rest timeSeriesFromQuery

def copyDuplicates : List Request → List CacheApi.TimeSeries →
    Except Fault (List CacheApi.TimeSeries)
  | [], timeSeriesFromQuery => .ok timeSeriesFromQuery
  | request :: rest, timeSeriesFromQuery =>
    if request.duplicateRequestIndex ≠ -1 then
      match element timeSeriesFromQuery request.globalRequestIndex with
      | .error e => .error e
      | .ok timeSeries =>
        match assign timeSeriesFromQuery request.duplicateRequestIndex timeSeries with
        | .error e => .error e
        | .ok timeSeriesFromQuery => copyDuplicates rest timeSeriesFromQuery
    else copyDuplicates rest timeSeriesFromQuery

def multipleStreams (streamRequests : List CacheApi.StreamRequest)
    (response : CacheApi.DataResponse) : Construction CacheApi.DataResponse :=
  match buildRequests 0 [] false streamRequests with
  | .refused reason =>
    { actions := [.finish ⟨.invalidArgument, reason⟩, .incrementInvalidRequestCounter], response }
  | .threw e => { actions := [], response, thrown := some e }
  | .built requests hasDuplicates =>
    match queryRequests build map requests (List.replicate streamRequests.length {}) with
    | .error e => caught [.finish serverError, .incrementServerErrorCounter] response e
    | .ok timeSeriesFromQuery =>
      match (if hasDuplicates then copyDuplicates requests timeSeriesFromQuery
          else .ok timeSeriesFromQuery) with
      | .error e => { actions := [], response, thrown := some e }
      | .ok timeSeriesFromQuery =>
        { actions := [.finish ⟨.ok, ""⟩]
          response := { response with timeSeries := response.timeSeries ++ timeSeriesFromQuery }
          mSuccess := true }

def validated (service : ServiceImpl) (context : Metadata) (response : Response)
    (body : Construction Response) : Construction Response :=
  if service.rejects context then
    { actions := [.incrementNumberOfClients, .incrementInvalidAccessCounter,
        .finish ⟨.unauthenticated, "Invalid access token"⟩]
      response }
  else { body with actions := .incrementNumberOfClients :: body.actions }

def GetTimeSeries (service : ServiceImpl) (context : Metadata) (request : CacheApi.DataRequest) :
    Construction CacheApi.DataResponse :=
  let response : CacheApi.DataResponse := { identifier := request.identifier }
  validated service context {}
    (match request.streamRequests with
      | [] =>
        { actions := [.incrementInvalidRequestCounter,
            .finish ⟨.invalidArgument, "No streams specified in request"⟩]
          response }
      | [streamRequest] => singleStream build map streamRequest response
      | streamRequests => multipleStreams build map streamRequests response)

def GetAvailableStreams (service : ServiceImpl) (context : Metadata)
    (request : CacheApi.AvailableStreamsRequest) :
    Construction CacheApi.AvailableStreamsResponse :=
  let response : CacheApi.AvailableStreamsResponse := { identifier := request.identifier }
  validated service context {}
    (match map.getAvailableStreams build with
      | .error e => caught [.incrementServerErrorCounter, .finish serverError] response e
      | .ok streams =>
        { actions := [.finish ⟨.ok, ""⟩]
          response := { response with streamIdentifiers := streams }
          mSuccess := true })

end Reactors

def Action.status : Action → Option Status
  | .finish status => some status
  | _ => none

/-- The status that is passed to `Finish`, and the response as it is then. -/
def Construction.reply {Response : Type} (construction : Construction Response) :
    Option (Status × Response) :=
  match construction.actions.findSome? Action.status with
  | some status => some (status, construction.response)
  | none => none

/-- `OnDone` up to the metrics of durations. -/
def onDone (mSuccess : Bool) : List Action :=
  .fetchSubNumberOfClients :: if mSuccess then [.incrementSuccessfulRPCCounter] else []

end PacketCache.Service
