import PacketCache.Identifiers
import PacketCache.ServerOptions

namespace PacketCache.ClientOptions

open PacketCache.Identifiers PacketCache.Platform PacketCache.ServerOptions

/-- The waits of the schedule are in milliseconds. The setters refuse empty strings, a port
of zero and a negative wait. -/
structure GRPCClientOptions where
  mHost : String := "localhost"
  mAccessToken : Option String := none
  mServerCertificate : Option String := none
  mClientCertificate : Option String := none
  mClientKey : Option String := none
  mReconnectSchedule : List Int := [0, 5000, 15000, 30000]
  mPort : UInt16 := 50000
  host_ne : mHost ≠ ""
  accessToken_ne : mAccessToken ≠ some ""
  schedule_nonneg : ∀ time ∈ mReconnectSchedule, 0 ≤ time
  port_ne : mPort ≠ 0

namespace GRPCClientOptions

theorem defaultHost_ne : "localhost" ≠ "" := by decide

theorem defaultToken_ne : (none : Option String) ≠ some "" := by decide

theorem defaultSchedule_nonneg : ∀ time ∈ [(0 : Int), 5000, 15000, 30000], 0 ≤ time := by decide

theorem defaultPort_ne : (50000 : UInt16) ≠ 0 := by decide

def construct : GRPCClientOptions where
  host_ne := defaultHost_ne
  accessToken_ne := defaultToken_ne
  schedule_nonneg := defaultSchedule_nonneg
  port_ne := defaultPort_ne

def setHost (options : GRPCClientOptions) (hostIn : String) : Except Fault GRPCClientOptions :=
  let host := eraseSpaces hostIn
  if h : host = "" then .error (.invalidArgument "Host is empty")
  else .ok { options with mHost := host, host_ne := h }

def setPort (options : GRPCClientOptions) (port : UInt16) : Except Fault GRPCClientOptions :=
  if h : port = 0 then .error (.invalidArgument "Port must be positive")
  else .ok { options with mPort := port, port_ne := h }

def setServerCertificate (options : GRPCClientOptions) (cert : String) :
    Except Fault GRPCClientOptions :=
  if cert = "" then .error (.invalidArgument "Server certificate is empty")
  else .ok { options with mServerCertificate := some cert }

def setClientCertificate (options : GRPCClientOptions) (cert : String) :
    Except Fault GRPCClientOptions :=
  if cert = "" then .error (.invalidArgument "Client certificate is empty")
  else .ok { options with mClientCertificate := some cert }

def setClientKey (options : GRPCClientOptions) (key : String) : Except Fault GRPCClientOptions :=
  if key = "" then .error (.invalidArgument "Client key is empty")
  else .ok { options with mClientKey := some key }

def setAccessToken (options : GRPCClientOptions) (token : String) :
    Except Fault GRPCClientOptions :=
  if h : token = "" then .error (.invalidArgument "Token is empty")
  else .ok { options with mAccessToken := some token, accessToken_ne := fun he => h (Option.some.inj he) }

def setReconnectSchedule (options : GRPCClientOptions) (schedule : List Int) :
    Except Fault GRPCClientOptions :=
  if h : ∃ time ∈ schedule, time < 0 then
    .error (.runtimeError "Negative retry time in schedule")
  else
    .ok { options with
      mReconnectSchedule := schedule
      schedule_nonneg := fun time ht => not_lt.mp fun hn => h ⟨time, ht, hn⟩ }

theorem setReconnectSchedule_ok (options : GRPCClientOptions) {schedule : List Int}
    (h : ∀ time ∈ schedule, 0 ≤ time) :
    ∃ options', options.setReconnectSchedule schedule = .ok options' ∧
      options'.mReconnectSchedule = schedule := by
  have hn : ¬∃ time ∈ schedule, time < 0 := by
    rintro ⟨time, ht, hneg⟩
    exact absurd (h time ht) (by omega)
  unfold setReconnectSchedule
  rw [dif_neg hn]
  exact ⟨_, rfl, rfl⟩

end GRPCClientOptions

structure SubscriberOptions where
  mIdentifier : String := "uDataPacketCacheService"
  mGRPCOptions : Option GRPCClientOptions := none
  identifier_ne : mIdentifier ≠ "" := by decide

namespace SubscriberOptions

def construct : SubscriberOptions := {}

def setGRPCOptions (options : SubscriberOptions) (grpcOptions : GRPCClientOptions) :
    SubscriberOptions :=
  { options with mGRPCOptions := some grpcOptions }

def hasGRPCOptions (options : SubscriberOptions) : Bool := options.mGRPCOptions.isSome

def getGRPCOptions (options : SubscriberOptions) : Except Fault GRPCClientOptions :=
  match options.mGRPCOptions with
  | none => .error (.runtimeError "gRPC client options not set")
  | some grpcOptions => .ok grpcOptions

def setIdentifier (options : SubscriberOptions) (identifier : String) :
    Except Fault SubscriberOptions :=
  if h : identifier = "" then .error (.invalidArgument "Request identifier is empty")
  else .ok { options with mIdentifier := identifier, identifier_ne := h }

end SubscriberOptions

def readServerCertificate (files : FileSystem) (serverCertificate : String)
    (options : GRPCClientOptions) : Except Fault GRPCClientOptions :=
  if serverCertificate ≠ "" then
    if !files.pathExists serverCertificate then
      .error (.invalidArgument
        ("gRPC server certificate file " ++ serverCertificate ++ " does not exist"))
    else do options.setServerCertificate (← loadStringFromFile files serverCertificate)
  else .ok options

def readAccessToken (accessToken : Option String) (options : GRPCClientOptions) :
    Except Fault GRPCClientOptions :=
  match accessToken with
  | none => .ok options
  | some accessToken =>
    if options.mServerCertificate = none then
      .error (.invalidArgument "Must set server certificate to use access token")
    else options.setAccessToken accessToken

def readKeyAndCertificate (files : FileSystem) (clientKey clientCertificate : String)
    (options : GRPCClientOptions) : Except Fault GRPCClientOptions :=
  if clientKey ≠ "" ∧ clientCertificate ≠ "" then
    if !files.pathExists clientKey then
      .error (.invalidArgument ("gRPC client key file " ++ clientKey ++ " does not exist"))
    else if !files.pathExists clientCertificate then
      .error (.invalidArgument
        ("gRPC client certificate file " ++ clientCertificate ++ " does not exist"))
    else do
      let options ← options.setClientKey (← loadStringFromFile files clientKey)
      options.setClientCertificate (← loadStringFromFile files clientCertificate)
  else .ok options

def getGRPCClientOptions (files : FileSystem) (propertyTree : PropertyTree) (pathSection : String) :
    Except Fault GRPCClientOptions :=
  let options := GRPCClientOptions.construct
  let host := (propertyTree.getString (pathSection ++ ".host")).getD options.mHost
  if host = "" then .error (.runtimeError (pathSection ++ ".host is empty"))
  else do
    let options ← options.setHost host
    let options ← options.setPort 50000
    let options ← options.setPort
      ((propertyTree.getUInt16 (pathSection ++ ".port")).getD options.mPort)
    let options ← readServerCertificate files
      ((propertyTree.getString (pathSection ++ ".serverCertificate")).getD "") options
    let options ← readAccessToken (propertyTree.getString (pathSection ++ ".accessToken")) options
    readKeyAndCertificate files
      ((propertyTree.getString (pathSection ++ ".clientKey")).getD "")
      ((propertyTree.getString (pathSection ++ ".clientCertificate")).getD "") options

end PacketCache.ClientOptions
