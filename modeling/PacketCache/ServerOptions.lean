import PacketCache.Platform

namespace PacketCache.ServerOptions

open PacketCache.Platform

/-- The setters refuse an empty string and a port of zero. -/
structure GRPCServerOptions where
  mHost : String := "localhost"
  mPort : UInt16 := 50000
  mAccessToken : Option String := none
  mServerCertificate : Option String := none
  mServerKey : Option String := none
  mClientCertificate : Option String := none
  mReflectionEnabled : Bool := false
  host_ne : mHost ≠ "" := by decide
  port_ne : mPort ≠ 0 := by decide
  accessToken_ne : mAccessToken ≠ some "" := by decide

namespace GRPCServerOptions

def construct : GRPCServerOptions := {}

def setHost (options : GRPCServerOptions) (host : String) : Except Fault GRPCServerOptions :=
  if h : host = "" then .error (.invalidArgument "Host cannot be empty.")
  else .ok { options with mHost := host, host_ne := h }

def setPort (options : GRPCServerOptions) (port : UInt16) : Except Fault GRPCServerOptions :=
  if h : port = 0 then .error (.invalidArgument "Port cannot be 0.")
  else .ok { options with mPort := port, port_ne := h }

def setAccessToken (options : GRPCServerOptions) (accessToken : String) :
    Except Fault GRPCServerOptions :=
  if h : accessToken = "" then .error (.invalidArgument "Access token cannot be empty.")
  else .ok { options with mAccessToken := some accessToken, accessToken_ne := by simpa using h }

def setServerCertificate (options : GRPCServerOptions) (serverCertificate : String) :
    Except Fault GRPCServerOptions :=
  if serverCertificate = "" then
    .error (.invalidArgument "Server certificate cannot be empty.")
  else .ok { options with mServerCertificate := some serverCertificate }

def setServerKey (options : GRPCServerOptions) (serverKey : String) :
    Except Fault GRPCServerOptions :=
  if serverKey = "" then .error (.invalidArgument "Server key cannot be empty.")
  else .ok { options with mServerKey := some serverKey }

def setClientCertificate (options : GRPCServerOptions) (clientCertificate : String) :
    Except Fault GRPCServerOptions :=
  if clientCertificate = "" then
    .error (.invalidArgument "Client certificate cannot be empty.")
  else .ok { options with mClientCertificate := some clientCertificate }

end GRPCServerOptions

/-- What the parser asks of a property tree, one function for each type it reads. A path
that is not set, or not of the type, gives `none`. -/
structure PropertyTree where
  getString : String → Option String
  getUInt16 : String → Option UInt16
  getBool : String → Option Bool

structure FileSystem where
  pathExists : String → Bool
  read : String → Option String

def loadStringFromFile (files : FileSystem) (path : String) : Except Fault String :=
  if !files.pathExists path then .ok ""
  else
    match files.read path with
    | none => .error (.runtimeError ("Failed to open " ++ path))
    | some result => .ok result

def readKeyAndCertificate (files : FileSystem) (serverKey serverCertificate : String)
    (options : GRPCServerOptions) : Except Fault GRPCServerOptions :=
  if serverKey ≠ "" ∧ serverCertificate ≠ "" then
    if !files.pathExists serverKey then
      .error (.invalidArgument ("gRPC server Key file " ++ serverKey ++ " does not exist"))
    else if !files.pathExists serverCertificate then
      .error (.invalidArgument
        ("gRPC server certificate file " ++ serverCertificate ++ " does not exist"))
    else do
      let options ← options.setServerKey (← loadStringFromFile files serverKey)
      options.setServerCertificate (← loadStringFromFile files serverCertificate)
  else .ok options

def readAccessToken (accessToken : Option String) (options : GRPCServerOptions) :
    Except Fault GRPCServerOptions :=
  match accessToken with
  | none => .ok options
  | some accessToken =>
    if options.mServerCertificate = none then
      .error (.invalidArgument "Must set server certificate to use access token")
    else options.setAccessToken accessToken

def readClientCertificate (files : FileSystem) (clientCertificate : String)
    (options : GRPCServerOptions) : Except Fault GRPCServerOptions :=
  if clientCertificate ≠ "" then
    if !files.pathExists clientCertificate then
      .error (.invalidArgument
        ("gRPC client certificate file " ++ clientCertificate ++ " does not exist"))
    else do options.setClientCertificate (← loadStringFromFile files clientCertificate)
  else .ok options

def getGRPCServerOptions (files : FileSystem) (propertyTree : PropertyTree) (pathSection : String) :
    Except Fault GRPCServerOptions :=
  let options := GRPCServerOptions.construct
  let host := (propertyTree.getString (pathSection ++ ".host")).getD options.mHost
  if host = "" then .error (.runtimeError (pathSection ++ ".host is empty"))
  else do
    let options ← options.setHost host
    let options ← options.setPort 50000
    let options ← options.setPort
      ((propertyTree.getUInt16 (pathSection ++ ".port")).getD options.mPort)
    let options ← readKeyAndCertificate files
      ((propertyTree.getString (pathSection ++ ".clientKey")).getD "")
      ((propertyTree.getString (pathSection ++ ".serverCertificate")).getD "") options
    let options ← readAccessToken (propertyTree.getString (pathSection ++ ".accessToken")) options
    let options ← readClientCertificate files
      ((propertyTree.getString (pathSection ++ ".clientCertificate")).getD "") options
    return { options with mReflectionEnabled :=
      (propertyTree.getBool (pathSection ++ ".enableReflection")).getD false }

end PacketCache.ServerOptions
