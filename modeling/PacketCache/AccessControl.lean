import PacketCache.Service

namespace PacketCache.AccessControl

open PacketCache.Messages PacketCache.Platform PacketCache.ServerOptions PacketCache.Service
open PacketCache.StreamDequeMap

variable {options result : GRPCServerOptions} {files : FileSystem} {token : String}

theorem setServerKey_ok {serverKey : String} (h : options.setServerKey serverKey = .ok result) :
    result.mServerKey = some serverKey := by
  rw [GRPCServerOptions.setServerKey] at h
  split_ifs at h
  obtain rfl := Except.ok.inj h
  rfl

theorem setServerCertificate_ok {serverCertificate : String}
    (h : options.setServerCertificate serverCertificate = .ok result) :
    result.mServerKey = options.mServerKey := by
  rw [GRPCServerOptions.setServerCertificate] at h
  split_ifs at h
  obtain rfl := Except.ok.inj h
  rfl

/-- The certificate is only ever set together with the key. -/
theorem readKeyAndCertificate_ok {serverKey serverCertificate : String}
    (h : readKeyAndCertificate files serverKey serverCertificate options = .ok result)
    (hnone : options.mServerCertificate = none) (hset : result.mServerCertificate ≠ none) :
    result.mServerKey ≠ none := by
  rw [readKeyAndCertificate] at h
  split_ifs at h
  · obtain ⟨key, _, h⟩ := bind_eq_ok h
    obtain ⟨keyed, hkey, h⟩ := bind_eq_ok h
    obtain ⟨certificate, _, h⟩ := bind_eq_ok h
    rw [setServerCertificate_ok h, setServerKey_ok hkey]
    simp
  · obtain rfl := Except.ok.inj h
    exact absurd hnone hset

theorem readAccessToken_ok (h : readAccessToken (some token) options = .ok result) :
    result.mAccessToken = some token ∧ options.mServerCertificate ≠ none ∧
      result.mServerCertificate = options.mServerCertificate ∧
      result.mServerKey = options.mServerKey := by
  simp only [readAccessToken, GRPCServerOptions.setAccessToken] at h
  split_ifs at h with hcertificate
  obtain rfl := Except.ok.inj h
  exact ⟨rfl, hcertificate, rfl, rfl⟩

theorem readClientCertificate_ok {clientCertificate : String}
    (h : readClientCertificate files clientCertificate options = .ok result) :
    result.mAccessToken = options.mAccessToken ∧
      result.mServerCertificate = options.mServerCertificate ∧
      result.mServerKey = options.mServerKey := by
  rw [readClientCertificate] at h
  split_ifs at h
  · obtain ⟨certificate, _, h⟩ := bind_eq_ok h
    rw [GRPCServerOptions.setClientCertificate] at h
    split_ifs at h
    obtain rfl := Except.ok.inj h
    exact ⟨rfl, rfl, rfl⟩
  · obtain rfl := Except.ok.inj h
    exact ⟨rfl, rfl, rfl⟩

theorem setHost_ok {host : String} (h : options.setHost host = .ok result) :
    result.mServerCertificate = options.mServerCertificate := by
  rw [GRPCServerOptions.setHost] at h
  split_ifs at h
  obtain rfl := Except.ok.inj h
  rfl

theorem setPort_ok {port : UInt16} (h : options.setPort port = .ok result) :
    result.mServerCertificate = options.mServerCertificate := by
  rw [GRPCServerOptions.setPort] at h
  split_ifs at h
  obtain rfl := Except.ok.inj h
  rfl

theorem getGRPCServerOptions_token {propertyTree : PropertyTree} {pathSection : String}
    (h : getGRPCServerOptions files propertyTree pathSection = .ok result)
    (htoken : propertyTree.getString (pathSection ++ ".accessToken") = some token) :
    result.mAccessToken = some token ∧ result.mServerKey ≠ none ∧
      result.mServerCertificate ≠ none := by
  simp only [getGRPCServerOptions, htoken] at h
  split_ifs at h
  obtain ⟨hosted, hhost, h⟩ := bind_eq_ok h
  obtain ⟨ported, hport, h⟩ := bind_eq_ok h
  obtain ⟨reported, hport', h⟩ := bind_eq_ok h
  obtain ⟨secured, hsecured, h⟩ := bind_eq_ok h
  obtain ⟨guarded, hguarded, h⟩ := bind_eq_ok h
  obtain ⟨certified, hcertified, h⟩ := bind_eq_ok h
  obtain rfl := Except.ok.inj h
  have hnone : reported.mServerCertificate = none := by
    rw [setPort_ok hport', setPort_ok hport, setHost_ok hhost]
    rfl
  obtain ⟨htok, hcert, hsame, hkey⟩ := readAccessToken_ok hguarded
  obtain ⟨htok', hsame', hkey'⟩ := readClientCertificate_ok hcertified
  refine ⟨htok'.trans htok, ?_, ?_⟩
  · change certified.mServerKey ≠ none
    rw [hkey', hkey]
    exact readKeyAndCertificate_ok hsecured hnone hcert
  · change certified.mServerCertificate ≠ none
    rwa [hsame', hsame]

theorem start_secured (hkey : options.mServerKey ≠ none)
    (hcertificate : options.mServerCertificate ≠ none) : start options = ⟨options, true⟩ := by
  rw [start, if_neg (by simp [hkey, hcertificate])]

theorem validateClient_eq_false {context : Metadata} (hne : token ≠ "")
    (h : ∀ item ∈ context, item.1 = "x-custom-auth-token" → item.2 ≠ token) :
    validateClient context token = false := by
  simp only [validateClient, Bool.or_eq_false_iff, decide_eq_false_iff_not, List.any_eq_false,
    Bool.and_eq_true, decide_eq_true_eq, not_and]
  exact ⟨hne, h⟩

theorem validated_reply {Response : Type} {service : ServiceImpl} {context : Metadata}
    (h : service.rejects context = true) (response : Response) (body : Construction Response) :
    (validated service context response body).reply =
      some (⟨.unauthenticated, "Invalid access token"⟩, response) := by
  rw [validated, if_pos h]
  rfl

/-- A service with an access token is secured, and without the token every call gets the
same refusal, whatever is asked and whatever is cached. -/
theorem access_token_enforced (build : Build) (files : FileSystem) (propertyTree : PropertyTree)
    (pathSection : String) (options : GRPCServerOptions) (token : String)
    (h : getGRPCServerOptions files propertyTree pathSection = .ok options)
    (htoken : propertyTree.getString (pathSection ++ ".accessToken") = some token)
    (context : Metadata)
    (hcontext : ∀ item ∈ context, item.1 = "x-custom-auth-token" → item.2 ≠ token) :
    (start options).mSecured = true ∧
      (∀ map map' request request',
        (GetTimeSeries build map (start options) context request).reply =
            some (⟨.unauthenticated, "Invalid access token"⟩, {}) ∧
          (GetTimeSeries build map' (start options) context request').reply =
            (GetTimeSeries build map (start options) context request).reply) ∧
      ∀ map map' request request',
        (GetAvailableStreams build map (start options) context request).reply =
            some (⟨.unauthenticated, "Invalid access token"⟩, {}) ∧
          (GetAvailableStreams build map' (start options) context request').reply =
            (GetAvailableStreams build map (start options) context request).reply := by
  obtain ⟨haccess, hkey, hcertificate⟩ := getGRPCServerOptions_token h htoken
  have hne : token ≠ "" := fun he => options.accessToken_ne (by rw [haccess, he])
  have hrejects : (start options).rejects context = true := by
    simp only [ServiceImpl.rejects, start_secured hkey hcertificate, haccess,
      validateClient_eq_false hne hcontext, Bool.not_false, Bool.and_true]
  refine ⟨by rw [start_secured hkey hcertificate], ?_, ?_⟩
  · intro map map' request request'
    simp only [GetTimeSeries, validated_reply hrejects, and_self]
  · intro map map' request request'
    simp only [GetAvailableStreams, validated_reply hrejects, and_self]

def guarded : GRPCServerOptions :=
  { GRPCServerOptions.construct with
    mAccessToken := some "secret", mServerCertificate := some "certificate",
    mServerKey := some "key", accessToken_ne := by decide }

theorem access_token_enforced_wrong_token :
    (start guarded).mSecured = true ∧
      (∀ map map' request request',
        (GetTimeSeries .debug map (start guarded) [("x-custom-auth-token", "guess")]
            request).reply = some (⟨.unauthenticated, "Invalid access token"⟩, {}) ∧
          (GetTimeSeries .debug map' (start guarded) [("x-custom-auth-token", "guess")]
            request').reply =
          (GetTimeSeries .debug map (start guarded) [("x-custom-auth-token", "guess")]
            request).reply) ∧
      ∀ map map' request request',
        (GetAvailableStreams .debug map (start guarded) [("x-custom-auth-token", "guess")]
            request).reply = some (⟨.unauthenticated, "Invalid access token"⟩, {}) ∧
          (GetAvailableStreams .debug map' (start guarded) [("x-custom-auth-token", "guess")]
            request').reply =
          (GetAvailableStreams .debug map (start guarded) [("x-custom-auth-token", "guess")]
            request).reply :=
  access_token_enforced .debug
    ⟨fun _ => true, fun path => if path = "server.key" then some "key" else some "certificate"⟩
    ⟨fun path =>
      if path = "Service.accessToken" then some "secret"
      else if path = "Service.clientKey" then some "server.key"
      else if path = "Service.serverCertificate" then some "server.crt"
      else none, fun _ => none, fun _ => none⟩
    "Service" guarded "secret" rfl rfl [("x-custom-auth-token", "guess")] (by simp)

end PacketCache.AccessControl
