import WasmRdp.RdpsndCodec

/-!
# RDSTLS

The PDUs of `wasm/src/redirect.rs`: the server's capabilities and its answer,
which are parsed, and the authentication request that forwards the fields of a
redirection packet as they are. `RdstlsAuthRequest.decode` is not in the source;
it is the layout that a server reads.

A field whose length does not fit its prefix is sent with a shorter one, so a
request is read back exactly when all four fit
(`Redirect.buildAuthRequest_exact`).

One direction follows the layout field by field (`decodes_authRequest`). For
the other, what is read as a field was counted by its prefix
(`spends_field`): the bytes of a request that is read whole have the lengths
of its fields, so that no prefix can have been cut, whatever the bytes of the
fields happen to look like.
-/

namespace WasmRdp

open ByteReader Decode

def RDSTLS_VERSION_1 : UInt16 := 1
def RDSTLS_TYPE_CAPABILITIES : UInt16 := 1
def RDSTLS_TYPE_AUTHREQ : UInt16 := 2
def RDSTLS_TYPE_AUTHRSP : UInt16 := 4
def RDSTLS_DATA_PASSWORD_CREDS : UInt16 := 1
def RDSTLS_RESULT_SUCCESS : UInt32 := 0

/-- What the parsers bail out with. -/
inductive RdstlsError where
  /-- `RDSTLS Capabilities PDU too short: {} bytes` -/
  | capabilitiesTooShort (length : Nat)
  /-- `expected RDSTLS_TYPE_CAPABILITIES, got {pdu_type:#06x}` -/
  | notCapabilities (pduType : UInt16)
  /-- `server does not support RDSTLS_VERSION_1` -/
  | unsupportedVersion (version supported : UInt16)
  /-- `RDSTLS Authentication Response PDU too short: {} bytes` -/
  | responseTooShort (length : Nat)
  /-- `expected RDSTLS_TYPE_AUTHRSP, got {pdu_type:#06x}` -/
  | notResponse (pduType : UInt16)
  /-- `RDSTLS authentication failed: {} ({result_code:#010x})` -/
  | failed (description : String) (resultCode : UInt32)
  deriving DecidableEq

namespace Redirect

/-- `u16::from_le_bytes` of the bytes at `i`. -/
def u16At (data : List UInt8) (i : Nat) : UInt16 := UInt16.ofNat (fromLe ((data.drop i).take 2))

def u32At (data : List UInt8) (i : Nat) : UInt32 := UInt32.ofNat (fromLe ((data.drop i).take 4))

def parseCapabilities (data : List UInt8) : Except RdstlsError Unit :=
  if data.length < 8 then .error (.capabilitiesTooShort data.length)
  else
    let version := u16At data 0
    let pduType := u16At data 2
    let supportedVersions := u16At data 6
    if pduType ≠ RDSTLS_TYPE_CAPABILITIES then .error (.notCapabilities pduType)
    else if version ≠ RDSTLS_VERSION_1 ∨ supportedVersions &&& RDSTLS_VERSION_1 = 0 then
      .error (.unsupportedVersion version supportedVersions)
    else .ok ()

/-- A length prefix, `field.len() as u16`, and the field. -/
def lengthPrefixed (field : List UInt8) : List UInt8 :=
  toLe 2 (UInt16.ofNat field.length).toNat ++ field

def buildAuthRequest (redirectionGuid userName domain password : List UInt8) : List UInt8 :=
  toLe 2 RDSTLS_VERSION_1.toNat ++ (toLe 2 RDSTLS_TYPE_AUTHREQ.toNat ++
    (toLe 2 RDSTLS_DATA_PASSWORD_CREDS.toNat ++
      [redirectionGuid, userName, domain, password].flatMap lengthPrefixed))

def describeResultCode (code : UInt32) : String :=
  if code = 0x00000005 then "access denied"
  else if code = 0x0000052e then "logon failure (unknown username or bad password)"
  else if code = 0x00000530 then "invalid logon hours"
  else if code = 0x00000532 then "password expired"
  else if code = 0x00000533 then "account disabled"
  else if code = 0x00000773 then "password must change"
  else if code = 0x00000775 then "account locked out"
  else "unknown error"

def parseAuthResponse (data : List UInt8) : Except RdstlsError Unit :=
  if data.length < 10 then .error (.responseTooShort data.length)
  else
    let pduType := u16At data 2
    if pduType ≠ RDSTLS_TYPE_AUTHRSP then .error (.notResponse pduType)
    else
      let resultCode := u32At data 6
      if resultCode ≠ RDSTLS_RESULT_SUCCESS then
        .error (.failed (describeResultCode resultCode) resultCode)
      else .ok ()

end Redirect

/-- The fields of a redirection packet that a reconnect needs. -/
structure PendingRedirect where
  routingToken : Option (List UInt8)
  userName : List UInt8
  domain : List UInt8
  password : List UInt8
  redirectionGuid : List UInt8
  targetCertificate : Option (List UInt8)

def PendingRedirect.authRequest (pending : PendingRedirect) : List UInt8 :=
  Redirect.buildAuthRequest pending.redirectionGuid pending.userName pending.domain pending.password

/-! ## What a server reads -/

structure RdstlsAuthRequest where
  redirectionGuid : List UInt8
  userName : List UInt8
  domain : List UInt8
  password : List UInt8
  deriving DecidableEq

namespace RdstlsAuthRequest

def decodeField : Decode (List UInt8) := do
  ensureSize 2
  let length ← readU16
  ensureSize length.toNat
  readSlice length.toNat

def decode : Decode RdstlsAuthRequest := do
  ensureSize 6
  let version ← readU16
  let pduType ← readU16
  let dataType ← readU16
  if version ≠ RDSTLS_VERSION_1 then invalidField "version" "not RDSTLS_VERSION_1"
  else if pduType ≠ RDSTLS_TYPE_AUTHREQ then invalidField "pduType" "not RDSTLS_TYPE_AUTHREQ"
  else if dataType ≠ RDSTLS_DATA_PASSWORD_CREDS then
    invalidField "dataType" "not RDSTLS_DATA_PASSWORD_CREDS"
  else do
    let redirectionGuid ← decodeField
    let userName ← decodeField
    let domain ← decodeField
    let password ← decodeField
    return { redirectionGuid, userName, domain, password }

/-- A field that its prefix can count. -/
def Fits (field : List UInt8) : Prop := field.length ≤ 65535

theorem decodes_field {field : List UInt8} (h : Fits field) :
    Decodes decodeField (Redirect.lengthPrefixed field) field := by
  have hlength : (UInt16.ofNat field.length).toNat = field.length := toNat_ofNat_of_le h
  have hbody : Decodes (Decode.ensureSize (UInt16.ofNat field.length).toNat >>= fun _ =>
      readSlice (UInt16.ofNat field.length).toNat) field field :=
    .ensureSize (Nat.le_of_eq hlength) (decodes_readSlice hlength.symm)
  refine .ensureSize ?_ ((decodes_toNat _).bind hbody)
  rw [Redirect.lengthPrefixed, List.length_append, length_toLe]
  exact Nat.le_add_right ..

/-- Whatever is read as a field was counted by its prefix. -/
theorem spends_field {k : Nat} : Spends k decodeField fun _ field => Fits field := by
  refine .ensureSize (.read spends_readU16 (Nat.le_max_right ..) fun length _ => .ensureSize ?_)
  intro s field s' hs hrun
  obtain ⟨n, hn, -, hlength⟩ := spends_readSlice length.toNat s field s' (by omega) hrun
  exact ⟨n, hn, hlength.trans_le (Nat.le_of_lt_succ length.toNat_lt)⟩

/-- All four fields of a request that is read. -/
theorem spends_decode : Spends 0 decode fun _ request => Fits request.redirectionGuid ∧
    Fits request.userName ∧ Fits request.domain ∧ Fits request.password := by
  refine .ensureSize (.read spends_readU16 (by decide) fun version _ =>
    .read spends_readU16 (by decide) fun pduType _ => .read spends_readU16 (by decide)
    fun dataType _ => ?_)
  split
  · exact .fail
  split
  · exact .fail
  split
  · exact .fail
  exact .bind spends_field fun _ _ hguid => .bind spends_field fun _ _ huser =>
    .bind spends_field fun _ _ hdomain => .bind spends_field fun _ _ hpassword =>
    .pure ⟨hguid, huser, hdomain, hpassword⟩

theorem decodes_authRequest {guid user domain password : List UInt8} (hguid : Fits guid)
    (huser : Fits user) (hdomain : Fits domain) (hpassword : Fits password) :
    Decodes decode (Redirect.buildAuthRequest guid user domain password)
      ⟨guid, user, domain, password⟩ := by
  have hfields : [guid, user, domain, password].flatMap Redirect.lengthPrefixed =
      Redirect.lengthPrefixed guid ++ (Redirect.lengthPrefixed user ++
        (Redirect.lengthPrefixed domain ++ Redirect.lengthPrefixed password)) := by
    simp only [List.flatMap_cons, List.flatMap_nil, List.append_nil]
  rw [Redirect.buildAuthRequest, hfields]
  refine .ensureSize ?_
    ((decodes_toNat _).bind ((decodes_toNat _).bind ((decodes_toNat _).bind ?_)))
  · simp only [List.length_append, length_toLe]
    omega
  · exact (decodes_field hguid).bind ((decodes_field huser).bind ((decodes_field hdomain).bind
      ((decodes_field hpassword).last (.pure _))))

end RdstlsAuthRequest

/-- A server reads back what was forwarded, and goes on behind it, exactly when
each field fits its prefix. -/
theorem Redirect.buildAuthRequest_exact (guid user domain password rest : List UInt8) :
    RdstlsAuthRequest.decode.run (buildAuthRequest guid user domain password ++ rest) =
        .ok (⟨guid, user, domain, password⟩, rest) ↔
      ∀ field ∈ [guid, user, domain, password], field.length ≤ 65535 := by
  simp only [List.forall_mem_cons, List.not_mem_nil, false_implies, implies_true, and_true]
  constructor
  · intro hrun
    obtain ⟨n, -, hfits⟩ := RdstlsAuthRequest.spends_decode _ _ _ (Nat.zero_le _) hrun
    exact hfits
  · rintro ⟨hguid, huser, hdomain, hpassword⟩
    exact RdstlsAuthRequest.decodes_authRequest hguid huser hdomain hpassword rest

end WasmRdp
