import WorkStack.Python.Decoding
import WorkStack.Python.Encoding
import WorkStack.Python.Platform
import WorkStack.Effect.Refusing

/-!
# The registry of connection profiles

The profiles a desktop can connect through, and the one that is active. The validator reads a document
field by field and refuses at the first that is not as it should be; what it accepts is a registry, which
has one canonical document and the digest of its bytes. A canonical document that is accepted again is
that of the same registry.
-/

open WorkStack.Python WorkStack.Python.Decoding WorkStack.Effect.Refusing

namespace WorkStack.Connection

/-! ## Refusals -/

/-- The exceptions of the registry and of its mutations. -/
inductive Refusal where
  /-- `RuntimeError` -/
  | invalid (message : String)
  /-- `RegistryConflictError` -/
  | conflict (message : String)
  /-- `ActivationAttemptRefusedError`, by its code -/
  | attempt (code : String)
  /-- `ActivationProofError` -/
  | proof (message : String)
  deriving DecidableEq, Repr

abbrev Checked := Except Refusal

/-! ## The machine -/

/-- The library of the interpreter, with the paths of the machine it runs on. -/
structure Host extends Platform where
  /-- `os.path.isabs` -/
  isAbsolute : String → Bool
  /-- `os.path.normpath(os.path.abspath(path))` -/
  normalPath : String → String
  /-- `os.path.splitdrive(path)[1]` -/
  pathTail : String → String
  normalPath_normalPath : ∀ path, isAbsolute path → normalPath (normalPath path) = normalPath path

/-! ## Registries -/

/-- What only a profile over SSH has. -/
structure SshEndpoint where
  sshHostAlias : String
  remoteAppDir : String
  remoteDataDir : String
  preferredForwardPort : ℤ
  remotePort : ℤ
  remotePython : Option String
  knowledgeDriversConfig : Option String
  deriving DecidableEq, Repr

inductive Endpoint where
  | localData (dataDir : String)
  | ssh (endpoint : SshEndpoint)
  deriving DecidableEq, Repr

/-- `LocalConnectionProfile` and `SshConnectionProfile` -/
structure ConnectionProfile where
  profileId : String
  label : String
  enabled : Bool
  liveUpdates : Bool
  expectedWorkspaceId : String
  endpoint : Endpoint
  deriving DecidableEq, Repr

/-- `ConnectionRegistry` -/
structure ConnectionRegistry where
  activeProfileId : Option String
  profiles : List ConnectionProfile
  deriving DecidableEq, Repr

def registrySchemaVersion : ℤ := 1

def maxRegistryBytes : ℕ := 1048576

def maxProfiles : ℕ := 128

/-- `profile.kind` -/
def Endpoint.kind : Endpoint → String
  | .localData _ => "local"
  | .ssh _ => "ssh"

/-! ## Writing -/

/-- A field that is only there if it has a value. -/
def optionalField (name : String) (value : Option String) : Fields :=
  (value.map fun text ↦ (name, Json.str text)).toList

def Endpoint.fields : Endpoint → Fields
  | .localData dataDir => [("kind", .str "local"), ("data_dir", .str dataDir)]
  | .ssh endpoint => [
      ("kind", .str "ssh"),
      ("ssh_host_alias", .str endpoint.sshHostAlias),
      ("remote_app_dir", .str endpoint.remoteAppDir),
      ("remote_data_dir", .str endpoint.remoteDataDir),
      ("preferred_forward_port", .int endpoint.preferredForwardPort),
      ("remote_port", .int endpoint.remotePort)] ++
      (optionalField "remote_python" endpoint.remotePython ++
        optionalField "knowledge_drivers_config" endpoint.knowledgeDriversConfig)

/-- The fields of a profile in the order the validator gives them. -/
def ConnectionProfile.fields (profile : ConnectionProfile) : Fields := [
  ("profile_id", .str profile.profileId),
  ("label", .str profile.label),
  ("enabled", .bool profile.enabled),
  ("live_updates", .bool profile.liveUpdates),
  ("expected_workspace_id", .str profile.expectedWorkspaceId)] ++ profile.endpoint.fields

def ConnectionProfile.json (profile : ConnectionProfile) : Json := .obj profile.fields

def activeJson : Option String → Json
  | some profileId => .str profileId
  | none => .null

def ConnectionRegistry.json (registry : ConnectionRegistry) : Json := .obj [
  ("schema_version", .int registrySchemaVersion),
  ("active_profile_id", activeJson registry.activeProfileId),
  ("profiles", .arr (registry.profiles.map ConnectionProfile.json))]

/-! ## Reading -/

def sorted (names : List String) : List String := names.insertionSort fun a b ↦ a.toList ≤ b.toList

/-- `_require_exact_fields` -/
def requireExactFields (required optional : List String) (context : String) (fields : Fields) : Checked Unit := do
  let missing := required.filter fun name ↦ !(Dict.keys fields).contains name
  let unexpected := (Dict.keys fields).filter fun name ↦ !(required ++ optional).contains name
  check missing.isEmpty (.invalid (context ++ " is missing: " ++ ", ".intercalate (sorted missing)))
  check unexpected.isEmpty (.invalid (context ++ " has unsupported fields: " ++ ", ".intercalate (sorted unexpected)))

def isLineBreak (c : Char) : Bool := c == '\x00' || c == '\r' || c == '\n'

/-- `_bounded_string` -/
def boundedString (field : String) (maximum : ℕ) (value : Json) : Checked String := do
  let refusal := Refusal.invalid
    (field ++ " must be a non-empty string of at most " ++ toString maximum ++ " characters")
  let text ← asText refusal value
  check (text != "" && text.length ≤ maximum) refusal
  check (!text.toList.any isLineBreak) (.invalid (field ++ " contains an invalid control character"))
  return text

/-- `_boolean` -/
def boolean (field : String) : Json → Checked Bool := asBool (.invalid (field ++ " must be a boolean"))

/-- `_port` -/
def port (field : String) (value : Json) : Checked ℤ := do
  let refusal := Refusal.invalid (field ++ " must be an integer from 1 to 65535")
  let number ← asInt refusal value
  check (1 ≤ number && number ≤ 65535) refusal
  return number

/-- `SSH_HOST_ALIAS_PATTERN` -/
def isSshHostAlias (text : String) : Bool :=
  match text.toList with
  | [] => false
  | c :: rest => c.isAlphanum && rest.length ≤ 254 && rest.all fun d ↦ d.isAlphanum || "_.@-".toList.contains d

def sshHostAlias (value : Json) : Checked String := do
  let text ← boundedString "ssh_host_alias" 255 value
  check (isSshHostAlias text)
    (.invalid "ssh_host_alias must be a configured OpenSSH alias without spaces or shell characters")
  return text

def isPosixPathChar (c : Char) : Bool := c.isAlphanum || "._/-".toList.contains c

/-- `POSIX_PATH_PATTERN` -/
def isPosixPath (text : String) : Bool :=
  match text.toList with
  | '/' :: c :: rest => isPosixPathChar c && rest.all isPosixPathChar
  | _ => false

/-- A refusal of `validated_posix_path` -/
def protocolInvalid (detail : String) : Refusal := .invalid ("REMOTE_PROTOCOL_INVALID: " ++ detail)

/-- `_remote_path` -/
def remotePath (field : String) (value : Json) : Checked String := do
  let text ← asText (protocolInvalid (field ++ " must be a string")) value
  check (!text.toList.any fun c ↦ c.toNat < 32 || c.toNat == 127)
    (protocolInvalid (field ++ " contains a control character"))
  check (text != "/") (protocolInvalid (field ++ " must not be the Linux filesystem root"))
  check (isPosixPath text) (protocolInvalid (field ++ " must match ^/[A-Za-z0-9._/-]+$"))
  check (text.toList.getLast? != some '/') (protocolInvalid (field ++ " must not have a trailing slash"))
  check ((split '/' text).drop 1 |>.all fun segment ↦ !(["", ".", ".."].contains segment))
    (protocolInvalid (field ++ " must not contain empty, '.' or '..' segments"))
  return text

/-- A field that may be absent. -/
def optional (read : String → Json → Checked String) (field : String) (fields : Fields) : Checked (Option String) :=
  match Dict.get fields field with
  | none => .ok none
  | some value => do
      let text ← read field value
      return some text

section Validation

variable (H : Host)

/-- `_canonical_uuid` -/
def canonicalUuid (field : String) (value : Json) : Checked String := do
  let refusal := Refusal.invalid (field ++ " must be a canonical non-nil UUID")
  let text ← asText refusal value
  check (H.isCanonicalUuid text) refusal
  return text

/-- `_local_path` -/
def localPath (value : Json) : Checked String := do
  let path ← boundedString "data_dir" 4096 value
  check (!"\\\\".toList.isPrefixOf (path.toList.map fun c ↦ if c = '/' then '\\' else c))
    (.invalid "data_dir must not use a UNC or Windows device path")
  check (H.isAbsolute path) (.invalid "data_dir must be an absolute local path")
  check (!(["/", "\\"].contains (H.pathTail (H.normalPath path))))
    (.invalid "data_dir must not be a filesystem or drive root")
  return H.normalPath path

/-- The label of a profile, without the blanks around it. -/
def readLabel (value : Json) : Checked String := do
  let text ← boundedString "label" 100 value
  check (H.strip text != "") (.invalid "label must contain at least one non-whitespace character")
  return H.strip text

/-- `_common_profile_values`, with the endpoint still to come. -/
def commonProfileValues (fields : Fields) : Checked (Endpoint → ConnectionProfile) := do
  let label ← readLabel H (item fields "label")
  let profileId ← canonicalUuid H "profile_id" (item fields "profile_id")
  let enabled ← boolean "enabled" (item fields "enabled")
  let liveUpdates ← boolean "live_updates" (item fields "live_updates")
  let expectedWorkspaceId ← canonicalUuid H "expected_workspace_id" (item fields "expected_workspace_id")
  return fun endpoint ↦ ⟨profileId, label, enabled, liveUpdates, expectedWorkspaceId, endpoint⟩

def commonFields : List String :=
  ["profile_id", "label", "kind", "enabled", "live_updates", "expected_workspace_id"]

def sshFields : List String :=
  ["ssh_host_alias", "remote_app_dir", "remote_data_dir", "preferred_forward_port", "remote_port"]

def readLocalProfile (context : String) (fields : Fields) : Checked ConnectionProfile := do
  requireExactFields (commonFields ++ ["data_dir"]) [] context fields
  let profile ← commonProfileValues H fields
  let dataDir ← localPath H (item fields "data_dir")
  return profile (.localData dataDir)

def readSshProfile (context : String) (fields : Fields) : Checked ConnectionProfile := do
  requireExactFields (commonFields ++ sshFields) ["remote_python", "knowledge_drivers_config"] context fields
  let hostAlias ← sshHostAlias (item fields "ssh_host_alias")
  let profile ← commonProfileValues H fields
  let remoteAppDir ← remotePath "remote_app_dir" (item fields "remote_app_dir")
  let remoteDataDir ← remotePath "remote_data_dir" (item fields "remote_data_dir")
  let preferredForwardPort ← port "preferred_forward_port" (item fields "preferred_forward_port")
  let remotePort ← port "remote_port" (item fields "remote_port")
  let remotePython ← optional remotePath "remote_python" fields
  let knowledgeDriversConfig ← optional remotePath "knowledge_drivers_config" fields
  return profile (.ssh ⟨hostAlias, remoteAppDir, remoteDataDir, preferredForwardPort, remotePort, remotePython,
    knowledgeDriversConfig⟩)

/-- `_validate_profile` -/
def readProfile (index : ℕ) (raw : Json) : Checked ConnectionProfile := do
  let context := "profiles[" ++ toString index ++ "]"
  let fields ← asObject (.invalid (context ++ " must contain one JSON object")) raw
  if isText "local" (item fields "kind") then readLocalProfile H context fields
  else if isText "ssh" (item fields "kind") then readSshProfile H context fields
  else .error (.invalid (context ++ ".kind must be 'local' or 'ssh'"))

def readProfiles : ℕ → List Json → Checked (List ConnectionProfile)
  | _, [] => .ok []
  | index, raw :: raws => do
      let profile ← readProfile H index raw
      let rest ← readProfiles (index + 1) raws
      return profile :: rest

/-- Whether a value equals the version and is no truth value. -/
def isSchemaVersion : Json → Bool
  | .int value => value == registrySchemaVersion
  | .float lexeme => lexeme == "1.0"
  | _ => false

/-- The id of the active profile, which has to be one that is enabled. -/
def readActive (profiles : List ConnectionProfile) : Json → Checked (Option String)
  | .null => do
      check profiles.isEmpty (.invalid "active_profile_id is required when profiles are present")
      return none
  | value => do
      let profileId ← canonicalUuid H "active_profile_id" value
      match profiles.find? fun profile ↦ profile.profileId == profileId with
      | none => .error (.invalid "active_profile_id must identify one registry profile")
      | some profile =>
          if profile.enabled then return some profileId
          else .error (.invalid "active_profile_id must identify an enabled profile")

/-- `validate_connection_registry` and `registry_from_document` -/
def readRegistry (raw : Json) : Checked ConnectionRegistry := do
  let fields ← asObject (.invalid "Connection registry must contain one JSON object") raw
  requireExactFields ["schema_version", "active_profile_id", "profiles"] [] "Connection registry" fields
  check (isSchemaVersion (item fields "schema_version")) (.invalid "schema_version must be exactly 1")
  let raws ← asList (.invalid "profiles must be an array") (item fields "profiles")
  check (raws.length ≤ maxProfiles) (.invalid "profiles must contain at most 128 entries")
  let profiles ← readProfiles H 0 raws
  check (decide (profiles.map ConnectionProfile.profileId).Nodup)
    (.invalid "Connection registry contains duplicate profile_id values")
  check (decide ((profiles.filter ConnectionProfile.enabled).map ConnectionProfile.expectedWorkspaceId).Nodup)
    (.invalid "Connection registry must have at most one enabled profile per expected_workspace_id")
  let active ← readActive H profiles (item fields "active_profile_id")
  return ⟨active, profiles⟩

end Validation

/-! ## The canonical document -/

/-- The contents of a file: a document, with the bytes that it takes there. -/
structure Content where
  value : Json
  size : ℕ

def payload (value : Json) : Bytes := Json.utf8 (Json.asciiText value ++ ['\n'])

variable (H : Host)

/-- `registry_to_document` -/
def registryToDocument (registry : ConnectionRegistry) : Checked Json := do
  let checked ← readRegistry H registry.json
  return checked.json

/-- `canonical_registry_bytes`, with the document that they are the bytes of. -/
def canonicalRegistry (registry : ConnectionRegistry) : Checked Content := do
  let value ← registryToDocument H registry
  check ((payload value).length ≤ maxRegistryBytes) (.invalid "Connection registry is too large")
  return ⟨value, (payload value).length⟩

/-- `registry_digest` -/
def registryDigest (registry : ConnectionRegistry) : Checked Store.Digest := do
  let content ← canonicalRegistry H registry
  return H.sha256 (payload content.value)

/-- `_registry_from_bytes` of a file that may not be larger than the bound. -/
def readContent (description : String) (content : Content) : Checked ConnectionRegistry := do
  check (content.size ≤ maxRegistryBytes) (.invalid (description ++ " is too large"))
  match readRegistry H content.value with
  | .ok registry => .ok registry
  | .error _ => .error (.invalid (description ++ " is invalid"))

/-- `_profile_document`: every field but `enabled` is checked as that of an active profile. -/
def profileDocument (profile : ConnectionProfile) : Checked ConnectionProfile := do
  let checked ← readRegistry H (ConnectionRegistry.json ⟨some profile.profileId, [{ profile with enabled := true }]⟩)
  match checked.profiles with
  | [validated] => return { validated with enabled := profile.enabled }
  | _ => .error (.invalid "Connection registry is invalid")

/-- The document with its keys in order. -/
def sortedJson : Json → Json
  | .obj fields => .obj (Json.sortFields fields)
  | value => value

/-- `profile_digest` -/
def profileDigest (profile : ConnectionProfile) : Checked Store.Digest := do
  let document ← profileDocument H profile
  return H.sha256 (Json.utf8 (Json.asciiText (sortedJson document.json)))

end WorkStack.Connection
