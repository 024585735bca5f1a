import WorkStack.Connection.Registry

/-!
# A registry that was read is in normal form

What the validator accepts, it accepts again only as what it was: labels are stripped, local paths are
normal, everything else is taken over as it stands. So the canonical document of a registry is read back
as that registry, and its digest is that of the canonical document.
-/

open WorkStack.Python WorkStack.Python.Decoding WorkStack.Effect.Refusing

namespace WorkStack.Connection

variable {H : Host}

/-! ## Fields -/

variable {value : Json} {field : String}

theorem boundedString_eq_ok {maximum : ℕ} {text : String} (h : boundedString field maximum value = .ok text) :
    value = .str text := by
  simp only [boundedString, bind_eq_ok, pure_eq_ok, asText_eq_ok] at h
  obtain ⟨text', hvalue, -, -, -, -, rfl⟩ := h
  exact hvalue

theorem boolean_eq_ok {flag : Bool} (h : boolean field value = .ok flag) :
    value = .bool flag :=
  asBool_eq_ok.mp h

theorem port_eq_ok {number : ℤ} (h : port field value = .ok number) :
    value = .int number := by
  simp only [port, bind_eq_ok, pure_eq_ok, asInt_eq_ok] at h
  obtain ⟨number', hvalue, -, -, rfl⟩ := h
  exact hvalue

theorem sshHostAlias_eq_ok {text : String} (h : sshHostAlias value = .ok text) : value = .str text := by
  simp only [sshHostAlias, bind_eq_ok, pure_eq_ok] at h
  obtain ⟨text', hvalue, -, -, rfl⟩ := h
  exact boundedString_eq_ok hvalue

theorem remotePath_eq_ok {text : String} (h : remotePath field value = .ok text) :
    value = .str text := by
  simp only [remotePath, bind_eq_ok, pure_eq_ok, asText_eq_ok] at h
  obtain ⟨text', hvalue, -, -, -, -, -, -, -, -, -, -, rfl⟩ := h
  exact hvalue

theorem canonicalUuid_eq_ok {text : String} (h : canonicalUuid H field value = .ok text) : value = .str text := by
  simp only [canonicalUuid, bind_eq_ok, pure_eq_ok, asText_eq_ok] at h
  obtain ⟨text', hvalue, -, -, rfl⟩ := h
  exact hvalue

/-- A path that was normalized, of one that is absolute. -/
def IsNormalPath (H : Host) (dataDir : String) : Prop := ∃ path, H.isAbsolute path ∧ dataDir = H.normalPath path

theorem localPath_eq_ok {dataDir : String} (h : localPath H value = .ok dataDir) :
    IsNormalPath H dataDir ∧ ∀ text, value = .str text → dataDir = H.normalPath text := by
  simp only [localPath, bind_eq_ok, pure_eq_ok, check_eq_ok] at h
  obtain ⟨path, hpath, -, -, -, habsolute, -, -, rfl⟩ := h
  refine ⟨⟨path, habsolute, rfl⟩, ?_⟩
  rintro text rfl
  cases boundedString_eq_ok hpath
  rfl

theorem localPath_normal {dataDir dataDir' : String} (hnormal : IsNormalPath H dataDir)
    (h : localPath H (.str dataDir) = .ok dataDir') : dataDir' = dataDir := by
  obtain ⟨path, habsolute, rfl⟩ := hnormal
  rw [(localPath_eq_ok h).2 _ rfl, H.normalPath_normalPath path habsolute]

theorem strip_strip (text : String) : H.strip (H.strip text) = H.strip text := by
  unfold Interpreter.strip stripText
  rw [String.toList_ofList, stripChars_stripChars]

theorem readLabel_eq_ok {label : String} (h : readLabel H value = .ok label) :
    H.strip label = label ∧ ∀ text, value = .str text → label = H.strip text := by
  simp only [readLabel, bind_eq_ok, pure_eq_ok, check_eq_ok] at h
  obtain ⟨text, htext, -, -, rfl⟩ := h
  refine ⟨strip_strip text, ?_⟩
  rintro text' rfl
  cases boundedString_eq_ok htext
  rfl

/-! ## Profiles -/

/-- What a profile that was read has, beside its fields. -/
structure ConnectionProfile.IsNormal (H : Host) (profile : ConnectionProfile) : Prop where
  label : H.strip profile.label = profile.label
  dataDir : ∀ dataDir, profile.endpoint = .localData dataDir → IsNormalPath H dataDir

theorem commonProfileValues_label {fields : Fields} {profile : Endpoint → ConnectionProfile}
    (h : commonProfileValues H fields = .ok profile) (endpoint : Endpoint) :
    H.strip (profile endpoint).label = (profile endpoint).label ∧ (profile endpoint).endpoint = endpoint := by
  simp only [commonProfileValues, bind_eq_ok, pure_eq_ok] at h
  obtain ⟨label, hlabel, profileId, -, enabled, -, liveUpdates, -, workspaceId, -, rfl⟩ := h
  exact ⟨(readLabel_eq_ok hlabel).1, rfl⟩

theorem readProfile_isNormal {index : ℕ} {raw : Json} {profile : ConnectionProfile}
    (h : readProfile H index raw = .ok profile) : profile.IsNormal H := by
  simp only [readProfile, bind_eq_ok] at h
  obtain ⟨fields, -, h⟩ := h
  split at h
  · simp only [readLocalProfile, bind_eq_ok, pure_eq_ok] at h
    obtain ⟨-, -, build, hbuild, dataDir, hdir, rfl⟩ := h
    obtain ⟨hlabel, hendpoint⟩ := commonProfileValues_label hbuild (.localData dataDir)
    refine ⟨hlabel, ?_⟩
    intro dataDir' heq
    rw [hendpoint] at heq
    cases heq
    exact (localPath_eq_ok hdir).1
  · split at h
    · simp only [readSshProfile, bind_eq_ok, pure_eq_ok] at h
      obtain ⟨-, -, hostAlias, -, build, hbuild, appDir, -, remoteDir, -, forward, -, port, -, python, -, drivers, -,
        rfl⟩ := h
      obtain ⟨hlabel, hendpoint⟩ := commonProfileValues_label hbuild
        (.ssh ⟨hostAlias, appDir, remoteDir, forward, port, python, drivers⟩)
      refine ⟨hlabel, ?_⟩
      intro dataDir heq
      rw [hendpoint] at heq
      cases heq
    · cases h

/-- The common fields of a document that a profile was written to. -/
theorem commonProfileValues_fields {profile : ConnectionProfile} {build : Endpoint → ConnectionProfile}
    (hlabel : H.strip profile.label = profile.label) (h : commonProfileValues H profile.fields = .ok build) :
    build = fun endpoint ↦ { profile with endpoint } := by
  simp only [commonProfileValues, bind_eq_ok, pure_eq_ok] at h
  obtain ⟨label, hread, profileId, hid, enabled, henabled, liveUpdates, hlive, workspaceId, hworkspace, rfl⟩ := h
  have hstripped := (readLabel_eq_ok hread).2 profile.label rfl
  cases canonicalUuid_eq_ok hid
  cases boolean_eq_ok henabled
  cases boolean_eq_ok hlive
  cases canonicalUuid_eq_ok hworkspace
  rw [hstripped, hlabel]

theorem kind_fields (profile : ConnectionProfile) : item profile.fields "kind" = .str profile.endpoint.kind := by
  obtain ⟨profileId, label, enabled, liveUpdates, workspaceId, _ | _⟩ := profile
  · rfl
  · rfl

theorem optional_written {fields : Fields} {value read : Option String}
    (h : optional remotePath field fields = .ok read) (hget : Dict.get fields field = value.map .str) :
    read = value := by
  cases value with
  | none => simpa [optional, hget, eq_comm] using h
  | some text =>
      simp only [optional, hget, Option.map_some, bind_eq_ok, pure_eq_ok] at h
      obtain ⟨text', hread, rfl⟩ := h
      cases remotePath_eq_ok hread
      rfl

variable {profile profile' : ConnectionProfile}

theorem readLocalProfile_fields {context dataDir : String} (hnormal : profile.IsNormal H)
    (hendpoint : profile.endpoint = .localData dataDir) (h : readLocalProfile H context profile.fields = .ok profile') :
    profile' = profile := by
  simp only [readLocalProfile, bind_eq_ok, pure_eq_ok] at h
  obtain ⟨-, -, build, hbuild, dataDir', hdir, rfl⟩ := h
  rw [commonProfileValues_fields hnormal.label hbuild]
  obtain ⟨profileId, label, enabled, liveUpdates, workspaceId, endpoint⟩ := profile
  cases hendpoint
  have hread : dataDir' = dataDir := localPath_normal (hnormal.dataDir dataDir rfl) hdir
  rw [hread]

theorem get_optional_fields {profile : ConnectionProfile} {endpoint : SshEndpoint}
    (hendpoint : profile.endpoint = .ssh endpoint) :
    Dict.get profile.fields "remote_python" = endpoint.remotePython.map .str ∧
      Dict.get profile.fields "knowledge_drivers_config" = endpoint.knowledgeDriversConfig.map .str := by
  obtain ⟨profileId, label, enabled, liveUpdates, workspaceId, endpoint'⟩ := profile
  cases hendpoint
  obtain ⟨hostAlias, appDir, remoteDir, forward, port, _ | python, _ | drivers⟩ := endpoint
  all_goals exact ⟨rfl, rfl⟩

theorem readSshProfile_fields {context : String} {endpoint : SshEndpoint} (hnormal : profile.IsNormal H)
    (hendpoint : profile.endpoint = .ssh endpoint) (h : readSshProfile H context profile.fields = .ok profile') :
    profile' = profile := by
  simp only [readSshProfile, bind_eq_ok, pure_eq_ok] at h
  obtain ⟨-, -, hostAlias, halias, build, hbuild, appDir, happ, remoteDir, hdata, forward, hforward, port, hport,
    python, hpython, drivers, hdrivers, rfl⟩ := h
  rw [commonProfileValues_fields hnormal.label hbuild]
  obtain ⟨hgetPython, hgetDrivers⟩ := get_optional_fields hendpoint
  rw [optional_written hpython hgetPython, optional_written hdrivers hgetDrivers]
  obtain ⟨profileId, label, enabled, liveUpdates, workspaceId, endpoint'⟩ := profile
  cases hendpoint
  cases sshHostAlias_eq_ok halias
  cases remotePath_eq_ok happ
  cases remotePath_eq_ok hdata
  cases port_eq_ok hforward
  cases port_eq_ok hport
  rfl

theorem readProfile_json {index : ℕ} (hnormal : profile.IsNormal H)
    (h : readProfile H index profile.json = .ok profile') : profile' = profile := by
  simp only [readProfile, ConnectionProfile.json, asObject, bind_eq_ok, Except.ok.injEq, exists_eq_left',
    kind_fields, isText] at h
  cases hendpoint : profile.endpoint with
  | localData dataDir =>
      rw [hendpoint] at h
      change readLocalProfile H _ _ = _ at h
      exact readLocalProfile_fields hnormal hendpoint h
  | ssh endpoint =>
      rw [hendpoint] at h
      change readSshProfile H _ _ = _ at h
      exact readSshProfile_fields hnormal hendpoint h

/-! ## Registries -/

variable {profiles : List ConnectionProfile}

theorem readProfiles_isNormal {index : ℕ} {raws : List Json} (h : readProfiles H index raws = .ok profiles) :
    ∀ profile ∈ profiles, profile.IsNormal H := by
  induction raws generalizing index profiles with
  | nil =>
      cases h
      simp
  | cons raw raws ih =>
      simp only [readProfiles, bind_eq_ok, pure_eq_ok] at h
      obtain ⟨profile, hprofile, rest, hrest, rfl⟩ := h
      intro other hother
      rcases List.mem_cons.mp hother with rfl | hother
      · exact readProfile_isNormal hprofile
      · exact ih hrest other hother

theorem readProfiles_json {index : ℕ} {profiles profiles' : List ConnectionProfile}
    (hnormal : ∀ profile ∈ profiles, profile.IsNormal H)
    (h : readProfiles H index (profiles.map ConnectionProfile.json) = .ok profiles') : profiles' = profiles := by
  induction profiles generalizing index profiles' with
  | nil => exact (Except.ok.inj h).symm
  | cons profile profiles ih =>
      simp only [List.map_cons, readProfiles, bind_eq_ok, pure_eq_ok] at h
      obtain ⟨read, hread, rest, hrest, rfl⟩ := h
      rw [readProfile_json (hnormal profile (List.mem_cons_self ..)) hread,
        ih (fun other hother ↦ hnormal other (List.mem_cons_of_mem _ hother)) hrest]

theorem readIdentified_eq_ok {profileId : String} {active : Option String}
    (hid : canonicalUuid H "active_profile_id" value = .ok profileId)
    (h : (match profiles.find? fun profile ↦ profile.profileId == profileId with
      | none => (.error (.invalid "active_profile_id must identify one registry profile") : Checked (Option String))
      | some profile =>
          if profile.enabled then pure (some profileId)
          else .error (.invalid "active_profile_id must identify an enabled profile")) = .ok active) :
    value = activeJson active := by
  split at h
  · cases h
  · split at h
    · cases pure_eq_ok.mp h
      exact canonicalUuid_eq_ok hid
    · cases h

theorem readActive_eq_ok {active : Option String} (h : readActive H profiles value = .ok active) :
    value = activeJson active := by
  cases value with
  | null =>
      simp only [readActive, bind_eq_ok, pure_eq_ok] at h
      obtain ⟨-, -, rfl⟩ := h
      rfl
  | _ =>
      simp only [readActive, bind_eq_ok] at h
      obtain ⟨profileId, hid, hfind⟩ := h
      exact readIdentified_eq_ok hid hfind

theorem activeJson_injective {active active' : Option String} (h : activeJson active = activeJson active') :
    active = active' := by
  cases active <;> cases active' <;> simp_all [activeJson]

/-- A registry that was read. -/
def ConnectionRegistry.IsNormal (H : Host) (registry : ConnectionRegistry) : Prop :=
  ∀ profile ∈ registry.profiles, profile.IsNormal H

theorem readRegistry_isNormal {raw : Json} {registry : ConnectionRegistry} (h : readRegistry H raw = .ok registry) :
    registry.IsNormal H := by
  simp only [readRegistry, bind_eq_ok, pure_eq_ok] at h
  obtain ⟨fields, -, -, -, -, -, raws, -, -, -, profiles, hprofiles, -, -, -, -, active, -, rfl⟩ := h
  exact readProfiles_isNormal hprofiles

/-- A document that was written from a registry in normal form is read as that registry, if it is read. -/
theorem readRegistry_json {registry registry' : ConnectionRegistry} (hnormal : registry.IsNormal H)
    (h : readRegistry H registry.json = .ok registry') : registry' = registry := by
  simp only [readRegistry, ConnectionRegistry.json, asObject, bind_eq_ok, pure_eq_ok, Except.ok.injEq,
    exists_eq_left'] at h
  obtain ⟨-, -, -, -, raws, hraws, -, -, profiles, hprofiles, -, -, -, -, active, hactive, rfl⟩ := h
  have hlist : raws = registry.profiles.map ConnectionProfile.json := by
    simpa [item, Dict.get, List.lookup, asList, eq_comm] using hraws
  rw [hlist] at hprofiles
  have hread := activeJson_injective (readActive_eq_ok hactive)
  rw [readProfiles_json hnormal hprofiles, ← hread]

end WorkStack.Connection
