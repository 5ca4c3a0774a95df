import InscriptionLedger.Proofs.Outcome
import InscriptionLedger.Settings.NodeSettings

/-!
# Precedence of settings

Of the sources of a setting the overrides come first, then the environment, then the file. With the
file exchanged for another one, what the environment gives should stay. So it does for the user, the
password and the time to wait. The host, the port and the scheme are told by an endpoint as well,
which may come from any source: there the file still counts where its endpoint tells something, and
the environment's own value is passed over.

## Main definitions

* `Sources.withContent`: the sources with another file
* `Sources.endpointValue`, `Sources.userValue`, `Sources.passwordValue`, `Sources.timeoutValue`: the
  values that settings of the node are made from
* `NodeSettings.IsLoaded`: the settings that are made, with what is read on the way
* `NodeSettings.IsDecided`: settings that the environment decides
* `NodeSettings.AreAlike`: what the settings of two files share where the environment gives values

## Main results

* `NodeSettings.exists_isLoaded`: what settings are made of
* `NodeSettings.IsLoaded.host_eq`, `NodeSettings.IsLoaded.port_eq`,
  `NodeSettings.IsLoaded.isSecure_eq`: what the endpoint leaves to the environment
* `NodeSettings.areAlike_of_load?`: the settings of two files
* `NodeSettings.not_isDecided`: an endpoint of the file wins over the environment
-/

namespace InscriptionLedger

/-! ## Layers -/

theorem firstGiven_cons_null (rest : List Json) : firstGiven (.null :: rest) = firstGiven rest :=
  rfl

theorem firstGiven_cons_of_ne {value : Json} (h : value ≠ .null) (rest : List Json) :
    firstGiven (value :: rest) = value := by
  cases value with
  | null => exact absurd rfl h
  | _ => rfl

theorem firstGiven_cons_cons_null (first : Json) (rest : List Json) :
    firstGiven (first :: .null :: rest) = firstGiven (first :: rest) := by
  cases first <;> rfl

theorem text_ne_null (s : String) : Json.text s ≠ .null := nofun

theorem ne_null_of_isTruthy {value : Json} (h : value.isTruthy = true) : value ≠ .null := by
  rintro rfl
  cases h

/-- What comes behind a value that is given does not count. -/
theorem firstGiven_congr {first second : Json} (h : second ≠ .null) (rest rest' : List Json) :
    firstGiven (first :: second :: rest) = firstGiven (first :: second :: rest') := by
  by_cases hfirst : first = .null
  · rw [hfirst, firstGiven_cons_null, firstGiven_cons_null, firstGiven_cons_of_ne h,
      firstGiven_cons_of_ne h]
  · rw [firstGiven_cons_of_ne hfirst, firstGiven_cons_of_ne hfirst]

/-- What comes behind a layer that is given does not count. -/
theorem getD_orElse {α : Type} (first second fourth : Option α) (third default : α) :
    (first <|> second <|> some third <|> fourth).getD default = first.getD (second.getD third) := by
  cases first <;> cases second <;> rfl

namespace Sources

/-- The sources with another file. -/
def withContent (s : Sources) (content : Option Json) : Sources := { s with content }

variable (s : Sources) (content : Option Json)

@[simp] theorem override_withContent (name : String) :
    (s.withContent content).override name = s.override name := rfl

@[simp] theorem nodeVariable_withContent (name : String) :
    (s.withContent content).nodeVariable name = s.nodeVariable name := rfl

/-- The URL that the environment gives. -/
def url : Json := presentOr (s.nodeVariable "ENDPOINT") (s.nodeVariable "URL")

/-- The value that the endpoint is read from. -/
def endpointValue (file : List (String × Json)) : Json :=
  firstGiven [s.override "endpoint", s.url, Json.member file "endpoint"]

/-- The user that is given, by the members of the file. -/
def userValue (file : List (String × Json)) : Json :=
  firstGiven [s.override "user", s.nodeVariable "USER", Json.member file "user"]

/-- The password that is given. -/
def passwordValue (file : List (String × Json)) : Json :=
  firstGiven [s.override "password", s.nodeVariable "PASSWORD", Json.member file "password"]

/-- The value that the time to wait is read from. -/
def timeoutValue (file : List (String × Json)) : Json :=
  firstGiven [s.override "timeout", s.nodeVariable "TIMEOUT", Json.member file "timeout",
    .integer 30]

/-- The endpoint that the sources tell with a file. -/
def TellsEndpoint (e : Endpoint) : Prop :=
  ∃ file, (s.withContent content).members? "rpc" = .ok file ∧
    Endpoint.read? (s.endpointValue file) = .ok e

end Sources

namespace NodeSettings

/-! ## What settings are made of -/

theorem orFault_eq_ok_iff {α : Type} {fault : String → SettingsFault} {raw : Json} {x : Outcome α}
    {a : α} : orFault fault raw x = .ok a ↔ x = .ok a := by
  unfold orFault
  split
  · exact Iff.rfl
  · exact iff_of_false nofun nofun
  · refine iff_of_false (fun h => ?_) nofun
    obtain ⟨_, -, hthrow⟩ := Outcome.bind_eq_ok_iff.1 h
    cases hthrow

/-- A source gives a port exactly if its value is present and reads as an integer. -/
theorem port?_eq_ok_iff {source : String} {raw : Json} {o : Option Int} :
    port? source raw = .ok o ↔ (raw = .null ∧ o = none) ∨ ∃ p, raw.toInt = .ok p ∧ o = some p := by
  cases raw with
  | null =>
    rw [port?, Except.ok.injEq, eq_comm]
    simp [Json.toInt]
  | _ =>
    rw [port?, orFault_eq_ok_iff, Outcome.map_eq_ok_iff]
    · simp [eq_comm]
    · exact nofun

/-- The settings that are made of the sources, with the section of the file and the endpoint that
are read on the way. -/
structure IsLoaded (s : Sources) (file : List (String × Json)) (e : Endpoint)
    (settings : NodeSettings) : Prop where
  isRead : s.members? "rpc" = .ok file
  endpoint : Endpoint.read? (s.endpointValue file) = .ok e
  user : settings.user = s.userValue file
  password : settings.password = s.passwordValue file
  host : settings.host = firstGiven [s.override "host", Json.ofOption .text e.host,
    s.nodeVariable "HOST", Json.member file "host", .text "127.0.0.1"]
  port : ∃ portOfEnvironment portOfOverrides portOfFile,
    port? "environment" (s.nodeVariable "PORT") = .ok portOfEnvironment ∧
    port? "overrides" (s.override "port") = .ok portOfOverrides ∧
    settings.port = (portOfOverrides <|> e.port <|> portOfEnvironment <|> portOfFile).getD 8332
  isSecure : settings.isSecure = (switch? (s.override "use_https") <|> e.isSecure <|>
    switch? (s.nodeVariable "USE_HTTPS") <|> switch? (Json.member file "use_https")).getD false
  timeout : timeout? (s.timeoutValue file) = .ok settings.timeout

/-- Settings are made of a section of the file and an endpoint. -/
theorem exists_isLoaded {s : Sources} {settings : NodeSettings} (h : load? s = .ok settings) :
    ∃ file e, IsLoaded s file e settings := by
  unfold load? at h
  obtain ⟨file, hfile, h⟩ := Outcome.bind_eq_ok_iff.1 h
  obtain ⟨portOfEnvironment, henvironment, h⟩ := Outcome.bind_eq_ok_iff.1 h
  obtain ⟨e, he, h⟩ := Outcome.bind_eq_ok_iff.1 h
  dsimp only at h
  split at h
  · cases h
  · obtain ⟨portOfOverrides, hoverrides, h⟩ := Outcome.bind_eq_ok_iff.1 h
    obtain ⟨portOfFile, -, h⟩ := Outcome.bind_eq_ok_iff.1 h
    obtain ⟨timeout, htimeout, h⟩ := Outcome.bind_eq_ok_iff.1 h
    obtain rfl := Except.ok.inj h
    exact ⟨file, e, hfile, he, rfl, rfl, rfl,
      ⟨portOfEnvironment, portOfOverrides, portOfFile, henvironment, hoverrides, rfl⟩, rfl,
      htimeout⟩

/-! ## What the endpoint leaves to the environment -/

section

variable {s : Sources} {file : List (String × Json)} {e : Endpoint} {settings : NodeSettings}
  (h : IsLoaded s file e settings)

include h

/-- A host of the environment is taken where neither the overrides nor the endpoint tell one. -/
theorem IsLoaded.host_eq {value : String} (hvalue : s.nodeVariable "HOST" = .text value) :
    settings.host = firstGiven [s.override "host", .text (e.host.getD value)] := by
  rw [h.host, hvalue]
  cases e.host with
  | none =>
    show firstGiven (s.override "host" :: .null :: _) = _
    rw [firstGiven_cons_cons_null]
    exact firstGiven_congr (text_ne_null value) _ _
  | some host => exact firstGiven_congr (text_ne_null host) _ _

/-- A port of the environment is taken where neither the overrides nor the endpoint tell one. -/
theorem IsLoaded.port_eq {value : Int} (hvalue : (s.nodeVariable "PORT").toInt = .ok value) :
    ∃ portOfOverrides, port? "overrides" (s.override "port") = .ok portOfOverrides ∧
      settings.port = portOfOverrides.getD (e.port.getD value) := by
  obtain ⟨portOfEnvironment, portOfOverrides, portOfFile, henvironment, hoverrides, hport⟩ := h.port
  refine ⟨portOfOverrides, hoverrides, ?_⟩
  rcases port?_eq_ok_iff.1 henvironment with ⟨hnull, -⟩ | ⟨p, hp, rfl⟩
  · rw [hnull] at hvalue
    cases hvalue
  · rw [hp] at hvalue
    obtain rfl := Except.ok.inj hvalue
    rw [hport, getD_orElse]

/-- A scheme of the environment is taken where neither the overrides nor the endpoint tell one. -/
theorem IsLoaded.isSecure_eq {value : Bool}
    (hvalue : switch? (s.nodeVariable "USE_HTTPS") = some value) :
    settings.isSecure = (switch? (s.override "use_https")).getD (e.isSecure.getD value) := by
  rw [h.isSecure, hvalue, getD_orElse]

end

/-! ## The settings of two files -/

/-- Whether the environment decides a setting: wherever it gives the setting, two files that
settings are made with leave it the same. -/
def IsDecided {α : Type} (isGiven : Sources → Bool) (setting : NodeSettings → α) : Prop :=
  ∀ (s : Sources) (file file' : Json) (settings settings' : NodeSettings),
    load? (s.withContent (some file)) = .ok settings →
      load? (s.withContent (some file')) = .ok settings' →
        isGiven s = true → setting settings = setting settings'

/-- What the settings of two files share where the environment gives values: the user, the password
and the time to wait; and of the host, the port and the scheme what the overrides give, or else
what the endpoints tell alike. -/
structure AreAlike (s : Sources) (e e' : Endpoint) (settings settings' : NodeSettings) : Prop where
  user : (s.nodeVariable "USER").isTruthy = true → settings.user = settings'.user
  password : (s.nodeVariable "PASSWORD").isTruthy = true → settings.password = settings'.password
  timeout : (s.nodeVariable "TIMEOUT").isTruthy = true → settings.timeout = settings'.timeout
  host : ∀ value, s.nodeVariable "HOST" = .text value →
    (settings.host = settings'.host ↔
      s.override "host" ≠ .null ∨ e.host.getD value = e'.host.getD value)
  port : ∀ value, (s.nodeVariable "PORT").toInt = .ok value →
    (settings.port = settings'.port ↔
      s.override "port" ≠ .null ∨ e.port.getD value = e'.port.getD value)
  isSecure : ∀ value, switch? (s.nodeVariable "USE_HTTPS") = some value →
    (settings.isSecure = settings'.isSecure ↔
      (switch? (s.override "use_https")).isSome = true ∨
        e.isSecure.getD value = e'.isSecure.getD value)
  /-- An endpoint of the overrides or of the environment is the endpoint with either file. -/
  endpoint : s.override "endpoint" ≠ .null ∨ s.url ≠ .null → e = e'

section

variable {s : Sources} {content content' : Option Json} {file file' : List (String × Json)}
  {e e' : Endpoint} {settings settings' : NodeSettings}
  (h : IsLoaded (s.withContent content) file e settings)
  (h' : IsLoaded (s.withContent content') file' e' settings')

include h h'

theorem host_eq_iff {value : String} (hvalue : s.nodeVariable "HOST" = .text value) :
    settings.host = settings'.host ↔
      s.override "host" ≠ .null ∨ e.host.getD value = e'.host.getD value := by
  rw [h.host_eq hvalue, h'.host_eq hvalue, Sources.override_withContent,
    Sources.override_withContent]
  -- The overrides are the same with either file; only behind them do the endpoints count.
  by_cases hoverride : s.override "host" = .null
  · rw [hoverride, firstGiven_cons_null, firstGiven_cons_null,
      firstGiven_cons_of_ne (text_ne_null _), firstGiven_cons_of_ne (text_ne_null _),
      Json.text.injEq]
    simp
  · rw [firstGiven_cons_of_ne hoverride, firstGiven_cons_of_ne hoverride]
    exact iff_of_true rfl (.inl hoverride)

theorem port_eq_iff {value : Int} (hvalue : (s.nodeVariable "PORT").toInt = .ok value) :
    settings.port = settings'.port ↔
      s.override "port" ≠ .null ∨ e.port.getD value = e'.port.getD value := by
  obtain ⟨o, ho, hport⟩ := h.port_eq hvalue
  obtain ⟨o', ho', hport'⟩ := h'.port_eq hvalue
  rw [Sources.override_withContent] at ho ho'
  obtain rfl : o = o' := Except.ok.inj (ho.symm.trans ho')
  rw [hport, hport']
  rcases port?_eq_ok_iff.1 ho with ⟨hnull, rfl⟩ | ⟨p, hp, rfl⟩
  · simp [hnull]
  · refine iff_of_true rfl (.inl fun hnull => ?_)
    rw [hnull] at hp
    cases hp

theorem isSecure_eq_iff {value : Bool}
    (hvalue : switch? (s.nodeVariable "USE_HTTPS") = some value) :
    settings.isSecure = settings'.isSecure ↔
      (switch? (s.override "use_https")).isSome = true ∨
        e.isSecure.getD value = e'.isSecure.getD value := by
  rw [h.isSecure_eq hvalue, h'.isSecure_eq hvalue, Sources.override_withContent,
    Sources.override_withContent]
  cases switch? (s.override "use_https") with
  | none => simp
  | some _ => exact iff_of_true rfl (.inl rfl)

theorem endpoint_eq (hgiven : s.override "endpoint" ≠ .null ∨ s.url ≠ .null) : e = e' := by
  have hvalue : s.endpointValue file = s.endpointValue file' := by
    by_cases hoverride : s.override "endpoint" = .null
    · exact firstGiven_congr (hgiven.resolve_left (not_not_intro hoverride)) _ _
    · rw [Sources.endpointValue, Sources.endpointValue, firstGiven_cons_of_ne hoverride,
        firstGiven_cons_of_ne hoverride]
  have hread : Endpoint.read? (s.endpointValue file) = .ok e := h.endpoint
  have hread' : Endpoint.read? (s.endpointValue file') = .ok e' := h'.endpoint
  rw [hvalue, hread'] at hread
  exact (Except.ok.inj hread).symm

theorem areAlike : AreAlike s e e' settings settings' := by
  constructor
  case user =>
    intro hgiven
    rw [h.user, h'.user]
    exact firstGiven_congr (ne_null_of_isTruthy hgiven) _ _
  case password =>
    intro hgiven
    rw [h.password, h'.password]
    exact firstGiven_congr (ne_null_of_isTruthy hgiven) _ _
  case timeout =>
    intro hgiven
    have hvalue : s.timeoutValue file = s.timeoutValue file' :=
      firstGiven_congr (ne_null_of_isTruthy hgiven) _ _
    have htimeout : timeout? (s.timeoutValue file) = .ok settings.timeout := h.timeout
    rw [hvalue] at htimeout
    exact Except.ok.inj (htimeout.symm.trans h'.timeout)
  case host => exact fun value hvalue => host_eq_iff h h' hvalue
  case port => exact fun value hvalue => port_eq_iff h h' hvalue
  case isSecure => exact fun value hvalue => isSecure_eq_iff h h' hvalue
  case endpoint => exact endpoint_eq h h'

end

/-- The settings of two files, with the endpoints that the sources tell with each. -/
theorem areAlike_of_load? {s : Sources} {content content' : Option Json}
    {settings settings' : NodeSettings} (h : load? (s.withContent content) = .ok settings)
    (h' : load? (s.withContent content') = .ok settings') :
    ∃ e e', s.TellsEndpoint content e ∧ s.TellsEndpoint content' e' ∧
      AreAlike s e e' settings settings' := by
  obtain ⟨file, e, hloaded⟩ := exists_isLoaded h
  obtain ⟨file', e', hloaded'⟩ := exists_isLoaded h'
  exact ⟨e, e', ⟨file, hloaded.isRead, hloaded.endpoint⟩,
    ⟨file', hloaded'.isRead, hloaded'.endpoint⟩, areAlike hloaded hloaded'⟩

end NodeSettings

/-- Sources of which the environment alone gives something: credentials and a host, a port and a
scheme apart. -/
def Sources.ofParts : Sources where
  path := ⟨"", ["ordview.yaml"]⟩
  environment := [("BTC_RPC_USER", "u"), ("BTC_RPC_PASSWORD", "p"), ("BTC_RPC_HOST", "envhost"),
    ("BTC_RPC_PORT", "1111"), ("BTC_RPC_USE_HTTPS", "true")]

/-- A file with an endpoint. -/
def endpointFile (endpoint : Json) : Json := .object [("rpc", .object [("endpoint", endpoint)])]

namespace NodeSettings

open Sources (ofParts)

theorem load?_ofParts : load? (ofParts.withContent (some (.object []))) =
    .ok ⟨.text "u", .text "p", .text "envhost", 1111, true, .ofInt 30⟩ := by
  rfl

theorem load?_ofParts_host :
    load? (ofParts.withContent (some (endpointFile (.text "http://filehost")))) =
      .ok ⟨.text "u", .text "p", .text "filehost", 1111, false, .ofInt 30⟩ := by
  rfl

theorem load?_ofParts_port :
    load? (ofParts.withContent (some (endpointFile (.text "http://filehost:2222")))) =
      .ok ⟨.text "u", .text "p", .text "filehost", 2222, false, .ofInt 30⟩ := by
  rfl

/-- With an endpoint without a port in the file, the port of the environment stays, as do the user
and the password; the host and the scheme do not. -/
theorem areAlike_of_load?_host :
    ∃ settings settings',
      load? (ofParts.withContent (some (.object []))) = .ok settings ∧
      load? (ofParts.withContent (some (endpointFile (.text "http://filehost")))) = .ok settings' ∧
      settings.user = settings'.user ∧ settings.password = settings'.password ∧
      settings.port = settings'.port ∧ settings.host ≠ settings'.host ∧
      settings.isSecure ≠ settings'.isSecure := by
  obtain ⟨e, e', ⟨file, hfile, he⟩, ⟨file', hfile', he'⟩, halike⟩ :=
    areAlike_of_load? load?_ofParts load?_ofParts_host
  obtain rfl : [] = file := Except.ok.inj hfile
  obtain rfl : [("endpoint", .text "http://filehost")] = file' := Except.ok.inj hfile'
  obtain rfl : {} = e := Except.ok.inj he
  obtain rfl : ⟨some "filehost", none, some false⟩ = e' := Except.ok.inj he'
  refine ⟨_, _, load?_ofParts, load?_ofParts_host, halike.user rfl, halike.password rfl,
    (halike.port 1111 rfl).2 (.inr rfl), fun hhost => ?_, fun hsecure => ?_⟩
  · rcases (halike.host "envhost" rfl).1 hhost with hoverride | hsame
    · exact hoverride rfl
    · exact absurd hsame (by decide)
  · rcases (halike.isSecure true rfl).1 hsecure with hoverride | hsame
    · cases hoverride
    · cases hsame

/-- The environment decides neither the host nor the port nor the scheme: an endpoint of the file
wins over its own values. -/
theorem not_isDecided :
    ¬IsDecided (fun s => (s.nodeVariable "HOST").isTruthy) host ∧
      ¬IsDecided (fun s => (s.nodeVariable "PORT").isTruthy) port ∧
      ¬IsDecided (fun s => (switch? (s.nodeVariable "USE_HTTPS")).isSome) isSecure := by
  refine ⟨fun h => ?_, fun h => ?_, fun h => ?_⟩
  · have hhost := h _ _ _ _ _ load?_ofParts load?_ofParts_port rfl
    simp at hhost
  · have hport := h _ _ _ _ _ load?_ofParts load?_ofParts_port rfl
    simp at hport
  · have hsecure := h _ _ _ _ _ load?_ofParts load?_ofParts_port rfl
    simp at hsecure

end NodeSettings

end InscriptionLedger
