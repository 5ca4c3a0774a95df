import InscriptionLedger.Settings.Endpoint
import InscriptionLedger.Settings.Sources

/-!
# Settings of the node

How the node is reached. An endpoint given as a URL wins over a host, a port and a scheme given
apart, save those among the overrides.

## Main definitions

* `NodeSettings`, `NodeSettings.load?`: the settings, and where they come from
* `NodeSettings.baseUrl`: the URL that calls are sent to
-/

namespace InscriptionLedger

/-- How the node is reached. -/
structure NodeSettings where
  user : Json
  password : Json
  host : Json := .text "127.0.0.1"
  port : Int := 8332
  isSecure : Bool := false
  timeout : Binary64 := .ofInt 30
  deriving Repr

namespace NodeSettings

/-- The URL that calls are sent to. -/
def baseUrl (s : NodeSettings) : Outcome String := do
  let host ← s.host.show?
  requireWritable (Numeral.isShort s.port)
  return (if s.isSecure then "https" else "http") ++ "://" ++ host ++ ":" ++ Numeral.write s.port

/-- Whether a text says yes or no. -/
def ofWord? (s : String) : Option Bool :=
  let word := Text.lower (Text.trim s)
  if ["1", "true", "yes", "y", "on"].contains word then some true
  else if ["0", "false", "no", "n", "off"].contains word then some false
  else none

/-- Whether a value says yes or no. -/
def switch? : Json → Option Bool
  | .bool value => some value
  | .text value => ofWord? value
  | _ => none

/-- A value that cannot be read is told by its text, as a fault of the settings; a magnitude beyond
all range is not. -/
def orFault {α : Type} (fault : String → SettingsFault) (raw : Json) : Outcome α → Outcome α
  | .ok a => .ok a
  | .error .magnitude => .error .magnitude
  | .error _ => do throw (.settings (fault (← raw.show?)))

/-- The port that a source gives, if any. -/
def port? (source : String) : Json → Outcome (Option Int)
  | .null => .ok none
  | raw => orFault (.port source) raw (raw.toInt.map some)

/-- The time to wait for an answer. -/
def timeout? (raw : Json) : Outcome Binary64 := orFault .timeout raw raw.toBinary64

/-- The settings of the sources. What is wrong is told in this order: the file, the port of the
environment, the endpoint, the credentials, the ports of the overrides and of the file, the time. -/
def load? (s : Sources) : Outcome NodeSettings := do
  let file ← s.members? "rpc"
  let portOfEnvironment ← port? "environment" (s.nodeVariable "PORT")
  let url := Sources.presentOr (s.nodeVariable "ENDPOINT") (s.nodeVariable "URL")
  let endpoint ←
    Endpoint.read? (firstGiven [s.override "endpoint", url, Json.member file "endpoint"])
  let user := firstGiven [s.override "user", s.nodeVariable "USER", Json.member file "user"]
  let password :=
    firstGiven [s.override "password", s.nodeVariable "PASSWORD", Json.member file "password"]
  if !user.isTruthy || !password.isTruthy then throw (.settings .credentials)
  let host := firstGiven [s.override "host", Json.ofOption .text endpoint.host,
    s.nodeVariable "HOST", Json.member file "host", .text "127.0.0.1"]
  let portOfOverrides ← port? "overrides" (s.override "port")
  let portOfFile ← port? (s.path.text ++ " rpc.port") (Json.member file "port")
  let port := portOfOverrides <|> endpoint.port <|> portOfEnvironment <|> portOfFile
  let isSecure := switch? (s.override "use_https") <|> endpoint.isSecure <|>
    switch? (s.nodeVariable "USE_HTTPS") <|> switch? (Json.member file "use_https")
  let timeout ← timeout? (firstGiven [s.override "timeout", s.nodeVariable "TIMEOUT",
    Json.member file "timeout", .integer 30])
  return {
    user, password, host, timeout
    port := port.getD 8332
    isSecure := isSecure.getD false }

end NodeSettings

end InscriptionLedger
