import TypedSql.Connection.Config
import TypedSql.Toml.Parser
import TypedSql.Toml.Quoted

/-! Configurations read from settings and written to configuration files. -/
namespace TypedSql.Connection

/-- A field that need not be there. A field that is there must be of its kind. -/
def orDefault {α : Type} (field : Option Setting) (read : Setting → Option α)
    (default : α) : Option α :=
  match field with
  | some setting => read setting
  | none => some default

/-- A port is an integer of 16 bits. -/
def port? : Setting → Option UInt16
  | .integer n => if 0 ≤ n && n < Nat.pow 2 16 then some n.toNat.toUInt16 else none
  | _ => none

/-- A text that may be null. -/
def textOrNull? : Setting → Option (Option String)
  | .null => some none
  | setting => setting.text?.map some

/-- A connection. The fields up to the user name are required. -/
def Config.ofSetting? (format : Setting.Format) (setting : Setting) : Option Config := do
  let field ← setting.record? format ["name", "host", "port", "database", "username", "password",
    "ssl_mode", "accept_invalid_certs", "ca_cert_path"]
  return {
    name := ← (← field "name").text?
    host := ← (← field "host").text?
    port := ← port? (← field "port")
    database := ← (← field "database").text?
    username := ← (← field "username").text?
    password := ← orDefault (field "password") Setting.text? ""
    sslMode := ← orDefault (field "ssl_mode") (fun s => (s.choice? format).bind SslMode.ofName?) .prefer
    acceptsInvalidCerts := ← orDefault (field "accept_invalid_certs") Setting.flag? false
    caCertPath := ← orDefault (field "ca_cert_path") textOrNull? none }

namespace AppConfig

/-- A configuration from settings; unknown fields are ignored. -/
def ofSetting? (format : Setting.Format) (setting : Setting) : Option AppConfig := do
  let field ← setting.record? format ["schema", "connections"]
  return {
    schema := ← orDefault (field "schema") Setting.text? empty.schema
    connections := ← orDefault (field "connections")
      (fun s => s.list?.bind (List.mapM (Config.ofSetting? format))) [] }

def ofJson? (document : Json) : Option AppConfig := ofSetting? .json (.ofJson document)

/-- A configuration from the text of a configuration file. -/
def parse? (text : String) : Option AppConfig := (Toml.parse? text).bind (ofSetting? .toml)

/-- The lines that a connection is saved as. Its password is never written. -/
def connectionLines (c : Config) : List String :=
  ["", "[[connections]]",
    "name = " ++ Toml.quoted c.name,
    "host = " ++ Toml.quoted c.host,
    s!"port = {c.port.toNat}",
    "database = " ++ Toml.quoted c.database,
    "username = " ++ Toml.quoted c.username,
    "ssl_mode = " ++ Toml.quoted c.sslMode.name,
    s!"accept_invalid_certs = {c.acceptsInvalidCerts}"] ++
  (c.caCertPath.map fun path => "ca_cert_path = " ++ Toml.quoted path).toList

/-- The configuration file that a configuration is saved as. -/
def fileText (config : AppConfig) : String :=
  let connections :=
    if config.connections.isEmpty then ["connections = []"] else config.connections.flatMap connectionLines
  String.join ((("schema = " ++ Toml.quoted config.schema) :: connections).map (· ++ "\n"))

end AppConfig
end TypedSql.Connection
