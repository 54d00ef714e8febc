import TypedSql.Text.Quoted

/-! Connections: how a server is reached, the text of keywords and values that says so, and the choice of
one connection among those configured. -/
namespace TypedSql.Connection
open Text

/-- Whether a connection is encrypted, and what is checked about the server. -/
inductive SslMode where
  | disable
  | prefer
  | require
  | verifyCa
  | verifyFull
  deriving DecidableEq, Repr

namespace SslMode

/-- The value of the keyword `sslmode`. -/
def keyword : SslMode → String
  | disable => "disable"
  | prefer => "prefer"
  | require => "require"
  | verifyCa => "verify-ca"
  | verifyFull => "verify-full"

/-- The name in configuration files. -/
def name : SslMode → String
  | disable => "Disable"
  | prefer => "Prefer"
  | require => "Require"
  | verifyCa => "VerifyCa"
  | verifyFull => "VerifyFull"

def ofName? (s : String) : Option SslMode :=
  [disable, prefer, require, verifyCa, verifyFull].find? fun mode => mode.name = s

/-- Whether the certificate is checked whatever else the configuration says. -/
def isStrict (mode : SslMode) : Bool := mode = verifyCa || mode = verifyFull

end SslMode

/-- How to reach a server. -/
structure Config where
  name : String
  host : String
  port : UInt16
  database : String
  username : String
  password : String
  sslMode : SslMode
  /-- Accepts any certificate where the mode does not check it. -/
  acceptsInvalidCerts : Bool
  /-- A file of further trusted certificates. -/
  caCertPath : Option String
  deriving DecidableEq, Repr

/-- A character inside single quotes: a quote or backslash follows a backslash. -/
def escapeChar (c : Char) : List Char :=
  if c = '\\' || c = '\'' then ['\\', c] else [c]

/-- A value in single quotes. -/
def quotedValue (s : String) : String :=
  String.ofList ('\'' :: s.toList.flatMap escapeChar ++ ['\''])

namespace Config

/-- The server on this machine. -/
def localServer : Config where
  name := "local"
  host := "localhost"
  port := 5432
  database := "postgres"
  username := "postgres"
  password := ""
  sslMode := .prefer
  acceptsInvalidCerts := false
  caCertPath := none

/-- The keywords and values that a connection is opened with. -/
def connectionString (c : Config) : String :=
  s!"host={quotedValue c.host} port={c.port.toNat} dbname={quotedValue c.database}" ++
  s!" user={quotedValue c.username} password={quotedValue c.password}" ++
  s!" sslmode={c.sslMode.keyword} connect_timeout=10"

/-- The connection as people are shown it. -/
def displayString (c : Config) : String :=
  s!"{c.username}@{c.host}:{c.port.toNat}/{c.database}"

end Config

/-- What is configured: the schema whose types and tables are loaded, and connections. -/
structure AppConfig where
  schema : String
  connections : List Config
  deriving DecidableEq, Repr

/-- What keeps a connection from being chosen or opened. -/
inductive Problem where
  | unknownConnection (name : String)
  | unterminatedCertificate
  | noCertificates
  | unreadableCertificate
  | unreachable
  | unreachableSecurely
  deriving DecidableEq, Repr

def Problem.message : Problem → String
  | unknownConnection name => s!"no connection named {quoted name} in config"
  | unterminatedCertificate => "unterminated certificate in PEM data"
  | noCertificates => "no certificates found in PEM data"
  | unreadableCertificate => "failed to parse certificate"
  | unreachable => "failed to connect to PostgreSQL"
  | unreachableSecurely => "failed to connect to PostgreSQL over TLS"

namespace AppConfig

/-- What counts where nothing is configured. -/
def empty : AppConfig := ⟨"public", []⟩

/-- The connection with a name, letters of either case the same; without a name the first one, or the
local one. A password that is given replaces the configured one. -/
def connection (config : AppConfig) (name password : Option String) : Except Problem Config := do
  let chosen ← match name with
    | some name =>
      match config.connections.find? fun c => c.name.toLower = name.toLower with
      | some c => .ok c
      | none => .error (.unknownConnection name)
    | none => .ok (config.connections.head?.getD .localServer)
  return { chosen with password := password.getD chosen.password }

end AppConfig
end TypedSql.Connection
