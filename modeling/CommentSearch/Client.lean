import CommentSearch.Settings.Layers
import CommentSearch.Url

/-!
# Clients of the backend

The environment says where the backend is and how a client talks to it.
-/

namespace CommentSearch

/-- How a client of the backend is made. -/
structure ClientOptions where
  /-- The address, as it is given. -/
  node : String
  /-- How long a request may take, in milliseconds. -/
  timeout : Number
  /-- Whether certificates have to be valid. -/
  rejectUnauthorized : Bool
  /-- The name and the password that are given beside the address. -/
  credentials : Option Credentials
deriving DecidableEq

/-- The credentials of the environment; both parts have to be there. -/
def Credentials.ofEnvironment? (env : Environment) : Option Credentials := do
  return ⟨← env.nonEmpty? "OPENSEARCH_USERNAME", ← env.nonEmpty? "OPENSEARCH_PASSWORD"⟩

/-- The options that the environment gives. -/
def ClientOptions.ofEnvironment (env : Environment) : ClientOptions where
  node := (env.nonEmpty? "OPENSEARCH_URL").getD "http://localhost:9200"
  timeout := match env.lookup "COMMENT_QUERY_OS_CLIENT_TIMEOUT_MS" with
    | some s => .ofText s
    | none => .finite 10000
  rejectUnauthorized := env.lookup "OPENSEARCH_SSL_REJECT_UNAUTHORIZED" != some "false"
  credentials := Credentials.ofEnvironment? env

/-! ### Connections -/

/-- What a client is connected to: the address that its options name, and the credentials that it
sends there. -/
structure Connection where
  url : Url
  credentials : Option Credentials
deriving DecidableEq

/-- What makes the connection of a client from its options. -/
abbrev Connector := ClientOptions → Except Fault Connection

/-- The connection over the web that some options give. The credentials of the address count before
those of the options. -/
def Connection.overWeb : Connector := fun options => do
  let url ← Url.read options.node
  let own ← url.credentials?
  if !url.isWeb then throw .foreignScheme
  return ⟨url, own <|> options.credentials⟩

/-! ### Clients -/

/-- A client of the backend. -/
structure Client where
  /-- How many clients were made before this one. -/
  serial : Nat
  options : ClientOptions
  connection : Connection
deriving DecidableEq

namespace Client

/-- The address that a client talks to. -/
def url (c : Client) : Url := c.connection.url

/-- The credentials that a client sends. -/
def credentials (c : Client) : Option Credentials := c.connection.credentials

/-- The client with some options. -/
def make (connect : Connector) (serial : Nat) (options : ClientOptions) : Except Fault Client := do
  return ⟨serial, options, ← connect options⟩

end Client

end CommentSearch
