import CommentSearch.Backend
import CommentSearch.Channel
import CommentSearch.Compile
import CommentSearch.Document
import CommentSearch.Platform
import CommentSearch.Shipped

/-!
# Sessions

A session has an environment, files and a platform, and remembers what it has read: the settings of
queries, the policies of indexing and the client of the backend are made when they are first needed
and kept until they are dropped. It also records what is reported and what passes between it and the
backend. What happened before a fault is not undone by it.
-/

namespace CommentSearch

/-- The state of a session. -/
structure Session where
  environment : Environment := []
  files : Files := Shipped.files
  platform : Platform := {}
  /-- The settings of queries, once they have been read. -/
  settings : Option Fields := none
  /-- The policies of indexing, once they have been read. -/
  policies : Option Fields := none
  /-- The client, once one has been made. -/
  client : Option Client := none
  clientsMade : Nat := 0
  /-- What was reported, in order. -/
  events : List Event := []
  /-- What passed between the session and the backend, in order. -/
  exchanges : List Exchange := []

/-- A computation in a session that may end in a fault. -/
abbrev Work := ExceptT Fault (StateM Session)

namespace Work

/-! ### The environment and the files -/

/-- Sets a variable. -/
def setVariable (name value : String) : Work Unit :=
  modify fun s => { s with environment := (name, value) :: s.environment.filter (·.1 != name) }

/-- Removes a variable. -/
def unsetVariable (name : String) : Work Unit :=
  modify fun s => { s with environment := s.environment.filter (·.1 != name) }

/-- Writes a file. -/
def writeFile (path text : String) : Work Unit :=
  modify fun s => { s with files := s.files.write path text }

/-- Removes a file. -/
def removeFile (path : String) : Work Unit :=
  modify fun s => { s with files := s.files.remove path }

/-! ### Reports -/

/-- Reports an event. -/
def report (e : Event) : Work Unit := modify fun s => { s with events := s.events ++ [e] }

/-! ### Settings -/

/-- The settings of queries: those that were read first. -/
def querySettings : Work Fields := do
  let s ← get
  match s.settings with
  | some settings => return settings
  | none =>
    let settings := Settings.ofQueries s.platform.readYaml s.environment s.files
    set { s with settings := some settings }
    return settings

/-- The policies of indexing: those that were read first. -/
def metaPolicies : Work Fields := do
  let s ← get
  match s.policies with
  | some policies => return policies
  | none =>
    let policies := Settings.ofPolicies s.platform.readYaml s.environment s.files
    set { s with policies := some policies }
    return policies

/-- Drops the settings and policies that were read. -/
def dropSettings : Work Unit := modify fun s => { s with settings := none, policies := none }

/-! ### The client -/

/-- The client of the backend: the one that was made first. -/
def client : Work Client := do
  let s ← get
  match s.client with
  | some client => return client
  | none =>
    let options := ClientOptions.ofEnvironment s.environment
    report (.clientInit options.node options.timeout options.rejectUnauthorized)
    let client ← Client.make s.platform.connect s.clientsMade options
    modify fun s => { s with client := some client, clientsMade := s.clientsMade + 1 }
    return client

/-- Drops the client. -/
def dropClient : Work Unit := modify fun s => { s with client := none }

/-- Calls the backend. -/
def call (backend : Backend) (c : Call) : Work Reply := do
  let s ← get
  let reply := backend s.exchanges c
  set { s with exchanges := s.exchanges ++ [{ call := c, reply := reply : Exchange }] }
  return reply

/-! ### Compilation and preparation -/

/-- Compiles a request with options that the settings give. -/
def compile (request : Request) (options : Fields → CompileOptions) : Work Compilation := do
  let result ← request.compile (options (← querySettings))
  let compiled := result.compiled
  report (.compiled compiled.filters.length compiled.window compiled.sort
    (!Param.isEmpty (request.get? "search")))
  return result

/-- The local time zone. -/
def zone : Work TimeZone := do return (← get).platform.zone

/-- The policy of indexing metadata. -/
def metaPolicy : Work MetaPolicy := do return .ofSettings (← metaPolicies)

/-- Prepares the document of a comment, its post and its metadata, under a policy or else the one
of the settings. -/
def prepare (comment post metadata : Param) (policy : Option MetaPolicy) :
    Work (Option Document) := do
  let policy ← match policy with
    | some policy => pure policy
    | none => metaPolicy
  match ← Document.prepare (← zone) comment post metadata policy with
  | some document =>
    report (.prepared document.commentId document.metadata.length)
    return some document
  | none => return none

end Work

end CommentSearch
