import CommentSearch.Proofs.Remembering

/-!
# Steps of a session

A session goes on by steps (`Step`): changes to its environment and its files, the drop of what it
has read, and computations that read settings or policies (`Reader`). For each of the two a `Store`
says where it is remembered, what it is read from, and which steps read it.

What one step does to what is remembered is told by `Store.remembered_after`.
-/

namespace CommentSearch

/-! ### Worlds -/

/-- What settings are read from. -/
structure World where
  environment : Environment
  files : Files
  readYaml : YamlReader

/-- The world of a session. -/
def Session.world (s : Session) : World := ⟨s.environment, s.files, s.platform.readYaml⟩

/-- What a session remembers once it has read it. -/
inductive Store where
  | settings
  | policies

namespace Store

/-- What a session remembers. -/
def remembered : Store → Session → Option Fields
  | settings, s => s.settings
  | policies, s => s.policies

/-- What a world holds. -/
def hold : Store → World → Fields
  | settings, w => Settings.ofQueries w.readYaml w.environment w.files
  | policies, w => Settings.ofPolicies w.readYaml w.environment w.files

/-- The computation that reads it. -/
def read : Store → Work Fields
  | settings => Work.querySettings
  | policies => Work.metaPolicies

/-- What a session reads: what it remembers, or else what its world holds. -/
def current (store : Store) (s : Session) : Fields :=
  (store.remembered s).getD (store.hold s.world)

theorem run_read (store : Store) (s : Session) :
    (store.read.run.run s).1 = .ok (store.current s) := by
  cases store with
  | settings => rw [read, Work.run_querySettings]; rfl
  | policies => rw [read, Work.run_metaPolicies]; rfl

end Store

/-! ### Steps -/

/-- A computation that reads settings or policies, or may read them. -/
inductive Reader where
  | settings
  | policies
  | policy
  | compile (request : Request) (options : Fields → CompileOptions)
  | compileTool (args : Param)
  | search (words : Value) (selection : Param) (options : SearchOptions → SearchOptions)
  | prepare (comment post metadata : Param) (given : Option MetaPolicy)
  | prepareTool (args : Param)
  | mappingFile (version distribution : String)
  | provision (backend : Backend) (options : ProvisionOptions)
  | provisionTool (backend : Backend) (args : Param)

namespace Reader

/-- What a computation gives. -/
def Result : Reader → Type
  | settings | policies => Fields
  | policy => MetaPolicy
  | compile .. => Compilation
  | compileTool _ => Compiled
  | search .. => Query
  | prepare .. | prepareTool _ => Option Document
  | mappingFile .. => MappingFile
  | provision .. | provisionTool .. => Provision

/-- The computation itself. -/
def run : (r : Reader) → Work r.Result
  | settings => Work.querySettings
  | policies => Work.metaPolicies
  | policy => Work.metaPolicy
  | compile request options => Work.compile request options
  | compileTool args => Work.compileTool args
  | search words selection options => do
    searchQuery words selection (options (.ofSettings (← Work.querySettings)))
  | prepare comment post metadata given => Work.prepare comment post metadata given
  | prepareTool args => Work.prepareTool args
  | mappingFile version distribution => Work.mappingFile version distribution
  | provision backend options => Work.provision backend options
  | provisionTool backend args => Work.provisionTool backend args

end Reader

/-- Whether a computation in a session reads what the session remembers, or is to remember. -/
def Store.isReadBy : Store → Reader → Session → Bool
  | settings, r, s =>
    match r with
    | .settings | .compile .. | .search .. => true
    | .compileTool args => Tool.compileQuery.takes args
    | .mappingFile version distribution => MappingFile.reads version distribution
    | .provision backend options => s.provisionReads backend options
    | .provisionTool backend args => s.provisionToolReads backend args
    | .policies | .policy | .prepare .. | .prepareTool _ => false
  | policies, r, _ =>
    match r with
    | .policies | .policy => true
    | .prepare _ _ _ given => given.isNone
    | .prepareTool args => Tool.prepareDocument.takes args
    | .settings | .compile .. | .compileTool _ | .search .. | .mappingFile .. | .provision ..
    | .provisionTool .. => false

/-- A change to what settings are read from, the drop of what was read, or a computation. -/
inductive Step where
  | setVariable (name value : String)
  | unsetVariable (name : String)
  | writeFile (path text : String)
  | removeFile (path : String)
  | dropSettings
  | read (reader : Reader)

/-- The session after a step. -/
def Step.after : Step → Session → Session
  | setVariable name value, s => ((Work.setVariable name value).run.run s).2
  | unsetVariable name, s => ((Work.unsetVariable name).run.run s).2
  | writeFile path text, s => ((Work.writeFile path text).run.run s).2
  | removeFile path, s => ((Work.removeFile path).run.run s).2
  | dropSettings, s => (Work.dropSettings.run.run s).2
  | read reader, s => (reader.run.run.run s).2

/-- The session after several steps. -/
def Session.afterAll (s : Session) (steps : List Step) : Session :=
  steps.foldl (fun s step => step.after s) s

theorem Session.afterAll_append (s : Session) (steps later : List Step) :
    s.afterAll (steps ++ later) = (s.afterAll steps).afterAll later :=
  List.foldl_append

theorem Session.afterAll_concat (s : Session) (steps : List Step) (step : Step) :
    s.afterAll (steps ++ [step]) = step.after (s.afterAll steps) :=
  s.afterAll_append steps [step]

/-! ### One step -/

theorem Reader.reads (r : Reader) (s : Session) (k : Snapshot) : ∃ result t,
    r.run.Reads s k (Store.settings.isReadBy r s) (Store.policies.isReadBy r s) result t := by
  cases r with
  | settings => exact ⟨_, _, Work.reads_querySettings s k⟩
  | policies => exact ⟨_, _, Work.reads_metaPolicies s k⟩
  | policy => exact ⟨_, _, Work.reads_metaPolicy s k⟩
  | compile request options => exact Work.reads_compile request options s k
  | compileTool args => exact Work.reads_compileTool args s k
  | search words selection options =>
    exact ⟨_, _, (Work.reads_querySettings s k).bind (Work.reads_liftM _ s k)⟩
  | prepare comment post metadata given => exact Work.reads_prepare comment post metadata given s k
  | prepareTool args => exact Work.reads_prepareTool args s k
  | mappingFile version distribution =>
    obtain ⟨file, hreads⟩ := Work.reads_mappingFile s k version distribution
    exact ⟨_, _, hreads⟩
  | provision backend options => exact Work.reads_provision backend options s k
  | provisionTool backend args => exact Work.reads_provisionTool args s k backend

namespace Store

/-- Whether a step reads what a session remembers. -/
def isReadIn (store : Store) : Step → Session → Bool
  | .read reader, s => store.isReadBy reader s
  | _, _ => false

/-- What is remembered before, or read, is remembered after. -/
theorem ite_isSome_or (kept : Option Fields) (reads : Bool) (held : Fields) :
    (if (kept.isSome || reads) = true then some (kept.getD held) else none) =
      if reads = true then some (kept.getD held) else kept := by
  cases kept <;> cases reads <;> rfl

/-- A computation leaves the world as it is, and what it has read is remembered after it. -/
theorem remembered_read (store : Store) (r : Reader) (s : Session) :
    ((Step.read r).after s).world = s.world ∧ store.remembered ((Step.read r).after s) =
      if store.isReadBy r s then some (store.current s) else store.remembered s := by
  obtain ⟨result, t, hreads⟩ := r.reads s ⟨s.querySettings, s.metaPolicies⟩
  -- the session is one that remembers some part of what it would read
  have hrun := hreads.run _ _ s.fits
  rw [← s.eq_remember] at hrun
  have hafter : (Step.read r).after s = t.remember ⟨s.querySettings, s.metaPolicies⟩
      (s.settings.isSome || Store.settings.isReadBy r s)
      (s.policies.isSome || Store.policies.isReadBy r s) := congrArg Prod.snd hrun
  rw [hafter]
  refine ⟨?_, ?_⟩
  · change World.mk t.environment t.files t.platform.readYaml = s.world
    rw [hreads.environment, hreads.files, hreads.platform]
    rfl
  · cases store with
    | settings => exact ite_isSome_or s.settings _ _
    | policies => exact ite_isSome_or s.policies _ _

/-- After a step that is no drop, what it has read is remembered, and what was remembered still
is. -/
theorem remembered_after (store : Store) {step : Step} (h : step ≠ .dropSettings) (s : Session) :
    store.remembered (step.after s) =
      if store.isReadIn step s then some (store.current s) else store.remembered s := by
  cases step with
  | read r => exact (store.remembered_read r s).2
  | dropSettings => exact absurd rfl h
  | setVariable | unsetVariable | writeFile | removeFile => cases store <;> rfl

theorem remembered_after_drop (store : Store) (s : Session) :
    store.remembered (Step.dropSettings.after s) = none := by
  cases store <;> rfl

end Store

end CommentSearch
