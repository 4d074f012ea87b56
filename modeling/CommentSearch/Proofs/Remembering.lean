import CommentSearch.Proofs.ProvisioningRuns

/-!
# What a session remembers

A session remembers its settings of queries and its policies of indexing once it has read them.
`Work.Reads` says of a step which of the two it reads, and that it goes the same way whether they
are remembered or read anew, with the same result and the same session left, but that what it has
read is remembered after it.

There is one lemma for each function that reads settings or policies. Whether one that does not
always read them does is told by its arguments, the environment and the backend
(`Session.provisionReads`).
-/

namespace CommentSearch

/-! ### Snapshots -/

/-- Settings of queries and policies of indexing. -/
structure Snapshot where
  settings : Fields
  policies : Fields

/-- The session that remembers the settings of a snapshot, its policies, both or neither. -/
def Session.remember (s : Session) (k : Snapshot) (settings policies : Bool) : Session :=
  { s with
    settings := if settings then some k.settings else none
    policies := if policies then some k.policies else none }

/-- What is not remembered of a snapshot is what the environment and the files hold. -/
structure Snapshot.Fits (k : Snapshot) (s : Session) (settings policies : Bool) : Prop where
  settings : settings = false →
    k.settings = Settings.ofQueries s.platform.readYaml s.environment s.files
  policies : policies = false →
    k.policies = Settings.ofPolicies s.platform.readYaml s.environment s.files

section

variable {s : Session} {k : Snapshot} {settings policies : Bool}

theorem Snapshot.Fits.querySettings_eq (h : k.Fits s settings policies) :
    (s.remember k settings policies).querySettings = k.settings := by
  cases settings with
  | true => rfl
  | false => exact (h.settings rfl).symm

theorem Snapshot.Fits.metaPolicies_eq (h : k.Fits s settings policies) :
    (s.remember k settings policies).metaPolicies = k.policies := by
  cases policies with
  | true => rfl
  | false => exact (h.policies rfl).symm

/-- A session remembers of its settings and policies what it has read. -/
theorem Session.eq_remember (s : Session) :
    s = s.remember ⟨s.querySettings, s.metaPolicies⟩ s.settings.isSome s.policies.isSome := by
  obtain ⟨environment, files, platform, settings, policies, client, clientsMade, events,
    exchanges⟩ := s
  cases settings <;> cases policies <;> rfl

theorem Session.fits (s : Session) : Snapshot.Fits ⟨s.querySettings, s.metaPolicies⟩ s
    s.settings.isSome s.policies.isSome where
  settings hnone := by
    rw [Option.isSome_eq_false_iff, Option.isNone_iff_eq_none] at hnone
    rw [querySettings, hnone, Option.getD_none]
  policies hnone := by
    rw [Option.isSome_eq_false_iff, Option.isNone_iff_eq_none] at hnone
    rw [metaPolicies, hnone, Option.getD_none]

end

/-! ### Steps that read -/

namespace Work

/-- A step that reads settings, policies, both or neither: with a snapshot that fits it ends with a
result and a session that are the same whatever is remembered before, and after it is remembered
what was, or what it has read. The environment, the files and the platform stay as they are. -/
structure Reads {α : Type} (x : Work α) (s : Session) (k : Snapshot) (settings policies : Bool)
    (result : Except Fault α) (t : Session) : Prop where
  environment : t.environment = s.environment
  files : t.files = s.files
  platform : t.platform = s.platform
  run : ∀ a b, k.Fits s a b →
    x.run.run (s.remember k a b) = (result, t.remember k (a || settings) (b || policies))

variable {α β : Type} {x : Work α} {f : α → Work β} {s t u : Session} {k : Snapshot}
  {settings policies settings' policies' : Bool}

theorem Reads.bind {a : α} {result : Except Fault β} (h : x.Reads s k settings policies (.ok a) t)
    (h' : (f a).Reads t k settings' policies' result u) :
    (x >>= f).Reads s k (settings || settings') (policies || policies') result u where
  environment := h'.environment.trans h.environment
  files := h'.files.trans h.files
  platform := h'.platform.trans h.platform
  run a b hfits := by
    -- what the first step has not read is still to be read from the same environment and files
    have hfits' : k.Fits t (a || settings) (b || policies) := by
      refine ⟨fun ha => ?_, fun hb => ?_⟩
      · rw [hfits.settings (Bool.or_eq_false_iff.1 ha).1, h.environment, h.files, h.platform]
      · rw [hfits.policies (Bool.or_eq_false_iff.1 hb).1, h.environment, h.files, h.platform]
    rw [run_bind_of_ok (h.run a b hfits), h'.run _ _ hfits', Bool.or_assoc, Bool.or_assoc]

theorem Reads.bind_error {e : Fault} (h : x.Reads s k settings policies (.error e) t) :
    (x >>= f).Reads s k settings policies (.error e) t where
  environment := h.environment
  files := h.files
  platform := h.platform
  run a b hfits := by
    rw [ExceptT.run_bind, StateT.run_bind, h.run a b hfits]
    rfl

/-- After a step, whatever its result, comes one that reads nothing more. -/
theorem Reads.bind_silent {result : Except Fault α} (h : x.Reads s k settings policies result t)
    (h' : ∀ a, result = .ok a → ∃ result u, (f a).Reads t k false false result u) :
    ∃ result u, (x >>= f).Reads s k settings policies result u := by
  cases result with
  | error e => exact ⟨_, _, h.bind_error⟩
  | ok a =>
    obtain ⟨result, u, hnext⟩ := h' a rfl
    have hboth := h.bind hnext
    rw [Bool.or_false, Bool.or_false] at hboth
    exact ⟨result, u, hboth⟩

/-! ### Steps that do not read -/

/-- A step reads nothing if it does not depend on what is remembered, nor changes that. -/
theorem Reads.of_run {result : Except Fault α} (environment : t.environment = s.environment)
    (files : t.files = s.files) (platform : t.platform = s.platform)
    (run : ∀ a b, x.run.run (s.remember k a b) = (result, t.remember k a b)) :
    x.Reads s k false false result t :=
  ⟨environment, files, platform, fun a b _ => by rw [run, Bool.or_false, Bool.or_false]⟩

theorem reads_pure (a : α) (s : Session) (k : Snapshot) :
    (pure a : Work α).Reads s k false false (.ok a) s :=
  .of_run rfl rfl rfl fun _ _ => rfl

theorem reads_liftM (x : Except Fault α) (s : Session) (k : Snapshot) :
    (liftM x : Work α).Reads s k false false x s :=
  .of_run rfl rfl rfl fun a b => run_liftM x (s.remember k a b)

theorem reads_report (e : Event) (s : Session) (k : Snapshot) :
    (report e).Reads s k false false (.ok ()) { s with events := s.events ++ [e] } :=
  .of_run rfl rfl rfl fun _ _ => rfl

theorem reads_call (backend : Backend) (c : Call) (s : Session) (k : Snapshot) :
    (call backend c).Reads s k false false (.ok (backend s.exchanges c))
      { s with exchanges := s.exchanges ++ [⟨c, backend s.exchanges c⟩] } :=
  .of_run rfl rfl rfl fun _ _ => rfl

/-- What is done with a session reads what it reads for the session at hand, if it does not use what
the session remembers. -/
theorem Reads.get_bind {f : Session → Work β} {result : Except Fault β}
    (hsame : ∀ a b, f (s.remember k a b) = f s)
    (h : (f s).Reads s k settings policies result t) :
    ((get : Work Session) >>= f).Reads s k settings policies result t where
  environment := h.environment
  files := h.files
  platform := h.platform
  run a b hfits := by
    have hget : (get : Work Session).run.run (s.remember k a b) =
        (.ok (s.remember k a b), s.remember k a b) := rfl
    rw [run_bind_of_ok hget, hsame, h.run a b hfits]

theorem reads_throw (e : Fault) (s : Session) (k : Snapshot) :
    (throw e : Work α).Reads s k false false (.error e) s :=
  .of_run rfl rfl rfl fun _ _ => rfl

/-- Throwing a fault that tells the text of a refusal reads nothing. -/
theorem reads_refused (refusal : Refusal) (form : String → Fault) (s : Session) (k : Snapshot) :
    (do throw (form (← refusal.message)) : Work α).Reads s k false false
      (.error (refusal.faultAs form)) s := by
  unfold Refusal.faultAs
  cases refusal.message with
  | error e => exact (reads_liftM (.error e) s k).bind_error
  | ok text => exact (reads_liftM (.ok text) s k).bind (reads_throw _ s k)

/-! ### Settings and policies -/

theorem reads_querySettings (s : Session) (k : Snapshot) :
    Work.querySettings.Reads s k true false (.ok k.settings) s where
  environment := rfl
  files := rfl
  platform := rfl
  run a b hfits := by
    rw [run_querySettings, hfits.querySettings_eq, Bool.or_true, Bool.or_false]
    rfl

theorem reads_metaPolicies (s : Session) (k : Snapshot) :
    Work.metaPolicies.Reads s k false true (.ok k.policies) s where
  environment := rfl
  files := rfl
  platform := rfl
  run a b hfits := by
    rw [run_metaPolicies, hfits.metaPolicies_eq, Bool.or_true, Bool.or_false]
    rfl

theorem reads_metaPolicy (s : Session) (k : Snapshot) :
    Work.metaPolicy.Reads s k false true (.ok (.ofSettings k.policies)) s :=
  (reads_metaPolicies s k).bind (reads_pure _ s k)

/-! ### Compilation and preparation -/

theorem reads_compile (r : Request) (options : Fields → CompileOptions) (s : Session)
    (k : Snapshot) : ∃ result t, (compile r options).Reads s k true false result t := by
  unfold compile
  refine (reads_querySettings s k).bind_silent fun settings _ => ?_
  refine (reads_liftM _ s k).bind_silent fun compilation _ => ?_
  exact (reads_report _ s k).bind_silent fun _ _ => ⟨_, _, reads_pure _ _ k⟩

theorem reads_zone (s : Session) (k : Snapshot) :
    zone.Reads s k false false (.ok s.platform.zone) s :=
  .of_run rfl rfl rfl fun _ _ => rfl

theorem reads_prepare (comment post metadata : Param) (given : Option MetaPolicy) (s : Session)
    (k : Snapshot) :
    ∃ result t, (prepare comment post metadata given).Reads s k false given.isNone result t := by
  unfold prepare
  cases given
  case' some policy => refine (reads_pure policy s k).bind_silent fun policy _ => ?_
  case' none => refine (reads_metaPolicy s k).bind_silent fun policy _ => ?_
  all_goals
    refine (reads_zone s k).bind_silent fun zone _ => ?_
    refine (reads_liftM _ s k).bind_silent fun document _ => ?_
    cases document with
    | none => exact ⟨_, _, reads_pure none s k⟩
    | some document => exact (reads_report _ s k).bind_silent fun _ _ => ⟨_, _, reads_pure _ _ k⟩

end Work

/-! ### Provisioning -/

/-- The version and the distribution that are given, or that the backend tells if it does. -/
def Backend.tells? (backend : Backend) (options : ProvisionOptions) (history : List Exchange) :
    Option (String × String) :=
  if options.version.getD "" ≠ "" then
    some (options.version.getD "", options.distribution.getD "")
  else match backend history .info with
    | .ok body => some (versionNumber body, versionDistribution body)
    | .error _ => none

/-- Whether the mapping file is that of a version from the settings. -/
def MappingFile.reads (version distribution : String) : Bool :=
  (ofDistribution? distribution).isNone && (Version.told? version).isNone

namespace Session

/-- Whether a choice is left to the settings: it is not given, nor a variable of the environment. -/
def choiceReads (s : Session) (given : Option String) (name : String) : Bool :=
  (given.or (s.environment.lookup name)).isNone

/-- Whether a provisioning reads the settings: for the index, for the directory, or for a version to
choose the mapping file by. -/
def provisionReads (s : Session) (backend : Backend) (options : ProvisionOptions) : Bool :=
  s.choiceReads options.index "COMMENT_QUERY_INDEX" ||
    s.choiceReads options.mappingsDir "COMMENT_QUERY_MAPPINGS_DIR" ||
    match backend.tells? options s.exchanges with
    | some (version, distribution) => MappingFile.reads version distribution
    | none => false

/-- Whether there is a client, or one can be made. -/
def hasClient (s : Session) : Bool :=
  s.client.isSome ||
    (Client.make s.platform.connect s.clientsMade (.ofEnvironment s.environment)).isOk

end Session

namespace Work

variable (backend : Backend) (options : ProvisionOptions) (s : Session) (k : Snapshot)

theorem reads_chosen (given : Option String) (name setting default : String) :
    ∃ choice, (chosen given name setting default).Reads s k (s.choiceReads given name) false
      (.ok choice) s := by
  unfold chosen Session.choiceReads
  cases hgiven : given.or (s.environment.lookup name) with
  | some text =>
    refine ⟨text, .get_bind (fun _ _ => rfl) ?_⟩
    rw [hgiven]
    exact reads_pure text s k
  | none =>
    refine ⟨(Settings.text? k.settings setting).getD default, .get_bind (fun _ _ => rfl) ?_⟩
    rw [hgiven]
    exact (reads_querySettings s k).bind (reads_pure _ s k)

theorem reads_mappingFile (version distribution : String) :
    ∃ file, (mappingFile version distribution).Reads s k (MappingFile.reads version distribution)
      false (.ok file) s := by
  unfold mappingFile MappingFile.reads
  cases MappingFile.ofDistribution? distribution with
  | some file => exact ⟨file, reads_pure file s k⟩
  | none =>
    cases Version.told? version with
    | some version => exact ⟨_, reads_pure _ s k⟩
    | none => exact ⟨_, (reads_querySettings s k).bind (reads_pure _ s k)⟩

theorem reads_backendVersion : ∃ result t,
    (backendVersion backend options).Reads s k false false result t ∧
      result.toOption = backend.tells? options s.exchanges := by
  unfold backendVersion Backend.tells?
  dsimp only
  split
  · exact ⟨_, _, reads_pure _ s k, rfl⟩
  · have hcall := reads_call backend .info s k
    cases hreply : backend s.exchanges .info with
    | ok body =>
      rw [hreply] at hcall
      exact ⟨_, _, hcall.bind (reads_pure _ _ k), rfl⟩
    | error refusal =>
      rw [hreply] at hcall
      exact ⟨_, _, hcall.bind (reads_throw refusal.fault _ k), rfl⟩

theorem reads_indexExists (index : String) :
    ∃ result t, (indexExists backend index).Reads s k false false result t := by
  refine (reads_call backend (.exists index) s k).bind_silent fun reply _ => ?_
  rcases reply with refusal | (_ | found | _ | _ | _ | _)
  · exact ⟨_, _, reads_throw refusal.fault _ k⟩
  all_goals exact ⟨_, _, reads_pure _ _ k⟩

theorem reads_install (index version : String) (file : MappingFile) (body : Fields) :
    ∃ result t, (install backend index version file body).Reads s k false false result t := by
  obtain ⟨result, t, hexists⟩ := reads_indexExists backend s k index
  refine hexists.bind_silent fun found _ => ?_
  cases found with
  | true => exact (reads_report _ t k).bind_silent fun _ _ => ⟨_, _, reads_pure _ _ k⟩
  | false =>
    refine (reads_call backend (.create index body) t k).bind_silent fun reply _ => ?_
    cases reply with
    | ok v => exact (reads_report _ _ k).bind_silent fun _ _ => ⟨_, _, reads_pure _ _ k⟩
    | error refusal => exact ⟨_, _, reads_refused refusal _ _ k⟩

theorem reads_provision : ∃ result t,
    (provision backend options).Reads s k (s.provisionReads backend options) false result t := by
  obtain ⟨index, hindex⟩ :=
    reads_chosen s k options.index "COMMENT_QUERY_INDEX" "index.name" "comments"
  obtain ⟨dir, hdir⟩ := reads_chosen s k options.mappingsDir "COMMENT_QUERY_MAPPINGS_DIR"
    "mapping.dir" "config/mappings/comment"
  obtain ⟨told, t, hversion, htold⟩ := reads_backendVersion backend options s k
  rw [provision_eq]
  unfold Session.provisionReads
  rw [← htold, Bool.or_assoc]
  cases told with
  | error e => exact ⟨_, t, hindex.bind (hdir.bind hversion.bind_error)⟩
  | ok told =>
    obtain ⟨version, distribution⟩ := told
    obtain ⟨file, hfile⟩ := reads_mappingFile t k version distribution
    -- once the mapping file is chosen, nothing is read any more
    have hrest : ∃ result u, (do
        let file ← mappingFile version distribution
        let body ← loadMapping (← get).files file.name dir
        install backend index version file body : Work Provision).Reads t k
          (MappingFile.reads version distribution) false result u := by
      refine hfile.bind_silent fun file _ => ?_
      have hload : ∃ result u, (do
          let body ← loadMapping t.files file.name dir
          install backend index version file body : Work Provision).Reads t k false false
            result u :=
        (reads_liftM _ t k).bind_silent fun body _ => reads_install backend t k ..
      obtain ⟨result, u, hload⟩ := hload
      exact ⟨result, u, .get_bind (fun _ _ => rfl) hload⟩
    obtain ⟨result, u, hrest⟩ := hrest
    exact ⟨result, u, hindex.bind (hdir.bind (hversion.bind hrest))⟩

theorem reads_client : ∃ result t, Work.client.Reads s k false false result t ∧
    result.isOk = s.hasClient ∧ t.exchanges = s.exchanges := by
  unfold client Session.hasClient
  cases hclient : s.client with
  | some c =>
    refine ⟨.ok c, s, .get_bind (fun _ _ => rfl) ?_, rfl, rfl⟩
    rw [hclient]
    exact reads_pure c s k
  | none =>
    have hreport := reads_report (.clientInit (ClientOptions.ofEnvironment s.environment).node
      (ClientOptions.ofEnvironment s.environment).timeout
      (ClientOptions.ofEnvironment s.environment).rejectUnauthorized) s k
    generalize hevents : s.events ++ [_] = events at hreport
    have hmake := reads_liftM
      (Client.make s.platform.connect s.clientsMade (.ofEnvironment s.environment))
      { s with events := events } k
    cases hmade : Client.make s.platform.connect s.clientsMade (.ofEnvironment s.environment) with
    | error e =>
      rw [hmade] at hmake
      refine ⟨.error e, { s with events := events }, .get_bind (fun _ _ => rfl) ?_, rfl, rfl⟩
      rw [hclient] at hreport hmake ⊢
      dsimp only
      rw [hmade]
      exact hreport.bind hmake.bind_error
    | ok c =>
      rw [hmade] at hmake
      have hkeep (t : Session) : (modify fun s => { s with
          client := some c, clientsMade := s.clientsMade + 1 } : Work PUnit).Reads t k false false
            (.ok ⟨⟩) { t with client := some c, clientsMade := t.clientsMade + 1 } :=
        .of_run rfl rfl rfl fun _ _ => rfl
      refine ⟨.ok c, { s with
        events := events, client := some c, clientsMade := s.clientsMade + 1 },
        .get_bind (fun _ _ => rfl) ?_, rfl, rfl⟩
      rw [hclient]
      dsimp only
      rw [hmade]
      exact hreport.bind (hmake.bind ((hkeep _).bind (reads_pure c _ k)))

end Work

/-! ### Tools -/

/-- Whether a tool accepts arguments. -/
def Tool.takes (tool : Tool) (args : Param) : Bool := (tool.accept args).isOk

/-- Whether a call of the provisioning tool reads the settings. -/
def Session.provisionToolReads (s : Session) (backend : Backend) (args : Param) : Bool :=
  match Tool.putMapping.accept args with
  | .ok fields => s.hasClient && s.provisionReads backend (.ofFields fields)
  | .error _ => false

namespace Work

variable (args : Param) (s : Session) (k : Snapshot)

theorem reads_compileTool : ∃ result t,
    (compileTool args).Reads s k (Tool.compileQuery.takes args) false result t := by
  unfold compileTool Tool.takes
  cases haccept : Tool.compileQuery.accept args with
  | error e => exact ⟨_, _, (reads_liftM (.error e) s k).bind_error⟩
  | ok r =>
    obtain ⟨result, t, hcompile⟩ := reads_compile r (.ofSettings · s.platform.zone) s k
    obtain ⟨result, u, hreads⟩ := hcompile.bind_silent (f := fun compilation =>
      (pure compilation.compiled : Work Compiled)) fun _ _ => ⟨_, _, reads_pure _ t k⟩
    exact ⟨result, u, (reads_liftM (.ok r) s k).bind ((reads_zone s k).bind hreads)⟩

theorem reads_prepareTool : ∃ result t,
    (prepareTool args).Reads s k false (Tool.prepareDocument.takes args) result t := by
  unfold prepareTool Tool.takes
  cases haccept : Tool.prepareDocument.accept args with
  | error e => exact ⟨_, _, (reads_liftM (.error e) s k).bind_error⟩
  | ok fields =>
    obtain ⟨result, t, hprepare⟩ := reads_prepare (fields.get? "comment") (fields.get? "post")
      (some ((fields.get? "meta").getD (.object []))) none s k
    exact ⟨result, t, (reads_liftM (.ok fields) s k).bind hprepare⟩

theorem reads_provisionTool (backend : Backend) : ∃ result t, (provisionTool backend args).Reads s k
    (s.provisionToolReads backend args) false result t := by
  unfold provisionTool Session.provisionToolReads
  cases haccept : Tool.putMapping.accept args with
  | error e => exact ⟨_, _, (reads_liftM (.error e) s k).bind_error⟩
  | ok fields =>
    obtain ⟨made, t, hclient, hmade, hexchanges⟩ := reads_client s k
    cases made with
    | error e =>
      dsimp only
      rw [← hmade]
      exact ⟨_, t, (reads_liftM (.ok fields) s k).bind hclient.bind_error⟩
    | ok c =>
      obtain ⟨result, u, hprovision⟩ := reads_provision backend (.ofFields fields) t k
      -- making the client changes nothing that the choices depend on
      have hsame : t.provisionReads backend (.ofFields fields) =
          s.provisionReads backend (.ofFields fields) := by
        unfold Session.provisionReads Session.choiceReads
        rw [hclient.environment, hexchanges]
      rw [hsame] at hprovision
      dsimp only
      rw [← hmade]
      exact ⟨result, u, (reads_liftM (.ok fields) s k).bind (hclient.bind hprovision)⟩

end Work

end CommentSearch
