import CommentSearch.Proofs.Session
import CommentSearch.Tool.Run

/-!
# Runs of the provisioning tool

`Provisions` lists the ways in which the provisioning of an index can go: which exchanges with the
backend it makes, and how it ends. The tool goes one of these ways, unless it rejects its arguments
or cannot make a client, where it calls no backend at all (`runs_provisionTool`).

A step runs with some exchanges (`Work.Runs`) if it adds these to the session and leaves what the
session reads from, its environment, its files, its platform and its settings, as they are.
-/

namespace CommentSearch

/-! ### Steps that exchange -/

/-- A session becomes another by exchanges with the backend: what it reads from stays as it is. -/
structure Session.Grows (s : Session) (made : List Exchange) (s' : Session) : Prop where
  environment : s'.environment = s.environment
  files : s'.files = s.files
  platform : s'.platform = s.platform
  querySettings : s'.querySettings = s.querySettings
  exchanges : s'.exchanges = s.exchanges ++ made

namespace Session.Grows

variable {s s' s'' : Session} {made more : List Exchange}

theorem refl (s : Session) : s.Grows [] s := ⟨rfl, rfl, rfl, rfl, (List.append_nil _).symm⟩

theorem trans (h : s.Grows made s') (h' : s'.Grows more s'') : s.Grows (made ++ more) s'' where
  environment := h'.environment.trans h.environment
  files := h'.files.trans h.files
  platform := h'.platform.trans h.platform
  querySettings := h'.querySettings.trans h.querySettings
  exchanges := by rw [h'.exchanges, h.exchanges, List.append_assoc]

/-- A step that exchanges nothing adds nothing to what was exchanged before. -/
theorem silent (h : s.Grows made s') (h' : s'.Grows [] s'') : s.Grows made s'' := by
  have htrans := h.trans h'
  rwa [List.append_nil] at htrans

end Session.Grows

namespace Work

variable {α β : Type} {x : Work α} {f : α → Work β} {s : Session} {made more : List Exchange}

/-- A step ends with a result, or a fault, after some exchanges. -/
def Runs (x : Work α) (s : Session) (made : List Exchange) (result : Except Fault α) : Prop :=
  ∃ s', x.run.run s = (result, s') ∧ s.Grows made s'

theorem Runs.bind {a : α} {result : Except Fault β} (h : x.Runs s made (.ok a))
    (h' : ∀ s', s.Grows made s' → (f a).Runs s' more result) :
    (x >>= f).Runs s (made ++ more) result := by
  obtain ⟨s', hrun, hgrows⟩ := h
  obtain ⟨s'', hrun', hgrows'⟩ := h' s' hgrows
  exact ⟨s'', (run_bind_of_ok hrun).trans hrun', hgrows.trans hgrows'⟩

theorem Runs.bind_error {e : Fault} (h : x.Runs s made (.error e)) :
    (x >>= f).Runs s made (.error e) := by
  obtain ⟨s', hrun, hgrows⟩ := h
  refine ⟨s', ?_, hgrows⟩
  rw [ExceptT.run_bind, StateT.run_bind, hrun]
  rfl

theorem runs_pure (a : α) (s : Session) : (pure a : Work α).Runs s [] (.ok a) :=
  ⟨s, rfl, .refl s⟩

theorem runs_throw (e : Fault) (s : Session) : (throw e : Work α).Runs s [] (.error e) :=
  ⟨s, rfl, .refl s⟩

theorem runs_liftM (x : Except Fault α) (s : Session) : (liftM x : Work α).Runs s [] x :=
  ⟨s, rfl, .refl s⟩

theorem Runs.liftM_bind {a : α} {result : Except Fault β} (h : (f a).Runs s made result) :
    ((liftM (.ok a : Except Fault α) : Work α) >>= f).Runs s made result := by
  obtain ⟨s', hrun, hgrows⟩ := h
  exact ⟨s', (run_bind_of_ok (run_liftM (.ok a) s)).trans hrun, hgrows⟩

theorem runs_get (s : Session) : (get : Work Session).Runs s [] (.ok s) :=
  ⟨s, rfl, .refl s⟩

theorem runs_report (e : Event) (s : Session) : (report e).Runs s [] (.ok ()) :=
  ⟨_, rfl, rfl, rfl, rfl, rfl, (List.append_nil _).symm⟩

theorem runs_querySettings (s : Session) : Work.querySettings.Runs s [] (.ok s.querySettings) :=
  ⟨_, run_querySettings s, rfl, rfl, rfl, rfl, (List.append_nil _).symm⟩

theorem runs_call (backend : Backend) (c : Call) (s : Session) :
    (call backend c).Runs s [⟨c, backend s.exchanges c⟩] (.ok (backend s.exchanges c)) :=
  ⟨_, rfl, rfl, rfl, rfl, rfl, rfl⟩

/-- Making a client exchanges nothing. Where there is none yet, the outcome is that of making it
from the environment. -/
theorem runs_client (s : Session) : Work.client.Runs s []
    (match s.client with
      | some c => .ok c
      | none => Client.make s.platform.connect s.clientsMade (.ofEnvironment s.environment)) := by
  obtain ⟨result, t, hrun, hcall⟩ := exists_clientCall s
  refine ⟨t, ?_, ?_⟩
  · rw [hrun]
    cases hcall with
    | kept hclient => rw [hclient]
    | made events hclient hmake => rw [hclient, hmake]
    | failed events hclient hmake => rw [hclient, hmake]
  · cases hcall <;> exact ⟨rfl, rfl, rfl, rfl, (List.append_nil _).symm⟩

end Work

/-! ### What a session selects -/

namespace Session

/-- What is given, or else a variable of the environment, or else a setting. -/
def chosen (s : Session) (given : Option String) (name setting default : String) : String :=
  (given.or (s.environment.lookup name)).getD
    ((Settings.text? s.querySettings setting).getD default)

/-- The index to provision. -/
def indexName (s : Session) (options : ProvisionOptions) : String :=
  s.chosen options.index "COMMENT_QUERY_INDEX" "index.name" "comments"

/-- The directory of the mapping files. -/
def mappingsDir (s : Session) (options : ProvisionOptions) : String :=
  s.chosen options.mappingsDir "COMMENT_QUERY_MAPPINGS_DIR" "mapping.dir" "config/mappings/comment"

/-- The mapping file of a version of a distribution. -/
def mappingFile (s : Session) (version distribution : String) : MappingFile :=
  (MappingFile.ofDistribution? distribution).getD <| .ofVersion <|
    (Version.told? version).getD <|
      (Settings.text? s.querySettings "mapping.fallback_version").getD "2.0"

/-- The mapping for a version of a distribution. -/
def mapping (s : Session) (options : ProvisionOptions) (version distribution : String) :
    Except Fault Fields :=
  loadMapping s.files (s.mappingFile version distribution).name (s.mappingsDir options)

variable {s s' : Session} {made : List Exchange}

theorem Grows.mappingFile_eq (h : s.Grows made s') (version distribution : String) :
    s'.mappingFile version distribution = s.mappingFile version distribution := by
  unfold mappingFile
  rw [h.querySettings]

theorem Grows.chosen_eq (h : s.Grows made s') (given : Option String)
    (name setting default : String) :
    s'.chosen given name setting default = s.chosen given name setting default := by
  unfold chosen
  rw [h.environment, h.querySettings]

end Session

/-- The fault that tells the text of a refusal in some form, if it has one. -/
def Refusal.faultAs (refusal : Refusal) (form : String → Fault) : Fault :=
  match refusal.message with
  | .ok text => form text
  | .error e => e

/-! ### The ways of provisioning -/

/-- The version and the distribution that are given, or that the backend tells, with the exchanges
that it takes to know them. -/
inductive TellsVersion (backend : Backend) (s : Session) (options : ProvisionOptions) :
    List Exchange → String → String → Prop
  | given (versioned : options.version.getD "" ≠ "") :
    TellsVersion backend s options [] (options.version.getD "") (options.distribution.getD "")
  | told {body : Value} (unversioned : options.version.getD "" = "")
    (reply : backend s.exchanges .info = .ok body) :
    TellsVersion backend s options [⟨.info, .ok body⟩] (versionNumber body)
      (versionDistribution body)

/-- The ways in which provisioning an index goes: the exchanges that it makes, and how it ends. -/
inductive Provisions (backend : Backend) (s : Session) (options : ProvisionOptions) :
    List Exchange → Except Fault Provision → Prop
  | versionRefused {refusal : Refusal} (unversioned : options.version.getD "" = "")
    (reply : backend s.exchanges .info = .error refusal) :
    Provisions backend s options [⟨.info, .error refusal⟩] (.error refusal.fault)
  | noMapping {told : List Exchange} {version distribution : String} {e : Fault}
    (tells : TellsVersion backend s options told version distribution)
    (unread : s.mapping options version distribution = .error e) :
    Provisions backend s options told (.error e)
  | existsRefused {told : List Exchange} {version distribution : String} {body : Fields}
    {refusal : Refusal} (tells : TellsVersion backend s options told version distribution)
    (read : s.mapping options version distribution = .ok body)
    (reply : backend (s.exchanges ++ told) (.exists (s.indexName options)) = .error refusal) :
    Provisions backend s options
      (told ++ [⟨.exists (s.indexName options), .error refusal⟩])
      (.error refusal.fault)
  | skipped {told : List Exchange} {version distribution : String} {body : Fields}
    (tells : TellsVersion backend s options told version distribution)
    (read : s.mapping options version distribution = .ok body)
    (found : backend (s.exchanges ++ told) (.exists (s.indexName options)) = .ok (.bool true)) :
    Provisions backend s options
      (told ++ [⟨.exists (s.indexName options), .ok (.bool true)⟩])
      (.ok ⟨s.indexName options, version, s.mappingFile version distribution, false⟩)
  | created {told : List Exchange} {version distribution : String} {body : Fields}
    {answer v : Value} (tells : TellsVersion backend s options told version distribution)
    (read : s.mapping options version distribution = .ok body)
    (asked : backend (s.exchanges ++ told) (.exists (s.indexName options)) = .ok answer)
    (missing : answer ≠ .bool true)
    (reply : backend (s.exchanges ++ told ++ [⟨.exists (s.indexName options), .ok answer⟩])
      (.create (s.indexName options) body) = .ok v) :
    Provisions backend s options
      (told ++ [⟨.exists (s.indexName options), .ok answer⟩,
        ⟨.create (s.indexName options) body, .ok v⟩])
      (.ok ⟨s.indexName options, version, s.mappingFile version distribution, true⟩)
  | createRefused {told : List Exchange} {version distribution : String} {body : Fields}
    {answer : Value} {refusal : Refusal}
    (tells : TellsVersion backend s options told version distribution)
    (read : s.mapping options version distribution = .ok body)
    (asked : backend (s.exchanges ++ told) (.exists (s.indexName options)) = .ok answer)
    (missing : answer ≠ .bool true)
    (reply : backend (s.exchanges ++ told ++ [⟨.exists (s.indexName options), .ok answer⟩])
      (.create (s.indexName options) body) = .error refusal) :
    Provisions backend s options
      (told ++ [⟨.exists (s.indexName options), .ok answer⟩,
        ⟨.create (s.indexName options) body, .error refusal⟩])
      (.error (refusal.faultAs
        (.createFailed (s.indexName options) (s.mappingFile version distribution).name)))

namespace Work

variable (backend : Backend) (options : ProvisionOptions) (s : Session)

theorem runs_chosen (given : Option String) (name setting default : String) :
    (chosen given name setting default).Runs s [] (.ok (s.chosen given name setting default)) := by
  unfold chosen Session.chosen
  refine (runs_get s).bind fun s' hs' => ?_
  cases given.or (s.environment.lookup name) with
  | some text => exact runs_pure text s'
  | none =>
    rw [← hs'.querySettings]
    exact (runs_querySettings s').bind fun s'' _ => runs_pure _ s''

theorem runs_mappingFile (version distribution : String) :
    (mappingFile version distribution).Runs s [] (.ok (s.mappingFile version distribution)) := by
  unfold mappingFile Session.mappingFile
  cases MappingFile.ofDistribution? distribution with
  | some file => exact runs_pure file s
  | none =>
    cases Version.told? version with
    | some version => exact runs_pure _ s
    | none => exact (runs_querySettings s).bind fun s' _ => runs_pure _ s'

/-- A refusal ends a step with a fault that tells its text. -/
theorem runs_refused {α : Type} (refusal : Refusal) (form : String → Fault) :
    (do throw (form (← refusal.message)) : Work α).Runs s [] (.error (refusal.faultAs form)) := by
  unfold Refusal.faultAs
  cases refusal.message with
  | error e => exact (runs_liftM (.error e) s).bind_error
  | ok text => exact (runs_liftM (.ok text) s).bind fun s' _ => runs_throw (form text) s'

/-- Version and distribution are known, unless the backend refuses to tell them. -/
theorem runs_backendVersion :
    (∃ told version distribution, TellsVersion backend s options told version distribution ∧
      ∀ s', s.Grows [] s' →
        (backendVersion backend options).Runs s' told (.ok (version, distribution))) ∨
    ∃ refusal, options.version.getD "" = "" ∧ backend s.exchanges .info = .error refusal ∧
      ∀ s', s.Grows [] s' → (backendVersion backend options).Runs s' [⟨.info, .error refusal⟩]
        (.error refusal.fault) := by
  unfold backendVersion
  dsimp only
  by_cases hversion : options.version.getD "" = ""
  · rw [if_neg fun hne => hne hversion]
    have hcall (s' : Session) (h : s.Grows [] s') : (call backend .info).Runs s'
        [⟨.info, backend s.exchanges .info⟩] (.ok (backend s.exchanges .info)) := by
      have hcall := runs_call backend .info s'
      rwa [h.exchanges, List.append_nil] at hcall
    cases hreply : backend s.exchanges .info with
    | ok body =>
      rw [hreply] at hcall
      exact .inl ⟨_, _, _, .told hversion hreply,
        fun s' h => (hcall s' h).bind fun s'' _ => runs_pure _ s''⟩
    | error refusal =>
      rw [hreply] at hcall
      exact .inr ⟨refusal, hversion, rfl,
        fun s' h => (hcall s' h).bind fun s'' _ => runs_throw refusal.fault s''⟩
  · rw [if_pos hversion]
    exact .inl ⟨_, _, _, .given hversion, fun s' _ => runs_pure _ s'⟩

theorem runs_indexExists_of_ok {index : String} {answer : Value}
    (h : backend s.exchanges (.exists index) = .ok answer) :
    ∃ found, (found = true ↔ answer = .bool true) ∧
      (indexExists backend index).Runs s [⟨.exists index, .ok answer⟩] (.ok found) := by
  have hcall := runs_call backend (.exists index) s
  rw [h] at hcall
  unfold indexExists
  cases answer with
  | bool found => exact ⟨found, by simp, hcall.bind fun s' _ => runs_pure found s'⟩
  | null | number | text | list | object =>
    exact ⟨false, by simp, hcall.bind fun s' _ => runs_pure false s'⟩

theorem runs_indexExists_of_error {index : String} {refusal : Refusal}
    (h : backend s.exchanges (.exists index) = .error refusal) :
    (indexExists backend index).Runs s [⟨.exists index, .error refusal⟩]
      (.error refusal.fault) := by
  have hcall := runs_call backend (.exists index) s
  rw [h] at hcall
  exact hcall.bind fun s' _ => runs_throw refusal.fault s'

variable {backend options s} {s' : Session} {told made : List Exchange}
  {version distribution : String} {body : Fields}

theorem runs_loadMapping (hgrows : s.Grows told s') (s'' : Session) :
    (liftM (loadMapping s'.files (s.mappingFile version distribution).name
      (s.mappingsDir options)) : Work Fields).Runs s'' []
        (s.mapping options version distribution) := by
  rw [hgrows.files]
  exact runs_liftM _ s''

/-- Where the mapping can be read, a step goes on with it. -/
theorem runs_with_mapping {α : Type} {next : MappingFile → Fields → Work α}
    {result : Except Fault α} (hgrows : s.Grows told s')
    (hread : s.mapping options version distribution = .ok body)
    (hnext : ∀ s'', s.Grows told s'' →
      (next (s.mappingFile version distribution) body).Runs s'' made result) :
    (do
      let file ← mappingFile version distribution
      let body ← loadMapping (← get).files file.name (s.mappingsDir options)
      next file body : Work α).Runs s' made result := by
  have hfile := runs_mappingFile s' version distribution
  rw [hgrows.mappingFile_eq] at hfile
  refine hfile.bind fun s₁ h₁ => (runs_get s₁).bind fun s₂ h₂ => ?_
  have hload := hread ▸ runs_loadMapping (hgrows.silent h₁) s₂
  exact hload.bind fun s₃ h₃ => hnext s₃ (((hgrows.silent h₁).silent h₂).silent h₃)

theorem runs_without_mapping {α : Type} {next : MappingFile → Fields → Work α} {e : Fault}
    (hgrows : s.Grows told s') (hunread : s.mapping options version distribution = .error e) :
    (do
      let file ← mappingFile version distribution
      let body ← loadMapping (← get).files file.name (s.mappingsDir options)
      next file body : Work α).Runs s' [] (.error e) := by
  have hfile := runs_mappingFile s' version distribution
  rw [hgrows.mappingFile_eq] at hfile
  refine hfile.bind fun s₁ h₁ => (runs_get s₁).bind fun s₂ _ => Runs.bind_error ?_
  exact hunread ▸ runs_loadMapping (hgrows.silent h₁) s₂

/-- What provisioning does once the mapping is read: it creates the index, unless it is there. -/
def install (backend : Backend) (index version : String) (file : MappingFile) (body : Fields) :
    Work Provision := do
  if ← indexExists backend index then
    report (.mappingSkipped index version file.name)
    return ⟨index, version, file, false⟩
  match ← call backend (.create index body) with
  | .ok _ =>
    report (.mappingCreated index version file.name)
    return ⟨index, version, file, true⟩
  | .error refusal => throw (.createFailed index file.name (← refusal.message))

theorem provision_eq (backend : Backend) (options : ProvisionOptions) :
    provision backend options = (do
      let index ← chosen options.index "COMMENT_QUERY_INDEX" "index.name" "comments"
      let dir ← chosen options.mappingsDir "COMMENT_QUERY_MAPPINGS_DIR" "mapping.dir"
        "config/mappings/comment"
      let (version, distribution) ← backendVersion backend options
      let file ← mappingFile version distribution
      let body ← loadMapping (← get).files file.name dir
      install backend index version file body) :=
  rfl

section

variable {index : String} {file : MappingFile}

theorem runs_install_of_refused {refusal : Refusal}
    (hasked : backend s.exchanges (.exists index) = .error refusal) :
    (install backend index version file body).Runs s [⟨.exists index, .error refusal⟩]
      (.error refusal.fault) :=
  (runs_indexExists_of_error backend s hasked).bind_error

theorem runs_install_of_found
    (hasked : backend s.exchanges (.exists index) = .ok (.bool true)) :
    (install backend index version file body).Runs s [⟨.exists index, .ok (.bool true)⟩]
      (.ok ⟨index, version, file, false⟩) := by
  obtain ⟨found, hfound, hexists⟩ := runs_indexExists_of_ok backend s hasked
  rw [hfound.2 rfl] at hexists
  exact hexists.bind fun s₁ _ => (runs_report _ s₁).bind fun s₂ _ => runs_pure _ s₂

/-- An index that is missing is created, which is reported, or its creation is refused. -/
theorem runs_install_of_missing {answer : Value} {reply : Reply}
    (hasked : backend s.exchanges (.exists index) = .ok answer) (hmissing : answer ≠ .bool true)
    (hreply : backend (s.exchanges ++ [⟨.exists index, .ok answer⟩]) (.create index body) = reply) :
    (install backend index version file body).Runs s
      [⟨.exists index, .ok answer⟩, ⟨.create index body, reply⟩]
      (match reply with
        | .ok _ => .ok ⟨index, version, file, true⟩
        | .error refusal => .error (refusal.faultAs (.createFailed index file.name))) := by
  obtain ⟨found, hfound, hexists⟩ := runs_indexExists_of_ok backend s hasked
  rw [Bool.eq_false_iff.2 (mt hfound.1 hmissing)] at hexists
  refine hexists.bind fun s₁ h₁ => ?_
  have hcreate := runs_call backend (.create index body) s₁
  rw [h₁.exchanges, hreply] at hcreate
  rw [← List.append_nil [_]]
  refine hcreate.bind fun s₂ _ => ?_
  cases reply with
  | ok v => exact (runs_report _ s₂).bind fun s₃ _ => runs_pure _ s₃
  | error refusal => exact runs_refused s₂ refusal _

end

/-- Once the version is known, provisioning goes on in one of the ways. -/
theorem runs_provision_of_tells
    (htells : TellsVersion backend s options told version distribution) :
    ∃ made result, Provisions backend s options (told ++ made) result ∧
      ∀ s', s.Grows told s' → (do
        let file ← mappingFile version distribution
        let body ← loadMapping (← get).files file.name (s.mappingsDir options)
        install backend (s.indexName options) version file body : Work Provision).Runs
          s' made result := by
  cases hmapping : s.mapping options version distribution with
  | error e =>
    refine ⟨[], .error e, ?_, fun s' hgrows => runs_without_mapping hgrows hmapping⟩
    rw [List.append_nil]
    exact .noMapping htells hmapping
  | ok body =>
    cases hasked : backend (s.exchanges ++ told) (.exists (s.indexName options)) with
    | error refusal =>
      exact ⟨_, _, .existsRefused htells hmapping hasked, fun s' hgrows =>
        runs_with_mapping hgrows hmapping fun s₁ h₁ =>
          runs_install_of_refused (h₁.exchanges ▸ hasked)⟩
    | ok answer =>
      by_cases hfound : answer = .bool true
      · subst hfound
        exact ⟨_, _, .skipped htells hmapping hasked, fun s' hgrows =>
          runs_with_mapping hgrows hmapping fun s₁ h₁ =>
            runs_install_of_found (h₁.exchanges ▸ hasked)⟩
      · cases hreply : backend
            (s.exchanges ++ told ++ [⟨.exists (s.indexName options), .ok answer⟩])
            (.create (s.indexName options) body) with
        | ok v =>
          exact ⟨_, _, .created htells hmapping hasked hfound hreply, fun s' hgrows =>
            runs_with_mapping hgrows hmapping fun s₁ h₁ =>
              runs_install_of_missing (h₁.exchanges ▸ hasked) hfound (h₁.exchanges ▸ hreply)⟩
        | error refusal =>
          exact ⟨_, _, .createRefused htells hmapping hasked hfound hreply, fun s' hgrows =>
            runs_with_mapping hgrows hmapping fun s₁ h₁ =>
              runs_install_of_missing (h₁.exchanges ▸ hasked) hfound (h₁.exchanges ▸ hreply)⟩

/-- Every provisioning goes one of the ways. -/
theorem runs_provision (backend : Backend) (options : ProvisionOptions) (s : Session) :
    ∃ made result, Provisions backend s options made result ∧
      ∀ s', s.Grows [] s' → (provision backend options).Runs s' made result := by
  have hchosen (s₁ : Session) (h₁ : s.Grows [] s₁) (given : Option String)
      (name setting default : String) : (chosen given name setting default).Runs s₁ []
        (.ok (s.chosen given name setting default)) :=
    h₁.chosen_eq given name setting default ▸ runs_chosen s₁ given name setting default
  rw [provision_eq]
  -- the index and the directory come first, and are chosen without a call
  rcases runs_backendVersion backend options s with
    ⟨told, version, distribution, htells, htold⟩ | ⟨refusal, hversion, hreply, hrefused⟩
  · obtain ⟨made, result, hprovisions, hruns⟩ := runs_provision_of_tells htells
    refine ⟨told ++ made, result, hprovisions, fun s₁ h₁ => ?_⟩
    refine (hchosen s₁ h₁ ..).bind fun s₂ h₂ => (hchosen s₂ (h₁.silent h₂) ..).bind fun s₃ h₃ => ?_
    have hgrows := (h₁.silent h₂).silent h₃
    exact (htold s₃ hgrows).bind fun s₄ h₄ => hruns s₄ (hgrows.trans h₄)
  · refine ⟨_, _, .versionRefused hversion hreply, fun s₁ h₁ => ?_⟩
    refine (hchosen s₁ h₁ ..).bind fun s₂ h₂ => (hchosen s₂ (h₁.silent h₂) ..).bind fun s₃ h₃ => ?_
    exact (hrefused s₃ ((h₁.silent h₂).silent h₃)).bind_error

end Work

/-- The options that accepted arguments are. -/
def ProvisionOptions.ofFields (fields : Fields) : ProvisionOptions where
  index := (fields.get? "index").bind Value.text?
  version := (fields.get? "version").bind Value.text?
  distribution := (fields.get? "distribution").bind Value.text?

/-- The tool provisions as its arguments say, unless it cannot make a client, where it makes no
exchange. -/
theorem Work.runs_provisionTool {args : Param} {fields : Fields}
    (h : Tool.putMapping.accept args = .ok fields) (backend : Backend) (s : Session) :
    ∃ made result, (provisionTool backend args).Runs s made result ∧
      (made = [] ∧ (∃ e, result = .error e ∧ s.client = none ∧
          Client.make s.platform.connect s.clientsMade (.ofEnvironment s.environment) =
            .error e) ∨
        Provisions backend s (.ofFields fields) made result) := by
  unfold provisionTool
  rw [h]
  obtain ⟨made, result, hprovisions, hruns⟩ := runs_provision backend (.ofFields fields) s
  have hclient := runs_client s
  cases hmade : s.client with
  | some c =>
    rw [hmade] at hclient
    exact ⟨made, result, .liftM_bind (hclient.bind hruns), .inr hprovisions⟩
  | none =>
    rw [hmade] at hclient
    dsimp only at hclient
    cases hmake : Client.make s.platform.connect s.clientsMade
        (.ofEnvironment s.environment) with
    | error e =>
      rw [hmake] at hclient
      exact ⟨[], .error e, .liftM_bind hclient.bind_error, .inl ⟨rfl, e, rfl, rfl, rfl⟩⟩
    | ok c =>
      rw [hmake] at hclient
      exact ⟨made, result, .liftM_bind (hclient.bind hruns), .inr hprovisions⟩

/-- A tool that rejects its arguments does nothing. -/
theorem Work.run_provisionTool_of_rejected {args : Param} {e : Fault}
    (h : Tool.putMapping.accept args = .error e) (backend : Backend) (s : Session) :
    (provisionTool backend args).run.run s = (.error e, s) := by
  unfold provisionTool
  rw [h]
  rfl

end CommentSearch
