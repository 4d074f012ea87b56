import CommentSearch.Tool.Run

/-!
# Runs in a session

A computation in a session runs to a result, or a fault, and a session. Its steps run one after the
other (`run_bind_of_ok`), the settings that it reads are those of the session (`run_querySettings`),
and a call for the client goes one of three ways (`exists_clientCall`).
-/

namespace CommentSearch

/-- The settings that a session compiles with: those that it has read, or else those that its
environment and files hold. -/
def Session.querySettings (s : Session) : Fields :=
  s.settings.getD (Settings.ofQueries s.platform.readYaml s.environment s.files)

/-- The policies that a session indexes under: those that it has read, or else those that its
environment and files hold. -/
def Session.metaPolicies (s : Session) : Fields :=
  s.policies.getD (Settings.ofPolicies s.platform.readYaml s.environment s.files)

/-- The policy that a session indexes under, if none is given. -/
def Session.policy (s : Session) (given : Option MetaPolicy) : MetaPolicy :=
  given.getD (.ofSettings s.metaPolicies)

/-- What a call for the client ends with, and the session it leaves: the client that is kept, or one
that is made from the environment and kept, or a fault and no more than a report. -/
inductive Session.ClientCall (s : Session) : Except Fault Client → Session → Prop
  | kept {c : Client} (hclient : s.client = some c) : ClientCall s (.ok c) s
  | made {c : Client} (events : List Event) (hclient : s.client = none)
    (hmake : Client.make s.platform.connect s.clientsMade (.ofEnvironment s.environment) =
      .ok c) :
    ClientCall s (.ok c)
      { s with events := events, client := some c, clientsMade := s.clientsMade + 1 }
  | failed {e : Fault} (events : List Event) (hclient : s.client = none)
    (hmake : Client.make s.platform.connect s.clientsMade (.ofEnvironment s.environment) =
      .error e) :
    ClientCall s (.error e) { s with events := events }

namespace Work

/-- After a step with a result, the next step runs on that result in the session that is left. -/
theorem run_bind_of_ok {α β : Type} {x : Work α} {f : α → Work β} {s s' : Session} {a : α}
    (h : x.run.run s = (.ok a, s')) : (x >>= f).run.run s = (f a).run.run s' := by
  rw [ExceptT.run_bind, StateT.run_bind, h]
  rfl

theorem run_pure {α : Type} (a : α) (s : Session) : (pure a : Work α).run.run s = (.ok a, s) :=
  rfl

theorem run_liftM {α : Type} (x : Except Fault α) (s : Session) :
    (liftM x : Work α).run.run s = (x, s) :=
  rfl

theorem run_querySettings (s : Session) :
    Work.querySettings.run.run s =
      (.ok s.querySettings, { s with settings := s.querySettings }) := by
  unfold Work.querySettings Session.querySettings
  obtain ⟨environment, files, platform, settings, policies, client, clientsMade, events,
    exchanges⟩ := s
  cases settings with
  | none => rfl
  | some settings => rfl

theorem run_metaPolicies (s : Session) :
    Work.metaPolicies.run.run s = (.ok s.metaPolicies, { s with policies := s.metaPolicies }) := by
  unfold Work.metaPolicies Session.metaPolicies
  obtain ⟨environment, files, platform, settings, policies, client, clientsMade, events,
    exchanges⟩ := s
  cases policies with
  | none => rfl
  | some policies => rfl

theorem run_metaPolicy (s : Session) :
    Work.metaPolicy.run.run s = (.ok (s.policy none), { s with policies := s.metaPolicies }) := by
  unfold metaPolicy
  rw [run_bind_of_ok (run_metaPolicies s)]
  rfl

/-- A call ends with the client that is kept, if there is one. -/
theorem run_client_of_some {s : Session} {c : Client} (h : s.client = some c) :
    Work.client.run.run s = (.ok c, s) := by
  obtain ⟨environment, files, platform, settings, policies, client, clientsMade, events,
    exchanges⟩ := s
  cases h
  rfl

/-- A call for the client goes one of the three ways. -/
theorem exists_clientCall (s : Session) :
    ∃ result t, Work.client.run.run s = (result, t) ∧ s.ClientCall result t := by
  cases hclient : s.client with
  | some c => exact ⟨_, s, run_client_of_some hclient, .kept hclient⟩
  | none =>
    have hget : (get : Work Session).run.run s = (.ok s, s) := rfl
    have hreport (e : Event) :
        (report e).run.run s = (.ok (), { s with events := s.events ++ [e] }) := rfl
    unfold Work.client
    rw [run_bind_of_ok hget, hclient]
    dsimp only
    rw [run_bind_of_ok (hreport _)]
    cases hmake : Client.make s.platform.connect s.clientsMade (.ofEnvironment s.environment) with
    | error e => exact ⟨_, _, rfl, .failed _ hclient hmake⟩
    | ok c =>
      rw [run_bind_of_ok (run_liftM (.ok c) _)]
      exact ⟨_, _, rfl, .made _ hclient hmake⟩

/-- Without a client, a call ends as making one from the environment does. -/
theorem run_client_of_none {s : Session} (h : s.client = none) :
    (Work.client.run.run s).1 =
      Client.make s.platform.connect s.clientsMade (.ofEnvironment s.environment) := by
  obtain ⟨result, t, hrun, hcall⟩ := exists_clientCall s
  rw [hrun]
  cases hcall with
  | kept hclient => rw [h] at hclient; cases hclient
  | made events hclient hmake => exact hmake.symm
  | failed events hclient hmake => exact hmake.symm

theorem run_zone (s : Session) : zone.run.run s = (.ok s.platform.zone, s) := rfl

/-- The result of preparing a document in a session is the document under its policy. -/
theorem run_prepare (comment post metadata : Param) (given : Option MetaPolicy) (s : Session) :
    ((prepare comment post metadata given).run.run s).1 =
      Document.prepare s.platform.zone comment post metadata (s.policy given) := by
  unfold prepare
  cases given with
  | some policy =>
    dsimp only [Session.policy, Option.getD]
    rw [run_bind_of_ok (run_pure policy s), run_bind_of_ok (run_zone s)]
    rcases Document.prepare s.platform.zone comment post metadata policy with
      e | (_ | document) <;> rfl
  | none =>
    dsimp only
    rw [run_bind_of_ok (run_metaPolicy s), run_bind_of_ok (run_zone _)]
    rcases Document.prepare s.platform.zone comment post metadata (s.policy none) with
      e | (_ | document) <;> rfl

/-- The result of a compilation in a session is that of the request with its settings. -/
theorem run_compile (r : Request) (options : Fields → CompileOptions) (s : Session) :
    ((compile r options).run.run s).1 = r.compile (options s.querySettings) := by
  unfold compile
  rw [run_bind_of_ok (run_querySettings s)]
  cases r.compile (options s.querySettings) <;> rfl

/-- The compiling tool compiles the request that it accepts, in the time zone of the session. -/
theorem run_compileTool_eq_compile {args : Param} {r : Request}
    (h : Tool.compileQuery.accept args = .ok r) (s : Session) : (compileTool args).run.run s =
      (do return (← compile r (.ofSettings · s.platform.zone)).compiled :
        Work Compiled).run.run s := by
  unfold compileTool
  rw [h, run_bind_of_ok (run_liftM (.ok r) s), run_bind_of_ok (run_zone s)]

/-- The answer of the compiling tool is the request that it accepts, compiled with the settings and
in the time zone of the session. -/
theorem run_compileTool {args : Param} {r : Request} (h : Tool.compileQuery.accept args = .ok r)
    (s : Session) : ((compileTool args).run.run s).1 =
      (r.compile (.ofSettings s.querySettings s.platform.zone)).map (·.compiled) := by
  rw [run_compileTool_eq_compile h]
  unfold compile
  rw [ExceptT.run_bind, StateT.run_bind, run_bind_of_ok (run_querySettings s)]
  cases r.compile (.ofSettings s.querySettings s.platform.zone) <;> rfl

end Work

end CommentSearch
