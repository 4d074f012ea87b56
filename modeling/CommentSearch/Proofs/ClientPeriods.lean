import Mathlib.Data.List.Induction
import CommentSearch.Proofs.Outcome
import CommentSearch.Proofs.Session

/-!
# Periods of a client

A session makes a client of the backend when it is first asked for one, and keeps it until it is
dropped. Over any sequence of changes to the environment, calls for the client and drops, all calls
between two drops that succeed give one client, which is made from the environment at the first of
them; a call that fails leaves nothing behind (`client_is_singleton`).

What comes of a session by a step is told by `Session.Precedes`, where clients are told apart by
their numbers. How a connection is made is left to the platform of the session. Which calls fail is
told where making one fails for certain addresses and no others (`ConnectsExactlyTo`).
-/

namespace CommentSearch

/-! ### Connections -/

/-- Making a connection fails for the addresses that are none, and for no others. -/
def ConnectsExactlyTo (connect : Connector) (isAddress : String → Prop) : Prop :=
  ∀ options, (∃ e, connect options = .error e) ↔ ¬isAddress options.node

/-- A text is the URL of a place on the web, with no name or password that is the escaped form of no
text. -/
def Url.IsPlace (node : String) : Prop :=
  ∃ url own, read node = .ok url ∧ url.credentials? = .ok own ∧ url.isWeb = true

/-- Making a connection over the web fails by the address alone. -/
theorem connectsExactlyTo_overWeb : ConnectsExactlyTo Connection.overWeb Url.IsPlace := by
  intro options
  rw [← not_forall_not, not_iff_not]
  have hok : (∀ e, Connection.overWeb options ≠ .error e) ↔
      ∃ connection, Connection.overWeb options = .ok connection := by
    cases Connection.overWeb options <;> simp
  refine hok.trans ?_
  unfold Connection.overWeb Url.IsPlace
  constructor
  · rintro ⟨connection, hconnect⟩
    obtain ⟨url, hread, hconnect⟩ := bind_eq_ok_iff.1 hconnect
    obtain ⟨own, hown, hconnect⟩ := bind_eq_ok_iff.1 hconnect
    cases hweb : url.isWeb with
    | false =>
      rw [hweb] at hconnect
      cases hconnect
    | true => exact ⟨url, own, hread, hown, hweb⟩
  · rintro ⟨url, own, hread, hown, hweb⟩
    refine ⟨⟨url, own <|> options.credentials⟩, bind_eq_ok_iff.2 ⟨url, hread, bind_eq_ok_iff.2
      ⟨own, hown, ?_⟩⟩⟩
    rw [hweb]
    rfl

/-! ### Clients of an environment -/

/-- The address that the variables of an environment name. -/
def Environment.address (env : Environment) : String :=
  (env.nonEmpty? "OPENSEARCH_URL").getD "http://localhost:9200"

theorem Environment.nonEmpty?_eq_some_iff {env : Environment} {name text : String} :
    env.nonEmpty? name = some text ↔ env.lookup name = some text ∧ text ≠ "" := by
  rw [nonEmpty?, Option.filter_eq_some_iff, decide_eq_true_iff]

/-- The credentials of the environment are both of their variables, where these are not empty. -/
theorem Credentials.ofEnvironment?_eq_some_iff {env : Environment} {username password : String} :
    Credentials.ofEnvironment? env = some ⟨username, password⟩ ↔
      env.nonEmpty? "OPENSEARCH_USERNAME" = some username ∧
        env.nonEmpty? "OPENSEARCH_PASSWORD" = some password := by
  unfold ofEnvironment?
  cases env.nonEmpty? "OPENSEARCH_USERNAME" <;> cases env.nonEmpty? "OPENSEARCH_PASSWORD" <;> simp

namespace Client

/-- A client as the variables of an environment want it, with a connection for its options. -/
structure IsMadeFrom (c : Client) (connect : Connector) (env : Environment) : Prop where
  node : c.options.node = env.address
  timeout : c.options.timeout =
    ((env.lookup "COMMENT_QUERY_OS_CLIENT_TIMEOUT_MS").map Number.ofText).getD (.finite 10000)
  certificates : c.options.rejectUnauthorized = false ↔
    env.lookup "OPENSEARCH_SSL_REJECT_UNAUTHORIZED" = some "false"
  credentials : ∀ username password, c.options.credentials = some ⟨username, password⟩ ↔
    (env.lookup "OPENSEARCH_USERNAME" = some username ∧ username ≠ "") ∧
      env.lookup "OPENSEARCH_PASSWORD" = some password ∧ password ≠ ""
  connected : connect c.options = .ok c.connection

theorem make_eq_ok_iff {connect : Connector} {n : Nat} {options : ClientOptions} {c : Client} :
    make connect n options = .ok c ↔
      c.serial = n ∧ c.options = options ∧ connect options = .ok c.connection := by
  obtain ⟨serial, made, connection⟩ := c
  unfold make
  rw [bind_eq_ok_iff]
  constructor
  · rintro ⟨connection, hconnect, hmake⟩
    cases hmake
    exact ⟨rfl, rfl, hconnect⟩
  · rintro ⟨hserial, hoptions, hconnect⟩
    dsimp only at hserial hoptions hconnect
    subst hserial hoptions
    exact ⟨connection, hconnect, rfl⟩

theorem exists_make_eq_error_iff {connect : Connector} {n : Nat} {options : ClientOptions} :
    (∃ e, make connect n options = .error e) ↔ ∃ e, connect options = .error e := by
  unfold make
  cases connect options <;> simp [bind, Except.bind, pure, Except.pure]

/-- A client that is made from an environment is as the environment wants it. -/
theorem isMadeFrom_of_make {connect : Connector} {n : Nat} {env : Environment} {c : Client}
    (h : make connect n (.ofEnvironment env) = .ok c) : c.IsMadeFrom connect env := by
  obtain ⟨-, hoptions, hconnect⟩ := make_eq_ok_iff.1 h
  refine ⟨?_, ?_, ?_, fun username password => ?_, hoptions ▸ hconnect⟩
  · rw [hoptions]
    rfl
  · rw [hoptions]
    unfold ClientOptions.ofEnvironment
    cases env.lookup "COMMENT_QUERY_OS_CLIENT_TIMEOUT_MS" <;> rfl
  · rw [hoptions]
    exact bne_eq_false_iff_eq
  · rw [hoptions, ← Environment.nonEmpty?_eq_some_iff,
      ← Environment.nonEmpty?_eq_some_iff]
    exact Credentials.ofEnvironment?_eq_some_iff

/-- A client is given credentials where both variables for them are not empty. -/
theorem IsMadeFrom.isSome_credentials_iff {c : Client} {connect : Connector} {env : Environment}
    (h : c.IsMadeFrom connect env) : c.options.credentials.isSome ↔
      (env.nonEmpty? "OPENSEARCH_USERNAME").isSome ∧
        (env.nonEmpty? "OPENSEARCH_PASSWORD").isSome := by
  rw [Option.isSome_iff_exists, Option.isSome_iff_exists, Option.isSome_iff_exists]
  constructor
  · rintro ⟨⟨username, password⟩, hcredentials⟩
    obtain ⟨husername, hpassword⟩ := (h.credentials username password).1 hcredentials
    exact ⟨⟨username, Environment.nonEmpty?_eq_some_iff.2 husername⟩,
      password, Environment.nonEmpty?_eq_some_iff.2 hpassword⟩
  · rintro ⟨⟨username, husername⟩, password, hpassword⟩
    exact ⟨_, (h.credentials username password).2
      ⟨Environment.nonEmpty?_eq_some_iff.1 husername,
        Environment.nonEmpty?_eq_some_iff.1 hpassword⟩⟩

end Client

/-! ### Steps -/

/-- A change to the environment, a call for the client, or its drop. -/
inductive ClientStep where
  | setVariable (name value : String)
  | unsetVariable (name : String)
  | obtain
  | drop

/-- The session after a step. -/
def ClientStep.after : ClientStep → Session → Session
  | setVariable name value, s => ((Work.setVariable name value).run.run s).2
  | unsetVariable name, s => ((Work.unsetVariable name).run.run s).2
  | obtain, s => (Work.client.run.run s).2
  | drop, s => (Work.dropClient.run.run s).2

namespace Session

/-- The session after several steps. -/
def afterClientSteps (s : Session) (steps : List ClientStep) : Session :=
  steps.foldl (fun s step => step.after s) s

/-- What a call for the client ends with after several steps. -/
def clientAfter (s : Session) (steps : List ClientStep) : Except Fault Client :=
  (Work.client.run.run (s.afterClientSteps steps)).1

/-- Since the last drop no call has succeeded. -/
def Clientless (s : Session) (steps : List ClientStep) : Prop :=
  ∀ before later c, steps = before ++ ClientStep.obtain :: later → .drop ∉ later →
    s.clientAfter before ≠ .ok c

theorem afterClientSteps_append (s : Session) (steps later : List ClientStep) :
    s.afterClientSteps (steps ++ later) = (s.afterClientSteps steps).afterClientSteps later :=
  List.foldl_append

theorem afterClientSteps_concat (s : Session) (steps : List ClientStep) (step : ClientStep) :
    s.afterClientSteps (steps ++ [step]) = step.after (s.afterClientSteps steps) :=
  s.afterClientSteps_append steps [step]

variable {s t u : Session} {c : Client} {steps : List ClientStep}

theorem environment_after_obtain (s : Session) :
    (ClientStep.obtain.after s).environment = s.environment := by
  obtain ⟨result, t, hrun, hcall⟩ := Work.exists_clientCall s
  change (Work.client.run.run s).2.environment = _
  rw [hrun]
  cases hcall <;> rfl

/-- The platform stays the same over any steps. -/
theorem platform_afterClientSteps (s : Session) (steps : List ClientStep) :
    (s.afterClientSteps steps).platform = s.platform := by
  induction steps generalizing s with
  | nil => rfl
  | cons step steps ih =>
    refine (ih (step.after s)).trans ?_
    cases step with
    | setVariable | unsetVariable | drop => rfl
    | obtain =>
      obtain ⟨result, t, hrun, hcall⟩ := Work.exists_clientCall s
      change (Work.client.run.run s).2.platform = _
      rw [hrun]
      cases hcall <;> rfl

/-- A client is kept after a call if and only if the call ends with it. -/
theorem client_after_obtain_iff :
    (ClientStep.obtain.after s).client = some c ↔ (Work.client.run.run s).1 = .ok c := by
  obtain ⟨result, t, hrun, hcall⟩ := Work.exists_clientCall s
  change (Work.client.run.run s).2.client = some c ↔ _
  rw [hrun]
  cases hcall with
  | kept hclient => simp [hclient]
  | made events hclient hmake => simp
  | failed events hclient hmake => simp [hclient]

theorem clientAfter_eq_ok_iff :
    s.clientAfter steps = .ok c ↔
      (s.afterClientSteps (steps ++ [ClientStep.obtain])).client = some c := by
  rw [s.afterClientSteps_concat, client_after_obtain_iff]
  rfl

/-! ### What comes of a session -/

/-- A session goes on to be another: clients are counted on, and the client that is kept in the end
is the same one or has a number that was not given before. -/
structure Precedes (s t : Session) : Prop where
  clientsMade : s.clientsMade ≤ t.clientsMade
  client : ∀ c, t.client = some c →
    s.client = some c ∨ s.clientsMade ≤ c.serial ∧ c.serial < t.clientsMade

theorem Precedes.of_same (hmade : t.clientsMade = s.clientsMade) (hclient : t.client = s.client) :
    s.Precedes t where
  clientsMade := Nat.le_of_eq hmade.symm
  client _ hc := .inl (hclient ▸ hc)

theorem Precedes.trans (h : s.Precedes t) (h' : t.Precedes u) : s.Precedes u where
  clientsMade := Nat.le_trans h.clientsMade h'.clientsMade
  client c hc := by
    have hmade := h.clientsMade
    have hmade' := h'.clientsMade
    rcases h'.client c hc with ht | hnew
    · rcases h.client c ht with hs | hnew
      · exact .inl hs
      · exact .inr (by omega)
    · exact .inr (by omega)

theorem precedes_after (step : ClientStep) (s : Session) : s.Precedes (step.after s) := by
  cases step with
  | setVariable | unsetVariable => exact .of_same rfl rfl
  | drop => exact ⟨Nat.le_refl _, fun _ hc => by cases hc⟩
  | obtain =>
    obtain ⟨result, t, hrun, hcall⟩ := Work.exists_clientCall s
    change s.Precedes (Work.client.run.run s).2
    rw [hrun]
    cases hcall with
    | kept | failed => exact .of_same rfl rfl
    | made events hclient hmake =>
      have hserial := (Client.make_eq_ok_iff.1 hmake).1
      refine ⟨Nat.le_succ _, fun c hc => .inr ?_⟩
      cases hc
      change _ ∧ _ < s.clientsMade + 1
      omega

theorem precedes_afterClientSteps (s : Session) (steps : List ClientStep) :
    s.Precedes (s.afterClientSteps steps) := by
  induction steps generalizing s with
  | nil => exact .of_same rfl rfl
  | cons step steps ih => exact (precedes_after step s).trans (ih (step.after s))

/-! ### Periods -/

/-- A client that is kept stays so until it is dropped. -/
theorem client_afterClientSteps_of_kept (h : s.client = some c) (hkept : .drop ∉ steps) :
    (s.afterClientSteps steps).client = some c := by
  induction steps generalizing s with
  | nil => exact h
  | cons step steps ih =>
    rw [List.mem_cons, not_or] at hkept
    refine ih ?_ hkept.2
    cases step with
    | setVariable | unsetVariable => exact h
    | drop => exact absurd rfl hkept.1
    | obtain => exact client_after_obtain_iff.2 (by rw [Work.run_client_of_some h])

/-- After a drop no client is one that was made before. -/
theorem client_afterClientSteps_ne_of_drop (hc : c.serial < s.clientsMade)
    (hdrop : .drop ∈ steps) : (s.afterClientSteps steps).client ≠ some c := by
  obtain ⟨before, later, rfl⟩ := List.append_of_mem hdrop
  -- from the drop on, the numbers of the clients that were made before are not given again
  have hbefore := s.precedes_afterClientSteps before
  have hlater := precedes_afterClientSteps (ClientStep.drop.after (s.afterClientSteps before)) later
  rw [s.afterClientSteps_append]
  intro hkept
  rcases hlater.client c hkept with hnone | ⟨hle, -⟩
  · cases hnone
  · have hmade : s.clientsMade ≤ c.serial := Nat.le_trans hbefore.clientsMade hle
    omega

/-- The client that is kept after some steps is made in the first call since the last drop that
succeeded. -/
theorem exists_first_of_client (hs : s.client = none)
    (h : (s.afterClientSteps steps).client = some c) :
    ∃ first later, steps = first ++ ClientStep.obtain :: later ∧ .drop ∉ later ∧
      (s.afterClientSteps first).client = none ∧ s.clientAfter first = .ok c ∧
        c.IsMadeFrom s.platform.connect (s.afterClientSteps first).environment := by
  -- from the end, where no drop comes after the call that made the client
  induction steps using List.reverseRecOn with
  | nil =>
    change s.client = some c at h
    rw [hs] at h
    cases h
  | append_singleton steps step ih =>
    rw [s.afterClientSteps_concat] at h
    have hearlier (hkept : (s.afterClientSteps steps).client = some c) (hstep : step ≠ .drop) :
        ∃ first later, steps ++ [step] = first ++ ClientStep.obtain :: later ∧ .drop ∉ later ∧
          (s.afterClientSteps first).client = none ∧ s.clientAfter first = .ok c ∧
            c.IsMadeFrom s.platform.connect (s.afterClientSteps first).environment := by
      obtain ⟨first, later, rfl, hdrop, hfirst⟩ := ih hkept
      refine ⟨first, later ++ [step], by rw [List.append_assoc, List.cons_append], ?_, hfirst⟩
      simp [hdrop, hstep.symm]
    cases step with
    | setVariable | unsetVariable => exact hearlier h nofun
    | drop => cases h
    | obtain =>
      cases hclient : (s.afterClientSteps steps).client with
      | some kept =>
        rw [client_after_obtain_iff, Work.run_client_of_some hclient] at h
        cases h
        exact hearlier hclient nofun
      | none =>
        rw [client_after_obtain_iff] at h
        have hmake := (Work.run_client_of_none hclient).symm.trans h
        rw [s.platform_afterClientSteps] at hmake
        exact ⟨steps, [], rfl, List.not_mem_nil, hclient, h, Client.isMadeFrom_of_make hmake⟩

/-- Without a call that has succeeded since the last drop there is no client. -/
theorem clientless_iff (hs : s.client = none) :
    s.Clientless steps ↔ (s.afterClientSteps steps).client = none := by
  constructor
  · intro hclientless
    cases hclient : (s.afterClientSteps steps).client with
    | none => rfl
    | some c =>
      obtain ⟨first, later, hsplit, hdrop, -, hfirst, -⟩ := exists_first_of_client hs hclient
      exact absurd hfirst (hclientless first later c hsplit hdrop)
  · rintro hnone first later c rfl hdrop hfirst
    have hkept := client_afterClientSteps_of_kept (clientAfter_eq_ok_iff.1 hfirst) hdrop
    rw [← s.afterClientSteps_append, List.append_assoc, List.singleton_append, hnone] at hkept
    cases hkept

/-- A client of one call is that of a later call if and only if it is not dropped in between. -/
theorem clientAfter_eq_iff_of_earlier (hs : s.client = none) {before later : List ClientStep}
    (h : s.clientAfter before = .ok c) :
    s.clientAfter (before ++ ClientStep.obtain :: later) = .ok c ↔ .drop ∉ later := by
  have hkept := clientAfter_eq_ok_iff.1 h
  have hsplit : before ++ ClientStep.obtain :: later ++ [ClientStep.obtain] =
      before ++ [ClientStep.obtain] ++ (later ++ [ClientStep.obtain]) := by simp
  rw [clientAfter_eq_ok_iff, hsplit, s.afterClientSteps_append]
  constructor
  · intro hlater hdrop
    -- a session without a client numbers the ones that it makes
    have hbefore := s.precedes_afterClientSteps (before ++ [ClientStep.obtain])
    rcases hbefore.client c hkept with hnone | ⟨-, hlt⟩
    · rw [hs] at hnone
      cases hnone
    · exact client_afterClientSteps_ne_of_drop hlt (List.mem_append_left _ hdrop) hlater
  · intro hdrop
    exact client_afterClientSteps_of_kept hkept (by simp [hdrop])

end Session

/-- Without a call that has succeeded since the last drop, a call makes a client. -/
theorem Session.clientAfter_eq_make {s : Session} (hs : s.client = none) {steps : List ClientStep}
    (h : s.Clientless steps) : s.clientAfter steps =
      Client.make s.platform.connect (s.afterClientSteps steps).clientsMade
        (.ofEnvironment (s.afterClientSteps steps).environment) := by
  rw [← s.platform_afterClientSteps steps]
  exact Work.run_client_of_none ((clientless_iff hs).1 h)

/-- Where connections fail by the address, a call fails if none has succeeded since the last drop
and the address is none. -/
theorem Session.exists_clientAfter_eq_error_iff {s : Session} (hs : s.client = none)
    (steps : List ClientStep) {isAddress : String → Prop}
    (hconnects : ConnectsExactlyTo s.platform.connect isAddress) :
    (∃ e, s.clientAfter steps = .error e) ↔
      s.Clientless steps ∧ ¬isAddress (s.afterClientSteps steps).environment.address := by
  cases hclient : (s.afterClientSteps steps).client with
  | some c =>
    have hkept : s.clientAfter steps = .ok c :=
      congrArg Prod.fst (Work.run_client_of_some hclient)
    refine iff_of_false (by simp [hkept]) fun h => ?_
    rw [(clientless_iff hs).1 h.1] at hclient
    cases hclient
  | none =>
    have hclientless := (clientless_iff hs).2 hclient
    rw [and_iff_right hclientless, clientAfter_eq_make hs hclientless,
      Client.exists_make_eq_error_iff]
    exact hconnects _

/-- From a session without a client, over any steps: while no call has succeeded since the last
drop, a call makes a client from the environment as it is, and if it fails it leaves no client; once
a call has succeeded, a later call ends with the same client if and only if it has not been dropped
since; and every client comes from the environment at the first call since the last drop that
succeeded, with credentials if both variables for them were not empty then. Where connections fail
exactly for what is no address, so do the calls that make a client. -/
theorem client_is_singleton {s : Session} (hs : s.client = none) (steps : List ClientStep) :
    (s.Clientless steps → s.clientAfter steps =
      Client.make s.platform.connect (s.afterClientSteps steps).clientsMade
        (.ofEnvironment (s.afterClientSteps steps).environment)) ∧
    (∀ isAddress, ConnectsExactlyTo s.platform.connect isAddress →
      ((∃ e, s.clientAfter steps = .error e) ↔
        s.Clientless steps ∧ ¬isAddress (s.afterClientSteps steps).environment.address)) ∧
    (∀ e, s.clientAfter steps = .error e → s.Clientless (steps ++ [ClientStep.obtain])) ∧
    (∀ before later c, steps = before ++ ClientStep.obtain :: later → s.clientAfter before = .ok c →
      (s.clientAfter steps = .ok c ↔ .drop ∉ later)) ∧
    ∀ c, s.clientAfter steps = .ok c → ∃ first later,
      steps ++ [ClientStep.obtain] = first ++ ClientStep.obtain :: later ∧ .drop ∉ later ∧
      s.Clientless first ∧
      c.IsMadeFrom s.platform.connect (s.afterClientSteps first).environment ∧
      (c.options.credentials.isSome ↔
        ((s.afterClientSteps first).environment.nonEmpty? "OPENSEARCH_USERNAME").isSome ∧
        ((s.afterClientSteps first).environment.nonEmpty? "OPENSEARCH_PASSWORD").isSome) := by
  refine ⟨Session.clientAfter_eq_make hs, fun isAddress => ?_, fun e herror => ?_, ?_,
    fun c hc => ?_⟩
  · exact Session.exists_clientAfter_eq_error_iff hs steps
  · rw [Session.clientless_iff hs, Option.eq_none_iff_forall_ne_some]
    intro c hc
    rw [← Session.clientAfter_eq_ok_iff, herror] at hc
    cases hc
  · rintro before later c rfl hbefore
    exact Session.clientAfter_eq_iff_of_earlier hs hbefore
  · obtain ⟨first, later, hsplit, hdrop, hnone, -, hmade⟩ :=
      Session.exists_first_of_client hs (Session.clientAfter_eq_ok_iff.1 hc)
    exact ⟨first, later, hsplit, hdrop, (Session.clientless_iff hs).2 hnone, hmade,
      hmade.isSome_credentials_iff⟩

/-- After a call that fails, one for a changed address succeeds. Its client keeps the password that
was there, also when the variable has gone, and is not that of a call after a drop. -/
theorem client_is_singleton_changedAddress :
    let connection : Connection :=
      ⟨{ scheme := "http", host := "search.local", socket := some 9200, path := "/" },
        some ⟨"reader", "secret"⟩⟩
    let connect : Connector := fun options =>
      if options.node = "http://search.local:9200" then .ok connection else .error .invalidUrl
    let isAddress : String → Prop := fun node => node = "http://search.local:9200"
    let s : Session := {
      environment := [("OPENSEARCH_USERNAME", "reader"), ("OPENSEARCH_PASSWORD", "secret")]
      platform := { connect := connect } }
    let failing : List ClientStep := [.setVariable "OPENSEARCH_URL" "not a url"]
    let making : List ClientStep := failing ++ [ClientStep.obtain] ++
      [ClientStep.setVariable "OPENSEARCH_URL" "http://search.local:9200"]
    s.client = none ∧ ConnectsExactlyTo s.platform.connect isAddress ∧
      (∃ e, s.clientAfter failing = .error e) ∧ ∃ c, s.clientAfter making = .ok c ∧
        c.options.credentials = some ⟨"reader", "secret"⟩ ∧
        s.clientAfter (making ++ [ClientStep.obtain, .unsetVariable "OPENSEARCH_PASSWORD"]) =
          .ok c ∧
        s.clientAfter (making ++ [ClientStep.obtain, .drop]) ≠ .ok c := by
  intro connection connect isAddress s failing making
  have hs : s.client = none := rfl
  have hconnects : ConnectsExactlyTo s.platform.connect isAddress := by
    intro options
    by_cases haddress : options.node = "http://search.local:9200"
    · exact iff_of_false (fun ⟨e, he⟩ => by cases (if_pos haddress).symm.trans he)
        (not_not_intro haddress)
    · exact iff_of_true ⟨_, if_neg haddress⟩ haddress
  have hfailing : ∃ e, s.clientAfter failing = .error e :=
    ((client_is_singleton hs failing).2.1 isAddress hconnects).2
      ⟨(Session.clientless_iff hs).2 rfl, (by decide : "not a url" ≠ "http://search.local:9200")⟩
  have hclientless : s.Clientless making := by
    have hset (name value : String) (t : Session) :
        ((ClientStep.setVariable name value).after t).client = t.client := rfl
    obtain ⟨e, he⟩ := hfailing
    have hafter := (client_is_singleton hs failing).2.2.1 e he
    rw [Session.clientless_iff hs] at hafter ⊢
    rw [s.afterClientSteps_concat, hset]
    exact hafter
  have henvironment : (s.afterClientSteps making).environment =
      ("OPENSEARCH_URL", "http://search.local:9200") :: s.environment := by
    have hobtain := Session.environment_after_obtain (s.afterClientSteps failing)
    rw [s.afterClientSteps_concat, s.afterClientSteps_concat]
    change _ :: List.filter _ (ClientStep.obtain.after (s.afterClientSteps failing)).environment = _
    rw [hobtain]
    rfl
  have hc := (client_is_singleton hs making).1 hclientless
  rw [henvironment] at hc
  refine ⟨hs, hconnects, hfailing, _, hc, rfl, ?_, ?_⟩
  · exact ((client_is_singleton hs _).2.2.2.1 _ _ _ rfl hc).2 (by simp)
  · exact fun hkept => ((client_is_singleton hs _).2.2.2.1 _ _ _ rfl hc).1 hkept (by simp)

end CommentSearch
