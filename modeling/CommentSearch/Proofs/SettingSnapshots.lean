import Mathlib.Data.List.Induction
import CommentSearch.Proofs.Fields
import CommentSearch.Proofs.SessionSteps

/-!
# Snapshots of settings

A session reads its settings of queries, and its policies of indexing, once: over any sequence of
changes to the environment and the files and of computations that read them, every read gives what
there was at the first read since they were last dropped (`settings_are_snapshots`). The two are
read apart from each other, and dropped together.
-/

namespace CommentSearch

namespace Store

/-! ### Sequences of steps -/

/-- What is remembered once stays so until it is dropped. -/
theorem remembered_of_kept (store : Store) {s : Session} {v : Fields} {steps : List Step}
    (h : store.remembered s = some v) (hkept : Step.dropSettings ∉ steps) :
    store.remembered (s.afterAll steps) = some v := by
  induction steps generalizing s with
  | nil => exact h
  | cons step steps ih =>
    simp only [List.mem_cons, not_or] at hkept
    refine ih ?_ hkept.2
    rw [store.remembered_after (Ne.symm hkept.1), current, h, Option.getD_some, ite_self]

/-- After all reads among some steps comes a drop. -/
def Unread (store : Store) (s : Session) (steps : List Step) : Prop :=
  ∀ before step later, steps = before ++ step :: later →
    store.isReadIn step (s.afterAll before) = true → Step.dropSettings ∈ later

/-- The world at the first read since the last drop, or the present world if nothing was read
since. -/
inductive Moment (store : Store) (s : Session) (steps : List Step) : World → Prop
  | first {before later : List Step} {step : Step} (split : steps = before ++ step :: later)
    (unread : store.Unread s before) (reads : store.isReadIn step (s.afterAll before) = true)
    (kept : Step.dropSettings ∉ later) : Moment store s steps (s.afterAll before).world
  | present (unread : store.Unread s steps) : Moment store s steps (s.afterAll steps).world

variable {store : Store} {s : Session} {steps : List Step} {w : World}

/-- A read among some steps and one more is the last of them, or one of those before. -/
theorem split_concat {before later : List Step} {last step : Step}
    (h : steps ++ [last] = before ++ step :: later) :
    (steps = before ∧ last = step ∧ later = []) ∨
      ∃ rest, later = rest ++ [last] ∧ steps = before ++ step :: rest := by
  rcases List.eq_nil_or_concat later with rfl | ⟨rest, other, rfl⟩
  · obtain ⟨hsteps, hlast⟩ := List.append_inj' h rfl
    exact .inl ⟨hsteps, List.singleton_inj.1 hlast, rfl⟩
  · rw [List.concat_eq_append, ← List.cons_append, ← List.append_assoc] at h
    obtain ⟨hsteps, hlast⟩ := List.append_inj' h rfl
    rw [List.concat_eq_append, List.singleton_inj.1 hlast]
    exact .inr ⟨rest, rfl, hsteps⟩

theorem unread_concat_iff {step : Step} (hstep : step ≠ .dropSettings) :
    store.Unread s (steps ++ [step]) ↔
      store.Unread s steps ∧ store.isReadIn step (s.afterAll steps) = false := by
  constructor
  · intro h
    refine ⟨fun before read later hsplit hreads => ?_, Bool.eq_false_iff.2 fun hreads => ?_⟩
    · have hmem := h before read (later ++ [step]) (by rw [hsplit]; simp) hreads
      simpa [hstep.symm] using hmem
    · exact List.not_mem_nil (h steps step [] rfl hreads)
  · rintro ⟨hunread, hstep⟩ before read later hsplit hreads
    rcases split_concat hsplit with ⟨rfl, rfl, -⟩ | ⟨rest, rfl, hsteps⟩
    · rw [hstep] at hreads
      cases hreads
    · exact List.mem_append_left _ (hunread before read rest hsteps hreads)

theorem unread_concat_drop (store : Store) (s : Session) (steps : List Step) :
    store.Unread s (steps ++ [.dropSettings]) := by
  intro before read later hsplit hreads
  rcases split_concat hsplit with ⟨-, rfl, -⟩ | ⟨rest, rfl, -⟩
  · cases hreads
  · exact List.mem_append_right _ List.mem_cons_self

/-- Without a read since the last drop nothing is remembered. -/
theorem remembered_of_unread (hs : store.remembered s = none) (h : store.Unread s steps) :
    store.remembered (s.afterAll steps) = none := by
  -- from the end, where no drop comes after the step that might read
  induction steps using List.reverseRecOn with
  | nil => exact hs
  | append_singleton steps step ih =>
    rw [s.afterAll_concat]
    by_cases hstep : step = .dropSettings
    · rw [hstep, store.remembered_after_drop]
    · obtain ⟨hunread, hreads⟩ := (unread_concat_iff hstep).1 h
      rw [store.remembered_after hstep, hreads, if_neg Bool.false_ne_true]
      exact ih hunread

/-- What is read after some steps is what the world held at their moment. -/
theorem current_of_moment (hs : store.remembered s = none) (h : store.Moment s steps w) :
    store.current (s.afterAll steps) = store.hold w := by
  cases h with
  | present unread => rw [current, remembered_of_unread hs unread, Option.getD_none]
  | first split unread reads kept =>
    rename_i before later step
    have hstep : step ≠ .dropSettings := by
      rintro rfl
      cases reads
    have hcurrent : store.current (s.afterAll before) = store.hold (s.afterAll before).world := by
      rw [current, remembered_of_unread hs unread, Option.getD_none]
    have hread : store.remembered (step.after (s.afterAll before)) =
        some (store.hold (s.afterAll before).world) := by
      rw [store.remembered_after hstep, if_pos reads, hcurrent]
    have hlater : s.afterAll steps = (step.after (s.afterAll before)).afterAll later := by
      rw [split, s.afterAll_append]
      rfl
    rw [current, hlater, store.remembered_of_kept hread kept, Option.getD_some]

theorem Moment.concat {step : Step} (h : store.Moment s steps w) (hstep : step ≠ .dropSettings) :
    ∃ w, store.Moment s (steps ++ [step]) w := by
  cases h with
  | first split unread reads kept =>
    -- what was read first since the last drop stays the first
    refine ⟨_, .first (by rw [split, List.append_assoc, List.cons_append]) unread reads ?_⟩
    simpa [hstep.symm] using kept
  | present unread =>
    cases hreads : store.isReadIn step (s.afterAll steps) with
    | true => exact ⟨_, .first rfl unread hreads List.not_mem_nil⟩
    | false => exact ⟨_, .present ((unread_concat_iff hstep).2 ⟨unread, hreads⟩)⟩

/-- Steps have a moment. -/
theorem exists_moment (store : Store) (s : Session) (steps : List Step) :
    ∃ w, store.Moment s steps w := by
  induction steps using List.reverseRecOn with
  | nil => exact ⟨_, .present fun before step later hsplit => by simp at hsplit⟩
  | append_singleton steps step ih =>
    by_cases hstep : step = .dropSettings
    · -- after a drop, what was read before does not count
      exact ⟨_, .present (hstep ▸ store.unread_concat_drop s steps)⟩
    · obtain ⟨w, hw⟩ := ih
      exact hw.concat hstep

end Store

/-! ### Variables of the settings of queries -/

/-- The variables that say where the settings of queries are and what overrides them. -/
def isQueryVariable (name : String) : Bool :=
  name = "COMMENT_QUERY_CONFIG_PATH" ||
    "COMMENT_QUERY_OVERRIDES_".toList.isPrefixOf name.toList

/-- Whether a step sets or removes such a variable. -/
def Step.isOfQueryVariable : Step → Bool
  | setVariable name _ | unsetVariable name => isQueryVariable name
  | _ => false

/-- Two sessions that have read the same policies, or will. -/
structure Session.SharesPolicies (s s' : Session) : Prop where
  files : s.files = s'.files
  readYaml : s.platform.readYaml = s'.platform.readYaml
  path : s.environment.lookup "COMMENT_QUERY_META_POLICIES_PATH" =
    s'.environment.lookup "COMMENT_QUERY_META_POLICIES_PATH"
  policies : s.policies = s'.policies

namespace Session.SharesPolicies

variable {s s' : Session}

theorem current_eq (h : s.SharesPolicies s') :
    Store.policies.current s = Store.policies.current s' := by
  have hhold : Store.policies.hold s.world = Store.policies.hold s'.world := by
    change Settings.ofPolicies s.platform.readYaml s.environment s.files =
      Settings.ofPolicies s'.platform.readYaml s'.environment s'.files
    unfold Settings.ofPolicies Environment.nonEmpty?
    rw [h.files, h.readYaml, h.path]
  have hremembered : Store.policies.remembered s = Store.policies.remembered s' := h.policies
  rw [Store.current, Store.current, hremembered, hhold]

/-- The same step keeps it so that two sessions share their policies. -/
theorem after (h : s.SharesPolicies s') (step : Step) :
    (step.after s).SharesPolicies (step.after s') := by
  cases step with
  | setVariable name value =>
    refine ⟨h.files, h.readYaml, ?_, h.policies⟩
    change List.lookup _ ((name, value) :: s.environment.filter fun entry => entry.1 != name) =
      List.lookup _ ((name, value) :: s'.environment.filter fun entry => entry.1 != name)
    rw [List.lookup_cons, List.lookup_cons, lookup_filter_ne, lookup_filter_ne, h.path]
  | unsetVariable name =>
    refine ⟨h.files, h.readYaml, ?_, h.policies⟩
    change List.lookup _ (s.environment.filter fun entry => entry.1 != name) =
      List.lookup _ (s'.environment.filter fun entry => entry.1 != name)
    rw [lookup_filter_ne, lookup_filter_ne, h.path]
  | writeFile path text =>
    exact ⟨congrArg (·.write path text) h.files, h.readYaml, h.path, h.policies⟩
  | removeFile path => exact ⟨congrArg (·.remove path) h.files, h.readYaml, h.path, h.policies⟩
  | dropSettings => exact ⟨h.files, h.readYaml, h.path, rfl⟩
  | read r =>
    obtain ⟨hworld, hremembered⟩ := Store.policies.remembered_read r s
    obtain ⟨hworld', hremembered'⟩ := Store.policies.remembered_read r s'
    have hreads : Store.policies.isReadBy r s = Store.policies.isReadBy r s' := by
      cases r <;> rfl
    have hfiles {t : Session} (ht : ((Step.read r).after t).world = t.world) :
        ((Step.read r).after t).files = t.files := congrArg World.files ht
    have hreadYaml {t : Session} (ht : ((Step.read r).after t).world = t.world) :
        ((Step.read r).after t).platform.readYaml = t.platform.readYaml :=
      congrArg World.readYaml ht
    have henvironment {t : Session} (ht : ((Step.read r).after t).world = t.world) :
        ((Step.read r).after t).environment = t.environment := congrArg World.environment ht
    refine ⟨?_, ?_, ?_, ?_⟩
    · rw [hfiles hworld, hfiles hworld', h.files]
    · rw [hreadYaml hworld, hreadYaml hworld', h.readYaml]
    · rw [henvironment hworld, henvironment hworld', h.path]
    · change Store.policies.remembered _ = Store.policies.remembered _
      have hpolicies : Store.policies.remembered s = Store.policies.remembered s' := h.policies
      rw [hremembered, hremembered', hreads, h.current_eq, hpolicies]

/-- A variable of the settings of queries makes no difference. -/
theorem after_left (h : s.SharesPolicies s') {step : Step} (hstep : step.isOfQueryVariable = true) :
    (step.after s).SharesPolicies s' := by
  have hne {name : String} (hname : isQueryVariable name = true) :
      "COMMENT_QUERY_META_POLICIES_PATH" ≠ name := by
    rintro rfl
    exact absurd hname (by decide)
  cases step with
  | setVariable name value =>
    refine ⟨h.files, h.readYaml, ?_, h.policies⟩
    change List.lookup _ ((name, value) :: s.environment.filter fun entry => entry.1 != name) = _
    rw [List.lookup_cons, lookup_filter_ne, if_neg (hne hstep), h.path, beq_false_of_ne (hne hstep)]
  | unsetVariable name =>
    refine ⟨h.files, h.readYaml, ?_, h.policies⟩
    change List.lookup _ (s.environment.filter fun entry => entry.1 != name) = _
    rw [lookup_filter_ne, if_neg (hne hstep), h.path]
  | _ => cases hstep

theorem afterAll (h : s.SharesPolicies s') (steps : List Step) : (s.afterAll steps).SharesPolicies
    (s'.afterAll (steps.filter fun step => !step.isOfQueryVariable)) := by
  induction steps generalizing s s' with
  | nil => exact h
  | cons step steps ih =>
    cases hstep : step.isOfQueryVariable with
    | true =>
      rw [List.filter_cons_of_neg (by simp [hstep])]
      exact ih (h.after_left hstep)
    | false =>
      rw [List.filter_cons_of_pos (by simp [hstep])]
      exact ih (h.after step)

end Session.SharesPolicies

/-! ### Snapshots -/

/-- Where what a session reads is remembered in full, a computation does the same as in the session
itself: it has the same result, and what it leaves differs in what is remembered only. -/
theorem Reader.run_remember (r : Reader) (s : Session) :
    let full := s.remember ⟨Store.settings.current s, Store.policies.current s⟩ true true
    (r.run.run.run full).1 = (r.run.run.run s).1 ∧
      (r.run.run.run full).2 = (r.run.run.run s).2.remember
        ⟨Store.settings.current s, Store.policies.current s⟩ true true := by
  intro full
  obtain ⟨result, t, hreads⟩ := r.reads s ⟨s.querySettings, s.metaPolicies⟩
  have hrun := hreads.run _ _ s.fits
  rw [← s.eq_remember] at hrun
  have hfull :
      r.run.run.run full = (result, t.remember ⟨s.querySettings, s.metaPolicies⟩ true true) :=
    hreads.run true true ⟨nofun, nofun⟩
  rw [hrun, hfull]
  exact ⟨rfl, rfl⟩

/-- From a session that has read nothing, over any steps, every read gives what the world held at
the first read since the last drop, and every computation does what it does if just that is
remembered. The variables of the settings of queries make no difference to the policies, neither
those that are there at first nor the steps that set or remove them. -/
theorem settings_are_snapshots {s : Session} (hs : ∀ store : Store, store.remembered s = none)
    (steps : List Step) :
    (∀ store : Store, (∃ w, store.Moment s steps w) ∧ ∀ w, store.Moment s steps w →
      (store.read.run.run (s.afterAll steps)).1 = .ok (store.hold w)) ∧
    (∀ w w', Store.settings.Moment s steps w → Store.policies.Moment s steps w' → ∀ r : Reader,
      let k : Snapshot := ⟨Store.settings.hold w, Store.policies.hold w'⟩
      let run := r.run.run.run (s.afterAll steps)
      r.run.run.run ((s.afterAll steps).remember k true true) =
        (run.1, run.2.remember k true true)) ∧
    ∀ s' : Session, Store.policies.remembered s' = none → s.files = s'.files →
      s.platform.readYaml = s'.platform.readYaml →
      (∀ name, isQueryVariable name = false →
        s.environment.lookup name = s'.environment.lookup name) →
      (Store.policies.read.run.run (s.afterAll steps)).1 = (Store.policies.read.run.run
        (s'.afterAll (steps.filter fun step => !step.isOfQueryVariable))).1 := by
  refine ⟨fun store => ⟨store.exists_moment s steps, fun w hw => ?_⟩, fun w w' hw hw' r => ?_,
    fun s' hs' hfiles hreadYaml hlookup => ?_⟩
  · rw [store.run_read, Store.current_of_moment (hs store) hw]
  · have hsame := r.run_remember (s.afterAll steps)
    rw [Store.current_of_moment (hs .settings) hw, Store.current_of_moment (hs .policies) hw']
      at hsame
    exact Prod.ext hsame.1 hsame.2
  · have hpath : isQueryVariable "COMMENT_QUERY_META_POLICIES_PATH" = false := by decide
    have hshares : s.SharesPolicies s' :=
      ⟨hfiles, hreadYaml, hlookup _ hpath, (hs .policies).trans hs'.symm⟩
    rw [Store.run_read, Store.run_read, (hshares.afterAll steps).current_eq]

/-- The settings that are read without any file are none, and stay so until they are dropped. -/
theorem settings_are_snapshots_override :
    let s : Session := { files := ⟨[], []⟩ }
    let override : Step :=
      .setVariable "COMMENT_QUERY_OVERRIDES_JSON" "\x7b\"index\": \x7b\"name\": \"notes\"\x7d\x7d"
    (∀ store : Store, store.remembered s = none) ∧
    Store.settings.Moment s [.read .settings, override] s.world ∧
    (Work.querySettings.run.run (s.afterAll [.read .settings, override])).1 = .ok [] ∧
    (Work.querySettings.run.run (s.afterAll [.read .settings, override, .dropSettings])).1 =
      .ok [("index", .object [("name", .text "notes")])] := by
  intro s override
  have hs : ∀ store : Store, store.remembered s = none := by
    intro store
    cases store <;> rfl
  have hunread : Store.settings.Unread s [] := fun before step later hsplit => by simp at hsplit
  have hsplit : [Step.read .settings, override] = [] ++ Step.read .settings :: [override] := rfl
  have hfirst : Store.settings.Moment s [.read .settings, override] s.world :=
    .first hsplit hunread rfl (by simp [override])
  have hdropped := Store.Moment.present
    (Store.settings.unread_concat_drop s [.read .settings, override])
  have hread := ((settings_are_snapshots hs _).1 .settings).2 _ hfirst
  have hreadAgain := ((settings_are_snapshots hs _).1 .settings).2 _ hdropped
  have hempty : Store.settings.hold s.world = [] :=
    show Settings.ofQueries Yaml.read? [] ⟨[], []⟩ = [] from rfl
  have hjson : Settings.ofJson "\x7b\"index\": \x7b\"name\": \"notes\"\x7d\x7d" =
      [("index", .object [("name", .text "notes")])] := rfl
  have hnotes : Settings.ofQueries s.platform.readYaml [("COMMENT_QUERY_OVERRIDES_JSON",
      "\x7b\"index\": \x7b\"name\": \"notes\"\x7d\x7d")] s.files =
        [("index", .object [("name", .text "notes")])] := by
    change Settings.overlay [] (Settings.ofJson _) = _
    rw [hjson]
    simp [Settings.overlay, Fields.set, Fields.reservedKey]
  exact ⟨hs, hfirst, hread.trans (congrArg Except.ok hempty),
    hreadAgain.trans (congrArg Except.ok hnotes)⟩

end CommentSearch
