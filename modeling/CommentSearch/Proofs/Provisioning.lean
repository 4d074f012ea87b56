import Mathlib.Data.List.Basic
import CommentSearch.Proofs.ProvisioningRuns

/-!
# Orderly provisioning

The provisioning tool makes at most three calls: it asks for the version, for the index and for its
creation, in this order, and each only where the one before has left it to do (`IsOrderly`). Against
a backend that remembers what it has created, no index is created twice, over any sequence of calls
(`provisionTool_orderly`).

What the backend refuses other than a creation is reported as it is. The fault for a refused
creation tells the text of the refusal. An error always has a text, and a backend may be known to
refuse with errors only (`Backend.RefusesWithErrors`).
-/

namespace CommentSearch

/-! ### Exchanges -/

/-- An exchange asks for the creation of an index. -/
def Exchange.AsksFor (e : Exchange) (index : String) : Prop := ∃ body, e.call = .create index body

/-- An exchange creates an index. -/
def Exchange.Creates (e : Exchange) (index : String) : Prop :=
  e.AsksFor index ∧ ∃ v, e.reply = .ok v

/-- The replies of exchanges are those of a backend after some history. -/
def Backend.Answers (backend : Backend) : List Exchange → List Exchange → Prop
  | _, [] => True
  | history, e :: made => e.reply = backend history e.call ∧ Answers backend (history ++ [e]) made

theorem Backend.answers_append_iff {backend : Backend} {history made more : List Exchange} :
    backend.Answers history (made ++ more) ↔
      backend.Answers history made ∧ backend.Answers (history ++ made) more := by
  induction made generalizing history with
  | nil => simp [Answers]
  | cons e made ih =>
    rw [List.cons_append, Answers, Answers, ih, List.append_assoc, and_assoc]
    rfl

/-- A backend refuses with errors only. -/
def Backend.RefusesWithErrors (backend : Backend) : Prop :=
  ∀ history c refusal, backend history c = .error refusal → ∃ message, refusal = .error message

/-- The exchanges of a provisioning, which asks for the version, for the index and for its creation,
with the reply to each of these calls that it makes. -/
def provisionCalls (index : String) (body : Fields) (told asked changed : Option Reply) :
    List Exchange :=
  (told.map fun reply => ⟨.info, reply⟩).toList ++
    (asked.map fun reply => ⟨.exists index, reply⟩).toList ++
    (changed.map fun reply => ⟨.create index body, reply⟩).toList

theorem exists_changed_of_asksFor {index other : String} {body : Fields}
    {told asked changed : Option Reply} {e : Exchange}
    (he : e ∈ provisionCalls index body told asked changed) (h : e.AsksFor other) :
    other = index ∧ changed = some e.reply := by
  obtain ⟨body', hcall⟩ := h
  simp only [provisionCalls, List.mem_append, Option.mem_toList,
    Option.map_eq_some_iff] at he
  rcases he with (⟨reply, -, rfl⟩ | ⟨reply, -, rfl⟩) | ⟨reply, hreply, rfl⟩
  · cases hcall
  · cases hcall
  · cases hcall
    exact ⟨rfl, hreply⟩

/-! ### Orderly calls -/

/-- The version and the distribution that count: those that are given, or else those that the
backend has told. -/
def ProvisionOptions.effective (options : ProvisionOptions) (told : Option Reply) :
    String × String :=
  if options.version.getD "" ≠ "" then (options.version.getD "", options.distribution.getD "")
  else match told with
    | some (.ok body) => (versionNumber body, versionDistribution body)
    | _ => ("", "")

/-- The mapping file for the version and the distribution that count. -/
def Session.fileFor (s : Session) (options : ProvisionOptions) (told : Option Reply) :
    MappingFile :=
  s.mappingFile (options.effective told).1 (options.effective told).2

/-- The calls of a provisioning, each given by the reply to it, follow from those before, and its
result follows from them all. -/
structure IsOrderly (s : Session) (options : ProvisionOptions) (told asked changed : Option Reply)
    (body : Fields) (result : Except Fault Provision) : Prop where
  /-- The backend is asked for the version only where none is given. -/
  unversioned : told.isSome = true → options.version.getD "" = ""
  /-- It is asked for the index only once the mapping for the version was read. -/
  mapping_read : asked.isSome = true → (∀ refusal, told ≠ some (.error refusal)) ∧
    s.mapping options (options.effective told).1 (options.effective told).2 = .ok body
  /-- It is asked for the creation only where it answers anything but that the index is there. -/
  missing : changed.isSome = true → ∃ answer, asked = some (.ok answer) ∧ answer ≠ .bool true
  /-- The result says that the index was created where it was. -/
  created_iff : (∃ p, result = .ok p ∧ p.created = true) ↔ ∃ v, changed = some (.ok v)
  skipped_iff : (∃ p, result = .ok p ∧ p.created = false) ↔ asked = some (.ok (.bool true))
  /-- The result names what was chosen. -/
  named : ∀ p, result = .ok p → p.index = s.indexName options ∧
    p.version = (options.effective told).1 ∧
    p.mappingFile = s.fileFor options told
  /-- What is refused before the creation is reported as it is. -/
  unanswered : ∀ refusal, told = some (.error refusal) ∨ asked = some (.error refusal) →
    result = .error refusal.fault
  /-- A creation that is refused is reported as such, with the text of the refusal. -/
  refused : ∀ refusal, changed = some (.error refusal) → result = .error
    (refusal.faultAs (.createFailed (s.indexName options) (s.fileFor options told).name))

section

variable {backend : Backend} {s : Session} {options : ProvisionOptions}

theorem TellsVersion.exists_told {made : List Exchange} {version distribution : String}
    (h : TellsVersion backend s options made version distribution) :
    ∃ told : Option Reply, made = (told.map fun reply => ⟨.info, reply⟩).toList ∧
      options.effective told = (version, distribution) ∧
      (told.isSome = true → options.version.getD "" = "") ∧
      (∀ refusal, told ≠ some (.error refusal)) ∧ backend.Answers s.exchanges made := by
  cases h with
  | given versioned => exact ⟨none, rfl, if_pos versioned, nofun, nofun, trivial⟩
  | @told body unversioned reply =>
    exact ⟨some (.ok body), rfl, if_neg fun hne => hne unversioned, fun _ => unversioned, nofun,
      reply.symm, trivial⟩

/-- Every way of provisioning is orderly. -/
theorem Provisions.exists_orderly {made : List Exchange} {result : Except Fault Provision}
    (h : Provisions backend s options made result) : ∃ told asked changed body,
      made = provisionCalls (s.indexName options) body told asked changed ∧
      backend.Answers s.exchanges made ∧ IsOrderly s options told asked changed body result := by
  cases h with
  | @versionRefused refusal unversioned reply =>
    refine ⟨some (.error refusal), none, none, [], rfl, ⟨reply.symm, trivial⟩, ?_⟩
    refine ⟨fun _ => unversioned, nofun, nofun, by simp, by simp, nofun, fun other hother => ?_,
      nofun⟩
    rcases hother with hother | hother
    · obtain rfl := Except.error.inj (Option.some.inj hother)
      rfl
    · cases hother
  | @noMapping _ version distribution e tells unread =>
    obtain ⟨told, rfl, -, hunversioned, htold, hanswers⟩ := tells.exists_told
    refine ⟨told, none, none, [], by simp [provisionCalls], hanswers, ?_⟩
    exact ⟨hunversioned, nofun, nofun, by simp, by simp, nofun, by simp [htold], nofun⟩
  | @existsRefused _ version distribution body refusal tells read reply =>
    obtain ⟨told, rfl, heffective, hunversioned, htold, hanswers⟩ := tells.exists_told
    refine ⟨told, some (.error refusal), none, body, by simp [provisionCalls],
      Backend.answers_append_iff.2 ⟨hanswers, reply.symm, trivial⟩, ?_⟩
    refine ⟨hunversioned, fun _ => ⟨htold, by rw [heffective]; exact read⟩, nofun, by simp,
      by simp, nofun, fun other hother => ?_, nofun⟩
    obtain rfl : refusal = other := by simpa [htold] using hother
    rfl
  | @skipped _ version distribution body tells read found =>
    obtain ⟨told, rfl, heffective, hunversioned, htold, hanswers⟩ := tells.exists_told
    refine ⟨told, some (.ok (.bool true)), none, body, by simp [provisionCalls],
      Backend.answers_append_iff.2 ⟨hanswers, found.symm, trivial⟩, ?_⟩
    refine ⟨hunversioned, fun _ => ⟨htold, by rw [heffective]; exact read⟩, nofun, by simp,
      by simp, fun p hp => ?_, by simp [htold], nofun⟩
    obtain rfl := Except.ok.inj hp
    rw [Session.fileFor, heffective]
    exact ⟨rfl, rfl, rfl⟩
  | @created _ version distribution body answer v tells read asked missing reply =>
    obtain ⟨told, rfl, heffective, hunversioned, htold, hanswers⟩ := tells.exists_told
    refine ⟨told, some (.ok answer), some (.ok v), body, by simp [provisionCalls],
      Backend.answers_append_iff.2 ⟨hanswers, asked.symm, reply.symm, trivial⟩, ?_⟩
    refine ⟨hunversioned, fun _ => ⟨htold, by rw [heffective]; exact read⟩,
      fun _ => ⟨answer, rfl, missing⟩, by simp, by simp [missing], fun p hp => ?_, by simp [htold],
      by simp⟩
    obtain rfl := Except.ok.inj hp
    rw [Session.fileFor, heffective]
    exact ⟨rfl, rfl, rfl⟩
  | @createRefused _ version distribution body answer refusal tells read asked missing reply =>
    obtain ⟨told, rfl, heffective, hunversioned, htold, hanswers⟩ := tells.exists_told
    refine ⟨told, some (.ok answer), some (.error refusal), body, by simp [provisionCalls],
      Backend.answers_append_iff.2 ⟨hanswers, asked.symm, reply.symm, trivial⟩, ?_⟩
    refine ⟨hunversioned, fun _ => ⟨htold, by rw [heffective]; exact read⟩,
      fun _ => ⟨answer, rfl, missing⟩, by simp, by simp [missing], nofun, by simp [htold],
      fun other hother => ?_⟩
    obtain rfl := Except.error.inj (Option.some.inj hother)
    rw [Session.fileFor, heffective]

end

/-- A provisioning that ends with no call at all is orderly. -/
theorem IsOrderly.of_error (s : Session) (options : ProvisionOptions) (e : Fault) :
    IsOrderly s options none none none [] (.error e) :=
  ⟨nofun, nofun, nofun, by simp, by simp, nofun, by simp, nofun⟩

/-- The calls of the tool for arguments that it accepts are orderly. -/
theorem Work.exists_orderly {args : Param} {fields : Fields}
    (h : Tool.putMapping.accept args = .ok fields) (backend : Backend) (s : Session) :
    ∃ told asked changed body result s',
      (provisionTool backend args).run.run s = (result, s') ∧
      s'.exchanges = s.exchanges ++
        provisionCalls (s.indexName (.ofFields fields)) body told asked changed ∧
      backend.Answers s.exchanges
        (provisionCalls (s.indexName (.ofFields fields)) body told asked changed) ∧
      IsOrderly s (.ofFields fields) told asked changed body result := by
  obtain ⟨made, result, ⟨s', hrun, hgrows⟩, hway⟩ := runs_provisionTool h backend s
  rcases hway with ⟨rfl, e, rfl, -, -⟩ | hprovisions
  · exact ⟨none, none, none, [], _, s', hrun, hgrows.exchanges, trivial, .of_error ..⟩
  · obtain ⟨told, asked, changed, body, rfl, hanswers, horderly⟩ := hprovisions.exists_orderly
    exact ⟨told, asked, changed, body, result, s', hrun, hgrows.exchanges, hanswers, horderly⟩

/-! ### Sequences of calls -/

/-- A backend remembers what it has created: it answers that such an index is there. -/
def Backend.Remembers (backend : Backend) : Prop :=
  ∀ history index, (∃ e ∈ history, e.Creates index) →
    backend history (.exists index) = .ok (.bool true)

/-- Once an index is created, its creation is not asked for again. -/
def CreatesOnce (exchanges : List Exchange) : Prop :=
  exchanges.Pairwise fun e later => ∀ index, e.Creates index → ¬later.AsksFor index

section

variable {backend : Backend} {s : Session} {options : ProvisionOptions}
  {told asked changed : Option Reply} {body : Fields} {result : Except Fault Provision}

/-- A backend that remembers an index is not asked to create it. -/
theorem IsOrderly.changed_eq_none (h : IsOrderly s options told asked changed body result)
    (hremembers : backend.Remembers) (hanswers : backend.Answers s.exchanges
      (provisionCalls (s.indexName options) body told asked changed))
    (hcreated : ∃ e ∈ s.exchanges, e.Creates (s.indexName options)) : changed = none := by
  refine Option.not_isSome_iff_eq_none.1 fun hsome => ?_
  obtain ⟨answer, rfl, hanswer⟩ := h.missing hsome
  -- the backend was asked for the index before, and has answered that it is there
  rw [provisionCalls, List.append_assoc, Backend.answers_append_iff] at hanswers
  have hreply : .ok answer = backend _ (.exists (s.indexName options)) := hanswers.2.1
  obtain ⟨e, he, hcreates⟩ := hcreated
  rw [hremembers _ _ ⟨e, List.mem_append_left _ he, hcreates⟩] at hreply
  exact hanswer (Except.ok.inj hreply)

theorem createsOnce_provisionCalls (index : String) :
    CreatesOnce (provisionCalls index body told asked changed) := by
  unfold CreatesOnce
  cases told <;> cases asked <;> cases changed <;>
    simp [provisionCalls, Exchange.Creates, Exchange.AsksFor]

/-- A call of the tool keeps it so that no index is created twice. -/
theorem CreatesOnce.provisionTool (hremembers : backend.Remembers) (h : CreatesOnce s.exchanges)
    (args : Param) : CreatesOnce ((Work.provisionTool backend args).run.run s).2.exchanges := by
  cases haccept : Tool.putMapping.accept args with
  | error e =>
    rw [Work.run_provisionTool_of_rejected haccept]
    exact h
  | ok fields =>
    obtain ⟨told, asked, changed, body, result, s', hrun, hexchanges, hanswers, horderly⟩ :=
      Work.exists_orderly haccept backend s
    rw [hrun]
    dsimp only
    rw [hexchanges]
    -- what is left is that no earlier exchange created what is asked for now
    refine List.pairwise_append.2 ⟨h, createsOnce_provisionCalls _, ?_⟩
    intro e he later hlater index hcreates hasks
    obtain ⟨rfl, hchanged⟩ := exists_changed_of_asksFor hlater hasks
    rw [horderly.changed_eq_none hremembers hanswers ⟨e, he, hcreates⟩] at hchanged
    cases hchanged

end

/-- A backend that refuses with errors has a refused creation reported with the message of its
error. -/
theorem IsOrderly.createFailed {backend : Backend} {s : Session} {options : ProvisionOptions}
    {told asked changed : Option Reply} {body : Fields} {result : Except Fault Provision}
    (h : IsOrderly s options told asked changed body result) (herrors : backend.RefusesWithErrors)
    (hanswers : backend.Answers s.exchanges
      (provisionCalls (s.indexName options) body told asked changed))
    {refusal : Refusal} (hrefused : changed = some (.error refusal)) :
    ∃ message, refusal = .error message ∧ result =
      .error (.createFailed (s.indexName options) (s.fileFor options told).name message) := by
  subst hrefused
  rw [provisionCalls, Backend.answers_append_iff] at hanswers
  obtain ⟨message, rfl⟩ := herrors _ _ refusal hanswers.2.1.symm
  exact ⟨message, rfl, h.refused _ rfl⟩

end CommentSearch
