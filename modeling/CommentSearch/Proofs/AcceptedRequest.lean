import CommentSearch.Compile
import CommentSearch.Tool.Parameters
import CommentSearch.Proofs.Schema

/-!
# Accepted requests

A request is accepted where the schema of the compiling tool accepts it (`Request.Accepted`). What
the tool passes on of its arguments is accepted (`accepted_of_accept`), and the metadata query in it
is one of typed entries (`isMetaQuery_of_accept`).

The sections after that say what acceptance means for parameters of each type, and what the
parameters are once second names are resolved.
-/

namespace CommentSearch

/-! ### Acceptance -/

/-- A request that the schema of the compiling tool accepts. -/
def Request.Accepted (r : Request) : Prop := Tool.compileQuery.schema.accepts (.object r) = true

theorem distinctNames_schema : Tool.compileQuery.schema.distinctNames = true := by
  decide

/-- The names of the parameters of a request, with the schemas of their values. -/
def requestShape : List (String × Bool × Schema) :=
  Tool.requestParameters.map fun p => (p.name, p.optional, p.schema)

theorem nodup_requestShape : (requestShape.map (·.1)).Nodup := by
  decide

/-- The arguments of a tool as a value; absent ones count as an empty object. -/
def Tool.arguments : Param → Value
  | none | some .null => .object []
  | some v => v

/-- A tool accepts the arguments that its schema accepts, and keeps what the schema keeps. -/
theorem Tool.accept_eq (tool : Tool) (args : Param) : tool.accept args =
    if tool.schema.accepts (arguments args) = true then
      .ok ((tool.schema.strip (arguments args)).fields?.getD [])
    else .error (.illTyped tool (tool.schema.issues (arguments args))) := by
  unfold Tool.accept Tool.arguments Schema.validate
  rcases args with - | (- | - | - | - | - | -) <;> dsimp only <;> split <;> rename_i h <;>
    split at h <;> simp_all

/-- Accepted arguments are an object, of which the tool keeps the parameters of requests. -/
theorem exists_fields_of_accept {args : Param} {r : Request}
    (h : Tool.compileQuery.accept args = .ok r) :
    ∃ fields : Fields, Tool.arguments args = .object fields ∧
      Tool.compileQuery.schema.accepts (.object fields) = true ∧
      r = Schema.stripFields requestShape fields := by
  rw [Tool.accept_eq] at h
  split at h
  · rename_i haccepts
    obtain ⟨fields, heq, -⟩ := Schema.accepts_object_iff.1 haccepts
    rw [heq] at haccepts h
    exact ⟨fields, heq, haccepts, (Except.ok.inj h).symm⟩
  · cases h

/-- What the tool passes on of its arguments is an accepted request. -/
theorem accepted_of_accept {args : Param} {r : Request}
    (h : Tool.compileQuery.accept args = .ok r) : r.Accepted := by
  obtain ⟨fields, -, haccepts, rfl⟩ := exists_fields_of_accept h
  exact Schema.accepts_strip distinctNames_schema haccepts

/-- The metadata query that the tool passes on is one of typed entries. -/
theorem isMetaQuery_of_accept {args : Param} {r : Request}
    (h : Tool.compileQuery.accept args = .ok r) {v : Value} (hv : r.get? "meta_query" = some v) :
    v = .null ∨ IsMetaQuery v := by
  obtain ⟨fields, -, haccepts, rfl⟩ := exists_fields_of_accept h
  have hmem : ("meta_query", true, Schema.nullable .metaQuery) ∈ requestShape := by
    simp [requestShape, Tool.requestParameters, Tool.requestParameter]
  rw [Schema.get?_stripFields nodup_requestShape hmem] at hv
  obtain ⟨given, hgiven, rfl⟩ := Option.map_eq_some_iff.1 hv
  have hform : (Schema.nullable .metaQuery).accepts given = true := by
    obtain ⟨_, heq, hfields⟩ := Schema.accepts_object_iff.1 haccepts
    obtain rfl := Value.object.inj heq
    exact (hfields "meta_query" true _ hmem).1 given hgiven
  rcases Schema.accepts_nullable_iff.1 hform with rfl | hform
  · exact .inl rfl
  · -- the tool passes on the stripped form, which is typed even where the given one is not
    obtain ⟨kept, hkept⟩ := Schema.accepts_metaQuery_iff.1 hform
    have hstrip : (Schema.nullable .metaQuery).strip given = kept := by
      cases given with
      | null => cases hkept
      | bool | number | text | list | object => simp [Schema.strip, hkept]
    rw [hstrip]
    exact .inr (isMetaQuery_of_metaQuery? hkept)

/-! ### Parameters by their types -/

namespace Param

theorem ne_null_of_not_isEmpty {v : Value} (h : ¬isEmpty (some v) = true) : v ≠ .null := by
  rintro rfl
  exact h rfl

/-- A parameter that is a text, null or absent. -/
def IsTextual (p : Param) : Prop := ∀ v, p = some v → v = .null ∨ ∃ s, v = .text s

/-- A parameter that is a scalar, null or absent. -/
def IsScalar (p : Param) : Prop := ∀ v, p = some v → v = .null ∨ ∃ x : Scalar, v = x.toValue

theorem IsTextual.isScalar {p : Param} (h : p.IsTextual) : p.IsScalar := by
  intro v hv
  rcases h v hv with rfl | ⟨s, rfl⟩
  · exact .inl rfl
  · exact .inr ⟨.text s, rfl⟩

theorem IsTextual.eq_text {p : Param} (h : p.IsTextual) (hempty : p.isEmpty = false) :
    ∃ s, p = some (.text s) := by
  cases p with
  | none => cases hempty
  | some v =>
    rcases h v rfl with rfl | ⟨s, rfl⟩
    · cases hempty
    · exact ⟨s, rfl⟩

theorem IsTextual.textForm_eq {p : Param} (h : p.IsTextual) (hempty : p.isEmpty = false) :
    ∃ s, p = some (.text s) ∧ textForm p = .ok s := by
  obtain ⟨s, rfl⟩ := h.eq_text hempty
  exact ⟨s, rfl, rfl⟩

end Param

theorem exists_scalar_of_accepts {v : Value} (h : Schema.scalar.accepts v = true) :
    ∃ x : Scalar, v = x.toValue := by
  obtain ⟨form, hmem, haccepts⟩ := Schema.accepts_anyOf_iff.1 h
  simp only [List.mem_cons, List.not_mem_nil, or_false] at hmem
  rcases hmem with rfl | rfl | rfl
  · obtain ⟨s, rfl⟩ := Schema.accepts_text_iff.1 haccepts
    exact ⟨.text s, rfl⟩
  · obtain ⟨x, rfl, -⟩ := Schema.accepts_number_iff.1 haccepts
    exact ⟨.number x, rfl⟩
  · obtain ⟨b, rfl⟩ := Schema.accepts_bool_iff.1 haccepts
    exact ⟨.bool b, rfl⟩

namespace Request.Accepted

variable {r : Request}

/-- Each parameter of an accepted request is absent, null, or accepted by its schema. -/
theorem param (h : r.Accepted) {name : String} {schema : Schema}
    (hparam : requestShape.lookup name = some (true, .nullable schema)) {v : Value}
    (hv : r.get? name = some v) : v = .null ∨ schema.accepts v = true := by
  obtain ⟨fields, heq, hfields⟩ := Schema.accepts_object_iff.1 h
  obtain rfl := Value.object.inj heq
  -- a name that looks up a schema stands in the shape, together with that schema
  have hmem : (name, true, Schema.nullable schema) ∈ requestShape := mem_of_lookup hparam
  exact Schema.accepts_nullable_iff.1 ((hfields name true _ hmem).1 v hv)

theorem accepts_of_not_isEmpty (h : r.Accepted) {name : String} {schema : Schema}
    (hparam : requestShape.lookup name = some (true, .nullable schema)) {v : Value}
    (hv : r.get? name = some v) (hne : ¬Param.isEmpty (some v) = true) : schema.accepts v = true :=
  (h.param hparam hv).resolve_left (Param.ne_null_of_not_isEmpty hne)

theorem isTextual (h : r.Accepted) {name : String}
    (hparam : requestShape.lookup name = some (true, .nullable .text)) :
    Param.IsTextual (r.get? name) := by
  intro v hv
  exact (h.param hparam hv).imp_right Schema.accepts_text_iff.1

theorem isScalar (h : r.Accepted) {name : String}
    (hparam : requestShape.lookup name = some (true, .nullable .scalar)) :
    Param.IsScalar (r.get? name) := by
  intro v hv
  exact (h.param hparam hv).imp_right exists_scalar_of_accepts

end Request.Accepted

/-! ### Resolved names -/

namespace Request

/-- The request in which a second name stands for a name that is missing. -/
def resolve (r : Request) (name second : String) (missing : Param → Bool) : Request :=
  match r.get? second with
  | some v => if missing (r.get? name) && !missing (some v) then r.set name v else r
  | none => r

theorem normalize_eq (r : Request) : r.normalize =
    (r.resolve "paged" "page" fun p => !p.isSet).resolve "orderby" "order_by" Param.isEmpty := by
  have hpaged : (match r.get? "page" with
      | some page =>
        if !Param.isSet (r.get? "paged") && Param.isSet (some page) then r.set "paged" page else r
      | none => r) = r.resolve "paged" "page" fun p => !p.isSet := by
    unfold resolve
    cases r.get? "page" with
    | none => rfl
    | some page =>
      dsimp only
      rw [Bool.not_not]
  exact congrArg (fun r : Request => r.resolve "orderby" "order_by" Param.isEmpty) hpaged

/-- Where a name is missing and the second is not, the second is read under the name; all else is
as before. -/
theorem get?_resolve (r : Request) (name second key : String) {missing : Param → Bool}
    (hnone : missing none = true) : (r.resolve name second missing).get? key =
      if key = name ∧ missing (r.get? name) = true ∧ missing (r.get? second) = false then
        r.get? second
      else r.get? key := by
  unfold resolve
  cases hsecond : Fields.get? r second with
  | none => simp [hnone]
  | some v =>
    dsimp only
    by_cases hmissing : missing (Fields.get? r name) = true ∧ missing (some v) = false
    · rw [if_pos (by simp [hmissing]), Fields.get?_set]
      simp [hmissing]
    · rw [if_neg (by simpa using hmissing), if_neg fun h => hmissing h.2]

/-- A parameter that has no second name stays as it is. -/
theorem get?_normalize (r : Request) {name : String} (hpaged : name ≠ "paged")
    (horderby : name ≠ "orderby") : r.normalize.get? name = r.get? name := by
  rw [normalize_eq, get?_resolve _ _ _ _ rfl, if_neg fun h => horderby h.1,
    get?_resolve _ _ _ _ rfl, if_neg fun h => hpaged h.1]

/-- The page of a request is read from `page` where `paged` is not set. -/
theorem get?_normalize_paged (r : Request) : r.normalize.get? "paged" =
    if Param.isSet (r.get? "paged") = false ∧ Param.isSet (r.get? "page") = true then
      r.get? "page"
    else r.get? "paged" := by
  rw [normalize_eq, get?_resolve _ _ _ _ rfl, if_neg (by simp), get?_resolve _ _ _ _ rfl]
  simp

/-- The sort alias of a request is read from `order_by` where `orderby` is empty. -/
theorem get?_normalize_orderby (r : Request) : r.normalize.get? "orderby" =
    if Param.isEmpty (r.get? "orderby") = true ∧ Param.isEmpty (r.get? "order_by") = false then
      r.get? "order_by"
    else r.get? "orderby" := by
  have hpaged {key : String} (hkey : key ≠ "paged") :
      (r.resolve "paged" "page" fun p => !p.isSet).get? key = r.get? key := by
    rw [get?_resolve _ _ _ _ rfl, if_neg fun h => hkey h.1]
  rw [normalize_eq, get?_resolve _ _ _ _ rfl, hpaged (by simp), hpaged (by simp)]
  simp

end Request

end CommentSearch
