import CommentSearch.Json.Reader
import CommentSearch.Proofs.Fields

/-!
# Objects that name each key once

`Value.IsDistinct` says that no object within a value names a key twice. It holds of every value
that is read from JSON text (`isDistinct_of_read?`): of several fields with one key the reader keeps
one, and each token that it reads leaves the open lists and objects distinct (`isDistinct_next?`).
-/

namespace CommentSearch

/-! ### Setting fields -/

namespace Fields

/-- Setting a field keeps the keys, and adds its own if it is new. -/
theorem keys_set (fields : Fields) (key : String) (v : Value) :
    (fields.set key v).keys = if key ∈ fields.keys then fields.keys else fields.keys ++ [key] := by
  have hany : (fields.any (·.1 == key) = true) ↔ key ∈ fields.keys := by
    simp [keys, List.any_eq_true]
  unfold set
  by_cases hmem : key ∈ fields.keys
  · rw [if_pos (hany.2 hmem), if_pos hmem]
    unfold keys
    rw [List.map_map]
    refine List.map_congr_left fun field _ => ?_
    by_cases hkey : field.1 = key
    · simp [hkey]
    · simp [hkey]
  · rw [if_neg (mt hany.1 hmem), if_neg hmem]
    simp [keys]

theorem nodup_keys_set {fields : Fields} (h : fields.keys.Nodup) (key : String) (v : Value) :
    (fields.set key v).keys.Nodup := by
  rw [keys_set]
  split
  · exact h
  · rename_i hnew
    rw [List.nodup_append]
    refine ⟨h, by simp, fun name hname other hother => ?_⟩
    rintro rfl
    exact hnew (List.mem_singleton.1 hother ▸ hname)

/-- A field of an object in which a field was set is that field, or one that was there before. -/
theorem mem_set {fields : Fields} {key : String} {v : Value} {field : String × Value}
    (h : field ∈ fields.set key v) : field = (key, v) ∨ field ∈ fields := by
  unfold set at h
  split at h
  · obtain ⟨other, hother, rfl⟩ := List.mem_map.1 h
    split
    · exact .inl rfl
    · exact .inr hother
  · rcases List.mem_append.1 h with h | h
    · exact .inr h
    · exact .inl (List.mem_singleton.1 h)

end Fields

/-! ### Distinct keys -/

/-- No object within a value names a key twice. -/
inductive Value.IsDistinct : Value → Prop
  | null : IsDistinct .null
  | bool (b : Bool) : IsDistinct (.bool b)
  | number (x : Number) : IsDistinct (.number x)
  | text (s : String) : IsDistinct (.text s)
  | list {items : List Value} (each : ∀ v ∈ items, IsDistinct v) : IsDistinct (.list items)
  | object {fields : Fields} (nodup : fields.keys.Nodup)
    (each : ∀ field ∈ fields, IsDistinct field.2) : IsDistinct (.object fields)

/-- An object names no key twice, nor does any object within it. -/
def Fields.IsDistinct (fields : Fields) : Prop := (Value.object fields).IsDistinct

namespace Fields.IsDistinct

variable {fields : Fields}

theorem nil : IsDistinct [] := .object List.nodup_nil (by simp)

theorem nodup (h : fields.IsDistinct) : fields.keys.Nodup := by
  cases h with
  | object nodup _ => exact nodup

theorem each (h : fields.IsDistinct) : ∀ field ∈ fields, field.2.IsDistinct := by
  cases h with
  | object _ each => exact each

theorem set (h : fields.IsDistinct) (key : String) {v : Value} (hv : v.IsDistinct) :
    (fields.set key v).IsDistinct := by
  refine .object (nodup_keys_set h.nodup key v) fun field hfield => ?_
  rcases mem_set hfield with rfl | hfield
  · exact hv
  · exact h.each field hfield

end Fields.IsDistinct

/-! ### Reading JSON -/

namespace Json

theorem isDistinct_of_ofWord? {word : List Char} {v : Value} (h : ofWord? word = some v) :
    v.IsDistinct := by
  unfold ofWord? at h
  split at h
  · obtain rfl := Option.some.inj h
    exact .null
  split at h
  · obtain rfl := Option.some.inj h
    exact .bool true
  split at h
  · obtain rfl := Option.some.inj h
    exact .bool false
  · obtain ⟨x, -, rfl⟩ := Option.map_eq_some_iff.1 h
    exact .number x

/-- What an open list or object holds so far is distinct. -/
def Frame.IsDistinct : Frame → Prop
  | list done => ∀ v ∈ done, v.IsDistinct
  | object done _ => done.IsDistinct

/-- All that has been read so far is distinct. -/
def Reading.IsDistinct : Reading → Prop
  | value stack | firstItem stack | firstKey stack => ∀ frame ∈ stack, frame.IsDistinct
  | key done stack | colon done _ stack => done.IsDistinct ∧ ∀ frame ∈ stack, frame.IsDistinct
  | after v stack => v.IsDistinct ∧ ∀ frame ∈ stack, frame.IsDistinct

theorem isDistinct_start? {stack : List Frame} {token : Token} {r : Reading}
    (h : Reading.start? stack token = some r) (hstack : ∀ frame ∈ stack, frame.IsDistinct) :
    r.IsDistinct := by
  cases token with
  | openList | openObject =>
    obtain rfl := Option.some.inj h
    exact hstack
  | text s =>
    obtain rfl := Option.some.inj h
    exact ⟨.text s, hstack⟩
  | word w =>
    obtain ⟨v, hv, rfl⟩ := Option.map_eq_some_iff.1 h
    exact ⟨isDistinct_of_ofWord? hv, hstack⟩
  | closeList | closeObject | colon | comma => cases h

/-- A token leaves all that has been read distinct. -/
theorem isDistinct_next? {r r' : Reading} {token : Token} (h : r.next? token = some r')
    (hr : r.IsDistinct) : r'.IsDistinct := by
  cases r with
  | value stack => exact isDistinct_start? h hr
  | firstItem stack =>
    have hopen : ∀ frame ∈ Frame.list [] :: stack, frame.IsDistinct :=
      List.forall_mem_cons.2 ⟨List.forall_mem_nil _, hr⟩
    cases token with
    | closeList =>
      obtain rfl := Option.some.inj h
      exact ⟨.list (List.forall_mem_nil _), hr⟩
    | openList | openObject | closeObject | colon | comma | text | word =>
      unfold Reading.next? at h
      exact isDistinct_start? h hopen
  | firstKey stack =>
    cases token with
    | closeObject =>
      obtain rfl := Option.some.inj h
      exact ⟨Fields.IsDistinct.nil, hr⟩
    | text k =>
      obtain rfl := Option.some.inj h
      exact ⟨Fields.IsDistinct.nil, hr⟩
    | openList | closeList | openObject | colon | comma | word => cases h
  | key done stack =>
    cases token with
    | text k =>
      obtain rfl := Option.some.inj h
      exact hr
    | openList | closeList | openObject | closeObject | colon | comma | word => cases h
  | colon done k stack =>
    cases token with
    | colon =>
      obtain rfl := Option.some.inj h
      exact List.forall_mem_cons.2 hr
    | openList | closeList | openObject | closeObject | comma | text | word => cases h
  | after v stack =>
    -- the innermost open list or object takes the value in
    cases stack with
    | nil => cases h
    | cons frame stack =>
      obtain ⟨hv, hopen⟩ := hr
      obtain ⟨hdone, hstack⟩ := List.forall_mem_cons.1 hopen
      cases frame with
      | list done =>
        have hitems : ∀ w ∈ v :: done, w.IsDistinct := List.forall_mem_cons.2 ⟨hv, hdone⟩
        cases token with
        | comma =>
          obtain rfl := Option.some.inj h
          exact List.forall_mem_cons.2 ⟨hitems, hstack⟩
        | closeList =>
          obtain rfl := Option.some.inj h
          exact ⟨.list fun w hw => hitems w (List.mem_reverse.1 hw), hstack⟩
        | openList | openObject | closeObject | colon | text | word => cases h
      | object done k =>
        have hfields : Fields.IsDistinct (done.set k v) := Fields.IsDistinct.set hdone k hv
        cases token with
        | comma =>
          obtain rfl := Option.some.inj h
          exact ⟨hfields, hstack⟩
        | closeObject =>
          obtain rfl := Option.some.inj h
          exact ⟨hfields, hstack⟩
        | openList | closeList | openObject | colon | text | word => cases h

theorem isDistinct_foldlM {tokens : List Token} {r r' : Reading}
    (h : tokens.foldlM Reading.next? r = some r') (hr : r.IsDistinct) : r'.IsDistinct := by
  induction tokens generalizing r with
  | nil =>
    obtain rfl := Option.some.inj h
    exact hr
  | cons token tokens ih =>
    rw [List.foldlM_cons] at h
    obtain ⟨next, hnext, h⟩ := Option.bind_eq_some_iff.1 h
    exact ih h (isDistinct_next? hnext hr)

/-- No object in a value that is read from a text names a key twice. -/
theorem isDistinct_of_read? {s : String} {v : Value} (h : read? s = some v) : v.IsDistinct := by
  unfold read? at h
  obtain ⟨ts, -, h⟩ := Option.bind_eq_some_iff.1 h
  obtain ⟨r, hr, h⟩ := Option.bind_eq_some_iff.1 h
  have hdistinct : r.IsDistinct := isDistinct_foldlM hr (List.forall_mem_nil _)
  split at h
  · obtain rfl := Option.some.inj h
    exact hdistinct.1
  · cases h

end Json

end CommentSearch
