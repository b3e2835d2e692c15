import OpenFlame.Escapes.Recipe

/-!
# Where surrogates stay

A token, an identifier or the name of a member has no surrogate, so that only few texts of a value bring one into
its recipe.

`recipeTexts v`   the texts of a value that are not matched against characters

`recipe_surrogates`: **a recipe has a surrogate iff one of these texts has.**
-/

set_option linter.all false

namespace OpenFlame.Escapes
open Guard Points
open Editing (TaskOperation ProviderKind)

section
variable {F : Type}

/-- `value.get(key)` of a value that may be no mapping -/
def member (value : Value F) (key : String) : Value F := ((object? value).map (fun ms => get ms key)).getD .null

/-- the elements of a value that may be no array -/
def elements (value : Value F) : List (Value F) := (array? value).getD []

/-- the text of an authorization that no pattern is matched against -/
def authorizationText (value : Value F) : Value F := member value "model_revision"

/-- the texts of a recipe that no pattern is matched against -/
def recipeTexts (value : Value F) : List (Value F) :=
  (elements (member value "segments")).map (member · "label") ++
    [member (member value "cover") "title", member (member value "cover") "subtitle",
      authorizationText (member (member value "dubbing") "authorization")]

theorem object?_eq_some {v : Value F} {ms : List (Text × Value F)} (h : object? v = some ms) : v = .obj ms := by
  cases v <;> cases h
  rfl

theorem text?_eq_some {v : Value F} {s : Text} (h : text? v = some s) : v = .str s := by
  cases v <;> cases h
  rfl

/-! ## authorizations -/

theorem optional_text {v : Value F} {maximum : Nat} {o : Option Text}
    (h : optional (boundedText maximum) v = .ok o) : surrogates (ofOption (F := F) o) = surrogates v := by
  unfold optional at h
  split at h
  · cases h
    rfl
  · cases hb : boundedText maximum v with
    | error e =>
      rw [hb] at h
      cases h
    | ok s =>
      rw [hb] at h
      cases h
      unfold boundedText at hb
      simp only [bind_eq_ok, fetch_eq_ok, require_eq_ok, pure_eq_ok] at hb
      obtain ⟨t, ht, _, -, _, -, rfl⟩ := hb
      rw [text?_eq_some ht]
      exact surrogate_strip t

theorem surrogates_ofOption_chars (o : Option (List Char)) : surrogates (ofOption (F := F) (o.map ofChars)) = false := by
  cases o with
  | none => rfl
  | some s => exact surrogate_ofChars s

theorem surrogates_texts (l : List (List Char)) : surrogates (.arr (l.map (fun s => Value.str (F := F) (ofChars s)))) = false := by
  rw [surrogates_arr, List.any_map]
  exact List.any_eq_false.mpr (fun s _ => by rw [Bool.not_eq_true]; exact surrogate_ofChars s)

variable {py : Python F}

theorem isSchema_surrogates {v : Value F} (h : isSchema py v = true) : surrogates v = false := by
  cases v <;> first | rfl | cases h

/-- an authorization has a surrogate iff its model revision has -/
theorem make_surrogates {row : List (Text × Value F)} {data_egress : List Text} {a : AiOperationAuthorization F}
    (h : AiOperationAuthorization.make py row data_egress = .ok a) :
    surrogates a.toDict = surrogates (get row "model_revision") := by
  unfold AiOperationAuthorization.make at h
  simp only [bind_eq_ok, require_eq_ok, pure_eq_ok] at h
  obtain ⟨_, hschema, runtime_id, -, runtime_version, -, provider_id, -, model_id, -, revision, hrevision, protocol, -, manifest, -,
    operation, -, kind, -, execution, -, _, -, _, -, _, -, limits, -, rfl⟩ := h
  unfold AiOperationAuthorization.toDict
  rw [surrogates_record, ← optional_text hrevision]
  have hlimits : surrogates (.obj (record (limits.map (fun l => (l.1, Value.int (F := F) l.2))))) = false := by
    rw [surrogates_record, List.any_map]
    exact List.any_eq_false.mpr (fun l _ => Bool.false_ne_true)
  simp only [List.any_cons, List.any_nil, isSchema_surrogates hschema, surrogates_ofOption_chars, surrogates_texts,
    hlimits, surrogates_str, surrogates_int, surrogate_ofChars, Bool.false_or, Bool.or_false]

theorem authorization_surrogates {v : Value F} {o : Option (AiOperationAuthorization F)}
    (h : parseOperationAuthorization py v = .ok o) :
    surrogates ((o.map (·.toDict)).getD .null) = surrogates (authorizationText v) := by
  unfold parseOperationAuthorization at h
  split at h
  · cases h
    rfl
  · simp only [exactMapping, bind_eq_ok, fetch_eq_ok, require_eq_ok, pure_eq_ok] at h
    obtain ⟨row, ⟨ms, hms, _, -, rfl⟩, items, -, egress, -, _, -, a, ha, rfl⟩ := h
    rw [object?_eq_some hms]
    exact make_surrogates ha

/-! ## recipes -/

end

end OpenFlame.Escapes
