import GreengrassLite.Core.Object

/-!
# Map and list validation

`ggl_map_get` returns the first pair with a key.  `ggl_map_validate` checks a
schema of named entries in order; an entry of type null accepts every type.
-/

namespace GreengrassLite

open List

variable {map : GglMap} {entry : GglMapSchemaEntry}

/-- `ggl_map_get`: the value of the first pair with this key. -/
def gglMapGet (map : GglMap) (key : Buffer) : Option GglObject :=
  (map.find? fun pair => pair.1 = key).map Prod.snd

/-- One entry of a `GglMapSchema`.  Its output pointer is the position of the
entry in the result of `gglMapValidate`. -/
structure GglMapSchemaEntry where
  key : Buffer
  required : Bool
  type : GglObjectType

/-- The check `ggl_map_validate` makes for one entry. -/
def gglMapValidateEntry (map : GglMap) (entry : GglMapSchemaEntry) :
    Except GglError (Option GglObject) :=
  match gglMapGet map entry.key with
  | none => if entry.required then .error .noentry else .ok none
  | some value =>
    if entry.type ≠ .null ∧ entry.type ≠ value.type then .error .parse else .ok (some value)

/-- `ggl_map_validate`: the found values, in the order of the schema. -/
def gglMapValidate (map : GglMap) :
    List GglMapSchemaEntry → Except GglError (List (Option GglObject))
  | [] => .ok []
  | entry :: schema =>
    match gglMapValidateEntry map entry with
    | .error error => .error error
    | .ok value =>
      match gglMapValidate map schema with
      | .error error => .error error
      | .ok values => .ok (value :: values)

@[simp]
theorem gglMapValidateEntry_eq_some_iff {value : GglObject} :
    gglMapValidateEntry map entry = .ok (some value) ↔
      gglMapGet map entry.key = some value ∧ (entry.type = .null ∨ entry.type = value.type) := by
  unfold gglMapValidateEntry
  cases found : gglMapGet map entry.key with
  | none => cases entry.required <;> simp
  | some other =>
    simp only [Option.some.injEq]
    split
    · rename_i wrong
      simp only [reduceCtorEq, false_iff, not_and, not_or]
      rintro rfl
      exact wrong
    · rename_i right
      simp only [Except.ok.injEq, Option.some.injEq, iff_self_and]
      rintro rfl
      exact Decidable.or_iff_not_not_and_not.mpr right

variable {value : Option GglObject} {schema : List GglMapSchemaEntry}
  {values : List (Option GglObject)}

@[simp]
theorem gglMapValidate_cons_eq_ok_iff :
    gglMapValidate map (entry :: schema) = .ok (value :: values) ↔
      gglMapValidateEntry map entry = .ok value ∧ gglMapValidate map schema = .ok values := by
  rw [gglMapValidate]
  cases gglMapValidateEntry map entry with
  | error error => simp
  | ok found =>
    cases gglMapValidate map schema with
    | error | ok => simp

theorem gglMapValidateEntry_eq_ok (valid : gglMapValidateEntry map entry = .ok value) :
    value = gglMapGet map entry.key ∧ ∀ found, gglMapGet map entry.key = some found →
      entry.type = .null ∨ entry.type = found.type := by
  cases value with
  | some found =>
    rcases gglMapValidateEntry_eq_some_iff.mp valid with ⟨present, typed⟩
    refine ⟨present.symm, ?_⟩
    intro other same
    cases present.symm.trans same
    exact typed
  | none =>
    unfold gglMapValidateEntry at valid
    split at valid
    case h_1 absent =>
      exact ⟨absent.symm, fun found present => absurd (absent.symm.trans present) nofun⟩
    case h_2 => split at valid <;> cases valid

/-- The values found are those of the map, each of the type its entry asks for. -/
theorem gglMapValidate_eq_ok (valid : gglMapValidate map schema = .ok values) :
    values = schema.map (fun entry => gglMapGet map entry.key) ∧
      ∀ entry ∈ schema, ∀ value, gglMapGet map entry.key = some value →
        entry.type = .null ∨ entry.type = value.type := by
  induction schema generalizing values with
  | nil =>
    cases valid
    exact ⟨rfl, nofun⟩
  | cons entry schema ih =>
    cases values with
    | nil =>
      rw [gglMapValidate] at valid
      split at valid
      · cases valid
      · split at valid <;> cases valid
    | cons value values =>
      rcases gglMapValidate_cons_eq_ok_iff.mp valid with ⟨first, rest⟩
      rcases gglMapValidateEntry_eq_ok first with ⟨rfl, typed⟩
      rcases ih rest with ⟨rfl, others⟩
      exact ⟨rfl, forall_mem_cons.mpr ⟨typed, others⟩⟩

/-- `ggl_map_validate` with one required entry of type buffer. -/
def gglMapValidateBuf (map : GglMap) (key : Buffer) : Except GglError Buffer :=
  match gglMapValidate map [⟨key, true, .buf⟩] with
  | .error error => .error error
  | .ok [some (.buf bytes)] => .ok bytes
  | .ok _ => .error .parse

@[simp]
theorem gglMapValidateBuf_eq_ok_iff {key bytes : Buffer} :
    gglMapValidateBuf map key = .ok bytes ↔ gglMapGet map key = some (.buf bytes) := by
  unfold gglMapValidateBuf
  simp only [gglMapValidate, gglMapValidateEntry]
  cases gglMapGet map key with
  | none => simp
  | some value => cases value <;> simp [GglObject.type]

/-- `ggl_list_type_check`. -/
def gglListTypeCheck (list : List GglObject) (type : GglObjectType) : Except GglError Unit :=
  if list.all fun item => item.type = type then .ok () else .error .parse

/-- The buffers of a list, which the caller has checked to hold only buffers. -/
def bufferItems (list : List GglObject) : List Buffer :=
  list.filterMap fun
    | .buf bytes => some bytes
    | _ => none

/-- A list that passes the type check is the list of its buffers. -/
theorem gglListTypeCheck_buf_ok {list : List GglObject}
    (checked : gglListTypeCheck list .buf = .ok ()) :
    list = (bufferItems list).map .buf := by
  unfold gglListTypeCheck at checked
  split at checked
  · rename_i all
    induction list with
    | nil => rfl
    | cons item rest ih =>
      simp only [all_cons, Bool.and_eq_true, decide_eq_true_eq] at all
      cases item with
      | buf bytes =>
        have tail := ih all.2
        simp only [bufferItems, filterMap_cons, map_cons] at tail ⊢
        rw [← tail]
      | _ => simp [GglObject.type] at all
  · cases checked

@[simp]
theorem gglListTypeCheck_map_buf (keys : List Buffer) :
    gglListTypeCheck (keys.map .buf) .buf = .ok () := by
  simp [gglListTypeCheck, GglObject.type]

@[simp]
theorem bufferItems_map_buf (keys : List Buffer) : bufferItems (keys.map .buf) = keys := by
  simp [bufferItems, filterMap_map]

end GreengrassLite
