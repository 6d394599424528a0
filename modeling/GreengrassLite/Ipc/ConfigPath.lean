import GreengrassLite.Ipc.UpdateConfiguration

/-!
# Configuration paths

`ggl_parse_config_path` takes a path that `ggl_make_config_path_object` has built apart again.
The vector of the latter begins empty in every call.  The former collects the keys in a vector
that outlives the call, so its memory still holds the keys of earlier paths behind the length.
-/

namespace GreengrassLite.Ipc

open List

variable {α : Type*} {capacity : Nat}

/-- A vector in static memory. -/
structure StaticVec (α : Type*) (capacity : Nat) where
  mem : List α
  len : Nat
  size : mem.length = capacity

namespace StaticVec

/-- The push of `ggl-lib/src/vector.c`, which overwrites what is behind the length. -/
def push (vector : StaticVec α capacity) (item : α) : Except GglError (StaticVec α capacity) :=
  if vector.len ≥ capacity then .error .nomem
  else .ok ⟨vector.mem.set vector.len item, vector.len + 1, by rw [length_set, vector.size]⟩

/-- A chain of pushes, which ends at the first that fails. -/
def chain (vector : StaticVec α capacity) : List α → Except GglError Unit × StaticVec α capacity
  | [] => (.ok (), vector)
  | item :: items =>
    match vector.push item with
    | .error error => (.error error, vector)
    | .ok pushed => pushed.chain items

/-- The items up to the length. -/
def list (vector : StaticVec α capacity) : List α :=
  vector.mem.take vector.len

theorem chain_of_room {vector : StaticVec α capacity} {items : List α}
    (room : vector.len + items.length ≤ capacity) :
    (vector.chain items).1 = .ok () ∧ (vector.chain items).2.list = vector.list ++ items := by
  induction items generalizing vector with
  | nil => exact ⟨rfl, (append_nil _).symm⟩
  | cons item items ih =>
    rw [length_cons] at room
    have inside : vector.len < vector.mem.length := by
      rw [vector.size]
      omega
    rw [chain, push, if_neg (by omega)]
    refine (ih (by dsimp only; omega)).imp_right fun pushed => pushed.trans ?_
    rw [list, list, take_add_one, take_set_of_le (Nat.le_refl _), getElem?_set_self inside,
      append_assoc]
    rfl

end StaticVec

/-- `GGL_MAX_COMPONENT_CONFIG_DEPTH`. -/
def maxComponentConfigDepth : Nat :=
  maxObjectDepth - 3

/-- The field `buf` of an object, where `misread` is what the union holds for another type. -/
def bufField (misread : GglObject → Buffer) : GglObject → Buffer
  | .buf bytes => bytes
  | object => misread object

/-- `ggl_parse_config_path`, with the vector that outlives the call. -/
def gglParseConfigPath (misread : GglObject → Buffer)
    (componentKeyPath : StaticVec GglObject maxComponentConfigDepth) (configPath : List GglObject) :
    Except GglError (Buffer × List GglObject) × StaticVec GglObject maxComponentConfigDepth :=
  match configPath with
  | _ :: name :: _ :: key :: keys =>
    let componentKeyPath := { componentKeyPath with len := 0 }
    let chained := componentKeyPath.chain
      ((key :: keys).map fun item => .buf (bufField misread item))
    (chained.1.map fun () => (bufField misread name, chained.2.list), chained.2)
  | _ => (.error .invalid, componentKeyPath)

/-- A path is built for at most twelve keys and taken apart again, whatever was parsed before. -/
theorem gglParseConfigPath_gglMakeConfigPathObject (component : Buffer) :
    (∀ keyPath, (∃ path, gglMakeConfigPathObject component keyPath = .ok path) ↔
        ∃ keys : List Buffer, keyPath = keys.map .buf ∧ keys.length ≤ 12) ∧
      ∀ keys : List Buffer, 1 ≤ keys.length → keys.length ≤ 12 →
        ∃ path, gglMakeConfigPathObject component (keys.map .buf) = .ok path ∧
          ∀ misread componentKeyPath,
            (gglParseConfigPath misread componentKeyPath (path.map .buf)).1 =
              .ok (component, keys.map .buf) := by
  have fits (keys : List Buffer) :
      (configPath component keys).length ≤ maxObjectDepth ↔ keys.length ≤ 12 := by
    rw [length_configPath, maxObjectDepth]
    omega
  refine ⟨fun keyPath => ⟨?_, ?_⟩, fun keys some short => ⟨_,
    gglMakeConfigPathObject_eq_ok_iff.mpr ⟨keys, rfl, rfl, (fits keys).mpr short⟩, ?_⟩⟩
  · rintro ⟨path, made⟩
    obtain ⟨keys, buffers, rfl, bound⟩ := gglMakeConfigPathObject_eq_ok_iff.mp made
    exact ⟨keys, buffers, (fits keys).mp bound⟩
  · rintro ⟨keys, buffers, short⟩
    exact ⟨_, gglMakeConfigPathObject_eq_ok_iff.mpr ⟨keys, buffers, rfl, (fits keys).mpr short⟩⟩
  · intro misread componentKeyPath
    obtain ⟨key, keys, rfl⟩ := exists_cons_of_length_pos some
    obtain ⟨ok, listed⟩ := @StaticVec.chain_of_room _ _ { componentKeyPath with len := 0 }
      ((key :: keys).map GglObject.buf) (by rwa [length_map, Nat.zero_add])
    simp only [configPath, cons_append, nil_append, map_cons, gglParseConfigPath, map_map,
      Function.comp_def, bufField] at ok listed ⊢
    rw [ok, listed]
    rfl

end GreengrassLite.Ipc
