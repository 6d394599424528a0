import GreengrassLite.Core.Object

/-!
# Calls over the core bus

A call serialises its parameters with `ggl_serialize` of
`core-bus/src/object_serde.c`, which refuses objects nested too deeply: its
state has fifteen levels, and the object itself takes the first.  The rest of
the transport (the length of the message, the sockets, the memory of the
receiver) is a parameter that may refuse a message.
-/

namespace GreengrassLite

open GglObject

universe u

mutual

/-- The levels `ggl_serialize` uses for an object: `push_parse_state` fails
when all levels are taken. -/
def gglSerializeNesting : Nat → GglObject → Except GglError Unit
  | level, .list items =>
    if maxObjectDepth ≤ level then .error .range else gglSerializeItems (level + 1) items
  | level, .map pairs =>
    if maxObjectDepth ≤ level then .error .range else gglSerializePairs (level + 1) pairs
  | _, _ => .ok ()

/-- The levels used for the items of a list. -/
def gglSerializeItems : Nat → List GglObject → Except GglError Unit
  | _, [] => .ok ()
  | level, item :: items =>
    match gglSerializeNesting level item with
    | .error error => .error error
    | .ok () => gglSerializeItems level items

/-- The levels used for the values of a map. -/
def gglSerializePairs : Nat → GglMap → Except GglError Unit
  | _, [] => .ok ()
  | level, (_, value) :: pairs =>
    match gglSerializeNesting level value with
    | .error error => .error error
    | .ok () => gglSerializePairs level pairs

end

mutual

/-- An object whose containers and the levels above them number at most fifteen
is serialised. -/
@[simp]
theorem gglSerializeNesting_ok :
    ∀ (object : GglObject) {level : Nat}, level + object.depth ≤ maxObjectDepth →
      gglSerializeNesting level object = .ok ()
  | .null, _, _ | .boolean _, _, _ | .i64 _, _, _ | .f64 _, _, _ | .buf _, _, _ => rfl
  | .list items, level, shallow => by
    rw [depth] at shallow
    rw [gglSerializeNesting, if_neg (by omega)]
    exact gglSerializeItems_ok items (by omega)
  | .map pairs, level, shallow => by
    rw [depth] at shallow
    rw [gglSerializeNesting, if_neg (by omega)]
    exact gglSerializePairs_ok pairs (by omega)

theorem gglSerializeItems_ok :
    ∀ (items : List GglObject) {level : Nat},
      level + listDepth items ≤ maxObjectDepth →
      gglSerializeItems level items = .ok ()
  | [], _, _ => rfl
  | item :: items, level, shallow => by
    rw [listDepth] at shallow
    rw [gglSerializeItems, gglSerializeNesting_ok item (by omega)]
    exact gglSerializeItems_ok items (by omega)

theorem gglSerializePairs_ok :
    ∀ (pairs : GglMap) {level : Nat}, level + pairsDepth pairs ≤ maxObjectDepth →
      gglSerializePairs level pairs = .ok ()
  | [], _, _ => rfl
  | (key, value) :: pairs, level, shallow => by
    rw [pairsDepth] at shallow
    rw [gglSerializePairs, gglSerializeNesting_ok value (by omega)]
    exact gglSerializePairs_ok pairs (by omega)

end

/-- `ggl_call` to a method that answers with an error or nothing.  `deliver` is
what the transport says to a message that was serialised. -/
def gglCall {σ : Type u} (deliver : GglMap → Except GglError Unit)
    (method : GglMap → σ → Except GglError Unit × σ) (params : GglMap) (store : σ) :
    Except GglError Unit × σ :=
  match gglSerializeNesting 1 (.map params) with
  | .error error => (.error error, store)
  | .ok () =>
    match deliver params with
    | .error error => (.error error, store)
    | .ok () => method params store

end GreengrassLite
