import GreengrassLite.Config.Merge
import GreengrassLite.Core.Bus

/-!
# Writing to the configuration from another daemon

`ggl_gg_config_write` of `core-bus-gg-config/src/gg_config.c` checks the
timestamp and the length of the key path, and calls the `write` method of
`ggconfigd` over the core bus.
-/

namespace GreengrassLite.Config

open GglObject

universe u

/-- The arguments of the call `ggl_gg_config_write` makes. -/
def writeArguments (keyPath : List Buffer) (value : GglObject) (timestamp : Option Int) : GglMap :=
  [(gglStr "key_path", .list (keyPath.map .buf)), (gglStr "value", value)] ++
    (timestamp.map fun time => (gglStr "timestamp", .i64 time)).toList

/-- `ggl_gg_config_write`, where `method` serves the call. -/
def gglGgConfigWrite {σ : Type u} (deliver : GglMap → Except GglError Unit)
    (method : GglMap → σ → Except GglError Unit × σ) (keyPath : List Buffer) (value : GglObject)
    (timestamp : Option Int) (store : σ) : Except GglError Unit × σ :=
  if timestamp.any (· < 0) then
    (.error .unsupported, store)
  else if maxObjectDepth < keyPath.length then
    (.error .unsupported, store)
  else
    gglCall deliver method (writeArguments keyPath value timestamp) store

theorem requests_writeArguments (now : Int) (keys : List Buffer) (value : GglObject)
    (timestamp : Option Int) :
    Requests now (writeArguments keys value timestamp) keys value (timestamp.getD now) where
  keyPath := rfl
  value := rfl
  timestamp := by
    cases timestamp with
    | none => exact .inr ⟨rfl, rfl⟩
    | some time => exact .inl rfl

variable {σ : Type u} {value : GglObject} {timestamp : Option Int}

section

variable (deliver : GglMap → Except GglError Unit) (method : GglMap → σ → Except GglError Unit × σ)
  (keyPath : List Buffer) (value : GglObject) (timestamp : Option Int) (store : σ)

/-- A write is refused before it reaches the method, or served by it. -/
theorem gglGgConfigWrite_cases :
    (∃ error, gglGgConfigWrite deliver method keyPath value timestamp store =
        (.error error, store)) ∨
      gglGgConfigWrite deliver method keyPath value timestamp store =
        method (writeArguments keyPath value timestamp) store := by
  unfold gglGgConfigWrite gglCall
  split
  · exact .inl ⟨_, rfl⟩
  split
  · exact .inl ⟨_, rfl⟩
  split
  · exact .inl ⟨_, rfl⟩
  split
  · exact .inl ⟨_, rfl⟩
  · exact .inr rfl

end

theorem gglSerializeNesting_writeArguments {keys : List Buffer}
    (shallow : 2 + value.depth ≤ maxObjectDepth) :
    gglSerializeNesting 1 (.map (writeArguments keys value timestamp)) = .ok () := by
  have flat : ∀ keys : List Buffer, listDepth (keys.map .buf) = 0 := by
    intro keys
    induction keys with
    | nil => rfl
    | cons key keys ih => simp [listDepth, depth, ih]
  apply gglSerializeNesting_ok
  cases timestamp <;>
  · simp only [writeArguments, Option.map_none, Option.map_some, Option.toList_none,
      Option.toList_some, List.cons_append, List.nil_append, depth,
      pairsDepth, flat, maxObjectDepth] at shallow ⊢
    omega

/-- A write that passes the checks over a transport that delivers it is served. -/
theorem gglGgConfigWrite_delivered {deliver : GglMap → Except GglError Unit}
    {method : GglMap → σ → Except GglError Unit × σ} {keyPath : List Buffer}
    (nonnegative : ∀ time ∈ timestamp, 0 ≤ time) (short : keyPath.length ≤ maxObjectDepth)
    (shallow : 2 + value.depth ≤ maxObjectDepth) (delivered : ∀ params, deliver params = .ok ())
    (store : σ) :
    gglGgConfigWrite deliver method keyPath value timestamp store =
      method (writeArguments keyPath value timestamp) store := by
  have accepted : ¬timestamp.any (· < 0) = true := by
    cases timestamp with
    | none => simp
    | some time => simpa using nonnegative time rfl
  rw [gglGgConfigWrite, if_neg accepted, if_neg (Nat.not_lt.mpr short), gglCall,
    gglSerializeNesting_writeArguments shallow, delivered]

end GreengrassLite.Config
