import GreengrassLite.CoreBus.Encoding

/-!
# Round trips on the core bus

What `ggl_serialize` writes, `ggl_deserialize` reads back, if the allocator grants the
requests that the object takes.  Conversely an object that was read is written as the
bytes it was read from, provided that it is not nested too deeply: a list or map without
entries takes a level to write and none to read, so the deepest ones that can be read
cannot be forwarded.
-/

namespace GreengrassLite

open Library List GglObject

variable {booleans : List UInt8}
  {size count : Nat} {result : ReadResult}

/-! ## Reading an encoding -/

/-- Booleans as `write_bool` writes them. -/
def CanonicalBooleans (booleans : List UInt8) : Prop :=
  ∀ byte ∈ booleans, byte = 0 ∨ byte = 1

section Reading

variable {σ : Type} {allocator : GglAlloc σ} {copyBufs : Bool}

@[simp]
theorem bufTake_append {n : Nat} {temp rest : Buffer} {alloc : Option σ} (width : temp.length = n) :
    bufTake n ⟨temp ++ rest, alloc, booleans⟩ = .ok (temp, ⟨rest, alloc, booleans⟩) := by
  have enough : ¬n > (temp ++ rest).length := by
    rw [length_append]
    omega
  rw [bufTake, if_neg enough]
  rw [take_left' width, drop_left' width]

@[simp]
theorem allocate_of_granted {alignment n : Nat} {buf : Buffer} {memory left : σ}
    (granted : allocator.alloc memory (n * size) alignment = some left) :
    allocate allocator size alignment n ⟨buf, some memory, booleans⟩ =
      .ok ((), ⟨buf, some left, booleans⟩) := by
  rw [allocate]
  dsimp only
  rw [granted]

theorem leNat_leBytes_four {len : Nat} (short : len ≤ uint32Max) :
    leNat (leBytes 4 len) = len :=
  leNat_leBytes (Nat.lt_of_le_of_lt short (by decide))

theorem readBufRaw_encodeBuf {bytes rest : Buffer} {memory left : σ}
    (short : bytes.length ≤ uint32Max)
    (granted : allocator.allocAll memory (bufRequests copyBufs bytes) = some left) :
    readBufRaw allocator copyBufs ⟨encodeBuf bytes ++ rest, some memory, booleans⟩ =
      .ok (bytes, ⟨rest, some left, booleans⟩) := by
  rw [encodeBuf, append_assoc, readBufRaw, bufTake_append (length_leBytes 4 _)]
  change (bufTake (leNat (leBytes 4 bytes.length)) _ >>= _) = _
  rw [leNat_leBytes_four short, bufTake_append rfl]
  cases copyBufs with
  | false =>
    cases granted
    rfl
  | true =>
    rcases Option.bind_eq_some_iff.mp granted with ⟨taken, request, ended⟩
    cases ended
    change (allocate allocator 1 1 bytes.length _ >>= _) = _
    rw [allocate_of_granted]
    · rfl
    · rw [Nat.mul_one]
      exact request

/-- The loop goes on after `read_obj`. -/
def resume (allocator : GglAlloc σ) (copyBufs : Bool) (level : ReadLevel)
    (levels : List ReadLevel) (read : ReadResult × ReadState σ) :
    Except GglError (ReadLevel × ReadState σ) :=
  deserializeLoop allocator copyBufs (read.1.enter level levels).1
    (read.1.enter level levels).2 read.2

variable {levels : List ReadLevel} {state : ReadState σ}

theorem deserializeLoop_of_entry {level : ReadLevel}
    {entry : Decode σ (ReadLevel × List ReadLevel)}
    (isEntry : readEntry allocator copyBufs levels level = some entry) :
    deserializeLoop allocator copyBufs level levels state =
      entry state >>= fun next => deserializeLoop allocator copyBufs next.1.1 next.1.2 next.2 := by
  rw [deserializeLoop]
  split
  next noEntry => cases isEntry.symm.trans noEntry
  next other found =>
    cases isEntry.symm.trans found
    split
    next failed =>
      rw [failed]
      rfl
    next read =>
      rw [read]
      rfl

variable {items : List GglObject} {remaining : Nat} {alloc : Option σ} {empty : GglObject}

theorem deserializeLoop_obj :
    deserializeLoop allocator copyBufs (.handlingObj items (remaining + 1)) levels = fun state =>
      readObj allocator copyBufs (levels.length + 1) state >>=
        resume allocator copyBufs (.handlingObj items remaining) levels := by
  funext state
  rw [deserializeLoop_of_entry rfl, bind_assoc]
  rfl

theorem deserializeLoop_kv {pairs : GglMap} {key : Buffer} :
    deserializeLoop allocator copyBufs (.handlingKv pairs key (remaining + 1)) levels =
      fun state => readBufRaw allocator copyBufs state >>= fun key =>
        readObj allocator copyBufs (levels.length + 1) key.2 >>=
          resume allocator copyBufs (.handlingKv pairs key.1 remaining) levels := by
  funext state
  rw [deserializeLoop_of_entry rfl, bind_assoc]
  apply bind_congr
  intro key
  rw [bind_assoc]
  rfl

@[simp]
theorem deserializeLoop_end {level outer : ReadLevel}
    (noEntry : readEntry allocator copyBufs (outer :: levels) level = none) :
    deserializeLoop allocator copyBufs level (outer :: levels) state =
      deserializeLoop allocator copyBufs (outer.store level.container) levels state := by
  rw [deserializeLoop]
  split
  · rfl
  next isEntry => cases noEntry.symm.trans isEntry

@[simp]
theorem deserializeLoop_last :
    deserializeLoop allocator copyBufs (.handlingObj items 0) [] state =
      .ok (.handlingObj items 0, state) := by
  rw [deserializeLoop]
  rfl

@[simp]
theorem readObj_tag {type : GglObjectType} {buf : Buffer} :
    readObj allocator copyBufs count ⟨type.tag :: buf, alloc, booleans⟩ =
      readContents allocator copyBufs count type ⟨buf, alloc, booleans⟩ := by
  have took : bufTake 1 (⟨type.tag :: buf, alloc, booleans⟩ : ReadState σ) =
      .ok ([type.tag], ⟨buf, alloc, booleans⟩) :=
    @bufTake_append booleans σ 1 [type.tag] buf alloc rfl
  rw [readObj, took]
  dsimp only [bind, Except.bind, headD_cons]
  cases type <;> rfl

/-- An empty container is finished at once. -/
@[simp]
theorem readContainer_zero {level : Nat → ReadLevel} {rest : Buffer} :
    readContainer allocator count size empty level ⟨leBytes 4 0 ++ rest, alloc, booleans⟩ =
      .ok (.finished empty, ⟨rest, alloc, booleans⟩) := by
  rfl

/-- A container with entries begins a level. -/
theorem readContainer_succ {len : Nat} {level : Nat → ReadLevel} {rest : Buffer} {memory left : σ}
    (short : len + 1 ≤ uint32Max) (free : count < maxObjectDepth)
    (granted : allocator.allocAll memory (arrayRequests size (len + 1)) = some left) :
    readContainer allocator count size empty level
        ⟨leBytes 4 (len + 1) ++ rest, some memory, booleans⟩ =
      .ok (.begun (level (len + 1)), ⟨rest, some left, booleans⟩) := by
  rcases Option.bind_eq_some_iff.mp granted with ⟨taken, request, ended⟩
  cases ended
  rw [readContainer, bufTake_append (length_leBytes 4 _)]
  dsimp only [bind, Except.bind]
  rw [leNat_leBytes_four short, if_pos (Nat.succ_pos len), allocate_of_granted request]
  dsimp only
  rw [if_neg (Nat.not_le.mpr free)]
  rfl

/-- Where the requests are granted, the bytes are taken off the buffer, and the booleans among
them are canonical. -/
structure Consumes (allocator : GglAlloc σ) (requests : List (Nat × Nat)) (bytes : Buffer)
    (before after : ReadState σ → Except GglError (ReadLevel × ReadState σ)) : Prop where
  reads : ∀ {rest memory left booleans}, allocator.allocAll memory requests = some left →
    ∃ noted, (CanonicalBooleans booleans → CanonicalBooleans noted) ∧
      before ⟨bytes ++ rest, some memory, booleans⟩ = after ⟨rest, some left, noted⟩

namespace Consumes

variable {requests others : List (Nat × Nat)} {bytes more : Buffer}
  {before between after : ReadState σ → Except GglError (ReadLevel × ReadState σ)}

/-- Bytes that are no booleans. -/
theorem of_eq (same : ∀ {rest memory left booleans},
      allocator.allocAll memory requests = some left →
      before ⟨bytes ++ rest, some memory, booleans⟩ = after ⟨rest, some left, booleans⟩) :
    Consumes allocator requests bytes before after :=
  ⟨fun granted => ⟨_, id, same granted⟩⟩

theorem trans (first : Consumes allocator requests bytes before between)
    (second : Consumes allocator others more between after) :
    Consumes allocator (requests ++ others) (bytes ++ more) before after where
  reads granted := by
    rcases GglAlloc.allocAll_append granted with ⟨middle, early, late⟩
    rcases first.reads early with ⟨noted, canonical, goesOn⟩
    rcases second.reads late with ⟨notedAfter, canonicalAfter, ends⟩
    refine ⟨notedAfter, canonicalAfter ∘ canonical, ?_⟩
    rw [append_assoc, goesOn]
    exact ends

/-- The tag of an object is taken off before its contents. -/
theorem tag {type : GglObjectType}
    {rest : ReadResult × ReadState σ → Except GglError (ReadLevel × ReadState σ)}
    (contents : Consumes allocator requests bytes
      (fun state => readContents allocator copyBufs count type state >>= rest) after) :
    Consumes allocator requests (type.tag :: bytes)
      (fun state => readObj allocator copyBufs count state >>= rest) after := by
  refine @trans _ _ [] _ [type.tag] _ _ _ _ (.of_eq fun granted => ?_) contents
  cases granted
  exact congrArg (· >>= rest) readObj_tag

end Consumes

mutual

/-- The loop reads the encoding of an object and stores the object in its level. -/
theorem readObj_complete :
    ∀ (obj : GglObject) (level : ReadLevel) (levels : List ReadLevel),
      obj.LengthsFit → obj.Int64s → levels.length + 1 + obj.openDepth ≤ maxObjectDepth →
      Consumes allocator (obj.requests copyBufs) obj.encode
        (fun state => readObj allocator copyBufs (levels.length + 1) state >>=
          resume allocator copyBufs level levels)
        (deserializeLoop allocator copyBufs (level.store obj) levels)
  | .null, level, levels, _, _, _ =>
    .tag <| .of_eq fun granted => by
      cases granted
      rfl
  | .boolean value, level, levels, _, _, _ => by
    refine .tag ⟨@fun _ _ _ booleans granted => ?_⟩
    cases granted
    refine ⟨(if value then 1 else 0) :: booleans, ?_, ?_⟩
    · intro canonical
      apply forall_mem_cons.mpr ⟨_, canonical⟩
      cases value with
      | false => exact .inl rfl
      | true => exact .inr rfl
    · have single : [(if value then 1 else 0 : UInt8)].length = 1 := rfl
      rw [readContents, readBool, bufTake_append single]
      cases value with
      | false | true => rfl
  | .i64 value, level, levels, _, int64, _ =>
    .tag <| .of_eq fun granted => by
      cases granted
      have fits : twosComplement 64 value < 256 ^ 8 := twosComplement_lt 64 value
      rw [readContents, readI64, bufTake_append (length_leBytes 8 _)]
      dsimp only [bind, Except.bind]
      rw [leNat_leBytes fits, ofTwosComplement_twosComplement int64]
      rfl
  | .f64 bits, level, levels, _, _, _ =>
    .tag <| .of_eq fun granted => by
      cases granted
      have fits : bits.toNat < 256 ^ 8 := bits.toNat_lt
      rw [readContents, readF64, bufTake_append (length_leBytes 8 _)]
      dsimp only [bind, Except.bind]
      rw [leNat_leBytes fits, UInt64.ofNat_toNat]
      rfl
  | .buf bytes, level, levels, short, _, _ =>
    .tag <| .of_eq fun granted => by
      rw [readContents, readBuf, readBufRaw_encodeBuf short granted]
      rfl
  | .list [], level, levels, _, _, _ =>
    .tag <| .of_eq fun granted => by
      cases granted
      rw [readContents, readList, append_assoc, length_nil, readContainer_zero]
      rfl
  | .list (item :: items), level, levels, fits, int64s, shallow => by
    rw [openDepth] at shallow
    have free : levels.length + 1 < maxObjectDepth := by omega
    refine .tag <| .trans (.of_eq fun array => ?_)
      (readItems_complete (item :: items) [] level levels fits.2 int64s
        (by rw [itemsOpenDepth]; omega))
    rw [readContents, readList, length_cons, readContainer_succ fits.1 free array]
    rfl
  | .map [], level, levels, _, _, _ =>
    .tag <| .of_eq fun granted => by
      cases granted
      rw [readContents, readMap, append_assoc, length_nil, readContainer_zero]
      rfl
  | .map ((key, value) :: pairs), level, levels, fits, int64s, shallow => by
    rw [openDepth] at shallow
    have free : levels.length + 1 < maxObjectDepth := by omega
    refine .tag <| .trans (.of_eq fun array => ?_)
      (readPairs_complete ((key, value) :: pairs) [] [] level levels fits.2 int64s
        (by rw [pairsOpenDepth]; omega))
    rw [readContents, readMap, length_cons, readContainer_succ fits.1 free array]
    rfl

theorem readItems_complete :
    ∀ (items before : List GglObject) (outer : ReadLevel) (levels : List ReadLevel),
      ItemsFit items → ItemsInt64s items →
      levels.length + 1 + 1 + itemsOpenDepth items ≤ maxObjectDepth →
      Consumes allocator (itemRequests copyBufs items) (encodeItems items)
        (deserializeLoop allocator copyBufs (.handlingObj before items.length) (outer :: levels))
        (deserializeLoop allocator copyBufs (outer.store (.list (before ++ items))) levels)
  | [], before, outer, levels, _, _, _ =>
    .of_eq fun granted => by
      cases granted
      rw [append_nil]
      exact deserializeLoop_end rfl
  | item :: items, before, outer, levels, fits, int64s, shallow => by
    rw [itemsOpenDepth] at shallow
    rw [length_cons, deserializeLoop_obj, append_cons before]
    exact (readObj_complete item (.handlingObj before items.length) (outer :: levels) fits.1
      int64s.1 (by rw [length_cons]; omega)).trans
        (readItems_complete items (before ++ [item]) outer levels fits.2 int64s.2 (by omega))

theorem readPairs_complete :
    ∀ (pairs before : GglMap) (lastKey : Buffer) (outer : ReadLevel) (levels : List ReadLevel),
      PairsFit pairs → PairsInt64s pairs →
      levels.length + 1 + 1 + pairsOpenDepth pairs ≤ maxObjectDepth →
      Consumes allocator (pairRequests copyBufs pairs) (encodePairs pairs)
        (deserializeLoop allocator copyBufs (.handlingKv before lastKey pairs.length)
          (outer :: levels))
        (deserializeLoop allocator copyBufs (outer.store (.map (before ++ pairs))) levels)
  | [], before, _, outer, levels, _, _, _ =>
    .of_eq fun granted => by
      cases granted
      rw [append_nil]
      exact deserializeLoop_end rfl
  | (key, value) :: pairs, before, _, outer, levels, fits, int64s, shallow => by
    rw [pairsOpenDepth] at shallow
    rw [length_cons, deserializeLoop_kv, append_cons before]
    refine .trans (.of_eq fun granted => ?_)
      ((readObj_complete value (.handlingKv before key pairs.length) (outer :: levels) fits.2.1
        int64s.1 (by rw [length_cons]; omega)).trans
          (readPairs_complete pairs (before ++ [(key, value)]) key outer levels fits.2.2 int64s.2
            (by omega)))
    rw [readBufRaw_encodeBuf fits.1 granted]
    rfl

end

/-- The encoding of an object that is within the limits of `ggl_deserialize` is read. -/
theorem gglDeserialize_encode {obj : GglObject} {memory left : σ} (fits : obj.LengthsFit)
    (int64s : obj.Int64s) (shallow : obj.openDepth < maxObjectDepth)
    (granted : allocator.allocAll memory (obj.requests copyBufs) = some left) :
    ∃ noted, CanonicalBooleans noted ∧
      gglDeserialize allocator (some memory) copyBufs obj.encode =
        .ok ⟨obj, some left, noted⟩ := by
  have first := @readObj_complete σ allocator copyBufs obj (.handlingObj [] 0) [] fits int64s
    (by rw [length_nil]; omega)
  rcases @first.reads [] _ _ [] granted with ⟨noted, canonical, read⟩
  refine ⟨noted, canonical (forall_mem_nil _), ?_⟩
  rw [append_nil] at read
  rw [gglDeserialize, deserializeLoop_obj]
  dsimp only
  rw [read]
  change (deserializeLoop allocator copyBufs (.handlingObj [obj] 0) [] _ >>= _) = _
  rw [deserializeLoop_last]
  rfl

end Reading

/-! ## What has been read -/

section Accepted

variable {σ : Type} {allocator : GglAlloc σ} {copyBufs : Bool} {state middle after : ReadState σ}
  {levels : List ReadLevel} {level : ReadLevel} {out : ReadLevel × ReadState σ}

/-- Between two moments, the bytes were taken off the buffer if the booleans among them
are canonical. -/
def Spelled (state after : ReadState σ) (bytes : Buffer) : Prop :=
  ∃ noted, after.booleans = noted ++ state.booleans ∧
    (CanonicalBooleans noted → state.buf = bytes ++ after.buf)

theorem Spelled.append {first second : Buffer} (spelled : Spelled state middle first)
    (follows : Spelled middle after second) : Spelled state after (first ++ second) := by
  rcases spelled with ⟨noted, notes, taken⟩
  rcases follows with ⟨later, laterNotes, laterTaken⟩
  refine ⟨later ++ noted, ?_, ?_⟩
  · rw [laterNotes, notes, append_assoc]
  · intro canonical
    have own : CanonicalBooleans noted :=
      fun byte member => canonical byte (mem_append_right _ member)
    have others : CanonicalBooleans later :=
      fun byte member => canonical byte (mem_append_left _ member)
    rw [taken own, laterTaken others, append_assoc]

theorem bufTake_spelled {n : Nat} {temp : Buffer} (took : bufTake n state = .ok (temp, after)) :
    Spelled state after temp := by
  rcases bufTake_eq_ok took with ⟨_, rfl⟩
  exact ⟨[], rfl, fun _ => rfl⟩

theorem bufTake_number {n : Nat} {temp : Buffer} (took : bufTake n state = .ok (temp, after)) :
    Spelled state after (leBytes n (leNat temp)) ∧ leNat temp < 256 ^ n := by
  have spelled := bufTake_spelled took
  rcases bufTake_eq_ok took with ⟨rfl, _⟩
  rw [leBytes_leNat]
  exact ⟨spelled, leNat_lt temp⟩

theorem allocate_spelled {alignment n : Nat} {result : Unit} {bytes : Buffer}
    (allocated : allocate allocator size alignment n middle = .ok (result, after))
    (spelled : Spelled state middle bytes) : Spelled state after bytes := by
  rcases allocate_eq_ok allocated with ⟨sameBuf, sameBooleans⟩
  rw [Spelled, sameBuf, sameBooleans]
  exact spelled

theorem readBufRaw_spelled {bytes : Buffer}
    (read : readBufRaw allocator copyBufs state = .ok (bytes, after)) :
    Spelled state after (encodeBuf bytes) ∧ bytes.length ≤ uint32Max := by
  rcases except_bind_eq_ok_iff.mp read with ⟨⟨temp, middle⟩, first, rest⟩
  rcases except_bind_eq_ok_iff.mp rest with ⟨⟨contents, last⟩, second, rest⟩
  rcases bufTake_number first with ⟨lengthSpelled, short⟩
  have spelled := lengthSpelled.append (bufTake_spelled second)
  have length : contents.length = leNat temp := (bufTake_eq_ok second).1
  dsimp only at rest
  split at rest
  · rcases except_bind_eq_ok_iff.mp rest with ⟨⟨_, allocated⟩, third, ended⟩
    cases ended
    rw [encodeBuf, length]
    exact ⟨allocate_spelled third spelled, Nat.le_of_lt_succ short⟩
  · cases rest
    rw [encodeBuf, length]
    exact ⟨spelled, Nat.le_of_lt_succ short⟩

theorem readContainer_spelled {empty : GglObject} {begin : Nat → ReadLevel}
    (read : readContainer allocator count size empty begin state = .ok (result, after)) :
    ∃ len, Spelled state after (leBytes 4 len) ∧ len ≤ uint32Max ∧
      (len = 0 ∧ result = .finished empty ∨
        0 < len ∧ count < maxObjectDepth ∧ result = .begun (begin len)) := by
  rcases except_bind_eq_ok_iff.mp read with ⟨⟨temp, middle⟩, first, rest⟩
  rcases bufTake_number first with ⟨spelled, short⟩
  refine ⟨leNat temp, ?_⟩
  dsimp only at rest
  split at rest
  next nonempty =>
    split at rest
    · cases rest
    · rcases except_bind_eq_ok_iff.mp rest with ⟨⟨_, allocated⟩, second, rest⟩
      split at rest
      · cases rest
      next free =>
        cases rest
        exact ⟨allocate_spelled second spelled, Nat.le_of_lt_succ short,
          .inr ⟨nonempty, Nat.lt_of_not_le free, rfl⟩⟩
  next isEmpty =>
    cases rest
    exact ⟨spelled, Nat.le_of_lt_succ short, .inl ⟨Nat.eq_zero_of_not_pos isEmpty, rfl⟩⟩

/-- A boolean byte that is canonical is the one of the boolean it is read as. -/
theorem readBool_spelled (read : readBool state = .ok (result, after)) :
    ∃ value : Bool, result = .finished (.boolean value) ∧
      Spelled state after [if value then 1 else 0] := by
  rcases except_bind_eq_ok_iff.mp read with ⟨⟨temp, last⟩, took, ended⟩
  rcases bufTake_eq_ok took with ⟨single, rfl⟩
  rcases length_eq_one_iff.mp single with ⟨byte, rfl⟩
  cases ended
  refine ⟨_, rfl, [byte], rfl, ?_⟩
  intro canonical
  rcases canonical byte mem_cons_self with rfl | rfl
  · rfl
  · rfl

/-- What a round of the loop has read when the loop goes on to end in `out`: an object,
which is then stored in the level. -/
def ReadsObj (allocator : GglAlloc σ) (copyBufs : Bool) (state : ReadState σ) (level : ReadLevel)
    (levels : List ReadLevel) (out : ReadLevel × ReadState σ) : Prop :=
  ∃ obj after, Spelled state after (encode obj) ∧ obj.LengthsFit ∧
    levels.length + 1 + obj.openDepth ≤ maxObjectDepth ∧
    deserializeLoop allocator copyBufs (level.store obj) levels after = .ok out

section Entries

variable {outer : ReadLevel}
  (each : ∀ {level state}, (readObj allocator copyBufs ((outer :: levels).length + 1) state >>=
      resume allocator copyBufs level (outer :: levels)) = .ok out →
    ReadsObj allocator copyBufs state level (outer :: levels) out)
  (bounded : (outer :: levels).length + 1 ≤ maxObjectDepth)

include each bounded

/-- The items of a list follow from what each of them is. -/
theorem readItems_sound :
    ∀ (remaining : Nat) (before : List GglObject) (state : ReadState σ),
      deserializeLoop allocator copyBufs (.handlingObj before remaining) (outer :: levels) state =
        .ok out →
      ∃ items after, Spelled state after (encodeItems items) ∧
        GglObject.ItemsFit items ∧ items.length = remaining ∧
        (outer :: levels).length + 1 + itemsOpenDepth items ≤ maxObjectDepth ∧
        deserializeLoop allocator copyBufs (outer.store (.list (before ++ items))) levels after =
          .ok out
  | 0, before, state, ended => by
    rw [deserializeLoop_end rfl] at ended
    refine ⟨[], state, ⟨[], rfl, fun _ => rfl⟩, trivial, rfl, bounded, ?_⟩
    rw [append_nil]
    exact ended
  | remaining + 1, before, state, ended => by
    rw [deserializeLoop_obj] at ended
    rcases each ended with ⟨item, middle, spelled, fits, shallow, rest⟩
    rcases readItems_sound remaining (before ++ [item]) middle rest with
      ⟨items, after, othersSpelled, othersFit, length, othersShallow, finished⟩
    refine ⟨item :: items, after, spelled.append othersSpelled, ⟨fits, othersFit⟩, ?_, ?_, ?_⟩
    · rw [length_cons, length]
    · rw [itemsOpenDepth]
      omega
    · rw [append_assoc] at finished
      exact finished

theorem readPairs_sound :
    ∀ (remaining : Nat) (before : GglMap) (lastKey : Buffer) (state : ReadState σ),
      deserializeLoop allocator copyBufs (.handlingKv before lastKey remaining) (outer :: levels)
        state = .ok out →
      ∃ pairs after, Spelled state after (encodePairs pairs) ∧
        GglObject.PairsFit pairs ∧ pairs.length = remaining ∧
        (outer :: levels).length + 1 + pairsOpenDepth pairs ≤ maxObjectDepth ∧
        deserializeLoop allocator copyBufs (outer.store (.map (before ++ pairs))) levels after =
          .ok out
  | 0, before, _, state, ended => by
    rw [deserializeLoop_end rfl] at ended
    refine ⟨[], state, ⟨[], rfl, fun _ => rfl⟩, trivial, rfl, bounded, ?_⟩
    rw [append_nil]
    exact ended
  | remaining + 1, before, _, state, ended => by
    rw [deserializeLoop_kv] at ended
    rcases except_bind_eq_ok_iff.mp ended with ⟨⟨key, keyed⟩, readKey, ended⟩
    rcases readBufRaw_spelled readKey with ⟨keySpelled, keyShort⟩
    rcases each ended with ⟨value, middle, spelled, fits, shallow, rest⟩
    rcases readPairs_sound remaining (before ++ [(key, value)]) key middle rest with
      ⟨pairs, after, othersSpelled, othersFit, length, othersShallow, finished⟩
    refine ⟨(key, value) :: pairs, after, keySpelled.append (spelled.append othersSpelled),
      ⟨keyShort, fits, othersFit⟩, ?_, ?_, ?_⟩
    · rw [length_cons, length]
    · rw [pairsOpenDepth]
      omega
    · rw [append_assoc] at finished
      exact finished

end Entries

/-- A scalar or an empty container that has been read. -/
theorem readsObj_of_finished {obj : GglObject} (bounded : levels.length + 1 ≤ maxObjectDepth)
    (ended : resume allocator copyBufs level levels (.finished obj, after) = .ok out)
    (spelled : Spelled state after obj.encode) (fits : obj.LengthsFit)
    (closed : obj.openDepth = 0) :
    ReadsObj allocator copyBufs state level levels out := by
  refine ⟨obj, after, spelled, fits, ?_, ended⟩
  rw [closed]
  exact bounded

/-- If the loop ends well it has read an object, provided that it does so one level
further in. -/
theorem readObj_sound_of_deeper (bounded : levels.length + 1 ≤ maxObjectDepth)
    (deeper : levels.length + 1 < maxObjectDepth → ∀ {inner state},
      (readObj allocator copyBufs ((level :: levels).length + 1) state >>=
        resume allocator copyBufs inner (level :: levels)) = .ok out →
      ReadsObj allocator copyBufs state inner (level :: levels) out)
    (ended : (readObj allocator copyBufs (levels.length + 1) state >>=
      resume allocator copyBufs level levels) = .ok out) :
    ReadsObj allocator copyBufs state level levels out := by
  rcases except_bind_eq_ok_iff.mp ended with ⟨⟨result, after⟩, read, rest⟩
  rcases readObj_eq_ok read with ⟨type, buf, tag, contents⟩
  have tagged : Spelled state { state with buf := buf } [type.tag] := ⟨[], rfl, fun _ => tag⟩
  cases type with
  | null =>
    cases contents
    exact readsObj_of_finished bounded rest tagged trivial rfl
  | boolean =>
    rcases readBool_spelled contents with ⟨value, rfl, spelled⟩
    exact readsObj_of_finished bounded rest (tagged.append spelled) trivial rfl
  | i64 =>
    rcases except_bind_eq_ok_iff.mp contents with ⟨⟨temp, last⟩, took, finished⟩
    cases finished
    rcases bufTake_number took with ⟨spelled, fits⟩
    apply readsObj_of_finished bounded rest _ trivial rfl
    rw [encode, twosComplement_ofTwosComplement fits]
    exact tagged.append spelled
  | f64 =>
    rcases except_bind_eq_ok_iff.mp contents with ⟨⟨temp, last⟩, took, finished⟩
    cases finished
    rcases bufTake_number took with ⟨spelled, fits⟩
    apply readsObj_of_finished bounded rest _ trivial rfl
    rw [encode, UInt64.toNat_ofNat_of_lt' fits]
    exact tagged.append spelled
  | buf =>
    rcases except_bind_eq_ok_iff.mp contents with ⟨⟨bytes, last⟩, readBytes, finished⟩
    cases finished
    rcases readBufRaw_spelled readBytes with ⟨spelled, short⟩
    exact readsObj_of_finished bounded rest (tagged.append spelled) short rfl
  | list =>
    rcases readContainer_spelled contents with
      ⟨len, spelled, short, ⟨rfl, rfl⟩ | ⟨nonempty, free, rfl⟩⟩
    · exact readsObj_of_finished bounded rest (tagged.append spelled) ⟨short, trivial⟩ rfl
    · rcases readItems_sound (deeper free) free len [] after rest with
        ⟨items, last, itemsSpelled, itemsFit, rfl, shallow, finished⟩
      refine ⟨.list items, last, tagged.append (spelled.append itemsSpelled), ⟨short, itemsFit⟩,
        ?_, finished⟩
      cases items with
      | nil => cases nonempty
      | cons item items =>
        rw [itemsOpenDepth, length_cons] at shallow
        rw [openDepth]
        omega
  | map =>
    rcases readContainer_spelled contents with
      ⟨len, spelled, short, ⟨rfl, rfl⟩ | ⟨nonempty, free, rfl⟩⟩
    · exact readsObj_of_finished bounded rest (tagged.append spelled) ⟨short, trivial⟩ rfl
    · rcases readPairs_sound (deeper free) free len [] [] after rest with
        ⟨pairs, last, pairsSpelled, pairsFit, rfl, shallow, finished⟩
      refine ⟨.map pairs, last, tagged.append (spelled.append pairsSpelled), ⟨short, pairsFit⟩,
        ?_, finished⟩
      cases pairs with
      | nil => cases nonempty
      | cons pair pairs =>
        rw [pairsOpenDepth, length_cons] at shallow
        rw [openDepth]
        omega

/-- The induction is on the number of levels that are free. -/
theorem readObj_sound (free : Nat) : ∀ {level levels state},
    levels.length + 1 + free = maxObjectDepth →
    (readObj allocator copyBufs (levels.length + 1) state >>=
      resume allocator copyBufs level levels) = .ok out →
    ReadsObj allocator copyBufs state level levels out := by
  induction free with
  | zero =>
    intro level levels state isFree ended
    apply readObj_sound_of_deeper (Nat.le_of_eq isFree) _ ended
    intro more
    exact absurd isFree (Nat.ne_of_lt more)
  | succ free ih =>
    intro level levels state isFree ended
    apply readObj_sound_of_deeper (Nat.le.intro isFree) _ ended
    intro _ inner state
    apply ih
    rw [length_cons]
    omega

/-- An object that was read is within the limits of `ggl_deserialize`; if the booleans in
it were canonical, it was read from its encoding. -/
theorem gglDeserialize_eq_ok {alloc : Option σ} {buf : Buffer} {read : Deserialized σ}
    (accepted : gglDeserialize allocator alloc copyBufs buf = .ok read) :
    read.obj.LengthsFit ∧ read.obj.openDepth < maxObjectDepth ∧
      (CanonicalBooleans read.booleans → buf = read.obj.encode) := by
  rcases except_bind_eq_ok_iff.mp accepted with ⟨⟨root, last⟩, looped, finished⟩
  rw [deserializeLoop_obj] at looped
  rcases readObj_sound 14 rfl looped with ⟨obj, after, spelled, fits, shallow, ended⟩
  change deserializeLoop allocator copyBufs (.handlingObj [obj] 0) [] after = _ at ended
  rw [deserializeLoop_last] at ended
  cases ended
  dsimp only at finished
  split at finished
  · cases finished
  next noTrail =>
    cases finished
    refine ⟨fits, ?_, ?_⟩
    · change obj.openDepth < maxObjectDepth
      omega
    · intro canonical
      rcases spelled with ⟨noted, notes, taken⟩
      rw [append_nil] at notes
      have all := taken (notes ▸ canonical)
      rw [length_eq_zero_iff.mp (not_not.mp noTrail), append_nil] at all
      exact all

end Accepted

/-! ## The round trips -/

/-- An object that was serialised is deserialised, when the allocator grants the memory it
takes. -/
theorem gglDeserialize_gglSerialize {σ : Type} (allocator : GglAlloc σ) (copyBufs : Bool)
    {obj : GglObject} {mem : Nat} {bytes : Buffer} {memory left : σ} (int64s : obj.Int64s)
    (serialized : gglSerialize obj mem = .ok bytes)
    (enough : allocator.allocAll memory (obj.requests copyBufs) = some left) :
    ∃ read, gglDeserialize allocator (some memory) copyBufs bytes = .ok read ∧ read.obj = obj := by
  rcases proceeds_gglSerialize.sound serialized with ⟨⟨fits, shallow⟩, ended⟩
  cases ended
  have openLt := Nat.lt_of_le_of_lt obj.openDepth_le_depth shallow
  rcases gglDeserialize_encode fits int64s openLt enough with ⟨noted, _, read⟩
  exact ⟨_, read, rfl⟩

/-- A map with a list in it. -/
def sampleObject : GglObject :=
  .map [(gglStr "k", .list [.i64 (-1), .boolean true, .f64 0, .buf (gglStr "x"), .list []])]

theorem gglDeserialize_gglSerialize_nested :
    ∃ read, gglDeserialize bumpAllocator (some (gglBumpAllocInit 256)) true sampleObject.encode =
      .ok read ∧ read.obj = sampleObject := by
  have fits : sampleObject.LengthsFit := by
    simp [sampleObject, GglObject.LengthsFit, GglObject.PairsFit, GglObject.ItemsFit, uint32Max,
      gglStr]
  have int64s : sampleObject.Int64s := by
    simp [sampleObject, GglObject.Int64s, GglObject.PairsInt64s, GglObject.ItemsInt64s, SignedFits]
  have serialized : gglSerialize sampleObject 64 = .ok sampleObject.encode :=
    proceeds_gglSerialize.complete (by decide) ⟨fits, by decide⟩ (by decide)
  exact gglDeserialize_gglSerialize bumpAllocator true int64s serialized rfl

/-- An object that was read can be forwarded as the bytes it was read from if and only if
it has less than fifteen nested containers, empty ones counted. -/
theorem forwarded_iff {σ : Type} (allocator : GglAlloc σ) (alloc : Option σ) (copyBufs : Bool)
    {bytes : Buffer} {read : Deserialized σ} (addressable : bytes.length < 2 ^ 64)
    (accepted : gglDeserialize allocator alloc copyBufs bytes = .ok read)
    (canonical : CanonicalBooleans read.booleans) :
    gglSerialize read.obj bytes.length = .ok bytes ↔ read.obj.depth < maxObjectDepth := by
  rcases gglDeserialize_eq_ok accepted with ⟨fits, _, spelled⟩
  constructor
  · intro serialized
    exact (proceeds_gglSerialize.sound serialized).1.2
  · intro shallow
    rw [spelled canonical] at addressable ⊢
    exact proceeds_gglSerialize.complete addressable ⟨fits, shallow⟩ (Nat.le_refl _)

/-- Lists in lists, the innermost one empty. -/
def nestedLists : Nat → GglObject
  | 0 => .list []
  | levels + 1 => .list [nestedLists levels]

theorem nestedLists_lengthsFit (levels : Nat) : (nestedLists levels).LengthsFit := by
  induction levels with
  | zero => exact ⟨Nat.zero_le _, trivial⟩
  | succ levels ih => exact ⟨Nat.le_add_left 1 _, ih, trivial⟩

theorem nestedLists_int64s (levels : Nat) : (nestedLists levels).Int64s := by
  induction levels with
  | zero => trivial
  | succ levels ih => exact ⟨ih, trivial⟩

/-- They are read, whether or not they can be written. -/
theorem nestedLists_read (levels : Nat) (shallow : (nestedLists levels).openDepth < maxObjectDepth)
    {left : BumpAlloc} (granted : bumpAllocator.allocAll (gglBumpAllocInit 1000)
      ((nestedLists levels).requests false) = some left) :
    ∃ read, gglDeserialize bumpAllocator (some (gglBumpAllocInit 1000)) false
        (nestedLists levels).encode = .ok read ∧ read.obj = nestedLists levels ∧
      CanonicalBooleans read.booleans := by
  rcases gglDeserialize_encode (nestedLists_lengthsFit levels) (nestedLists_int64s levels) shallow
    granted with ⟨noted, canonical, accepted⟩
  exact ⟨_, accepted, rfl, canonical⟩

theorem forwarded_iff_nested :
    ∃ read, gglDeserialize bumpAllocator (some (gglBumpAllocInit 1000)) false
        (nestedLists 13).encode = .ok read ∧
      (gglSerialize read.obj (nestedLists 13).encode.length = .ok (nestedLists 13).encode ↔
        read.obj.depth < maxObjectDepth) := by
  rcases nestedLists_read 13 (by decide) rfl with ⟨read, accepted, -, canonical⟩
  exact ⟨read, accepted, forwarded_iff bumpAllocator _ false (by decide) accepted canonical⟩

/-- Fourteen lists around an empty one are read and cannot be written. -/
theorem empty_list_not_forwarded :
    ∃ read, gglDeserialize bumpAllocator (some (gglBumpAllocInit 1000)) false
        (nestedLists 14).encode = .ok read ∧ CanonicalBooleans read.booleans ∧
      ∀ mem bytes, gglSerialize read.obj mem ≠ .ok bytes := by
  rcases nestedLists_read 14 (by decide) rfl with ⟨read, accepted, same, canonical⟩
  refine ⟨read, accepted, canonical, ?_⟩
  intro mem bytes serialized
  have tooDeep : ¬(nestedLists 14).depth < maxObjectDepth := by decide
  exact tooDeep (same ▸ (proceeds_gglSerialize.sound serialized).1.2)

end GreengrassLite
