import GreengrassLite.Core.Base64
import GreengrassLite.Core.Vector
import GreengrassLite.Library.Run
import Mathlib.Data.List.Nodup

/-!
# The component registry of the IPC server

`ggipcd/src/ipc_components.c` gives every component a handle, counted from one,
and a secret, the SVCUID.  A client without a secret is named after the systemd
unit of its process and gets the secret of that name; a client with a secret is
the component it belongs to.

The name is taken from the unit as `ggl_ipc_auth_lookup_name` does.  What
systemd says about a process and what the random source answers are inputs.  A
new entry is counted and named before its secret is drawn, so a failure of the
random source leaves it behind with whatever was drawn.
-/

namespace GreengrassLite

open Library List

/-- `GGL_IPC_SVCUID_LEN`. -/
def svcuidLength : Nat :=
  16

/-- `SVCUID_BIN_LEN`. -/
def svcuidBinLength : Nat :=
  svcuidLength / 4 * 3

/-- `MAX_COMPONENT_NAME_LENGTH`. -/
def maxComponentNameLength : Nat :=
  128

/-- `GGL_MAX_GENERIC_COMPONENTS`. -/
def maxGenericComponents : Nat :=
  50

/-- The binary form of a secret. -/
abbrev Svcuid :=
  { bytes : Buffer // bytes.length = svcuidBinLength }

/-- A row of `component_names` and `svcuids`. -/
structure ComponentEntry where
  name : Buffer
  svcuid : Svcuid
  short : name.length < maxComponentNameLength
  deriving DecidableEq

/-- The rows below `registered_components`; row `i` has the handle `i + 1`. -/
abbrev IpcComponents :=
  Vec ComponentEntry maxGenericComponents

/-- What `ggl_rand_fill` does: it fills the buffer, or fails after it has read
some bytes. -/
inductive RandomFill where
  | filled (bytes : Svcuid)
  | failed (error : GglError) (gathered : Buffer)

/-- The array of a new entry, zero at first, after a failed fill. -/
def leftBehind (gathered : Buffer) : Svcuid :=
  ⟨(gathered ++ replicate svcuidBinLength 0).take svcuidBinLength, by simp⟩

/-- A name without an extension, if it has one and something before it. -/
def stripExtension (extension name : Buffer) : Option Buffer :=
  if name.length ≤ extension.length then
    none
  else if name.drop (name.length - extension.length) ≠ extension then
    none
  else
    some (name.take (name.length - extension.length))

/-- `ggl_ipc_auth_lookup_name` into a buffer for a component name, given what
`sd_pid_get_unit` found. -/
def gglIpcAuthLookupName (unitName : Option Buffer) : Except GglError Buffer :=
  match unitName with
  | none => .error .noentry
  | some name =>
    match stripExtension (gglStr ".service") name with
    | none => .error .noentry
    | some name =>
      let name := (stripExtension (gglStr ".install") name).getD name
      if name.take 4 ≠ gglStr "ggl." then
        .error .noentry
      else
        let name := name.drop 4
        if maxComponentNameLength < name.length then
          .error .nomem
        else
          .ok name

section

variable (components : IpcComponents)

/-- `ggl_ipc_components_get_name`; the handle of a component is never zero. -/
def gglIpcComponentsGetName (handle : Nat) : Option Buffer :=
  if handle = 0 then
    none
  else
    components.items[handle - 1]?.map ComponentEntry.name

/-- The loops over the entries: the handle and the entry of the first match. -/
def findComponent (accepts : ComponentEntry → Bool) :
    Nat → List ComponentEntry → Option (Nat × ComponentEntry)
  | _, [] => none
  | handle, entry :: rest =>
    if accepts entry then some (handle, entry) else findComponent accepts (handle + 1) rest

/-- `ggl_ipc_components_get_handle` with authentication enabled. -/
def gglIpcComponentsGetHandle (svcuid : Buffer) : Except GglError Nat :=
  if svcuid.length ≠ svcuidLength then
    .error .invalid
  else
    match gglBase64Decode svcuid svcuidBinLength with
    | none => .error .invalid
    | some decoded =>
      match findComponent (fun entry => entry.svcuid.1 = decoded) 1 components.items with
      | none => .error .noentry
      | some (handle, _) => .ok handle

/-- `get_svcuid`. -/
def getSvcuid (entry : ComponentEntry) : Buffer :=
  gglBase64Encode entry.svcuid.1

/-- The registry with one more component. -/
def IpcComponents.add (entry : ComponentEntry)
    (room : components.items.length < maxGenericComponents) : IpcComponents :=
  ⟨components.items ++ [entry], by
    rw [length_append]
    exact room⟩

/-- `ggl_ipc_components_register` with authentication enabled: the handle and
the secret of the component.  `none` is the failed assertion of
`set_component_name` on a name that fills its whole buffer. -/
def gglIpcComponentsRegister (unitName : Option Buffer) (random : RandomFill) :
    Option (Except GglError (Nat × Buffer) × IpcComponents) :=
  match gglIpcAuthLookupName unitName with
  | .error error => some (.error error, components)
  | .ok name =>
    match findComponent (fun entry => entry.name = name) 1 components.items with
    | some (handle, entry) => some (.ok (handle, getSvcuid entry), components)
    | none =>
      if room : components.items.length < maxGenericComponents then
        if short : name.length < maxComponentNameLength then
          match random with
          | .filled bytes =>
            let entry : ComponentEntry := ⟨name, bytes, short⟩
            some (.ok (components.items.length + 1, getSvcuid entry),
              components.add entry room)
          | .failed _ gathered =>
            some (.error .fatal,
              components.add ⟨name, leftBehind gathered, short⟩ room)
        else
          none
      else
        some (.error .nomem, components)

end

/-! ## What the calls can do -/

section Specifications

variable {components next : IpcComponents} {unitName : Option Buffer} {random : RandomFill}
  {result : Except GglError (Nat × Buffer)} {name svcuid : Buffer}
  {accepts : ComponentEntry → Bool} {entries : List ComponentEntry}

@[simp]
theorem findComponent_eq_none_iff {handle : Nat} :
    findComponent accepts handle entries = none ↔ ∀ entry ∈ entries, ¬accepts entry := by
  induction entries generalizing handle with
  | nil => simp [findComponent]
  | cons entry rest ih =>
    by_cases accepted : accepts entry
    · simp [findComponent, accepted]
    · simp [findComponent, accepted, ih]

theorem findComponent_eq_some {handle found : Nat} {entry : ComponentEntry}
    (matched : findComponent accepts handle entries = some (found, entry)) :
    ∃ index, found = index + handle ∧ entries[index]? = some entry ∧ accepts entry := by
  induction entries generalizing handle with
  | nil => cases matched
  | cons first rest ih =>
    rw [findComponent] at matched
    split at matched
    next accepted =>
      cases matched
      exact ⟨0, (Nat.zero_add _).symm, rfl, accepted⟩
    · rcases ih matched with ⟨index, counted, located, accepted⟩
      refine ⟨index + 1, ?_, located, accepted⟩
      rw [counted, Nat.add_assoc, Nat.add_comm 1]

/-- The names in use. -/
def IpcComponents.names (components : IpcComponents) : List Buffer :=
  components.items.map ComponentEntry.name

@[simp]
theorem findComponent_name_eq_none_iff :
    findComponent (fun entry => entry.name = name) 1 components.items = none ↔
      name ∉ components.names := by
  rw [findComponent_eq_none_iff, IpcComponents.names]
  simp

/-- The outcomes of a registration. -/
inductive Registers (components : IpcComponents) (unitName : Option Buffer) :
    RandomFill → Except GglError (Nat × Buffer) → IpcComponents → Prop
  | unknown {random : RandomFill} {error : GglError} :
      gglIpcAuthLookupName unitName = .error error →
      Registers components unitName random (.error error) components
  | existing {random : RandomFill} {name : Buffer} {index : Nat} {entry : ComponentEntry} :
      gglIpcAuthLookupName unitName = .ok name → components.items[index]? = some entry →
      entry.name = name →
      Registers components unitName random (.ok (index + 1, getSvcuid entry)) components
  | full {random : RandomFill} {name : Buffer} :
      gglIpcAuthLookupName unitName = .ok name →
      ¬components.items.length < maxGenericComponents →
      Registers components unitName random (.error .nomem) components
  | created {bytes : Svcuid} {name : Buffer} (short : name.length < maxComponentNameLength)
      (room : components.items.length < maxGenericComponents) :
      gglIpcAuthLookupName unitName = .ok name → name ∉ components.names →
      Registers components unitName (.filled bytes)
        (.ok (components.items.length + 1, gglBase64Encode bytes.1))
        (components.add ⟨name, bytes, short⟩ room)
  | abandoned {error : GglError} {gathered name : Buffer}
      (short : name.length < maxComponentNameLength)
      (room : components.items.length < maxGenericComponents) :
      gglIpcAuthLookupName unitName = .ok name → name ∉ components.names →
      Registers components unitName (.failed error gathered) (.error .fatal)
        (components.add ⟨name, leftBehind gathered, short⟩ room)

theorem registers_of_gglIpcComponentsRegister
    (registered : gglIpcComponentsRegister components unitName random = some (result, next)) :
    Registers components unitName random result next := by
  revert registered
  fun_cases gglIpcComponentsRegister components unitName random <;> rintro ⟨⟩
  case case1 lookedUp => exact .unknown lookedUp
  case case2 name lookedUp handle entry matched =>
    rcases findComponent_eq_some matched with ⟨index, rfl, located, same⟩
    exact .existing lookedUp located (of_decide_eq_true same)
  case case3 name lookedUp missing room short _ _ =>
    exact .created short room lookedUp (findComponent_name_eq_none_iff.mp missing)
  case case4 name lookedUp missing room short _ _ =>
    exact .abandoned short room lookedUp (findComponent_name_eq_none_iff.mp missing)
  case case6 name lookedUp missing crowded => exact .full lookedUp crowded

/-- A secret is accepted as a component exactly when it encodes the bytes of an
entry; the first such entry is the component. -/
theorem gglIpcComponentsGetHandle_eq_ok {handle : Nat}
    (accepted : gglIpcComponentsGetHandle components svcuid = .ok handle) :
    ∃ index entry, handle = index + 1 ∧ components.items[index]? = some entry ∧
      svcuid = gglBase64Encode entry.svcuid.1 := by
  revert accepted
  fun_cases gglIpcComponentsGetHandle components svcuid <;> rintro ⟨⟩
  case case4 _ decoded decodes entry matched =>
    rcases findComponent_eq_some matched with ⟨index, counted, located, same⟩
    refine ⟨index, entry, counted, located, ?_⟩
    rw [(gglBase64Decode_eq_some_iff.mp decodes).1, of_decide_eq_true same]

end Specifications

/-! ## Runs of the registry -/

/-- A call of the registry with the answers of systemd and the random source. -/
inductive RegistryCall where
  | register (unitName : Option Buffer) (random : RandomFill)
  | getHandle (svcuid : Buffer)

/-- A call is labelled with the registry it finds. -/
abbrev RegistryEvent :=
  IpcComponents × RegistryCall

/-- The calls that return. -/
inductive RegistryStep : IpcComponents → RegistryEvent → IpcComponents → Prop
  | register {components next : IpcComponents} {unitName : Option Buffer} {random : RandomFill}
      {result : Except GglError (Nat × Buffer)} :
      gglIpcComponentsRegister components unitName random = some (result, next) →
      RegistryStep components (components, .register unitName random) next
  | getHandle {components : IpcComponents} (svcuid : Buffer) :
      RegistryStep components (components, .getHandle svcuid) components

/-- The random source fails for a component that is not registered yet and
still fits. -/
def AbandonsEntry : RegistryEvent → Prop
  | (components, .register unitName (.failed _ _)) =>
    ∃ name, gglIpcAuthLookupName unitName = .ok name ∧ name ∉ components.names ∧
      components.items.length < maxGenericComponents
  | _ => False

/-- The call drew the secret `bytes` for the new component `handle`. -/
def GeneratesFor (handle : Nat) (bytes : Buffer) : RegistryEvent → Prop
  | (components, .register unitName (.filled drawn)) =>
    drawn.1 = bytes ∧ handle = components.items.length + 1 ∧
      ∃ svcuid next, gglIpcComponentsRegister components unitName (.filled drawn)
        = some (.ok (handle, svcuid), next)
  | _ => False

/-- A registration that returns an error leaves the registry as it was. -/
def KeepsOnError : RegistryEvent → Prop
  | (components, .register unitName random) =>
    ∀ {error next}, gglIpcComponentsRegister components unitName random
      = some (.error error, next) → next = components
  | (_, .getHandle _) => True

/-- Every secret that is accepted was drawn for the component it is accepted
as. -/
def SecretsDrawn (history : List RegistryEvent) (components : IpcComponents) : Prop :=
  ∀ {svcuid handle}, gglIpcComponentsGetHandle components svcuid = .ok handle →
    ∃ bytes event, svcuid = gglBase64Encode bytes ∧ event ∈ history ∧
      GeneratesFor handle bytes event

section Runs

variable {components next : IpcComponents} {event : RegistryEvent} {history : List RegistryEvent}

/-- Names stay distinct, also when the random source fails. -/
theorem RegistryStep.names_nodup (step : RegistryStep components event next)
    (distinct : components.names.Nodup) : next.names.Nodup := by
  cases step with
  | getHandle svcuid => exact distinct
  | register registered =>
    cases registers_of_gglIpcComponentsRegister registered with
    | unknown | existing | full => exact distinct
    | created _ _ _ fresh | abandoned _ _ _ fresh =>
      rw [IpcComponents.names, IpcComponents.add, map_append]
      exact nodup_append_comm.mp (nodup_cons.mpr ⟨fresh, distinct⟩)

/-- Every entry has a secret that was drawn for it. -/
def EntriesDrawn (history : List RegistryEvent) (components : IpcComponents) : Prop :=
  ∀ {index entry}, components.items[index]? = some entry →
    ∃ event ∈ history, GeneratesFor (index + 1) entry.svcuid.1 event

theorem EntriesDrawn.secretsDrawn (drawn : EntriesDrawn history components) :
    SecretsDrawn history components := by
  intro svcuid handle accepted
  rcases gglIpcComponentsGetHandle_eq_ok accepted with ⟨index, entry, rfl, located, encodes⟩
  rcases drawn located with ⟨event, occurred, generates⟩
  exact ⟨entry.svcuid.1, event, encodes, occurred, generates⟩

theorem EntriesDrawn.mono (drawn : EntriesDrawn history components) :
    EntriesDrawn (event :: history) components := by
  intro index entry located
  rcases drawn located with ⟨event, occurred, generates⟩
  exact ⟨event, mem_cons_of_mem _ occurred, generates⟩

/-- A step that abandons no entry draws the secret of the entry it adds. -/
theorem RegistryStep.entriesDrawn (step : RegistryStep components event next)
    (kept : ¬AbandonsEntry event) (drawn : EntriesDrawn history components) :
    EntriesDrawn (event :: history) next := by
  cases step with
  | getHandle svcuid => exact drawn.mono
  | register registered =>
    cases registers_of_gglIpcComponentsRegister registered with
    | unknown | existing | full => exact drawn.mono
    | created short room lookedUp fresh =>
      intro index entry located
      rw [IpcComponents.add, getElem?_append] at located
      split at located
      · exact drawn.mono located
      next beyond =>
        rw [getElem?_singleton] at located
        split at located
        next last =>
          cases located
          have position : index = components.items.length := by omega
          subst position
          exact ⟨_, mem_cons_self, rfl, rfl, _, _, registered⟩
        · cases located
    | abandoned short room lookedUp fresh => exact absurd ⟨_, lookedUp, fresh, room⟩ kept

/-- A registration that abandons an entry fails, and the entry stays. -/
theorem Registers.of_abandonsEntry {unitName : Option Buffer} {random : RandomFill}
    {result : Except GglError (Nat × Buffer)}
    (registers : Registers components unitName random result next)
    (abandons : AbandonsEntry (components, .register unitName random)) :
    result = .error .fatal ∧ next ≠ components := by
  cases random with
  | filled bytes => exact abandons.elim
  | failed error gathered =>
    rcases abandons with ⟨name, named, fresh, room⟩
    cases registers with
    | unknown lookedUp =>
      rw [lookedUp] at named
      cases named
    | existing lookedUp located same =>
      rw [lookedUp] at named
      cases named
      exact absurd (mem_map.mpr ⟨_, mem_of_getElem? located, same⟩) fresh
    | full lookedUp crowded => exact absurd room crowded
    | abandoned short room lookedUp fresh =>
      refine ⟨rfl, fun same => ?_⟩
      have lengths := congrArg (fun registry : IpcComponents => registry.items.length) same
      simp [IpcComponents.add] at lengths

/-- A registration keeps the registry on an error exactly when it abandons no
entry. -/
theorem RegistryStep.keepsOnError_iff (step : RegistryStep components event next) :
    KeepsOnError event ↔ ¬AbandonsEntry event := by
  cases step with
  | getHandle svcuid => simp [KeepsOnError, AbandonsEntry]
  | register registered =>
    constructor
    · intro keeps abandons
      rcases (registers_of_gglIpcComponentsRegister registered).of_abandonsEntry abandons with
        ⟨rfl, changed⟩
      exact changed (keeps registered)
    · intro kept error after failed
      cases registers_of_gglIpcComponentsRegister failed with
      | unknown | full => rfl
      | abandoned short room lookedUp fresh => exact absurd ⟨_, lookedUp, fresh, room⟩ kept

/-- The registry before the first call. -/
def noComponents : IpcComponents :=
  Vec.empty ComponentEntry maxGenericComponents

/-- In every run the names are distinct, every accepted secret was drawn for its
component and failed registrations change nothing, exactly when the random
source never fails for a new component. -/
theorem registry_sound_iff (run : Run RegistryStep noComponents history components) :
    (components.names.Nodup ∧ SecretsDrawn history components ∧
        ∀ event ∈ history, KeepsOnError event) ↔
      ∀ event ∈ history, ¬AbandonsEntry event := by
  constructor
  · rintro ⟨_, _, keeps⟩ event occurred
    rcases run.exists_step occurred with ⟨before, after, step⟩
    exact step.keepsOnError_iff.mp (keeps event occurred)
  · intro kept
    refine ⟨?_, ?_, ?_⟩
    · apply run.invariant fun _ components => components.names.Nodup
      · exact nodup_nil
      · intro _ _ _ _ distinct step
        exact step.names_nodup distinct
    · apply EntriesDrawn.secretsDrawn
      apply run.invariant_of_forall (fun event => ¬AbandonsEntry event) @EntriesDrawn
      · intro index entry located
        cases located
      · intro _ _ _ _ kept drawn step
        exact step.entriesDrawn kept drawn
      · exact kept
    · intro event occurred
      rcases run.exists_step occurred with ⟨before, after, step⟩
      exact step.keepsOnError_iff.mpr (kept event occurred)

/-- The secret that draws nothing but zeros. -/
def zeroSvcuid : Svcuid :=
  ⟨replicate svcuidBinLength 0, by decide⟩

/-- The unit of a component and the call that registers it. -/
def exampleUnit : Option Buffer :=
  some (gglStr "ggl.com.example.service")

def exampleEntry (svcuid : Svcuid) : ComponentEntry :=
  ⟨gglStr "com.example", svcuid, by decide⟩

theorem register_exampleUnit (bytes : Svcuid) :
    gglIpcComponentsRegister noComponents exampleUnit (.filled bytes)
      = some (.ok (1, gglBase64Encode bytes.1),
          noComponents.add (exampleEntry bytes) (by decide)) := by
  rfl

/-- A component whose secret is drawn is registered soundly. -/
theorem registry_sound_example :
    SecretsDrawn [(noComponents, .register exampleUnit (.filled zeroSvcuid))]
      (noComponents.add (exampleEntry zeroSvcuid) (by decide)) :=
  ((registry_sound_iff (.tail .refl (.register (register_exampleUnit zeroSvcuid)))).mpr
    (by simp [AbandonsEntry])).2.1

/-- After a failure of the random source the registry has changed, and the
secret of zeros is accepted although none was drawn. -/
theorem failed_draw_accepts_zeros :
    ∃ components, Run RegistryStep noComponents
        [(noComponents, .register exampleUnit (.failed .nodata []))] components ∧
      gglIpcComponentsRegister noComponents exampleUnit (.failed .nodata [])
        = some (.error .fatal, components) ∧
      components ≠ noComponents ∧
      gglIpcComponentsGetHandle components (gglStr "AAAAAAAAAAAAAAAA") = .ok 1 ∧
      ¬SecretsDrawn [(noComponents, .register exampleUnit (.failed .nodata []))] components := by
  have accepted : gglIpcComponentsGetHandle
      (noComponents.add (exampleEntry (leftBehind [])) (by decide)) (gglStr "AAAAAAAAAAAAAAAA")
      = .ok 1 := by
    decide +kernel
  refine ⟨_, .tail .refl (.register rfl), rfl, ?_, accepted, ?_⟩
  · intro same
    have lengths := congrArg (fun registry : IpcComponents => registry.items.length) same
    cases lengths
  · intro drawn
    rcases drawn accepted with ⟨bytes, event, _, occurred, generates⟩
    cases mem_singleton.mp occurred
    exact generates

end Runs

end GreengrassLite
