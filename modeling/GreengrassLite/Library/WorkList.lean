import Mathlib.Data.List.Nodup

/-!
# Work lists of requirements

A solver chooses a value for every key of a work list.  A key may be demanded
several times: a demand on a key that has a value is checked, a demand on a
waiting key strengthens its requirement, and a demand on a new key appends it.
Whatever order the demands arrive in, a drained work list meets all of them, and
no key is ever chosen twice.
-/

namespace GreengrassLite.Library

open List

universe u v w

variable {κ : Type u} {β : Type v} {ρ : Type w}

/-- The keys with their chosen values, and the waiting keys with what is
required of them. -/
structure WorkList (κ : Type u) (β : Type v) (ρ : Type w) where
  chosen : List (κ × β)
  waiting : List (κ × ρ)

namespace WorkList

variable {satisfies : β → ρ → Prop} {work next : WorkList κ β ρ} {key : κ} {requirement : ρ}

/-- The keys in the order they are or will be chosen. -/
def keys (work : WorkList κ β ρ) : List κ :=
  work.chosen.map Prod.fst ++ work.waiting.map Prod.fst

/-- One demand is taken into account. -/
inductive Demand (satisfies : β → ρ → Prop) (work : WorkList κ β ρ) (key : κ)
    (requirement : ρ) : WorkList κ β ρ → Prop
  | check {value : β} : (key, value) ∈ work.chosen → satisfies value requirement →
      Demand satisfies work key requirement work
  | strengthen {before after : List (κ × ρ)} {old new : ρ} :
      work.waiting = before ++ (key, old) :: after →
      (∀ value, satisfies value new → satisfies value old ∧ satisfies value requirement) →
      Demand satisfies work key requirement ⟨work.chosen, before ++ (key, new) :: after⟩
  | add : key ∉ work.keys →
      Demand satisfies work key requirement ⟨work.chosen, work.waiting ++ [(key, requirement)]⟩

/-- Several demands are taken into account, one after the other. -/
inductive Demands (satisfies : β → ρ → Prop) :
    WorkList κ β ρ → List (κ × ρ) → WorkList κ β ρ → Prop
  | nil {work : WorkList κ β ρ} : Demands satisfies work [] work
  | cons {work middle next : WorkList κ β ρ} {key : κ} {requirement : ρ} {rest : List (κ × ρ)} :
      Demand satisfies work key requirement middle → Demands satisfies middle rest next →
      Demands satisfies work ((key, requirement) :: rest) next

/-- The first waiting key gets a value. -/
inductive Choose (satisfies : β → ρ → Prop) (key : κ) (value : β) :
    WorkList κ β ρ → WorkList κ β ρ → Prop
  | first {chosen : List (κ × β)} {rest : List (κ × ρ)} {requirement : ρ} :
      satisfies value requirement →
      Choose satisfies key value ⟨chosen, (key, requirement) :: rest⟩
        ⟨chosen ++ [(key, value)], rest⟩

/-- A run until nothing waits: each choice brings its own demands. -/
inductive Drains (satisfies : β → ρ → Prop) (demanded : κ → β → List (κ × ρ)) :
    WorkList κ β ρ → WorkList κ β ρ → Prop
  | done {chosen : List (κ × β)} : Drains satisfies demanded ⟨chosen, []⟩ ⟨chosen, []⟩
  | round {work middle next final : WorkList κ β ρ} {key : κ} {value : β} :
      Choose satisfies key value work middle →
      Demands satisfies middle (demanded key value) next →
      Drains satisfies demanded next final → Drains satisfies demanded work final

/-- A demand is met by the value of the key, or will be by any value its
requirement admits. -/
def Meets (satisfies : β → ρ → Prop) (work : WorkList κ β ρ) (key : κ) (requirement : ρ) : Prop :=
  (∃ value, (key, value) ∈ work.chosen ∧ satisfies value requirement) ∨
    ∃ current, (key, current) ∈ work.waiting ∧
      ∀ value, satisfies value current → satisfies value requirement

section

variable (demand : Demand satisfies work key requirement next)

include demand

theorem Demand.chosen_eq : next.chosen = work.chosen := by
  cases demand with
  | check | strengthen | add => rfl

/-- A demand appends at most its own key, and only if it is new. -/
theorem Demand.keys_eq :
    next.keys = work.keys ∨ (key ∉ work.keys ∧ next.keys = work.keys ++ [key]) := by
  cases demand with
  | check chosen satisfied => exact .inl rfl
  | strengthen split stronger =>
    apply Or.inl
    simp [keys, split]
  | add fresh =>
    apply Or.inr
    exact ⟨fresh, by simp [keys]⟩

theorem Demand.keys_prefix_keys : work.keys <+: next.keys := by
  rcases demand.keys_eq with same | ⟨_, added⟩
  · exact same ▸ prefix_rfl
  · exact added ▸ prefix_append _ _

theorem Demand.nodup_keys (distinct : work.keys.Nodup) : next.keys.Nodup := by
  rcases demand.keys_eq with same | ⟨fresh, added⟩
  · rwa [same]
  · rw [added, ← concat_eq_append]
    exact distinct.concat fresh

/-- A demand is met once it was taken into account. -/
theorem Demand.meets : Meets satisfies next key requirement := by
  cases demand with
  | check chosen satisfied => exact .inl ⟨_, chosen, satisfied⟩
  | strengthen split stronger =>
    exact .inr ⟨_, by simp, fun value satisfied => (stronger value satisfied).2⟩
  | add fresh => exact .inr ⟨_, by simp, fun value satisfied => satisfied⟩

/-- A demand keeps every demand met that was met before. -/
theorem Demand.meets_of_meets {other : κ} {demanded : ρ}
    (met : Meets satisfies work other demanded) : Meets satisfies next other demanded := by
  rcases met with ⟨value, chosen, satisfied⟩ | ⟨current, waiting, enough⟩
  · apply Or.inl
    rw [demand.chosen_eq]
    exact ⟨value, chosen, satisfied⟩
  · cases demand with
    | check chosen satisfied => exact .inr ⟨current, waiting, enough⟩
    | add fresh => exact .inr ⟨current, mem_append_left _ waiting, enough⟩
    | @strengthen before after old new split stronger =>
      rw [split, mem_append, mem_cons] at waiting
      rcases waiting with early | same | late
      · exact .inr ⟨current, mem_append_left _ early, enough⟩
      · -- The strengthened entry itself: the new requirement implies the old one.
        cases same
        exact .inr ⟨new, by simp, fun value satisfied =>
          enough value (stronger value satisfied).1⟩
      · exact .inr ⟨current, by simp [late], enough⟩

end

section Demands

variable {demands : List (κ × ρ)}

section

variable (run : Demands satisfies work demands next)

include run

theorem Demands.chosen_eq : next.chosen = work.chosen := by
  induction run with
  | nil => rfl
  | cons demand _ ih => rw [ih, demand.chosen_eq]

theorem Demands.keys_prefix_keys : work.keys <+: next.keys := by
  induction run with
  | nil => exact prefix_rfl
  | cons demand _ ih => exact demand.keys_prefix_keys.trans ih

theorem Demands.nodup_keys (distinct : work.keys.Nodup) : next.keys.Nodup := by
  induction run with
  | nil => exact distinct
  | cons demand _ ih => exact ih (demand.nodup_keys distinct)

theorem Demands.meets_of_meets (met : Meets satisfies work key requirement) :
    Meets satisfies next key requirement := by
  induction run with
  | nil => exact met
  | cons demand _ ih => exact ih (demand.meets_of_meets met)

/-- Every demand is met once all were taken into account. -/
theorem Demands.meets (member : (key, requirement) ∈ demands) :
    Meets satisfies next key requirement := by
  induction run with
  | nil => cases member
  | cons demand rest ih =>
    rcases mem_cons.mp member with same | later
    · cases same
      exact rest.meets_of_meets demand.meets
    · exact ih later

end

end Demands

section Choose

variable {value : β} {picked : κ}

section

variable (choose : Choose satisfies picked value work next)

include choose

theorem Choose.keys_eq : next.keys = work.keys := by
  cases choose with
  | first satisfied => simp [keys]

theorem Choose.chosen_eq : next.chosen = work.chosen ++ [(picked, value)] := by
  cases choose with
  | first satisfied => rfl

/-- A choice keeps every demand met. -/
theorem Choose.meets_of_meets (met : Meets satisfies work key requirement) :
    Meets satisfies next key requirement := by
  cases choose with
  | first satisfied =>
    rcases met with ⟨other, member, fits⟩ | ⟨current, waiting, enough⟩
    · exact .inl ⟨other, mem_append_left _ member, fits⟩
    · rcases mem_cons.mp waiting with same | later
      · cases same
        exact .inl ⟨value, by simp, enough value satisfied⟩
      · exact .inr ⟨current, later, enough⟩

end

end Choose

/-- On a drained work list a met demand has a value that satisfies it. -/
theorem Meets.of_drained (met : Meets satisfies work key requirement)
    (drained : work.waiting = []) :
    ∃ value, (key, value) ∈ work.chosen ∧ satisfies value requirement := by
  rcases met with chosen | ⟨current, waiting, _⟩
  · exact chosen
  · rw [drained] at waiting
    cases waiting

section Drains

variable {demanded : κ → β → List (κ × ρ)} {final : WorkList κ β ρ}

section

variable (run : Drains satisfies demanded work final)

include run

theorem Drains.waiting_eq_nil : final.waiting = [] := by
  induction run with
  | done => rfl
  | round _ _ _ ih => exact ih

/-- Every key of a drained work list is chosen. -/
theorem Drains.keys_eq : final.keys = final.chosen.map Prod.fst := by
  rw [keys, run.waiting_eq_nil, map_nil, append_nil]

/-- The keys of a drained work list begin with those it started from. -/
theorem Drains.keys_prefix_keys : work.keys <+: final.keys := by
  induction run with
  | done => exact prefix_rfl
  | round choose demands _ ih =>
    rw [← choose.keys_eq]
    exact demands.keys_prefix_keys.trans ih

/-- No key is chosen twice. -/
theorem Drains.nodup_keys (distinct : work.keys.Nodup) : final.keys.Nodup := by
  induction run with
  | done => exact distinct
  | round choose demands _ ih =>
    apply ih
    apply demands.nodup_keys
    rwa [choose.keys_eq]

theorem Drains.meets_of_meets (met : Meets satisfies work key requirement) :
    Meets satisfies final key requirement := by
  induction run with
  | done => exact met
  | round choose demands _ ih => exact ih (demands.meets_of_meets (choose.meets_of_meets met))

/-- The demands of every value that was chosen in the run are met. -/
theorem Drains.meets {picked : κ} {value : β} (chosen : (picked, value) ∈ final.chosen)
    (fresh : (picked, value) ∉ work.chosen) (member : (key, requirement) ∈ demanded picked value) :
    Meets satisfies final key requirement := by
  induction run with
  | done => exact absurd chosen fresh
  | @round work middle next final choice choiceValue choose demands rest ih =>
    by_cases here : (picked, value) = (choice, choiceValue)
    · cases here
      exact rest.meets_of_meets (demands.meets member)
    · apply ih chosen
      rw [demands.chosen_eq, choose.chosen_eq, mem_append, mem_singleton]
      rintro (before | same)
      · exact fresh before
      · exact here same

end

end Drains

end WorkList

end GreengrassLite.Library
