import Mathlib.Data.List.Basic

/-!
# Runs and their histories

A system is a labelled step relation.  A run keeps the labels of its steps, the
latest first, so that what happened after an event is what stands before it in
the history.  Invariants may speak about the history as well as the state.
-/

namespace GreengrassLite.Library

open List

universe u v

variable {σ : Type u} {ε : Type v}

/-- The states reached from `start`, each with the labels of the steps that lead
to it. -/
inductive Run (step : σ → ε → σ → Prop) (start : σ) : List ε → σ → Prop
  | refl : Run step start [] start
  | tail {history state next event} :
      Run step start history state → step state event next →
      Run step start (event :: history) next

/-- `event` occurred in the history, and `since` occurred after it. -/
def Since (history : List ε) (event : ε) (since : List ε) : Prop :=
  ∃ earlier, history = since ++ event :: earlier

theorem not_since_nil {event : ε} {since : List ε} : ¬Since [] event since := by
  rintro ⟨earlier, split⟩
  cases since with
  | nil | cons => cases split

/-- After one more event, an event is the new one or an older one. -/
@[simp]
theorem since_cons_iff {history since : List ε} {event latest : ε} :
    Since (latest :: history) event since ↔
      (since = [] ∧ event = latest) ∨
        ∃ older, since = latest :: older ∧ Since history event older := by
  constructor
  · rintro ⟨earlier, split⟩
    cases since with
    | nil =>
      left
      cases split
      exact ⟨rfl, rfl⟩
    | cons first older =>
      right
      cases split
      exact ⟨older, rfl, earlier, rfl⟩
  · rintro (⟨rfl, rfl⟩ | ⟨older, rfl, earlier, rfl⟩)
    · exact ⟨history, rfl⟩
    · exact ⟨earlier, rfl⟩

theorem since_latest (history : List ε) (event : ε) : Since (event :: history) event [] :=
  ⟨history, rfl⟩

theorem Since.cons {history since : List ε} {event : ε} (occurred : Since history event since)
    (latest : ε) : Since (latest :: history) event (latest :: since) :=
  since_cons_iff.mpr (.inr ⟨since, rfl, occurred⟩)

/-- The last occurrence of an event is unique. -/
theorem Since.unique {history since others : List ε} {event : ε}
    (occurred : Since history event since) (last : event ∉ since)
    (otherwise : Since history event others) (otherLast : event ∉ others) : since = others := by
  induction since generalizing history others with
  | nil =>
    rcases occurred with ⟨earlier, rfl⟩
    rcases since_cons_iff.mp otherwise with ⟨rfl, _⟩ | ⟨older, rfl, _⟩
    · rfl
    · exact absurd mem_cons_self otherLast
  | cons latest rest ih =>
    rcases occurred with ⟨earlier, rfl⟩
    rcases since_cons_iff.mp otherwise with ⟨rfl, same⟩ | ⟨older, rfl, elsewhere⟩
    · exact absurd (same ▸ mem_cons_self) last
    · rw [ih ⟨earlier, rfl⟩ (fun found => last (mem_cons_of_mem _ found)) elsewhere
        fun found => otherLast (mem_cons_of_mem _ found)]

namespace Run

variable {step : σ → ε → σ → Prop} {start state : σ} {history : List ε}

/-- What holds at the start and is kept by every step holds along the run. -/
theorem invariant (run : Run step start history state) (holds : List ε → σ → Prop)
    (initial : holds [] start)
    (preserved : ∀ {history state event next}, holds history state → step state event next →
      holds (event :: history) next) :
    holds history state := by
  induction run with
  | refl => exact initial
  | tail _ stepped kept => exact preserved kept stepped

/-- What allowed steps keep holds along a run all of whose events are allowed. -/
theorem invariant_of_forall (run : Run step start history state) (allowed : ε → Prop)
    (holds : List ε → σ → Prop) (initial : holds [] start)
    (preserved : ∀ {history state event next}, allowed event → holds history state →
      step state event next → holds (event :: history) next)
    (all : ∀ event ∈ history, allowed event) :
    holds history state := by
  induction run with
  | refl => exact initial
  | tail _ stepped ih =>
    rw [forall_mem_cons] at all
    exact preserved all.1 (ih all.2) stepped

/-- Every event of a history is a step of the run. -/
theorem exists_step {event : ε} (run : Run step start history state) (occurred : event ∈ history) :
    ∃ before after, step before event after := by
  induction run with
  | refl => cases occurred
  | tail _ stepped ih =>
    rcases mem_cons.mp occurred with rfl | earlier
    · exact ⟨_, _, stepped⟩
    · exact ih earlier

/-- A run is one of another system when a view of its states takes each step to a step of
that system, as long as what the steps keep holds. -/
theorem simulation {τ : Type v} {other : τ → ε → τ → Prop} (view : σ → τ) (holds : σ → Prop)
    (initial : holds start)
    (simulated : ∀ {state event next}, holds state → step state event next →
      other (view state) event (view next) ∧ holds next)
    (run : Run step start history state) :
    Run other (view start) history (view state) ∧ holds state := by
  induction run with
  | refl => exact ⟨.refl, initial⟩
  | tail _ stepped ih =>
    rcases simulated ih.2 stepped with ⟨moved, kept⟩
    exact ⟨.tail ih.1 moved, kept⟩

end Run

end GreengrassLite.Library
