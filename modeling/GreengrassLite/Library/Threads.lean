import GreengrassLite.Library.Run
import Mathlib.Data.Fintype.Basic

/-!
# Threads that share a state and take locks

The program of a thread is a tree of atomic operations: it takes and releases locks,
reads and changes the shared state, and branches on what its environment answers.
The calls a thread is in are noted on a stack.  Threads are interleaved in every way.
A thread waits for every thread that holds the lock it is about to take, and a circle
of threads that wait for each other is a deadlock.

A lock protects a part of the shared state that only its holder changes.
`Program.Keeps` follows a program among other threads that respect the locks: after
each operation it knows the shared state as far as the locks it holds protect it.
-/

namespace GreengrassLite.Library

open List Function

variable {Lock Call σ α β ι : Type}

/-! ## Programs -/

/-- What is left of a program of a thread. -/
inductive Program (Lock Call σ α : Type) : Type
  | pure (result : α)
  | acquire (lock : Lock) (next : Program Lock Call σ α)
  | release (lock : Lock) (next : Program Lock Call σ α)
  /-- waits until the lock can be taken, and does not take it. -/
  | await (lock : Lock) (next : Program Lock Call σ α)
  /-- changes the shared state and goes on with what it was before. -/
  | update (change : σ → σ) (next : σ → Program Lock Call σ α)
  /-- goes on as the environment chooses. -/
  | choose (next : Nat → Program Lock Call σ α)
  | enter (call : Call) (next : Program Lock Call σ α)
  | leave (next : Program Lock Call σ α)

namespace Program

def bind : Program Lock Call σ α → (α → Program Lock Call σ β) → Program Lock Call σ β
  | .pure result, rest => rest result
  | .acquire lock next, rest => .acquire lock (next.bind rest)
  | .release lock next, rest => .release lock (next.bind rest)
  | .await lock next, rest => .await lock (next.bind rest)
  | .update change next, rest => .update change fun state => (next state).bind rest
  | .choose next, rest => .choose fun answer => (next answer).bind rest
  | .enter call next, rest => .enter call (next.bind rest)
  | .leave next, rest => .leave (next.bind rest)

instance : Monad (Program Lock Call σ) where
  pure := .pure
  bind := .bind

def lock (lock : Lock) : Program Lock Call σ Unit :=
  .acquire lock (.pure ())

def unlock (lock : Lock) : Program Lock Call σ Unit :=
  .release lock (.pure ())

def wait (lock : Lock) : Program Lock Call σ Unit :=
  .await lock (.pure ())

def read : Program Lock Call σ σ :=
  .update id .pure

def modify (change : σ → σ) : Program Lock Call σ Unit :=
  .update change fun _ => .pure ()

/-- A number the environment chooses. -/
def ask : Program Lock Call σ Nat :=
  .choose .pure

/-- A program that holds a lock to its end. -/
def holding (lock : Lock) (program : Program Lock Call σ α) : Program Lock Call σ α := do
  .acquire lock (.pure ())
  let result ← program
  .release lock (.pure result)

/-- A program between the beginning and the end of a call. -/
def during (call : Call) (program : Program Lock Call σ α) : Program Lock Call σ α := do
  .enter call (.pure ())
  let result ← program
  .leave (.pure result)

/-- The lock a program takes, or waits for, with its next operation. -/
def wants : Program Lock Call σ α → Option Lock
  | .acquire lock _ => some lock
  | .await lock _ => some lock
  | _ => none

end Program

/-! ## Interleaving -/

/-- A thread with the locks it holds and the calls it is in, the latest first. -/
structure Thread (Lock Call σ : Type) where
  program : Program Lock Call σ Unit
  held : List Lock
  calls : List Call

/-- A thread that is in no call and waits for work. -/
def Thread.idle : Thread Lock Call σ :=
  ⟨.pure (), [], []⟩

structure Threads (ι Lock Call σ : Type) where
  shared : σ
  thread : ι → Thread Lock Call σ

/-- An operation of a thread on the shared state.  `free` are the locks it can take,
and `starts` the programs it may begin when it has finished one. -/
inductive Thread.Step [DecidableEq Lock] (free : Lock → Prop)
    (starts : Program Lock Call σ Unit → Prop) :
    σ → Thread Lock Call σ → σ → Thread Lock Call σ → Prop
  | start {shared program held calls} :
      starts program → Thread.Step free starts shared ⟨.pure (), held, calls⟩
        shared ⟨program, held, calls⟩
  | acquire {shared lock next held calls} :
      free lock → Thread.Step free starts shared ⟨.acquire lock next, held, calls⟩
        shared ⟨next, lock :: held, calls⟩
  | release {shared lock next} {held : List Lock}
      {calls} :
      Thread.Step free starts shared ⟨.release lock next, held, calls⟩
        shared ⟨next, held.erase lock, calls⟩
  | await {shared lock next held calls} :
      free lock → Thread.Step free starts shared ⟨.await lock next, held, calls⟩
        shared ⟨next, held, calls⟩
  | update {shared change next held calls} :
      Thread.Step free starts shared ⟨.update change next, held, calls⟩
        (change shared) ⟨next shared, held, calls⟩
  | choose {shared next held calls} (answer : Nat) :
      Thread.Step free starts shared ⟨.choose next, held, calls⟩
        shared ⟨next answer, held, calls⟩
  | enter {shared call next held calls} :
      Thread.Step free starts shared ⟨.enter call next, held, calls⟩
        shared ⟨next, held, call :: calls⟩
  | leave {shared next held}
      {calls : List Call} :
      Thread.Step free starts shared ⟨.leave next, held, calls⟩
        shared ⟨next, held, calls.tail⟩

namespace Threads

variable (reentrant : Lock → Prop) (state : Threads ι Lock Call σ)

/-- No other thread holds the lock, nor does the thread itself unless it may take the
lock again. -/
def Free (thread : ι) (lock : Lock) : Prop :=
  ∀ other, lock ∈ (state.thread other).held → other = thread ∧ reentrant lock

/-- One thread makes a step. -/
inductive Step [DecidableEq ι] [DecidableEq Lock] (reentrant : Lock → Prop)
    (starts : ι → Program Lock Call σ Unit → Prop) :
    Threads ι Lock Call σ → ι → Threads ι Lock Call σ → Prop
  | mk {state : Threads ι Lock Call σ} {thread shared next} :
      Thread.Step (state.Free reentrant thread) (starts thread) state.shared
        (state.thread thread) shared next →
      Step reentrant starts state thread ⟨shared, update state.thread thread next⟩

/-- A thread is about to take a lock that the other one holds. -/
def WaitsFor (thread other : ι) : Prop :=
  ∃ lock, (state.thread thread).program.wants = some lock ∧ lock ∈ (state.thread other).held ∧
    ¬(other = thread ∧ reentrant lock)

/-- Some threads wait for each other in a circle; a thread that takes a lock again that
it may not take again is a circle of its own. -/
def Deadlocked : Prop :=
  ∃ thread, Relation.TransGen (state.WaitsFor reentrant) thread thread

/-- Of two threads, each waits for the other or one waits for itself. -/
theorem not_deadlocked_of_two {reentrant : Lock → Prop} {state : Threads ι Lock Call σ}
    (two : ∀ first second third : ι, first = second ∨ second = third ∨ first = third)
    (notItself : ∀ thread, ¬state.WaitsFor reentrant thread thread)
    (notBoth : ∀ thread other, state.WaitsFor reentrant thread other →
      ¬state.WaitsFor reentrant other thread) :
    ¬state.Deadlocked reentrant := by
  have direct : ∀ {first last}, Relation.TransGen (state.WaitsFor reentrant) first last →
      state.WaitsFor reentrant first last := by
    intro first last chain
    induction chain with
    | single waits => exact waits
    | @tail middle last chain waits ih =>
      rcases two first middle last with rfl | rfl | rfl
      · exact absurd ih (notItself _)
      · exact absurd waits (notItself _)
      · exact absurd waits (notBoth _ _ ih)
  rintro ⟨thread, circle⟩
  exact notItself thread (direct circle)

end Threads

/-! ## What a thread knows and may wait for -/

/-- The part of the state that a lock protects, as an equivalence of states. -/
structure Protection (Lock σ : Type) where
  same : Lock → σ → σ → Prop
  refl : ∀ lock state, same lock state state
  trans : ∀ {lock first second third}, same lock first second → same lock second third →
    same lock first third

/-- The parts that the held locks protect are the same. -/
def Protection.Agree (protection : Protection Lock σ) (held : List Lock) (seen now : σ) : Prop :=
  ∀ lock ∈ held, protection.same lock seen now

/-- What may be assumed of the shared state during the calls of a thread, and when the
thread may wait for a lock. -/
structure Conduct (Lock Call σ : Type) where
  assumes : List Call → σ → Prop
  mayWant : List Lock → List Call → σ → Lock → Prop

section Keeps

variable [DecidableEq Lock] (protection : Protection Lock σ) (conduct : Conduct Lock Call σ)

/-- The program keeps to the conduct and ends in `post`, from a point where it holds
`held`, is in `calls` and has last seen the state as `seen`. -/
def Program.Keeps : Program Lock Call σ α → (α → List Lock → List Call → σ → Prop) →
    List Lock → List Call → σ → Prop
  | .pure result, post, held, calls, seen => post result held calls seen
  | .acquire lock next, post, held, calls, seen =>
    ∀ now, protection.Agree held seen now →
      conduct.mayWant held calls now lock ∧ next.Keeps post (lock :: held) calls now
  | .release lock next, post, held, calls, seen => next.Keeps post (held.erase lock) calls seen
  | .await lock next, post, held, calls, seen =>
    (∀ now, protection.Agree held seen now → conduct.mayWant held calls now lock) ∧
      next.Keeps post held calls seen
  | .update change next, post, held, calls, seen =>
    ∀ now, protection.Agree held seen now → conduct.assumes calls now →
      (∀ lock ∉ held, protection.same lock now (change now)) ∧
        (next now).Keeps post held calls (change now)
  | .choose next, post, held, calls, seen => ∀ answer, (next answer).Keeps post held calls seen
  | .enter call next, post, held, calls, seen => next.Keeps post held (call :: calls) seen
  | .leave next, post, held, calls, seen => next.Keeps post held calls.tail seen

variable {protection conduct} {held : List Lock} {calls : List Call} {seen : σ} {lock : Lock}
  {program : Program Lock Call σ α} {rest : α → Program Lock Call σ β}
  {between : α → List Lock → List Call → σ → Prop} {post : β → List Lock → List Call → σ → Prop}

/-- The rule for one program after another. -/
theorem Program.Keeps.andThen (keeps : program.Keeps protection conduct between held calls seen)
    (follows : ∀ {result held calls seen}, between result held calls seen →
      (rest result).Keeps protection conduct post held calls seen) :
    (program >>= rest).Keeps protection conduct post held calls seen := by
  induction program generalizing held calls seen with
  | pure result => exact follows keeps
  | acquire lock next ih =>
    intro now agree
    exact ⟨(keeps now agree).1, ih (keeps now agree).2⟩
  | release _ _ ih | enter _ _ ih | leave _ ih => exact ih keeps
  | await lock next ih => exact ⟨keeps.1, ih keeps.2⟩
  | update change next ih =>
    intro now agree assumed
    exact ⟨(keeps now agree assumed).1, ih now (keeps now agree assumed).2⟩
  | choose next ih =>
    intro answer
    exact ih answer (keeps answer)

theorem Program.Keeps.bind (keeps : program.Keeps protection conduct
      (fun result => (rest result).Keeps protection conduct post) held calls seen) :
    (program >>= rest).Keeps protection conduct post held calls seen :=
  keeps.andThen id

variable (protection conduct) in
/-- The program keeps to the conduct and returns with the locks and calls it began with. -/
def Program.Balanced (program : Program Lock Call σ α) (held : List Lock) (calls : List Call)
    (seen : σ) : Prop :=
  program.Keeps protection conduct (fun _ after remaining _ => after = held ∧ remaining = calls)
    held calls seen

/-- What follows a balanced program begins where that one began. -/
theorem Program.Balanced.bind (balanced : program.Balanced protection conduct held calls seen)
    (follows : ∀ result seen, (rest result).Keeps protection conduct post held calls seen) :
    (program >>= rest).Keeps protection conduct post held calls seen := by
  apply Keeps.andThen balanced
  rintro result after remaining seen ⟨rfl, rfl⟩
  exact follows result seen

theorem Program.balanced_pure {result : α} :
    (pure result : Program Lock Call σ α).Balanced protection conduct held calls seen :=
  ⟨rfl, rfl⟩

theorem Program.Keeps.during {call : Call} {post : α → List Lock → List Call → σ → Prop}
    (keeps : program.Keeps protection conduct between held (call :: calls) seen)
    (follows : ∀ {result held calls seen}, between result held calls seen →
      post result held calls.tail seen) :
    (Program.during call program).Keeps protection conduct post held calls seen :=
  keeps.andThen (@fun result _ _ _ => @follows result _ _ _)

theorem Program.Balanced.during {call : Call}
    (balanced : program.Balanced protection conduct held (call :: calls) seen) :
    (Program.during call program).Balanced protection conduct held calls seen := by
  apply Keeps.during balanced
  rintro result after remaining seen ⟨rfl, rfl⟩
  exact ⟨rfl, rfl⟩

theorem Program.keeps_read {rest : σ → Program Lock Call σ β}
    (follows : ∀ now, protection.Agree held seen now → conduct.assumes calls now →
      (rest now).Keeps protection conduct post held calls now) :
    (Program.read >>= rest).Keeps protection conduct post held calls seen := by
  intro now agree assumed
  exact ⟨fun lock _ => protection.refl lock now, follows now agree assumed⟩

theorem Program.balanced_modify {change : σ → σ}
    (respects : ∀ now, ∀ lock ∉ held, protection.same lock now (change now)) :
    (Program.modify change).Balanced protection conduct held calls seen := by
  intro now agree assumed
  exact ⟨respects now, rfl, rfl⟩

theorem Program.keeps_lock {rest : Unit → Program Lock Call σ β}
    (follows : ∀ now, protection.Agree held seen now →
      conduct.mayWant held calls now lock ∧
        (rest ()).Keeps protection conduct post (lock :: held) calls now) :
    (Program.lock lock >>= rest).Keeps protection conduct post held calls seen :=
  follows

theorem Program.balanced_wait (mayWant : ∀ now, conduct.mayWant held calls now lock) :
    (Program.wait lock).Balanced protection conduct held calls seen :=
  ⟨fun now _ => mayWant now, rfl, rfl⟩

/-- The lock taken last is released. -/
theorem Program.keeps_unlock {post : Unit → List Lock → List Call → σ → Prop}
    (ends : post () held calls seen) :
    (Program.unlock lock).Keeps protection conduct post (lock :: held) calls seen := by
  change post () ((lock :: held).erase lock) calls seen
  rw [erase_cons_head]
  exact ends

theorem Program.keeps_ask {rest : Nat → Program Lock Call σ β}
    (follows : ∀ answer, (rest answer).Keeps protection conduct post held calls seen) :
    (Program.ask >>= rest).Keeps protection conduct post held calls seen :=
  follows

theorem Program.Balanced.holding (wanted : ∀ now, protection.Agree held seen now →
      conduct.mayWant held calls now lock ∧
        program.Balanced protection conduct (lock :: held) calls now) :
    (Program.holding lock program).Balanced protection conduct held calls seen := by
  intro now agree
  refine ⟨(wanted now agree).1, ?_⟩
  apply (wanted now agree).2.bind
  intro result seen
  exact ⟨erase_cons_head lock held, rfl⟩

/-- At the end of a program, every lock is released and every call has returned. -/
def Finished (_ : Unit) (held : List Lock) (calls : List Call) (_ : σ) : Prop :=
  held = [] ∧ calls = []

/-- After a step, the thread still keeps to its conduct, has left alone what it does not
hold, and holds no new lock but a free one. -/
theorem Thread.Step.keeps {free : Lock → Prop} {starts : Program Lock Call σ Unit → Prop}
    {shared after : σ} {thread next : Thread Lock Call σ}
    (step : Thread.Step free starts shared thread after next)
    (begins : ∀ program seen, starts program →
      program.Keeps protection conduct Finished [] [] seen)
    (agree : protection.Agree thread.held seen shared)
    (keeps : thread.program.Keeps protection conduct Finished thread.held thread.calls seen)
    (assumed : conduct.assumes thread.calls shared) :
    (∃ seen, protection.Agree next.held seen after ∧
      next.program.Keeps protection conduct Finished next.held next.calls seen) ∧
    (∀ lock ∉ thread.held, protection.same lock shared after) ∧
    ∀ lock ∈ next.held, lock ∈ thread.held ∨ free lock := by
  have unchanged : ∀ lock ∉ thread.held, protection.same lock shared shared :=
    fun lock _ => protection.refl lock shared
  cases step with
  | start started =>
    rcases keeps with ⟨rfl, rfl⟩
    exact ⟨⟨seen, agree, begins _ seen started⟩, unchanged, fun lock held => .inl held⟩
  | acquire isFree =>
    refine ⟨⟨shared, fun lock _ => protection.refl lock shared, (keeps shared agree).2⟩,
      unchanged, ?_⟩
    intro lock held
    rcases mem_cons.mp held with rfl | before
    · exact .inr isFree
    · exact .inl before
  | release =>
    refine ⟨⟨seen, fun lock held => agree lock (mem_of_mem_erase held), keeps⟩,
      unchanged, ?_⟩
    intro lock held
    exact .inl (mem_of_mem_erase held)
  | await isFree => exact ⟨⟨seen, agree, keeps.2⟩, unchanged, fun lock held => .inl held⟩
  | update =>
    rcases keeps shared agree assumed with ⟨respected, goesOn⟩
    exact ⟨⟨_, fun lock _ => protection.refl lock _, goesOn⟩, respected,
      fun lock held => .inl held⟩
  | choose answer =>
    exact ⟨⟨seen, agree, keeps answer⟩, unchanged, fun lock held => .inl held⟩
  | enter | leave => exact ⟨⟨seen, agree, keeps⟩, unchanged, fun lock held => .inl held⟩

end Keeps

/-! ## Runs -/

namespace Threads

section Orderly

variable [DecidableEq Lock] (protection : Protection Lock σ)
  (conduct : ι → Conduct Lock Call σ)

/-- No lock has two holders, and every thread keeps to its conduct. -/
structure Orderly (state : Threads ι Lock Call σ) : Prop where
  exclusive : ∀ {lock first second}, lock ∈ (state.thread first).held →
    lock ∈ (state.thread second).held → first = second
  keeps : ∀ thread, ∃ seen, protection.Agree (state.thread thread).held seen state.shared ∧
    (state.thread thread).program.Keeps protection (conduct thread) Finished
      (state.thread thread).held (state.thread thread).calls seen

variable {protection conduct} {state next : Threads ι Lock Call σ}

theorem orderly_of_idle (idle : ∀ thread, state.thread thread = .idle) :
    state.Orderly protection conduct := by
  constructor
  · intro lock first second held
    rw [idle first] at held
    cases held
  · intro thread
    rw [idle thread]
    exact ⟨state.shared, fun lock _ => protection.refl lock _, rfl, rfl⟩

theorem Orderly.step [DecidableEq ι] {reentrant : Lock → Prop}
    {starts : ι → Program Lock Call σ Unit → Prop} {thread : ι}
    (orderly : state.Orderly protection conduct)
    (step : Step reentrant starts state thread next)
    (begins : ∀ program seen, starts thread program →
      program.Keeps protection (conduct thread) Finished [] [] seen)
    (assumed : (conduct thread).assumes (state.thread thread).calls state.shared) :
    next.Orderly protection conduct := by
  rcases step with ⟨moved⟩
  rename_i after moving
  rcases orderly.keeps thread with ⟨seen, agree, keeps⟩
  rcases moved.keeps begins agree keeps assumed with ⟨movedKeeps, respected, taken⟩
  -- a lock the moving thread holds afterwards is held by no other thread
  have alone : ∀ {lock other}, lock ∈ moving.held → lock ∈ (state.thread other).held →
      other = thread := by
    intro lock other mine theirs
    rcases taken lock mine with before | isFree
    · exact orderly.exclusive theirs before
    · exact (isFree other theirs).1
  constructor
  · intro lock first second firstHolds secondHolds
    dsimp only at firstHolds secondHolds
    by_cases isFirst : first = thread
    · by_cases isSecond : second = thread
      · rw [isFirst, isSecond]
      · rw [isFirst, update_self] at firstHolds
        rw [update_of_ne isSecond] at secondHolds
        exact absurd (alone firstHolds secondHolds) isSecond
    · rw [update_of_ne isFirst] at firstHolds
      by_cases isSecond : second = thread
      · rw [isSecond, update_self] at secondHolds
        exact absurd (alone secondHolds firstHolds) isFirst
      · rw [update_of_ne isSecond] at secondHolds
        exact orderly.exclusive firstHolds secondHolds
  · intro other
    dsimp only
    by_cases isOther : other = thread
    · rw [isOther, update_self]
      exact movedKeeps
    · rw [update_of_ne isOther]
      rcases orderly.keeps other with ⟨otherSeen, otherAgree, otherKeeps⟩
      refine ⟨otherSeen, fun lock held => ?_, otherKeeps⟩
      apply protection.trans (otherAgree lock held)
      apply respected
      intro mine
      exact isOther (orderly.exclusive held mine)

/-- A thread in an orderly state waits only for what it may wait for. -/
theorem Orderly.mayWant {thread : ι} {lock : Lock} (orderly : state.Orderly protection conduct)
    (wanted : (state.thread thread).program.wants = some lock) :
    (conduct thread).mayWant (state.thread thread).held (state.thread thread).calls
      state.shared lock := by
  rcases orderly.keeps thread with ⟨seen, agree, keeps⟩
  cases program : (state.thread thread).program with
  | acquire wantedLock rest =>
    rw [program] at keeps wanted
    cases wanted
    exact (keeps state.shared agree).1
  | await wantedLock rest =>
    rw [program] at keeps wanted
    cases wanted
    exact keeps.1 state.shared agree
  | _ =>
    rw [program] at wanted
    cases wanted

end Orderly

end Threads

/-! ## Calls that are never made -/

/-- The program makes none of the forbidden calls. -/
def Program.Avoids (forbidden : Call → Prop) : Program Lock Call σ α → Prop
  | .pure _ => True
  | .acquire _ next => next.Avoids forbidden
  | .release _ next => next.Avoids forbidden
  | .await _ next => next.Avoids forbidden
  | .update _ next => ∀ state, (next state).Avoids forbidden
  | .choose next => ∀ answer, (next answer).Avoids forbidden
  | .enter call next => ¬forbidden call ∧ next.Avoids forbidden
  | .leave next => next.Avoids forbidden

section Avoids

variable {forbidden : Call → Prop}

theorem Program.Avoids.bind {first : Program Lock Call σ α} {rest : α → Program Lock Call σ β}
    (avoids : first.Avoids forbidden) (follows : ∀ result, (rest result).Avoids forbidden) :
    (first >>= rest).Avoids forbidden := by
  induction first with
  | pure result => exact follows result
  | acquire _ _ ih | release _ _ ih | await _ _ ih | leave _ ih => exact ih avoids
  | update change next ih => exact fun state => ih state (avoids state)
  | choose next ih => exact fun answer => ih answer (avoids answer)
  | enter call next ih => exact ⟨avoids.1, ih avoids.2⟩

theorem Program.avoids_read {rest : σ → Program Lock Call σ α}
    (follows : ∀ now, (rest now).Avoids forbidden) : (Program.read >>= rest).Avoids forbidden :=
  follows

theorem Program.avoids_ask {rest : Nat → Program Lock Call σ α}
    (follows : ∀ answer, (rest answer).Avoids forbidden) :
    (Program.ask >>= rest).Avoids forbidden :=
  follows

theorem Program.Avoids.holding {lock : Lock} {program : Program Lock Call σ α}
    (avoids : program.Avoids forbidden) : (Program.holding lock program).Avoids forbidden :=
  .bind trivial fun _ => .bind avoids fun _ => trivial

theorem Program.Avoids.during {call : Call} {program : Program Lock Call σ α}
    (allowed : ¬forbidden call) (avoids : program.Avoids forbidden) :
    (Program.during call program).Avoids forbidden :=
  .bind ⟨allowed, trivial⟩ fun _ => .bind avoids fun _ => trivial

theorem Thread.Step.avoids [DecidableEq Lock] {free : Lock → Prop}
    {starts : Program Lock Call σ Unit → Prop} {shared after : σ}
    {thread next : Thread Lock Call σ}
    (step : Thread.Step free starts shared thread after next)
    (begins : ∀ program, starts program → program.Avoids forbidden)
    (avoids : thread.program.Avoids forbidden ∧ ∀ call ∈ thread.calls, ¬forbidden call) :
    next.program.Avoids forbidden ∧ ∀ call ∈ next.calls, ¬forbidden call := by
  cases step with
  | start started => exact ⟨begins _ started, avoids.2⟩
  | acquire | release | await => exact avoids
  | update => exact ⟨avoids.1 shared, avoids.2⟩
  | choose answer => exact ⟨avoids.1 answer, avoids.2⟩
  | enter => exact ⟨avoids.1.2, forall_mem_cons.mpr ⟨avoids.1.1, avoids.2⟩⟩
  | leave => exact ⟨avoids.1, fun call later => avoids.2 call (mem_of_mem_tail later)⟩

/-- A thread that begins only programs without the forbidden calls is never in one. -/
theorem Threads.avoids_of_run [DecidableEq ι] [DecidableEq Lock] {reentrant : Lock → Prop}
    {starts : ι → Program Lock Call σ Unit → Prop} {start state : Threads ι Lock Call σ}
    {history : List ι} {thread : ι} (run : Run (Step reentrant starts) start history state)
    (idle : start.thread thread = .idle)
    (begins : ∀ program, starts thread program → program.Avoids forbidden) :
    ∀ call ∈ (state.thread thread).calls, ¬forbidden call := by
  have kept := run.invariant
    (fun _ state => (state.thread thread).program.Avoids forbidden ∧
      ∀ call ∈ (state.thread thread).calls, ¬forbidden call)
    (by rw [idle]; exact ⟨trivial, nofun⟩)
    (by
      rintro history state mover next avoids ⟨moved⟩
      dsimp only
      by_cases isMover : thread = mover
      · subst isMover
        rw [update_self]
        exact moved.avoids begins avoids
      · rw [update_of_ne isMover]
        exact avoids)
  exact kept.2

end Avoids

/-! ## Executable runs -/

/-- Whose turn it is: the thread begins a program, or it makes its next operation, with
the answer of the environment if it asks for one. -/
inductive Turn (ι Lock Call σ : Type)
  | start (thread : ι) (program : Program Lock Call σ Unit)
  | advance (thread : ι) (answer : Nat)

namespace Turn

/-- Every program in a list of turns is one that its thread begins. -/
def Begins (starts : ι → Program Lock Call σ Unit → Prop) (turns : List (Turn ι Lock Call σ)) :
    Prop :=
  ∀ thread program, .start thread program ∈ turns → starts thread program

variable {starts : ι → Program Lock Call σ Unit → Prop}

theorem Begins.append {first second : List (Turn ι Lock Call σ)} (begins : Begins starts first)
    (others : Begins starts second) : Begins starts (first ++ second) := by
  intro thread program member
  rcases mem_append.mp member with found | found
  · exact begins thread program found
  · exact others thread program found

theorem begins_advances (thread : ι) (answers : List Nat) :
    Begins starts (answers.map (.advance thread)) := by
  intro other program member
  rcases mem_map.mp member with ⟨answer, _, isStart⟩
  cases isStart

theorem Begins.start {thread : ι} {program : Program Lock Call σ Unit}
    {turns : List (Turn ι Lock Call σ)} (begun : starts thread program)
    (others : Begins starts turns) : Begins starts (.start thread program :: turns) := by
  intro other later member
  rcases mem_cons.mp member with isStart | found
  · cases isStart
    exact begun
  · exact others other later found

end Turn

section Schedule

variable [DecidableEq Lock]

/-- The next operation of a thread, if it can be made. -/
def Thread.advance (free : Lock → Bool) (answer : Nat) (shared : σ) :
    Thread Lock Call σ → Option (σ × Thread Lock Call σ)
  | ⟨.pure _, _, _⟩ => none
  | ⟨.acquire lock next, held, calls⟩ =>
    if free lock then some (shared, ⟨next, lock :: held, calls⟩) else none
  | ⟨.release lock next, held, calls⟩ => some (shared, ⟨next, held.erase lock, calls⟩)
  | ⟨.await lock next, held, calls⟩ =>
    if free lock then some (shared, ⟨next, held, calls⟩) else none
  | ⟨.update change next, held, calls⟩ => some (change shared, ⟨next shared, held, calls⟩)
  | ⟨.choose next, held, calls⟩ => some (shared, ⟨next answer, held, calls⟩)
  | ⟨.enter call next, held, calls⟩ => some (shared, ⟨next, held, call :: calls⟩)
  | ⟨.leave next, held, calls⟩ => some (shared, ⟨next, held, calls.tail⟩)

theorem Thread.step_of_advance {free : Lock → Prop} [DecidablePred free]
    {starts : Program Lock Call σ Unit → Prop} {answer : Nat} {shared after : σ}
    {thread next : Thread Lock Call σ}
    (advanced : thread.advance (fun lock => decide (free lock)) answer shared
      = some (after, next)) :
    Thread.Step free starts shared thread after next := by
  rcases thread with ⟨program, held, calls⟩
  cases program with
  | pure result => cases advanced
  | acquire | await =>
    rw [advance, Option.ite_none_right_eq_some] at advanced
    rcases advanced with ⟨isFree, ⟨⟩⟩
    constructor
    exact of_decide_eq_true isFree
  | release | update | choose | enter | leave =>
    cases advanced
    constructor

namespace Threads

variable [DecidableEq ι] [Fintype ι] (reentrant : Lock → Prop) [DecidablePred reentrant]

instance (state : Threads ι Lock Call σ) (thread : ι) :
    DecidablePred (state.Free reentrant thread) :=
  fun lock => inferInstanceAs
    (Decidable (∀ other, lock ∈ (state.thread other).held → other = thread ∧ reentrant lock))

instance (state : Threads ι Lock Call σ) (thread other : ι) :
    Decidable (state.WaitsFor reentrant thread other) :=
  match wanted : (state.thread thread).program.wants with
  | none => isFalse fun ⟨_, wants, _⟩ => by rw [wanted] at wants; cases wants
  | some lock =>
    decidable_of_iff (lock ∈ (state.thread other).held ∧ ¬(other = thread ∧ reentrant lock))
      ⟨fun waits => ⟨lock, wanted, waits⟩, fun ⟨_, wants, waits⟩ => by
        rw [wanted] at wants
        cases wants
        exact waits⟩

/-- The state after a turn. -/
def turn (state : Threads ι Lock Call σ) : Turn ι Lock Call σ → Option (Threads ι Lock Call σ)
  | .start thread program =>
    match state.thread thread with
    | ⟨.pure _, held, calls⟩ =>
      some { state with thread := update state.thread thread ⟨program, held, calls⟩ }
    | _ => none
  | .advance thread answer =>
    match (state.thread thread).advance (fun lock => decide (state.Free reentrant thread lock))
        answer state.shared with
    | none => none
    | some (shared, next) => some ⟨shared, update state.thread thread next⟩

variable {reentrant} {starts : ι → Program Lock Call σ Unit → Prop}
  {start state next final : Threads ι Lock Call σ} {turns : List (Turn ι Lock Call σ)}

theorem step_of_turn {turn : Turn ι Lock Call σ}
    (begins : ∀ thread program, turn = .start thread program → starts thread program)
    (taken : state.turn reentrant turn = some next) :
    ∃ thread, Step reentrant starts state thread next := by
  cases turn with
  | start thread program =>
    have started := begins thread program rfl
    rw [Threads.turn] at taken
    split at taken
    next held calls now =>
      cases taken
      have step : Thread.Step (state.Free reentrant thread) (starts thread) state.shared
          (state.thread thread) state.shared ⟨program, held, calls⟩ := now ▸ .start started
      exact ⟨thread, .mk step⟩
    · cases taken
  | advance thread answer =>
    rw [Threads.turn] at taken
    split at taken
    · cases taken
    next advanced =>
      cases taken
      exact ⟨thread, .mk (Thread.step_of_advance advanced)⟩

variable (reentrant) in
/-- The state after some turns, all of which lead to allowed states. -/
def schedule (allowed : Threads ι Lock Call σ → Prop) [DecidablePred allowed] :
    List (Turn ι Lock Call σ) → Threads ι Lock Call σ → Option (Threads ι Lock Call σ)
  | [], state => some state
  | turn :: turns, state =>
    match state.turn reentrant turn with
    | none => none
    | some next => if allowed next then schedule allowed turns next else none

variable (allowed : Threads ι Lock Call σ → Prop) [DecidablePred allowed]
  {step : Threads ι Lock Call σ → ι → Threads ι Lock Call σ → Prop}
  (steps : ∀ {state thread next}, Step reentrant starts state thread next → allowed next →
    step state thread next)

include steps

/-- A schedule is a run. -/
theorem run_of_schedule (begins : Turn.Begins starts turns) {history : List ι}
    (run : Run step start history state)
    (scheduled : state.schedule reentrant allowed turns = some final) :
    ∃ history, Run step start history final := by
  induction turns generalizing state history with
  | nil =>
    cases scheduled
    exact ⟨history, run⟩
  | cons turn turns ih =>
    rw [schedule] at scheduled
    split at scheduled
    · cases scheduled
    next next taken =>
      obtain ⟨isAllowed, scheduled⟩ := Option.ite_none_right_eq_some.mp scheduled
      have first : ∀ thread program, turn = .start thread program → starts thread program :=
        fun thread program isStart => begins thread program (isStart ▸ mem_cons_self)
      rcases step_of_turn first taken with ⟨thread, taken⟩
      exact ih
        (fun thread program member => begins thread program (mem_cons_of_mem _ member))
        (run.tail (steps taken isAllowed)) scheduled

/-- A schedule leads to a state that can be computed. -/
theorem exists_run_of_schedule {property : Threads ι Lock Call σ → Prop}
    [DecidablePred property] (begins : Turn.Begins starts turns)
    (computed : (start.schedule reentrant allowed turns).any
      (fun state => decide (property state)) = true) :
    ∃ history state, Run step start history state ∧ property state := by
  obtain ⟨state, scheduled, holds⟩ := (Option.any_eq_true _ _).mp computed
  obtain ⟨history, run⟩ := run_of_schedule allowed steps begins Run.refl scheduled
  exact ⟨history, state, run, of_decide_eq_true holds⟩

end Threads

end Schedule

end GreengrassLite.Library
