import GreengrassLite.Core.Object

/-!
# Subscriptions for a single response

`ggl_sub_response` subscribes, and waits until the subscription is closed.  The callbacks run on
another thread, under a mutex, so a call is a sequence of what happens in between: responses, the
close, and returns of `pthread_cond_timedwait`.  The first look at `ready` counts as a wait that
returns zero.
-/

namespace GreengrassLite.SubResponse

open List

/-- What the callback is called with: the context of the caller, or the structure around it. -/
inductive CallbackArgument where
  | callbackCtx
  | subResponseCtx

inductive Event where
  | response (data : GglObject)
  | close
  | wait (condRet : Nat)

/-- `GglSubResponseCallbackCtx`, whether the subscription is open, and the calls of the callback. -/
structure State where
  ready : Bool := false
  responseError : Option GglError := some .failure
  isOpen : Bool := true
  calls : List (CallbackArgument × GglObject) := []

def eintr : Nat := 4

def etimedout : Nat := 110

section Loop

variable (argument : CallbackArgument) (timedOut : Bool → Nat → Bool)
  (callback : CallbackArgument → GglObject → Option GglError)

/-- `sub_response_on_response`; an error closes the subscription. -/
def onResponse (state : State) (data : GglObject) : State :=
  let err := callback argument data
  let called := { state with calls := state.calls ++ [(argument, data)] }
  if err = some .retry then called else { called with responseError := err, isOpen := false }

/-- The wait loop: what is returned, with whether `ggl_client_sub_close` was called. -/
def waitLoop : List Event → State → Option (Option GglError × Bool) × State
  | [], state => (none, state)
  | .response data :: events, state =>
    waitLoop events (if state.isOpen then onResponse argument callback state data else state)
  | .close :: events, state => waitLoop events { state with ready := true, isOpen := false }
  | .wait condRet :: events, state =>
    if timedOut state.ready condRet then (some (state.responseError, true), state)
    else if state.ready then (some (state.responseError, false), state)
    else waitLoop events state

/-- A call, with the error of `ggl_subscribe`. -/
def call (subscribeError : Option GglError) (events : List Event) :
    Option (Option GglError × Bool) × State :=
  match subscribeError with
  | some error => (some (some error, false), {})
  | none => waitLoop argument timedOut callback events {}

end Loop

variable (callback : CallbackArgument → GglObject → Option GglError)

/-- `ggl_sub_response`. -/
def gglSubResponse : Option GglError → List Event → Option (Option GglError × Bool) × State :=
  call .subResponseCtx (fun _ condRet => (condRet : Int) < 0 ∧ condRet ≠ eintr) callback

/-- The call as it is described: the callback gets the context of the caller, and the first
timeout before the close ends the wait. -/
def describedSubResponse : Option GglError → List Event → Option (Option GglError × Bool) × State :=
  call .callbackCtx (fun ready condRet => !ready ∧ condRet = etimedout) callback

/-- No response and no timeout comes before the close. -/
def Undisturbed : List Event → Prop
  | [] => True
  | .response _ :: _ => False
  | .close :: _ => True
  | .wait condRet :: events => condRet ≠ etimedout ∧ Undisturbed events

variable {callback : CallbackArgument → GglObject → Option GglError} {argument : CallbackArgument}
  {timedOut : Bool → Nat → Bool} {state : State} {events : List Event}

@[simp]
theorem onResponse_calls {data : GglObject} :
    (onResponse argument callback state data).calls = state.calls ++ [(argument, data)] := by
  unfold onResponse
  dsimp only
  split
  · rfl
  · rfl

/-- Calls are not taken back. -/
theorem calls_prefix_waitLoop :
    state.calls <+: (waitLoop argument timedOut callback events state).2.calls := by
  fun_induction waitLoop argument timedOut callback events state with
  | case1 => exact prefix_rfl
  | case2 data events state ih =>
    refine .trans ?_ ih
    split
    · rw [onResponse_calls]
      exact prefix_append _ _
    · exact prefix_rfl
  | case3 _ _ ih => exact ih
  | case4 => exact prefix_rfl
  | case5 => exact prefix_rfl
  | case6 _ _ _ _ _ ih => exact ih

/-- Without a timeout the subscription is left to be closed by its peer. -/
theorem waitLoop_not_closing (never : ∀ ready condRet, timedOut ready condRet = false)
    {error : Option GglError} :
    (waitLoop argument timedOut callback events state).1 ≠ some (error, true) := by
  fun_induction waitLoop argument timedOut callback events state with
  | case1 => simp
  | case2 data events state ih => exact ih
  | case3 _ _ ih => exact ih
  | case4 _ _ _ out => simp [never] at out
  | case5 => simp
  | case6 _ _ _ _ _ ih => exact ih

/-- After the close, only the next wait matters. -/
theorem waitLoop_of_closed {other : CallbackArgument} {otherTimedOut : Bool → Nat → Bool}
    (ready : state.ready = true) (closed : state.isOpen = false)
    (notOut : ∀ condRet, timedOut true condRet = false)
    (otherNotOut : ∀ condRet, otherTimedOut true condRet = false) :
    waitLoop argument timedOut callback events state =
      waitLoop other otherTimedOut callback events state := by
  induction events generalizing state with
  | nil => rfl
  | cons event events ih =>
    cases event with
    | response data =>
      simp only [waitLoop, closed]
      exact ih ready closed
    | close => exact ih rfl rfl
    | wait condRet => simp [waitLoop, ready, notOut, otherNotOut]

/-- A call is as described exactly if the subscription fails, or no response and no timeout comes
before it is closed. -/
theorem gglSubResponse_eq_iff (callback : CallbackArgument → GglObject → Option GglError)
    (subscribeError : Option GglError) (events : List Event) :
    gglSubResponse callback subscribeError events =
        describedSubResponse callback subscribeError events ↔
      subscribeError ≠ none ∨ Undisturbed events := by
  cases subscribeError with
  | some error => simp [gglSubResponse, describedSubResponse, call]
  | none =>
    have never (condRet : Nat) : decide ((condRet : Int) < 0 ∧ condRet ≠ eintr) = false :=
      decide_eq_false fun negative => Int.not_lt.mpr (Int.natCast_nonneg condRet) negative.1
    rw [or_iff_right (by simp)]
    simp only [gglSubResponse, describedSubResponse, call]
    induction events with
    | nil => exact iff_of_true rfl trivial
    | cons event events ih =>
      cases event with
      | response data =>
        have called : ∀ argument timedOut, [(argument, data)] <+:
            (waitLoop argument timedOut callback (.response data :: events) {}).2.calls := by
          intro argument timedOut
          have kept := @calls_prefix_waitLoop callback argument timedOut
            (onResponse argument callback {} data) events
          rwa [onResponse_calls] at kept
        refine iff_of_false (fun same => ?_) id
        have wrong := called .subResponseCtx fun _ condRet => (condRet : Int) < 0 ∧ condRet ≠ eintr
        rw [same] at wrong
        simpa using prefix_of_prefix_length_le wrong (called _ _) (Nat.le_refl 1)
      | close =>
        refine iff_of_true ?_ trivial
        rw [waitLoop, waitLoop]
        exact waitLoop_of_closed rfl rfl never (by simp)
      | wait condRet =>
        rw [Undisturbed, waitLoop, waitLoop, never, if_neg Bool.false_ne_true,
          if_neg Bool.false_ne_true, if_neg Bool.false_ne_true]
        by_cases out : condRet = etimedout
        · rw [if_pos (by simp [out])]
          refine iff_of_false (fun same => ?_) fun undisturbed => undisturbed.1 out
          exact waitLoop_not_closing (fun _ => never) (congrArg Prod.fst same)
        · rw [if_neg (by simp [out])]
          exact ih.trans (and_iff_right out).symm

/-- A call that times out goes on to wait, and gives the callback a context that is not its own. -/
theorem timeout_ignored :
    (gglSubResponse (fun _ _ => none) none [.wait 0, .wait etimedout]).1 = none ∧
      (gglSubResponse (fun _ _ => none) none [.response .null]).2.calls =
        [(.subResponseCtx, .null)] :=
  ⟨rfl, rfl⟩

end GreengrassLite.SubResponse
