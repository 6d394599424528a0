import GreengrassLite.Iotcored.Broker

/-!
# UNSUBSCRIBE and the entries of the table

In every run, the filter of every entry is subscribed at the broker while the daemon is
connected.  If no free entry has the handle of a client that goes away, an UNSUBSCRIBE is
sent for those of its filters that no other client has, and for nothing else; if there is
such an entry, one is sent for the empty filter.
-/

namespace GreengrassLite

open Library List SubscriptionTable

variable {maxSubscriptions : Nat}

/-! ## Events -/

namespace BrokerWorld

variable {world next : BrokerWorld maxSubscriptions} {handle : UInt32}
  {params : GglMap} {slot : Fin maxSubscriptions} {topicFilter : Buffer}

/-- A request succeeds with its filters in the table and at the broker.  One that fails changes
nothing, or frees all entries of its handle. -/
theorem rpcSubscribe_cases (world : BrokerWorld maxSubscriptions) (params : GglMap)
    (handle : UInt32) (answer : Bool) :
    (∃ topicFilters, world.rpcSubscribe params handle answer = (.ok (),
      ⟨(fill handle (finRange maxSubscriptions) topicFilters world.table).2,
        handle :: world.accepted, world.connected, topicFilters ++ world.subscribed⟩)) ∨
      ∃ error next, world.rpcSubscribe params handle answer = (.error error, next) ∧
        (next = world ∨ ∃ topicFilters, next =
          { world with
            table := (fill handle (finRange maxSubscriptions) topicFilters
              world.table).2.clear handle }) := by
  unfold rpcSubscribe
  cases subscribeTopicFilters params with
  | error error => exact .inr ⟨error, world, rfl, .inl rfl⟩
  | ok topicFilters =>
    dsimp only
    rcases world.table.registerSubscriptions_cases topicFilters handle with
      registered | ⟨error, next, refused, rfl | rfl⟩
    · rw [registered]
      dsimp only
      split
      · exact .inl ⟨topicFilters, rfl⟩
      · rw [unregisterSubscriptions_table]
        exact .inr ⟨_, _, rfl, .inr ⟨topicFilters, rfl⟩⟩
    · rw [refused]
      exact .inr ⟨error, world, rfl, .inl rfl⟩
    · rw [refused]
      exact .inr ⟨error, _, rfl, .inr ⟨topicFilters, rfl⟩⟩

/-- A connection is closed in the world as it is, or after its request was taken back. -/
theorem closing_eq_some {event : BrokerEvent maxSubscriptions}
    (closes : world.closing event = some (handle, next)) :
    world.apply event = next.closeConnection handle ∧
      (next = world ∨ ∃ topicFilters, next =
        { world with
          table := (fill handle (finRange maxSubscriptions) topicFilters
            world.table).2.clear handle }) := by
  cases event with
  | subscribe params client answer =>
    rw [closing] at closes
    rw [apply]
    rcases world.rpcSubscribe_cases params client answer with
      ⟨_, accepted⟩ | ⟨error, left, refused, shape⟩
    · rw [accepted] at closes
      cases closes
    · rw [refused] at closes ⊢
      cases closes
      exact ⟨rfl, shape⟩
  | close client =>
    cases closes
    exact ⟨rfl, .inl rfl⟩
  | disconnect | reconnect => cases closes

@[simp]
theorem sent_of_not_closing {event : BrokerEvent maxSubscriptions}
    (stays : world.closing event = none) : (world.apply event).1 = [] := by
  cases event with
  | subscribe params client answer =>
    rw [closing] at stays
    rw [apply]
    split at stays
    case h_1 => rfl
    case h_2 => cases stays
  | close client => cases stays
  | disconnect | reconnect => rfl

/-! ## What is registered -/

/-- The handle of an entry has `sub_close_callback`, and its filter is subscribed at the
broker. -/
structure Registered (world : BrokerWorld maxSubscriptions) : Prop where
  accepted : ∀ slot, world.table.topicFilters slot ≠ [] →
    world.table.handles slot ∈ world.accepted
  subscribed : world.connected = true → ∀ slot, world.table.topicFilters slot ≠ [] →
    world.table.topicFilters slot ∈ world.subscribed

theorem Registered.closing {event : BrokerEvent maxSubscriptions} (registered : world.Registered)
    (closes : world.closing event = some (handle, next)) : next.Registered := by
  rcases (closing_eq_some closes).2 with rfl | ⟨topicFilters, rfl⟩
  · exact registered
  · constructor
    · intro slot taken
      rcases clear_fill_entry taken with ⟨_, sameFilter, sameHandle⟩
      rw [sameFilter] at taken
      exact sameHandle ▸ registered.accepted slot taken
    · intro connected slot taken
      rcases clear_fill_entry taken with ⟨_, sameFilter, _⟩
      rw [sameFilter] at taken
      exact sameFilter ▸ registered.subscribed connected slot taken

theorem Registered.closeConnection (registered : world.Registered) (handle : UInt32) :
    (world.closeConnection handle).2.Registered := by
  rw [BrokerWorld.closeConnection]
  by_cases hasCallback : handle ∈ world.accepted
  · rw [if_pos hasCallback]
    dsimp only
    rw [unregisterSubscriptions_table]
    constructor
    · intro slot taken
      rcases clear_entry taken with ⟨isOther, same⟩
      rw [same] at taken
      exact mem_filter.mpr ⟨registered.accepted slot taken, decide_eq_true isOther⟩
    · intro connected slot taken
      rcases clear_entry taken with ⟨isOther, same⟩
      rw [same] at taken ⊢
      refine mem_filter.mpr ⟨registered.subscribed connected slot taken, ?_⟩
      -- an UNSUBSCRIBE is sent only if all its entries are those of the client
      apply decide_eq_true
      intro sent
      exact isOther ((mem_unregisterSubscriptions.mp sent).2 taken slot rfl)
  · rw [if_neg hasCallback]
    exact registered

theorem Registered.apply (registered : world.Registered) (event : BrokerEvent maxSubscriptions) :
    (world.apply event).2.Registered := by
  cases closes : world.closing event with
  | some closed =>
    rw [(closing_eq_some closes).1]
    exact (registered.closing closes).closeConnection _
  | none =>
    cases event with
    | subscribe params client answer =>
      rw [BrokerWorld.closing] at closes
      rw [BrokerWorld.apply]
      rcases world.rpcSubscribe_cases params client answer with
        ⟨topicFilters, accepted⟩ | ⟨_, _, refused, _⟩
      · rw [accepted]
        constructor
        · intro slot taken
          rcases fill_entry client _ topicFilters world.table slot with
            ⟨kept, keptHandle⟩ | ⟨_, isClient, _⟩
          · exact keptHandle ▸ mem_cons_of_mem _ (registered.accepted slot (kept ▸ taken))
          · exact mem_cons.mpr (.inl isClient)
        · intro connected slot taken
          rcases fill_entry client _ topicFilters world.table slot with
            ⟨kept, _⟩ | ⟨_, _, isNew⟩
          · exact mem_append_right _
              (kept ▸ registered.subscribed connected slot (kept ▸ taken))
          · exact mem_append_left _ isNew
      · rw [refused] at closes
        cases closes
    | close client => cases closes
    | disconnect => exact ⟨registered.accepted, nofun⟩
    | reconnect answers =>
      have entries := fun slot => @SubscriptionTable.reRegisterLoop_entry _ answers
        (finRange maxSubscriptions) world.table slot
      constructor
      · intro slot taken
        rcases entries slot with ⟨handles, freed | ⟨kept, _⟩⟩
        · exact absurd freed taken
        · exact handles ▸ registered.accepted slot (kept ▸ taken)
      · intro _ slot taken
        rcases entries slot with ⟨_, freed | ⟨kept, subscribed⟩⟩
        · exact absurd freed taken
        · exact kept ▸ subscribed (mem_finRange slot) (kept ▸ taken)

theorem registered_of_run {history : List (BrokerEvent maxSubscriptions)}
    (run : Run BrokerStep (initial maxSubscriptions) history world) : world.Registered := by
  apply run.invariant (fun _ world => world.Registered)
  · exact ⟨fun slot taken => absurd rfl taken, nofun⟩
  · rintro _ world event _ registered rfl
    exact registered.apply event

/-! ## The bookkeeping -/

/-- An event is booked: an UNSUBSCRIBE is only sent for a filter of the connection that is
closed, which no entry has any longer; one is sent for every filter whose last entry goes with
a connection; and while the daemon is connected, the filters of all entries are subscribed at
the broker. -/
structure Booked (world : BrokerWorld maxSubscriptions) (event : BrokerEvent maxSubscriptions) :
    Prop where
  sound : ∀ topicFilter ∈ (world.apply event).1, topicFilter ≠ [] ∧
    ∃ handle atClose, world.closing event = some (handle, atClose) ∧
      (∃ slot, atClose.table.handles slot = handle ∧
        atClose.table.topicFilters slot = topicFilter) ∧
      ∀ slot, (world.apply event).2.table.topicFilters slot ≠ topicFilter
  complete : world.closing event ≠ none → ∀ slot, world.table.topicFilters slot ≠ [] →
    (∀ other, (world.apply event).2.table.topicFilters other ≠ world.table.topicFilters slot) →
    world.table.topicFilters slot ∈ (world.apply event).1
  subscribed : (world.apply event).2.connected = true → ∀ slot,
    (world.apply event).2.table.topicFilters slot ≠ [] →
    (world.apply event).2.table.topicFilters slot ∈ (world.apply event).2.subscribed

/-- No free entry has the handle of the client whose close callback runs. -/
def Tidy (world : BrokerWorld maxSubscriptions) (event : BrokerEvent maxSubscriptions) : Prop :=
  ∀ handle atClose, world.closing event = some (handle, atClose) → handle ∈ atClose.accepted →
    ∀ slot, atClose.table.handles slot = handle → atClose.table.topicFilters slot ≠ []

variable {event : BrokerEvent maxSubscriptions}

@[simp]
theorem closeConnection_of_ne (isOther : world.table.handles slot ≠ handle) :
    (world.closeConnection handle).2.table.topicFilters slot = world.table.topicFilters slot := by
  rw [closeConnection]
  by_cases hasCallback : handle ∈ world.accepted
  · rw [if_pos hasCallback]
    dsimp only
    rw [unregisterSubscriptions_table]
    exact clear_of_ne isOther
  · rw [if_neg hasCallback]

theorem mem_closeConnection (sent : topicFilter ∈ (world.closeConnection handle).1) :
    handle ∈ world.accepted ∧
      (∃ slot, world.table.handles slot = handle ∧
        world.table.topicFilters slot = topicFilter) ∧
      (topicFilter ≠ [] →
        ∀ slot, (world.closeConnection handle).2.table.topicFilters slot ≠ topicFilter) := by
  rw [closeConnection] at sent ⊢
  by_cases hasCallback : handle ∈ world.accepted
  · rw [if_pos hasCallback] at sent ⊢
    rcases mem_unregisterSubscriptions.mp sent with ⟨holder, alone⟩
    refine ⟨hasCallback, holder, ?_⟩
    dsimp only
    rw [unregisterSubscriptions_table]
    rintro nonempty slot rfl
    rcases clear_entry nonempty with ⟨isOther, same⟩
    exact isOther (alone nonempty slot same.symm)
  · rw [if_neg hasCallback] at sent
    cases sent

theorem Tidy.sound (tidy : world.Tidy event) (sent : topicFilter ∈ (world.apply event).1) :
    topicFilter ≠ [] ∧
    ∃ handle atClose, world.closing event = some (handle, atClose) ∧
      (∃ slot, atClose.table.handles slot = handle ∧
        atClose.table.topicFilters slot = topicFilter) ∧
      ∀ slot, (world.apply event).2.table.topicFilters slot ≠ topicFilter := by
  cases closes : world.closing event with
  | none =>
    rw [sent_of_not_closing closes] at sent
    cases sent
  | some closed =>
    rcases closed with ⟨handle, atClose⟩
    rw [(closing_eq_some closes).1] at sent ⊢
    rcases mem_closeConnection sent with ⟨hasCallback, ⟨slot, isHandle, hasFilter⟩, gone⟩
    have nonempty : topicFilter ≠ [] :=
      hasFilter ▸ tidy handle atClose closes hasCallback slot isHandle
    exact ⟨nonempty, handle, atClose, rfl, ⟨slot, isHandle, hasFilter⟩, gone nonempty⟩

theorem Tidy.complete (tidy : world.Tidy event) (registered : world.Registered)
    (closes : world.closing event = some (handle, next))
    (taken : world.table.topicFilters slot ≠ [])
    (gone : ∀ other, (world.apply event).2.table.topicFilters other ≠
      world.table.topicFilters slot) : world.table.topicFilters slot ∈ (world.apply event).1 := by
  rw [(closing_eq_some closes).1] at gone ⊢
  rcases (closing_eq_some closes).2 with rfl | ⟨topicFilters, rfl⟩
  · -- all entries with this filter are those of the client
    have alone : ∀ other, next.table.topicFilters other = next.table.topicFilters slot →
        next.table.handles other = handle := by
      intro other same
      by_contra isOther
      exact gone other ((closeConnection_of_ne isOther).trans same)
    have hasCallback : handle ∈ next.accepted := alone slot rfl ▸ registered.accepted slot taken
    rw [closeConnection, if_pos hasCallback]
    exact mem_unregisterSubscriptions.mpr
      ⟨⟨slot, alone slot rfl, rfl⟩, fun _ => alone⟩
  · -- a request that was taken back has freed no entry from before
    rcases fill_entry handle (finRange maxSubscriptions) topicFilters
      world.table slot with ⟨kept, keptHandle⟩ | ⟨wasFree, _, _⟩
    · by_cases isHandle : world.table.handles slot = handle
      · have hasCallback : handle ∈ world.accepted := isHandle ▸ registered.accepted slot taken
        exact absurd (clear_of_eq (keptHandle.trans isHandle))
          (tidy handle _ closes hasCallback slot (keptHandle.trans isHandle))
      · have isOther := keptHandle ▸ isHandle
        exact absurd ((closeConnection_of_ne isOther).trans
          ((clear_of_ne isOther).trans kept)) (gone slot)
    · exact absurd wasFree taken

end BrokerWorld

/-- In every run, an event is booked exactly if no free entry has the handle of the client that
goes away with it. -/
theorem brokerBooks_iff {history : List (BrokerEvent maxSubscriptions)}
    {world : BrokerWorld maxSubscriptions}
    (run : Run BrokerStep (.initial maxSubscriptions) history world)
    (event : BrokerEvent maxSubscriptions) : world.Booked event ↔ world.Tidy event := by
  have registered := BrokerWorld.registered_of_run run
  constructor
  · intro booked handle atClose closes hasCallback slot isHandle isFree
    have sent : [] ∈ (world.apply event).1 := by
      rw [(BrokerWorld.closing_eq_some closes).1, BrokerWorld.closeConnection, if_pos hasCallback]
      exact mem_unregisterSubscriptions.mpr
        ⟨⟨slot, isHandle, isFree⟩, fun nonempty => absurd rfl nonempty⟩
    exact (booked.sound [] sent).1 rfl
  · intro tidy
    refine ⟨fun topicFilter sent => tidy.sound sent, ?_, (registered.apply event).subscribed⟩
    intro closes slot taken gone
    rcases Option.ne_none_iff_exists'.mp closes with ⟨⟨handle, atClose⟩, closes⟩
    exact tidy.complete registered closes taken gone

section Examples

def subscribesTo (topicFilter : Buffer) (handle : UInt32) (answer : Bool) : BrokerEvent 2 :=
  .subscribe [(gglStr "topic_filter", .buf topicFilter)] handle answer

/-- The world after some events, the latest first. -/
def brokerWorldAfter : List (BrokerEvent 2) → BrokerWorld 2
  | [] => .initial 2
  | event :: earlier => ((brokerWorldAfter earlier).apply event).2

theorem run_brokerWorldAfter (history : List (BrokerEvent 2)) :
    Run BrokerStep (.initial 2) history (brokerWorldAfter history) := by
  induction history with
  | nil => exact .refl
  | cons event earlier ih => exact ih.tail rfl

/-- Two clients have subscribed to one filter. -/
def sharedHistory : List (BrokerEvent 2) :=
  [subscribesTo [1] 6 true, subscribesTo [1] 5 true, .reconnect fun _ => true]

/-- The first client goes away without an UNSUBSCRIBE, and the second with one. -/
theorem brokerBooks_iff_shared :
    ((brokerWorldAfter sharedHistory).apply (.close 5)).1 = [] ∧
      ((brokerWorldAfter (.close 5 :: sharedHistory)).apply (.close 6)).1 = [[1]] ∧
      (brokerWorldAfter (.close 5 :: sharedHistory)).Booked (.close 6) := by
  refine ⟨by decide +kernel, by decide +kernel, ?_⟩
  apply (brokerBooks_iff (run_brokerWorldAfter (.close 5 :: sharedHistory)) (.close 6)).mpr
  rintro handle atClose ⟨⟩ _
  decide +kernel

/-- A client has subscribed, and its filter is refused after a reconnect. -/
def refusedHistory : List (BrokerEvent 2) :=
  [.reconnect fun _ => false, .disconnect, subscribesTo [1] 5 true, .reconnect fun _ => true]

/-- A client has subscribed, and its next request fails. -/
def secondRefusedHistory : List (BrokerEvent 2) :=
  [subscribesTo [2] 5 false, subscribesTo [1] 5 true, .reconnect fun _ => true]

/-- An UNSUBSCRIBE is sent for the empty filter when the filter of the client was refused after
a reconnect.  The same happens after a second request of the client has failed, and the filter
of its first request stays subscribed at the broker without an entry. -/
theorem brokerBooks_untidy :
    ((brokerWorldAfter refusedHistory).apply (.close 5)).1 = [[]] ∧
      ¬(brokerWorldAfter refusedHistory).Booked (.close 5) ∧
      ((brokerWorldAfter secondRefusedHistory.tail).apply (subscribesTo [2] 5 false)).1 =
        [[], []] ∧
      (brokerWorldAfter secondRefusedHistory).subscribed = [[1]] ∧
      ∀ slot, (brokerWorldAfter secondRefusedHistory).table.topicFilters slot = [] := by
  have sent : ((brokerWorldAfter refusedHistory).apply (.close 5)).1 = [[]] := by decide +kernel
  refine ⟨sent, ?_, by decide +kernel, by decide +kernel, by decide +kernel⟩
  intro booked
  exact (booked.sound [] (sent ▸ mem_cons_self)).1 rfl

end Examples

end GreengrassLite
