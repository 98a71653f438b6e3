import Scanipy.Services.Substrate.Queue

/-! Delivery under every interleaving: where each message is, how often it was received, and which
keys were handled.
-/

namespace Scanipy.Services.Substrate

open Python

-- The queue in every state

/-- The receipt that an event settles. -/
def Event.settles {Consumer : Type} : Event Consumer → Option Int
  | .acknowledged handle _ | .failed handle _ => some handle
  | .received _ _ | .completed _ _ => none

/-- The receipt was acknowledged or failed before. -/
def System.Settled {Consumer : Type} (system : System Consumer) (handle : Int) : Prop :=
  ∃ event ∈ system.history, event.settles = some handle

variable {handle : Int}

theorem System.settled_record {Consumer : Type} {system : System Consumer} {event : Event Consumer}
    : (system.record event).Settled handle
      ↔ system.Settled handle ∨ event.settles = some handle := by
  simp [Settled, record, or_and_right, exists_or]

/-- The receives after which a failed message is dead: each is counted before it is compared. -/
def receiveLimit (maxReceiveCount : Int) : Int :=
  max 1 maxReceiveCount

/-- What holds of the queue and its history under a limit. -/
structure Sound {Consumer : Type} (limit : Int) (system : System Consumer) : Prop where
  limited : system.queue.maxReceiveCount = limit
  placed : ∀ object, (system.places object).length = if object < system.sent then 1 else 0
  unsent : ∀ object, system.sent ≤ object
    → system.timesReceived object = 0 ∧ system.timesFailed object = 0
  handles : system.queue.inFlight.keys.Nodup
  issued : ∀ handle ∈ system.queue.inFlight.keys, handle < system.queue.nextReceipt
  settled : ∀ handle, system.Settled handle
    → handle < system.queue.nextReceipt ∧ handle ∉ system.queue.inFlight.keys
  waiting : ∀ message ∈ system.queue.ready,
    system.timesReceived message.object = message.receiveCount
      ∧ system.timesFailed message.object = message.receiveCount
      ∧ message.receiveCount < receiveLimit limit
  flying : ∀ entry ∈ system.queue.inFlight,
    system.timesReceived entry.2.object = entry.2.receiveCount
      ∧ system.timesFailed entry.2.object + 1 = entry.2.receiveCount
  dead : ∀ message ∈ system.queue.dlq,
    system.timesReceived message.object = message.receiveCount
      ∧ system.timesFailed message.object = message.receiveCount
      ∧ message.receiveCount = receiveLimit limit
  bounded : ∀ object, system.timesReceived object ≤ receiveLimit limit

variable {message : Message}

namespace Sound

variable {Consumer : Type} {limit : Int} {system : System Consumer}

theorem create (limit : Int) : Sound limit (System.create limit : System Consumer) := by
  constructor <;>
    simp [System.create, StandardQueue.create, System.places, System.acknowledgements,
      System.timesReceived, System.timesFailed, System.Settled, receiveLimit, Dict.keys]

/-- Occurrences in all collections together are at most one. -/
theorem occurrences_le (sound : Sound limit system) (object : Nat)
    : system.queue.occurrences object + system.acknowledgements object ≤ 1 := by
  have placed := sound.placed object
  rw [System.length_places] at placed
  split at placed <;> omega

theorem sent_of_occurrence (sound : Sound limit system) {object : Nat}
    (found : 0 < system.queue.occurrences object) : object < system.sent := by
  have placed := sound.placed object
  rw [System.length_places] at placed
  by_contra later
  rw [if_neg later] at placed
  omega

theorem send (sound : Sound limit system) (body : Dict Text Text) (dedupKey : Text)
    : Sound limit (system.send body dedupKey) where
  limited := sound.limited
  placed object := by
    have placed := sound.placed object
    rw [System.length_places] at placed ⊢
    have grown : (system.send body dedupKey).queue.occurrences object
        = system.queue.occurrences object + if system.sent = object then 1 else 0 := by
      simp only [System.send, StandardQueue.send, StandardQueue.occurrences, List.countP_append,
        List.countP_singleton, beq_iff_eq]
      omega
    rw [grown]
    change _ + _ + system.acknowledgements object = if object < system.sent + 1 then 1 else 0
    rcases Nat.lt_trichotomy object system.sent with below | same | above
    · rw [if_pos below] at placed
      rw [if_neg (by omega), if_pos (by omega)]
      omega
    · rw [if_neg (by omega)] at placed
      rw [if_pos same.symm, if_pos (by omega)]
      omega
    · rw [if_neg (by omega)] at placed
      rw [if_neg (by omega), if_neg (by omega)]
      omega
  unsent object later := sound.unsent object (Nat.le_of_succ_le later)
  handles := sound.handles
  issued := sound.issued
  settled := sound.settled
  waiting message member := by
    rcases List.mem_append.mp member with earlier | new
    · exact sound.waiting message earlier
    · obtain rfl := List.mem_singleton.mp new
      obtain ⟨neverReceived, neverFailed⟩ := sound.unsent system.sent (Nat.le_refl _)
      exact ⟨neverReceived, neverFailed, by simp only [receiveLimit]; omega⟩
  flying := sound.flying
  dead := sound.dead
  bounded := sound.bounded

/-- An object counted nowhere in a collection is not that of its messages. -/
theorem ne_of_countP {α : Type} (object : α → Nat) {held : List α} {target : Nat} {one : α}
    (none : held.countP (object · == target) = 0) (member : one ∈ held)
    : target ≠ object one := by
  rintro rfl
  exact List.countP_eq_zero.mp none one member (beq_self_eq_true _)

theorem receive (sound : Sound limit system) : Sound limit system.receive.2 := by
  rcases waits : system.queue.ready with _ | ⟨head, rest⟩
  · rw [System.receive_none waits]
    exact sound
  rw [System.receive_some waits]
  have unused : system.queue.nextReceipt ∉ system.queue.inFlight.keys :=
    fun used => lt_irrefl _ (sound.issued _ used)
  rw [Dict.set_of_not_mem unused]
  obtain ⟨received, failed, below⟩ := sound.waiting head (by rw [waits]; exact List.mem_cons_self)
  -- no other message is the delivered object
  have alone := sound.occurrences_le head.object
  simp only [StandardQueue.occurrences, waits, List.countP_cons, beq_self_eq_true, if_true] at alone
  have restOthers {message : Message} (member : message ∈ rest)
      : head.object ≠ message.object :=
    ne_of_countP Message.object (by omega) member
  have flyingOthers {entry : Int × Message} (member : entry ∈ system.queue.inFlight)
      : head.object ≠ entry.2.object :=
    ne_of_countP (fun entry : Int × Message => entry.2.object) (by omega) member
  have deadOthers {message : Message} (member : message ∈ system.queue.dlq)
      : head.object ≠ message.object :=
    ne_of_countP Message.object (by omega) member
  constructor
  case limited => exact sound.limited
  case placed =>
    intro object
    have placed := sound.placed object
    rw [System.length_places] at placed ⊢
    refine Eq.trans ?_ placed
    rw [System.acknowledgements_record]
    simp only [StandardQueue.occurrences, waits, System.record, List.countP_append,
      List.countP_nil, List.countP_cons]
    change _ + system.acknowledgements object = _
    omega
  case unsent =>
    intro object later
    have sent : head.object < system.sent := by
      refine sound.sent_of_occurrence ?_
      simp only [StandardQueue.occurrences, waits, List.countP_cons, beq_self_eq_true, if_true]
      omega
    have differs : head.object ≠ object := by
      change system.sent ≤ object at later
      omega
    rw [System.timesReceived_record, System.timesFailed_record]
    simp only [differs, if_false, Nat.add_zero]
    exact sound.unsent object later
  case handles =>
    simp only [System.record, Dict.keys, List.map_append, List.map_cons, List.map_nil]
    exact List.nodup_append.mpr
      ⟨sound.handles, List.nodup_singleton _, by
        intro handle member other new
        obtain rfl := List.mem_singleton.mp new
        exact fun same => unused (same ▸ member)⟩
  case issued =>
    intro handle member
    simp only [System.record, Dict.keys, List.map_append, List.map_cons, List.map_nil] at member ⊢
    rcases List.mem_append.mp member with earlier | new
    · have := sound.issued handle earlier
      omega
    · obtain rfl := List.mem_singleton.mp new
      omega
  case settled =>
    intro handle happened
    rcases System.settled_record.mp happened with earlier | now
    swap
    · cases now
    obtain ⟨old, gone⟩ := sound.settled handle earlier
    simp only [System.record, Dict.keys, List.map_append, List.map_cons, List.map_nil,
      List.mem_append, List.mem_singleton]
    exact ⟨by omega, by rintro (present | rfl); exact gone present; omega⟩
  case waiting =>
    intro message member
    rw [System.timesReceived_record, System.timesFailed_record]
    simp only [restOthers member, if_false, Nat.add_zero]
    exact sound.waiting message (by rw [waits]; exact List.mem_cons_of_mem _ member)
  case flying =>
    intro entry member
    rw [System.timesReceived_record, System.timesFailed_record]
    rcases List.mem_append.mp member with earlier | new
    · simp only [flyingOthers earlier, if_false, Nat.add_zero]
      exact sound.flying entry earlier
    · obtain rfl := List.mem_singleton.mp new
      simp only [if_true, Nat.add_zero]
      exact ⟨congrArg (· + 1) received, congrArg (· + 1) failed⟩
  case dead =>
    intro message member
    rw [System.timesReceived_record, System.timesFailed_record]
    simp only [deadOthers member, if_false, Nat.add_zero]
    exact sound.dead message member
  case bounded =>
    intro object
    rw [System.timesReceived_record]
    have before := sound.bounded object
    by_cases same : head.object = object
    · subst same
      simp only [if_true]
      change ((system.timesReceived head.object + 1 : Nat) : Int) ≤ _
      rw [received]
      omega
    · simp only [same, if_false, Nat.add_zero]
      exact before

/-- What a settled receipt leaves: the entry is gone and its object is nowhere else. -/
theorem settle (sound : Sound limit system)
    (stored : system.queue.inFlight.get? handle = some message)
    : (∀ object, system.queue.inFlight.countP (·.2.object == object)
        = (system.queue.inFlight.delete handle).countP (·.2.object == object)
          + if message.object = object then 1 else 0)
      ∧ (∀ other ∈ system.queue.ready, message.object ≠ other.object)
      ∧ (∀ entry ∈ system.queue.inFlight.delete handle, message.object ≠ entry.2.object)
      ∧ ∀ other ∈ system.queue.dlq, message.object ≠ other.object := by
  have counted (object : Nat) : system.queue.inFlight.countP (·.2.object == object)
      = (system.queue.inFlight.delete handle).countP (·.2.object == object)
        + if message.object = object then 1 else 0 := by
    rw [(perm_cons_delete sound.handles stored).countP_eq, List.countP_cons]
    simp
  have alone := sound.occurrences_le message.object
  rw [StandardQueue.occurrences, counted message.object, if_pos rfl] at alone
  refine ⟨counted, ?_, ?_, ?_⟩
  · exact fun other member => ne_of_countP Message.object (by omega) member
  · exact fun entry member => ne_of_countP (fun entry : Int × Message => entry.2.object) (by omega) member
  · exact fun other member => ne_of_countP Message.object (by omega) member

theorem keys_delete (entries : Dict Int Message) (handle : Int)
    : (entries.delete handle).keys = entries.keys.filter (· ≠ handle) := by
  simp only [Dict.delete, Dict.keys, List.filter_map]
  rfl

/-- A settled receipt is never known again. -/
theorem settled_delete (sound : Sound limit system) {other : Int}
    (stored : system.queue.inFlight.get? handle = some message)
    (happened : system.Settled other ∨ some handle = some other)
    : other < system.queue.nextReceipt ∧ other ∉ (system.queue.inFlight.delete handle).keys := by
  rw [keys_delete, List.mem_filter]
  rcases happened with earlier | now
  · obtain ⟨old, gone⟩ := sound.settled other earlier
    exact ⟨old, fun present => gone present.1⟩
  · obtain rfl := Option.some.inj now
    have known := Dict.mem_keys.mpr ⟨message, stored⟩
    exact ⟨sound.issued _ known, by simp⟩

theorem ack (sound : Sound limit system) (handle : Int) : Sound limit (system.ack handle).2 := by
  rcases stored : system.queue.inFlight.get? handle with _ | message
  · rw [System.ack_unknown (by simp [Dict.mem_keys, stored])]
    exact sound
  rw [System.ack_known stored]
  obtain ⟨counted, _, _, _⟩ := sound.settle stored
  constructor
  case limited => exact sound.limited
  case placed =>
    intro object
    have placed := sound.placed object
    rw [System.length_places] at placed ⊢
    refine Eq.trans ?_ placed
    rw [System.acknowledgements_record]
    simp only [StandardQueue.occurrences, System.record, counted object]
    change _ + (system.acknowledgements object + _) = _
    omega
  case unsent =>
    intro object later
    rw [System.timesReceived_record, System.timesFailed_record]
    exact sound.unsent object later
  case handles => exact sound.handles.sublist (List.filter_sublist.map _)
  case issued =>
    intro other member
    rw [System.record, keys_delete, List.mem_filter] at member
    exact sound.issued other member.1
  case settled =>
    intro other happened
    exact sound.settled_delete stored (System.settled_record.mp happened)
  case waiting =>
    intro other member
    rw [System.timesReceived_record, System.timesFailed_record]
    exact sound.waiting other member
  case flying =>
    intro entry member
    rw [System.timesReceived_record, System.timesFailed_record]
    exact sound.flying entry (List.mem_filter.mp member).1
  case dead =>
    intro other member
    rw [System.timesReceived_record, System.timesFailed_record]
    exact sound.dead other member
  case bounded =>
    intro object
    rw [System.timesReceived_record]
    exact sound.bounded object

theorem fail (sound : Sound limit system) (handle : Int) : Sound limit (system.fail handle).2 := by
  rcases stored : system.queue.inFlight.get? handle with _ | message
  · rw [System.fail_unknown (by simp [Dict.mem_keys, stored])]
    exact sound
  rw [System.fail_known stored]
  obtain ⟨counted, readyOthers, flyingOthers, deadOthers⟩ := sound.settle stored
  have entered := Dict.mem_of_get? stored
  obtain ⟨received, failed⟩ := sound.flying (handle, message) entered
  have bound := sound.bounded message.object
  have limited := sound.limited
  dsimp only at received failed
  constructor
  case limited => exact sound.limited
  case placed =>
    intro object
    have placed := sound.placed object
    rw [System.length_places] at placed ⊢
    refine Eq.trans ?_ placed
    rw [System.acknowledgements_record]
    simp only [StandardQueue.occurrences, System.record, counted object]
    change _ + (system.acknowledgements object + _) = _
    split <;> simp only [List.countP_append, List.countP_singleton, beq_iff_eq] <;> omega
  case unsent =>
    intro object later
    have sent : message.object < system.sent := by
      refine sound.sent_of_occurrence ?_
      rw [StandardQueue.occurrences, counted message.object, if_pos rfl]
      omega
    have differs : message.object ≠ object := by
      change system.sent ≤ object at later
      omega
    rw [System.timesReceived_record, System.timesFailed_record]
    simp only [differs, if_false, Nat.add_zero]
    exact sound.unsent object later
  case handles => exact sound.handles.sublist (List.filter_sublist.map _)
  case issued =>
    intro other member
    rw [System.record, keys_delete, List.mem_filter] at member
    exact sound.issued other member.1
  case settled =>
    intro other happened
    exact sound.settled_delete stored (System.settled_record.mp happened)
  case waiting =>
    intro other member
    rw [System.timesReceived_record, System.timesFailed_record]
    simp only [System.record] at member
    split at member
    · simp only [readyOthers other member, if_false, Nat.add_zero]
      exact sound.waiting other member
    · rcases List.mem_append.mp member with earlier | new
      · simp only [readyOthers other earlier, if_false, Nat.add_zero]
        exact sound.waiting other earlier
      · obtain rfl := List.mem_singleton.mp new
        simp only [if_true, Nat.add_zero]
        refine ⟨received, failed, ?_⟩
        simp only [receiveLimit]
        omega
  case flying =>
    intro entry member
    rw [System.timesReceived_record, System.timesFailed_record]
    simp only [flyingOthers entry member, if_false, Nat.add_zero]
    exact sound.flying entry (List.mem_filter.mp member).1
  case dead =>
    intro other member
    rw [System.timesReceived_record, System.timesFailed_record]
    simp only [System.record] at member
    split at member
    · rcases List.mem_append.mp member with earlier | new
      · simp only [deadOthers other earlier, if_false, Nat.add_zero]
        exact sound.dead other earlier
      · obtain rfl := List.mem_singleton.mp new
        simp only [if_true, Nat.add_zero]
        refine ⟨received, failed, ?_⟩
        simp only [receiveLimit] at bound ⊢
        omega
    · simp only [deadOthers other member, if_false, Nat.add_zero]
      exact sound.dead other member
  case bounded =>
    intro object
    rw [System.timesReceived_record]
    exact sound.bounded object

end Sound

variable {Consumer : Type} [DecidableEq Consumer] {limit : Int} {system : System Consumer}

/-- How often the handler of a consumer returned for a key. -/
def System.completions (system : System Consumer) (consumer : Consumer) (key : Text) : Nat :=
  system.history.count (.completed consumer key)

/-- The operation is one of the queue alone. -/
structure Quiet (before after : System Consumer) : Prop where
  consumers : after.consumers = before.consumers
  completions : ∀ consumer key, after.completions consumer key = before.completions consumer key

theorem Quiet.receive (system : System Consumer) : Quiet system system.receive.2 := by
  rcases waits : system.queue.ready with _ | ⟨head, rest⟩
  · rw [System.receive_none waits]
    exact ⟨rfl, fun _ _ => rfl⟩
  · rw [System.receive_some waits]
    exact ⟨rfl, fun _ _ => by simp [System.completions, System.record]⟩

theorem Quiet.ack (system : System Consumer) (handle : Int)
    : Quiet system (system.ack handle).2 := by
  rcases stored : system.queue.inFlight.get? handle with _ | message
  · rw [System.ack_unknown (by simp [Dict.mem_keys, stored])]
    exact ⟨rfl, fun _ _ => rfl⟩
  · rw [System.ack_known stored]
    exact ⟨rfl, fun _ _ => by simp [System.completions, System.record]⟩

theorem Quiet.fail (system : System Consumer) (handle : Int)
    : Quiet system (system.fail handle).2 := by
  rcases stored : system.queue.inFlight.get? handle with _ | message
  · rw [System.fail_unknown (by simp [Dict.mem_keys, stored])]
    exact ⟨rfl, fun _ _ => rfl⟩
  · rw [System.fail_known stored]
    exact ⟨rfl, fun _ _ => by simp [System.completions, System.record]⟩

/-- A consumer records a key exactly when its handler has returned for it, and handles none that
it has recorded.
-/
structure Deduplicated (system : System Consumer) : Prop where
  once : ∀ consumer key, system.completions consumer key
    = if key ∈ (system.consumers consumer).processedKeys then 1 else 0
  handling : ∀ consumer received, (system.consumers consumer).handling = some received
    → received.message.dedupKey ∉ (system.consumers consumer).processedKeys

theorem Deduplicated.create : Deduplicated (System.create limit : System Consumer) where
  once _ _ := by simp [System.completions, System.create, IdempotentConsumer.create]
  handling _ _ busy := by cases busy

variable {after : System Consumer}

theorem Deduplicated.quiet (dedup : Deduplicated system) (quiet : Quiet system after)
    : Deduplicated after where
  once consumer key := by
    rw [quiet.completions, quiet.consumers]
    exact dedup.once consumer key
  handling consumer received busy := by
    rw [quiet.consumers] at busy ⊢
    exact dedup.handling consumer received busy

/-- Entering a handler with a new key, or leaving one, records nothing. -/
theorem Deduplicated.handles (dedup : Deduplicated system) (consumer : Consumer)
    (handled : Option ReceivedMessage)
    (new : ∀ received, handled = some received
      → received.message.dedupKey ∉ (system.consumers consumer).processedKeys)
    : Deduplicated
        (system.setConsumer consumer { system.consumers consumer with handling := handled }) where
  once other key := by
    refine (dedup.once other key).trans ?_
    by_cases same : other = consumer
    · subst same
      simp only [System.setConsumer, if_true]
    · simp only [System.setConsumer, same, if_false]
  handling other started busy := by
    by_cases same : other = consumer
    · subst same
      simp only [System.setConsumer, if_true] at busy ⊢
      exact new started busy
    · simp only [System.setConsumer, same, if_false] at busy ⊢
      exact dedup.handling other started busy

/-- A handler that returned has its key recorded, for the first time. -/
theorem Deduplicated.returns (dedup : Deduplicated system) (consumer : Consumer)
    (received : ReceivedMessage) (busy : (system.consumers consumer).handling = some received)
    : Deduplicated
        ((system.setConsumer consumer
          ((system.consumers consumer).conclude received .returns)).record
            (.completed consumer received.message.dedupKey)) where
  once other key := by
    have before := dedup.once other key
    have new := dedup.handling consumer received busy
    simp only [System.completions] at before
    simp only [System.completions, System.record, System.setConsumer, List.count_append, before,
      List.count_singleton, IdempotentConsumer.conclude]
    by_cases same : other = consumer
    · subst same
      by_cases recorded : key = received.message.dedupKey
      · subst recorded
        simp [new]
      · have differs : received.message.dedupKey ≠ key := fun equal => recorded equal.symm
        simp [recorded, differs]
    · have differs : consumer ≠ other := fun equal => same equal.symm
      simp [same, differs]
  handling other started later := by
    simp only [System.record, System.setConsumer, IdempotentConsumer.conclude] at later ⊢
    split at later
    next same => cases later
    next differs =>
      rw [if_neg differs]
      exact dedup.handling other started later

-- Every interleaving

/-- Consumers and recorded completions are no part of the queue. -/
theorem Sound.setConsumer (sound : Sound limit system) (consumer : Consumer)
    (state : IdempotentConsumer)
    : Sound limit (system.setConsumer consumer state) :=
  { sound with }

omit [DecidableEq Consumer] in
theorem Sound.completed (sound : Sound limit system) (consumer : Consumer) (key : Text)
    : Sound limit (system.record (.completed consumer key)) where
  limited := sound.limited
  placed object := by
    refine Eq.trans ?_ (sound.placed object)
    rw [System.length_places, System.length_places, System.acknowledgements_record]
    rfl
  unsent object later := by
    rw [System.timesReceived_record, System.timesFailed_record]
    exact sound.unsent object later
  handles := sound.handles
  issued := sound.issued
  settled handle happened := by
    rcases System.settled_record.mp happened with earlier | now
    · exact sound.settled handle earlier
    · cases now
  waiting message member := by
    rw [System.timesReceived_record, System.timesFailed_record]
    exact sound.waiting message member
  flying entry member := by
    rw [System.timesReceived_record, System.timesFailed_record]
    exact sound.flying entry member
  dead message member := by
    rw [System.timesReceived_record, System.timesFailed_record]
    exact sound.dead message member
  bounded object := by
    rw [System.timesReceived_record]
    exact sound.bounded object

/-- One operation keeps both invariants, by cases on the operation. -/
theorem Step.keeps (step : Step system after) (sound : Sound limit system)
    (dedup : Deduplicated system)
    : Sound limit after ∧ Deduplicated after := by
  cases step with
  | send body dedupKey =>
      exact ⟨sound.send body dedupKey, dedup.quiet ⟨rfl, fun _ _ => rfl⟩⟩
  | receive => exact ⟨sound.receive, dedup.quiet (.receive system)⟩
  | ack handle => exact ⟨sound.ack handle, dedup.quiet (.ack system handle)⟩
  | fail handle => exact ⟨sound.fail handle, dedup.quiet (.fail system handle)⟩
  | pollBegins consumer idle =>
      have delivered := sound.receive
      have known := dedup.quiet (.receive system)
      unfold System.pollBegins
      split
      next after received =>
        rw [received] at delivered known
        exact ⟨delivered, known⟩
      next received after taken =>
        rw [taken] at delivered known
        dsimp only at delivered known
        by_cases processed
          : received.message.dedupKey ∈ (after.consumers consumer).processedKeys
        · simp only [IdempotentConsumer.begin, processed, if_true]
          exact ⟨delivered.ack _, known.quiet (.ack after _)⟩
        · simp only [IdempotentConsumer.begin, processed, if_false]
          refine ⟨delivered.setConsumer consumer _, known.handles consumer (some received) ?_⟩
          intro started same
          obtain rfl := Option.some.inj same
          exact processed
  | pollEnds consumer received outcome busy =>
      cases outcome with
      | returns =>
          have recorded := dedup.returns consumer received busy
          exact ⟨((sound.setConsumer consumer _).completed consumer _).ack _,
            recorded.quiet (.ack _ _)⟩
      | raises =>
          exact ⟨(sound.setConsumer consumer _).fail _,
            (dedup.handles consumer none (by intro _ absent; cases absent)).quiet (.fail _ _)⟩
      | escapes =>
          exact ⟨sound.setConsumer consumer _,
            dedup.handles consumer none (by intro _ absent; cases absent)⟩

/-- Both invariants hold along every interleaving, by induction on the operations. -/
theorem Steps.keeps (steps : Steps system after) (sound : Sound limit system)
    (dedup : Deduplicated system)
    : Sound limit after ∧ Deduplicated after := by
  induction steps with
  | refl => exact ⟨sound, dedup⟩
  | step _ last ih => exact last.keeps ih.1 ih.2

/-- The dead letters only grow, by cases on the operation. -/
theorem Step.dlq_subset (step : Step system after) (dead : message ∈ system.queue.dlq)
    : message ∈ after.queue.dlq := by
  have received : system.receive.2.queue.dlq = system.queue.dlq := by
    rcases waits : system.queue.ready with _ | ⟨head, rest⟩
    · rw [System.receive_none waits]
    · rw [System.receive_some waits]
      rfl
  have acked (other : System Consumer) (handle : Int)
      : (other.ack handle).2.queue.dlq = other.queue.dlq := by
    rcases stored : other.queue.inFlight.get? handle with _ | found
    · rw [System.ack_unknown (by simp [Dict.mem_keys, stored])]
    · rw [System.ack_known stored]
      rfl
  have failed (other : System Consumer) (handle : Int) (there : message ∈ other.queue.dlq)
      : message ∈ (other.fail handle).2.queue.dlq := by
    rcases stored : other.queue.inFlight.get? handle with _ | found
    · rw [System.fail_unknown (by simp [Dict.mem_keys, stored])]
      exact there
    · rw [System.fail_known stored]
      simp only [System.record]
      split
      · exact List.mem_append_left _ there
      · exact there
  cases step with
  | send body dedupKey => exact dead
  | receive => rwa [received]
  | ack handle => rwa [acked]
  | fail handle => exact failed system handle dead
  | pollBegins consumer idle =>
      unfold System.pollBegins
      split
      next after taken =>
        rw [taken] at received
        rwa [received]
      next found after taken =>
        rw [taken] at received
        dsimp only at received
        split
        · rwa [acked, received]
        · rw [← received] at dead
          exact dead
  | pollEnds consumer found outcome busy =>
      cases outcome with
      | returns =>
          refine Eq.mpr (congrArg (message ∈ ·) (acked _ _)) ?_
          exact dead
      | raises => exact failed _ _ dead
      | escapes => exact dead

theorem Steps.dlq_subset (steps : Steps system after) (dead : message ∈ system.queue.dlq)
    : message ∈ after.queue.dlq := by
  induction steps with
  | refl => exact dead
  | step _ last ih => exact last.dlq_subset ih

/-- No message is lost or duplicated, none is received more often than the limit, a dead one was
failed at every receive and stays dead, stale receipts change nothing, and no consumer handles a
key twice. A limit below one counts as one.
-/
theorem queue_keeps_messages (limit : Int) {system : System Consumer}
    (reached : Steps (System.create limit) system)
    : (∀ object < system.sent, ∃ place, system.places object = [place])
      ∧ (∀ message : Message, message ∈ system.queue.ready
          ∨ (∃ handle, (handle, message) ∈ system.queue.inFlight) ∨ message ∈ system.queue.dlq
          → message.receiveCount = system.timesReceived message.object)
      ∧ (∀ object, system.timesReceived object ≤ receiveLimit limit)
      ∧ (∀ message ∈ system.queue.dlq,
          system.timesReceived message.object = receiveLimit limit
          ∧ system.timesFailed message.object = receiveLimit limit
          ∧ ∀ later, Steps system later → message ∈ later.queue.dlq
              ∧ later.timesReceived message.object = system.timesReceived message.object)
      ∧ (∀ handle, handle ∉ system.queue.inFlight.keys ∨ system.Settled handle
          → system.ack handle = (.error (.unknownReceipt handle), system)
            ∧ system.fail handle = (.error (.unknownReceipt handle), system))
      ∧ ∀ consumer key, system.completions consumer key ≤ 1 := by
  obtain ⟨sound, dedup⟩ := reached.keeps (.create limit) .create
  refine ⟨?_, ?_, sound.bounded, ?_, ?_, ?_⟩
  · intro object sent
    have placed := sound.placed object
    rw [if_pos sent] at placed
    exact List.length_eq_one_iff.mp placed
  · rintro message (waiting | ⟨handle, flying⟩ | dead)
    · exact (sound.waiting message waiting).1.symm
    · exact (sound.flying (handle, message) flying).1.symm
    · exact (sound.dead message dead).1.symm
  · intro message dead
    obtain ⟨received, failed, limited⟩ := sound.dead message dead
    refine ⟨by rw [received, limited], by rw [failed, limited], ?_⟩
    intro later steps
    have still := steps.dlq_subset dead
    obtain ⟨receivedLater, _, _⟩ := (steps.keeps sound dedup).1.dead message still
    exact ⟨still, receivedLater.trans received.symm⟩
  · intro handle stale
    have unknown : handle ∉ system.queue.inFlight.keys := by
      rcases stale with unknown | settled
      · exact unknown
      · exact (sound.settled handle settled).2
    exact ⟨System.ack_unknown unknown, System.fail_unknown unknown⟩
  · intro consumer key
    rw [dedup.once consumer key]
    split <;> omega

/-- A message sent once, received and failed under a limit of one is in one place. -/
theorem queue_keeps_poison_message
    : ∃ place,
        ((((System.create 1 : System Unit).send [] (py "scan")).receive.2).fail 0).2.places 0
          = [place] :=
  (queue_keeps_messages 1
    (.step (.step (.step .refl (.send [] (py "scan"))) .receive) (.fail 0))).1 0 (by decide)

/-- Under a limit of zero the first receive already exceeds the limit. -/
theorem zero_limit_exceeded
    : ¬∀ (limit : Int) (system : System Unit), Steps (System.create limit) system
        → ∀ entry ∈ system.queue.inFlight, (entry.2.receiveCount : Int) ≤ limit := by
  intro claimed
  have received := claimed 0 _ (.step (.step .refl (.send [] (py "scan"))) .receive)
    (0, ⟨0, [], py "scan", 1⟩) (by decide)
  exact absurd received (by decide)

end Scanipy.Services.Substrate
