import MartyCore.Storage.Model

/-!
# `Storage.Queue` — the offline reporting queue

The embedding of the queue of `marty-secure-storage/src/database.rs` (`queue_event`, `get_pending_events`,
`remove_queued_event`, `record_queue_batch_failure`, `acknowledge_queue_batch`) and what becomes of an event over any
calls: it stays pending, with its payload and the number of failed batches that named it, until the first acknowledgement or
removal that names it (`Delivered`).

A count is written as a 64-bit integer and read as an `i32`: after 2^31 failed batches have named an event,
`get_pending_events` fails for as long as the event is pending, whatever else is queued (`Delivers.readable`).
-/

namespace MartyCore.Storage

open Method Exec List

/-! ## The table -/

structure QueueRow where
  id : Str
  eventType : Str
  payload : Str
  createdAt : Str
  retryCount : Int
  lastRetryAt : Option Str
  error : Option Str
deriving DecidableEq

/-- The row of `offline_queue_state`. -/
structure QueueState where
  lastSyncAttempt : Option Str
  lastSuccessfulSync : Option Str
  lastError : Option Str
deriving DecidableEq

structure Queue where
  events : List QueueRow
  state : Option QueueState
deriving DecidableEq

def Queue.empty : Queue := ⟨[], none⟩

def Queue.ids (queue : Queue) : List Str := queue.events.map QueueRow.id

def Queue.lastSuccessfulSync (queue : Queue) : Option Str := queue.state.bind QueueState.lastSuccessfulSync

structure OfflineQueueEntry (N : Type) where
  id : Str
  eventType : Str
  payload : Json N
  createdAt : DateTime
  retryCount : Int
  lastRetryAt : Option DateTime
  error : Option Str

section

variable {N : Type} (platform : Platform N)

/-- `id` is the generated UUID and `now` the time it is read at. -/
def queueEvent (id : Str) (now : DateTime) (eventType : Str) (payload : Json N) : Method Queue Error Str := do
  let queue ← get
  Method.call (Exec.reject (id ∈ queue.ids) (.database "UNIQUE constraint failed: offline_queue.id"))
  set ({ queue with events := queue.events ++
    [⟨id, eventType, platform.toJson payload, platform.toRfc3339 now, 0, none, none⟩] } : Queue)
  return id

/-- `row.get::<_, i32>(index)`. -/
def readI32 (index : Nat) (value : Int) : Exec Error Int := do
  Exec.reject (¬ (-2 ^ 31 ≤ value ∧ value < 2 ^ 31))
    (.database ("Integer " ++ toString value ++ " out of range at index " ++ toString index))
  return value

/-- `now` is read only for a creation time that cannot be parsed. -/
def readEvent (now : DateTime) (row : QueueRow) : Exec Error (OfflineQueueEntry N) := do
  let retryCount ← readI32 4 row.retryCount
  return ⟨row.id, row.eventType, (platform.fromJson row.payload).getD .null,
    (platform.parseRfc3339 row.createdAt).getD now, retryCount, row.lastRetryAt.bind platform.parseRfc3339, row.error⟩

/-- `i64::try_from(limit).unwrap_or(i64::MAX)`. -/
def sqlLimit (limit : Nat) : Nat := if limit < 2 ^ 63 then limit else 2 ^ 63 - 1

/-- `ORDER BY created_at ASC LIMIT ?`. -/
def pendingRows (limit : Nat) (queue : Queue) : List QueueRow :=
  (queue.events.insertionSort (fun a b => a.createdAt ≤ b.createdAt)).take (sqlLimit limit)

def getPendingEvents (now : DateTime) (limit : Nat) (queue : Queue) : Exec Error (List (OfflineQueueEntry N)) :=
  (pendingRows limit queue).mapM (readEvent platform now)

def removeQueuedEvent (id : Str) : Method Queue Error Unit := do
  let queue ← get
  set ({ queue with events := queue.events.filter (fun row => row.id ≠ id) } : Queue)

def maxQueueBatchSize : Nat := 1000

def maxQueueErrorChars : Nat := 1024

def validateQueueBatch (ids : List Str) : Exec Error Unit := do
  Exec.reject (ids = []) (.invalidQueueBatch "at least one event id is required")
  Exec.reject (maxQueueBatchSize < ids.length) (.invalidQueueBatch ("batch contains " ++ toString ids.length ++
    " events; maximum is " ++ toString maxQueueBatchSize))
  Exec.reject ([] ∈ ids) (.invalidQueueBatch "event ids cannot be empty")
  Exec.reject (¬ ids.Nodup) (.invalidQueueBatch "event ids must be unique")

def boundedQueueError (error : Str) : Str := error.take maxQueueErrorChars

/-- `UPDATE … SET retry_count = retry_count + 1, … WHERE id = ?`, on one row. -/
def bump (now error : Str) (row : QueueRow) : QueueRow :=
  { row with retryCount := row.retryCount + 1, lastRetryAt := some now, error := some error }

/-- A statement for each id, which has to change one row. -/
def forEachEvent (statement : Str → List QueueRow → List QueueRow) : List Str → Method Queue Error Unit
  | [] => return
  | id :: rest => do
    let queue ← get
    set ({ queue with events := statement id queue.events } : Queue)
    Method.call (Exec.reject (queue.events.countP (fun row => row.id = id) ≠ 1)
      (.invalidQueueBatch ("event " ++ name id ++ " is missing")))
    forEachEvent statement rest

def failEvent (now error : Str) (id : Str) (events : List QueueRow) : List QueueRow :=
  events.map (fun row => if row.id = id then bump now error row else row)

def deleteEvent (id : Str) (events : List QueueRow) : List QueueRow := events.filter (fun row => row.id ≠ id)

/-- One transaction for a batch: a statement for each id, then the new row of `offline_queue_state`. -/
def batchTransaction (statement : Str → List QueueRow → List QueueRow) (state : Queue → QueueState) (ids : List Str) :
    Method Queue Error Unit := do
  Method.call (validateQueueBatch ids)
  Method.atomically (do
    forEachEvent statement ids
    let queue ← get
    set ({ queue with state := some (state queue) } : Queue))

def recordQueueBatchFailure (ids : List Str) (error : Str) (now : DateTime) : Method Queue Error Unit :=
  batchTransaction (failEvent (platform.toRfc3339 now) (boundedQueueError error))
    (fun queue => ⟨some (platform.toRfc3339 now), queue.lastSuccessfulSync, some (boundedQueueError error)⟩) ids

def acknowledgeQueueBatch (ids : List Str) (now : DateTime) : Method Queue Error Nat := do
  batchTransaction deleteEvent
    (fun _ => ⟨some (platform.toRfc3339 now), some (platform.toRfc3339 now), none⟩) ids
  return ids.length

/-! ## Runs -/

inductive QueueCall (N : Type) where
  | queueEvent (id : Str) (now : DateTime) (eventType : Str) (payload : Json N)
  | getPendingEvents (now : DateTime) (limit : Nat)
  | removeQueuedEvent (id : Str)
  | recordQueueBatchFailure (ids : List Str) (error : Str) (now : DateTime)
  | acknowledgeQueueBatch (ids : List Str) (now : DateTime)

def QueueCall.perform (call : QueueCall N) (queue : Queue) : Exec Error Unit × Queue :=
  match call with
  | .queueEvent id now eventType payload =>
    (Storage.queueEvent platform id now eventType payload >>= fun _ => pure ()).run queue
  | .getPendingEvents now limit => ((Storage.getPendingEvents platform now limit queue).map (fun _ => ()), queue)
  | .removeQueuedEvent id => (Storage.removeQueuedEvent id).run queue
  | .recordQueueBatchFailure ids error now => (Storage.recordQueueBatchFailure platform ids error now).run queue
  | .acknowledgeQueueBatch ids now => (Storage.acknowledgeQueueBatch platform ids now >>= fun _ => pure ()).run queue

/-- The id of the event that a call queues. -/
def QueueCall.queued : QueueCall N → Option Str
  | .queueEvent id _ _ _ => some id
  | _ => none

/-- An acknowledgement or removal that names the event. -/
def QueueCall.ends (id : Str) : QueueCall N → Bool
  | .acknowledgeQueueBatch ids _ => id ∈ ids
  | .removeQueuedEvent id' => id' = id
  | _ => false

/-- A failed batch that names the event. -/
def QueueCall.fails (id : Str) : QueueCall N → Bool
  | .recordQueueBatchFailure ids _ _ => id ∈ ids
  | _ => false

/-- The queue after some calls and those among them that succeeded. -/
structure Delivery (N : Type) where
  queue : Queue
  done : List (QueueCall N)

def Delivery.extend (delivery : Delivery N) (call : QueueCall N) : Delivery N :=
  match call.perform platform delivery.queue with
  | (.ok (), queue) => ⟨queue, delivery.done ++ [call]⟩
  | (.error _, queue) => ⟨queue, delivery.done⟩

def Delivery.of (calls : List (QueueCall N)) : Delivery N := calls.foldl (Delivery.extend platform) ⟨.empty, []⟩

end

/-! ## Batches -/

variable {N : Type} {platform : Platform N} {queue queue' : Queue} {ids : List Str} {events : List QueueRow}
variable {statement : Str → List QueueRow → List QueueRow} {state : Queue → QueueState}

/-- A batch that the queue accepts. -/
structure BatchOk (ids : List Str) (queue : Queue) : Prop where
  nonempty : ids ≠ []
  size : ids.length ≤ maxQueueBatchSize
  named : [] ∉ ids
  distinct : ids.Nodup
  present : ∀ id ∈ ids, id ∈ queue.ids

theorem validateQueueBatch_ok_iff {u : Unit} :
    validateQueueBatch ids = .ok u ↔ ids ≠ [] ∧ ids.length ≤ maxQueueBatchSize ∧ [] ∉ ids ∧ ids.Nodup := by
  unfold validateQueueBatch
  simp [reject_bind_ok_iff, reject_ok_iff]

/-- A statement that touches the row of its id only. -/
structure Pointwise (statement : Str → List QueueRow → List QueueRow) : Prop where
  keyed : ∀ id events, (events.map QueueRow.id).Nodup → ((statement id events).map QueueRow.id).Nodup
  other : ∀ id id' events, id' ≠ id → (id' ∈ (statement id events).map QueueRow.id ↔ id' ∈ events.map QueueRow.id)

theorem map_id_bump (p : QueueRow → Prop) [DecidablePred p] (now error : Str) (events : List QueueRow) :
    (events.map (fun row => if p row then bump now error row else row)).map QueueRow.id = events.map QueueRow.id := by
  rw [map_map]
  refine map_congr_left (fun row _ => ?_)
  by_cases h : p row
  · simp [h, bump]
  · simp [h]

theorem pointwise_failEvent (now error : Str) : Pointwise (failEvent now error) where
  keyed id events h := by rwa [failEvent, map_id_bump]
  other id id' events _ := by rw [failEvent, map_id_bump]

theorem pointwise_deleteEvent : Pointwise deleteEvent where
  keyed id events h := h.sublist (filter_sublist.map QueueRow.id)
  other id id' events hne := by
    unfold deleteEvent
    simp only [mem_map, mem_filter, decide_eq_true_eq]
    constructor
    · rintro ⟨row, ⟨hrow, -⟩, rfl⟩
      exact ⟨row, hrow, rfl⟩
    · rintro ⟨row, hrow, rfl⟩
      exact ⟨row, ⟨hrow, hne⟩, rfl⟩

theorem countP_eq_one_iff (hkeyed : (events.map QueueRow.id).Nodup) (id : Str) :
    events.countP (fun row => row.id = id) = 1 ↔ id ∈ events.map QueueRow.id := by
  have hcount : events.countP (fun row => row.id = id) = (events.map QueueRow.id).count id := by
    rw [count_eq_countP, countP_map]
    exact countP_congr (fun row _ => by simp)
  rw [hcount, hkeyed.count]
  split
  · next h => simp [h]
  · next h => simp [h]

/-- **The loop of a batch ends exactly when every id is that of an event**, and has then made every statement once. -/
theorem forEachEvent_run (hpoint : Pointwise statement) (hkeyed : queue.ids.Nodup) (hids : ids.Nodup) :
    ((∀ id ∈ ids, id ∈ queue.ids) ∧
        (forEachEvent statement ids).run queue =
          (.ok (), { queue with events := ids.foldl (fun events id => statement id events) queue.events })) ∨
      ((¬ ∀ id ∈ ids, id ∈ queue.ids) ∧ ∃ e queue', (forEachEvent statement ids).run queue = (.error e, queue')) := by
  induction ids generalizing queue with
  | nil => exact .inl ⟨by simp, rfl⟩
  | cons id rest ih =>
    obtain ⟨hnotin, hrest⟩ := nodup_cons.mp hids
    rw [forEachEvent, run_get_bind, run_set_bind]
    by_cases hid : id ∈ queue.ids
    · rw [run_call_bind (reject_neg (not_not.mpr ((countP_eq_one_iff hkeyed id).mpr hid)))]
      have hpresent : (∀ x ∈ rest, x ∈ (statement id queue.events).map QueueRow.id) ↔ ∀ x ∈ rest, x ∈ queue.ids := by
        refine forall₂_congr (fun x hx => hpoint.other id x queue.events ?_)
        rintro rfl
        exact hnotin hx
      rcases @ih { queue with events := statement id queue.events } (hpoint.keyed id _ hkeyed) hrest with
        ⟨hall, hrun⟩ | ⟨hnot, hrun⟩
      · exact .inl ⟨forall_mem_cons.mpr ⟨hid, hpresent.mp hall⟩, hrun⟩
      · exact .inr ⟨fun hall => hnot (hpresent.mpr (forall_mem_cons.mp hall).2), hrun⟩
    · have hmissing : queue.events.countP (fun row => row.id = id) ≠ 1 :=
        fun h => hid ((countP_eq_one_iff hkeyed id).mp h)
      refine .inr ⟨fun hall => hid (hall id mem_cons_self), ?_⟩
      rw [run_call_error_bind (reject_pos hmissing)]
      exact ⟨_, _, rfl⟩

variable (state) in
/-- **A batch is taken as a whole, or the queue is left as it was.** -/
theorem batchTransaction_run (hpoint : Pointwise statement) (hkeyed : queue.ids.Nodup) :
    (BatchOk ids queue ∧ (batchTransaction statement state ids).run queue = (.ok (),
        { events := ids.foldl (fun events id => statement id events) queue.events
          state := some (state { queue with
            events := ids.foldl (fun events id => statement id events) queue.events }) })) ∨
      (¬ BatchOk ids queue ∧ ∃ e, (batchTransaction statement state ids).run queue = (.error e, queue)) := by
  unfold batchTransaction
  rcases hvalid : validateQueueBatch ids with e | u
  · refine .inr ⟨fun h => ?_, e, run_call_error_bind rfl _ _⟩
    have hok := validateQueueBatch_ok_iff (u := ()).mpr ⟨h.nonempty, h.size, h.named, h.distinct⟩
    rw [hok] at hvalid
    cases hvalid
  · obtain ⟨hne, hsize, hnamed, hids⟩ := validateQueueBatch_ok_iff.mp hvalid
    rcases forEachEvent_run hpoint hkeyed hids with ⟨hall, hrun⟩ | ⟨hnot, e, queue', hrun⟩
    · refine .inl ⟨⟨hne, hsize, hnamed, hids, hall⟩, run_atomically_ok ?_⟩
      rw [run_bind_ok hrun]
      rfl
    · exact .inr ⟨fun h => hnot h.present, e, run_atomically_error (run_bind_error hrun)⟩

theorem foldl_failEvent (now error : Str) (hids : ids.Nodup) (events : List QueueRow) :
    ids.foldl (fun events id => failEvent now error id events) events =
      events.map (fun row => if row.id ∈ ids then bump now error row else row) := by
  induction ids generalizing events with
  | nil => simp
  | cons id rest ih =>
    obtain ⟨hnotin, hrest⟩ := nodup_cons.mp hids
    rw [foldl_cons, ih hrest, failEvent, map_map]
    refine map_congr_left (fun row _ => ?_)
    by_cases hrow : row.id = id
    · simp [hrow, bump, hnotin]
    · simp [hrow]

theorem foldl_deleteEvent (ids : List Str) (events : List QueueRow) :
    ids.foldl (fun events id => deleteEvent id events) events = events.filter (fun row => row.id ∉ ids) := by
  induction ids generalizing events with
  | nil => simp
  | cons id rest ih =>
    rw [foldl_cons, ih, deleteEvent, filter_filter]
    refine filter_congr (fun row _ => ?_)
    simp [not_or, Bool.and_comm]

/-! ## Calls -/

variable (platform) in
/-- What a successful call has found and done. -/
def QueueCall.Done (queue queue' : Queue) : QueueCall N → Prop
  | .queueEvent id now eventType payload => id ∉ queue.ids ∧ queue' = { queue with events := queue.events ++
      [⟨id, eventType, platform.toJson payload, platform.toRfc3339 now, 0, none, none⟩] }
  | .getPendingEvents _ _ => queue' = queue
  | .removeQueuedEvent id => queue' = { queue with events := queue.events.filter (fun row => row.id ≠ id) }
  | .recordQueueBatchFailure ids error now => BatchOk ids queue ∧ queue' =
      { events := queue.events.map (fun row =>
          if row.id ∈ ids then bump (platform.toRfc3339 now) (boundedQueueError error) row else row)
        state := some ⟨some (platform.toRfc3339 now), queue.lastSuccessfulSync, some (boundedQueueError error)⟩ }
  | .acknowledgeQueueBatch ids now => BatchOk ids queue ∧ queue' =
      { events := queue.events.filter (fun row => row.id ∉ ids)
        state := some ⟨some (platform.toRfc3339 now), some (platform.toRfc3339 now), none⟩ }

variable {call : QueueCall N}

variable (platform) in
/-- **A failed batch is counted for each of its events once, an acknowledged one is deleted, or the queue is left.** -/
theorem QueueCall.batch_run (hkeyed : queue.ids.Nodup)
    (hcall : (∃ error now, call = .recordQueueBatchFailure ids error now) ∨
      ∃ now, call = .acknowledgeQueueBatch ids now) :
    (∃ queue', call.perform platform queue = (.ok (), queue') ∧ call.Done platform queue queue') ∨
      (¬ BatchOk ids queue ∧ ∃ e, call.perform platform queue = (.error e, queue)) := by
  rcases hcall with ⟨error, now, rfl⟩ | ⟨now, rfl⟩
  · rcases batchTransaction_run
        (fun queue => ⟨some (platform.toRfc3339 now), queue.lastSuccessfulSync, some (boundedQueueError error)⟩)
        (pointwise_failEvent (platform.toRfc3339 now) (boundedQueueError error)) hkeyed with ⟨hbatch, hrun⟩ | hfails
    · rw [foldl_failEvent _ _ hbatch.distinct] at hrun
      exact .inl ⟨_, hrun, hbatch, rfl⟩
    · exact .inr hfails
  · rcases batchTransaction_run (fun _ => ⟨some (platform.toRfc3339 now), some (platform.toRfc3339 now), none⟩)
        pointwise_deleteEvent hkeyed with ⟨hbatch, hrun⟩ | ⟨hbatch, e, hrun⟩
    · rw [foldl_deleteEvent] at hrun
      have hlength : (Storage.acknowledgeQueueBatch platform ids now).run queue = (.ok ids.length, _) :=
        (run_bind_ok hrun).trans rfl
      exact .inl ⟨_, (run_bind_ok hlength).trans rfl, hbatch, rfl⟩
    · exact .inr ⟨hbatch, e, run_bind_error (run_bind_error hrun)⟩

/-- An event with a new id is appended. -/
theorem queueEvent_run {id : Str} (hid : id ∉ queue.ids) (now : DateTime) (eventType : Str) (payload : Json N) :
    (QueueCall.queueEvent id now eventType payload).perform platform queue = (.ok (), { queue with events :=
      queue.events ++ [⟨id, eventType, platform.toJson payload, platform.toRfc3339 now, 0, none, none⟩] }) := by
  have hrun : (queueEvent platform id now eventType payload).run queue = (.ok id, { queue with events :=
      queue.events ++ [⟨id, eventType, platform.toJson payload, platform.toRfc3339 now, 0, none, none⟩] }) := by
    unfold queueEvent
    rw [run_get_bind, run_call_bind (reject_neg hid)]
    rfl
  exact (run_bind_ok hrun).trans rfl

variable (platform) in
/-- **A call fails and leaves the queue, or does what its arguments say.** -/
theorem QueueCall.perform_cases (call : QueueCall N) (hkeyed : queue.ids.Nodup) :
    (∃ e, call.perform platform queue = (.error e, queue)) ∨
      ∃ queue', call.perform platform queue = (.ok (), queue') ∧ call.Done platform queue queue' := by
  cases call with
  | queueEvent id now eventType payload =>
    by_cases hid : id ∈ queue.ids
    · exact .inl ⟨_, run_bind_error (run_call_error_bind (reject_pos hid) _ _)⟩
    · exact .inr ⟨_, queueEvent_run hid now eventType payload, hid, rfl⟩
  | getPendingEvents now limit =>
    cases hread : Storage.getPendingEvents platform now limit queue with
    | error e =>
      refine .inl ⟨e, ?_⟩
      show ((Storage.getPendingEvents platform now limit queue).map _, queue) = _
      rw [hread]
      rfl
    | ok entries =>
      refine .inr ⟨queue, ?_, rfl⟩
      show ((Storage.getPendingEvents platform now limit queue).map _, queue) = _
      rw [hread]
      rfl
  | removeQueuedEvent id => exact .inr ⟨_, rfl, rfl⟩
  | recordQueueBatchFailure ids error now =>
    exact (batch_run platform hkeyed (.inl ⟨error, now, rfl⟩)).symm.imp_left And.right
  | acknowledgeQueueBatch ids now => exact (batch_run platform hkeyed (.inr ⟨now, rfl⟩)).symm.imp_left And.right

/-! ## What becomes of an event -/

/-- An acknowledgement or removal among these calls names the event. -/
def ended (id : Str) (calls : List (QueueCall N)) : Bool := calls.any (QueueCall.ends id)

/-- How many failed batches among these calls name the event. -/
def failures (id : Str) (calls : List (QueueCall N)) : Nat := calls.countP (QueueCall.fails id)

theorem ended_concat (id : Str) (calls : List (QueueCall N)) (call : QueueCall N) :
    ended id (calls ++ [call]) = (ended id calls || call.ends id) := by
  simp [ended]

theorem failures_concat (id : Str) (calls : List (QueueCall N)) (call : QueueCall N) :
    failures id (calls ++ [call]) = failures id calls + if call.fails id then 1 else 0 := by
  simp [failures, countP_append, countP_singleton]

variable (platform) in
/-- The event is pending with the payload it was queued with, named by so many failed batches. -/
def Pending (queue : Queue) (id : Str) (now : DateTime) (eventType : Str) (payload : Json N) (count : Nat) : Prop :=
  ∃ row ∈ queue.events, row.id = id ∧ row.eventType = eventType ∧ row.payload = platform.toJson payload ∧
    row.createdAt = platform.toRfc3339 now ∧ row.retryCount = count

section

variable (h : call.Done platform queue queue')

include h

/-- **What a call does to the events**: those it ends go, those a failed batch names are counted, and one may be new. -/
theorem QueueCall.Done.events_eq :
    ∃ now error new, queue'.events = (queue.events.filter (fun row => call.ends row.id = false)).map
        (fun row => if call.fails row.id then bump now error row else row) ++ new ∧
      new.map QueueRow.id = call.queued.toList ∧ ∀ id ∈ call.queued, id ∉ queue.ids := by
  cases call with
  | queueEvent id now eventType payload =>
    obtain ⟨hnew, rfl⟩ := h
    refine ⟨[], [], [⟨id, eventType, platform.toJson payload, platform.toRfc3339 now, 0, none, none⟩],
      by simp [ends, fails], rfl, fun id' hid => ?_⟩
    cases hid
    exact hnew
  | getPendingEvents now limit =>
    cases h
    exact ⟨[], [], [], by simp [ends, fails], rfl, nofun⟩
  | removeQueuedEvent id =>
    cases h
    exact ⟨[], [], [], by simp [ends, fails, eq_comm], rfl, nofun⟩
  | recordQueueBatchFailure ids error now =>
    obtain ⟨-, rfl⟩ := h
    exact ⟨platform.toRfc3339 now, boundedQueueError error, [], by simp [ends, fails], rfl, nofun⟩
  | acknowledgeQueueBatch ids now =>
    obtain ⟨-, rfl⟩ := h
    exact ⟨[], [], [], by simp [ends, fails], rfl, nofun⟩

/-- The ids are those of the events that are not ended, and that of the new one. -/
theorem QueueCall.Done.ids_eq :
    queue'.ids = queue.ids.filter (fun id => call.ends id = false) ++ call.queued.toList := by
  obtain ⟨now, error, new, hevents, hnew, -⟩ := h.events_eq
  rw [Queue.ids, hevents, map_append, map_id_bump, hnew, Queue.ids, filter_map]
  rfl

/-- Ids stay distinct. -/
theorem QueueCall.Done.keyed (hkeyed : queue.ids.Nodup) : queue'.ids.Nodup := by
  obtain ⟨-, -, -, -, -, hnew⟩ := h.events_eq
  rw [h.ids_eq]
  refine (hkeyed.filter _).append (by cases call.queued <;> simp) (fun id hold hid => ?_)
  exact hnew id (Option.mem_toList.mp hid) (mem_of_mem_filter hold)

/-- An event that is there afterwards was queued by the call, or was there and is not ended by it. -/
theorem QueueCall.Done.mem_ids {id : Str} (hid : id ∈ queue'.ids) :
    call.queued = some id ∨ id ∈ queue.ids ∧ call.ends id = false := by
  rw [h.ids_eq, mem_append, mem_filter, decide_eq_true_eq] at hid
  exact hid.symm.imp Option.mem_toList.mp (fun hkept => hkept)

/-- A pending event that the call does not end stays pending, and a failed batch that names it is counted. -/
theorem QueueCall.Done.pending {id : Str} {now : DateTime} {eventType : Str}
    {payload : Json N} {count : Nat} (hpending : Pending platform queue id now eventType payload count)
    (hends : call.ends id = false) :
    Pending platform queue' id now eventType payload (count + if call.fails id then 1 else 0) := by
  obtain ⟨row, hrow, rfl, htype, hpayload, hcreated, hcount⟩ := hpending
  obtain ⟨at_, error, new, hevents, -⟩ := h.events_eq
  have hkept : row ∈ queue.events.filter (fun row => call.ends row.id = false) :=
    mem_filter.mpr ⟨hrow, decide_eq_true hends⟩
  refine ⟨_, hevents ▸ mem_append_left _ (mem_map_of_mem hkept), ?_⟩
  by_cases hfails : call.fails row.id = true
  · simp [hfails, bump, htype, hpayload, hcreated, hcount]
  · simp [hfails, htype, hpayload, hcreated, hcount]

end

variable (platform) in
/-- **The invariant of whole runs**: an event is pending from the call that queued it to the first that ends it. -/
structure Delivered (delivery : Delivery N) : Prop where
  keyed : delivery.queue.ids.Nodup
  pending : ∀ before id now eventType payload after,
    delivery.done = before ++ .queueEvent id now eventType payload :: after → ended id after = false →
    Pending platform delivery.queue id now eventType payload (failures id after)
  gone : ∀ before id now eventType payload after,
    delivery.done = before ++ .queueEvent id now eventType payload :: after → ended id after = true →
    id ∉ delivery.queue.ids
  queued : ∀ id ∈ delivery.queue.ids, ∃ before now eventType payload after,
    delivery.done = before ++ .queueEvent id now eventType payload :: after ∧ ended id after = false

variable {delivery : Delivery N}

/-- **Every successful call keeps the invariant**, if the id it generates is new. -/
theorem Delivered.step (h : Delivered platform delivery)
    (hdone : call.Done platform delivery.queue queue')
    (hfresh : ∀ c ∈ delivery.done, ∀ id, c.queued = some id → call.queued ≠ some id) :
    Delivered platform ⟨queue', delivery.done ++ [call]⟩ := by
  refine ⟨hdone.keyed h.keyed, ?_, ?_, ?_⟩
  · intro before id now eventType payload after heq hended
    rcases split_concat_cases heq with ⟨-, rfl, rfl⟩ | ⟨after, hbefore, rfl⟩
    · obtain ⟨-, rfl⟩ := hdone
      exact ⟨_, mem_append_right _ mem_cons_self, rfl, rfl, rfl, rfl, rfl⟩
    · rw [ended_concat, Bool.or_eq_false_iff] at hended
      rw [failures_concat]
      exact hdone.pending (h.pending before id now eventType payload after hbefore hended.1) hended.2
  · intro before id now eventType payload after heq hended hid
    rcases split_concat_cases heq with ⟨-, rfl, rfl⟩ | ⟨after, hbefore, rfl⟩
    · cases hended
    · have hmem : QueueCall.queueEvent id now eventType payload ∈ delivery.done := by
        rw [hbefore]
        exact mem_append_right _ mem_cons_self
      rcases hdone.mem_ids hid with hqueued | ⟨hold, hends⟩
      · exact hfresh _ hmem id rfl hqueued
      · rw [ended_concat, hends, Bool.or_false] at hended
        exact h.gone before id now eventType payload after hbefore hended hold
  · intro id hid
    rcases hdone.mem_ids hid with hqueued | ⟨hold, hends⟩
    · cases call with
      | queueEvent id' now eventType payload =>
        cases hqueued
        exact ⟨delivery.done, now, eventType, payload, [], rfl, rfl⟩
      | getPendingEvents _ _ | removeQueuedEvent _ | recordQueueBatchFailure _ _ _ | acknowledgeQueueBatch _ _ =>
        cases hqueued
    · obtain ⟨before, now, eventType, payload, after, heq, hended⟩ := h.queued id hold
      refine ⟨before, now, eventType, payload, after ++ [call], ?_, ?_⟩
      · rw [heq, append_assoc, cons_append]
      · rw [ended_concat, hended, hends]
        rfl

theorem Delivery.of_concat (calls : List (QueueCall N)) (call : QueueCall N) :
    Delivery.of platform (calls ++ [call]) = (Delivery.of platform calls).extend platform call := by
  unfold Delivery.of
  rw [foldl_append]
  rfl

theorem Delivery.extend_ok
    (h : call.perform platform delivery.queue = (.ok (), queue')) :
    delivery.extend platform call = ⟨queue', delivery.done ++ [call]⟩ := by
  unfold Delivery.extend
  rw [h]

/-- The generated ids are distinct. -/
def DistinctIds (calls : List (QueueCall N)) : Prop := (calls.filterMap QueueCall.queued).Nodup

theorem delivered_of {calls : List (QueueCall N)} (hids : DistinctIds calls) :
    Delivered platform (Delivery.of platform calls) ∧ ∀ c ∈ (Delivery.of platform calls).done, c ∈ calls := by
  induction calls using List.reverseRecOn with
  | nil =>
    refine ⟨⟨nodup_nil, ?_, ?_, fun _ h => nomatch h⟩, fun _ h => nomatch h⟩ <;>
      · intro before id now eventType payload after heq
        exact absurd heq.symm (by simp [Delivery.of])
  | append_singleton calls call ih =>
    unfold DistinctIds at hids
    rw [filterMap_append, nodup_append] at hids
    obtain ⟨hbefore, -, hnew⟩ := hids
    obtain ⟨hdelivered, hcalls⟩ := ih hbefore
    rw [Delivery.of_concat]
    rcases call.perform_cases platform hdelivered.keyed with ⟨e, hrun⟩ | ⟨queue', hrun, hdone⟩
    · unfold Delivery.extend
      rw [hrun]
      exact ⟨hdelivered, fun c hc => mem_append_left _ (hcalls c hc)⟩
    · rw [Delivery.extend_ok hrun]
      refine ⟨hdelivered.step hdone ?_, ?_⟩
      · intro c hc id hqueued hsame
        exact hnew id (mem_filterMap.mpr ⟨c, hcalls c hc, hqueued⟩) id
          (mem_filterMap.mpr ⟨call, mem_singleton_self _, hsame⟩) rfl
      · intro c hc
        rcases mem_append.mp hc with hc | hc
        · exact mem_append_left _ (hcalls c hc)
        · exact mem_append_right _ hc

/-! ## Reading -/

/-- A count that fits an `i32`. -/
def Readable (row : QueueRow) : Prop := -2 ^ 31 ≤ row.retryCount ∧ row.retryCount < 2 ^ 31

variable (platform) in
/-- The entry of a row. -/
def entry (now : DateTime) (row : QueueRow) : OfflineQueueEntry N :=
  ⟨row.id, row.eventType, (platform.fromJson row.payload).getD .null, (platform.parseRfc3339 row.createdAt).getD now,
    row.retryCount, row.lastRetryAt.bind platform.parseRfc3339, row.error⟩

theorem readEvent_ok_iff {now : DateTime} {row : QueueRow} {e : OfflineQueueEntry N} :
    readEvent platform now row = .ok e ↔ Readable row ∧ e = entry platform now row := by
  unfold readEvent readI32
  simp only [bind_ok_iff, reject_ok_iff, not_not]
  constructor
  · rintro ⟨count, ⟨-, hread, hcount⟩, h⟩
    cases hcount
    cases h
    exact ⟨hread, rfl⟩
  · rintro ⟨hread, rfl⟩
    exact ⟨row.retryCount, ⟨(), hread, rfl⟩, rfl⟩

theorem getPendingEvents_ok_iff {now : DateTime} {limit : Nat} {entries : List (OfflineQueueEntry N)} :
    getPendingEvents platform now limit queue = .ok entries ↔
      (∀ row ∈ pendingRows limit queue, Readable row) ∧
        entries = (pendingRows limit queue).map (entry platform now) := by
  unfold getPendingEvents
  rw [Result.mapM_ok_iff]
  constructor
  · intro h
    refine ⟨fun row hrow => ?_, eq_map_of_forall₂ h (fun row _ e he => (readEvent_ok_iff.mp he).2)⟩
    obtain ⟨e, -, he⟩ := exists_of_mem_forall₂ h hrow
    exact (readEvent_ok_iff.mp he).1
  · rintro ⟨hread, rfl⟩
    rw [forall₂_map_right_iff, forall₂_same]
    exact fun row hrow => readEvent_ok_iff.mpr ⟨hread row hrow, rfl⟩

theorem nodup_pendingRows (limit : Nat) (h : queue.ids.Nodup) : ((pendingRows limit queue).map QueueRow.id).Nodup := by
  have hsorted : ((queue.events.insertionSort (fun a b => a.createdAt ≤ b.createdAt)).map QueueRow.id).Nodup :=
    ((perm_insertionSort _ _).map QueueRow.id).nodup_iff.mpr h
  exact hsorted.sublist ((take_sublist _ _).map QueueRow.id)

/-- With a sufficient limit the rows are those of the table. -/
theorem mem_pendingRows {limit : Nat} (hlimit : queue.events.length ≤ sqlLimit limit) {row : QueueRow} :
    row ∈ pendingRows limit queue ↔ row ∈ queue.events := by
  unfold pendingRows
  rw [take_of_length_le (by rw [length_insertionSort]; exact hlimit), mem_insertionSort]

variable (platform) in
/-- What holds of the queue after some calls. -/
structure Delivers (delivery : Delivery N) : Prop where
  /-- An event with a new id is queued. -/
  queues : ∀ id now eventType payload, id ∉ delivery.queue.ids →
    ((QueueCall.queueEvent id now eventType payload).perform platform delivery.queue).1 = .ok ()
  /-- What is read: no event twice, none that has ended, and with a sufficient limit every other one as it was queued,
      with the number of failed batches that named it. -/
  reads : ∀ now limit entries, getPendingEvents platform now limit delivery.queue = .ok entries →
    (entries.map OfflineQueueEntry.id).Nodup ∧
    ∀ before id at_ eventType payload after,
      delivery.done = before ++ .queueEvent id at_ eventType payload :: after →
      (ended id after = true → id ∉ entries.map OfflineQueueEntry.id) ∧
      (ended id after = false → delivery.queue.events.length ≤ sqlLimit limit →
        ∃ e ∈ entries, e.id = id ∧ e.eventType = eventType ∧ e.payload = payload ∧ e.retryCount = failures id after)
  /-- Reading with a sufficient limit succeeds just when no pending event has been named by 2^31 failed batches. -/
  readable : ∀ now limit, delivery.queue.events.length ≤ sqlLimit limit →
    ((∃ entries, getPendingEvents platform now limit delivery.queue = .ok entries) ↔
      ∀ before id at_ eventType payload after,
        delivery.done = before ++ .queueEvent id at_ eventType payload :: after → ended id after = false →
        failures id after < 2 ^ 31)
  /-- A failed batch is counted for each of its events once, or nothing changes. -/
  failed : ∀ ids error now,
    (BatchOk ids delivery.queue ∧
      (QueueCall.recordQueueBatchFailure ids error now).perform platform delivery.queue = (.ok (),
        { events := delivery.queue.events.map (fun row =>
            if row.id ∈ ids then bump (platform.toRfc3339 now) (boundedQueueError error) row else row)
          state := some ⟨some (platform.toRfc3339 now), delivery.queue.lastSuccessfulSync,
            some (boundedQueueError error)⟩ })) ∨
    (¬ BatchOk ids delivery.queue ∧
      ∃ e, (QueueCall.recordQueueBatchFailure ids error now).perform platform delivery.queue = (.error e, delivery.queue))
  /-- A batch is acknowledged and deleted, or nothing changes. -/
  acknowledged : ∀ ids now,
    (BatchOk ids delivery.queue ∧
      (QueueCall.acknowledgeQueueBatch ids now).perform platform delivery.queue = (.ok (),
        { events := delivery.queue.events.filter (fun row => row.id ∉ ids)
          state := some ⟨some (platform.toRfc3339 now), some (platform.toRfc3339 now), none⟩ })) ∨
    (¬ BatchOk ids delivery.queue ∧
      ∃ e, (QueueCall.acknowledgeQueueBatch ids now).perform platform delivery.queue = (.error e, delivery.queue))
  /-- Only a successful acknowledgement moves the clock of successful deliveries. -/
  synced : ∀ call : QueueCall N, (call.perform platform delivery.queue).2.lastSuccessfulSync ≠
      delivery.queue.lastSuccessfulSync →
    (call.perform platform delivery.queue).1 = .ok () ∧ ∃ ids now, call = .acknowledgeQueueBatch ids now

theorem Delivered.delivers (h : Delivered platform delivery) : Delivers platform delivery where
  queues := by
    intro id now eventType payload hid
    rw [queueEvent_run hid]
  reads := by
    intro now limit entries hread
    obtain ⟨-, rfl⟩ := getPendingEvents_ok_iff.mp hread
    have hids : ((pendingRows limit delivery.queue).map (entry platform now)).map OfflineQueueEntry.id =
        (pendingRows limit delivery.queue).map QueueRow.id := by
      rw [map_map]
      rfl
    rw [hids]
    refine ⟨nodup_pendingRows limit h.keyed, ?_⟩
    intro before id at_ eventType payload after heq
    constructor
    · intro hended hmem
      obtain ⟨row, hrow, rfl⟩ := mem_map.mp hmem
      exact h.gone before row.id at_ eventType payload after heq hended
        (mem_map.mpr ⟨row, (mem_insertionSort _).mp (mem_of_mem_take hrow), rfl⟩)
    · intro hended hlimit
      obtain ⟨row, hrow, hid, htype, hpayload, -, hcount⟩ := h.pending before id at_ eventType payload after heq hended
      refine ⟨entry platform now row, mem_map.mpr ⟨row, (mem_pendingRows hlimit).mpr hrow, rfl⟩, hid, htype, ?_, hcount⟩
      show (platform.fromJson row.payload).getD .null = payload
      rw [hpayload, platform.fromJson_toJson]
      rfl
  readable := by
    intro now limit hlimit
    constructor
    · rintro ⟨entries, hread⟩ before id at_ eventType payload after heq hended
      obtain ⟨row, hrow, -, -, -, -, hcount⟩ := h.pending before id at_ eventType payload after heq hended
      have hfits := (getPendingEvents_ok_iff.mp hread).1 row ((mem_pendingRows hlimit).mpr hrow)
      have hlt := hfits.2
      rw [hcount] at hlt
      exact_mod_cast hlt
    · intro hall
      refine ⟨_, getPendingEvents_ok_iff.mpr ⟨fun row hrow => ?_, rfl⟩⟩
      have hrow := (mem_pendingRows hlimit).mp hrow
      obtain ⟨before, at_, eventType, payload, after, heq, hended⟩ := h.queued row.id (mem_map.mpr ⟨row, hrow, rfl⟩)
      obtain ⟨row', hrow', hid, -, -, -, hcount⟩ := h.pending before row.id at_ eventType payload after heq hended
      have hsame : row' = row := inj_on_of_nodup_map h.keyed hrow' hrow hid
      have hlt := hall before row.id at_ eventType payload after heq hended
      unfold Readable
      rw [← hsame, hcount]
      constructor
      · exact le_trans (by decide) (Int.natCast_nonneg _)
      · exact_mod_cast hlt
  failed := by
    intro ids error now
    rcases QueueCall.batch_run platform h.keyed (.inl ⟨error, now, rfl⟩) with ⟨_, hrun, hbatch, rfl⟩ | hfails
    · exact .inl ⟨hbatch, hrun⟩
    · exact .inr hfails
  acknowledged := by
    intro ids now
    rcases QueueCall.batch_run platform h.keyed (.inr ⟨now, rfl⟩) with ⟨_, hrun, hbatch, rfl⟩ | hfails
    · exact .inl ⟨hbatch, hrun⟩
    · exact .inr hfails
  synced := by
    intro call hmoved
    rcases call.perform_cases platform h.keyed with ⟨e, hrun⟩ | ⟨queue', hrun, hdone⟩
    · rw [hrun] at hmoved
      exact absurd rfl hmoved
    · rw [hrun] at hmoved ⊢
      refine ⟨rfl, ?_⟩
      cases call with
      | queueEvent id now eventType payload =>
        obtain ⟨-, rfl⟩ := hdone
        exact absurd rfl hmoved
      | getPendingEvents now limit | removeQueuedEvent id =>
        cases hdone
        exact absurd rfl hmoved
      | recordQueueBatchFailure ids error now =>
        obtain ⟨-, rfl⟩ := hdone
        exact absurd rfl hmoved
      | acknowledgeQueueBatch ids now => exact ⟨ids, now, rfl⟩

/-- **No event is lost, duplicated or half-acknowledged, and the queue is readable just as long as no pending event has been
    named by 2^31 failed batches**, over any calls whose generated ids are distinct. -/
theorem queue_delivers {calls : List (QueueCall N)} (hids : DistinctIds calls) :
    Delivers platform (Delivery.of platform calls) :=
  (delivered_of hids).1.delivers

/-- Two events, a failed batch that names both of them, and a batch that acknowledges the first. -/
def sampleCalls : List (QueueCall Int) :=
  [.queueEvent "e".toList epoch "t".toList .null, .queueEvent "f".toList epoch "t".toList .null,
    .recordQueueBatchFailure ["e".toList, "f".toList] [] epoch, .acknowledgeQueueBatch ["e".toList] epoch]

/-- The second event is still pending, with the failure counted. -/
theorem queue_delivers_sampleCalls :
    DistinctIds sampleCalls ∧
      (Delivery.of samplePlatform sampleCalls).queue.events.map (fun row => (row.id, row.retryCount)) = [("f".toList, 1)] ∧
      Delivers samplePlatform (Delivery.of samplePlatform sampleCalls) := by
  have hids : DistinctIds sampleCalls := by
    unfold DistinctIds
    decide
  exact ⟨hids, by decide, queue_delivers hids⟩

/-! ### An event that is never delivered -/

/-- An event and so many failed batches that name it. -/
def failing (n : Nat) : List (QueueCall Int) :=
  .queueEvent "e".toList epoch "t".toList .null ::
    List.replicate n (.recordQueueBatchFailure ["e".toList] [] epoch)

/-- Every call succeeds, and the event has been counted as often. -/
theorem delivery_failing (n : Nat) :
    (Delivery.of samplePlatform (failing n)).done = failing n ∧
      ∃ row, (Delivery.of samplePlatform (failing n)).queue.events = [row] ∧ row.id = "e".toList ∧ row.retryCount = n := by
  induction n with
  | zero => exact ⟨rfl, _, rfl, rfl, rfl⟩
  | succ n ih =>
    obtain ⟨hdone, row, hevents, hid, hcount⟩ := ih
    have hcalls : failing (n + 1) = failing n ++ [.recordQueueBatchFailure ["e".toList] [] epoch] := by
      unfold failing
      rw [replicate_succ', cons_append]
    have hidsEq : (Delivery.of samplePlatform (failing n)).queue.ids = ["e".toList] := by
      unfold Queue.ids
      rw [hevents, map_singleton, hid]
    have hkeyed : (Delivery.of samplePlatform (failing n)).queue.ids.Nodup := by
      rw [hidsEq]
      exact nodup_singleton _
    have hbatch : BatchOk ["e".toList] (Delivery.of samplePlatform (failing n)).queue :=
      ⟨by simp, by decide, by decide, nodup_singleton _, by rw [hidsEq]; exact fun _ h => h⟩
    rcases QueueCall.batch_run samplePlatform hkeyed (.inl ⟨[], epoch, rfl⟩) with ⟨_, hrun, -, rfl⟩ | ⟨hnot, -⟩
    · rw [hcalls, Delivery.of_concat, Delivery.extend_ok hrun, hdone]
      refine ⟨rfl, bump (samplePlatform.toRfc3339 epoch) (boundedQueueError []) row, ?_, hid, ?_⟩
      · rw [hevents, map_singleton, hid, if_pos mem_cons_self]
      · show row.retryCount + 1 = _
        rw [hcount]
        rfl
    · exact absurd hbatch hnot

/-- After 2^31 failed batches the queue cannot be read, although no call has failed and the event is still pending. -/
theorem many_failures_block_queue :
    ∃ n, (Delivery.of samplePlatform (failing n)).done = failing n ∧
      ∀ now limit, 0 < limit →
        ∃ e, getPendingEvents samplePlatform now limit (Delivery.of samplePlatform (failing n)).queue = .error e := by
  refine ⟨2 ^ 31, (delivery_failing _).1, ?_⟩
  intro now limit hlimit
  obtain ⟨row, hevents, -, hcount⟩ := (delivery_failing (2 ^ 31)).2
  have hsufficient : (Delivery.of samplePlatform (failing (2 ^ 31))).queue.events.length ≤ sqlLimit limit := by
    rw [hevents]
    unfold sqlLimit
    split
    · exact hlimit
    · simp
  cases hread : getPendingEvents samplePlatform now limit (Delivery.of samplePlatform (failing (2 ^ 31))).queue with
  | error e => exact ⟨e, rfl⟩
  | ok entries =>
    have hfits := (getPendingEvents_ok_iff.mp hread).1 row
      ((mem_pendingRows hsufficient).mpr (by rw [hevents]; exact mem_cons_self))
    have hlt := hfits.2
    rw [hcount] at hlt
    exact absurd hlt (by decide)

end MartyCore.Storage
