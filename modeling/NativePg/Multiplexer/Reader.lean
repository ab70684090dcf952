/-
  File:      NativePg/Multiplexer/Reader.lean
  Subject:   The task of a multiplexed connection that reads: `reader()` of
             src/co_multiplexed_connection.cpp, with `read_some_messages` of src/co_connection.cpp.

  * `ReaderTask` -- the objects the task works on, where it waits, and what it has done so far;
  * `loop` -- its inner `while (true)`, from the head to the next wait or return: a notification
    goes to the queue and waits for space there, everything else goes to the multiplexer;
  * `readSomeMessages`, `start`, `receive`, `wake` -- what leads back to the loop: the beginning of
    a session, bytes, and space in the queue;
  * `loop_turn` -- the loop goes turn by turn.
-/
import NativePg.ExecSome.Missing
import NativePg.Multiplexer.Tickets
import NativePg.NotificationQueue

namespace NativePg

namespace Multiplexing

/-! ## 1. The task -/

/-- Where the task waits. -/
inductive ReaderPoint where
  /-- `co_await stream.read_some(...)` -/
  | reading
  /-- `co_await space_available_.wait()`, with the notification that is to be added. -/
  | adding (msg : NotificationResponse)
  | returned
  | faulted (fault : Fault)
  deriving DecidableEq, Repr

/-- `reader()` with the objects it works on. -/
structure ReaderTask where
  mpx : Multiplexer := {}
  readBuffer : ReadBuffer
  queue : NotificationQueue
  consumed : Nat := 0
  point : ReaderPoint := .reading
  /-- What the callers have seen. -/
  events : List Event := []

namespace ReaderTask

def committed (r : ReaderTask) : Bytes := r.readBuffer.committedArea

/-- What is in the buffer behind the messages already taken. -/
def rest (r : ReaderTask) : Bytes := r.committed.drop r.consumed

/-- `st.read_buffer.consume(consumed)`. -/
def consume (r : ReaderTask) : ReaderTask :=
  { r with readBuffer := r.readBuffer.consume r.consumed, consumed := 0 }

/-- The loop of `read_some_messages` where bytes are missing, up to its wait. -/
def waitForBytes (r : ReaderTask) : ReaderTask :=
  match r.readBuffer.prepare (messageMissingBytes r.committed) with
  | .error fault => { r with point := .faulted fault }
  | .ok readBuffer => { r with readBuffer, point := .reading }

/-- The inner loop. A `subspan` that begins behind the end is a fault. -/
def loop (r : ReaderTask) : ReaderTask :=
  if r.committed.length < r.consumed then { r with point := .faulted .outOfRange }
  else
    match _h : nextMessage r.rest with
    -- `read_some_messages` finds the same bytes missing, and reads
    | .needs _ => r.consume.waitForBytes
    | .bad _ => { r.consume with point := .returned }
    | .message (.notificationResponse msg) size =>
      match r.queue.tryAddNotify msg with
      | (true, queue) => loop { r with queue, consumed := r.consumed + size }
      | (false, queue) => { r with queue, consumed := r.consumed + size, point := .adding msg }
    | .message msg size =>
      match r.mpx.onMessage msg with
      | .error fault => { r with consumed := r.consumed + size, point := .faulted fault }
      | .ok (mpx, out) =>
        if out.ec.failed then
          { r with
            mpx
            consumed := r.consumed + size
            events := r.events ++ out.events
            point := .returned }
        else
          loop { r with mpx, consumed := r.consumed + size, events := r.events ++ out.events }
termination_by r.rest.length
decreasing_by
  all_goals
    have hpos := messageParser.message_pos _h
    have hle := messageParser.message_le _h
    simp only [rest, committed, List.length_drop] at hle ⊢
    omega

/-- `read_some_messages`, from the head of its loop; where there is a message it returns to the
    head of the inner loop. -/
def readSomeMessages (r : ReaderTask) : ReaderTask :=
  if messageMissingBytes r.committed = 0 then loop { r with consumed := 0 } else r.waitForBytes

/-- A session begins, behind `add_connect`. -/
def start (mpx : Multiplexer) (readBuffer : ReadBuffer) (queue : NotificationQueue) : ReaderTask :=
  readSomeMessages { mpx, readBuffer, queue := queue.addConnect }

/-- The read has brought `data`. -/
def receive (r : ReaderTask) (data : Bytes) : ReaderTask :=
  readSomeMessages { r with readBuffer := (r.readBuffer.receive data).commit data.length }

/-- The loop of `add_notify` once round. -/
def wake (r : ReaderTask) : ReaderTask :=
  match r.point with
  | .adding msg =>
    match r.queue.addNotify msg with
    | none => r
    | some queue => loop { r with queue }
  | _ => r

/-! ## 2. What a turn of the loop does -/

/-- Behind a message of `size` bytes. -/
def take (r : ReaderTask) (size : Nat) : ReaderTask := { r with consumed := r.consumed + size }

theorem rest_take (r : ReaderTask) (size : Nat) : (r.take size).rest = r.rest.drop size := by
  simp [rest, take, committed, List.drop_drop]

/-- A message of a kind the task hands to the multiplexer. -/
def forMultiplexer : AnyBackendMessage → Bool
  | .notificationResponse _ => false
  | _ => true

/-- What the loop does with a reader that has not gone past its bytes. -/
inductive Loops (r : ReaderTask) : ReaderTask → Prop where
  | needs {k} (h : nextMessage r.rest = .needs k) : Loops r r.consume.waitForBytes
  | bad {ec} (h : nextMessage r.rest = .bad ec) : Loops r { r.consume with point := .returned }
  | added {msg size} (h : nextMessage r.rest = .message (.notificationResponse msg) size)
      (hspace : r.queue.hasSpace = true) :
      Loops r { r.take size with queue := r.queue.doAddNotification msg }.loop
  | full {msg size} (h : nextMessage r.rest = .message (.notificationResponse msg) size)
      (hspace : r.queue.hasSpace = false) : Loops r { r.take size with point := .adding msg }
  | fault {msg size fault} (h : nextMessage r.rest = .message msg size)
      (hmsg : forMultiplexer msg = true) (hm : r.mpx.onMessage msg = .error fault) :
      Loops r { r.take size with point := .faulted fault }
  | failed {msg size mpx out} (h : nextMessage r.rest = .message msg size)
      (hmsg : forMultiplexer msg = true) (hm : r.mpx.onMessage msg = .ok (mpx, out))
      (hec : out.ec.failed = true) :
      Loops r { r.take size with mpx, events := r.events ++ out.events, point := .returned }
  | handled {msg size mpx out} (h : nextMessage r.rest = .message msg size)
      (hmsg : forMultiplexer msg = true) (hm : r.mpx.onMessage msg = .ok (mpx, out))
      (hec : out.ec.failed = false) :
      Loops r { r.take size with mpx, events := r.events ++ out.events }.loop

theorem tryAddNotify_eq {q queue : NotificationQueue} {msg : NotificationResponse} {added : Bool}
    (h : q.tryAddNotify msg = (added, queue)) :
    q.hasSpace = added ∧ queue = if added then q.doAddNotification msg else q := by
  unfold NotificationQueue.tryAddNotify at h
  cases hspace : q.hasSpace with
  | false =>
    rw [hspace] at h
    cases h
    exact ⟨rfl, rfl⟩
  | true =>
    rw [hspace] at h
    cases h
    exact ⟨rfl, rfl⟩

theorem forMultiplexer_of_ne {msg : AnyBackendMessage}
    (h : ∀ n, msg = .notificationResponse n → False) : forMultiplexer msg = true := by
  cases msg <;> first | rfl | exact absurd rfl (h _)

/-- **The loop goes turn by turn.** -/
theorem loop_turn {r : ReaderTask} (hle : r.consumed ≤ r.committed.length) : r.Loops r.loop := by
  fun_cases loop r with
  | case1 hlt => exact absurd hle (by omega)
  | case2 _ k hk => exact .needs hk
  | case3 _ ec hbad => exact .bad hbad
  | case4 _ msg size hn queue hadd =>
    obtain ⟨hspace, rfl⟩ := tryAddNotify_eq hadd
    exact .added hn hspace
  | case5 _ msg size hn queue hadd =>
    obtain ⟨hspace, rfl⟩ := tryAddNotify_eq hadd
    exact .full hn hspace
  | case6 _ msg size hother hn fault hm => exact .fault hn (forMultiplexer_of_ne hother) hm
  | case7 _ msg size hother hn mpx out hm hec =>
    exact .failed hn (forMultiplexer_of_ne hother) hm hec
  | case8 _ msg size hother hn mpx out hm hec =>
    exact .handled hn (forMultiplexer_of_ne hother) hm (eq_false_of_ne_true hec)

end ReaderTask

end Multiplexing

end NativePg
