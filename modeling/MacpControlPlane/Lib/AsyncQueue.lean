/-!
# Queues between callbacks and one reader

Callbacks push items into a buffer and may end the queue, with a failure or without one.  The reader calls `next` and
awaits what it returns before it calls `next` again.  A call that finds neither an item nor the end waits until a
callback notifies it, and goes on in a microtask of its own: between the two, other callbacks may run.

`Sound` says that the reader has got the items in the order in which they were pushed, and that it does not wait for
what is there already.
-/

namespace AsyncQueue

universe u v

variable {α : Type u} {ε : Type v}

/-- What a call of `next` settles with. -/
inductive Outcome (α : Type u) (ε : Type v) where
  | value (a : α)
  | done
  | threw (error : ε)

def Outcome.value? : Outcome α ε → Option α
  | .value a => some a
  | .done | .threw _ => none

structure Queue (α : Type u) (ε : Type v) where
  buffer : List α := []
  /-- There is a resolver of a promise that `waitForItem` has returned. -/
  resolveWait : Bool := false
  ended : Bool := false
  failure : Option ε := none

namespace Queue

def notify (q : Queue α ε) : Queue α ε := { q with resolveWait := false }

def push (q : Queue α ε) (a : α) : Queue α ε := notify { q with buffer := q.buffer ++ [a] }

def finish (q : Queue α ε) : Queue α ε := notify { q with ended := true }

def fail (q : Queue α ε) (error : ε) : Queue α ε := finish { q with failure := some error }

/-- The end of the queue without a notification. -/
def close (q : Queue α ε) : Queue α ε := { q with ended := true }

/-- The promise is resolved at once if there is something to read. -/
def waitForItem (q : Queue α ε) : Queue α ε :=
  if !q.buffer.isEmpty || q.ended then q else { q with resolveWait := true }

/-- What comes after the last item. -/
def last (q : Queue α ε) : Outcome α ε := q.failure.elim .done .threw

/-- One round of the loop of `next`; `none`: it has to wait. -/
def take (q : Queue α ε) : Option (Outcome α ε × Queue α ε) :=
  match q.buffer with
  | a :: rest => some (.value a, { q with buffer := rest })
  | [] => if q.ended then some (q.last, q) else none

end Queue

/-- A queue and its reader, with what the calls of `next` have settled with. -/
structure Reader (α : Type u) (ε : Type v) where
  queue : Queue α ε := {}
  /-- A call of `next` awaits the promise of `waitForItem`. -/
  pending : Bool := false
  settled : List (Outcome α ε) := []

namespace Reader

def on (r : Reader α ε) (f : Queue α ε → Queue α ε) : Reader α ε := { r with queue := f r.queue }

def values (r : Reader α ε) : List α := r.settled.filterMap Outcome.value?

def round (r : Reader α ε) : Reader α ε :=
  match r.queue.take with
  | some (outcome, queue) => { queue, pending := false, settled := r.settled ++ [outcome] }
  | none => { r with queue := r.queue.waitForItem, pending := true }

def next (r : Reader α ε) : Option (Reader α ε) := if r.pending then none else some r.round

/-- The microtask of a call whose promise has been resolved. -/
def resume (r : Reader α ε) : Option (Reader α ε) := if r.pending && !r.queue.resolveWait then some r.round else none

end Reader

/-- The items that have arrived are those read and those still in the buffer; a call waits only where there is nothing
to read, and one that has been notified finds something. -/
structure Sound (arrived : List α) (r : Reader α ε) : Prop where
  contents : r.values ++ r.queue.buffer = arrived
  waiting : r.queue.resolveWait = true → r.pending = true ∧ r.queue.buffer = [] ∧ r.queue.ended = false
  woken : r.pending = true → r.queue.resolveWait = false → r.queue.buffer ≠ [] ∨ r.queue.ended = true

variable {arrived : List α} {r : Reader α ε} {a : α} {rest : List α} {error : ε}

theorem sound_empty : Sound [] ({} : Reader α ε) := ⟨rfl, by simp, by simp⟩

/-! ### The callbacks -/

theorem Sound.push (h : Sound arrived r) (a : α) : Sound (arrived ++ [a]) (r.on (·.push a)) := by
  refine ⟨?_, by simp [Reader.on, Queue.push, Queue.notify], ?_⟩
  · rw [← h.contents, List.append_assoc]
    rfl
  · intro _ _
    left
    simp [Reader.on, Queue.push, Queue.notify]

theorem Sound.finish (h : Sound arrived r) : Sound arrived (r.on (·.finish)) := by
  refine ⟨h.contents, by simp [Reader.on, Queue.finish, Queue.notify], ?_⟩
  intro _ _
  exact Or.inr rfl

theorem Sound.fail (h : Sound arrived r) (error : ε) : Sound arrived (r.on (·.fail error)) := by
  refine ⟨h.contents, by simp [Reader.on, Queue.fail, Queue.finish, Queue.notify], ?_⟩
  intro _ _
  exact Or.inr rfl

theorem Sound.resolveWait_eq_false (h : Sound arrived r) (hpending : r.pending = false) :
    r.queue.resolveWait = false := by
  cases hwait : r.queue.resolveWait with
  | false => rfl
  | true =>
    rw [(h.waiting hwait).1] at hpending
    cases hpending

/-- Nobody has to be notified while no call is pending. -/
theorem Sound.close (h : Sound arrived r) (hpending : r.pending = false) : Sound arrived (r.on (·.close)) := by
  refine ⟨h.contents, ?_, fun _ _ => Or.inr rfl⟩
  intro hwait
  rw [show (r.on (·.close)).queue.resolveWait = r.queue.resolveWait from rfl, h.resolveWait_eq_false hpending] at hwait
  cases hwait

/-! ### The reader -/

theorem take_of_cons (h : r.queue.buffer = a :: rest) :
    r.queue.take = some (.value a, { r.queue with buffer := rest }) := by
  unfold Queue.take
  rw [h]

theorem take_of_nil (h : r.queue.buffer = []) (hended : r.queue.ended = true) :
    r.queue.take = some (r.queue.last, r.queue) := by
  unfold Queue.take
  rw [h, hended]
  rfl

theorem round_of_cons (h : r.queue.buffer = a :: rest) :
    r.round =
      { queue := { r.queue with buffer := rest }, pending := false, settled := r.settled ++ [.value a] } := by
  unfold Reader.round
  rw [take_of_cons h]

theorem round_of_nil (h : r.queue.buffer = []) (hended : r.queue.ended = true) :
    r.round = { r with pending := false, settled := r.settled ++ [r.queue.last] } := by
  unfold Reader.round
  rw [take_of_nil h hended]

theorem round_of_empty (h : r.queue.buffer = []) (hended : r.queue.ended = false) :
    r.round = { r with queue := { r.queue with resolveWait := true }, pending := true } := by
  have htake : r.queue.take = none := by
    unfold Queue.take
    rw [h, hended]
    rfl
  unfold Reader.round
  rw [htake]
  simp [Queue.waitForItem, h, hended]

theorem value?_last (q : Queue α ε) : q.last.value? = none := by
  unfold Queue.last
  cases q.failure <;> rfl

/-- A round reads the first item, or the end, or it waits. -/
theorem Sound.round (h : Sound arrived r) (hwait : r.queue.resolveWait = false) : Sound arrived r.round := by
  cases hbuffer : r.queue.buffer with
  | cons a rest =>
    rw [round_of_cons hbuffer]
    refine ⟨?_, ?_, by simp⟩
    · rw [← h.contents, hbuffer, Reader.values, Reader.values, List.filterMap_append, List.append_assoc]
      rfl
    · intro hwait'
      rw [show _ = r.queue.resolveWait from rfl, hwait] at hwait'
      cases hwait'
  | nil =>
    cases hended : r.queue.ended with
    | true =>
      rw [round_of_nil hbuffer hended]
      refine ⟨?_, ?_, by simp⟩
      · rw [← h.contents, Reader.values, Reader.values, List.filterMap_append]
        simp [value?_last]
      · intro hwait'
        rw [show _ = r.queue.resolveWait from rfl, hwait] at hwait'
        cases hwait'
    | false =>
      rw [round_of_empty hbuffer hended]
      exact ⟨h.contents, fun _ => ⟨rfl, hbuffer, hended⟩, by simp⟩

theorem ended_round (r : Reader α ε) : r.round.queue.ended = r.queue.ended := by
  cases hbuffer : r.queue.buffer with
  | cons a rest => rw [round_of_cons hbuffer]
  | nil =>
    cases hended : r.queue.ended with
    | true => rw [round_of_nil hbuffer hended, hended]
    | false =>
      rw [round_of_empty hbuffer hended]
      exact hended

/-- A call goes on, or is made, with one round. -/
theorem Sound.of_call (h : Sound arrived r) {r' : Reader α ε} (hcall : r.next = some r' ∨ r.resume = some r') :
    r' = r.round ∧ Sound arrived r' := by
  rcases hcall with hcall | hcall
  · unfold Reader.next at hcall
    split at hcall
    · cases hcall
    next hpending =>
      cases hcall
      exact ⟨rfl, h.round (h.resolveWait_eq_false (by simpa using hpending))⟩
  · unfold Reader.resume at hcall
    split at hcall
    next hwoken =>
      cases hcall
      rw [Bool.and_eq_true, Bool.not_eq_true'] at hwoken
      exact ⟨rfl, h.round hwoken.2⟩
    · cases hcall

/-- The pending call goes on, or the next one is made. -/
def Reader.read (r : Reader α ε) : Option (Reader α ε) := if r.pending then r.resume else r.next

/-- Where there is something to read, a call does not wait. -/
theorem Sound.read_eq (h : Sound arrived r) (hready : r.queue.buffer ≠ [] ∨ r.queue.ended = true) :
    r.read = some r.round := by
  have hwait : r.queue.resolveWait = false := by
    cases hwait : r.queue.resolveWait with
    | false => rfl
    | true =>
      obtain ⟨-, hbuffer, hended⟩ := h.waiting hwait
      rcases hready with hready | hready
      · exact absurd hbuffer hready
      · rw [hended] at hready
        cases hready
  unfold Reader.read Reader.resume Reader.next
  cases r.pending <;> simp [hwait]

/-- The next item that has not been read is what the call settles with. -/
theorem Sound.read_value (h : Sound (r.values ++ a :: rest) r) :
    ∃ r', r.read = some r' ∧ r'.pending = false ∧ r'.settled = r.settled ++ [.value a] := by
  have hbuffer : r.queue.buffer = a :: rest := List.append_cancel_left h.contents
  refine ⟨r.round, h.read_eq (Or.inl ?_), ?_, ?_⟩
  · simp [hbuffer]
  · rw [round_of_cons hbuffer]
  · rw [round_of_cons hbuffer]

/-- After the end, every call settles. -/
theorem Sound.read_of_ended (h : Sound arrived r) (hended : r.queue.ended = true) :
    ∃ r' outcome, r.read = some r' ∧ r'.pending = false ∧ r'.settled = r.settled ++ [outcome] := by
  have hread := h.read_eq (Or.inr hended)
  cases hbuffer : r.queue.buffer with
  | cons a rest => exact ⟨r.round, .value a, hread, by rw [round_of_cons hbuffer], by rw [round_of_cons hbuffer]⟩
  | nil =>
    exact ⟨r.round, r.queue.last, hread, by rw [round_of_nil hbuffer hended], by rw [round_of_nil hbuffer hended]⟩

/-- A call that reads the end has found the buffer empty. -/
theorem Sound.of_round_last (h : Sound arrived r) {outcome : Outcome α ε}
    (hround : r.round.settled = r.settled ++ [outcome]) (hlast : outcome.value? = none) :
    r.values = arrived ∧ r.queue.ended = true := by
  cases hbuffer : r.queue.buffer with
  | cons a rest =>
    rw [round_of_cons hbuffer] at hround
    have hvalue := List.append_cancel_left hround
    cases hvalue
    cases hlast
  | nil =>
    refine ⟨by rw [← h.contents, hbuffer, List.append_nil], ?_⟩
    cases hended : r.queue.ended with
    | true => rfl
    | false =>
      rw [round_of_empty hbuffer hended] at hround
      have hlength := congrArg List.length hround
      simp at hlength

end AsyncQueue
