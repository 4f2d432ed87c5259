import Mathlib.Data.List.Basic

/-!
# Channels

A channel with senders that may be cloned and one receiver: what the receiver has taken so far,
what is still waiting, and whether the receiver is there. What was put into the channel, in
order, is `sent`; a send fails once the receiver is gone.

The lemmas say what each operation does to `taken` and `sent`: a send adds to the end of `sent`,
a receive moves one item from `waiting` to `taken`, and nothing else changes either of them.
-/

variable {α : Type*}

structure Channel (α : Type*) where
  taken : List α
  waiting : List α
  isOpen : Bool
deriving DecidableEq

namespace Channel

/-- A new channel, with its receiver. -/
def new : Channel α := ⟨[], [], true⟩

/-- A new channel whose receiver is dropped at once. -/
def newClosed : Channel α := ⟨[], [], false⟩

/-- Everything that was put into the channel, in order. -/
def sent (ch : Channel α) : List α := ch.taken ++ ch.waiting

/-- Put an item into the channel. -/
def push (ch : Channel α) (a : α) : Channel α := { ch with waiting := ch.waiting ++ [a] }

/-- Send an item; it comes back if the receiver is gone. -/
def send (ch : Channel α) (a : α) : Option (Channel α) := if ch.isOpen then some (ch.push a) else none

/-- Take the oldest item. -/
def recv (ch : Channel α) : Option (α × Channel α) :=
  match ch.waiting with
  | [] => none
  | a :: rest => some (a, { ch with taken := ch.taken ++ [a], waiting := rest })

/-- Drop the receiver. -/
def close (ch : Channel α) : Channel α := { ch with isOpen := false }

variable {ch ch' : Channel α} {a : α}

@[simp] theorem sent_new : (new : Channel α).sent = [] := rfl
@[simp] theorem taken_push : (ch.push a).taken = ch.taken := rfl
@[simp] theorem isOpen_push : (ch.push a).isOpen = ch.isOpen := rfl
@[simp] theorem sent_close : ch.close.sent = ch.sent := rfl
@[simp] theorem isOpen_close : ch.close.isOpen = false := rfl

/-- What is pushed comes last. -/
@[simp] theorem sent_push : (ch.push a).sent = ch.sent ++ [a] := by
  rw [sent, sent, push, List.append_assoc]

/-- A send goes through exactly while the receiver is there. -/
theorem send_eq_some : ch.send a = some ch' ↔ ch.isOpen = true ∧ ch' = ch.push a := by
  unfold send
  cases ch.isOpen <;> simp [eq_comm]

/-- It fails exactly once the receiver is gone. -/
theorem send_eq_none : ch.send a = none ↔ ch.isOpen = false := by
  unfold send
  cases ch.isOpen <;> simp

/-- A receive takes the next item, and leaves the channel otherwise alone. -/
theorem recv_eq_some (h : ch.recv = some (a, ch')) :
    ch'.taken = ch.taken ++ [a] ∧ ch'.sent = ch.sent ∧ ch'.isOpen = ch.isOpen ∧
      a ∈ ch.waiting := by
  unfold recv at h
  cases hwaiting : ch.waiting with
  | nil => rw [hwaiting] at h; cases h
  | cons b rest =>
    rw [hwaiting] at h
    cases h
    refine ⟨rfl, ?_, rfl, List.mem_cons_self⟩
    show ch.taken ++ [a] ++ rest = ch.taken ++ ch.waiting
    rw [hwaiting, List.append_assoc]
    rfl

/-- A receive puts nothing into the channel. -/
theorem mem_waiting_recv {b : α} (h : ch.recv = some (a, ch')) (hb : b ∈ ch'.waiting) :
    b ∈ ch.waiting := by
  unfold recv at h
  cases hwaiting : ch.waiting with
  | nil => rw [hwaiting] at h; cases h
  | cons c rest =>
    rw [hwaiting] at h
    cases h
    exact List.mem_cons_of_mem _ hb

end Channel
