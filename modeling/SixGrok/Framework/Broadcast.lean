import Mathlib.Algebra.GroupWithZero.Nat
import SixGrok.Framework.Ring

namespace SixGrok.Framework

variable {α : Type}

/-- What a receiver of a broadcast channel gets. -/
inductive Received (α : Type) where
  | message (a : α)
  | lagged (skipped : Nat)
  deriving DecidableEq, Repr

/-- A broadcast channel as a receiver knows it: what `recv` comes back with when all of these messages
have been sent and it waits for the one with this number, and for which it waits next; `none` is that
it goes on waiting. One that has been overtaken is told how many messages it has missed, and goes on
with the oldest that is still there. -/
structure Broadcast (capacity : Nat) (α : Type) where
  recv : List α → Nat → Option (Received α × Nat)
  waits : ∀ {log next}, recv log next = none ↔ log.length ≤ next
  message : ∀ {log next a next'}, recv log next = some (.message a, next') →
    log[next]? = some a ∧ next' = next + 1
  lagged : ∀ {log next skipped next'}, recv log next = some (.lagged skipped, next') →
    0 < skipped ∧ next' = next + skipped ∧ next' + capacity = log.length

/-- A broadcast channel that keeps the most recent messages for all of its receivers, and knows how
many there have been. -/
structure Channel (α : Type) where
  kept : List α := []
  sent : Nat := 0
  deriving DecidableEq, Repr

namespace Channel

def send (capacity : Nat) (channel : Channel α) (a : α) : Channel α where
  kept := evict capacity (channel.kept ++ [a])
  sent := channel.sent + 1

/-- The number of the oldest message that is still there. -/
def oldest (channel : Channel α) : Nat := channel.sent - channel.kept.length

/-- A receiver that waits for the message with this number. -/
def receive (channel : Channel α) (next : Nat) : Option (Received α × Nat) :=
  if next < channel.oldest then some (.lagged (channel.oldest - next), channel.oldest)
  else channel.kept[next - channel.oldest]?.map fun a => (.message a, next + 1)

/-- The channel over which all of these messages have been sent. -/
def ofLog (capacity : Nat) (log : List α) : Channel α := ⟨log.rtake capacity, log.length⟩

theorem ofLog_nil (capacity : Nat) : ofLog capacity ([] : List α) = {} := by
  simp [ofLog]

theorem ofLog_append_singleton (capacity : Nat) (log : List α) (a : α) :
    ofLog capacity (log ++ [a]) = (ofLog capacity log).send capacity a := by
  simp only [ofLog, send, evict_eq_rtake, rtake_append_rtake, List.length_append,
    List.length_singleton]

theorem foldl_send (capacity : Nat) (log : List α) :
    log.foldl (send capacity) {} = ofLog capacity log := by
  induction log using List.reverseRecOn with
  | nil => exact (ofLog_nil capacity).symm
  | append_singleton log a ih =>
    rw [List.foldl_append, ih, ofLog_append_singleton]
    rfl

theorem oldest_ofLog (capacity : Nat) (log : List α) :
    (ofLog capacity log).oldest = log.length - capacity := by
  simp only [ofLog, oldest, length_rtake]
  omega

/-- The message with a number that is still there. -/
theorem kept_ofLog {capacity : Nat} {log : List α} {next : Nat} (there : log.length - capacity ≤ next) :
    (ofLog capacity log).kept[next - (log.length - capacity)]? = log[next]? := by
  have hplace : log.length - capacity + (next - (log.length - capacity)) = next := by omega
  rw [ofLog, List.rtake, List.getElem?_drop, hplace]

theorem receive_ofLog {capacity : Nat} {log : List α} {next next' : Nat} {received : Received α}
    (h : (ofLog capacity log).receive next = some (received, next')) :
    (∃ a, received = .message a ∧ log[next]? = some a ∧ next' = next + 1) ∨
    ∃ skipped, received = .lagged skipped ∧ 0 < skipped ∧ next' = next + skipped ∧
      next' + capacity = log.length := by
  rw [receive, oldest_ofLog] at h
  split_ifs at h with hbehind
  · right
    obtain ⟨rfl, rfl⟩ := Prod.mk.inj (Option.some.inj h)
    exact ⟨_, rfl, by omega, by omega, by omega⟩
  · left
    obtain ⟨a, ha, hpair⟩ := Option.map_eq_some_iff.mp h
    obtain ⟨rfl, rfl⟩ := Prod.mk.inj hpair
    rw [kept_ofLog (Nat.le_of_not_lt hbehind)] at ha
    exact ⟨a, rfl, ha, rfl⟩

theorem receive_ofLog_none {capacity : Nat} {log : List α} {next : Nat} :
    (ofLog capacity log).receive next = none ↔ log.length ≤ next := by
  rw [receive, oldest_ofLog]
  split_ifs with hbehind
  · simp only [false_iff]
    omega
  · rw [Option.map_eq_none_iff, kept_ofLog (Nat.le_of_not_lt hbehind), List.getElem?_eq_none_iff]

/-- A channel over which the messages are sent one after the other is one to its receivers. -/
def broadcast (capacity : Nat) : Broadcast capacity α where
  recv log next := (log.foldl (send capacity) {}).receive next
  waits := by
    intro log next
    rw [foldl_send]
    exact receive_ofLog_none
  message := by
    intro log next a next' h
    rw [foldl_send] at h
    rcases receive_ofLog h with ⟨a, ha, hthere, hnext⟩ | ⟨_, hlagged, -⟩
    · exact ⟨Received.message.inj ha ▸ hthere, hnext⟩
    · cases hlagged
  lagged := by
    intro log next skipped next' h
    rw [foldl_send] at h
    rcases receive_ofLog h with ⟨a, hmessage, -⟩ | ⟨skipped, hlagged, hpos, hnext, hlen⟩
    · cases hmessage
    · rw [Received.lagged.inj hlagged]
      exact ⟨hpos, hnext, hlen⟩

end Channel

section Follows

def messages (seen : List (Received α)) : List α :=
  seen.filterMap fun received => match received with | .message a => some a | .lagged _ => none

def skipped (seen : List (Received α)) : Nat :=
  (seen.map fun received => match received with | .message _ => 0 | .lagged n => n).sum

@[simp] theorem messages_append (seen more : List (Received α)) :
    messages (seen ++ more) = messages seen ++ messages more := List.filterMap_append ..

@[simp] theorem messages_map (log : List α) : messages (log.map .message) = log :=
  List.filterMap_map.trans (List.filterMap_some ..)

@[simp] theorem messages_message (a : α) : messages [.message a] = [a] := rfl

@[simp] theorem messages_lagged (n : Nat) : messages [(.lagged n : Received α)] = [] := rfl

@[simp] theorem skipped_append (seen more : List (Received α)) :
    skipped (seen ++ more) = skipped seen + skipped more := by
  simp [skipped]

@[simp] theorem skipped_message (a : α) : skipped [.message a] = 0 := rfl

@[simp] theorem skipped_lagged (n : Nat) : skipped [(.lagged n : Received α)] = n := rfl

/-- What a receiver has seen is the log from where it started to where it stands: every message in
its place, or in a number of messages that it was told it has missed, when so many newer ones were
there. -/
inductive Follows (capacity : Nat) (log : List α) (start : Nat) : List (Received α) → Nat → Prop where
  | start : start ≤ log.length → Follows capacity log start [] start
  | message {seen : List (Received α)} {next : Nat} {a : α} :
      Follows capacity log start seen next → log[next]? = some a →
      Follows capacity log start (seen ++ [.message a]) (next + 1)
  | lagged {seen : List (Received α)} {next skipped : Nat} :
      Follows capacity log start seen next → 0 < skipped →
      next + skipped + capacity ≤ log.length →
      Follows capacity log start (seen ++ [.lagged skipped]) (next + skipped)

namespace Follows

variable {capacity : Nat} {log : List α} {start next : Nat} {seen : List (Received α)}

theorem le_length (h : Follows capacity log start seen next) : next ≤ log.length := by
  cases h with
  | start inside => exact inside
  | message _ ha => exact (List.getElem?_eq_some_iff.mp ha).1
  | lagged _ _ hle => exact Nat.le_of_add_right_le hle

/-- Messages that are sent later change nothing of what has been seen. -/
theorem mono {log' : List α} (h : Follows capacity log start seen next) (more : log <+: log') :
    Follows capacity log' start seen next := by
  induction h with
  | start inside => exact .start (inside.trans more.length_le)
  | message _ ha ih =>
    apply ih.message
    obtain ⟨back, rfl⟩ := more
    obtain ⟨hlt, _⟩ := List.getElem?_eq_some_iff.mp ha
    rw [List.getElem?_append_left hlt, ha]
  | lagged _ hpos hle ih => exact ih.lagged hpos (hle.trans more.length_le)

/-- What a receiver gets goes on where it stands. -/
theorem recv (channel : Broadcast capacity α) {next' : Nat} {received : Received α}
    (h : Follows capacity log start seen next)
    (hrecv : channel.recv log next = some (received, next')) :
    Follows capacity log start (seen ++ [received]) next' := by
  cases received with
  | message a =>
    obtain ⟨ha, rfl⟩ := channel.message hrecv
    exact h.message ha
  | lagged skipped =>
    obtain ⟨hpos, rfl, hlen⟩ := channel.lagged hrecv
    exact h.lagged hpos (Nat.le_of_eq hlen)

/-- What has been seen up to a moment before follows the same log. -/
theorem before {received : Received α} (h : Follows capacity log start (seen ++ [received]) next) :
    ∃ place, Follows capacity log start seen place := by
  generalize hall : seen ++ [received] = all at h
  cases h with
  | start => simp at hall
  | message hseen _ =>
    obtain ⟨rfl, -⟩ := List.append_inj' hall rfl
    exact ⟨_, hseen⟩
  | lagged hseen _ _ =>
    obtain ⟨rfl, -⟩ := List.append_inj' hall rfl
    exact ⟨_, hseen⟩

/-- Nothing is lost without a word, and nothing is delivered twice. -/
theorem accounts (h : Follows capacity log start seen next) :
    start + (messages seen).length + skipped seen = next := by
  induction h with
  | start => rfl
  | message _ _ ih =>
    simp only [messages_append, messages_message, List.length_append, List.length_singleton,
      skipped_append, skipped_message]
    omega
  | lagged _ _ _ ih =>
    simp only [messages_append, messages_lagged, List.append_nil, skipped_append, skipped_lagged]
    omega

theorem le (h : Follows capacity log start seen next) : start ≤ next := by
  have haccounts := h.accounts
  omega

/-- The segment of a log between two places, and one message more of it. -/
theorem segment_succ {a : α} (le : start ≤ next) (ha : log[next]? = some a) :
    (log.take (next + 1)).drop start = (log.take next).drop start ++ [a] := by
  obtain ⟨hlt, hget⟩ := List.getElem?_eq_some_iff.mp ha
  rw [List.take_succ_eq_append_getElem hlt, hget, List.drop_append_of_le_length]
  rw [List.length_take]
  omega

theorem sublist (h : Follows capacity log start seen next) :
    (messages seen).Sublist ((log.take next).drop start) := by
  induction h with
  | start => exact List.nil_sublist _
  | message hseen ha ih =>
    rw [messages_append, messages_message, segment_succ hseen.le ha]
    exact ih.append_right _
  | @lagged seen next skipped hseen _ _ ih =>
    rw [messages_append, messages_lagged, List.append_nil]
    have hmore : log.take next <+: log.take (next + skipped) :=
      List.take_prefix_take_left (by omega)
    exact ih.trans (hmore.sublist.drop start)

/-- Without a word about missed messages it has seen all of them. -/
theorem gapless (h : Follows capacity log start seen next) (complete : skipped seen = 0) :
    seen = ((log.take next).drop start).map .message := by
  induction h with
  | start => simp
  | message hseen ha ih =>
    rw [skipped_append, skipped_message] at complete
    rw [segment_succ hseen.le ha, List.map_append, ← ih complete]
    rfl
  | lagged _ hpos _ _ =>
    rw [skipped_append, skipped_lagged] at complete
    omega

end Follows

end Follows

end SixGrok.Framework
