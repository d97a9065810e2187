import Mathlib.Data.List.Basic

/-!
# Data channels

The two slots of a `Session` (`src/session/mod.rs`) for its data channels, each under a lock of its
own. A data channel is named by a number.
-/

namespace Nethernet

/-- The labels of the two data channels. -/
def RELIABLE_CHANNEL : String := "ReliableDataChannel"
def UNRELIABLE_CHANNEL : String := "UnreliableDataChannel"

/-- A slot of a session. -/
inductive Slot
  | Reliable
  | Unreliable
  deriving DecidableEq, Repr

/-- The slot for a channel with a label. -/
def Slot.of_label (label : String) : Option Slot :=
  if label = RELIABLE_CHANNEL then some Reliable
  else if label = UNRELIABLE_CHANNEL then some Unreliable
  else none

/-- `reliable_channel` and `unreliable_channel` of a session. -/
structure Channels where
  reliable_channel : Option ℕ
  unreliable_channel : Option ℕ
  deriving DecidableEq, Repr

namespace Channels

/-- A new session has no channels. -/
def new : Channels := ⟨none, none⟩

def get (s : Channels) : Slot → Option ℕ
  | .Reliable => s.reliable_channel
  | .Unreliable => s.unreliable_channel

def set_reliable_channel (s : Channels) (channel : ℕ) : Channels :=
  { s with reliable_channel := some channel }

def set_unreliable_channel (s : Channels) (channel : ℕ) : Channels :=
  { s with unreliable_channel := some channel }

/-- Set a channel in its slot. -/
def set (s : Channels) (slot : Slot) (channel : ℕ) : Channels :=
  match slot with
  | .Reliable => s.set_reliable_channel channel
  | .Unreliable => s.set_unreliable_channel channel

/-- Both channels are set. -/
def is_fully_connected (s : Channels) : Bool :=
  if !s.reliable_channel.isSome then false else s.unreliable_channel.isSome

variable {s : Channels} {slot slot' : Slot} {channel : ℕ}

@[simp] theorem get_set_self : (s.set slot channel).get slot = some channel := by
  cases slot <;> rfl

theorem get_set_of_ne (h : slot' ≠ slot) : (s.set slot channel).get slot' = s.get slot' := by
  cases slot <;> cases slot' <;> first | rfl | exact absurd rfl h

/-- A slot is not cleared again. -/
theorem isSome_get_set (h : (s.get slot').isSome) : ((s.set slot channel).get slot').isSome := by
  by_cases heq : slot' = slot
  · subst heq
    rw [get_set_self]
    rfl
  · rwa [get_set_of_ne heq]

theorem is_fully_connected_iff : s.is_fully_connected ↔ ∀ slot, (s.get slot).isSome := by
  constructor
  · intro h slot
    rcases hreliable : s.reliable_channel with _ | channel
    · simp [is_fully_connected, hreliable] at h
    · rw [is_fully_connected, hreliable] at h
      cases slot
      · simp [get, hreliable]
      · exact h
  · intro h
    have hreliable : s.reliable_channel.isSome := h .Reliable
    rw [is_fully_connected, hreliable]
    exact h .Unreliable

end Channels

end Nethernet
