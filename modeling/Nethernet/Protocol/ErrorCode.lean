import Mathlib.Tactic.Common

/-!
# Error codes

The two enumerations of connection errors: `SignalErrorCode` (`src/error/mod.rs`), a `u32` on the
wire, and `ConnectError` (`src/protocol/webrtc/error.rs`), a `u8`. They name the same errors, in the
same order, but `ConnectError` leaves out the code `0x14`: from there on the codes differ by one.
-/

namespace Nethernet

/-- Signal error codes. -/
inductive SignalErrorCode
  | None
  | DestinationNotLoggedIn
  | NegotiationTimeout
  | WrongTransportVersion
  | FailedToCreatePeerConnection
  | Ice
  | ConnectRequest
  | ConnectResponse
  | CandidateAdd
  | InactivityTimeout
  | FailedToCreateOffer
  | FailedToCreateAnswer
  | FailedToSetLocalDescription
  | FailedToSetRemoteDescription
  | NegotiationTimeoutWaitingForResponse
  | NegotiationTimeoutWaitingForAccept
  | IncomingConnectionIgnored
  | SignalingParsingFailure
  | SignalingUnknownError
  | SignalingUnicastMessageDeliveryFailed
  | SignalingBroadcastDeliveryFailed
  | SignalingMessageDeliveryFailed
  | SignalingTurnAuthFailed
  | SignalingFallbackToBestEffortDelivery
  | NoSignalingChannel
  | NotLoggedIn
  | SignalingFailedToSend
  deriving DecidableEq, Repr

/-- WebRTC connection error codes. -/
inductive ConnectError
  | None
  | DestinationNotLoggedIn
  | NegotiationTimeout
  | WrongTransportVersion
  | FailedToCreatePeerConnection
  | ICE
  | ConnectRequest
  | ConnectResponse
  | CandidateAdd
  | InactivityTimeout
  | FailedToCreateOffer
  | FailedToCreateAnswer
  | FailedToSetLocalDescription
  | FailedToSetRemoteDescription
  | NegotiationTimeoutWaitingForResponse
  | NegotiationTimeoutWaitingForAccept
  | IncomingConnectionIgnored
  | SignalingParsingFailure
  | SignalingUnknownError
  | SignalingUnicastMessageDeliveryFailed
  | SignalingBroadcastDeliveryFailed
  | SignalingMessageDeliveryFailed
  | SignalingTurnAuthFailed
  | SignalingFallbackToBestEffortDelivery
  | NoSignalingChannel
  | NotLoggedIn
  | SignalingFailedToSend
  deriving DecidableEq, Repr

namespace SignalErrorCode

/-- `self as u32`. -/
def as_u32 : SignalErrorCode → UInt32
  | None => 0
  | DestinationNotLoggedIn => 1
  | NegotiationTimeout => 2
  | WrongTransportVersion => 3
  | FailedToCreatePeerConnection => 4
  | Ice => 5
  | ConnectRequest => 6
  | ConnectResponse => 7
  | CandidateAdd => 8
  | InactivityTimeout => 9
  | FailedToCreateOffer => 10
  | FailedToCreateAnswer => 11
  | FailedToSetLocalDescription => 12
  | FailedToSetRemoteDescription => 13
  | NegotiationTimeoutWaitingForResponse => 14
  | NegotiationTimeoutWaitingForAccept => 15
  | IncomingConnectionIgnored => 16
  | SignalingParsingFailure => 17
  | SignalingUnknownError => 18
  | SignalingUnicastMessageDeliveryFailed => 19
  | SignalingBroadcastDeliveryFailed => 20
  | SignalingMessageDeliveryFailed => 21
  | SignalingTurnAuthFailed => 22
  | SignalingFallbackToBestEffortDelivery => 23
  | NoSignalingChannel => 24
  | NotLoggedIn => 25
  | SignalingFailedToSend => 26

/-- `From<u32>`: an unknown code is an unknown error. -/
def from_u32 (code : UInt32) : SignalErrorCode :=
  match code.toNat with
  | 0 => None
  | 1 => DestinationNotLoggedIn
  | 2 => NegotiationTimeout
  | 3 => WrongTransportVersion
  | 4 => FailedToCreatePeerConnection
  | 5 => Ice
  | 6 => ConnectRequest
  | 7 => ConnectResponse
  | 8 => CandidateAdd
  | 9 => InactivityTimeout
  | 10 => FailedToCreateOffer
  | 11 => FailedToCreateAnswer
  | 12 => FailedToSetLocalDescription
  | 13 => FailedToSetRemoteDescription
  | 14 => NegotiationTimeoutWaitingForResponse
  | 15 => NegotiationTimeoutWaitingForAccept
  | 16 => IncomingConnectionIgnored
  | 17 => SignalingParsingFailure
  | 18 => SignalingUnknownError
  | 19 => SignalingUnicastMessageDeliveryFailed
  | 20 => SignalingBroadcastDeliveryFailed
  | 21 => SignalingMessageDeliveryFailed
  | 22 => SignalingTurnAuthFailed
  | 23 => SignalingFallbackToBestEffortDelivery
  | 24 => NoSignalingChannel
  | 25 => NotLoggedIn
  | 26 => SignalingFailedToSend
  | _ => SignalingUnknownError

/-- `From<ConnectError>`. -/
def from_connect_error : ConnectError → SignalErrorCode
  | .None => None
  | .DestinationNotLoggedIn => DestinationNotLoggedIn
  | .NegotiationTimeout => NegotiationTimeout
  | .WrongTransportVersion => WrongTransportVersion
  | .FailedToCreatePeerConnection => FailedToCreatePeerConnection
  | .ICE => Ice
  | .ConnectRequest => ConnectRequest
  | .ConnectResponse => ConnectResponse
  | .CandidateAdd => CandidateAdd
  | .InactivityTimeout => InactivityTimeout
  | .FailedToCreateOffer => FailedToCreateOffer
  | .FailedToCreateAnswer => FailedToCreateAnswer
  | .FailedToSetLocalDescription => FailedToSetLocalDescription
  | .FailedToSetRemoteDescription => FailedToSetRemoteDescription
  | .NegotiationTimeoutWaitingForResponse => NegotiationTimeoutWaitingForResponse
  | .NegotiationTimeoutWaitingForAccept => NegotiationTimeoutWaitingForAccept
  | .IncomingConnectionIgnored => IncomingConnectionIgnored
  | .SignalingParsingFailure => SignalingParsingFailure
  | .SignalingUnknownError => SignalingUnknownError
  | .SignalingUnicastMessageDeliveryFailed => SignalingUnicastMessageDeliveryFailed
  | .SignalingBroadcastDeliveryFailed => SignalingBroadcastDeliveryFailed
  | .SignalingMessageDeliveryFailed => SignalingMessageDeliveryFailed
  | .SignalingTurnAuthFailed => SignalingTurnAuthFailed
  | .SignalingFallbackToBestEffortDelivery => SignalingFallbackToBestEffortDelivery
  | .NoSignalingChannel => NoSignalingChannel
  | .NotLoggedIn => NotLoggedIn
  | .SignalingFailedToSend => SignalingFailedToSend

end SignalErrorCode

namespace ConnectError

/-- Get the wire code. -/
def code : ConnectError → UInt8
  | None => 0x00
  | DestinationNotLoggedIn => 0x01
  | NegotiationTimeout => 0x02
  | WrongTransportVersion => 0x03
  | FailedToCreatePeerConnection => 0x04
  | ICE => 0x05
  | ConnectRequest => 0x06
  | ConnectResponse => 0x07
  | CandidateAdd => 0x08
  | InactivityTimeout => 0x09
  | FailedToCreateOffer => 0x0a
  | FailedToCreateAnswer => 0x0b
  | FailedToSetLocalDescription => 0x0c
  | FailedToSetRemoteDescription => 0x0d
  | NegotiationTimeoutWaitingForResponse => 0x0e
  | NegotiationTimeoutWaitingForAccept => 0x0f
  | IncomingConnectionIgnored => 0x10
  | SignalingParsingFailure => 0x11
  | SignalingUnknownError => 0x12
  | SignalingUnicastMessageDeliveryFailed => 0x13
  | SignalingBroadcastDeliveryFailed => 0x15
  | SignalingMessageDeliveryFailed => 0x16
  | SignalingTurnAuthFailed => 0x17
  | SignalingFallbackToBestEffortDelivery => 0x18
  | NoSignalingChannel => 0x19
  | NotLoggedIn => 0x1a
  | SignalingFailedToSend => 0x1b

/-- Map a wire code to its error. -/
def from_code (code : UInt8) : Option ConnectError :=
  match code.toNat with
  | 0x00 => some None
  | 0x01 => some DestinationNotLoggedIn
  | 0x02 => some NegotiationTimeout
  | 0x03 => some WrongTransportVersion
  | 0x04 => some FailedToCreatePeerConnection
  | 0x05 => some ICE
  | 0x06 => some ConnectRequest
  | 0x07 => some ConnectResponse
  | 0x08 => some CandidateAdd
  | 0x09 => some InactivityTimeout
  | 0x0a => some FailedToCreateOffer
  | 0x0b => some FailedToCreateAnswer
  | 0x0c => some FailedToSetLocalDescription
  | 0x0d => some FailedToSetRemoteDescription
  | 0x0e => some NegotiationTimeoutWaitingForResponse
  | 0x0f => some NegotiationTimeoutWaitingForAccept
  | 0x10 => some IncomingConnectionIgnored
  | 0x11 => some SignalingParsingFailure
  | 0x12 => some SignalingUnknownError
  | 0x13 => some SignalingUnicastMessageDeliveryFailed
  | 0x15 => some SignalingBroadcastDeliveryFailed
  | 0x16 => some SignalingMessageDeliveryFailed
  | 0x17 => some SignalingTurnAuthFailed
  | 0x18 => some SignalingFallbackToBestEffortDelivery
  | 0x19 => some NoSignalingChannel
  | 0x1a => some NotLoggedIn
  | 0x1b => some SignalingFailedToSend
  | _ => none

/-- `From<SignalErrorCode>`. -/
def from_signal_error_code : SignalErrorCode → ConnectError
  | .None => None
  | .DestinationNotLoggedIn => DestinationNotLoggedIn
  | .NegotiationTimeout => NegotiationTimeout
  | .WrongTransportVersion => WrongTransportVersion
  | .FailedToCreatePeerConnection => FailedToCreatePeerConnection
  | .Ice => ICE
  | .ConnectRequest => ConnectRequest
  | .ConnectResponse => ConnectResponse
  | .CandidateAdd => CandidateAdd
  | .InactivityTimeout => InactivityTimeout
  | .FailedToCreateOffer => FailedToCreateOffer
  | .FailedToCreateAnswer => FailedToCreateAnswer
  | .FailedToSetLocalDescription => FailedToSetLocalDescription
  | .FailedToSetRemoteDescription => FailedToSetRemoteDescription
  | .NegotiationTimeoutWaitingForResponse => NegotiationTimeoutWaitingForResponse
  | .NegotiationTimeoutWaitingForAccept => NegotiationTimeoutWaitingForAccept
  | .IncomingConnectionIgnored => IncomingConnectionIgnored
  | .SignalingParsingFailure => SignalingParsingFailure
  | .SignalingUnknownError => SignalingUnknownError
  | .SignalingUnicastMessageDeliveryFailed => SignalingUnicastMessageDeliveryFailed
  | .SignalingBroadcastDeliveryFailed => SignalingBroadcastDeliveryFailed
  | .SignalingMessageDeliveryFailed => SignalingMessageDeliveryFailed
  | .SignalingTurnAuthFailed => SignalingTurnAuthFailed
  | .SignalingFallbackToBestEffortDelivery => SignalingFallbackToBestEffortDelivery
  | .NoSignalingChannel => NoSignalingChannel
  | .NotLoggedIn => NotLoggedIn
  | .SignalingFailedToSend => SignalingFailedToSend

@[simp] theorem from_code_code (error : ConnectError) : from_code error.code = some error := by
  cases error <;> rfl

/-- A known code is that of one error. -/
theorem from_code_eq_some {code : UInt8} {error : ConnectError} :
    from_code code = some error ↔ error.code = code := by
  refine ⟨fun h => ?_, fun h => h ▸ from_code_code error⟩
  unfold from_code at h
  split at h <;> rename_i hcode <;> cases h <;> exact UInt8.toNat_inj.1 hcode.symm

@[simp] theorem from_signal_error_code_from_connect_error (error : ConnectError) :
    from_signal_error_code (.from_connect_error error) = error := by
  cases error <;> rfl

/-- **The codes agree below `0x14`**, and are off by one from there on. -/
theorem toNat_code (c : SignalErrorCode) :
    (from_signal_error_code c).code.toNat =
      if c.as_u32 < 20 then c.as_u32.toNat else c.as_u32.toNat + 1 := by
  cases c <;> rfl

end ConnectError

namespace SignalErrorCode

@[simp] theorem from_u32_as_u32 (c : SignalErrorCode) : from_u32 c.as_u32 = c := by
  cases c <;> rfl

@[simp] theorem from_connect_error_from_signal_error_code (c : SignalErrorCode) :
    from_connect_error (.from_signal_error_code c) = c := by
  cases c <;> rfl

end SignalErrorCode

end Nethernet
