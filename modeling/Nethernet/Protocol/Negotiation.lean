import Nethernet.Protocol.Signal

/-!
# Negotiation messages

`src/protocol/webrtc/negotiation.rs`: the second printer and parser of the lines that signals travel
as, with the error codes of `ConnectError`. `signaling_roundtrip`: both codecs return what they
print, and `Signal.from_string` changes at most the spelling of the connection id.
`negotiation_agrees`: the two read each other's lines, but for errors whose codes differ in the two
enumerations.
-/

namespace Nethernet

open Foundations

/-! ## Blank text -/

/-- `char::is_whitespace`. -/
def is_whitespace (c : Char) : Bool :=
  let n := c.toNat
  (0x9 ≤ n && n ≤ 0xD) || n = 0x20 || n = 0x85 || n = 0xA0 || n = 0x1680 ||
    (0x2000 ≤ n && n ≤ 0x200A) || n = 0x2028 || n = 0x2029 || n = 0x202F || n = 0x205F || n = 0x3000

/-- `s.trim().is_empty()`. -/
def is_blank (s : String) : Bool := s.toList.all is_whitespace

/-- A decimal form is not blank. -/
theorem is_blank_toString (n : ℕ) : is_blank (toString n) = false := by
  rw [← Bool.not_eq_true, is_blank, List.all_eq_true]
  intro hall
  have hlist : (toString n).toList = Nat.toDigits 10 n := Nat.toList_repr
  rw [hlist] at hall
  obtain ⟨c, hc⟩ := List.exists_mem_of_ne_nil _ (Nat.toDigits_ne_nil (b := 10) (n := n))
  have hdigit := Char.isDigit_iff_toNat.1 (Nat.isDigit_of_mem_toDigits (by decide) (by decide) hc)
  have hspace := hall c hc
  have h0 : '0'.toNat = 48 := rfl
  have h9 : '9'.toNat = 57 := rfl
  simp only [is_whitespace, Bool.or_eq_true, Bool.and_eq_true, decide_eq_true_eq] at hspace
  omega

/-! ## Messages -/

/-- Message types used for WebRTC negotiation. -/
inductive NegotiationMessage
  /-- Contains the SDP offer of a client. -/
  | ConnectRequest (connection_id : UInt64) (sdp_offer : String)
  /-- Contains the SDP answer of a server. -/
  | ConnectResponse (connection_id : UInt64) (sdp_answer : String)
  /-- Contains an ICE candidate. -/
  | CandidateAdd (connection_id : UInt64) (candidate : String)
  /-- Contains an error code. -/
  | ConnectError (connection_id : UInt64) (error : ConnectError)
  deriving DecidableEq, Repr

namespace NegotiationMessage

/-- The payload of a message must be there and not be blank. -/
def validate_payload (error_msg : String) (payload : Option String) :
    Except NethernetError String :=
  match payload with
  | none => .error (.Other error_msg)
  | some payload => if is_blank payload then .error (.Other error_msg) else .ok payload

/-- Parse an error code. -/
def parse_error (payload : Option String) : Except NethernetError Nethernet.ConnectError :=
  match payload with
  | none => .error (.Other "missing error code")
  | some payload => do
    let error_code ← (parse_u8 payload).mapError fun e => .Other s!"invalid error code: {e}"
    match ConnectError.from_code error_code with
    | none => .error (.Other s!"unknown error code: {error_code}")
    | some error => .ok error

/-- Parse a message. -/
def parse (s : String) : Except NethernetError NegotiationMessage :=
  match (splitn 3 ' ' s.toList).map String.ofList with
  | message_type :: connection_id :: rest => do
    let connection_id ← (parse_u64 connection_id).mapError fun e =>
      .Other s!"invalid connection ID: {e}"
    match message_type with
    | "CONNECTREQUEST" =>
      (validate_payload "missing SDP offer" rest.head?).map (ConnectRequest connection_id)
    | "CONNECTRESPONSE" =>
      (validate_payload "missing SDP answer" rest.head?).map (ConnectResponse connection_id)
    | "CANDIDATEADD" =>
      (validate_payload "missing ICE candidate" rest.head?).map (CandidateAdd connection_id)
    | "CONNECTERROR" => (parse_error rest.head?).map (ConnectError connection_id)
    | _ => .error (.Other s!"unknown message type: {message_type}")
  | _ => .error (.Other "invalid message format")

def connection_id : NegotiationMessage → UInt64
  | ConnectRequest connection_id _ | ConnectResponse connection_id _
  | CandidateAdd connection_id _ | ConnectError connection_id _ => connection_id

/-- The canonical name of a message's type. -/
def message_type : NegotiationMessage → String
  | ConnectRequest _ _ => "CONNECTREQUEST"
  | ConnectResponse _ _ => "CONNECTRESPONSE"
  | CandidateAdd _ _ => "CANDIDATEADD"
  | ConnectError _ _ => "CONNECTERROR"

/-- The text of a message. -/
def to_string : NegotiationMessage → String
  | ConnectRequest connection_id sdp_offer =>
    "CONNECTREQUEST" ++ " " ++ u64_to_string connection_id ++ " " ++ sdp_offer
  | ConnectResponse connection_id sdp_answer =>
    "CONNECTRESPONSE" ++ " " ++ u64_to_string connection_id ++ " " ++ sdp_answer
  | CandidateAdd connection_id candidate =>
    "CANDIDATEADD" ++ " " ++ u64_to_string connection_id ++ " " ++ candidate
  | ConnectError connection_id error =>
    "CONNECTERROR" ++ " " ++ u64_to_string connection_id ++ " " ++ toString error.code.toNat

/-! ## Lines of messages -/

/-- What a message carries after its connection id. -/
def payload : NegotiationMessage → String
  | ConnectRequest _ payload | ConnectResponse _ payload | CandidateAdd _ payload => payload
  | ConnectError _ error => toString error.code.toNat

/-- The type of the signal with the same line. -/
def signal_type : NegotiationMessage → SignalType
  | ConnectRequest _ _ => .Offer
  | ConnectResponse _ _ => .Answer
  | CandidateAdd _ _ => .Candidate
  | ConnectError _ _ => .Error

/-- The signal with the same line. -/
def signal (m : NegotiationMessage) (network_id : String) : Signal :=
  ⟨m.signal_type, m.connection_id, m.payload, network_id⟩

/-- **A message and its signal have the same text.** -/
theorem to_string_signal (m : NegotiationMessage) (network_id : String) :
    (m.signal network_id).to_string = m.to_string := by
  cases m <;> rfl

theorem message_type_eq_as_str (m : NegotiationMessage) :
    m.message_type = m.signal_type.as_str := by
  cases m <;> rfl

/-- What `parse` does with the line of a signal. -/
def read (signal_type : SignalType) (connection_id : UInt64) (payload : String) :
    Except NethernetError NegotiationMessage :=
  match signal_type with
  | .Offer =>
    (validate_payload "missing SDP offer" (some payload)).map (ConnectRequest connection_id)
  | .Answer =>
    (validate_payload "missing SDP answer" (some payload)).map (ConnectResponse connection_id)
  | .Candidate =>
    (validate_payload "missing ICE candidate" (some payload)).map (CandidateAdd connection_id)
  | .Error => (parse_error (some payload)).map (ConnectError connection_id)

theorem parse_to_string_signal (signal : Signal) :
    parse signal.to_string = read signal.signal_type signal.connection_id signal.data := by
  have hsplit := splitn_line (SignalType.space_not_mem_as_str signal.signal_type)
    (space_not_mem_to_string signal.connection_id) signal.data
  rw [parse, signal.to_string_eq_line, hsplit]
  simp only [parse_u64_to_string]
  cases signal.signal_type <;> rfl

theorem validate_payload_ok (error_msg : String) {payload : String} (h : is_blank payload = false) :
    validate_payload error_msg (some payload) = .ok payload := by
  rw [validate_payload, h]
  rfl

/-- A number is looked up as a code. -/
theorem parse_error_toString {n : ℕ} (h : n < UInt8.size) {error : Nethernet.ConnectError} :
    parse_error (some (toString n)) = .ok error ↔
      ConnectError.from_code (.ofNat n) = some error := by
  have hparse : parse_u8 (toString n) = .ok (.ofNat n) := by
    rw [parse_u8, parse_uint_eq_ok.2 ⟨h, spells_toString n⟩]
    rfl
  rw [parse_error, hparse]
  change (match ConnectError.from_code (.ofNat n) with
    | none => .error _
    | some error => .ok error : Except NethernetError Nethernet.ConnectError) = _ ↔ _
  rcases ConnectError.from_code (.ofNat n) with _ | error'
  · exact iff_of_false (fun h => by cases h) fun h => by cases h
  · rw [Except.ok.injEq, Option.some.injEq]

/-- **The text of a message is parsed back**, if its payload is not blank. -/
theorem parse_to_string {m : NegotiationMessage} (h : is_blank m.payload = false) :
    parse m.to_string = .ok m := by
  rw [← m.to_string_signal "", parse_to_string_signal]
  cases m with
  | ConnectRequest connection_id sdp_offer =>
    exact congrArg (Except.map (ConnectRequest connection_id)) (validate_payload_ok _ h)
  | ConnectResponse connection_id sdp_answer =>
    exact congrArg (Except.map (ConnectResponse connection_id)) (validate_payload_ok _ h)
  | CandidateAdd connection_id candidate =>
    exact congrArg (Except.map (CandidateAdd connection_id)) (validate_payload_ok _ h)
  | ConnectError connection_id error =>
    have hcode : parse_error (some (toString error.code.toNat)) = .ok error :=
      (parse_error_toString error.code.toNat_lt).2 (by simp)
    exact congrArg (Except.map (ConnectError connection_id)) hcode

/-- **Both codecs of signaling text round-trip**: what is printed is parsed back, errors always and
other messages unless their payload is blank, and what is parsed as a signal is its text, but for
the spelling of the connection id. -/
theorem signaling_roundtrip :
    (∀ s : Signal, Signal.from_string s.to_string s.network_id = .ok s) ∧
      (∀ m : NegotiationMessage, is_blank m.payload = false → parse m.to_string = .ok m) ∧
      (∀ (connection_id : UInt64) (error : Nethernet.ConnectError),
        parse (ConnectError connection_id error).to_string =
          .ok (ConnectError connection_id error)) ∧
      ∀ (t network_id : String) (s : Signal), Signal.from_string t network_id = .ok s →
        ∃ spelling, Spells spelling s.connection_id.toNat ∧
          t = line s.signal_type.as_str spelling s.data ∧
          s.to_string = line s.signal_type.as_str (u64_to_string s.connection_id) s.data := by
  refine ⟨fun s => s.from_string_to_string s.network_id, fun m => parse_to_string,
    fun connection_id error => parse_to_string (is_blank_toString _), fun t network_id s h => ?_⟩
  obtain ⟨-, spelling, hspells, ht⟩ := Signal.eq_line_of_from_string h
  exact ⟨spelling, hspells, ht, rfl⟩

/-! ## The two codecs -/

/-- **An error is read as the error it converts to** exactly when its code is below 20. -/
theorem parse_signal_error (connection_id : UInt64) (c : SignalErrorCode) (network_id : String) :
    parse (Signal.error connection_id c network_id).to_string =
        .ok (ConnectError connection_id (.from_signal_error_code c)) ↔ c.as_u32 < 20 := by
  have hsize : c.as_u32.toNat < UInt8.size := by cases c <;> decide
  have hcode : ConnectError.from_code (.ofNat c.as_u32.toNat) =
      some (.from_signal_error_code c) ↔ c.as_u32 < 20 := by
    rw [ConnectError.from_code_eq_some, ← UInt8.toNat_inj, ConnectError.toNat_code,
      UInt8.toNat_ofNat_of_lt' hsize]
    split <;> rename_i hlt
    · exact iff_of_true rfl hlt
    · exact iff_of_false (by omega) hlt
  rw [parse_to_string_signal, ← hcode, ← parse_error_toString hsize]
  change Except.map _ (parse_error (some (toString c.as_u32.toNat))) = _ ↔ _
  rcases parse_error (some (toString c.as_u32.toNat)) with e | error
  · exact iff_of_false (fun h => by cases h) fun h => by cases h
  · simp [Except.map, Signal.error]

/-- **An error's number is that of the error it converts to** exactly when its code is below 20. -/
theorem from_u32_code (error : Nethernet.ConnectError) :
    (parse_u32 (toString error.code.toNat)).map SignalErrorCode.from_u32 =
        .ok (.from_connect_error error) ↔ error.code < 20 := by
  have hsize : error.code.toNat < UInt32.size := by cases error <;> decide
  rw [parse_u32, parse_uint_eq_ok.2 ⟨hsize, spells_toString _⟩]
  change Except.ok (SignalErrorCode.from_u32 (.ofNat error.code.toNat)) = _ ↔ _
  rw [Except.ok.injEq]
  cases error <;> decide

/-- **The two codecs agree** on offers, answers and candidates that are not blank, and on errors
exactly where their codes agree, below 20. -/
theorem negotiation_agrees :
    (∀ (connection_id : UInt64) (payload network_id : String), is_blank payload = false →
        parse (Signal.offer connection_id payload network_id).to_string =
            .ok (ConnectRequest connection_id payload) ∧
          parse (Signal.answer connection_id payload network_id).to_string =
            .ok (ConnectResponse connection_id payload) ∧
          parse (Signal.candidate connection_id payload network_id).to_string =
            .ok (CandidateAdd connection_id payload)) ∧
      (∀ (connection_id : UInt64) (c : SignalErrorCode) (network_id : String),
        parse (Signal.error connection_id c network_id).to_string =
            .ok (ConnectError connection_id (.from_signal_error_code c)) ↔ c.as_u32 < 20) ∧
      (∀ (m : NegotiationMessage) (network_id : String),
        Signal.from_string m.to_string network_id =
          .ok ⟨m.signal_type, m.connection_id, m.payload, network_id⟩) ∧
      ∀ (connection_id : UInt64) (error : Nethernet.ConnectError),
        (parse_u32 (ConnectError connection_id error).payload).map SignalErrorCode.from_u32 =
            .ok (.from_connect_error error) ↔ error.code < 20 := by
  refine ⟨fun connection_id payload network_id h => ⟨?_, ?_, ?_⟩, parse_signal_error,
    fun m network_id => ?_, fun _ => from_u32_code⟩
  · exact parse_to_string (m := ConnectRequest connection_id payload) h
  · exact parse_to_string (m := ConnectResponse connection_id payload) h
  · exact parse_to_string (m := CandidateAdd connection_id payload) h
  · rw [← m.to_string_signal network_id, Signal.from_string_to_string]
    rfl

/-- The first error whose codes differ is not read at all. -/
theorem signal_error_unknown : ¬ ∀ (connection_id : UInt64) (c : SignalErrorCode)
    (network_id : String), parse (Signal.error connection_id c network_id).to_string =
      .ok (ConnectError connection_id (.from_signal_error_code c)) := by
  intro h
  have hlt := (parse_signal_error 1 .SignalingBroadcastDeliveryFailed "9").1 (h 1 _ "9")
  exact absurd hlt (by decide)

end NegotiationMessage

end Nethernet
