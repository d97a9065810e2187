import Mathlib.Data.List.Induction
import Nethernet.Foundations.Split
import Nethernet.Protocol.Error
import Nethernet.Protocol.ErrorCode

/-!
# Signals

`src/protocol/signal.rs`: a signal travels as the text `TYPE CONNECTION_ID DATA`. The network id is
not part of the text: the receiver takes that of the sender. `from_string_to_string` is the round
trip; the data may hold anything, further spaces included.
-/

namespace Nethernet

open Foundations

/-! ## Numbers -/

/-- The value of a decimal digit. -/
def to_digit (c : Char) : Option ℕ := if c.isDigit then some (c.toNat - '0'.toNat) else none

/-- Read one more digit of an unsigned type with `size` values. -/
def push_uint (size value : ℕ) (c : Char) : Except String ℕ :=
  match to_digit c with
  | none => .error "invalid digit found in string"
  | some d =>
    if 10 * value + d < size then .ok (10 * value + d)
    else .error "number too large to fit in target type"

/-- `str::parse` for an unsigned type with `size` values: decimal digits, after an optional plus
sign. -/
def parse_uint (size : ℕ) (s : String) : Except String ℕ :=
  match s.toList with
  | [] => .error "cannot parse integer from empty string"
  | ['+'] => .error "invalid digit found in string"
  | '+' :: digits => digits.foldlM (push_uint size) 0
  | digits => digits.foldlM (push_uint size) 0

def parse_u8 (s : String) : Except String UInt8 := (parse_uint UInt8.size s).map UInt8.ofNat

def parse_u32 (s : String) : Except String UInt32 := (parse_uint UInt32.size s).map UInt32.ofNat

def parse_u64 (s : String) : Except String UInt64 := (parse_uint UInt64.size s).map UInt64.ofNat

/-- The decimal form of a `u64`. -/
def u64_to_string (n : UInt64) : String := toString n.toNat

/-- The spellings of a number: a plus sign or none, some zeros, and the decimal form. -/
def Spells (s : String) (n : ℕ) : Prop :=
  ∃ sign zeros, (sign = [] ∨ sign = ['+']) ∧
    s.toList = sign ++ (List.replicate zeros '0' ++ Nat.toDigits 10 n)

theorem to_digit_eq_some {c : Char} {d : ℕ} : to_digit c = some d ↔ d < 10 ∧ c = d.digitChar := by
  constructor
  · intro h
    obtain ⟨hdigit, h⟩ := Option.ite_none_right_eq_some.1 h
    obtain ⟨hge, hle⟩ := Char.isDigit_iff_toNat.1 hdigit
    have h0 : '0'.toNat = 48 := rfl
    have h9 : '9'.toNat = 57 := rfl
    have hd : c.toNat - '0'.toNat = d := Option.some.inj h
    have hlt : d < 10 := by omega
    refine ⟨hlt, Char.toNat_inj.1 ?_⟩
    rw [Nat.toNat_digitChar_of_lt_ten hlt]
    omega
  · rintro ⟨hd, rfl⟩
    rw [to_digit, if_pos (by rw [Nat.isDigit_digitChar]; exact decide_eq_true hd)]
    exact congrArg some (Nat.toNat_digitChar_sub_48_of_lt_ten hd)

theorem push_uint_eq_ok {size value n : ℕ} {c : Char} : push_uint size value c = .ok n ↔
    ∃ d < 10, c = d.digitChar ∧ n = 10 * value + d ∧ n < size := by
  constructor
  · intro h
    rw [push_uint] at h
    split at h
    · cases h
    · rename_i d hdigit
      obtain ⟨hd, hc⟩ := to_digit_eq_some.1 hdigit
      split at h
      · rename_i hlt
        obtain rfl := Except.ok.inj h
        exact ⟨d, hd, hc, rfl, hlt⟩
      · cases h
  · rintro ⟨d, hd, rfl, rfl, hlt⟩
    rw [push_uint, to_digit_eq_some.2 ⟨hd, rfl⟩]
    exact if_pos hlt

theorem foldlM_concat_eq_ok {size n : ℕ} {digits : List Char} {c : Char} :
    (digits ++ [c]).foldlM (push_uint size) 0 = .ok n ↔
      ∃ value, digits.foldlM (push_uint size) 0 = .ok value ∧ push_uint size value c = .ok n := by
  rw [List.foldlM_append]
  rcases digits.foldlM (push_uint size) 0 with e | value
  · exact ⟨fun h => (by cases h), fun ⟨_, h, _⟩ => (by cases h)⟩
  · change push_uint size value c >>= pure = _ ↔ _
    rw [bind_pure]
    exact ⟨fun h => ⟨value, rfl, h⟩, fun ⟨_, hvalue, h⟩ => Except.ok.inj hvalue ▸ h⟩

/-- Leading zeros do not count. -/
theorem foldlM_replicate_zero {size : ℕ} (h : 0 < size) (zeros : ℕ) :
    (List.replicate zeros '0').foldlM (push_uint size) 0 = .ok 0 := by
  induction zeros with
  | zero => rfl
  | succ zeros ih =>
    rw [List.replicate_succ']
    exact foldlM_concat_eq_ok.2 ⟨0, ih, push_uint_eq_ok.2 ⟨0, by decide, rfl, rfl, h⟩⟩

/-- The decimal form of a number is read back, after any zeros. -/
theorem foldlM_toDigits {size n : ℕ} (h : n < size) (zeros : ℕ) :
    (List.replicate zeros '0' ++ Nat.toDigits 10 n).foldlM (push_uint size) 0 = .ok n := by
  induction n using Nat.strongRecOn with
  | _ n ih =>
    rw [Nat.toDigits_eq_if (by decide)]
    split
    · rename_i hlt
      exact foldlM_concat_eq_ok.2 ⟨0, foldlM_replicate_zero (by omega) zeros,
        push_uint_eq_ok.2 ⟨n, hlt, rfl, by omega, h⟩⟩
    · rename_i hge
      rw [← List.append_assoc]
      exact foldlM_concat_eq_ok.2 ⟨n / 10, ih (n / 10) (by omega) (by omega),
        push_uint_eq_ok.2 ⟨n % 10, Nat.mod_lt n (by decide), rfl,
          (Nat.div_add_mod n 10).symm, h⟩⟩

/-- Digits that are read are zeros and the decimal form of the number. -/
theorem spelled_of_foldlM {size n : ℕ} {digits : List Char} (hne : digits ≠ [])
    (h : digits.foldlM (push_uint size) 0 = .ok n) :
    n < size ∧ ∃ zeros, digits = List.replicate zeros '0' ++ Nat.toDigits 10 n := by
  induction digits using List.reverseRecOn generalizing n with
  | nil => exact absurd rfl hne
  | append_singleton digits c ih =>
    obtain ⟨value, hvalue, hpush⟩ := foldlM_concat_eq_ok.1 h
    obtain ⟨d, hd, rfl, rfl, hlt⟩ := push_uint_eq_ok.1 hpush
    refine ⟨hlt, ?_⟩
    by_cases hnil : digits = []
    · subst hnil
      obtain rfl : 0 = value := Except.ok.inj hvalue
      exact ⟨0, by rw [Nat.mul_zero, Nat.zero_add, Nat.toDigits_of_lt_base hd]; rfl⟩
    · obtain ⟨-, zeros, hdigits⟩ := ih hnil hvalue
      rcases Nat.eq_zero_or_pos value with rfl | hpos
      · refine ⟨zeros + 1, ?_⟩
        rw [Nat.toDigits_zero] at hdigits
        rw [hdigits, Nat.mul_zero, Nat.zero_add, Nat.toDigits_of_lt_base hd,
          List.replicate_succ']
      · refine ⟨zeros, ?_⟩
        rw [hdigits, ← Nat.toDigits_append_toDigits (by decide) hpos hd,
          Nat.toDigits_of_lt_base hd, List.append_assoc]

/-- **What is parsed is a spelling** of the number, which fits the type. -/
theorem parse_uint_eq_ok {size n : ℕ} {s : String} :
    parse_uint size s = .ok n ↔ n < size ∧ Spells s n := by
  constructor
  · intro h
    rw [parse_uint] at h
    split at h
    · cases h
    · cases h
    · rename_i digits hne hs
      obtain ⟨hlt, zeros, rfl⟩ := spelled_of_foldlM hne h
      exact ⟨hlt, ['+'], zeros, .inr rfl, hs⟩
    · rename_i digits hnil _ _
      obtain ⟨hlt, zeros, hs⟩ := spelled_of_foldlM hnil h
      exact ⟨hlt, [], zeros, .inl rfl, hs⟩
  · rintro ⟨hlt, sign, zeros, hsign, hs⟩
    have hread := foldlM_toDigits hlt zeros
    have hplus : ∀ digits, List.replicate zeros '0' ++ Nat.toDigits 10 n ≠ '+' :: digits := by
      intro digits hcons
      have hmem : '+' ∈ List.replicate zeros '0' ++ Nat.toDigits 10 n := by rw [hcons]; simp
      rcases List.mem_append.1 hmem with hmem | hmem
      · exact absurd (List.eq_of_mem_replicate hmem) (by decide)
      · exact absurd (Nat.isDigit_of_mem_toDigits (by decide) (by decide) hmem) (by decide)
    have hne : List.replicate zeros '0' ++ Nat.toDigits 10 n ≠ [] :=
      List.append_ne_nil_of_right_ne_nil _ Nat.toDigits_ne_nil
    rw [parse_uint, hs]
    rcases hsign with rfl | rfl
    · rw [List.nil_append]
      split
      · rename_i hnil
        exact absurd hnil hne
      · rename_i hcons
        exact absurd hcons (hplus _)
      · rename_i hcons
        exact absurd hcons (hplus _)
      · exact hread
    · rw [List.singleton_append]
      split
      · rename_i hnil
        cases hnil
      · rename_i hcons
        exact absurd (List.cons.inj hcons).2 hne
      · rename_i hcons
        rw [← (List.cons.inj hcons).2]
        exact hread
      · rename_i hcons
        exact absurd rfl (hcons _)

/-- The decimal form of a number spells it. -/
theorem spells_toString (n : ℕ) : Spells (toString n) n := ⟨[], 0, .inl rfl, Nat.toList_repr⟩

theorem parse_u64_eq_ok {s : String} {n : UInt64} : parse_u64 s = .ok n ↔ Spells s n.toNat := by
  rw [parse_u64]
  constructor
  · intro h
    rcases hparse : parse_uint UInt64.size s with e | value
    · rw [hparse] at h
      cases h
    · rw [hparse] at h
      obtain rfl := Except.ok.inj h
      obtain ⟨hlt, hspells⟩ := parse_uint_eq_ok.1 hparse
      rwa [UInt64.toNat_ofNat_of_lt' hlt]
  · intro h
    rw [parse_uint_eq_ok.2 ⟨n.toNat_lt, h⟩, Except.map, UInt64.ofNat_toNat]

/-- **A printed `u64` is parsed back.** -/
theorem parse_u64_to_string (n : UInt64) : parse_u64 (u64_to_string n) = .ok n :=
  parse_u64_eq_ok.2 (spells_toString n.toNat)

/-- A printed number holds no space. -/
theorem space_not_mem_to_string (n : UInt64) : ' ' ∉ (u64_to_string n).toList := by
  intro hc
  rw [u64_to_string, Nat.toString_eq_repr, Nat.toList_repr] at hc
  exact absurd (Nat.isDigit_of_mem_toDigits (by decide) (by decide) hc) (by decide)

/-! ## Lines -/

/-- The text `TYPE CONNECTION_ID DATA`. -/
def line (message_type connection_id data : String) : String :=
  message_type ++ " " ++ connection_id ++ " " ++ data

/-- **A line is cut at its first two spaces**, whatever its data. -/
theorem splitn_line {message_type connection_id : String} (htype : ' ' ∉ message_type.toList)
    (hid : ' ' ∉ connection_id.toList) (data : String) :
    (splitn 3 ' ' (line message_type connection_id data).toList).map String.ofList =
      [message_type, connection_id, data] := by
  have htext : (line message_type connection_id data).toList =
      message_type.toList ++ ' ' :: (connection_id.toList ++ ' ' :: data.toList) := by
    simp [line, String.toList_append]
  have hlast : splitn 1 ' ' data.toList = [data.toList] := rfl
  rw [htext, splitn_append 1 htype, splitn_append 0 hid, hlast]
  simp only [List.map_cons, List.map_nil, String.ofList_toList]

/-- A text that is cut into three pieces is their line. -/
theorem eq_line_of_splitn {s message_type connection_id data : String}
    (h : (splitn 3 ' ' s.toList).map String.ofList = [message_type, connection_id, data]) :
    s = line message_type connection_id data := by
  obtain ⟨first, rest, hcut, rfl, hrest⟩ := List.map_eq_cons_iff.1 h
  obtain ⟨second, rest, rfl, rfl, hlast⟩ := List.map_eq_cons_iff.1 hrest
  obtain ⟨third, rest, rfl, rfl, hnil⟩ := List.map_eq_cons_iff.1 hlast
  obtain rfl := List.map_eq_nil_iff.1 hnil
  obtain ⟨-, tail, hs, htail⟩ := splitn_eq_cons_cons hcut
  obtain ⟨-, data, rfl, hdata⟩ := splitn_eq_cons_cons htail
  obtain ⟨rfl, -⟩ := List.cons.inj hdata
  apply String.toList_injective
  rw [hs]
  simp [line, String.toList_append]

/-! ## Signals -/

/-- Signal types. -/
inductive SignalType
  | Offer
  | Answer
  | Candidate
  | Error
  deriving DecidableEq, Repr

namespace SignalType

def as_str : SignalType → String
  | Offer => "CONNECTREQUEST"
  | Answer => "CONNECTRESPONSE"
  | Candidate => "CANDIDATEADD"
  | Error => "CONNECTERROR"

/-- Parse a signal type. -/
def from_str (s : String) : Except NethernetError SignalType :=
  match s with
  | "CONNECTREQUEST" => .ok Offer
  | "CONNECTRESPONSE" => .ok Answer
  | "CANDIDATEADD" => .ok Candidate
  | "CONNECTERROR" => .ok Error
  | _ => .error (.Other s!"Unknown signal type: {s}")

@[simp] theorem from_str_as_str (signal_type : SignalType) :
    from_str signal_type.as_str = .ok signal_type := by
  cases signal_type <;> rfl

theorem eq_as_str_of_from_str {s : String} {signal_type : SignalType}
    (h : from_str s = .ok signal_type) : s = signal_type.as_str := by
  unfold from_str at h
  split at h <;> cases h <;> rfl

theorem space_not_mem_as_str (signal_type : SignalType) : ' ' ∉ signal_type.as_str.toList := by
  cases signal_type <;> decide

end SignalType

/-- A signal; the network id is that of its receiver on the way out and of its sender on the way
in. -/
structure Signal where
  signal_type : SignalType
  connection_id : UInt64
  data : String
  network_id : String
  deriving DecidableEq, Repr

namespace Signal

def offer (connection_id : UInt64) (sdp network_id : String) : Signal :=
  ⟨.Offer, connection_id, sdp, network_id⟩

def answer (connection_id : UInt64) (sdp network_id : String) : Signal :=
  ⟨.Answer, connection_id, sdp, network_id⟩

def candidate (connection_id : UInt64) (candidate network_id : String) : Signal :=
  ⟨.Candidate, connection_id, candidate, network_id⟩

/-- A connection error. -/
def error (connection_id : UInt64) (error_code : SignalErrorCode) (network_id : String) : Signal :=
  ⟨.Error, connection_id, toString error_code.as_u32.toNat, network_id⟩

/-- The text of a signal. -/
def to_string (signal : Signal) : String :=
  signal.signal_type.as_str ++ " " ++ u64_to_string signal.connection_id ++ " " ++ signal.data

/-- Parse the text of a signal. -/
def from_string (s : String) (network_id : String) : Except NethernetError Signal :=
  match (splitn 3 ' ' s.toList).map String.ofList with
  | [signal_type, connection_id, data] => do
    let signal_type ← SignalType.from_str signal_type
    let connection_id ← (parse_u64 connection_id).mapError fun e =>
      .Other s!"Failed to parse connection ID: {e}"
    .ok { signal_type, connection_id, data, network_id }
  | parts => .error (.Other s!"Invalid signal format: expected 3 parts, got {parts.length}")

theorem to_string_eq_line (signal : Signal) : signal.to_string =
    line signal.signal_type.as_str (u64_to_string signal.connection_id) signal.data := rfl

/-- **The text of a signal is parsed back**, with the network id that the parser is given. -/
theorem from_string_to_string (signal : Signal) (network_id : String) :
    from_string signal.to_string network_id = .ok { signal with network_id := network_id } := by
  have hsplit := splitn_line (SignalType.space_not_mem_as_str signal.signal_type)
    (space_not_mem_to_string signal.connection_id) signal.data
  rw [from_string, to_string_eq_line, hsplit]
  simp only [SignalType.from_str_as_str, parse_u64_to_string]
  rfl

/-- **What is parsed** is the line of the signal, with some spelling of its connection id. -/
theorem eq_line_of_from_string {s network_id : String} {signal : Signal}
    (h : from_string s network_id = .ok signal) : signal.network_id = network_id ∧
      ∃ spelling, Spells spelling signal.connection_id.toNat ∧
        s = line signal.signal_type.as_str spelling signal.data := by
  unfold from_string at h
  split at h
  · rename_i signal_type connection_id data hsplit
    rcases htype : SignalType.from_str signal_type with e | signal_type'
    · rw [htype] at h
      cases h
    · rcases hid : parse_u64 connection_id with e | connection_id'
      · rw [htype, hid] at h
        cases h
      · simp only [htype, hid, Except.mapError] at h
        obtain rfl := Except.ok.inj h
        refine ⟨rfl, connection_id, parse_u64_eq_ok.1 hid, ?_⟩
        rw [eq_line_of_splitn hsplit, SignalType.eq_as_str_of_from_str htype]
  · cases h

/-- A parsed signal has the network id that the parser is given. -/
theorem network_id_of_string {s network_id : String} {signal : Signal}
    (h : from_string s network_id = .ok signal) : signal.network_id = network_id :=
  (eq_line_of_from_string h).1

/-- The text of a signal is not that of a ping: it starts with the name of its type. -/
theorem to_string_ne_ping (signal : Signal) : signal.to_string ≠ "Ping" := by
  intro h
  have hchars := congrArg (fun s : String => s.toList.head?) h
  cases htype : signal.signal_type <;>
    simp [to_string, htype, SignalType.as_str, String.toList_append] at hchars

end Signal

end Nethernet
