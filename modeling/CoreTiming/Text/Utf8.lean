/-!
# Decoding UTF-8

`decodeUtf8` reads bytes as UTF-8 and puts U+FFFD for each maximal subpart of an ill-formed
sequence: the longest run of bytes that begins some well-formed sequence, or one byte where there
is no such run. A byte order mark is a character like any other. ASCII bytes stand for
themselves (`decodeUtf8_ascii`).
-/

namespace CoreTiming.Text

/-- The character put for undecodable bytes. -/
def replacement : Char := '\uFFFD'

/-- The bytes that may follow a lead byte, as closed ranges, one for each place. A lead byte
without an entry starts no sequence. -/
def continuations (lead : Nat) : Option (List (Nat × Nat)) :=
  let any := (0x80, 0xBF)
  if lead < 0x80 then some []
  else if lead < 0xC2 then none
  else if lead < 0xE0 then some [any]
  else if lead = 0xE0 then some [(0xA0, 0xBF), any]
  else if lead = 0xED then some [(0x80, 0x9F), any]
  else if lead < 0xF0 then some [any, any]
  else if lead = 0xF0 then some [(0x90, 0xBF), any, any]
  else if lead < 0xF4 then some [any, any, any]
  else if lead = 0xF4 then some [(0x80, 0x8F), any, any]
  else none

/-- The payload bits of a lead byte that `length` bytes follow. -/
def leadBits (lead length : Nat) : Nat :=
  if length = 0 then lead else lead % Nat.pow 2 (6 - length)

/-- Follows a sequence through the places still expected, from the value of the bits so far.
Returns the code point, or nothing where the sequence breaks off, and the bytes after it. -/
def followUtf8 : List (Nat × Nat) → Nat → List UInt8 → Option Nat × List UInt8
  | [], value, rest => (some value, rest)
  | _ :: _, _, [] => (none, [])
  | (low, high) :: places, value, byte :: rest =>
    if low ≤ byte.toNat ∧ byte.toNat ≤ high then
      followUtf8 places (value * 64 + byte.toNat % 64) rest
    else (none, byte :: rest)

theorem length_followUtf8_le (places : List (Nat × Nat)) (value : Nat) (bytes : List UInt8) :
    (followUtf8 places value bytes).2.length ≤ bytes.length := by
  fun_induction followUtf8 places value bytes with
  | case1 => simp
  | case2 => simp
  | case3 low high places value byte rest h ih => simp; omega
  | case4 => simp

/-- The text of a byte sequence. -/
def decodeUtf8 : List UInt8 → List Char
  | [] => []
  | lead :: rest =>
    match continuations lead.toNat with
    | none => replacement :: decodeUtf8 rest
    | some places =>
      let found := followUtf8 places (leadBits lead.toNat places.length) rest
      (found.1.elim replacement Char.ofNat) :: decodeUtf8 found.2
termination_by bytes => bytes.length
decreasing_by
  · simp
  · have := length_followUtf8_le places (leadBits lead.toNat places.length) rest
    simp only [List.length_cons]
    omega

@[simp] theorem decodeUtf8_nil : decodeUtf8 [] = [] := by
  rw [decodeUtf8]

/-- A byte below 128 is the character with that code point. -/
theorem decodeUtf8_ascii {byte : UInt8} (h : byte.toNat < 0x80) (rest : List UInt8) :
    decodeUtf8 (byte :: rest) = Char.ofNat byte.toNat :: decodeUtf8 rest := by
  rw [decodeUtf8]
  simp [continuations, h, followUtf8, leadBits]

end CoreTiming.Text
