import CoreTiming.Text.Utf8

/-!
# Texts as bytes

`encodeUtf8` writes a text as UTF-8, character by character. A sequence of one to four bytes that
stands for a character is read as that character (`decodeUtf8_encodeChar`), whatever follows, so a
text is read back (`decodeUtf8_encodeUtf8`).
-/

namespace CoreTiming.Text

/-- The bytes of a text. -/
def encodeUtf8 (text : List Char) : List UInt8 := text.flatMap String.utf8EncodeChar

variable {places : List (Nat × Nat)} {low high a b c d : Nat}

/-! ## Sequences -/

/-- A lead byte starts a sequence. -/
theorem decodeUtf8_lead {lead : UInt8} (h : continuations lead.toNat = some places)
    (rest : List UInt8) :
    decodeUtf8 (lead :: rest)
      = (followUtf8 places (leadBits lead.toNat places.length) rest).1.elim replacement Char.ofNat
        :: decodeUtf8 (followUtf8 places (leadBits lead.toNat places.length) rest).2 := by
  rw [decodeUtf8, h]

/-- A byte with six bits of payload, which the place allows, continues a sequence. -/
theorem followUtf8_payload (hlow : low ≤ b + 128) (hhigh : b + 128 ≤ high) (hb : b < 64)
    (value : Nat) (rest : List UInt8) :
    followUtf8 ((low, high) :: places) value (UInt8.ofNat (b + 128) :: rest)
      = followUtf8 places (value * 64 + b) rest := by
  have hbyte : (UInt8.ofNat (b + 128)).toNat = b + 128 := by
    rw [UInt8.toNat_ofNat']
    omega
  have hpayload : (b + 128) % 64 = b := by omega
  rw [followUtf8, hbyte, if_pos ⟨hlow, hhigh⟩, hpayload]

/-- Two bytes, which are not the longer way to write one. -/
theorem decodeUtf8_two (hlong : 2 ≤ a) (ha : a < 32) (hb : b < 64) (rest : List UInt8) :
    decodeUtf8 (UInt8.ofNat (a + 192) :: UInt8.ofNat (b + 128) :: rest)
      = Char.ofNat (a * 64 + b) :: decodeUtf8 rest := by
  have hlead : (UInt8.ofNat (a + 192)).toNat = a + 192 := by
    rw [UInt8.toNat_ofNat']
    omega
  have hplaces : continuations (a + 192) = some [(0x80, 0xBF)] := by
    simp only [continuations]
    repeat rw [if_neg (by omega)]
    rw [if_pos (by omega)]
  have hbits : leadBits (a + 192) 1 = a := by
    change (a + 192) % 32 = a
    omega
  rw [decodeUtf8_lead (by rw [hlead, hplaces]), hlead]
  simp only [List.length_singleton, hbits]
  rw [followUtf8_payload (by omega) (by omega) hb, followUtf8]
  rfl

/-- Three bytes, which are not the longer way to write two and stand for no surrogate. -/
theorem decodeUtf8_three (hlong : a = 0 → 32 ≤ b) (hsurrogate : a = 13 → b < 32) (ha : a < 16)
    (hb : b < 64) (hc : c < 64) (rest : List UInt8) :
    decodeUtf8 (UInt8.ofNat (a + 224) :: UInt8.ofNat (b + 128) :: UInt8.ofNat (c + 128) :: rest)
      = Char.ofNat ((a * 64 + b) * 64 + c) :: decodeUtf8 rest := by
  have hlead : (UInt8.ofNat (a + 224)).toNat = a + 224 := by
    rw [UInt8.toNat_ofNat']
    omega
  obtain ⟨low, high, hplaces, hlow, hhigh⟩ : ∃ low high,
      continuations (a + 224) = some [(low, high), (0x80, 0xBF)] ∧ low ≤ b + 128
        ∧ b + 128 ≤ high := by
    simp only [continuations]
    rw [if_neg (by omega), if_neg (by omega), if_neg (by omega)]
    split
    · exact ⟨_, _, rfl, by omega, by omega⟩
    · split
      · exact ⟨_, _, rfl, by omega, by omega⟩
      · rw [if_pos (by omega)]
        exact ⟨_, _, rfl, by omega, by omega⟩
  have hbits : leadBits (a + 224) 2 = a := by
    change (a + 224) % 16 = a
    omega
  rw [decodeUtf8_lead (by rw [hlead, hplaces]), hlead]
  simp only [List.length_cons, List.length_nil, hbits]
  rw [followUtf8_payload hlow hhigh hb, followUtf8_payload (by omega) (by omega) hc, followUtf8]
  rfl

/-- Four bytes, which are not the longer way to write three and stand for a code point below
    U+110000. -/
theorem decodeUtf8_four (hlong : a = 0 → 16 ≤ b) (hlast : a = 4 → b < 16) (ha : a < 5)
    (hb : b < 64) (hc : c < 64) (hd : d < 64) (rest : List UInt8) :
    decodeUtf8 (UInt8.ofNat (a + 240) :: UInt8.ofNat (b + 128) :: UInt8.ofNat (c + 128)
        :: UInt8.ofNat (d + 128) :: rest)
      = Char.ofNat (((a * 64 + b) * 64 + c) * 64 + d) :: decodeUtf8 rest := by
  have hlead : (UInt8.ofNat (a + 240)).toNat = a + 240 := by
    rw [UInt8.toNat_ofNat']
    omega
  obtain ⟨low, high, hplaces, hlow, hhigh⟩ : ∃ low high,
      continuations (a + 240) = some [(low, high), (0x80, 0xBF), (0x80, 0xBF)] ∧ low ≤ b + 128
        ∧ b + 128 ≤ high := by
    simp only [continuations]
    rw [if_neg (by omega), if_neg (by omega), if_neg (by omega), if_neg (by omega),
      if_neg (by omega), if_neg (by omega)]
    split
    · exact ⟨_, _, rfl, by omega, by omega⟩
    · split
      · exact ⟨_, _, rfl, by omega, by omega⟩
      · rw [if_pos (by omega)]
        exact ⟨_, _, rfl, by omega, by omega⟩
  have hbits : leadBits (a + 240) 3 = a := by
    change (a + 240) % 8 = a
    omega
  rw [decodeUtf8_lead (by rw [hlead, hplaces]), hlead]
  simp only [List.length_cons, List.length_nil, hbits]
  rw [followUtf8_payload hlow hhigh hb, followUtf8_payload (by omega) (by omega) hc,
    followUtf8_payload (by omega) (by omega) hd, followUtf8]
  rfl

/-! ## Characters -/

theorem decodeUtf8_encodeChar (char : Char) (rest : List UInt8) :
    decodeUtf8 (String.utf8EncodeChar char ++ rest) = char :: decodeUtf8 rest := by
  have hvalid : char.val.toNat < 0xD800
      ∨ (0xDFFF < char.val.toNat ∧ char.val.toNat < 0x110000) := char.valid
  have hvalue : Char.ofNat char.val.toNat = char := Char.ofNat_toNat char
  simp only [String.utf8EncodeChar]
  generalize char.val.toNat = v at hvalid hvalue ⊢
  rw [← hvalue]
  split
  · have hbyte : (UInt8.ofNat v).toNat = v := by
      rw [UInt8.toNat_ofNat']
      omega
    rw [List.singleton_append, decodeUtf8_ascii (by omega), hbyte]
  · split
    · have hpayload : v / 64 % 32 * 64 + v % 64 = v := by omega
      rw [List.cons_append, List.singleton_append,
        decodeUtf8_two (by omega) (by omega) (by omega), hpayload]
    · split
      · have hpayload : (v / 4096 % 16 * 64 + v / 64 % 64) * 64 + v % 64 = v := by omega
        rw [List.cons_append, List.cons_append, List.singleton_append,
          decodeUtf8_three (by omega) (by omega) (by omega) (by omega) (by omega), hpayload]
      · have hpayload : ((v / 262144 % 8 * 64 + v / 4096 % 64) * 64 + v / 64 % 64) * 64 + v % 64
            = v := by omega
        rw [List.cons_append, List.cons_append, List.cons_append, List.singleton_append,
          decodeUtf8_four (by omega) (by omega) (by omega) (by omega) (by omega) (by omega),
          hpayload]

theorem decodeUtf8_encodeUtf8 (text : List Char) : decodeUtf8 (encodeUtf8 text) = text := by
  induction text with
  | nil => exact decodeUtf8_nil
  | cons c rest ih =>
    rw [encodeUtf8, List.flatMap_cons, decodeUtf8_encodeChar, ← encodeUtf8, ih]

end CoreTiming.Text
