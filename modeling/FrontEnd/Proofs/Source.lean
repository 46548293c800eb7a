/-
Files read as bytes. Each character set gives a text its form in bytes, or
none (`Charset.encode`), and reading undoes that: bytes that are the form of
a text are read as it, and of others a replacement stands in the text
(`Charset.decode_encode`, `Charset.encode_decode`,
`Charset.replacement_mem`). What a file keeps of it is the text without a
mark in front (`SourceFile.ofBytes_reads`).
-/
import FrontEnd.Source
import FrontEnd.Proofs.Text.Decoding

namespace FrontEnd

open Text

namespace Charset

-- ============================================================ forms of texts

/-- The codes of the characters, if all are below the bound. -/
def codesBelow (bound : Nat) (text : List Char) : Option (List UInt8) :=
  if text.all (·.toNat < bound) then
    some (text.map fun c => UInt8.ofNat c.toNat)
  else none

/-- The form of a text in bytes, if the character set has all of its
characters. -/
def encode (charset : Charset) (text : List Char) : Option (List UInt8) :=
  match charset with
  | .utf8 => some (Utf8.encode text)
  | .ascii => codesBelow 0x80 text
  | .latin1 => codesBelow 0x100 text

theorem toNat_ofNat_byte (b : UInt8) :
    (Char.ofNat b.toNat).toNat = b.toNat :=
  Utf8.toNat_ofNat (.inl (by have := b.toNat_lt; omega))

theorem codesBelow_eq_some {bound : Nat} (hbound : bound ≤ 0x100)
    {text : List Char} {bytes : List UInt8} :
    codesBelow bound text = some bytes
      ↔ text = bytes.map (fun b => Char.ofNat b.toNat)
        ∧ ∀ b ∈ bytes, b.toNat < bound := by
  have hcode {n : Nat} (h : n < bound) : (UInt8.ofNat n).toNat = n := by
    rw [UInt8.toNat_ofNat', Nat.mod_eq_of_lt (by omega)]
  unfold codesBelow
  constructor
  · intro h
    split at h
    case isTrue hall =>
      obtain rfl := Option.some.inj h
      have hbelow : ∀ c ∈ text, c.toNat < bound := by simpa using hall
      constructor
      · rw [List.map_map]
        refine (List.map_id text).symm.trans
          (List.map_congr_left fun c hc => ?_)
        simp [hcode (hbelow c hc)]
      · intro b hb
        obtain ⟨c, hc, rfl⟩ := List.mem_map.1 hb
        rw [hcode (hbelow c hc)]
        exact hbelow c hc
    case isFalse => cases h
  · rintro ⟨rfl, hbelow⟩
    rw [if_pos (by simpa [toNat_ofNat_byte] using hbelow), List.map_map]
    congr 1
    refine (List.map_congr_left fun b _ => ?_).trans (List.map_id bytes)
    simp [toNat_ofNat_byte]

-- ================================================================== reading

variable {charset : Charset} {text : List Char} {bytes : List UInt8}

/-- The form of a text is read as the text. -/
theorem decode_encode (h : charset.encode text = some bytes) :
    charset.decode bytes = ⟨text, true⟩ := by
  cases charset with
  | utf8 =>
    obtain rfl := Option.some.inj h
    simp only [decode, Utf8.decode_encode]
  | ascii =>
    obtain ⟨rfl, hbelow⟩ := (codesBelow_eq_some (by omega)).1 h
    have hascii : ∀ b ∈ bytes, b < 0x80 := hbelow
    simp only [decode, Decoded.mk.injEq]
    constructor
    · exact List.map_congr_left fun b hb => if_pos (hascii b hb)
    · simpa using hascii
  | latin1 =>
    obtain ⟨rfl, -⟩ := (codesBelow_eq_some (by omega)).1 h
    rfl

/-- What is read without a replacement has the bytes as its form. -/
theorem encode_decode (h : (charset.decode bytes).valid = true) :
    charset.encode (charset.decode bytes).text = some bytes := by
  cases charset with
  | utf8 =>
    exact congrArg some ((Utf8.decode_read bytes).encode_eq h)
  | ascii =>
    have hascii : ∀ b ∈ bytes, b < 0x80 := by simpa [decode] using h
    refine (codesBelow_eq_some (by omega)).2 ⟨?_, hascii⟩
    exact List.map_congr_left fun b hb => if_pos (hascii b hb)
  | latin1 =>
    exact (codesBelow_eq_some (by omega)).2
      ⟨rfl, fun b _ => b.toNat_lt⟩

/-- A replacement that was needed stands in the text. -/
theorem replacement_mem (h : (charset.decode bytes).valid = false) :
    Utf8.replacement ∈ (charset.decode bytes).text := by
  cases charset with
  | utf8 => exact (Utf8.decode_read bytes).mem_replacement h
  | ascii =>
    obtain ⟨b, hb, hbeyond⟩ : ∃ b ∈ bytes, ¬ b < 0x80 := by
      simpa [decode] using h
    exact List.mem_map.2 ⟨b, hb, if_neg hbeyond⟩
  | latin1 => cases h

end Charset

namespace SourceFile

theorem dropMark_eq (text : List Char) :
    dropMark text
      = if text.head? = some byteOrderMark then text.tail else text := by
  cases text with
  | nil => rfl
  | cons c cs => simp [dropMark]

/-- No other character is lost with the mark. -/
theorem mem_dropMark {c : Char} (hc : c ≠ byteOrderMark) {text : List Char}
    (h : c ∈ text) : c ∈ dropMark text := by
  cases text with
  | nil => cases h
  | cons d text =>
    rw [dropMark]
    split
    case isTrue hmark =>
      rcases List.mem_cons.1 h with rfl | htail
      · exact absurd (beq_iff_eq.1 hmark) hc
      · exact htail
    case isFalse => exact h

/-- A mark in front of UTF-8 is read as such, and the rest as without it. -/
theorem decode_mark (bytes : List UInt8) :
    Utf8.decode ([0xEF, 0xBB, 0xBF] ++ bytes)
      = (byteOrderMark :: (Utf8.decode bytes).1, (Utf8.decode bytes).2) := by
  have hmark : String.utf8EncodeChar byteOrderMark = [0xEF, 0xBB, 0xBF] := by
    decide
  have hread := (Utf8.decode_read bytes).char byteOrderMark
  rw [hmark] at hread
  obtain ⟨htext, hvalid⟩ := (Utf8.decode_read _).unique hread
  exact Prod.ext htext hvalid

/-- A file that is read as bytes has the text whose form they are, without
one mark in front, or else says that there is no such text and has a
replacement in what was read. In UTF-8 there is one for each maximal part
that cannot be read, a mark in front of the bytes changes nothing about the
rest, and the form of a text without a mark in front gives the file of that
text. -/
theorem ofBytes_reads (path : String) (bytes : List UInt8)
    (charset : Charset) :
    ((ofBytes path bytes charset).decodeError = true
        ↔ ∀ text, charset.encode text ≠ some bytes)
      ∧ (∀ text, charset.encode text = some bytes →
          (ofBytes path bytes charset).text
            = if text.head? = some byteOrderMark then text.tail else text)
      ∧ ((ofBytes path bytes charset).decodeError = true →
          Utf8.replacement ∈ (ofBytes path bytes charset).text)
      ∧ Utf8.Read bytes (Charset.utf8.decode bytes).text
          (Charset.utf8.decode bytes).valid
      ∧ ofBytes path ([0xEF, 0xBB, 0xBF] ++ bytes) .utf8
          = ⟨path, (Charset.utf8.decode bytes).text, .utf8,
            !(Charset.utf8.decode bytes).valid⟩
      ∧ ∀ text : List Char, text.head? ≠ some byteOrderMark →
          ofBytes path (Utf8.encode text) .utf8 = ofText path text := by
  refine ⟨?_, ?_, ?_, Utf8.decode_read bytes, ?_, ?_⟩
  · constructor
    · intro herror text htext
      simp [ofBytes, Charset.decode_encode htext] at herror
    · intro hnone
      by_contra herror
      exact hnone _ (Charset.encode_decode (by simpa [ofBytes] using herror))
  · intro text htext
    rw [ofBytes, Charset.decode_encode htext, dropMark_eq]
  · intro herror
    have hmem : Utf8.replacement ∈ (charset.decode bytes).text :=
      Charset.replacement_mem (by simpa [ofBytes] using herror)
    exact mem_dropMark (by decide) hmem
  · simp only [ofBytes, Charset.decode, decode_mark]
    rfl
  · intro text hmark
    simp only [ofBytes, Charset.decode, Utf8.decode_encode, dropMark_eq,
      if_neg hmark]
    rfl

end SourceFile

end FrontEnd
