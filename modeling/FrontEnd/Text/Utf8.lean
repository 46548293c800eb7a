/-
Reading UTF-8 without ever giving up. The decoder goes over the bytes
once and remembers the sequence it is in; where the bytes read so far
cannot go on to a character, they are given up together for one
replacement character, and the byte that did not fit is read afresh.
-/
namespace FrontEnd.Text.Utf8

/-- A sequence still short of `missing` bytes, the next of which has to
lie between `low` and `high`. -/
structure Partial where
  /-- The bits read so far. -/
  code : Nat
  missing : Nat
  low : Nat
  high : Nat
deriving DecidableEq, Repr

/-- What the decoder has made of the bytes read so far. -/
structure Decoder where
  /-- The characters, last first. -/
  done : List Char
  /-- Whether no byte was given up. -/
  valid : Bool
  pending : Option Partial

/-- What stands for bytes that are no character. -/
def replacement : Char := '\ufffd'

/-- The sequence that a byte opens, if it opens one. The bounds of the
second byte leave out overlong forms, surrogates and everything beyond
U+10FFFF. -/
def opened (byte : Nat) : Option Partial :=
  if byte < 0xC2 then none
  else if byte < 0xE0 then some ⟨byte - 0xC0, 1, 0x80, 0xBF⟩
  else if byte < 0xF0 then
    some ⟨byte - 0xE0, 2, if byte = 0xE0 then 0xA0 else 0x80,
      if byte = 0xED then 0x9F else 0xBF⟩
  else if byte < 0xF5 then
    some ⟨byte - 0xF0, 3, if byte = 0xF0 then 0x90 else 0x80,
      if byte = 0xF4 then 0x8F else 0xBF⟩
  else none

/-- Reads a byte outside any sequence. -/
def Decoder.start (d : Decoder) (byte : Nat) : Decoder :=
  if byte < 0x80 then
    { d with done := Char.ofNat byte :: d.done, pending := none }
  else
    match opened byte with
    | some p => { d with pending := some p }
    | none => ⟨replacement :: d.done, false, none⟩

/-- Reads the next byte. -/
def Decoder.step (d : Decoder) (byte : UInt8) : Decoder :=
  let b := byte.toNat
  match d.pending with
  | none => d.start b
  | some p =>
    if p.low ≤ b && b ≤ p.high then
      let code := p.code * 64 + b % 64
      if p.missing ≤ 1 then
        { d with done := Char.ofNat code :: d.done, pending := none }
      else
        { d with pending := some ⟨code, p.missing - 1, 0x80, 0xBF⟩ }
    else
      Decoder.start ⟨replacement :: d.done, false, none⟩ b

/-- The text of the bytes, and whether each byte belongs to it. -/
def decode (bytes : List UInt8) : List Char × Bool :=
  let d := bytes.foldl Decoder.step ⟨[], true, none⟩
  match d.pending with
  | none => (d.done.reverse, d.valid)
  | some _ => ((replacement :: d.done).reverse, false)

end FrontEnd.Text.Utf8
