/-
How bytes are read as UTF-8, said without a decoder. The form of a
character is the library's (`String.utf8EncodeChar`). Bytes are read from
the front: a character if the form of one stands there, and otherwise a
replacement for as many bytes as the form of some character starts with, or
for the one byte if there is no such form (`Stray`). No form is the start of
another, so that bytes can be read in one way only (`Read.unique`), and the
ways without a replacement are those of encoded texts.
-/
import FrontEnd.Text.Utf8
import Mathlib.Data.List.Infix

namespace FrontEnd.Text.Utf8

open String (utf8EncodeChar)

/-- The form of a text in bytes. -/
def encode (text : List Char) : List UInt8 :=
  text.flatMap utf8EncodeChar

/-- The form of some character starts with the bytes. -/
def Opens (bytes : List UInt8) : Prop :=
  ∃ c, bytes <+: utf8EncodeChar c

/-- The bytes `front` are the maximal part in front of `rest` that cannot
be read. -/
structure Stray (front rest : List UInt8) : Prop where
  nonempty : front ≠ []
  /-- No character stands in front. -/
  unreadable : ∀ c, ¬ utf8EncodeChar c <+: front ++ rest
  part : Opens front ∨ front.length = 1
  longest : ∀ more, more ≠ [] → more <+: rest → ¬ Opens (front ++ more)

/-- The bytes are read as the text, with or without a replacement. -/
inductive Read : List UInt8 → List Char → Bool → Prop where
  | nil : Read [] [] true
  | char (c : Char) {rest : List UInt8} {text : List Char} {valid : Bool} :
    Read rest text valid →
      Read (utf8EncodeChar c ++ rest) (c :: text) valid
  | stray {front rest : List UInt8} {text : List Char} {valid : Bool} :
    Stray front rest → Read rest text valid →
      Read (front ++ rest) (replacement :: text) false

-- ================================================================== forms

theorem utf8EncodeChar_ne_nil (c : Char) : utf8EncodeChar c ≠ [] := by
  rw [← List.length_pos_iff, String.length_utf8EncodeChar]
  exact c.utf8Size_pos

/-- The character in front can be told from the bytes. -/
theorem utf8EncodeChar_append_inj {c d : Char} {bs bs' : List UInt8}
    (h : utf8EncodeChar c ++ bs = utf8EncodeChar d ++ bs') :
    c = d ∧ bs = bs' := by
  have hread (c : Char) (bs : List UInt8) :
      (utf8EncodeChar c ++ bs).toByteArray.utf8DecodeChar? 0 = some c := by
    rw [List.toByteArray_append]
    exact ByteArray.utf8DecodeChar?_utf8EncodeChar_append
  obtain rfl : c = d := Option.some.inj (by rw [← hread c bs, h, hread])
  exact ⟨rfl, List.append_cancel_left h⟩

/-- No form is the start of another one. -/
theorem eq_of_utf8EncodeChar_prefix {c d : Char}
    (h : utf8EncodeChar c <+: utf8EncodeChar d) : c = d := by
  obtain ⟨more, hmore⟩ := h
  exact (utf8EncodeChar_append_inj (by rw [hmore, List.append_nil])).1

theorem Opens.of_prefix {bytes more : List UInt8} (h : Opens more)
    (hstart : bytes <+: more) : Opens bytes :=
  let ⟨c, hc⟩ := h
  ⟨c, hstart.trans hc⟩

-- ================================================================ reading

variable {front rest bytes : List UInt8} {text text' : List Char}
  {valid valid' : Bool}

/-- Of two stray parts in front of the same bytes, none is longer. -/
theorem Stray.inj {front' rest' : List UInt8} (h : Stray front rest)
    (h' : Stray front' rest') (heq : front ++ rest = front' ++ rest') :
    front = front' ∧ rest = rest' := by
  have shorter {front rest front' rest' more : List UInt8}
      (h : Stray front rest) (h' : Stray front' rest')
      (hfront : front' = front ++ more) (hrest : rest = more ++ rest') :
      more = [] := by
    by_contra hmore
    subst hfront hrest
    rcases h'.part with hopens | hone
    · exact h.longest more hmore (List.prefix_append more rest') hopens
    · have hpos := List.length_pos_iff.2 h.nonempty
      have hpos' := List.length_pos_iff.2 hmore
      rw [List.length_append] at hone
      omega
  rcases List.append_eq_append_iff.1 heq with
    ⟨more, hfront, hrest⟩ | ⟨more, hfront, hrest⟩
  · obtain rfl := shorter h h' hfront hrest
    exact ⟨by simpa using hfront.symm, by simpa using hrest⟩
  · obtain rfl := shorter h' h hfront hrest
    exact ⟨by simpa using hfront, by simpa using hrest.symm⟩

/-- It is enough to look at the next byte: bytes without a form in them that
no form goes on with are stray. -/
theorem Stray.of_next (hnonempty : front ≠ [])
    (hpart : Opens front ∨ front.length = 1)
    (hshort : ∀ c, ¬ utf8EncodeChar c <+: front)
    (hnext : ∀ b ∈ rest.head?, ¬ Opens (front ++ [b])) :
    Stray front rest := by
  have hlongest (more : List UInt8) (hmore : more ≠ [])
      (hrest : more <+: rest) : ¬ Opens (front ++ more) := by
    -- a form that goes on with more goes on with its first byte
    obtain ⟨b, more, rfl⟩ := List.exists_cons_of_ne_nil hmore
    obtain ⟨rest, rfl⟩ := hrest
    intro hopens
    exact hnext b rfl (hopens.of_prefix ⟨more, by simp⟩)
  refine ⟨hnonempty, fun c hc => ?_, hpart, hlongest⟩
  rcases List.prefix_or_prefix_of_prefix hc (List.prefix_append front rest)
    with hwithin | hbeyond
  · exact hshort c hwithin
  · obtain ⟨more, hmore⟩ := hbeyond
    rw [← hmore, List.prefix_append_right_inj] at hc
    refine hlongest more ?_ hc ⟨c, by rw [hmore]⟩
    rintro rfl
    exact hshort c (by rw [← hmore, List.append_nil])

/-- Bytes are read in one way only. -/
theorem Read.unique (h : Read bytes text valid)
    (h' : Read bytes text' valid') : text = text' ∧ valid = valid' := by
  induction h generalizing text' valid' with
  | nil =>
    generalize hbytes : ([] : List UInt8) = bytes at h'
    cases h' with
    | nil => exact ⟨rfl, rfl⟩
    | char c =>
      exact absurd (List.append_eq_nil_iff.1 hbytes.symm).1
        (utf8EncodeChar_ne_nil c)
    | stray hstray =>
      exact absurd (List.append_eq_nil_iff.1 hbytes.symm).1 hstray.nonempty
  | @char c rest text valid _ ih =>
    generalize hbytes : utf8EncodeChar c ++ rest = bytes at h'
    cases h' with
    | nil =>
      exact absurd (List.append_eq_nil_iff.1 hbytes).1
        (utf8EncodeChar_ne_nil c)
    | char d h' =>
      obtain ⟨rfl, rfl⟩ := utf8EncodeChar_append_inj hbytes
      obtain ⟨rfl, rfl⟩ := ih h'
      exact ⟨rfl, rfl⟩
    | stray hstray =>
      exact absurd ⟨rest, hbytes⟩ (hstray.unreadable c)
  | @stray front rest text valid hstray _ ih =>
    generalize hbytes : front ++ rest = bytes at h'
    cases h' with
    | nil =>
      exact absurd (List.append_eq_nil_iff.1 hbytes).1 hstray.nonempty
    | char d => exact absurd ⟨_, hbytes.symm⟩ (hstray.unreadable d)
    | stray hstray' h' =>
      obtain ⟨rfl, rfl⟩ := hstray.inj hstray' hbytes
      obtain ⟨rfl, rfl⟩ := ih h'
      exact ⟨rfl, rfl⟩

/-- The form of a text is read as that text. -/
theorem read_encode (text : List Char) : Read (encode text) text true := by
  induction text with
  | nil => exact .nil
  | cons c text ih => exact .char c ih

/-- What is read without a replacement is the form of the text. -/
theorem Read.encode_eq (h : Read bytes text valid) (hvalid : valid = true) :
    encode text = bytes := by
  induction h with
  | nil => rfl
  | char c _ ih => rw [encode, List.flatMap_cons, ← encode, ih hvalid]
  | stray => cases hvalid

/-- A replacement that was needed stands in the text. -/
theorem Read.mem_replacement (h : Read bytes text valid)
    (hvalid : valid = false) : replacement ∈ text := by
  induction h with
  | nil => cases hvalid
  | char c _ ih => exact List.mem_cons_of_mem c (ih hvalid)
  | stray => exact List.mem_cons_self

end FrontEnd.Text.Utf8
