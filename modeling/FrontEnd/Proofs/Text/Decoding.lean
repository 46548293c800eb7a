/-
The decoder reads bytes as `Read` says (`decode_read`). Between two bytes it
stands in a sequence: the characters whose form starts with the bytes of the
sequence are those with the bits read so far and a next byte within bounds
(`Stands`). One byte leads from there to the end of a character, further
into the sequence or, if no form goes on like this, behind a stray part
(`Decoder.step_comes`).
-/
import FrontEnd.Proofs.Text.Encoding
import Mathlib.Algebra.Group.Nat.Defs

namespace FrontEnd.Text.Utf8

open String (utf8EncodeChar)

-- ============================================================ sequences

/-- The last bytes of the form of a character with the given code, as many
as are asked for. -/
def following (code : Nat) : Nat → List UInt8
  | 0 => []
  | n + 1 => UInt8.ofNat (code / 64 ^ n % 64 + 0x80) :: following code n

/-- The form of a character with the code `v` has the byte `first` in front
and `n` more behind it. -/
def Leads (v first n : Nat) : Prop :=
  (n = 0 ∧ v < 0x80 ∧ first = v)
    ∨ (n = 1 ∧ 0x80 ≤ v ∧ v < 0x800 ∧ first = v / 64 + 0xC0)
    ∨ (n = 2 ∧ 0x800 ≤ v ∧ v < 0x10000 ∧ first = v / 4096 + 0xE0)
    ∨ (n = 3 ∧ 0x10000 ≤ v ∧ v < 0x110000 ∧ first = v / 262144 + 0xF0)

/-- A form is its first byte, which tells how many follow, and these. -/
theorem utf8EncodeChar_eq (c : Char) :
    ∃ first n, Leads c.toNat first.toNat n
      ∧ utf8EncodeChar c = first :: following c.toNat n := by
  have hvalid : c.toNat.isValidChar := c.valid
  have hbyte {n : Nat} (h : n < 256) : (UInt8.ofNat n).toNat = n := by
    rw [UInt8.toNat_ofNat', Nat.mod_eq_of_lt h]
  have hcode : c.val.toNat = c.toNat := rfl
  simp only [utf8EncodeChar, hcode]
  generalize c.toNat = v at hvalid
  by_cases h₁ : v ≤ 0x7F
  · rw [if_pos h₁]
    exact ⟨_, 0, .inl ⟨rfl, by omega, hbyte (by omega)⟩, rfl⟩
  rw [if_neg h₁]
  by_cases h₂ : v ≤ 0x7FF
  · rw [if_pos h₂, Nat.mod_eq_of_lt (by omega : v / 64 < 0x20)]
    exact ⟨_, 1, .inr (.inl ⟨rfl, by omega, by omega, hbyte (by omega)⟩),
      by simp [following]⟩
  rw [if_neg h₂]
  by_cases h₃ : v ≤ 0xFFFF
  · rw [if_pos h₃, Nat.mod_eq_of_lt (by omega : v / 4096 < 0x10)]
    exact ⟨_, 2,
      .inr (.inr (.inl ⟨rfl, by omega, by omega, hbyte (by omega)⟩)),
      by simp [following]⟩
  · have hlast : v < 0x110000 := by rcases hvalid with h | h <;> omega
    rw [if_neg h₃, Nat.mod_eq_of_lt (by omega : v / 262144 < 0x08)]
    exact ⟨_, 3,
      .inr (.inr (.inr ⟨rfl, by omega, hlast, hbyte (by omega)⟩)),
      by simp [following]⟩

/-- The character with this code is one that the sequence can become. -/
def Partial.Holds (p : Partial) (code : Nat) : Prop :=
  code / 64 ^ p.missing = p.code
    ∧ p.low ≤ code / 64 ^ (p.missing - 1) % 64 + 0x80
    ∧ code / 64 ^ (p.missing - 1) % 64 + 0x80 ≤ p.high

/-- The sequence can be gone on with, and ends as a character however it
is. -/
structure Partial.Fair (p : Partial) : Prop where
  missing : p.missing ≠ 0
  low : 0x80 ≤ p.low
  high : p.high ≤ 0xBF
  some_fits : p.low ≤ p.high
  scalar : ∀ v, p.Holds v → v.isValidChar

/-- The bytes are those of the sequence: it can become the characters whose
form starts with them. -/
structure Stands (bytes : List UInt8) (p : Partial) : Prop where
  nonempty : bytes ≠ []
  fair : p.Fair
  form : ∀ c, p.Holds c.toNat →
    utf8EncodeChar c = bytes ++ following c.toNat p.missing
  only : ∀ c, bytes <+: utf8EncodeChar c → p.Holds c.toNat

-- ============================================================== first bytes

/-- What a byte opens: the first bytes of overlong forms, surrogates and
what lies beyond the last character have narrower bounds. -/
theorem opened_cases {b : Nat} {p : Partial} (h : opened b = some p) :
    ∃ code n low high, p = ⟨code, n, low, high⟩
      ∧ ((n = 1 ∧ 0xC2 ≤ b ∧ b < 0xE0 ∧ code = b - 0xC0
          ∧ low = 0x80 ∧ high = 0xBF)
        ∨ (n = 2 ∧ 0xE0 ≤ b ∧ b < 0xF0 ∧ code = b - 0xE0
          ∧ (b = 0xE0 ∧ low = 0xA0 ∨ b ≠ 0xE0 ∧ low = 0x80)
          ∧ (b = 0xED ∧ high = 0x9F ∨ b ≠ 0xED ∧ high = 0xBF))
        ∨ (n = 3 ∧ 0xF0 ≤ b ∧ b < 0xF5 ∧ code = b - 0xF0
          ∧ (b = 0xF0 ∧ low = 0x90 ∨ b ≠ 0xF0 ∧ low = 0x80)
          ∧ (b = 0xF4 ∧ high = 0x8F ∨ b ≠ 0xF4 ∧ high = 0xBF))) := by
  have hite (P : Prop) [Decidable P] (m n : Nat) :
      P ∧ (if P then m else n) = m ∨ ¬ P ∧ (if P then m else n) = n := by
    by_cases hP : P <;> simp [hP]
  unfold opened at h
  split at h
  case isTrue => cases h
  split at h
  case isTrue =>
    obtain rfl := Option.some.inj h
    exact ⟨_, _, _, _, rfl, .inl
      ⟨rfl, by omega, by omega, rfl, rfl, rfl⟩⟩
  split at h
  case isTrue =>
    obtain rfl := Option.some.inj h
    exact ⟨_, _, _, _, rfl, .inr (.inl
      ⟨rfl, by omega, by omega, rfl, hite .., hite ..⟩)⟩
  split at h
  case isTrue =>
    obtain rfl := Option.some.inj h
    exact ⟨_, _, _, _, rfl, .inr (.inr
      ⟨rfl, by omega, by omega, rfl, hite .., hite ..⟩)⟩
  case isFalse => cases h

theorem opened_fair {b : Nat} {p : Partial} (h : opened b = some p) :
    p.Fair := by
  obtain ⟨code, n, low, high, rfl, hcases⟩ := opened_cases h
  obtain ⟨hmissing, hlow, hhigh, hfits⟩ :
      n ≠ 0 ∧ 0x80 ≤ low ∧ high ≤ 0xBF ∧ low ≤ high := by
    omega
  refine ⟨hmissing, hlow, hhigh, hfits, fun v hv => ?_⟩
  unfold Nat.isValidChar
  simp only [Partial.Holds] at hv
  rcases hcases with ⟨rfl, hcases⟩ | ⟨rfl, hcases⟩ | ⟨rfl, hcases⟩ <;> omega

/-- A byte that opens a sequence is the first byte of the characters that
the sequence can become. -/
theorem opened_holds {first n v b : Nat} {p : Partial}
    (h : opened b = some p) (hvalid : v.isValidChar)
    (hleads : Leads v first n) :
    (p.Holds v ↔ first = b) ∧ (first = b → n = p.missing) := by
  obtain ⟨code, m, low, high, rfl, hcases⟩ := opened_cases h
  unfold Leads at hleads
  unfold Nat.isValidChar at hvalid
  simp only [Partial.Holds]
  rcases hcases with ⟨rfl, hcases⟩ | ⟨rfl, hcases⟩ | ⟨rfl, hcases⟩ <;> omega

theorem opened_stands {b : UInt8} {p : Partial}
    (h : opened b.toNat = some p) : Stands [b] p := by
  refine ⟨by simp, opened_fair h, fun c hc => ?_, fun c hc => ?_⟩
  · obtain ⟨first, n, hleads, hform⟩ := utf8EncodeChar_eq c
    obtain ⟨hholds, hmissing⟩ := opened_holds h c.valid hleads
    have hfirst := hholds.1 hc
    rw [hform, hmissing hfirst, UInt8.toNat_inj.1 hfirst]
    rfl
  · obtain ⟨first, n, hleads, hform⟩ := utf8EncodeChar_eq c
    rw [hform, List.cons_prefix_cons] at hc
    exact (opened_holds h c.valid hleads).1.2 (by rw [hc.1])

/-- No form starts with a byte that opens nothing, beyond ASCII. -/
theorem not_opens_of_opened {b : UInt8} (hb : ¬ b.toNat < 0x80)
    (h : opened b.toNat = none) : ¬ Opens [b] := by
  rintro ⟨c, hc⟩
  obtain ⟨first, n, hleads, hform⟩ := utf8EncodeChar_eq c
  rw [hform, List.cons_prefix_cons] at hc
  rw [← hc.1] at hleads
  unfold Leads at hleads
  have hopened : 0xC2 ≤ b.toNat ∧ b.toNat < 0xF5 := by omega
  simp only [opened] at h
  split at h
  case isTrue => omega
  split at h
  case isTrue => cases h
  split at h
  case isTrue => cases h
  split at h
  case isTrue => cases h
  case isFalse => omega

theorem toNat_ofNat {v : Nat} (h : v.isValidChar) :
    (Char.ofNat v).toNat = v := by
  rw [Char.ofNat, dif_pos h]
  rfl

/-- An ASCII byte is the form of its character. -/
theorem utf8EncodeChar_ofNat {b : UInt8} (hb : b.toNat < 0x80) :
    utf8EncodeChar (Char.ofNat b.toNat) = [b] := by
  obtain ⟨first, n, hleads, hform⟩ :=
    utf8EncodeChar_eq (Char.ofNat b.toNat)
  rw [toNat_ofNat (.inl (by omega))] at hleads hform
  unfold Leads at hleads
  obtain ⟨rfl, hfirst⟩ : n = 0 ∧ first.toNat = b.toNat := by omega
  rw [hform, UInt8.toNat_inj.1 hfirst]
  rfl

-- =============================================================== next bytes

/-- A byte within bounds is the next of all characters with that code, and
of these only. -/
theorem Partial.holds_next {p : Partial} {b : UInt8} {v n : Nat}
    (hn : p.missing = n + 1) (hfair : p.Fair)
    (hlow : p.low ≤ b.toNat) (hhigh : b.toNat ≤ p.high) :
    v / 64 ^ n = p.code * 64 + b.toNat % 64
      ↔ p.Holds v ∧ UInt8.ofNat (v / 64 ^ n % 64 + 0x80) = b := by
  have hmod : v / 64 ^ n % 64 < 64 := Nat.mod_lt _ (by omega)
  have hlow' := hfair.low
  have hhigh' := hfair.high
  rw [Partial.Holds, hn, Nat.add_sub_cancel, Nat.pow_succ,
    ← Nat.div_div_eq_div_mul, ← UInt8.toNat_inj, UInt8.toNat_ofNat',
    Nat.mod_eq_of_lt (by omega : v / 64 ^ n % 64 + 0x80 < 2 ^ 8)]
  generalize v / 64 ^ n = w
  omega

/-- Any next byte will do further on in a sequence. -/
theorem Partial.holds_within {v code n : Nat} :
    (Partial.mk code (n + 1) 0x80 0xBF).Holds v ↔ v / 64 ^ (n + 1) = code := by
  have hmod : v / 64 ^ n % 64 < 64 := Nat.mod_lt _ (by omega)
  simp only [Partial.Holds, Nat.add_sub_cancel]
  omega

namespace Stands

variable {bytes rest : List UInt8} {p : Partial} {b : UInt8}

/-- The last byte of a sequence makes it the form of a character. -/
theorem last (h : Stands bytes p) (hmissing : p.missing = 1)
    (hlow : p.low ≤ b.toNat) (hhigh : b.toNat ≤ p.high) :
    utf8EncodeChar (Char.ofNat (p.code * 64 + b.toNat % 64))
      = bytes ++ [b] := by
  have hnext := Partial.holds_next (v := p.code * 64 + b.toNat % 64)
    hmissing h.fair hlow hhigh
  generalize p.code * 64 + b.toNat % 64 = v at hnext
  obtain ⟨hholds, hbyte⟩ := hnext.1 (by simp)
  have hcode := toNat_ofNat (h.fair.scalar v hholds)
  rw [h.form (Char.ofNat v) (by rwa [hcode]), hcode, hmissing, following,
    hbyte]
  rfl

/-- Any other byte leads on in the sequence. -/
theorem more {n : Nat} (h : Stands bytes p) (hmissing : p.missing = n + 2)
    (hlow : p.low ≤ b.toNat) (hhigh : b.toNat ≤ p.high) :
    Stands (bytes ++ [b])
      ⟨p.code * 64 + b.toNat % 64, n + 1, 0x80, 0xBF⟩ := by
  have hnext {v : Nat} :=
    Partial.holds_next (v := v) hmissing h.fair hlow hhigh
  refine ⟨by simp, ⟨by simp, Nat.le_refl _, Nat.le_refl _, by simp, ?_⟩,
    ?_, ?_⟩
  · intro v hv
    exact h.fair.scalar v (hnext.1 (Partial.holds_within.1 hv)).1
  · intro c hc
    obtain ⟨hholds, hbyte⟩ := hnext.1 (Partial.holds_within.1 hc)
    rw [h.form c hholds, hmissing, following, hbyte, List.append_cons]
  · intro c hc
    have hholds := h.only c ((List.prefix_append bytes [b]).trans hc)
    rw [h.form c hholds, hmissing, following, List.prefix_append_right_inj,
      List.cons_prefix_cons] at hc
    exact Partial.holds_within.2 (hnext.2 ⟨hholds, hc.1.symm⟩)

/-- No form goes on with a byte beyond the bounds. -/
theorem not_opens (h : Stands bytes p)
    (hbyte : ¬ (p.low ≤ b.toNat ∧ b.toNat ≤ p.high)) :
    ¬ Opens (bytes ++ [b]) := by
  rintro ⟨c, hc⟩
  have hholds := h.only c ((List.prefix_append bytes [b]).trans hc)
  obtain ⟨n, hn⟩ := Nat.exists_eq_succ_of_ne_zero h.fair.missing
  have hmod : c.toNat / 64 ^ n % 64 < 64 := Nat.mod_lt _ (by omega)
  rw [h.form c hholds, hn, following, List.prefix_append_right_inj,
    List.cons_prefix_cons, ← UInt8.toNat_inj, UInt8.toNat_ofNat',
    Nat.mod_eq_of_lt (by omega)] at hc
  rw [Partial.Holds, hn, Nat.succ_sub_one] at hholds
  exact hbyte (hc.1 ▸ hholds.2)

/-- The sequence can become some character. -/
theorem exists_holds (h : Stands bytes p) :
    ∃ c : Char, p.Holds c.toNat := by
  obtain ⟨n, hn⟩ := Nat.exists_eq_succ_of_ne_zero h.fair.missing
  obtain ⟨-, hlow, hhigh, hfits, hscalar⟩ := h.fair
  -- the code with the least byte that fits, and none behind it
  have hholds : p.Holds ((p.code * 64 + (p.low - 0x80)) * 64 ^ n) := by
    rw [Partial.Holds, hn, Nat.succ_sub_one, Nat.pow_succ,
      ← Nat.div_div_eq_div_mul, Nat.mul_div_cancel _ (Nat.pow_pos (by omega))]
    omega
  exact ⟨Char.ofNat _, by rwa [toNat_ofNat (hscalar _ hholds)]⟩

/-- A sequence is stray where no byte that fits comes next. -/
theorem stray (h : Stands bytes p)
    (hnext : ∀ b ∈ rest.head?,
      ¬ (p.low ≤ b.toNat ∧ b.toNat ≤ p.high)) : Stray bytes rest := by
  obtain ⟨c, hc⟩ := h.exists_holds
  have hform := h.form c hc
  refine .of_next h.nonempty (.inl ⟨c, by rw [hform]; simp⟩) ?_
    fun b hb => h.not_opens (hnext b hb)
  intro d hd
  obtain rfl := eq_of_utf8EncodeChar_prefix
    (hd.trans (by rw [hform]; simp : bytes <+: utf8EncodeChar c))
  obtain ⟨n, hn⟩ := Nat.exists_eq_succ_of_ne_zero h.fair.missing
  have hlength := hd.length_le
  rw [hform, hn, List.length_append, following, List.length_cons] at hlength
  omega

end Stands

/-- A byte alone is stray if no form starts with it. -/
theorem stray_singleton {b : UInt8} (h : ¬ Opens [b]) (rest : List UInt8) :
    Stray [b] rest := by
  refine .of_next (by simp) (.inr rfl) (fun c hc => ?_) fun b' _ hopens =>
    h (hopens.of_prefix (List.prefix_append [b] [b']))
  have hlength : [b].length ≤ (utf8EncodeChar c).length :=
    List.length_pos_iff.2 (utf8EncodeChar_ne_nil c)
  exact h ⟨c, (hc.eq_of_length_le hlength) ▸ List.prefix_rfl⟩

-- ================================================================ decoder

namespace Decoder

variable {d d' : Decoder} {front rest : List UInt8} {b : UInt8}

/-- The bytes are those of the sequence that the decoder stands in. -/
def Holds (d : Decoder) (bytes : List UInt8) : Prop :=
  match d.pending with
  | none => bytes = []
  | some p => Stands bytes p

/-- What the decoder makes of the end of the bytes. -/
def result (d : Decoder) : List Char × Bool :=
  match d.pending with
  | none => (d.done.reverse, d.valid)
  | some _ => ((replacement :: d.done).reverse, false)

/-- The text is what the decoder has made already, with the bytes read
behind it. -/
def Comes (d : Decoder) (bytes : List UInt8) (made : List Char × Bool) :
    Prop :=
  ∃ text valid, Read bytes text valid
    ∧ made = (d.done.reverse ++ text, d.valid && valid)

variable {made : List Char × Bool}

theorem Comes.char {c : Char} (h : d'.Comes rest made)
    (hdone : d'.done = c :: d.done) (hvalid : d'.valid = d.valid) :
    d.Comes (utf8EncodeChar c ++ rest) made := by
  obtain ⟨text, valid, hread, rfl⟩ := h
  exact ⟨c :: text, valid, hread.char c, by simp [hdone, hvalid]⟩

theorem Comes.stray (h : d'.Comes rest made) (hstray : Stray front rest)
    (hdone : d'.done = replacement :: d.done) (hvalid : d'.valid = false) :
    d.Comes (front ++ rest) made := by
  obtain ⟨text, valid, hread, rfl⟩ := h
  exact ⟨replacement :: text, false, hread.stray hstray,
    by simp [hdone, hvalid]⟩

theorem start_comes (d : Decoder) (b : UInt8) :
    ∃ front, (d.start b.toNat).Holds front ∧ ∀ rest made,
      (d.start b.toNat).Comes (front ++ rest) made →
        d.Comes (b :: rest) made := by
  unfold start
  split
  case isTrue hascii =>
    refine ⟨[], rfl, fun rest made h => ?_⟩
    have hchar : d.Comes (_ ++ rest) made := h.char rfl rfl
    rwa [utf8EncodeChar_ofNat hascii] at hchar
  case isFalse hascii =>
    split
    case h_1 p hp => exact ⟨[b], opened_stands hp, fun _ _ h => h⟩
    case h_2 hnone =>
      have hopens := not_opens_of_opened hascii hnone
      exact ⟨[], rfl, fun rest made h =>
        h.stray (stray_singleton hopens rest) rfl rfl⟩

/-- One byte leads to where the bytes are read on from. -/
theorem step_comes (h : d.Holds front) (b : UInt8) :
    ∃ front', (d.step b).Holds front' ∧ ∀ rest made,
      (d.step b).Comes (front' ++ rest) made →
        d.Comes (front ++ b :: rest) made := by
  unfold Holds at h
  simp only [step]
  cases hpending : d.pending with
  | none =>
    rw [hpending] at h
    subst h
    exact start_comes d b
  | some p =>
    rw [hpending] at h
    change Stands front p at h
    have hmissing := h.fair.missing
    dsimp only
    split
    case isTrue hfits =>
      obtain ⟨hlow, hhigh⟩ : p.low ≤ b.toNat ∧ b.toNat ≤ p.high := by
        simpa using hfits
      split
      case isTrue hone =>
        have hlast := h.last (by omega) hlow hhigh
        refine ⟨[], rfl, fun rest made hcomes => ?_⟩
        have hchar : d.Comes (_ ++ rest) made := hcomes.char rfl rfl
        rwa [hlast, ← List.append_cons] at hchar
      case isFalse hmore =>
        obtain ⟨n, hn⟩ : ∃ n, p.missing = n + 2 :=
          ⟨p.missing - 2, by omega⟩
        refine ⟨front ++ [b], ?_, fun rest made hcomes => ?_⟩
        · rw [hn]
          exact h.more hn hlow hhigh
        · rwa [← List.append_cons] at hcomes
    case isFalse hfits =>
      -- the byte is read afresh behind the stray sequence
      obtain ⟨front', hholds, hcomes⟩ :=
        start_comes ⟨replacement :: d.done, false, none⟩ b
      refine ⟨front', hholds, fun rest made h' => ?_⟩
      exact (hcomes rest made h').stray
        (h.stray (by simpa using hfits)) rfl rfl

theorem foldl_comes (h : d.Holds front) (bytes : List UInt8) :
    d.Comes (front ++ bytes) (bytes.foldl step d).result := by
  induction bytes generalizing d front with
  | nil =>
    rw [List.append_nil, List.foldl_nil, result]
    unfold Holds at h
    cases hpending : d.pending with
    | none =>
      rw [hpending] at h
      subst h
      exact ⟨[], true, .nil, by simp⟩
    | some p =>
      rw [hpending] at h
      have hstray : Stray front [] := Stands.stray h (by simp)
      exact ⟨[replacement], false, by simpa using Read.stray hstray .nil,
        by simp⟩
  | cons b bytes ih =>
    obtain ⟨front', hholds, hcomes⟩ := step_comes h b
    exact hcomes bytes _ (ih hholds)

end Decoder

/-- Decoded bytes are read, with the flag that tells of replacements. -/
theorem decode_read (bytes : List UInt8) :
    Read bytes (decode bytes).1 (decode bytes).2 := by
  have hstart : Decoder.Holds ⟨[], true, none⟩ [] := rfl
  obtain ⟨text, valid, hread, hmade⟩ := Decoder.foldl_comes hstart bytes
  have hdecode : decode bytes = (text, valid) := by
    rw [← Bool.true_and valid, ← List.nil_append text]
    exact hmade
  rw [hdecode]
  exact hread

/-- The form of a text is decoded to the text. -/
theorem decode_encode (text : List Char) :
    decode (encode text) = (text, true) := by
  obtain ⟨htext, hvalid⟩ := (decode_read _).unique (read_encode text)
  exact Prod.ext htext hvalid

end FrontEnd.Text.Utf8
