import CodeAtlas.Text.Utf8
import Mathlib.Data.List.Basic

/-! # What the strict reader of UTF-8 accepts

The strict reader accepts exactly the byte strings that are written for a text, and it reads that
text. A character is written in one to four bytes; the first one tells how many there are and in
which range the second one lies.
-/
namespace CodeAtlas.Text.Utf8
open String (utf8EncodeChar)

/-! ## Writing -/

theorem toList_loop_eq (bytes : ByteArray) (i : Nat) (found : List UInt8) :
    ByteArray.toList.loop bytes i found = found.reverse ++ bytes.data.toList.drop i := by
  fun_induction ByteArray.toList.loop bytes i found with
  | case1 i found h ih =>
    have hi : i < bytes.data.toList.length := by simpa using h
    rw [ih, List.drop_eq_getElem_cons hi]
    simp [ByteArray.get!, h]
  | case2 i found h =>
    rw [List.drop_eq_nil_of_le (by simpa using Nat.le_of_not_lt h), List.append_nil]

theorem encode_eq (text : List Char) : encode text = text.flatMap utf8EncodeChar := by
  rw [encode, String.toUTF8, String.toByteArray_ofList, List.utf8Encode, ByteArray.toList,
    toList_loop_eq, List.toList_data_toByteArray]
  rfl

/-! ## The first byte -/

theorem lead_one {b : Nat} (h : b < 0x80) : lead b = ([.char (Char.ofNat b)], .start) := if_pos h

theorem lead_two {b : Nat} (h : 0xC2 ≤ b ∧ b ≤ 0xDF) :
    lead b = ([], .within 0 (b - 0xC0) 0x80 0xBF) := by
  rw [lead, if_neg (by omega), if_pos h]

theorem lead_three {b : Nat} (h : 0xE0 ≤ b ∧ b ≤ 0xEF) : lead b =
    ([], .within 1 (b - 0xE0) (if b = 0xE0 then 0xA0 else 0x80)
      (if b = 0xED then 0x9F else 0xBF)) := by
  rw [lead, if_neg (by omega), if_neg (by omega)]
  by_cases hlow : b = 0xE0
  · simp [hlow]
  · by_cases hhigh : b = 0xED
    · simp [hhigh]
    · simp only [if_neg hlow, if_neg hhigh]
      rw [if_pos (by omega)]

theorem lead_four {b : Nat} (h : 0xF0 ≤ b ∧ b ≤ 0xF4) : lead b =
    ([], .within 2 (b - 0xF0) (if b = 0xF0 then 0x90 else 0x80)
      (if b = 0xF4 then 0x8F else 0xBF)) := by
  rw [lead, if_neg (by omega), if_neg (by omega), if_neg (by omega), if_neg (by omega),
    if_neg (by omega)]
  by_cases hlow : b = 0xF0
  · simp [hlow]
  · by_cases hhigh : b = 0xF4
    · simp [hhigh]
    · simp only [if_neg hlow, if_neg hhigh]
      rw [if_pos (by omega)]

theorem lead_other {b : Nat} (h : 0x80 ≤ b) (hlead : b < 0xC2 ∨ 0xF4 < b) :
    lead b = ([.illFormed], .start) := by
  unfold lead
  rw [if_neg (by omega), if_neg (by omega), if_neg (by omega), if_neg (by omega), if_neg (by omega),
    if_neg (by omega), if_neg (by omega), if_neg (by omega)]

/-! ## Reading what was written -/

section Read
variable {owed value low high : Nat} {b b₁ b₂ b₃ b₄ : UInt8} {rest : List UInt8}

theorem eventsFrom_within_zero (h : low ≤ b.toNat ∧ b.toNat ≤ high) :
    eventsFrom (.within 0 value low high) (b :: rest) =
    .char (Char.ofNat (value * 64 + (b.toNat - 0x80))) :: eventsFrom .start rest := by
  simp [eventsFrom, step, h]

theorem eventsFrom_within_succ (h : low ≤ b.toNat ∧ b.toNat ≤ high) :
    eventsFrom (.within (owed + 1) value low high) (b :: rest) =
      eventsFrom (.within owed (value * 64 + (b.toNat - 0x80)) 0x80 0xBF) rest := by
  simp [eventsFrom, step, h]

theorem eventsFrom_start_cons (b : UInt8) (rest : List UInt8) :
    eventsFrom .start (b :: rest) = (lead b.toNat).1 ++ eventsFrom (lead b.toNat).2 rest := rfl

theorem eventsFrom_one (h : b.toNat < 0x80) :
    eventsFrom .start (b :: rest) = .char (Char.ofNat b.toNat) :: eventsFrom .start rest := by
  rw [eventsFrom_start_cons, lead_one h, List.singleton_append]

theorem eventsFrom_two (h₁ : 0xC2 ≤ b₁.toNat ∧ b₁.toNat ≤ 0xDF)
    (h₂ : 0x80 ≤ b₂.toNat ∧ b₂.toNat ≤ 0xBF) : eventsFrom .start (b₁ :: b₂ :: rest) =
      .char (Char.ofNat ((b₁.toNat - 0xC0) * 64 + (b₂.toNat - 0x80))) ::
        eventsFrom .start rest := by
  rw [eventsFrom_start_cons, lead_two h₁, List.nil_append, eventsFrom_within_zero h₂]

theorem eventsFrom_three (h₁ : 0xE0 ≤ b₁.toNat ∧ b₁.toNat ≤ 0xEF)
    (h₂ : 0x80 ≤ b₂.toNat ∧ b₂.toNat ≤ 0xBF) (hlow : b₁.toNat = 0xE0 → 0xA0 ≤ b₂.toNat)
    (hhigh : b₁.toNat = 0xED → b₂.toNat ≤ 0x9F) (h₃ : 0x80 ≤ b₃.toNat ∧ b₃.toNat ≤ 0xBF) :
    eventsFrom .start (b₁ :: b₂ :: b₃ :: rest) =
      .char (Char.ofNat (((b₁.toNat - 0xE0) * 64 + (b₂.toNat - 0x80)) * 64 + (b₃.toNat - 0x80))) ::
        eventsFrom .start rest := by
  rw [eventsFrom_start_cons, lead_three h₁, List.nil_append, eventsFrom_within_succ,
    eventsFrom_within_zero h₃]
  split_ifs <;> omega

theorem eventsFrom_four (h₁ : 0xF0 ≤ b₁.toNat ∧ b₁.toNat ≤ 0xF4)
    (h₂ : 0x80 ≤ b₂.toNat ∧ b₂.toNat ≤ 0xBF) (hlow : b₁.toNat = 0xF0 → 0x90 ≤ b₂.toNat)
    (hhigh : b₁.toNat = 0xF4 → b₂.toNat ≤ 0x8F) (h₃ : 0x80 ≤ b₃.toNat ∧ b₃.toNat ≤ 0xBF)
    (h₄ : 0x80 ≤ b₄.toNat ∧ b₄.toNat ≤ 0xBF) :
    eventsFrom .start (b₁ :: b₂ :: b₃ :: b₄ :: rest) =
      .char (Char.ofNat ((((b₁.toNat - 0xF0) * 64 + (b₂.toNat - 0x80)) * 64 + (b₃.toNat - 0x80)) *
        64 + (b₄.toNat - 0x80))) :: eventsFrom .start rest := by
  rw [eventsFrom_start_cons, lead_four h₁, List.nil_append, eventsFrom_within_succ,
    eventsFrom_within_succ h₃, eventsFrom_within_zero h₄]
  split_ifs <;> omega

end Read

/-- The number of a character does not lie among the surrogates. -/
theorem toNat_lt (c : Char) : c.toNat < 0xD800 ∨ 0xDFFF < c.toNat ∧ c.toNat < 0x110000 := c.valid

theorem toNat_byte {n : Nat} (h : n < 256) : (UInt8.ofNat n).toNat = n := by
  rw [UInt8.toNat_ofNat']
  exact Nat.mod_eq_of_lt h

/-- A character is read back from its bytes, and the reader stands between characters again. -/
theorem eventsFrom_encodeChar (c : Char) (rest : List UInt8) :
    eventsFrom .start (utf8EncodeChar c ++ rest) = .char c :: eventsFrom .start rest := by
  have hvalid := toNat_lt c
  have hsame (n : Nat) (h : n = c.toNat) :
      Event.char (Char.ofNat n) :: eventsFrom .start rest = .char c :: eventsFrom .start rest := by
    rw [h, Char.ofNat_toNat]
  rw [String.utf8EncodeChar.eq_1, Char.toNat_val]
  split_ifs with hone htwo hthree
  · have h₁ : (UInt8.ofNat c.toNat).toNat = c.toNat := toNat_byte (by omega)
    refine (eventsFrom_one ?_).trans (hsame _ h₁)
    omega
  · have h₁ : (UInt8.ofNat (c.toNat / 64 % 32 + 192)).toNat = _ := toNat_byte (by omega)
    have h₂ : (UInt8.ofNat (c.toNat % 64 + 128)).toNat = _ := toNat_byte (by omega)
    refine (eventsFrom_two ?_ ?_).trans (hsame _ ?_) <;> omega
  · have h₁ : (UInt8.ofNat (c.toNat / 4096 % 16 + 224)).toNat = _ := toNat_byte (by omega)
    have h₂ : (UInt8.ofNat (c.toNat / 64 % 64 + 128)).toNat = _ := toNat_byte (by omega)
    have h₃ : (UInt8.ofNat (c.toNat % 64 + 128)).toNat = _ := toNat_byte (by omega)
    refine (eventsFrom_three ?_ ?_ ?_ ?_ ?_).trans (hsame _ ?_) <;> omega
  · have h₁ : (UInt8.ofNat (c.toNat / 262144 % 8 + 240)).toNat = _ := toNat_byte (by omega)
    have h₂ : (UInt8.ofNat (c.toNat / 4096 % 64 + 128)).toNat = _ := toNat_byte (by omega)
    have h₃ : (UInt8.ofNat (c.toNat / 64 % 64 + 128)).toNat = _ := toNat_byte (by omega)
    have h₄ : (UInt8.ofNat (c.toNat % 64 + 128)).toNat = _ := toNat_byte (by omega)
    refine (eventsFrom_four ?_ ?_ ?_ ?_ ?_ ?_).trans (hsame _ ?_) <;> omega

/-! ## Writing what was read -/

section Written
variable {b b₁ b₂ b₃ b₄ : UInt8}

theorem toNat_ofNat_of_valid {n : Nat} (h : n < 0xD800 ∨ 0xDFFF < n ∧ n < 0x110000) :
    (Char.ofNat n).toNat = n := by
  rw [Char.ofNat, dif_pos h]
  rfl

theorem byte_eq {n : Nat} (h : n = b.toNat) : UInt8.ofNat n = b := by
  rw [h, UInt8.ofNat_toNat]

theorem utf8EncodeChar_one (h : b.toNat < 0x80) : utf8EncodeChar (Char.ofNat b.toNat) = [b] := by
  rw [String.utf8EncodeChar.eq_1, Char.toNat_val, toNat_ofNat_of_valid (by omega),
    if_pos (by omega), byte_eq rfl]

theorem utf8EncodeChar_two (h₁ : 0xC2 ≤ b₁.toNat ∧ b₁.toNat ≤ 0xDF)
    (h₂ : 0x80 ≤ b₂.toNat ∧ b₂.toNat ≤ 0xBF) :
    utf8EncodeChar (Char.ofNat ((b₁.toNat - 0xC0) * 64 + (b₂.toNat - 0x80))) = [b₁, b₂] := by
  rw [String.utf8EncodeChar.eq_1, Char.toNat_val, toNat_ofNat_of_valid (by omega),
    if_neg (by omega), if_pos (by omega), byte_eq (b := b₁) (by omega),
    byte_eq (b := b₂) (by omega)]

theorem utf8EncodeChar_three (h₁ : 0xE0 ≤ b₁.toNat ∧ b₁.toNat ≤ 0xEF)
    (h₂ : 0x80 ≤ b₂.toNat ∧ b₂.toNat ≤ 0xBF) (hlow : b₁.toNat = 0xE0 → 0xA0 ≤ b₂.toNat)
    (hhigh : b₁.toNat = 0xED → b₂.toNat ≤ 0x9F) (h₃ : 0x80 ≤ b₃.toNat ∧ b₃.toNat ≤ 0xBF) :
    utf8EncodeChar (Char.ofNat (((b₁.toNat - 0xE0) * 64 + (b₂.toNat - 0x80)) * 64 +
      (b₃.toNat - 0x80))) = [b₁, b₂, b₃] := by
  rw [String.utf8EncodeChar.eq_1, Char.toNat_val, toNat_ofNat_of_valid (by omega),
    if_neg (by omega), if_neg (by omega), if_pos (by omega), byte_eq (b := b₁) (by omega),
    byte_eq (b := b₂) (by omega), byte_eq (b := b₃) (by omega)]

theorem utf8EncodeChar_four (h₁ : 0xF0 ≤ b₁.toNat ∧ b₁.toNat ≤ 0xF4)
    (h₂ : 0x80 ≤ b₂.toNat ∧ b₂.toNat ≤ 0xBF) (hlow : b₁.toNat = 0xF0 → 0x90 ≤ b₂.toNat)
    (hhigh : b₁.toNat = 0xF4 → b₂.toNat ≤ 0x8F) (h₃ : 0x80 ≤ b₃.toNat ∧ b₃.toNat ≤ 0xBF)
    (h₄ : 0x80 ≤ b₄.toNat ∧ b₄.toNat ≤ 0xBF) :
    utf8EncodeChar (Char.ofNat ((((b₁.toNat - 0xF0) * 64 + (b₂.toNat - 0x80)) * 64 +
    (b₃.toNat - 0x80)) * 64 +
      (b₄.toNat - 0x80))) = [b₁, b₂, b₃, b₄] := by
  rw [String.utf8EncodeChar.eq_1, Char.toNat_val, toNat_ofNat_of_valid (by omega),
    if_neg (by omega), if_neg (by omega), if_neg (by omega), byte_eq (b := b₁) (by omega),
    byte_eq (b := b₂) (by omega), byte_eq (b := b₃) (by omega), byte_eq (b := b₄) (by omega)]

end Written

/-- Within a character the next byte is there and in its range. -/
theorem exists_of_within {owed value low high : Nat} {bytes : List UInt8}
    (h : .illFormed ∉ eventsFrom (.within owed value low high) bytes) :
    ∃ b rest, bytes = b :: rest ∧ (low ≤ b.toNat ∧ b.toNat ≤ high) ∧
      ∀ left, owed = left + 1 → ∃ value',
        .illFormed ∉ eventsFrom (.within left value' 0x80 0xBF) rest := by
  cases bytes with
  | nil => simp [eventsFrom] at h
  | cons b rest =>
    by_cases hb : low ≤ b.toNat ∧ b.toNat ≤ high
    · refine ⟨b, rest, rfl, hb, ?_⟩
      rintro left rfl
      rw [eventsFrom_within_succ hb] at h
      exact ⟨_, h⟩
    · simp [eventsFrom, step, hb] at h

/-- A byte string without an ill-formed run begins with the bytes of a character. -/
theorem exists_encodeChar {b : UInt8} {rest : List UInt8}
    (h : .illFormed ∉ eventsFrom .start (b :: rest)) :
    ∃ c rest', b :: rest = utf8EncodeChar c ++ rest' := by
  rw [eventsFrom_start_cons] at h
  by_cases hone : b.toNat < 0x80
  · exact ⟨_, rest, congrArg (· ++ rest) (utf8EncodeChar_one hone).symm⟩
  by_cases htwo : 0xC2 ≤ b.toNat ∧ b.toNat ≤ 0xDF
  · rw [lead_two htwo] at h
    obtain ⟨b₂, rest, rfl, h₂, -⟩ := exists_of_within h
    exact ⟨_, rest, congrArg (· ++ rest) (utf8EncodeChar_two htwo h₂).symm⟩
  by_cases hthree : 0xE0 ≤ b.toNat ∧ b.toNat ≤ 0xEF
  · rw [lead_three hthree] at h
    obtain ⟨b₂, rest, rfl, h₂, hmore⟩ := exists_of_within h
    obtain ⟨value, h⟩ := hmore 0 rfl
    obtain ⟨b₃, rest, rfl, h₃, -⟩ := exists_of_within h
    refine ⟨_, rest, congrArg (· ++ rest) (utf8EncodeChar_three hthree ?_ ?_ ?_ h₃).symm⟩
    all_goals split_ifs at h₂ <;> omega
  by_cases hfour : 0xF0 ≤ b.toNat ∧ b.toNat ≤ 0xF4
  · rw [lead_four hfour] at h
    obtain ⟨b₂, rest, rfl, h₂, hmore⟩ := exists_of_within h
    obtain ⟨value, h⟩ := hmore 1 rfl
    obtain ⟨b₃, rest, rfl, h₃, hmore⟩ := exists_of_within h
    obtain ⟨value, h⟩ := hmore 0 rfl
    obtain ⟨b₄, rest, rfl, h₄, -⟩ := exists_of_within h
    refine ⟨_, rest, congrArg (· ++ rest) (utf8EncodeChar_four hfour ?_ ?_ ?_ h₃ h₄).symm⟩
    all_goals split_ifs at h₂ <;> omega
  · rw [lead_other (by omega) (by omega)] at h
    exact absurd List.mem_cons_self h

/-! ## The strict reader -/

theorem eventsFrom_encode (text : List Char) :
    eventsFrom .start (text.flatMap utf8EncodeChar) = text.map .char := by
  induction text with
  | nil => rfl
  | cons c text ih => rw [List.flatMap_cons, eventsFrom_encodeChar, ih, List.map_cons]

theorem exists_text_of_eventsFrom {bytes : List UInt8} (h : .illFormed ∉ eventsFrom .start bytes) :
    ∃ text : List Char, bytes = text.flatMap utf8EncodeChar := by
  -- the bytes of a character are at least one, so what is left behind them is shorter
  induction hlength : bytes.length using Nat.strongRecOn generalizing bytes with
  | ind length ih =>
    cases bytes with
    | nil => exact ⟨[], rfl⟩
    | cons b rest =>
      obtain ⟨c, rest', hbytes⟩ := exists_encodeChar h
      rw [hbytes, eventsFrom_encodeChar] at h
      have hshorter : rest'.length < length := by
        have hpos := String.length_utf8EncodeChar c ▸ c.utf8Size_pos
        rw [← hlength, hbytes, List.length_append]
        omega
      obtain ⟨text, rfl⟩ := ih _ hshorter (fun hmem => h (List.mem_cons_of_mem _ hmem)) rfl
      exact ⟨c :: text, by rw [hbytes, List.flatMap_cons]⟩

theorem decode?_eq_some_iff_events {bytes : List UInt8} {text : List Char} :
    decode? bytes = some text ↔ eventsFrom .start bytes = text.map .char := by
  unfold decode?
  generalize eventsFrom .start bytes = events
  induction events generalizing text with
  | nil => simp [eq_comm]
  | cons event events ih =>
    cases event with
    | illFormed => cases text <;> simp
    | char c =>
      cases text with
      | nil => simp [Option.bind_eq_some_iff]
      | cons d text => simp [Option.bind_eq_some_iff, ih, and_comm]

/-- The strict reader accepts exactly what is written for a text. -/
theorem decode?_eq_some_iff {bytes : List UInt8} {text : List Char} :
    decode? bytes = some text ↔ bytes = encode text := by
  rw [encode_eq, decode?_eq_some_iff_events]
  constructor
  · intro h
    have hwell : .illFormed ∉ eventsFrom .start bytes := by
      rw [h]
      simp
    obtain ⟨written, rfl⟩ := exists_text_of_eventsFrom hwell
    have hinj : Function.Injective Event.char := fun c d h => Event.char.inj h
    rw [eventsFrom_encode] at h
    rw [List.map_injective_iff.mpr hinj h]
  · rintro rfl
    exact eventsFrom_encode text

end CodeAtlas.Text.Utf8
