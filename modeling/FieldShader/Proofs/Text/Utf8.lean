import FieldShader.Text.Utf8

/-!
# Texts and their bytes

The bytes of a text are read as its characters, none of them stray (`Symbol.decode_toUTF8`). How
many bytes a character has is told by the first of them, so that the shorter sequences are ruled out
before the right one is met.

No other bytes are read as a text: `Symbol.text?_eq_some_iff` says that a sequence of bytes is the
text it is read as, written in UTF-8. Overlong sequences and surrogates are not among them, since a
sequence that is read as a character is the one that the character is written as
(`Symbol.utf8EncodeChar_of_front?`).
-/

namespace FieldShader

namespace Symbol

variable {a b c d : UInt8} {char : Char} {rest : List UInt8}

/-! ## Sequences -/

/-- The payload of a byte that continues a sequence. -/
theorem continuation?_ofNat (n : Nat) :
    continuation? (UInt8.ofNat (n % 64 + 128)) = some (n % 64) := by
  have hbyte := UInt8.toNat_ofNat_of_lt' (by omega : n % 64 + 128 < 256)
  rw [continuation?, hbyte, if_pos (by omega)]
  congr 1
  omega

/-- The first byte of a longer sequence starts no pair. -/
theorem pair?_eq_none (b : UInt8) (h : 0xDF < a.toNat) : pair? a b = none := by
  have hrange : ¬(0xC2 ≤ a.toNat ∧ a.toNat ≤ 0xDF) := by omega
  cases hb : continuation? b with
  | none => simp [pair?, hb]
  | some low => simp [pair?, hb, hrange]

/-- The first byte of four starts no triple. -/
theorem triple?_eq_none (b c : UInt8) (h : 0xEF < a.toNat) : triple? a b c = none := by
  have hrange : ¬(0xE0 ≤ a.toNat ∧ a.toNat ≤ 0xEF) := by omega
  cases hb : continuation? b with
  | none => simp [triple?, hb]
  | some middle =>
    cases hc : continuation? c with
    | none => simp [triple?, hb, hc]
    | some low =>
      simp only [triple?, hb, hc, Option.bind_eq_bind, Option.bind_some]
      rw [if_neg fun hall => hrange ⟨hall.1, hall.2.1⟩]

/-- A pair is at the front whatever follows it. -/
theorem front?_of_pair (h : pair? a b = some char) : front? a (b :: rest) = some (1, char) := by
  rcases rest with _ | ⟨c, _ | ⟨d, rest⟩⟩ <;> simp [front?, h]

/-- So is a triple that does not start with a pair. -/
theorem front?_of_triple (hpair : pair? a b = none) (h : triple? a b c = some char) :
    front? a (b :: c :: rest) = some (2, char) := by
  rcases rest with _ | ⟨d, rest⟩ <;> simp [front?, hpair, h]

/-- So are four bytes that start with neither. -/
theorem front?_of_quadruple (hpair : pair? a b = none) (htriple : triple? a b c = none)
    (h : quadruple? a b c d = some char) :
    front? a (b :: c :: d :: rest) = some (3, char) := by
  simp [front?, hpair, htriple, h]

/-! ## Characters -/

section

variable {n : Nat}

/-- The two bytes of a character. -/
theorem pair?_ofNat (hlow : 0x80 ≤ n) (hhigh : n < 0x800) :
    pair? (UInt8.ofNat (n / 64 % 32 + 192)) (UInt8.ofNat (n % 64 + 128)) = some (Char.ofNat n) := by
  have hfirst := UInt8.toNat_ofNat_of_lt' (by omega : n / 64 % 32 + 192 < 256)
  have hsum : (n / 64 % 32 + 192 - 0xC0) * 64 + n % 64 = n := by omega
  simp only [pair?, continuation?_ofNat, hfirst, Option.bind_eq_bind, Option.bind_some, hsum]
  rw [if_pos (by omega)]

/-- The three bytes of a character. -/
theorem triple?_ofNat (hlow : 0x800 ≤ n) (hhigh : n < 0x10000)
    (hvalid : ¬(0xD800 ≤ n ∧ n ≤ 0xDFFF)) :
    triple? (UInt8.ofNat (n / 4096 % 16 + 224)) (UInt8.ofNat (n / 64 % 64 + 128))
      (UInt8.ofNat (n % 64 + 128)) = some (Char.ofNat n) := by
  have hfirst := UInt8.toNat_ofNat_of_lt' (by omega : n / 4096 % 16 + 224 < 256)
  have hsum : (n / 4096 % 16 + 224 - 0xE0) * 4096 + n / 64 % 64 * 64 + n % 64 = n := by omega
  simp only [triple?, continuation?_ofNat, hfirst, Option.bind_eq_bind, Option.bind_some, hsum]
  rw [if_pos (by omega)]

/-- The four bytes of a character. -/
theorem quadruple?_ofNat (hlow : 0x10000 ≤ n) (hhigh : n < 0x110000) :
    quadruple? (UInt8.ofNat (n / 262144 % 8 + 240)) (UInt8.ofNat (n / 4096 % 64 + 128))
      (UInt8.ofNat (n / 64 % 64 + 128)) (UInt8.ofNat (n % 64 + 128)) = some (Char.ofNat n) := by
  have hfirst := UInt8.toNat_ofNat_of_lt' (by omega : n / 262144 % 8 + 240 < 256)
  have hsum : (n / 262144 % 8 + 240 - 0xF0) * 262144 + n / 4096 % 64 * 4096 +
      n / 64 % 64 * 64 + n % 64 = n := by omega
  simp only [quadruple?, continuation?_ofNat, hfirst, Option.bind_eq_bind, Option.bind_some, hsum]
  rw [if_pos (by omega)]

/-- A byte below 128 is a character. -/
theorem decodeFrom_of_lt (h : a.toNat < 0x80) :
    decodeFrom 0 (a :: rest) = .char (Char.ofNat a.toNat) :: decodeFrom 0 rest := by
  rw [decodeFrom, if_pos h]

/-- Any other byte is a character with those that follow it, if it starts one. -/
theorem decodeFrom_of_front? (h : 0x80 ≤ a.toNat) (hfront : front? a rest = some (n, char)) :
    decodeFrom 0 (a :: rest) = .char char :: decodeFrom n rest := by
  rw [decodeFrom, if_neg (by omega), hfront]

end

/-- A character is read from its bytes, whatever follows them. -/
theorem decodeFrom_utf8EncodeChar (char : Char) (rest : List UInt8) :
    decodeFrom 0 (String.utf8EncodeChar char ++ rest) = .char char :: decodeFrom 0 rest := by
  have hvalid : char.toNat < 0xD800 ∨ 0xDFFF < char.toNat ∧ char.toNat < 0x110000 := char.valid
  have hchar : Char.ofNat char.toNat = char := Char.ofNat_toNat char
  have hnat : char.val.toNat = char.toNat := rfl
  unfold String.utf8EncodeChar
  rw [hnat]
  generalize char.toNat = n at hvalid hchar ⊢
  dsimp only
  split
  · rename_i hone
    have hfirst := UInt8.toNat_ofNat_of_lt' (by omega : n < 256)
    rw [List.singleton_append, decodeFrom_of_lt (by omega), hfirst, hchar]
  rename_i hone
  split
  · rename_i htwo
    have hfirst := UInt8.toNat_ofNat_of_lt' (by omega : n / 64 % 32 + 192 < 256)
    exact decodeFrom_of_front? (by omega)
      (front?_of_pair (hchar ▸ pair?_ofNat (by omega) (by omega)))
  rename_i htwo
  split
  · rename_i hthree
    have hfirst := UInt8.toNat_ofNat_of_lt' (by omega : n / 4096 % 16 + 224 < 256)
    exact decodeFrom_of_front? (by omega) (front?_of_triple (pair?_eq_none _ (by omega))
      (hchar ▸ triple?_ofNat (by omega) (by omega) (by omega)))
  · rename_i hthree
    have hfirst := UInt8.toNat_ofNat_of_lt' (by omega : n / 262144 % 8 + 240 < 256)
    exact decodeFrom_of_front? (by omega) (front?_of_quadruple (pair?_eq_none _ (by omega))
      (triple?_eq_none _ _ (by omega)) (hchar ▸ quadruple?_ofNat (by omega) (by omega)))

/-- The bytes of a text are those of its characters. -/
theorem data_toUTF8 (s : String) :
    s.toUTF8.data.toList = s.toList.flatMap String.utf8EncodeChar := by
  rw [String.toUTF8, ← String.utf8Encode_toList, List.utf8Encode, List.toList_data_toByteArray]

/-- **The bytes of a text are read as its characters.** -/
theorem decode_toUTF8 (s : String) : decode s.toUTF8.data.toList = ofString s := by
  rw [data_toUTF8, decode, ofString]
  induction s.toList with
  | nil => rfl
  | cons char chars ih =>
    rw [List.flatMap_cons, decodeFrom_utf8EncodeChar, ih, List.map_cons]

/-! ## Bytes that are a text -/

/-- A byte that continues a sequence has its payload in the low six bits. -/
theorem toNat_of_continuation? {low : Nat} (h : continuation? b = some low) :
    b.toNat = low % 64 + 128 ∧ low < 64 := by
  rw [continuation?, Option.ite_none_right_eq_some, Option.some_inj] at h
  omega

section

variable {n : Nat}

/-- The number of a character that is given by its number. -/
theorem toNat_val_ofNat (h : n < 0xD800 ∨ 0xDFFF < n ∧ n < 0x110000) :
    (Char.ofNat n).val.toNat = n := by
  have hvalid : n.isValidChar := h
  rw [Char.ofNat, dif_pos hvalid]
  rfl

/-- Two bytes that are read as a character are the bytes of the character. -/
theorem utf8EncodeChar_of_pair? (h : pair? a b = some char) :
    String.utf8EncodeChar char = [a, b] := by
  simp only [pair?, Option.bind_eq_bind, Option.bind_eq_some_iff, Option.ite_none_right_eq_some,
    Option.some_inj] at h
  obtain ⟨low, hb, hrange, rfl⟩ := h
  obtain ⟨hb, hlow⟩ := toNat_of_continuation? hb
  generalize hn : (a.toNat - 0xC0) * 64 + low = n
  have hfirst : n / 64 % 32 + 192 = a.toNat := by omega
  have hsecond : n % 64 + 128 = b.toNat := by omega
  unfold String.utf8EncodeChar
  rw [toNat_val_ofNat (by omega)]
  dsimp only
  rw [if_neg (by omega), if_pos (by omega), hfirst, hsecond, UInt8.ofNat_toNat, UInt8.ofNat_toNat]

/-- So are three. -/
theorem utf8EncodeChar_of_triple? (h : triple? a b c = some char) :
    String.utf8EncodeChar char = [a, b, c] := by
  simp only [triple?, Option.bind_eq_bind, Option.bind_eq_some_iff, Option.ite_none_right_eq_some,
    Option.some_inj] at h
  obtain ⟨middle, hb, low, hc, hrange, rfl⟩ := h
  obtain ⟨hb, hmiddle⟩ := toNat_of_continuation? hb
  obtain ⟨hc, hlow⟩ := toNat_of_continuation? hc
  generalize hn : (a.toNat - 0xE0) * 4096 + middle * 64 + low = n at hrange ⊢
  have hfirst : n / 4096 % 16 + 224 = a.toNat := by omega
  have hsecond : n / 64 % 64 + 128 = b.toNat := by omega
  have hthird : n % 64 + 128 = c.toNat := by omega
  unfold String.utf8EncodeChar
  rw [toNat_val_ofNat (by omega)]
  dsimp only
  rw [if_neg (by omega), if_neg (by omega), if_pos (by omega), hfirst, hsecond, hthird,
    UInt8.ofNat_toNat, UInt8.ofNat_toNat, UInt8.ofNat_toNat]

/-- So are four. -/
theorem utf8EncodeChar_of_quadruple? (h : quadruple? a b c d = some char) :
    String.utf8EncodeChar char = [a, b, c, d] := by
  simp only [quadruple?, Option.bind_eq_bind, Option.bind_eq_some_iff,
    Option.ite_none_right_eq_some, Option.some_inj] at h
  obtain ⟨high, hb, middle, hc, low, hd, hrange, rfl⟩ := h
  obtain ⟨hb, hhigh⟩ := toNat_of_continuation? hb
  obtain ⟨hc, hmiddle⟩ := toNat_of_continuation? hc
  obtain ⟨hd, hlow⟩ := toNat_of_continuation? hd
  generalize hn : (a.toNat - 0xF0) * 262144 + high * 4096 + middle * 64 + low = n at hrange ⊢
  have hfirst : n / 262144 % 8 + 240 = a.toNat := by omega
  have hsecond : n / 4096 % 64 + 128 = b.toNat := by omega
  have hthird : n / 64 % 64 + 128 = c.toNat := by omega
  have hfourth : n % 64 + 128 = d.toNat := by omega
  unfold String.utf8EncodeChar
  rw [toNat_val_ofNat (by omega)]
  dsimp only
  rw [if_neg (by omega), if_neg (by omega), if_neg (by omega), hfirst, hsecond, hthird, hfourth,
    UInt8.ofNat_toNat, UInt8.ofNat_toNat, UInt8.ofNat_toNat, UInt8.ofNat_toNat]

/-- What is read at the front of some bytes are the bytes of the character that is read. -/
theorem utf8EncodeChar_of_front? (h : front? a rest = some (n, char)) :
    String.utf8EncodeChar char = a :: rest.take n := by
  have hpair {b : UInt8} {back : List UInt8} (h : (pair? a b).map ((1, ·)) = some (n, char)) :
      String.utf8EncodeChar char = a :: (b :: back).take n := by
    obtain ⟨_, hb, heq⟩ := Option.map_eq_some_iff.1 h
    cases heq
    exact utf8EncodeChar_of_pair? hb
  have htriple {b c : UInt8} {back : List UInt8}
      (h : (triple? a b c).map ((2, ·)) = some (n, char)) :
      String.utf8EncodeChar char = a :: (b :: c :: back).take n := by
    obtain ⟨_, hc, heq⟩ := Option.map_eq_some_iff.1 h
    cases heq
    exact utf8EncodeChar_of_triple? hc
  rcases rest with _ | ⟨b, _ | ⟨c, _ | ⟨d, back⟩⟩⟩ <;>
    simp only [front?, Option.orElse_eq_orElse, Option.orElse_eq_or, Option.or_eq_some_iff] at h
  · cases h
  · exact hpair h
  · rcases h with h | ⟨-, h⟩
    · exact hpair h
    · exact htriple h
  · rcases h with h | ⟨-, h | ⟨-, h⟩⟩
    · exact hpair h
    · exact htriple h
    · obtain ⟨_, hd, heq⟩ := Option.map_eq_some_iff.1 h
      cases heq
      exact utf8EncodeChar_of_quadruple? hd

end

/-- Bytes without a stray one are, from the first that is not passed over, those of the characters
that they are read as. -/
theorem drop_eq_flatMap {skip : Nat} {bytes : List UInt8} {chars : List Char}
    (h : chars? (decodeFrom skip bytes) = some chars) :
    bytes.drop skip = chars.flatMap String.utf8EncodeChar := by
  induction bytes generalizing skip chars with
  | nil =>
    rw [decodeFrom] at h
    cases h
    exact List.drop_nil
  | cons a rest ih =>
    cases skip with
    | succ skip => exact ih h
    | zero =>
      by_cases hone : a.toNat < 0x80
      · rw [decodeFrom_of_lt hone, chars?, Option.map_eq_some_iff] at h
        obtain ⟨more, hmore, rfl⟩ := h
        have hfirst : String.utf8EncodeChar (Char.ofNat a.toNat) = [a] := by
          unfold String.utf8EncodeChar
          rw [toNat_val_ofNat (by omega)]
          dsimp only
          rw [if_pos (by omega), UInt8.ofNat_toNat]
        rw [List.flatMap_cons, hfirst, ← ih hmore]
        rfl
      · cases hfront : front? a rest with
        | none =>
          rw [decodeFrom, if_neg hone, hfront] at h
          cases h
        | some found =>
          obtain ⟨n, char⟩ := found
          rw [decodeFrom_of_front? (by omega) hfront, chars?, Option.map_eq_some_iff] at h
          obtain ⟨more, hmore, rfl⟩ := h
          rw [List.flatMap_cons, utf8EncodeChar_of_front? hfront, ← ih hmore, List.cons_append,
            List.take_append_drop]
          rfl

/-- **Bytes are read as a text exactly if they are the bytes of the text.** -/
theorem text?_eq_some_iff {bytes : List UInt8} {s : String} :
    text? bytes = some s ↔ bytes = s.toUTF8.data.toList := by
  constructor
  · intro h
    obtain ⟨chars, hchars, rfl⟩ := Option.map_eq_some_iff.1 h
    rw [data_toUTF8, String.toList_ofList]
    exact drop_eq_flatMap hchars
  · rintro rfl
    rw [text?, decode_toUTF8, ofString, chars?_map_char, Option.map_some, String.ofList_toList]

end Symbol

end FieldShader
