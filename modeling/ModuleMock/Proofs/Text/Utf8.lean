import ModuleMock.Text.Utf8

/-!
# Bytes of texts

The bytes of a text are those of its characters in a row (`encode_ofList`), and reading them gives the text back
(`decode_encode`).
-/

namespace ModuleMock.Text

/-- The bytes of a text are those of its characters, in order. -/
theorem encode_ofList (cs : List Char) : encode (String.ofList cs) = cs.flatMap String.utf8EncodeChar := by
  simp [encode, String.toUTF8, List.utf8Encode]

theorem encode_append (cs ds : List Char) :
    encode (String.ofList (cs ++ ds)) = encode (String.ofList cs) ++ encode (String.ofList ds) := by
  rw [encode_ofList, encode_ofList, encode_ofList, List.flatMap_append]

/-! ## One character -/

/-- A byte below `0x80` stands for itself. -/
theorem decodeFrom_short {fuel position : Nat} {b : UInt8} {bs : List UInt8} (hb : b.toNat < 0x80) :
    decodeFrom (fuel + 1) position (b :: bs) =
      (decodeFrom fuel (position + 1) bs).map (Char.ofNat b.toNat :: ·) := by
  rw [decodeFrom, if_pos hb]
  cases decodeFrom fuel (position + 1) bs <;> rfl

/-- A lead byte and its further bytes stand for one character. -/
theorem decodeFrom_long {fuel position n : Nat} {b : UInt8} {bs : List UInt8} {lead : Lead} (hb : ¬ b.toNat < 0x80)
    (hl : Lead.ofByte? b = some lead) (hf : furtherBytes lead.low lead.high lead.more lead.payload bs = .ok n) :
    decodeFrom (fuel + 1) position (b :: bs) =
      (decodeFrom fuel (position + 1 + lead.more) (bs.drop lead.more)).map (Char.ofNat n :: ·) := by
  rw [decodeFrom, if_neg hb, hl]
  simp only [hf]
  cases decodeFrom fuel (position + 1 + lead.more) (bs.drop lead.more) <;> rfl

/-- A further byte within its bounds adds six bits to the payload. -/
theorem furtherBytes_cons {low high k n : Nat} {b : UInt8} {bs : List UInt8} (h : low ≤ b.toNat ∧ b.toNat ≤ high)
    {m : Nat} (hm : furtherBytes 0x80 0xBF k (n * 64 + (b.toNat - 0x80)) bs = .ok m) :
    furtherBytes low high (k + 1) n (b :: bs) = .ok m := by
  rw [furtherBytes, if_pos h, hm]

/-- A character of several bytes: its first byte and the bounds of its second byte say how it goes on. -/
theorem decodeFrom_lead {fuel position v : Nat} {b : UInt8} {bs bytes : List UInt8} {low high : Nat}
    (hb : ¬ b.toNat < 0x80) {payload : Nat} (hl : Lead.ofByte? b = some ⟨payload, low, high, bs.length⟩)
    (hf : furtherBytes low high bs.length payload (bs ++ bytes) = .ok v) :
    decodeFrom (fuel + 1) position (b :: bs ++ bytes) =
      (decodeFrom fuel (position + (b :: bs).length) bytes).map (Char.ofNat v :: ·) := by
  rw [List.cons_append, decodeFrom_long hb hl hf, List.drop_left, List.length_cons, Nat.add_assoc, Nat.add_comm 1]

/-- The lead of two bytes, whose payload is not too short for them. -/
theorem Lead.ofByte?_two {b : UInt8} {q : Nat} (hb : b.toNat = q + 192) (h : 2 ≤ q ∧ q < 32) :
    Lead.ofByte? b = some ⟨q, 0x80, 0xBF, 1⟩ := by
  unfold Lead.ofByte?
  grind

/-- The lead of three bytes; the byte after it is bounded where a shorter form or a surrogate would begin. -/
theorem Lead.ofByte?_three {b : UInt8} {q : Nat} (hb : b.toNat = q + 224) (h : q < 16) :
    Lead.ofByte? b = some ⟨q, if q = 0 then 0xA0 else 0x80, if q = 13 then 0x9F else 0xBF, 2⟩ := by
  unfold Lead.ofByte?
  grind

/-- The lead of four bytes; the byte after it is bounded where a shorter form or no character would begin. -/
theorem Lead.ofByte?_four {b : UInt8} {q : Nat} (hb : b.toNat = q + 240) (h : q < 5) :
    Lead.ofByte? b = some ⟨q, if q = 0 then 0x90 else 0x80, if q = 4 then 0x8F else 0xBF, 3⟩ := by
  unfold Lead.ofByte?
  obtain rfl | rfl | hq : q = 0 ∨ q = 4 ∨ (q ≠ 0 ∧ q ≠ 4) := by omega
  all_goals grind

/-- The bytes of a character are read as this character. -/
theorem decodeFrom_char (fuel position : Nat) (c : Char) (bytes : List UInt8) :
    decodeFrom (fuel + 1) position (String.utf8EncodeChar c ++ bytes) =
      (decodeFrom fuel (position + (String.utf8EncodeChar c).length) bytes).map (c :: ·) := by
  have hv : c.val.toNat < 0xD800 ∨ (0xDFFF < c.val.toNat ∧ c.val.toNat < 0x110000) := c.valid
  have hc : Char.ofNat c.val.toNat = c := Char.ofNat_toNat c
  have hbyte : ∀ k < 256, (UInt8.ofNat k).toNat = k := fun k hk => by simp [Nat.mod_eq_of_lt hk]
  unfold String.utf8EncodeChar
  generalize c.val.toNat = v at hv hc
  dsimp only
  split
  · rw [List.singleton_append, decodeFrom_short (by rw [hbyte v (by omega)]; omega), hbyte v (by omega), hc]
    rfl
  split
  · have h₁ := hbyte (v / 64 % 32 + 192) (by omega)
    have h₂ := hbyte (v % 64 + 128) (by omega)
    rw [decodeFrom_lead (v := v) (by omega) (Lead.ofByte?_two h₁ (by omega)), hc]
    exact furtherBytes_cons (by omega) (congrArg Except.ok (by omega))
  split
  · have h₁ := hbyte (v / 4096 % 16 + 224) (by omega)
    have h₂ := hbyte (v / 64 % 64 + 128) (by omega)
    have h₃ := hbyte (v % 64 + 128) (by omega)
    rw [decodeFrom_lead (v := v) (by omega) (Lead.ofByte?_three h₁ (by omega)), hc]
    exact furtherBytes_cons (by split <;> split <;> omega) (furtherBytes_cons (by omega) (congrArg Except.ok (by omega)))
  · have h₁ := hbyte (v / 262144 % 8 + 240) (by omega)
    have h₂ := hbyte (v / 4096 % 64 + 128) (by omega)
    have h₃ := hbyte (v / 64 % 64 + 128) (by omega)
    have h₄ := hbyte (v % 64 + 128) (by omega)
    rw [decodeFrom_lead (v := v) (by omega) (Lead.ofByte?_four h₁ (by omega)), hc]
    exact furtherBytes_cons (by split <;> split <;> omega)
      (furtherBytes_cons (by omega) (furtherBytes_cons (by omega) (congrArg Except.ok (by omega))))

/-! ## Texts -/

/-- Decoding undoes the encoding of every list of characters, wherever it begins. -/
theorem decodeFrom_flatMap : ∀ (cs : List Char) (fuel position : Nat), cs.length ≤ fuel →
    decodeFrom fuel position (cs.flatMap String.utf8EncodeChar) = .ok cs
  | [], 0, _, _ => rfl
  | [], _ + 1, _, _ => rfl
  | c :: cs, fuel + 1, position, h => by
    rw [List.flatMap_cons, decodeFrom_char, decodeFrom_flatMap cs fuel _ (by simpa using h)]
    rfl

/-- Each character has at least one byte. -/
theorem length_le_length_encode (cs : List Char) : cs.length ≤ (cs.flatMap String.utf8EncodeChar).length := by
  induction cs with
  | nil => simp
  | cons c cs ih =>
    have := Char.utf8Size_pos c
    simp only [List.flatMap_cons, List.length_append, List.length_cons, String.length_utf8EncodeChar]
    omega

/-- The bytes of a text are read as this text. -/
theorem decode_encode (s : String) : decode (encode s) = .ok s := by
  have he : encode s = s.toList.flatMap String.utf8EncodeChar := by rw [← encode_ofList, String.ofList_toList]
  rw [decode, he, decodeFrom_flatMap s.toList _ _ (length_le_length_encode _)]
  exact congrArg Except.ok (String.ofList_toList (s := s))

end ModuleMock.Text
