import TreeSelect.Text.Utf8

namespace TreeSelect.Text.Utf8

theorem toNat_byte (n : Nat) (h : n < 0x100) : (UInt8.ofNat n).toNat = n :=
  UInt8.toNat_ofNat_of_lt h

theorem begin_two (n : Nat) (hl : 0xC2 ≤ n) (hu : n < 0xE0) :
    begin (.ofNat n) = .inr ⟨[.ofNat n], n - 0xC0, 1, 0x80, 0xBF⟩ := by
  have hb : (UInt8.ofNat n).toNat = n := toNat_byte n (by omega)
  simp only [begin, hb]
  rw [if_neg (by omega), if_neg (by omega), if_pos hu]

theorem begin_three (n : Nat) (hl : 0xE0 ≤ n) (hu : n < 0xF0) :
    begin (.ofNat n) = .inr ⟨[.ofNat n], n - 0xE0, 2, if n = 0xE0 then 0xA0 else 0x80,
      if n = 0xED then 0x9F else 0xBF⟩ := by
  have hb : (UInt8.ofNat n).toNat = n := toNat_byte n (by omega)
  simp only [begin, hb]
  rw [if_neg (by omega), if_neg (by omega), if_neg (by omega)]
  by_cases h0 : n = 0xE0
  · subst h0
    rfl
  · by_cases hd : n = 0xED
    · subst hd
      rfl
    · rw [if_neg h0, if_neg hd, if_pos hu, if_neg h0, if_neg hd]

theorem begin_four (n : Nat) (hl : 0xF0 ≤ n) (hu : n < 0xF5) :
    begin (.ofNat n) = .inr ⟨[.ofNat n], n - 0xF0, 3, if n = 0xF0 then 0x90 else 0x80,
      if n = 0xF4 then 0x8F else 0xBF⟩ := by
  obtain rfl | rfl | rfl | rfl | rfl : n = 0xF0 ∨ n = 0xF1 ∨ n = 0xF2 ∨ n = 0xF3 ∨ n = 0xF4 := by
    omega
  all_goals rfl

theorem pieces_of_begin (b : UInt8) (p : Pending) (r : List UInt8) (h : begin b = .inr p) :
    pieces none (b :: r) = pieces (some p) r := by
  rw [pieces, h]

theorem pieces_more (bytes r : List UInt8) (value need low high k : Nat) (hneed : 1 < need)
    (hk : k < 0x40) (hlow : low ≤ 0x80 + k) (hhigh : 0x80 + k ≤ high) :
    pieces (some ⟨bytes, value, need, low, high⟩) (.ofNat (0x80 + k) :: r) =
      pieces (some ⟨bytes ++ [.ofNat (0x80 + k)], value * 0x40 + k, need - 1, 0x80, 0xBF⟩) r := by
  have hb : (UInt8.ofNat (0x80 + k)).toNat = 0x80 + k := toNat_byte _ (by omega)
  rw [pieces, hb, if_pos ⟨hlow, hhigh⟩, Pending.extend, hb, Nat.add_sub_cancel_left,
    if_neg (Nat.not_le.mpr hneed)]

theorem pieces_last (bytes r : List UInt8) (value low high k : Nat) (hk : k < 0x40)
    (hlow : low ≤ 0x80 + k) (hhigh : 0x80 + k ≤ high) :
    pieces (some ⟨bytes, value, 1, low, high⟩) (.ofNat (0x80 + k) :: r) =
      .char (Char.ofNat (value * 0x40 + k)) :: pieces none r := by
  have hb : (UInt8.ofNat (0x80 + k)).toNat = 0x80 + k := toNat_byte _ (by omega)
  rw [pieces, hb, if_pos ⟨hlow, hhigh⟩, Pending.extend, hb, Nat.add_sub_cancel_left,
    if_pos (Nat.le_refl 1)]

/-- The bytes of a character are read as that character, whatever follows them. -/
theorem pieces_encodeChar (c : Char) (r : List UInt8) :
    pieces none (encodeChar c ++ r) = .char c :: pieces none r := by
  have hvalid : c.toNat < 0xD800 ∨ 0xDFFF < c.toNat ∧ c.toNat < 0x110000 := c.valid
  have hc : Char.ofNat c.toNat = c := Char.ofNat_toNat c
  unfold encodeChar
  generalize c.toNat = n at hvalid hc
  by_cases h1 : n < 0x80
  · have hb : (UInt8.ofNat n).toNat = n := toNat_byte n (by omega)
    simp only [if_pos h1, List.singleton_append, pieces, begin, hb, hc]
  by_cases h2 : n < 0x800
  · have hn : (0xC0 + n / 0x40 - 0xC0) * 0x40 + n % 0x40 = n := by omega
    simp only [if_neg h1, if_pos h2, List.cons_append, List.nil_append]
    rw [pieces_of_begin _ _ _ (begin_two _ (by omega) (by omega)),
      pieces_last _ _ _ _ _ _ (by omega) (by omega) (by omega), hn, hc]
  by_cases h3 : n < 0x10000
  · have hn : ((0xE0 + n / 0x1000 - 0xE0) * 0x40 + n / 0x40 % 0x40) * 0x40 + n % 0x40 = n := by
      omega
    simp only [if_neg h1, if_neg h2, if_pos h3, List.cons_append, List.nil_append]
    -- the bounds of the second byte keep out surrogates and values that need fewer bytes
    rw [pieces_of_begin _ _ _ (begin_three _ (by omega) (by omega)),
      pieces_more _ _ _ _ _ _ _ (by omega) (by omega) (by split <;> omega) (by split <;> omega),
      pieces_last _ _ _ _ _ _ (by omega) (by omega) (by omega), hn, hc]
  · have hn : (((0xF0 + n / 0x40000 - 0xF0) * 0x40 + n / 0x1000 % 0x40) * 0x40 +
        n / 0x40 % 0x40) * 0x40 + n % 0x40 = n := by
      omega
    simp only [if_neg h1, if_neg h2, if_neg h3, List.cons_append, List.nil_append]
    rw [pieces_of_begin _ _ _ (begin_four _ (by omega) (by omega)),
      pieces_more _ _ _ _ _ _ _ (by omega) (by omega) (by split <;> omega) (by split <;> omega),
      pieces_more _ _ _ _ _ _ _ (by omega) (by omega) (by omega) (by omega),
      pieces_last _ _ _ _ _ _ (by omega) (by omega) (by omega), hn, hc]

theorem encode_cons (c : Char) (cs : List Char) : encode (c :: cs) = encodeChar c ++ encode cs :=
  List.flatMap_cons

theorem encode_append (cs ds : List Char) : encode (cs ++ ds) = encode cs ++ encode ds :=
  List.flatMap_append

/-- Reading the bytes of a text gives the text again. -/
theorem decode_encode (cs : List Char) : decode (encode cs) = cs := by
  induction cs with
  | nil => rfl
  | cons c cs ih =>
    rw [decode, encode_cons, pieces_encodeChar, List.map_cons]
    exact congrArg (c :: ·) ih

theorem encode_eq_nil (cs : List Char) (h : encode cs = []) : cs = [] := by
  have hread := decode_encode cs
  rw [h] at hread
  exact hread.symm

/-- The bytes of a character beyond ASCII are all beyond ASCII. -/
theorem le_of_mem_encodeChar (c : Char) (hc : 0x80 ≤ c.toNat) (b : UInt8) (hb : b ∈ encodeChar c) :
    0x80 ≤ b.toNat := by
  have hvalid : c.toNat < 0xD800 ∨ 0xDFFF < c.toNat ∧ c.toNat < 0x110000 := c.valid
  have hbyte (m : Nat) (hl : 0x80 ≤ m) (hu : m < 0x100) : 0x80 ≤ (UInt8.ofNat m).toNat := by
    rw [toNat_byte m hu]
    exact hl
  simp only [encodeChar, if_neg (Nat.not_lt.mpr hc)] at hb
  split at hb
  · simp only [List.mem_cons, List.not_mem_nil, or_false] at hb
    rcases hb with rfl | rfl <;> apply hbyte <;> omega
  · split at hb
    · simp only [List.mem_cons, List.not_mem_nil, or_false] at hb
      rcases hb with rfl | rfl | rfl <;> apply hbyte <;> omega
    · simp only [List.mem_cons, List.not_mem_nil, or_false] at hb
      rcases hb with rfl | rfl | rfl | rfl <;> apply hbyte <;> omega

/-- Only a line feed has the byte of a line feed. -/
theorem count_encodeChar (c : Char) : (encodeChar c).count 10 = if c = '\n' then 1 else 0 := by
  by_cases hascii : c.toNat < 0x80
  · have hn : encodeChar c = [.ofNat c.toNat] := by simp only [encodeChar, if_pos hascii]
    have hiff : UInt8.ofNat c.toNat = 10 ↔ c = '\n' := by
      rw [← UInt8.toNat_inj, toNat_byte _ (by omega), ← Char.toNat_inj]
      exact Iff.rfl
    rw [hn, List.count_singleton]
    simp only [beq_iff_eq, hiff]
  · have hne : c ≠ '\n' := by
      rintro rfl
      exact hascii (by decide)
    rw [if_neg hne, List.count_eq_zero]
    intro hmem
    have hle := le_of_mem_encodeChar c (Nat.not_lt.mp hascii) 10 hmem
    exact absurd hle (by decide)

theorem count_encode (cs : List Char) : (encode cs).count 10 = cs.count '\n' := by
  induction cs with
  | nil => rfl
  | cons c cs ih =>
    rw [encode_cons, List.count_append, ih, count_encodeChar, List.count_cons, Nat.add_comm]
    simp only [beq_iff_eq]

/-- Of two beginnings of a text the one with no more bytes is a beginning of the other. -/
theorem prefix_of_length_encode_le (s before before' : List Char) (h : before <+: s)
    (h' : before' <+: s) (hle : (encode before).length ≤ (encode before').length) :
    before <+: before' := by
  rcases List.prefix_or_prefix_of_prefix h h' with hp | ⟨more, rfl⟩
  · exact hp
  · have hmore : more = [] := by
      rw [encode_append, List.length_append] at hle
      exact encode_eq_nil more (List.length_eq_zero_iff.mp (by omega))
    simp [hmore]

end TreeSelect.Text.Utf8
