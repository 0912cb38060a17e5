import TreeSelect.ESTree.Types

/-! ESTree names and the types of nodes are written apart: a name has a capital letter, and a type that
a name stands for has none. So no name stands for another name, and such a type stands for itself. Both
are read off the bytes, of which a text has one for each letter here. -/
namespace TreeSelect.ESTree

/-- In a text whose bytes are all below 128, each character is told by one of them. -/
theorem exists_byte (s : String) (h : ∀ b ∈ s.toByteArray.data.toList, b.toNat < 0x80) (c : Char)
    (hc : c ∈ s.toList) : ∃ b ∈ s.toByteArray.data.toList, b.toNat = c.toNat := by
  have hbytes : s.toByteArray.data.toList = s.toList.flatMap String.utf8EncodeChar := by
    rw [← String.utf8Encode_toList, List.utf8Encode, List.toList_data_toByteArray]
  have hof (n : Nat) (hn : n < 256) (hmem : UInt8.ofNat n ∈ String.utf8EncodeChar c) :
      ∃ b ∈ s.toByteArray.data.toList, b.toNat = n := by
    rw [hbytes]
    exact ⟨.ofNat n, List.mem_flatMap.mpr ⟨c, hc, hmem⟩, UInt8.toNat_ofNat_of_lt hn⟩
  by_cases hascii : c.val.toNat ≤ 127
  · apply hof c.val.toNat (by omega)
    rw [String.utf8EncodeChar]
    exact if_pos hascii ▸ List.mem_singleton_self _
  · -- the last byte of any other character has its top bit set
    have hlast : UInt8.ofNat (c.val.toNat % 64 + 128) ∈ String.utf8EncodeChar c := by
      simp only [String.utf8EncodeChar, if_neg hascii]
      split
      · simp
      · split <;> simp
    obtain ⟨b, hb, hvalue⟩ := hof (c.val.toNat % 64 + 128) (by omega) hlast
    have hlt := h b hb
    omega

theorem toLower_eq_self (c : Char) (h : 0x5F ≤ c.toNat) : c.toLower = c := by
  apply dif_neg
  intro hupper
  have hle : c.toNat ≤ 90 := UInt32.le_iff_toNat_le.mp hupper.2
  omega

theorem smallAfter_eq_self (before cs : List Char)
    (h : ∀ c ∈ cs, 0x5F ≤ c.toNat ∧ c.toNat < 0x80) : Text.smallAfter before cs = cs := by
  induction cs generalizing before with
  | nil => rfl
  | cons c cs ih =>
    obtain ⟨hle, hlt⟩ := h c List.mem_cons_self
    have hrest := ih (c :: before) fun d hd => h d (List.mem_cons_of_mem c hd)
    have hsigma : c ≠ 'Σ' := by
      intro hc
      rw [hc] at hlt
      exact absurd hlt (by decide)
    rw [Text.smallAfter, if_neg hsigma, Text.smallOf, if_pos hlt, toLower_eq_self c hle, hrest]
    rfl

/-- A text whose bytes all stand between the capital letters and 128 is its own small form. -/
theorem small_eq_self (s : String)
    (h : ∀ b ∈ s.toByteArray.data.toList, 0x5F ≤ b.toNat ∧ b.toNat < 0x80) : Text.small s = s := by
  have hchar : ∀ c ∈ s.toList, 0x5F ≤ c.toNat ∧ c.toNat < 0x80 := by
    intro c hc
    obtain ⟨b, hb, hbc⟩ := exists_byte s (fun b hb => (h b hb).2) c hc
    exact hbc ▸ h b hb
  rw [Text.small, smallAfter_eq_self [] s.toList hchar, String.ofList_toList]

/-- The types that ESTree names stand for are written in small letters and low lines. -/
theorem bytes_of_mem_types : ∀ entry ∈ types, ∀ type ∈ entry.2,
    ∀ b ∈ type.toByteArray.data.toList, 0x5F ≤ b.toNat ∧ b.toNat < 0x80 := by
  decide +kernel

/-- An ESTree name has a capital letter. -/
theorem exists_capital_of_mem_types :
    ∀ entry ∈ types, ∃ b ∈ entry.1.toByteArray.data.toList, b.toNat < 0x5F := by
  decide +kernel

/-- What an ESTree name stands for are types themselves: each of them stands for itself alone. -/
theorem nodeTypes_of_lookup (name type : String) (ts : List String)
    (h : types.lookup name = some ts) (ht : type ∈ ts) :
    nodeTypes type = [type] := by
  obtain ⟨before, after, hcut, -⟩ := List.lookup_eq_some_iff.mp h
  have hmem : (name, ts) ∈ types := by
    rw [hcut]
    exact List.mem_append_right before List.mem_cons_self
  have hsmall := bytes_of_mem_types (name, ts) hmem type ht
  have hnone : types.lookup type = none := by
    apply List.lookup_eq_none_iff.mpr
    intro entry hentry
    -- a name has a capital letter, which a type has not
    obtain ⟨b, hb, hcapital⟩ := exists_capital_of_mem_types entry hentry
    apply bne_iff_ne.mpr
    intro heq
    rw [← heq] at hb
    exact absurd (hsmall b hb).1 (Nat.not_le.mpr hcapital)
  rw [nodeTypes, hnone, small_eq_self type hsmall]

end TreeSelect.ESTree
