import BuildMend.Text.Utf8

/-!
Reading what has been written in UTF-8.

* `exists_head_encodeChar`: a character's octets begin with an octet at which it is read.
* `decode_encode`: a text is read back from its octets.
-/

namespace BuildMend.Text.Utf8

/-! ### Octets -/

theorem toNat_octet {marker bits : Nat} (h : marker + bits < 256) :
    (octet marker bits).toNat = marker + bits := by
  simp [octet, Nat.mod_eq_of_lt h]

theorem isContinuation_iff {b : UInt8} :
    isContinuation b = true ↔ 0x80 ≤ b.toNat ∧ b.toNat < 0xC0 := by
  simp [isContinuation, UInt8.le_iff_toNat_le, UInt8.lt_iff_toNat_lt]

theorem isContinuation_octet {n : Nat} (h : n < 64) : isContinuation (octet 0x80 n) = true := by
  rw [isContinuation_iff, toNat_octet (by omega)]
  omega

theorem low_octet {n : Nat} (h : n < 64) : low (octet 0x80 n) = n := by
  rw [low, toNat_octet (by omega)]
  omega

theorem isSecond_iff {lead b : UInt8} :
    isSecond lead b = true ↔ (0x80 ≤ b.toNat ∧ b.toNat < 0xC0) ∧
      (lead.toNat = 0xE0 → 0xA0 ≤ b.toNat) ∧ (lead.toNat = 0xED → b.toNat < 0xA0) ∧
      (lead.toNat = 0xF0 → 0x90 ≤ b.toNat) ∧ (lead.toNat = 0xF4 → b.toNat < 0x90) := by
  simp [isSecond, isContinuation_iff, UInt8.le_iff_toNat_le, UInt8.lt_iff_toNat_lt,
    ← UInt8.toNat_inj, bne_iff_ne, and_assoc, Classical.or_iff_not_imp_left]

/-! ### Characters -/

/-- A character's octets begin with an octet at which that character is read. -/
theorem exists_head_encodeChar (c : Char) (rest : Octets) :
    ∃ lead tail, encodeChar c = lead :: tail ∧
      head lead (tail ++ rest) = .scalar c (tail.length + 1) := by
  have hc : Char.ofNat c.toNat = c := Char.ofNat_toNat c
  have hv : c.toNat < 0xD800 ∨ 0xDFFF < c.toNat ∧ c.toNat < 0x110000 := c.valid
  unfold encodeChar
  generalize c.toNat = n at hv hc ⊢
  simp only
  by_cases h₁ : n < 0x80
  · rw [if_pos h₁]
    refine ⟨_, _, rfl, ?_⟩
    simp [head, UInt8.lt_iff_toNat_lt, toNat_octet (show 0 + n < 256 by omega), h₁, hc]
  rw [if_neg h₁]
  by_cases h₂ : n < 0x800
  · rw [if_pos h₂]
    refine ⟨_, _, rfl, ?_⟩
    have hl : (octet 0xC0 (n / 64)).toNat = 0xC0 + n / 64 := toNat_octet (by omega)
    have hs : isSecond (octet 0xC0 (n / 64)) (octet 0x80 (n % 64)) = true := by
      rw [isSecond_iff, hl, toNat_octet (by omega)]; omega
    have hn : (0xC0 + n / 64) % 32 * 64 + n % 64 = n := by omega
    have h : ¬ 0xC0 + n / 64 < 128 ∧ ¬ (0xC0 + n / 64 < 194 ∨ 245 ≤ 0xC0 + n / 64) ∧
        0xC0 + n / 64 < 224 := by omega
    simp [head, UInt8.lt_iff_toNat_lt, UInt8.le_iff_toNat_le, hl, hs, h,
      low_octet (Nat.mod_lt n (by decide)), hn, hc]
  rw [if_neg h₂]
  by_cases h₃ : n < 0x10000
  · rw [if_pos h₃]
    refine ⟨_, _, rfl, ?_⟩
    have hl : (octet 0xE0 (n / 4096)).toNat = 0xE0 + n / 4096 := toNat_octet (by omega)
    have hs : isSecond (octet 0xE0 (n / 4096)) (octet 0x80 (n / 64 % 64)) = true := by
      rw [isSecond_iff, hl, toNat_octet (by omega)]; omega
    have hn : (0xE0 + n / 4096) % 16 * 4096 + n / 64 % 64 * 64 + n % 64 = n := by omega
    have h : ¬ 0xE0 + n / 4096 < 128 ∧ ¬ (0xE0 + n / 4096 < 194 ∨ 245 ≤ 0xE0 + n / 4096) ∧
        ¬ 0xE0 + n / 4096 < 224 ∧ 0xE0 + n / 4096 < 240 := by omega
    simp [head, UInt8.lt_iff_toNat_lt, UInt8.le_iff_toNat_le, hl, hs, h,
      isContinuation_octet (Nat.mod_lt n (show 64 > 0 by decide)),
      low_octet (Nat.mod_lt n (show 64 > 0 by decide)),
      low_octet (Nat.mod_lt (n / 64) (show 64 > 0 by decide)), hn, hc]
  · rw [if_neg h₃]
    refine ⟨_, _, rfl, ?_⟩
    have hl : (octet 0xF0 (n / 262144)).toNat = 0xF0 + n / 262144 := toNat_octet (by omega)
    have hs : isSecond (octet 0xF0 (n / 262144)) (octet 0x80 (n / 4096 % 64)) = true := by
      rw [isSecond_iff, hl, toNat_octet (by omega)]; omega
    have hn : (0xF0 + n / 262144) % 8 * 262144 + n / 4096 % 64 * 4096 + n / 64 % 64 * 64 + n % 64
        = n := by omega
    have h : ¬ 0xF0 + n / 262144 < 128 ∧ ¬ (0xF0 + n / 262144 < 194 ∨ 245 ≤ 0xF0 + n / 262144) ∧
        ¬ 0xF0 + n / 262144 < 224 ∧ ¬ 0xF0 + n / 262144 < 240 := by omega
    simp [head, UInt8.lt_iff_toNat_lt, UInt8.le_iff_toNat_le, hl, hs, h,
      isContinuation_octet (Nat.mod_lt n (show 64 > 0 by decide)),
      isContinuation_octet (Nat.mod_lt (n / 64) (show 64 > 0 by decide)),
      low_octet (Nat.mod_lt n (show 64 > 0 by decide)),
      low_octet (Nat.mod_lt (n / 64) (show 64 > 0 by decide)),
      low_octet (Nat.mod_lt (n / 4096) (show 64 > 0 by decide)), hn, hc]

/-! ### Texts -/

theorem decodeFrom_skip (start : Nat) (taken rest : Octets) :
    decodeFrom start taken.length (taken ++ rest) = decodeFrom (start + taken.length) 0 rest := by
  induction taken generalizing start with
  | nil => rfl
  | cons b taken ih => rw [List.length_cons, List.cons_append, decodeFrom, ih]; congr 1; omega

theorem decodeFrom_encode (start : Nat) (s : List Char) : decodeFrom start 0 (encode s) = .ok s := by
  induction s generalizing start with
  | nil => rfl
  | cons c s ih =>
    obtain ⟨lead, tail, hc, hh⟩ := exists_head_encodeChar c (encode s)
    have : encode (c :: s) = lead :: (tail ++ encode s) := by
      rw [encode, List.flatMap_cons, hc]; rfl
    rw [this, decodeFrom, hh]
    simp only [Nat.add_sub_cancel]
    rw [decodeFrom_skip, ih]
    rfl

/-- What is written is read back. -/
theorem decode_encode (s : List Char) : decode (encode s) = .ok s := decodeFrom_encode 0 s

end BuildMend.Text.Utf8
