import BuildMend.Text.Utf8.Lemmas
import Mathlib

/-!
Octets that are read are the octets of their text.

* `Utf8.head_eq_scalar`: where a character is read, its octets stand.
* `Utf8.encode_of_decode`: a text that is read without a flaw has the octets it is read from.
* `Utf8.decodeLossy_append_lineFeed`: a line feed keeps the octets on its two sides apart, whatever
  they are.
* `Utf8.splitOn_decodeLossy`: the lines of a text are the texts of the lines of its octets.
-/

namespace BuildMend.Text.Utf8

/-! ### Where a character is read -/

lemma octet_eq {b : UInt8} {marker bits : Nat} (h : marker + bits = b.toNat) :
    octet marker bits = b := by
  rw [octet, h, UInt8.ofNat_toNat]

lemma low_lt (b : UInt8) : low b < 64 := Nat.mod_lt _ (by decide)

lemma octet_low {b : UInt8} (h : isContinuation b = true) : octet 0x80 (low b) = b := by
  obtain ⟨hlow, hhigh⟩ := isContinuation_iff.mp h
  refine octet_eq ?_
  rw [low]
  omega

lemma encodeChar_one {lead : UInt8} (h : lead.toNat < 0x80) :
    encodeChar (Char.ofNat lead.toNat) = [lead] := by
  have hn := Char.toNat_ofNat lead.toNat
  rw [if_pos (Or.inl (by omega))] at hn
  have hoctet : octet 0 lead.toNat = lead := octet_eq (by omega)
  rw [encodeChar, hn, if_pos h, hoctet]

lemma encodeChar_two {lead b : UInt8} (hl : 0xC2 ≤ lead.toNat) (hh : lead.toNat < 0xE0)
    (hb : isContinuation b = true) :
    encodeChar (Char.ofNat (lead.toNat % 32 * 64 + low b)) = [lead, b] := by
  have hlow := low_lt b
  have hn := Char.toNat_ofNat (lead.toNat % 32 * 64 + low b)
  rw [if_pos (Or.inl (by omega))] at hn
  have hfirst : octet 0xC0 ((lead.toNat % 32 * 64 + low b) / 64) = lead := octet_eq (by omega)
  have hsecond : (lead.toNat % 32 * 64 + low b) % 64 = low b := by omega
  rw [encodeChar, hn]
  rw [if_neg (by omega), if_pos (by omega), hfirst, hsecond, octet_low hb]

lemma encodeChar_three {lead b c : UInt8} (hl : 0xE0 ≤ lead.toNat) (hh : lead.toNat < 0xF0)
    (hb : isSecond lead b = true) (hc : isContinuation c = true) :
    encodeChar (Char.ofNat (lead.toNat % 16 * 4096 + low b * 64 + low c)) = [lead, b, c] := by
  obtain ⟨hcont, hE0, hED, -, -⟩ := isSecond_iff.mp hb
  have hlb : low b = b.toNat - 0x80 := by rw [low]; omega
  have hlc := low_lt c
  have hn := Char.toNat_ofNat (lead.toNat % 16 * 4096 + low b * 64 + low c)
  rw [if_pos (show Nat.isValidChar _ by rw [Nat.isValidChar]; omega)] at hn
  have hfirst : octet 0xE0 ((lead.toNat % 16 * 4096 + low b * 64 + low c) / 4096) = lead :=
    octet_eq (by omega)
  have hsecond : (lead.toNat % 16 * 4096 + low b * 64 + low c) / 64 % 64 = low b := by omega
  have hthird : (lead.toNat % 16 * 4096 + low b * 64 + low c) % 64 = low c := by omega
  rw [encodeChar, hn]
  rw [if_neg (by omega), if_neg (by omega), if_pos (by omega), hfirst, hsecond, hthird,
    octet_low (isContinuation_iff.mpr hcont), octet_low hc]

lemma encodeChar_four {lead b c d : UInt8} (hl : 0xF0 ≤ lead.toNat) (hh : lead.toNat < 0xF5)
    (hb : isSecond lead b = true) (hc : isContinuation c = true) (hd : isContinuation d = true) :
    encodeChar (Char.ofNat (lead.toNat % 8 * 262144 + low b * 4096 + low c * 64 + low d)) =
      [lead, b, c, d] := by
  obtain ⟨hcont, -, -, hF0, hF4⟩ := isSecond_iff.mp hb
  have hlb : low b = b.toNat - 0x80 := by rw [low]; omega
  have hlc := low_lt c
  have hld := low_lt d
  have hn := Char.toNat_ofNat (lead.toNat % 8 * 262144 + low b * 4096 + low c * 64 + low d)
  rw [if_pos (show Nat.isValidChar _ by rw [Nat.isValidChar]; omega)] at hn
  generalize hk : lead.toNat % 8 * 262144 + low b * 4096 + low c * 64 + low d = k at hn ⊢
  have hfirst : octet 0xF0 (k / 262144) = lead := octet_eq (by omega)
  have hsecond : k / 4096 % 64 = low b := by omega
  have hthird : k / 64 % 64 = low c := by omega
  have hfourth : k % 64 = low d := by omega
  rw [encodeChar, hn]
  rw [if_neg (by omega), if_neg (by omega), if_neg (by omega), hfirst, hsecond, hthird, hfourth,
    octet_low (isContinuation_iff.mpr hcont), octet_low hc, octet_low hd]

/-- Where a character is read, its octets stand. -/
theorem head_eq_scalar {lead : UInt8} {rest : Octets} {c : Char} {width : Nat}
    (h : head lead rest = .scalar c width) :
    ∃ tail later, encodeChar c = lead :: tail ∧ rest = tail ++ later ∧ width = tail.length + 1 := by
  unfold head at h
  split at h
  · -- one octet
    rename_i hone
    rw [UInt8.lt_iff_toNat_lt] at hone
    obtain ⟨rfl, rfl⟩ := Head.scalar.inj h
    exact ⟨[], rest, encodeChar_one hone, rfl, rfl⟩
  split at h
  · cases h
  rename_i hrange
  simp only [Bool.or_eq_true, decide_eq_true_eq, not_or, UInt8.lt_iff_toNat_lt,
    UInt8.le_iff_toNat_le, not_lt, not_le] at hrange
  obtain ⟨hlow, hhigh⟩ := hrange
  cases rest with
  | nil => cases h
  | cons b rest =>
    simp only at h
    split at h
    · cases h
    rename_i hb
    replace hb : isSecond lead b = true := by simpa using hb
    split at h
    · -- two octets
      rename_i htwo
      rw [UInt8.lt_iff_toNat_lt] at htwo
      obtain ⟨rfl, rfl⟩ := Head.scalar.inj h
      exact ⟨[b], rest, encodeChar_two hlow htwo (isContinuation_iff.mpr (isSecond_iff.mp hb).1),
        rfl, rfl⟩
    rename_i htwo
    rw [UInt8.lt_iff_toNat_lt, not_lt] at htwo
    cases rest with
    | nil => cases h
    | cons c rest =>
      simp only at h
      split at h
      · cases h
      rename_i hc
      replace hc : isContinuation c = true := by simpa using hc
      split at h
      · -- three octets
        rename_i hthree
        rw [UInt8.lt_iff_toNat_lt] at hthree
        obtain ⟨rfl, rfl⟩ := Head.scalar.inj h
        exact ⟨[b, c], rest, encodeChar_three htwo hthree hb hc, rfl, rfl⟩
      rename_i hthree
      rw [UInt8.lt_iff_toNat_lt, not_lt] at hthree
      cases rest with
      | nil => cases h
      | cons d rest =>
        simp only at h
        split at h
        · cases h
        rename_i hd
        replace hd : isContinuation d = true := by simpa using hd
        obtain ⟨rfl, rfl⟩ := Head.scalar.inj h
        exact ⟨[b, c, d], rest, encodeChar_four hthree hhigh hb hc hd, rfl, rfl⟩

/-! ### Texts without a flaw -/

lemma encode_of_decodeFrom {start : Nat} {s : Octets} {text : List Char}
    (h : decodeFrom start 0 s = .ok text) : encode text = s := by
  induction hn : s.length using Nat.strong_induction_on generalizing start s text with
  | _ n ih =>
    cases s with
    | nil =>
      cases h
      rfl
    | cons b rest =>
      rw [decodeFrom] at h
      cases hh : head b rest with
      | flaw f width =>
        rw [hh] at h
        cases h
      | scalar c width =>
        obtain ⟨tail, later, hc, rfl, rfl⟩ := head_eq_scalar hh
        rw [hh] at h
        simp only [Nat.add_sub_cancel] at h
        rw [decodeFrom_skip] at h
        cases hl : decodeFrom (start + 1 + tail.length) 0 later with
        | error e =>
          rw [hl] at h
          cases h
        | ok text =>
          rw [hl] at h
          cases h
          have hlater := ih later.length (by rw [← hn]; simp) hl rfl
          rw [encode, List.flatMap_cons, hc, ← encode, hlater]
          rfl

/-- A text that is read without a flaw has the octets it is read from. -/
theorem encode_of_decode {s : Octets} {text : List Char} (h : decode s = .ok text) :
    encode text = s :=
  encode_of_decodeFrom h

/-! ### Texts with flaws -/

/-- The number of octets that are taken at the front of an octet string. -/
def Head.width : Head → Nat
  | .scalar _ width => width
  | .flaw _ width => width

/-- The character that stands for the front of an octet string. -/
def Head.char : Head → Char
  | .scalar c _ => c
  | .flaw _ _ => replacement

lemma decodeLossyFrom_cons (b : UInt8) (rest : Octets) :
    decodeLossyFrom 0 (b :: rest) =
      (head b rest).char :: decodeLossyFrom ((head b rest).width - 1) rest := by
  rw [decodeLossyFrom]
  cases head b rest <;> rfl

/-- A flaw stays one when it is followed by an octet that continues no sequence. -/
lemma head_append_of_flaw {lead : UInt8} {rest : Octets} {f : Flaw} {width : Nat}
    (h : head lead rest = .flaw f width) {x : UInt8} (hx : isContinuation x = false)
    (later : Octets) :
    width ≤ rest.length + 1 ∧ ∃ f', head lead (rest ++ x :: later) = .flaw f' width := by
  have hsecond : isSecond lead x = false := by simp [isSecond, hx]
  unfold head at h ⊢
  split at h
  · cases h
  rename_i hone
  rw [if_neg hone]
  split at h
  · rename_i hrange
    obtain ⟨rfl, rfl⟩ := Head.flaw.inj h
    rw [if_pos hrange]
    exact ⟨by omega, _, rfl⟩
  rename_i hrange
  rw [if_neg hrange]
  cases rest with
  | nil =>
    obtain ⟨rfl, rfl⟩ := Head.flaw.inj h
    exact ⟨by simp, .invalidContinuation, by simp [hsecond]⟩
  | cons b rest =>
    simp only [List.cons_append] at h ⊢
    split at h
    · rename_i hb
      obtain ⟨rfl, rfl⟩ := Head.flaw.inj h
      rw [if_pos hb]
      exact ⟨by omega, _, rfl⟩
    rename_i hb
    rw [if_neg hb]
    split at h
    · cases h
    rename_i htwo
    rw [if_neg htwo]
    cases rest with
    | nil =>
      obtain ⟨rfl, rfl⟩ := Head.flaw.inj h
      exact ⟨by simp, .invalidContinuation, by simp [hx]⟩
    | cons c rest =>
      simp only [List.cons_append] at h ⊢
      split at h
      · rename_i hc
        obtain ⟨rfl, rfl⟩ := Head.flaw.inj h
        rw [if_pos hc]
        exact ⟨by simp, _, rfl⟩
      rename_i hc
      rw [if_neg hc]
      split at h
      · cases h
      rename_i hthree
      rw [if_neg hthree]
      cases rest with
      | nil =>
        obtain ⟨rfl, rfl⟩ := Head.flaw.inj h
        exact ⟨by simp, .invalidContinuation, by simp [hx]⟩
      | cons d rest =>
        simp only [List.cons_append] at h ⊢
        split at h
        · rename_i hd
          obtain ⟨rfl, rfl⟩ := Head.flaw.inj h
          rw [if_pos hd]
          exact ⟨by simp, _, rfl⟩
        · cases h

/-- What is read at the front of an octet string is read there when an octet follows that continues no
sequence. -/
lemma head_append (lead : UInt8) (rest : Octets) {x : UInt8} (hx : isContinuation x = false)
    (later : Octets) :
    (head lead (rest ++ x :: later)).char = (head lead rest).char ∧
      (head lead (rest ++ x :: later)).width = (head lead rest).width ∧
        (head lead rest).width ≤ rest.length + 1 := by
  cases hh : head lead rest with
  | scalar c width =>
    obtain ⟨tail, behind, hc, rfl, rfl⟩ := head_eq_scalar hh
    obtain ⟨lead', tail', hc', hread⟩ := exists_head_encodeChar c (behind ++ x :: later)
    obtain ⟨rfl, rfl⟩ := List.cons.inj (hc.symm.trans hc')
    rw [List.append_assoc, hread]
    exact ⟨rfl, rfl, by simp [Head.width]⟩
  | flaw f width =>
    obtain ⟨hwidth, f', hread⟩ := head_append_of_flaw hh hx later
    rw [hread]
    exact ⟨rfl, rfl, hwidth⟩

lemma head_lineFeed (rest : Octets) : head 10 rest = .scalar '\n' 1 := rfl

lemma decodeLossyFrom_append_lineFeed {skip : Nat} {a : Octets} (h : skip ≤ a.length)
    (b : Octets) : decodeLossyFrom skip (a ++ 10 :: b) =
      decodeLossyFrom skip a ++ '\n' :: decodeLossyFrom 0 b := by
  induction a generalizing skip with
  | nil =>
    obtain rfl : skip = 0 := by simpa using h
    rw [List.nil_append, decodeLossyFrom_cons, head_lineFeed]
    rfl
  | cons x a ih =>
    cases skip with
    | succ skip => exact ih (by simpa using h)
    | zero =>
      obtain ⟨hchar, hwidth, hle⟩ := @head_append x a 10 rfl b
      have htail := @ih ((head x a).width - 1) (by omega)
      rw [List.cons_append, decodeLossyFrom_cons, decodeLossyFrom_cons, hchar, hwidth, htail,
        List.cons_append]

/-- A line feed keeps the octets on its two sides apart, whatever they are. -/
theorem decodeLossy_append_lineFeed (a b : Octets) :
    decodeLossy (a ++ 10 :: b) = decodeLossy a ++ '\n' :: decodeLossy b :=
  decodeLossyFrom_append_lineFeed (Nat.zero_le _) b

/-- Only a line feed is read as one. -/
lemma lineFeed_not_mem_decodeLossyFrom {skip : Nat} {s : Octets} (h : (10 : UInt8) ∉ s) :
    '\n' ∉ decodeLossyFrom skip s := by
  induction s generalizing skip with
  | nil => cases skip <;> simp [decodeLossyFrom]
  | cons b s ih =>
    obtain ⟨hb, hs⟩ : 10 ≠ b ∧ (10 : UInt8) ∉ s := by simpa using h
    cases skip with
    | succ skip => exact ih hs
    | zero =>
      have hchar : '\n' ≠ (head b s).char := by
        intro hc
        cases hh : head b s with
        | flaw f width =>
          rw [hh] at hc
          cases hc
        | scalar c width =>
          rw [hh] at hc
          obtain ⟨tail, -, hoctets, -⟩ := head_eq_scalar hh
          obtain rfl : '\n' = c := hc
          exact hb (List.cons.inj hoctets).1
      rw [decodeLossyFrom_cons, List.mem_cons, not_or]
      exact ⟨hchar, ih hs⟩

lemma decodeLossy_eq_nil_iff {s : Octets} : decodeLossy s = [] ↔ s = [] := by
  cases s with
  | nil => simp [decodeLossy, decodeLossyFrom]
  | cons b s => simp [decodeLossy, decodeLossyFrom_cons]

/-- The lines of a text are the texts of the lines of its octets. -/
theorem splitOn_decodeLossy (s : Octets) :
    (decodeLossy s).splitOn '\n' = (s.splitOn 10).map decodeLossy := by
  induction hn : s.length using Nat.strong_induction_on generalizing s with
  | _ n ih =>
    by_cases hs : (10 : UInt8) ∈ s
    · obtain ⟨a, b, rfl, ha⟩ := List.eq_append_cons_of_mem hs
      have hb := ih b.length (by rw [← hn]; simp; omega) b rfl
      have htext : '\n' ∉ decodeLossy a := lineFeed_not_mem_decodeLossyFrom ha
      rw [decodeLossy_append_lineFeed, List.splitOn_append_cons_self_of_not_mem htext,
        List.splitOn_append_cons_self_of_not_mem ha, List.map_cons, hb]
    · have htext : '\n' ∉ decodeLossy s := lineFeed_not_mem_decodeLossyFrom hs
      rw [List.splitOn_eq_singleton htext, List.splitOn_eq_singleton hs, List.map_singleton]

end BuildMend.Text.Utf8
