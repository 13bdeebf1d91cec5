import DataRepository.Json.Parser
import DataRepository.Proofs.Json.Measures
import DataRepository.Proofs.Steps

/-! # What a document costs to spell

No reader makes more of a text than the text holds: what it reads and the bytes
it leaves together weigh no more than the bytes that it was given. A document
that is read is also as deep as the levels allow at most, and in normal form. -/
namespace DataRepository.Json

open Text (utf8 decodeChar?)

/-! ## Characters -/

theorem charWeight_of_ascii : ∀ n < 128,
    charWeight (Char.ofNat n) ≤ 6 ∧
      (32 ≤ n → n ≠ 34 → n ≠ 92 → charWeight (Char.ofNat n) = 1) := by
  decide +kernel

theorem charWeight_of_le {c : Char} (h : 128 ≤ c.toNat) : charWeight c = c.utf8Size := by
  have hne : ∀ d : Char, d.toNat < 128 → (c == d) = false := by
    intro d hd
    rw [beq_eq_false_iff_ne]
    rintro rfl
    omega
  have hescaped : escaped c = [c] := by
    unfold escaped
    rw [hne '"' (by decide), hne '\\' (by decide), hne '\x08' (by decide), hne '\x0c' (by decide),
      hne '\n' (by decide), hne '\r' (by decide), hne '\t' (by decide)]
    simp only [Bool.false_eq_true, if_false]
    rw [if_neg (by omega)]
  rw [charWeight, hescaped, length_utf8_cons, length_utf8_nil, Nat.add_zero]

theorem charWeight_le (c : Char) : charWeight c ≤ 6 := by
  rcases Nat.lt_or_ge c.toNat 128 with h | h
  · simpa [Char.ofNat_toNat] using (charWeight_of_ascii c.toNat h).1
  · rw [charWeight_of_le h]
    exact Nat.le_trans c.utf8Size_le_four (by decide)

theorem lt_of_continuation? {b : UInt8} {n : Nat} (h : Text.continuation? b = some n) : n < 64 := by
  unfold Text.continuation? at h
  split at h
  · rename_i hb
    have hle : b.toNat ≤ 191 := UInt8.le_iff_toNat_le.mp hb.2
    obtain rfl : b.toNat - 128 = n := Option.some.inj h
    clear h hb
    omega
  · cases h

theorem utf8Size_le {c : Char} :
    (c.toNat < 0x800 → c.utf8Size ≤ 2) ∧ (c.toNat < 0x10000 → c.utf8Size ≤ 3) := by
  unfold Char.utf8Size Char.toNat
  simp only [UInt32.le_iff_toNat_le, UInt32.toNat_ofNatLT]
  split
  · omega
  · split
    · omega
    · split <;> omega

theorem toNat_ofNat {n : Nat} (h : n.isValidChar) : (Char.ofNat n).toNat = n := by
  rw [Char.ofNat, dif_pos h]
  rfl

/-- A character beyond ASCII weighs no more than the bytes that it was read from. -/
theorem charWeight_of_scalar? (bytes : Nat) {least code : Nat} {c : Char}
    (h : Text.scalar? least code = some c) (hleast : 128 ≤ least)
    (hbytes : (bytes = 2 ∧ code < 0x800) ∨ (bytes = 3 ∧ code < 0x10000) ∨ bytes = 4) :
    charWeight c ≤ bytes := by
  unfold Text.scalar? at h
  split at h
  · rename_i hcode
    cases h
    have hnat : (Char.ofNat code).toNat = code := toNat_ofNat hcode.2
    rw [charWeight_of_le (by omega)]
    rcases hbytes with ⟨rfl, hlt⟩ | ⟨rfl, hlt⟩ | rfl
    · exact utf8Size_le.1 (by omega)
    · exact utf8Size_le.2 (by omega)
    · exact Char.utf8Size_le_four _
  · cases h

/-- A character weighs no more than the bytes that it was read from, unless a string cannot hold it
without an escape. -/
theorem charWeight_of_decodeChar? {b : UInt8} {bs rest : Bytes} {c : Char}
    (h : decodeChar? (b :: bs) = some (c, rest)) (hquote : is '"' b = false)
    (hslash : is '\\' b = false) (hcontrol : ¬ b < 0x20) :
    charWeight c + rest.length ≤ bs.length + 1 := by
  unfold decodeChar? at h
  dsimp only at h
  split at h
  · rename_i hascii
    simp only [Option.some.injEq, Prod.mk.injEq] at h
    obtain ⟨rfl, rfl⟩ := h
    have hone : charWeight (Char.ofNat b.toNat) = 1 := by
      refine (charWeight_of_ascii b.toNat (UInt8.lt_iff_toNat_lt.mp hascii)).2 ?_ ?_ ?_
      · exact Nat.le_of_not_lt fun hlt => hcontrol (UInt8.lt_iff_toNat_lt.mpr hlt)
      · rintro he
        rw [show b = 34 from UInt8.toNat_inj.mp he] at hquote
        cases hquote
      · rintro he
        rw [show b = 92 from UInt8.toNat_inj.mp he] at hslash
        cases hslash
    omega
  · split at h
    · rename_i hlead
      split at h
      · rename_i b₁ r
        simp only [Option.bind_eq_bind, Option.pure_def, Option.bind_eq_some_iff, Option.some.injEq,
          Prod.mk.injEq] at h
        obtain ⟨x, hx, c', hc', rfl, rfl⟩ := h
        have hx := lt_of_continuation? hx
        have hb : b.toNat < 224 := UInt8.lt_iff_toNat_lt.mp hlead.2
        have := charWeight_of_scalar? 2 hc' (by decide) (.inl ⟨rfl, by omega⟩)
        simp only [List.length_cons]
        omega
      · cases h
    · split at h
      · rename_i hlead
        split at h
        · rename_i b₁ b₂ r
          simp only [Option.bind_eq_bind, Option.pure_def, Option.bind_eq_some_iff,
            Option.some.injEq, Prod.mk.injEq] at h
          obtain ⟨x, hx, y, hy, c', hc', rfl, rfl⟩ := h
          have hx := lt_of_continuation? hx
          have hy := lt_of_continuation? hy
          have hb : b.toNat < 240 := UInt8.lt_iff_toNat_lt.mp hlead.2
          have := charWeight_of_scalar? 3 hc' (by decide) (.inr (.inl ⟨rfl, by omega⟩))
          simp only [List.length_cons]
          omega
        · cases h
      · split at h
        · split at h
          · rename_i b₁ b₂ b₃ r
            simp only [Option.bind_eq_bind, Option.pure_def, Option.bind_eq_some_iff,
              Option.some.injEq, Prod.mk.injEq] at h
            obtain ⟨x, hx, y, hy, z, hz, c', hc', rfl, rfl⟩ := h
            have := charWeight_of_scalar? 4 hc' (by decide) (.inr (.inr rfl))
            simp only [List.length_cons]
            omega
          · cases h
        · cases h

/-! ## Strings -/

theorem length_of_hexQuad {bs rest : Bytes} {n : Nat} (h : hexQuad bs = .ok (n, rest)) :
    rest.length + 4 = bs.length := by
  unfold hexQuad at h
  split at h
  · split at h
    · cases h; rfl
    · cases h
  · cases h

theorem length_of_expectInPair {c : Char} {bs rest : Bytes} (h : expectInPair c bs = .ok rest) :
    rest.length + 1 = bs.length := by
  unfold expectInPair at h
  split at h
  · cases h
  · split at h
    · cases h; rfl
    · cases h

theorem length_of_unicodeEscape {bs rest : Bytes} {c : Char} (h : unicodeEscape bs = .ok (c, rest)) :
    rest.length + 4 ≤ bs.length := by
  unfold unicodeEscape at h
  obtain ⟨⟨n, r₁⟩, h₁, h⟩ := exists_of_bind_eq_ok h
  have hfirst := length_of_hexQuad h₁
  dsimp only at h
  split at h
  · cases h
  · split at h
    · obtain ⟨r₂, h₂, h⟩ := exists_of_bind_eq_ok h
      obtain ⟨r₃, h₃, h⟩ := exists_of_bind_eq_ok h
      obtain ⟨⟨m, r₄⟩, h₄, h⟩ := exists_of_bind_eq_ok h
      have hslash := length_of_expectInPair h₂
      have hletter := length_of_expectInPair h₃
      have hsecond := length_of_hexQuad h₄
      dsimp only at h
      split at h
      · simp only [pure, Except.pure, Except.ok.injEq, Prod.mk.injEq] at h
        rw [← h.2]
        omega
      · cases h
    · cases h
      omega

theorem charWeight_of_shortEscape? {b : UInt8} {c : Char} (h : shortEscape? b = some c) :
    charWeight c ≤ 2 := by
  unfold shortEscape? at h
  repeat' split at h
  all_goals cases h
  all_goals decide

theorem charWeight_of_escape {bs rest : Bytes} {c : Char} (h : escape bs = .ok (c, rest)) :
    charWeight c + rest.length ≤ bs.length + 1 := by
  unfold escape at h
  split at h
  · cases h
  · split at h
    · rename_i hc
      cases h
      have := charWeight_of_shortEscape? hc
      simp only [List.length_cons]
      omega
    · split at h
      · have hlength := length_of_unicodeEscape h
        have := charWeight_le c
        simp only [List.length_cons]
        omega
      · cases h

theorem weight_of_stringFrom {start bs rest : Bytes} {count : Nat} {done : List Char}
    {bad : Option Nat} {s : String} (h : stringFrom start count done bad bs = .ok (s, rest)) :
    stringWeight s + rest.length ≤ bs.length + innerWeight done + 1 := by
  induction count generalizing done bad bs with
  | zero => cases bs <;> cases h
  | succ count ih =>
    cases bs with
    | nil => cases h
    | cons b bs =>
      simp only [stringFrom] at h
      split at h
      · split at h
        · cases h
        · cases h
          simp only [stringWeight, String.toList_ofList, innerWeight_reverse, List.length_cons]
          omega
      · rename_i hquote
        split at h
        · split at h
          · rename_i c rest' hc
            have hspent := charWeight_of_escape hc
            have ih := ih h
            rw [innerWeight_cons] at ih
            simp only [List.length_cons]
            omega
          · cases h
        · rename_i hslash
          split at h
          · cases h
          · rename_i hcontrol
            split at h
            · rename_i c rest' hc
              have hspent := charWeight_of_decodeChar? hc (by simpa using hquote)
                (by simpa using hslash) hcontrol
              have ih := ih h
              rw [innerWeight_cons] at ih
              simp only [List.length_cons]
              omega
            · have ih := ih h
              simp only [List.length_cons]
              omega

theorem weight_of_stringText {bs rest : Bytes} {s : String} (h : stringText bs = .ok (s, rest)) :
    stringWeight s + rest.length ≤ bs.length + 1 := by
  have hweight := weight_of_stringFrom h
  simpa [innerWeight] using hweight

/-! ## Numbers -/

theorem lt_of_digit? {b : UInt8} {d : Nat} (h : digit? b = some d) : d < 10 := by
  unfold digit? at h
  split at h
  · rename_i hb
    have hle : b.toNat ≤ 57 := UInt8.le_iff_toNat_le.mp hb.2
    obtain rfl : b.toNat - 48 = d := Option.some.inj h
    clear h hb
    omega
  · cases h

theorem length_toDigits_append {s d : Nat} (hd : d < 10) :
    (Nat.toDigits 10 (s * 10 + d)).length ≤ (Nat.toDigits 10 s).length + 1 := by
  have hs : s < 10 ^ (Nat.toDigits 10 s).length :=
    (Nat.length_toDigits_le_iff (by decide) Nat.length_toDigits_pos).mp (Nat.le_refl _)
  rw [Nat.length_toDigits_le_iff (by decide) (by omega), Nat.pow_succ]
  omega

theorem length_toDigits_digit {d : Nat} (hd : d < 10) : (Nat.toDigits 10 d).length = 1 := by
  rw [Nat.toDigits_of_lt_base hd, List.length_singleton]

theorem length_skipDigits_le (bs : Bytes) : (skipDigits bs).length ≤ bs.length :=
  (List.dropWhile_suffix _).length_le

theorem length_gather (s t : Nat) (bs : Bytes) :
    (gather s t bs).2.2.length + (Nat.toDigits 10 (gather s t bs).1).length ≤
      bs.length + (Nat.toDigits 10 s).length ∧ (gather s t bs).2.2.length ≤ bs.length := by
  induction bs generalizing s t with
  | nil => simp [gather]
  | cons b rest ih =>
    unfold gather
    split
    · rename_i d hd
      split
      · have hdigit := length_toDigits_append (s := s) (lt_of_digit? hd)
        obtain ⟨hih, hle⟩ := ih (s * 10 + d) (t + 1)
        simp only [List.length_cons]
        omega
      · simp
    · simp

theorem rest_of_double {positive : Bool} {s : Nat} {e : Int} {bs rest : Bytes} {d : Double}
    (h : double positive s e bs = .ok (d, rest)) : rest = bs := by
  unfold double at h
  split at h
  · cases h; rfl
  · cases h

theorem length_gatherExponent (e : Nat) (bs : Bytes) : (gatherExponent e bs).2.length ≤ bs.length := by
  induction bs generalizing e with
  | nil => simp [gatherExponent]
  | cons b rest ih =>
    unfold gatherExponent
    split
    · split
      · exact Nat.le_trans (ih _) (by simp)
      · simp
    · simp

section Parts

variable {positive : Bool} {s : Nat} {power : Int} {bs rest : Bytes} {d : Double}

theorem length_of_exponentPart (h : exponentPart positive s power bs = .ok (d, rest)) :
    rest.length ≤ bs.length := by
  unfold exponentPart at h
  split at h
  rename_i up bs' hsign
  have hlength : bs'.length ≤ bs.length := by
    split at hsign
    · split at hsign
      · cases hsign; simp
      · split at hsign <;> cases hsign <;> simp
    · cases hsign; simp
  refine Nat.le_trans ?_ hlength
  split at h
  · cases h
  · rename_i b rest'
    split at h
    · cases h
    · rename_i e hdigit
      have hexponent := length_gatherExponent e rest'
      split at h
      · rename_i left heq
        have hleft : left.length ≤ rest'.length := by simpa [heq] using hexponent
        rw [rest_of_double h, List.length_cons]
        exact Nat.le_succ_of_le hleft
      · rename_i left heq
        have hleft : left.length ≤ rest'.length := by simpa [heq] using hexponent
        split at h
        · cases h
        · cases h
          have hskip := length_skipDigits_le left
          simp only [List.length_cons]
          omega

theorem length_of_afterDigits (h : afterDigits positive s power bs = .ok (d, rest)) :
    rest.length ≤ bs.length := by
  unfold afterDigits at h
  split at h
  · split at h
    · exact Nat.le_trans (length_of_exponentPart h) (by simp)
    · exact rest_of_double h ▸ Nat.le_refl _
  · exact rest_of_double h ▸ Nat.le_refl _

theorem length_of_decimalPart (h : decimalPart positive s power bs = .ok (d, rest)) :
    rest.length ≤ bs.length := by
  unfold decimalPart at h
  have hgather := (length_gather s 0 bs).2
  dsimp only at h
  split at h
  · exact Nat.le_trans (length_of_afterDigits h) (Nat.le_trans (length_skipDigits_le _) hgather)
  · split at h
    · split at h <;> cases h
    · exact Nat.le_trans (length_of_afterDigits h) hgather

theorem length_of_afterInteger (h : afterInteger positive s power bs = .ok (d, rest)) :
    rest.length ≤ bs.length := by
  unfold afterInteger at h
  split at h
  · split at h
    · exact Nat.le_trans (length_of_decimalPart h) (by simp)
    · exact length_of_afterDigits h
  · exact length_of_afterDigits h

end Parts

theorem value_of_ofInt? {v : Int} {w : Whole} (h : Whole.ofInt? v = some w) : w.value = v := by
  unfold Whole.ofInt? at h
  split at h
  · exact congrArg Whole.value (Option.some.inj h).symm
  · cases h

theorem length_chars_of_ofInt? {positive : Bool} {s : Nat} {w : Whole}
    (h : Whole.ofInt? (if positive then (s : Int) else -s) = some w) :
    w.chars.length ≤ (Nat.toDigits 10 s).length + (if positive then 0 else 1) := by
  unfold Whole.chars
  rw [value_of_ofInt? h]
  cases positive with
  | true =>
    simp only [if_true, Int.natAbs_natCast]
    rw [if_neg (by omega)]
    exact Nat.le_add_right _ _
  | false =>
    simp only [Bool.false_eq_true, if_false, Int.natAbs_neg, Int.natAbs_natCast]
    split <;> simp

theorem weight_of_afterWhole {positive : Bool} {s : Nat} {bs rest : Bytes} {n : Number}
    (h : afterWhole positive s bs = .ok (n, rest)) :
    (Json.number n).weight + rest.length ≤
      bs.length + (Nat.toDigits 10 s).length + (if positive then 0 else 1) := by
  have hpos : 0 < (Nat.toDigits 10 s).length := Nat.length_toDigits_pos
  unfold afterWhole at h
  split at h
  · cases hd : afterInteger positive s 0 bs with
    | error f => rw [hd] at h; cases h
    | ok scanned =>
      obtain ⟨d, left⟩ := scanned
      rw [hd] at h
      cases h
      have hlength := length_of_afterInteger hd
      simp only [weight, weigh]
      omega
  · dsimp only at h
    split at h
    · cases h
      simp only [weight, weigh]
      omega
    · rename_i hzero
      split at h
      · rename_i w hw
        cases h
        have hchars := length_chars_of_ofInt? hw
        simp only [weight, weigh]
        omega
      · cases h
        simp only [weight, weigh]
        omega

theorem weight_of_numberText {positive : Bool} {bs rest : Bytes} {n : Number}
    (h : numberText positive bs = .ok (n, rest)) :
    (Json.number n).weight + rest.length ≤ bs.length + (if positive then 0 else 1) := by
  unfold numberText at h
  split at h
  · cases h
  · rename_i b bs
    split at h
    · cases h
    · split at h
      · cases h
      · have hweight := weight_of_afterWhole h
        rw [length_toDigits_digit (by decide)] at hweight
        simpa using hweight
    · rename_i d hd hdigit
      have hone := length_toDigits_digit (lt_of_digit? hdigit)
      have hgather := length_gather d 0 bs
      generalize gather d 0 bs = gathered at h hgather
      obtain ⟨s, taken, left⟩ := gathered
      dsimp only at h hgather
      split at h
      · cases hd : afterInteger positive s (left.length - (skipDigits left).length : Nat)
            (skipDigits left) with
        | error f => rw [hd] at h; cases h
        | ok scanned =>
          obtain ⟨x, left'⟩ := scanned
          rw [hd] at h
          cases h
          have hlength := length_of_afterInteger hd
          have hskip := length_skipDigits_le left
          simp only [weight, weigh, List.length_cons]
          omega
      · have hweight := weight_of_afterWhole h
        simp only [List.length_cons]
        omega

end DataRepository.Json
