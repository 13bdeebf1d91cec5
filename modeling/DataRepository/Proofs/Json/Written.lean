import DataRepository.Json.Parser
import DataRepository.Json.Printer
import DataRepository.Proofs.Text.Numerals
import DataRepository.Proofs.Text.Utf8

/-! # Reading what is written

A string is read back from its text between quotes, whatever its characters are, and a
natural number from its decimal digits; both leave the bytes that follow. -/
namespace DataRepository.Json

open Text (utf8 utf8_cons utf8_append utf8EncodeChar_ascii length_le_utf8)

/-! ## Strings -/

theorem hexDigit?_digitChar : ∀ m < 16,
    (Nat.digitChar m).toNat < 128 ∧ hexDigit? (UInt8.ofNat (Nat.digitChar m).toNat) = some m := by
  decide

theorem utf8_ascii {c : Char} (h : c.toNat < 128) (cs : List Char) :
    utf8 (c :: cs) = UInt8.ofNat c.toNat :: utf8 cs := by
  rw [utf8_cons, utf8EncodeChar_ascii h]
  rfl

theorem hexQuad_pair {n : Nat} (h : n < 256) (rest : Bytes) :
    hexQuad (utf8 ('0' :: '0' :: Text.Hexadecimal.pair n) ++ rest) = .ok (n, rest) := by
  obtain ⟨hhigh, hhigh'⟩ := hexDigit?_digitChar (n / 16) (by omega)
  obtain ⟨hlow, hlow'⟩ := hexDigit?_digitChar (n % 16) (by omega)
  have hzero : hexDigit? (UInt8.ofNat '0'.toNat) = some 0 := by decide
  have hsum : ((0 * 16 + 0) * 16 + n / 16) * 16 + n % 16 = n := by omega
  rw [Text.Hexadecimal.pair, utf8_ascii (by decide), utf8_ascii (by decide), utf8_ascii hhigh,
    utf8_ascii hlow]
  simp only [List.cons_append, hexQuad, hzero, hhigh', hlow', hsum]
  rfl

theorem unicodeEscape_pair {c : Char} (h : c.toNat < 0x20) (rest : Bytes) :
    unicodeEscape (utf8 ('0' :: '0' :: Text.Hexadecimal.pair c.toNat) ++ rest) = .ok (c, rest) := by
  have htrailing : isTrailing c.toNat = false := by simp [isTrailing]; omega
  have hleading : isLeading c.toNat = false := by simp [isLeading]; omega
  rw [unicodeEscape, hexQuad_pair (by omega)]
  simp only [bind, Except.bind, htrailing, hleading, Bool.false_eq_true, if_false, Char.ofNat_toNat]
  rfl

/-- A character that is written as it is, neither quote nor backslash nor control character. -/
structure Literal (c : Char) : Prop where
  quote : c ≠ '"'
  backslash : c ≠ '\\'
  printable : 0x20 ≤ c.toNat

theorem Literal.exists_lead {c : Char} (h : Literal c) : ∃ b bs, String.utf8EncodeChar c = b :: bs ∧
    is '"' b = false ∧ is '\\' b = false ∧ ¬ b < 0x20 := by
  have hbyte : ∀ b : UInt8, b ≠ 34 → b ≠ 92 → ¬ b < 0x20 →
      is '"' b = false ∧ is '\\' b = false ∧ ¬ b < 0x20 := by
    intro b hquote hbackslash hcontrol
    exact ⟨beq_eq_false_iff_ne.mpr hquote, beq_eq_false_iff_ne.mpr hbackslash, hcontrol⟩
  rcases Nat.lt_or_ge c.toNat 128 with hascii | hbeyond
  · have hnat := Text.toNat_byte (n := c.toNat) (by omega)
    refine ⟨_, _, utf8EncodeChar_ascii hascii, hbyte _ ?_ ?_ ?_⟩
    · intro he
      rw [← UInt8.toNat_inj, hnat] at he
      exact h.quote (Char.toNat_inj.mp he)
    · intro he
      rw [← UInt8.toNat_inj, hnat] at he
      exact h.backslash (Char.toNat_inj.mp he)
    · rw [UInt8.lt_iff_toNat_lt, hnat]
      exact Nat.not_lt.mpr h.printable
  · obtain ⟨b, bs, hbs, hb⟩ := Text.exists_lead hbeyond
    have hb : 128 ≤ b.toNat := UInt8.le_iff_toNat_le.mp hb
    refine ⟨b, bs, hbs, hbyte b ?_ ?_ ?_⟩
    · rintro rfl
      exact absurd hb (by decide)
    · rintro rfl
      exact absurd hb (by decide)
    · rw [UInt8.lt_iff_toNat_lt]
      exact Nat.not_lt.mpr (Nat.le_trans (by decide) hb)

/-- One character of a string is read off the front. -/
theorem stringFrom_escaped (start : Bytes) (count : Nat) (done : List Char) (c : Char) (rest : Bytes) :
    stringFrom start (count + 1) done none (utf8 (escaped c) ++ rest) =
      stringFrom start count (c :: done) none rest := by
  have hshort : ∀ d e : Char, escape (utf8 [e] ++ rest) = .ok (d, rest) →
      stringFrom start (count + 1) done none (utf8 ['\\', e] ++ rest) =
        stringFrom start count (d :: done) none rest := by
    intro d e hescape
    rw [utf8_ascii (by decide), List.cons_append, stringFrom]
    simp only [hescape]
    rfl
  unfold escaped
  iterate 7
    split
    · rename_i h
      obtain rfl := beq_iff_eq.mp h
      exact hshort _ _ rfl
  split
  · rename_i h
    have hescape : escape (utf8 ('u' :: '0' :: '0' :: Text.Hexadecimal.pair c.toNat) ++ rest) =
        .ok (c, rest) := by
      rw [utf8_ascii (by decide)]
      exact unicodeEscape_pair h rest
    rw [List.cons_append, utf8_ascii (by decide), List.cons_append, stringFrom]
    simp only [List.cons_append, List.nil_append, hescape]
    rfl
  · rename_i hquote hbackslash _ _ _ _ _ hcontrol
    have hliteral : Literal c :=
      ⟨fun h => hquote (beq_iff_eq.mpr h), fun h => hbackslash (beq_iff_eq.mpr h),
        Nat.le_of_not_lt hcontrol⟩
    obtain ⟨b, bs, hbs, hquote, hbackslash, hcontrol⟩ := hliteral.exists_lead
    have hdecode := Text.decodeChar?_append c rest
    rw [hbs, List.cons_append] at hdecode
    rw [utf8_cons, hbs]
    simp only [utf8, List.flatMap_nil, List.append_nil, List.cons_append, stringFrom, hquote,
      hbackslash, hcontrol, Bool.false_eq_true, if_false, hdecode, Option.map_none]

theorem stringFrom_written (start : Bytes) (cs : List Char) {count : Nat} (hcount : cs.length < count)
    (done : List Char) (rest : Bytes) :
    stringFrom start count done none (utf8 (cs.flatMap escaped ++ ['"']) ++ rest) =
      .ok (String.ofList (done.reverse ++ cs), rest) := by
  induction cs generalizing count done with
  | nil =>
    obtain ⟨count, rfl⟩ : ∃ n, count = n + 1 := ⟨count - 1, by simp at hcount; omega⟩
    rw [List.append_nil]
    rfl
  | cons c cs ih =>
    obtain ⟨count, rfl⟩ : ∃ n, count = n + 1 := ⟨count - 1, by simp at hcount; omega⟩
    have hrest : cs.length < count := by simpa using hcount
    rw [List.flatMap_cons, List.append_assoc, utf8_append, List.append_assoc, stringFrom_escaped,
      ih hrest]
    simp

theorem length_le_escaped (cs : List Char) : cs.length ≤ (cs.flatMap escaped).length := by
  have hone : ∀ c, 1 ≤ (escaped c).length := by
    intro c
    unfold escaped
    repeat' split
    all_goals simp
  induction cs with
  | nil => exact Nat.le_refl 0
  | cons c cs ih =>
    have hc := hone c
    rw [List.flatMap_cons, List.length_append, List.length_cons]
    omega

/-- **A string is read back from its text.** -/
theorem stringText_written (s : String) (rest : Bytes) :
    stringText (utf8 (s.toList.flatMap escaped ++ ['"']) ++ rest) = .ok (s, rest) := by
  have hcount : s.toList.length <
      (utf8 (s.toList.flatMap escaped ++ ['"']) ++ rest).length + 1 := by
    have hescaped := length_le_escaped s.toList
    have hbytes := length_le_utf8 (s.toList.flatMap escaped)
    rw [utf8_append, List.length_append, List.length_append]
    omega
  rw [stringText, stringFrom_written _ _ hcount, List.reverse_nil, List.nil_append,
    String.ofList_toList]

theorem utf8_stringChars (s : String) :
    utf8 (stringChars s) = UInt8.ofNat '"'.toNat :: utf8 (s.toList.flatMap escaped ++ ['"']) :=
  utf8_ascii (by decide) _

theorem memberName_written (name : String) (rest : Bytes) :
    memberName (utf8 (stringChars name) ++ rest) = .ok (name, rest) := by
  rw [utf8_stringChars, List.cons_append]
  exact stringText_written name rest

/-! ## Natural numbers -/

theorem toNat_of_isDigit {c : Char} (h : c.isDigit = true) : 48 ≤ c.toNat ∧ c.toNat ≤ 57 := by
  simp only [Char.isDigit, Bool.and_eq_true, decide_eq_true_eq, ge_iff_le,
    UInt32.le_iff_toNat_le] at h
  exact h

theorem digit?_of_isDigit {c : Char} (h : c.isDigit = true) :
    c.toNat < 128 ∧ c.toNat - 48 < 10 ∧ digit? (UInt8.ofNat c.toNat) = some (c.toNat - 48) := by
  have hrange := toNat_of_isDigit h
  have hall : ∀ n < 58, 48 ≤ n → digit? (UInt8.ofNat n) = some (n - 48) := by decide
  exact ⟨by omega, by omega, hall c.toNat (by omega) hrange.1⟩

theorem le_ofDigitChars (cs : List Char) (s : Nat) : s ≤ Nat.ofDigitChars 10 cs s := by
  induction cs generalizing s with
  | nil => exact Nat.le_refl s
  | cons c cs ih =>
    rw [Nat.ofDigitChars_cons]
    exact Nat.le_trans (by omega) (ih _)

/-- Digits are gathered up to the end of a number that fits. -/
theorem gather_digits {cs : List Char} (hcs : ∀ c ∈ cs, c.isDigit = true) {s : Nat} (taken : Nat)
    (hsize : Nat.ofDigitChars 10 cs s < UInt64.size) {rest : Bytes}
    (hrest : startsWithDigit rest = false) :
    gather s taken (utf8 cs ++ rest) = (Nat.ofDigitChars 10 cs s, taken + cs.length, rest) := by
  induction cs generalizing s taken with
  | nil =>
    cases rest with
    | nil => rfl
    | cons b bs =>
      have hdigit : digit? b = none := by
        simp only [startsWithDigit, isDigit, Bool.and_eq_false_iff, decide_eq_false_iff_not] at hrest
        exact if_neg fun h => hrest.elim (absurd h.1) (absurd h.2)
      simp only [utf8, List.flatMap_nil, List.nil_append, gather, hdigit]
      rfl
  | cons c cs ih =>
    obtain ⟨hc, hcs⟩ := List.forall_mem_cons.mp hcs
    obtain ⟨hascii, -, hdigit⟩ := digit?_of_isDigit hc
    have hvalue : Nat.ofDigitChars 10 (c :: cs) s =
        Nat.ofDigitChars 10 cs (s * 10 + (c.toNat - 48)) := by
      rw [Nat.ofDigitChars_cons, Nat.mul_comm]
      rfl
    rw [hvalue] at hsize ⊢
    have hfits := Nat.lt_of_le_of_lt (le_ofDigitChars cs _) hsize
    rw [utf8_ascii hascii, List.cons_append]
    simp only [gather, hdigit, if_pos hfits, ih hcs (taken + 1) hsize]
    rw [List.length_cons, Nat.add_assoc, Nat.add_comm 1]

/-- **A natural number is read back from its digits.** -/
theorem numberText_digits (positive : Bool) {n : Nat} (h : n < UInt64.size) {rest : Bytes}
    (hrest : startsWithDigit rest = false) :
    numberText positive (utf8 (Nat.toDigits 10 n) ++ rest) = afterWhole positive n rest := by
  have hdigits : ∀ c ∈ Nat.toDigits 10 n, c.isDigit = true :=
    fun c hc => Nat.isDigit_of_mem_toDigits (by decide) (by decide) hc
  rcases Nat.eq_zero_or_pos n with rfl | hpos
  · rw [Nat.toDigits_of_lt_base (by decide)]
    have hzero : utf8 [Nat.digitChar 0] ++ rest = 48 :: rest := rfl
    have hdigit : digit? 48 = some 0 := by decide
    simp only [hzero, numberText, hdigit, hrest, Bool.false_eq_true, if_false]
  · obtain ⟨c, cs, hcs, hc⟩ := Text.exists_toDigits_eq hpos
    rw [hcs] at hdigits
    obtain ⟨hfirst, hmore⟩ := List.forall_mem_cons.mp hdigits
    obtain ⟨hascii, -, hdigit⟩ := digit?_of_isDigit hfirst
    have hvalue : Nat.ofDigitChars 10 cs (c.toNat - 48) = n := by
      have hn := Nat.ofDigitChars_toDigits (b := 10) (n := n) (by decide) (by decide)
      rw [hcs, Nat.ofDigitChars_cons, Nat.mul_zero, Nat.zero_add] at hn
      exact hn
    have hgather := gather_digits hmore 0 (by rw [hvalue]; exact h) hrest
    rw [hvalue] at hgather
    rw [hcs, utf8_ascii hascii, List.cons_append]
    simp only [numberText, hdigit, hgather, hrest, Bool.false_eq_true, if_false]

end DataRepository.Json
