import DataRepository.Proofs.Json.RoundTrip

/-! # Documents that are passed over

A record passes over the values of members that it does not know, without reading them. What
the printer has written for a value is passed over as a whole, and what follows it is left; so
such members do not change what a record is read as. -/
namespace DataRepository

/-! ## Strings -/

/-- The bytes of a character beyond ASCII are none of ASCII. -/
theorem Text.le_of_mem_utf8EncodeChar {c : Char} (h : 128 ≤ c.toNat) :
    ∀ b ∈ String.utf8EncodeChar c, 0x80 ≤ b := by
  have hval : ¬ c.val.toNat ≤ 127 := Nat.not_le.mpr h
  have hbyte : ∀ k n : Nat, 128 ≤ k → k + n < 256 → 0x80 ≤ UInt8.ofNat (n + k) := by
    intro k n hk hn
    rw [UInt8.le_iff_toNat_le, toNat_byte (by omega)]
    exact Nat.le_trans hk (Nat.le_add_left k n)
  unfold String.utf8EncodeChar
  rw [if_neg hval]
  intro b hb
  repeat' split at hb
  all_goals
    simp only [List.mem_cons, List.not_mem_nil, or_false] at hb
    rcases hb with rfl | rfl | rfl | rfl <;> exact hbyte _ _ (by omega) (by omega)

namespace Json

open Text (utf8 utf8_append)

/-- A byte of a string that stands for itself. -/
structure Inner (b : UInt8) : Prop where
  quote : is '"' b = false
  backslash : is '\\' b = false
  printable : ¬ b < 0x20

theorem Inner.of_le {b : UInt8} (h : 0x80 ≤ b) : Inner b := by
  have hne : ∀ b' : UInt8, b' < 0x80 → b ≠ b' := by
    intro b' hb' he
    exact absurd h (UInt8.not_le.mpr (he ▸ hb'))
  refine ⟨beq_eq_false_iff_ne.mpr (hne 34 (by decide)), beq_eq_false_iff_ne.mpr (hne 92 (by decide)), ?_⟩
  exact UInt8.not_lt.mpr (UInt8.le_trans (by decide) h)

theorem Literal.inner {c : Char} (h : Literal c) : ∀ b ∈ String.utf8EncodeChar c, Inner b := by
  intro b hb
  rcases Nat.lt_or_ge c.toNat 128 with hascii | hbeyond
  · obtain ⟨b', bs, hbs, hquote, hbackslash, hcontrol⟩ := h.exists_lead
    rw [Text.utf8EncodeChar_ascii hascii] at hb hbs
    cases hbs
    obtain rfl := List.mem_singleton.mp hb
    exact ⟨hquote, hbackslash, hcontrol⟩
  · exact .of_le (Text.le_of_mem_utf8EncodeChar hbeyond b hb)

theorem skipString_inner {bs : Bytes} (h : ∀ b ∈ bs, Inner b) (n : Nat) (rest : Bytes) :
    skipString (n + bs.length) (bs ++ rest) = skipString n rest := by
  induction bs with
  | nil => rfl
  | cons b bs ih =>
    obtain ⟨hb, hmore⟩ := List.forall_mem_cons.mp h
    rw [List.length_cons, ← Nat.add_assoc, List.cons_append, skipString]
    simp only [hb.quote, hb.backslash, hb.printable, Bool.false_eq_true, if_false, ih hmore]

/-- A character of a string is passed over in no more steps than it has bytes. -/
theorem skipString_escaped (c : Char) : ∃ k ≤ (utf8 (escaped c)).length, ∀ (n : Nat) (rest : Bytes),
    skipString (n + k) (utf8 (escaped c) ++ rest) = skipString n rest := by
  have hescape : ∀ cs : List Char, (∀ rest, skipEscape (utf8 cs ++ rest) = .ok rest) →
      ∃ k ≤ (utf8 ('\\' :: cs)).length, ∀ (n : Nat) (rest : Bytes),
        skipString (n + k) (utf8 ('\\' :: cs) ++ rest) = skipString n rest := by
    intro cs hcs
    rw [utf8_ascii (by decide)]
    refine ⟨1, Nat.succ_le_succ (Nat.zero_le _), fun n rest => ?_⟩
    rw [List.cons_append, skipString]
    simp only [hcs]
    rfl
  unfold escaped
  iterate 7
    split
    · exact hescape _ fun _ => rfl
  split
  · rename_i h
    refine hescape ('u' :: '0' :: '0' :: Text.Hexadecimal.pair c.toNat) fun rest => ?_
    have hquad := hexQuad_pair (n := c.toNat) (by omega) rest
    rw [utf8_ascii (by decide), List.cons_append, skipEscape]
    simp only [hquad]
    rfl
  · rename_i hquote hbackslash _ _ _ _ _ hcontrol
    have hliteral : Literal c :=
      ⟨fun h => hquote (beq_iff_eq.mpr h), fun h => hbackslash (beq_iff_eq.mpr h),
        Nat.le_of_not_lt hcontrol⟩
    refine ⟨(utf8 [c]).length, Nat.le_refl _, fun n rest => skipString_inner (fun b hb => ?_) n rest⟩
    refine hliteral.inner b ?_
    simpa [utf8] using hb

theorem skipString_written (cs : List Char) {count : Nat}
    (hcount : (utf8 (cs.flatMap escaped)).length < count) (rest : Bytes) :
    skipString count (utf8 (cs.flatMap escaped ++ ['"']) ++ rest) = .ok rest := by
  induction cs generalizing count with
  | nil =>
    obtain ⟨count, rfl⟩ := Nat.exists_eq_add_one.mpr (Nat.lt_of_le_of_lt (Nat.zero_le _) hcount)
    rfl
  | cons c cs ih =>
    obtain ⟨k, hk, hskip⟩ := skipString_escaped c
    rw [List.flatMap_cons, utf8_append, List.length_append] at hcount
    obtain ⟨count, rfl⟩ : ∃ n, count = n + k := ⟨count - k, by omega⟩
    rw [List.flatMap_cons, List.append_assoc, utf8_append, List.append_assoc, hskip, ih (by omega)]

/-- **A string is passed over up to its closing quote.** -/
theorem skipString_stringChars (s : String) (rest : Bytes) :
    let bs := utf8 (s.toList.flatMap escaped ++ ['"']) ++ rest
    skipString (bs.length + 1) bs = .ok rest := by
  intro bs
  refine skipString_written s.toList ?_ rest
  simp only [bs, utf8_append, List.length_append]
  omega

theorem skipName_written (name : String) (rest : Bytes) :
    skipName (utf8 (stringChars name) ++ (utf8 [':'] ++ rest)) = .ok rest := by
  have hquote : is '"' (UInt8.ofNat '"'.toNat) = true := by decide
  rw [utf8_stringChars, List.cons_append, skipName, skipSpace_cons (by decide)]
  simp only [hquote, if_true, skipString_stringChars name]
  rfl

/-! ## Numbers -/

theorem isDigit_of_digit? {b : UInt8} {d : Nat} (h : digit? b = some d) : isDigit b = true := by
  unfold digit? at h
  split at h
  · rename_i hrange
    simpa [isDigit] using hrange
  · cases h

theorem skipDigits_written {cs : List Char} (hcs : ∀ c ∈ cs, c.isDigit = true) {rest : Bytes}
    (hrest : startsWithDigit rest = false) : skipDigits (utf8 cs ++ rest) = rest := by
  induction cs with
  | nil =>
    cases rest with
    | nil => rfl
    | cons b rest => exact List.dropWhile_cons_of_neg (by simpa [startsWithDigit] using hrest)
  | cons c cs ih =>
    obtain ⟨hc, hcs⟩ := List.forall_mem_cons.mp hcs
    obtain ⟨hascii, -, hdigit⟩ := digit?_of_isDigit hc
    rw [utf8_ascii hascii, List.cons_append, skipDigits, List.dropWhile_cons_of_pos]
    · exact ih hcs
    · exact isDigit_of_digit? hdigit

/-- A zero is passed over, if neither a digit nor a fraction follows it. -/
theorem skipNumber_zero {rest : Bytes} (hrest : Ends rest) :
    skipNumber (UInt8.ofNat '0'.toNat :: rest) = .ok rest := by
  have hzero : is '0' (UInt8.ofNat '0'.toNat) = true := by decide
  cases rest with
  | nil => rfl
  | cons b rest =>
    have hfraction := hrest.fraction
    simp only [hasFraction, Bool.or_eq_false_iff] at hfraction
    simp only [skipNumber, skipAfterDigits, hzero, hrest.digit, hfraction, if_true,
      Bool.false_eq_true, if_false, Bool.or_self]

/-- A number that does not start with a zero is passed over up to the end of its digits. -/
theorem skipNumber_digits {b : UInt8} {bs rest : Bytes} (hzero : is '0' b = false)
    (hdigit : isDigit b = true) (hdigits : skipDigits bs = rest) (hrest : Ends rest) :
    skipNumber (b :: bs) = .ok rest := by
  simp only [skipNumber, hzero, hdigit, hdigits, Bool.false_eq_true, if_false, if_true]
  cases rest with
  | nil => rfl
  | cons b rest =>
    have hfraction := hrest.fraction
    simp only [hasFraction, Bool.or_eq_false_iff] at hfraction
    simp only [skipAfterDigits, hfraction, Bool.false_eq_true, if_false, Bool.or_self]

theorem skipNumber_written (n : Nat) {rest : Bytes} (hrest : Ends rest) :
    skipNumber (utf8 (Nat.toDigits 10 n) ++ rest) = .ok rest := by
  have hdigits : ∀ c ∈ Nat.toDigits 10 n, c.isDigit = true :=
    fun c hc => Nat.isDigit_of_mem_toDigits (by decide) (by decide) hc
  obtain rfl | hpos := Nat.eq_zero_or_pos n
  · exact skipNumber_zero hrest
  · obtain ⟨c, cs, hcs, hc⟩ := Text.exists_toDigits_eq hpos
    rw [hcs] at hdigits
    obtain ⟨hfirst, hmore⟩ := List.forall_mem_cons.mp hdigits
    obtain ⟨hascii, -, hdigit⟩ := digit?_of_isDigit hfirst
    have hzero : is '0' (UInt8.ofNat c.toNat) = false := by
      refine beq_eq_false_iff_ne.mpr fun he => hc ?_
      rw [he] at hdigit
      exact (Option.some.inj hdigit).symm
    rw [hcs, utf8_ascii hascii, List.cons_append]
    exact skipNumber_digits hzero (isDigit_of_digit? hdigit)
      (skipDigits_written hmore hrest.digit) hrest

/-! ## Documents -/

/-- A document is passed over in so many steps at most, up to what follows it. -/
def Skipped (most : Nat) (cs : List Char) : Prop :=
  ∃ k ≤ most, ∀ (n : Nat) (opened : List Bracket) (rest : Bytes), Ends rest →
    skipWithin (n + k) opened (utf8 cs ++ rest) = skipAfter n opened true rest

theorem skipped_whole (w : Whole) : Skipped (2 * w.chars.length) w.chars := by
  have hpos := length_chars_pos w
  refine ⟨1, by omega, fun n opened rest hrest => ?_⟩
  have hskip := skipNumber_written w.value.natAbs hrest
  unfold Whole.chars
  split
  · rw [utf8_ascii (by decide), List.cons_append, skipWithin, skipSpace_cons (by decide)]
    simp only [hskip]
    rfl
  · obtain ⟨b, bs, hbs, hspace, hminus, hdigit⟩ := exists_digit w.value.natAbs
    have hn : is 'n' b = false := is_of_isDigit hdigit rfl
    have ht : is 't' b = false := is_of_isDigit hdigit rfl
    have hf : is 'f' b = false := is_of_isDigit hdigit rfl
    rw [hbs, List.cons_append] at hskip
    rw [hbs, List.cons_append, skipWithin, skipSpace_cons hspace]
    simp only [hn, ht, hf, hminus, hdigit, hskip, Bool.false_eq_true, if_false, if_true]

theorem skipped_string (s : String) : Skipped 1 (stringChars s) := by
  refine ⟨1, Nat.le_refl 1, fun n opened rest _ => ?_⟩
  rw [utf8_stringChars, List.cons_append, skipWithin, skipSpace_cons (by decide)]
  simp only [skipString_stringChars s]
  rfl

theorem skipAfter_item {n : Nat} {opened : List Bracket} (first : Bool) {j : Json} (h : j.doubles = 0)
    (rest : Bytes) :
    skipAfter (n + 1) (.list :: opened) (! first)
        ((if first then [] else utf8 [',']) ++ (utf8 j.chars ++ rest)) =
      skipWithin n (.list :: opened) (utf8 j.chars ++ rest) := by
  obtain ⟨b, bs, hbs, hspace, hclosing⟩ := exists_starts h
  cases first with
  | false => rfl
  | true =>
    rw [hbs]
    simp only [if_true, List.nil_append, List.cons_append, skipAfter, skipSpace_cons hspace,
      Bracket.closing, hclosing, Bool.not_true, Bool.false_and, Bool.false_eq_true, if_false]

theorem skipAfter_member {n : Nat} {opened : List Bracket} (first : Bool) (name : String) (rest : Bytes) :
    skipAfter (n + 1) (.object :: opened) (! first)
        ((if first then [] else utf8 [',']) ++ (utf8 (stringChars name) ++ (utf8 [':'] ++ rest))) =
      skipWithin n (.object :: opened) rest := by
  have hname := skipName_written name rest
  have hbrackets : is ',' (UInt8.ofNat '"'.toNat) = false ∧
      is '\x7d' (UInt8.ofNat '"'.toNat) = false := by decide
  cases first with
  | false =>
    have hcomma : ∀ bs, skipSpace (utf8 [','] ++ bs) = UInt8.ofNat ','.toNat :: bs := fun _ => rfl
    have hseparates : is ',' (UInt8.ofNat ','.toNat) = true := by decide
    simp only [Bool.false_eq_true, if_false, skipAfter, hcomma, hseparates, Bool.not_false,
      Bool.true_and, if_true, hname]
  | true =>
    have hspace : isSpace (UInt8.ofNat '"'.toNat) = false := by decide
    rw [utf8_stringChars, List.cons_append] at hname ⊢
    simp only [if_true, List.nil_append, skipAfter, skipSpace_cons hspace, Bracket.closing, hbrackets,
      Bool.not_true, Bool.false_and, Bool.false_eq_true, if_false, hname]

mutual

/-- **A document without floating-point numbers is passed over.** -/
theorem skipped : (j : Json) → j.doubles = 0 → Skipped (2 * j.weigh doubleSize) j.chars
  | .null => fun _ => ⟨1, by decide, fun _ _ _ _ => rfl⟩
  | .bool true => fun _ => ⟨1, by decide, fun _ _ _ _ => rfl⟩
  | .bool false => fun _ => ⟨1, by decide, fun _ _ _ _ => rfl⟩
  | .number (.double d) => fun h => by cases h
  | .number (.whole w) => fun _ => skipped_whole w
  | .string s => fun _ => by
    obtain ⟨k, hk, hskip⟩ := skipped_string s
    exact ⟨k, by simp only [weigh, stringWeight]; omega, hskip⟩
  | .array items => by
    intro h
    obtain ⟨k, hk, hskip⟩ := skipped_items items h
    refine ⟨k + 1, by simp only [weigh]; omega, fun n opened rest _ => ?_⟩
    rw [utf8_array, ← hskip true n opened rest]
    rfl
  | .object members => by
    intro h
    obtain ⟨k, hk, hskip⟩ := skipped_members members h
    refine ⟨k + 1, by simp only [weigh]; omega, fun n opened rest _ => ?_⟩
    rw [utf8_object, ← hskip true n opened rest]
    rfl
termination_by structural j => j

theorem skipped_items : (items : List Json) → doublesItems items = 0 →
    ∃ k ≤ 2 * weighItems doubleSize items + 1, ∀ (first : Bool) (n : Nat) (opened : List Bracket)
      (rest : Bytes), skipAfter (n + k) (.list :: opened) (! first)
        (utf8 (charsItemsAt first items) ++ (utf8 [']'] ++ rest)) = skipAfter n opened true rest
  | [] => fun _ => ⟨1, by decide, fun first _ _ _ => by cases first <;> rfl⟩
  | j :: items => by
    intro h
    simp only [doublesItems] at h
    have hdoubles : j.doubles = 0 := by omega
    obtain ⟨k, hk, hskip⟩ := skipped j hdoubles
    obtain ⟨more, hmore, hrest⟩ := skipped_items items (by omega)
    refine ⟨more + k + 1, by simp only [weighItems]; omega, fun first n opened rest => ?_⟩
    rw [charsItemsAt_cons, ← Nat.add_assoc, ← Nat.add_assoc, skipAfter_item first hdoubles,
      hskip _ _ _ (ends_charsItemsAt items rest)]
    exact hrest false n opened rest
termination_by structural items => items

theorem skipped_members : (members : List (String × Json)) → doublesMembers members = 0 →
    ∃ k ≤ 2 * weighMembers doubleSize members + 1, ∀ (first : Bool) (n : Nat) (opened : List Bracket)
      (rest : Bytes), skipAfter (n + k) (.object :: opened) (! first)
        (utf8 (charsMembersAt first members) ++ (utf8 ['\x7d'] ++ rest)) = skipAfter n opened true rest
  | [] => fun _ => ⟨1, by decide, fun first _ _ _ => by cases first <;> rfl⟩
  | m :: members => by
    intro h
    simp only [doublesMembers] at h
    obtain ⟨k, hk, hskip⟩ := skipped_member m (by omega)
    obtain ⟨more, hmore, hrest⟩ := skipped_members members (by omega)
    refine ⟨more + k + 1, by simp only [weighMembers]; omega, fun first n opened rest => ?_⟩
    rw [charsMembersAt_cons, ← Nat.add_assoc, ← Nat.add_assoc, skipAfter_member,
      hskip _ _ _ (ends_charsMembersAt members rest)]
    exact hrest false n opened rest
termination_by structural members => members

theorem skipped_member : (m : String × Json) → doublesMember m = 0 →
    Skipped (2 * weighMember doubleSize m) m.2.chars
  | (name, j) => by
    intro h
    obtain ⟨k, hk, hskip⟩ := skipped j h
    exact ⟨k, by simp only [weighMember]; omega, hskip⟩
termination_by structural m => m

end

section

variable {σ α : Type} {r : Record σ α} {levels : Nat} {draft last : σ} {v : α}
  {ms : List (String × Json)} {rest : Bytes}

end

end Json

end DataRepository
