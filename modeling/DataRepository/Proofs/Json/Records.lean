import DataRepository.Json.Record
import DataRepository.Proofs.Json.Written

/-! # Records read back from their text

A record is written as an object whose members it knows, each once. `Record.Fills`
says how the values of such members enter the draft one after the other, without a
word about bytes; `Record.read_written` turns it into a fact about the text. -/
namespace DataRepository.Json

open Text (utf8 utf8_append utf8_cons length_le_utf8)

/-- What follows a value does not go on with a number. -/
structure Ends (rest : Bytes) : Prop where
  digit : startsWithDigit rest = false
  fraction : hasFraction rest = false

theorem skipSpace_cons {b : UInt8} (h : isSpace b = false) (bs : Bytes) :
    skipSpace (b :: bs) = b :: bs := by
  simp only [skipSpace, List.dropWhile_cons, h, Bool.false_eq_true, if_false]

/-! ## Single values -/

theorem Reader.string_written (expected : String) (levels : Nat) (s : String) (rest : Bytes) :
    (Reader.string expected).fromText levels (utf8 (stringChars s) ++ rest) = .ok (s, rest) := by
  rw [utf8_stringChars, List.cons_append]
  exact stringText_written s rest

theorem Reader.optional_written (levels : Nat) (s : String) (rest : Bytes) :
    (Reader.optional .text).fromText levels (utf8 (stringChars s) ++ rest) = .ok (some s, rest) := by
  have hread := Reader.string_written "a string" levels s rest
  rw [utf8_stringChars, List.cons_append] at hread ⊢
  exact congrArg (Except.map fun x => (some x.1, x.2)) hread

theorem exists_digit (n : Nat) : ∃ b bs, utf8 (Nat.toDigits 10 n) = b :: bs ∧
    isSpace b = false ∧ is '-' b = false ∧ isDigit b = true := by
  obtain ⟨c, cs, hcs⟩ : ∃ c cs, Nat.toDigits 10 n = c :: cs :=
    List.exists_cons_of_ne_nil Nat.toDigits_ne_nil
  have hc : c.isDigit = true := by
    refine Nat.isDigit_of_mem_toDigits (b := 10) (n := n) (by decide) (by decide) ?_
    rw [hcs]
    exact List.mem_cons_self
  obtain ⟨hleast, hmost⟩ := toNat_of_isDigit hc
  have hall : ∀ n < 58, 48 ≤ n → isSpace (UInt8.ofNat n) = false ∧ is '-' (UInt8.ofNat n) = false ∧
      isDigit (UInt8.ofNat n) = true := by
    decide
  rw [hcs]
  exact ⟨_, _, utf8_ascii (by omega) cs, hall c.toNat (by omega) hleast⟩

/-- The digits of a whole number, after its sign, are read as that number. -/
theorem afterWhole_written (w : Whole) {rest : Bytes} (hrest : Ends rest) :
    afterWhole (decide (0 ≤ w.value)) w.value.natAbs rest = .ok (.whole w, rest) := by
  have hsigned : (if decide (0 ≤ w.value) then (w.value.natAbs : Int) else -(w.value.natAbs : Int)) =
      w.value := by
    split <;> rename_i h <;> rw [decide_eq_true_eq] at h <;> omega
  have hzero : (!decide (0 ≤ w.value) && w.value.natAbs == 0) = false := by
    simp only [Bool.and_eq_false_iff, Bool.not_eq_false', decide_eq_true_eq, beq_eq_false_iff_ne]
    omega
  simp only [afterWhole, hrest.fraction, Bool.false_eq_true, if_false, hzero, hsigned,
    Whole.ofInt?_value]

theorem afterWhole_ends {n : Nat} (h : n < UInt64.size) {rest : Bytes} (hrest : Ends rest) :
    ∃ w : Whole, w.value = n ∧ afterWhole true n rest = .ok (.whole w, rest) := by
  have hrange : -0x8000000000000000 ≤ (n : Int) ∧ (n : Int) < 0x10000000000000000 := by
    have hsize : UInt64.size = 0x10000000000000000 := rfl
    omega
  have hafter := afterWhole_written ⟨n, hrange.1, hrange.2⟩ hrest
  rw [decide_eq_true (Int.natCast_nonneg n), Int.natAbs_natCast] at hafter
  exact ⟨_, rfl, hafter⟩

theorem Reader.word_written {n bound : Nat} (hbound : bound ≤ UInt64.size) (hn : n < bound)
    (expected : String) (levels : Nat) {rest : Bytes} (hrest : Ends rest) :
    (Reader.word bound expected).fromText levels (utf8 (Nat.toDigits 10 n) ++ rest) =
      .ok (n, rest) := by
  have hsize : n < UInt64.size := Nat.lt_of_lt_of_le hn hbound
  obtain ⟨w, hvalue, hafter⟩ := afterWhole_ends hsize hrest
  have hnumber := numberText_digits true hsize hrest.digit
  have hnatural : natural bound expected (.whole w) = .ok n := by
    rw [natural, hvalue, if_pos ⟨by omega, by omega⟩, Int.toNat_natCast]
  -- The reader looks at the first digit before it reads the number.
  obtain ⟨b, bs, hbs, hspace, hminus, hdigit⟩ := exists_digit n
  rw [hafter, hbs, List.cons_append] at hnumber
  rw [hbs, List.cons_append]
  simp only [Reader.word, skipSpace_cons hspace, hminus, hdigit, hnumber, hnatural,
    Bool.false_eq_true, if_false, if_true]

theorem Reader.word_ofWord {w : UInt64} {bound : Nat} (hbound : bound ≤ UInt64.size)
    (hw : w.toNat < bound) (expected : String) (levels : Nat) {rest : Bytes} (hrest : Ends rest) :
    (Reader.word bound expected).fromText levels (utf8 (Whole.ofWord w).chars ++ rest) =
      .ok (w.toNat, rest) := by
  have hchars : (Whole.ofWord w).chars = Nat.toDigits 10 w.toNat := by
    have hvalue : (Whole.ofWord w).value = w.toNat := rfl
    rw [Whole.chars, hvalue, if_neg (by omega), Int.natAbs_natCast]
  rw [hchars]
  exact Reader.word_written hbound hw expected levels hrest

theorem Reader.word16_written (w : UInt16) (levels : Nat) {rest : Bytes} (hrest : Ends rest) :
    Reader.word16.fromText levels (utf8 (Whole.ofWord w.toUInt64).chars ++ rest) = .ok (w, rest) := by
  have hbound : UInt16.size ≤ UInt64.size := by decide
  have hw : w.toUInt64.toNat < UInt16.size := by
    rw [UInt16.toNat_toUInt64]
    exact w.toNat_lt
  have hread := Reader.word_ofWord hbound hw "u16" levels hrest
  simp only [Reader.word16, hread, Except.map, Nat.toUInt16_eq, UInt16.toNat_toUInt64,
    UInt16.ofNat_toNat]

theorem Reader.word64_written (w : UInt64) (levels : Nat) {rest : Bytes} (hrest : Ends rest) :
    Reader.word64.fromText levels (utf8 (Whole.ofWord w).chars ++ rest) = .ok (w, rest) := by
  have hread := Reader.word_ofWord (Nat.le_refl UInt64.size) w.toNat_lt "u64" levels hrest
  simp only [Reader.word64, hread, Except.map, Nat.toUInt64_eq, UInt64.ofNat_toNat]

/-! ## Members -/

section

variable {σ α : Type} {r : Record σ α} {levels : Nat} {draft last : σ} {v : α}
  {ms : List (String × Json)}

/-- The member's value is read back from its text, and takes the draft from one state to the next. -/
def Member.Takes (m : Member σ) (levels : Nat) (j : Json) (draft next : σ) : Prop :=
  ∀ rest, Ends rest → m.fromText levels (utf8 j.chars ++ rest) draft = .ok (next, rest)

theorem Member.takes_of {β : Type} {name : String} {reader : Reader β} {get : σ → Option β}
    {store : β → σ → σ} {mayEndBefore : Bool} {j : Json} {v : β}
    (h : ∀ rest, Ends rest → reader.fromText levels (utf8 j.chars ++ rest) = .ok (v, rest)) :
    (Member.of name reader get store mayEndBefore).Takes levels j draft (store v draft) := by
  intro rest hrest
  simp only [Member.of, h rest hrest, Except.map]

/-- The record knows the members, none of them twice, and their values fill the draft. -/
inductive Record.Fills (r : Record σ α) (levels : Nat) : σ → List (String × Json) → σ → Prop where
  | nil (draft : σ) : Fills r levels draft [] draft
  | cons {draft next last : σ} {name : String} {j : Json} {ms : List (String × Json)} (m : Member σ)
      (known : r.member? name = some m) (unfilled : m.isFilled draft = false)
      (takes : m.Takes levels j draft next) (more : Fills r levels next ms last) :
      Fills r levels draft ((name, j) :: ms) last

/-- What stands between the opening and the closing bracket, or between a member and the closing
bracket. -/
def charsMembersAt (first : Bool) (ms : List (String × Json)) : List Char :=
  if first then charsMembers ms else charsMoreMembers ms

theorem charsMembersAt_cons (first : Bool) (name : String) (j : Json) (ms : List (String × Json))
    (rest : Bytes) :
    utf8 (charsMembersAt first ((name, j) :: ms)) ++ rest =
      (if first then [] else utf8 [',']) ++
        (utf8 (stringChars name) ++ (utf8 [':'] ++ (utf8 j.chars ++
          (utf8 (charsMembersAt false ms) ++ rest)))) := by
  cases first <;>
    simp [charsMembersAt, charsMembers, charsMoreMembers, charsMember, utf8]

theorem ends_charsMembersAt (ms : List (String × Json)) (rest : Bytes) :
    Ends (utf8 (charsMembersAt false ms) ++ (utf8 ['\x7d'] ++ rest)) := by
  cases ms with
  | nil => exact ⟨rfl, rfl⟩
  | cons m ms => rw [charsMembersAt_cons]; exact ⟨rfl, rfl⟩

theorem length_le_charsMembersAt (first : Bool) (ms : List (String × Json)) :
    ms.length ≤ (charsMembersAt first ms).length := by
  induction ms generalizing first with
  | nil => exact Nat.zero_le _
  | cons m ms ih =>
    obtain ⟨name, j⟩ := m
    have hmore := ih false
    cases first <;>
      simp only [charsMembersAt, charsMembers, charsMoreMembers, charsMember, stringChars,
        List.length_cons, List.length_append, Bool.false_eq_true, if_false, if_true] at hmore ⊢ <;>
      omega

theorem nextMember?_written (first : Bool) (name : String) (rest : Bytes) :
    nextMember? first ((if first then [] else utf8 [',']) ++ (utf8 (stringChars name) ++ rest)) =
      .ok (some (utf8 (stringChars name) ++ rest)) := by
  rw [utf8_stringChars]
  cases first <;> rfl

theorem Record.objectFrom_written (h : r.Fills levels draft ms last) (hv : r.finish last = .ok v)
    (first : Bool) {count : Nat} (hcount : ms.length < count) (rest : Bytes) :
    r.objectFrom levels count first draft
      (utf8 (charsMembersAt first ms) ++ (utf8 ['\x7d'] ++ rest)) =
        .ok (v, utf8 ['\x7d'] ++ rest) := by
  induction h generalizing first count with
  | nil draft =>
    obtain ⟨count, rfl⟩ : ∃ n, count = n + 1 := ⟨count - 1, by simp at hcount; omega⟩
    have hnext : nextMember? first (utf8 ['\x7d'] ++ rest) = .ok none := by cases first <;> rfl
    have hnil : utf8 (charsMembersAt first []) = [] := by cases first <;> rfl
    rw [hnil, List.nil_append, objectFrom, hnext]
    simp only [hv]
    rfl
  | @cons draft next last name j ms m known unfilled takes more ih =>
    obtain ⟨count, rfl⟩ : ∃ n, count = n + 1 := ⟨count - 1, by simp at hcount; omega⟩
    have hmore : ms.length < count := by simpa using hcount
    have hcolon : ∀ bs, colon (utf8 [':'] ++ bs) = .ok bs := fun _ => rfl
    have htake := takes _ (ends_charsMembersAt ms rest)
    rw [charsMembersAt_cons, objectFrom, nextMember?_written]
    simp only [memberName_written, known, unfilled, Bool.false_eq_true, if_false, hcolon, htake,
      ih hv false hmore]

theorem utf8_object (members : Members) (rest : Bytes) :
    utf8 (Json.object members).chars ++ rest =
      UInt8.ofNat '\x7b'.toNat :: (utf8 (charsMembersAt true members) ++ (utf8 ['\x7d'] ++ rest)) := by
  rw [chars, List.cons_append, utf8_ascii (by decide), utf8_append]
  simp only [charsMembersAt, if_true, List.cons_append, List.append_assoc]

/-- A record is read from the text of an object if its members are. -/
theorem Record.fromText_of_objectFrom (hlevels : 1 < levels)
    (h : ∀ (count : Nat), ms.length < count → ∀ rest, r.objectFrom (levels - 1) count true r.empty
      (utf8 (charsMembersAt true ms) ++ (utf8 ['\x7d'] ++ rest)) = .ok (v, utf8 ['\x7d'] ++ rest))
    (rest : Bytes) : r.fromText levels (utf8 (Json.object ms).chars ++ rest) = .ok (v, rest) := by
  have hcount : ms.length <
      (utf8 (charsMembersAt true ms) ++ (utf8 ['\x7d'] ++ rest)).length + 1 := by
    have hmembers := length_le_charsMembersAt true ms
    have hbytes := length_le_utf8 (charsMembersAt true ms)
    rw [List.length_append]
    omega
  have hopen : is '\x7b' (UInt8.ofNat '\x7b'.toNat) = true := by decide
  rw [utf8_object, Record.fromText, skipSpace_cons (by decide)]
  simp only [hopen, if_true, Nat.not_le.mpr hlevels, if_false, h _ hcount]
  rfl

theorem Record.read_of_objectFrom
    (h : ∀ (count : Nat), ms.length < count → ∀ rest,
      r.objectFrom (nestingLimit - 1) count true r.empty
        (utf8 (charsMembersAt true ms) ++ (utf8 ['\x7d'] ++ rest)) = .ok (v, utf8 ['\x7d'] ++ rest)) :
    r.reader.read (toBytes (.object ms)) = .ok v := by
  have hread := Record.fromText_of_objectFrom (by decide) h []
  rw [List.append_nil] at hread
  rw [Reader.read, reader, toBytes]
  simp only [hread]
  rfl

/-- **A record is read back from its text.** -/
theorem Record.read_written (h : r.Fills (nestingLimit - 1) r.empty ms last)
    (hv : r.finish last = .ok v) : r.reader.read (toBytes (.object ms)) = .ok v :=
  read_of_objectFrom fun _ hcount => objectFrom_written h hv true hcount

end

end DataRepository.Json
