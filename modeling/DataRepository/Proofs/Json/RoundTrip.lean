import DataRepository.Proofs.Json.Records
import DataRepository.Proofs.Json.Size

/-! # Documents read back from their text

The text of a document is read as that document, if no floating-point number is in it:
those are read by a rounding of their own. Each reader takes off the front what the
printer has put there, and leaves what comes after; a number has to know that, since it
goes on as long as there are digits. -/
namespace DataRepository

/-! ## Members that are read in order -/

theorem Members.insertNew_of_lt {name : String} {j : Json} {ms : Members}
    (h : ∀ m ∈ ms, name < m.1) : insertNew name j ms = (name, j) :: ms := by
  cases ms with
  | nil => rfl
  | cons m ms => exact if_pos (h m List.mem_cons_self)

/-- Members that come in ascending order are held as they come. -/
theorem Members.ofReversed_reverse {ms : Members} (h : Ascending ms) : ofReversed ms.reverse = ms := by
  rw [ofReversed, List.foldl_reverse]
  induction ms with
  | nil => rfl
  | cons m ms ih =>
    obtain ⟨hleast, hrest⟩ := List.pairwise_cons.mp h
    rw [List.foldr_cons, ih hrest]
    exact insertNew_of_lt hleast

namespace Json

open Text (utf8 utf8_append utf8_cons)

variable {count levels : Nat} {rest : Bytes}

/-! ## The first byte -/

/-- A byte that a document can start with. -/
structure Starts (b : UInt8) : Prop where
  space : isSpace b = false
  closing : is ']' b = false

theorem is_of_isDigit {b : UInt8} (h : isDigit b = true) {c : Char} (hc : isDigit c.toUInt8 = false) :
    is c b = false := by
  rw [is, beq_eq_false_iff_ne]
  rintro rfl
  rw [h] at hc
  cases hc

theorem starts_of_isDigit {b : UInt8} (h : isDigit b = true) : Starts b := by
  have hspace : is ' ' b = false ∧ is '\t' b = false ∧ is '\n' b = false ∧ is '\r' b = false :=
    ⟨is_of_isDigit h rfl, is_of_isDigit h rfl, is_of_isDigit h rfl, is_of_isDigit h rfl⟩
  refine ⟨?_, is_of_isDigit h rfl⟩
  simp only [isSpace, hspace, Bool.or_false]

theorem exists_starts {j : Json} (h : j.doubles = 0) :
    ∃ b bs, utf8 j.chars = b :: bs ∧ Starts b := by
  have hascii : ∀ (c : Char) (cs : List Char), c.toNat < 128 → Starts (UInt8.ofNat c.toNat) →
      ∃ b bs, utf8 (c :: cs) = b :: bs ∧ Starts b :=
    fun c cs hc hstarts => ⟨_, _, utf8_ascii hc cs, hstarts⟩
  cases j with
  | null => exact hascii 'n' _ (by decide) ⟨by decide, by decide⟩
  | bool value => cases value <;> exact hascii _ _ (by decide) ⟨by decide, by decide⟩
  | number n =>
    cases n with
    | double d => cases h
    | whole w =>
      simp only [chars, Number.chars, Whole.chars]
      split
      · exact hascii '-' _ (by decide) ⟨by decide, by decide⟩
      · obtain ⟨b, bs, hbs, -, -, hdigit⟩ := exists_digit w.value.natAbs
        exact ⟨b, bs, hbs, starts_of_isDigit hdigit⟩
  | string s => exact hascii '"' _ (by decide) ⟨by decide, by decide⟩
  | array items => exact hascii '[' _ (by decide) ⟨by decide, by decide⟩
  | object members => exact hascii '\x7b' _ (by decide) ⟨by decide, by decide⟩

/-! ## Numbers and strings -/

theorem scalar_digit {b : UInt8} (h : isDigit b = true) (bs : Bytes) :
    scalar b bs = (numberText true (b :: bs)).map fun x => (.number x.1, x.2) := by
  have hn : is 'n' b = false := is_of_isDigit h rfl
  have ht : is 't' b = false := is_of_isDigit h rfl
  have hf : is 'f' b = false := is_of_isDigit h rfl
  have hminus : is '-' b = false := is_of_isDigit h rfl
  simp only [scalar, hn, ht, hf, hminus, h, Bool.false_eq_true, if_false, if_true]

/-- A document that is neither array nor object is read at its first byte. -/
theorem valueWithin_scalar {b : UInt8} {bs : Bytes} (hspace : isSpace b = false)
    (hlist : is '[' b = false) (hobject : is '\x7b' b = false) :
    valueWithin (count + 1) levels (b :: bs) = scalar b bs := by
  simp only [valueWithin, skipSpace_cons hspace, hlist, hobject, Bool.false_eq_true, if_false]

/-- An array is read by its items. -/
theorem valueWithin_list (hlevels : 1 < levels) (bs : Bytes) :
    valueWithin (count + 1) levels (UInt8.ofNat '['.toNat :: bs) =
      itemsWithin count (levels - 1) true [] bs := by
  have hopen : is '[' (UInt8.ofNat '['.toNat) = true := rfl
  rw [valueWithin, skipSpace_cons rfl]
  simp only [hopen, if_true, if_neg (Nat.not_le.mpr hlevels)]

/-- An object is read by its members. -/
theorem valueWithin_object (hlevels : 1 < levels) (bs : Bytes) :
    valueWithin (count + 1) levels (UInt8.ofNat '\x7b'.toNat :: bs) =
      membersWithin count (levels - 1) true [] bs := by
  have hopen : is '[' (UInt8.ofNat '\x7b'.toNat) = false ∧
      is '\x7b' (UInt8.ofNat '\x7b'.toNat) = true := ⟨rfl, rfl⟩
  rw [valueWithin, skipSpace_cons rfl]
  simp only [hopen, Bool.false_eq_true, if_false, if_true, if_neg (Nat.not_le.mpr hlevels)]

theorem length_chars_pos (w : Whole) : 0 < w.chars.length := by
  have hdigits : Nat.toDigits 10 w.value.natAbs ≠ [] := Nat.toDigits_ne_nil
  unfold Whole.chars
  split
  · exact Nat.succ_pos _
  · exact List.length_pos_of_ne_nil hdigits

theorem valueWithin_whole (w : Whole) (hrest : Ends rest) :
    valueWithin (count + 1) levels (utf8 w.chars ++ rest) = .ok (.number (.whole w), rest) := by
  have hsize : w.value.natAbs < UInt64.size := by
    have hleast := w.least
    have hmost := w.most
    have hsize : UInt64.size = 0x10000000000000000 := rfl
    omega
  have hnumber (positive : Bool) := numberText_digits positive hsize hrest.digit
  have hafter := afterWhole_written w hrest
  by_cases hnegative : w.value < 0
  · rw [decide_eq_false (Int.not_le.mpr hnegative)] at hafter
    rw [Whole.chars, if_pos hnegative, utf8_ascii (by decide), List.cons_append,
      valueWithin_scalar (by decide) (by decide) (by decide)]
    have hscalar : scalar (UInt8.ofNat '-'.toNat) (utf8 (Nat.toDigits 10 w.value.natAbs) ++ rest) =
        (numberText false (utf8 (Nat.toDigits 10 w.value.natAbs) ++ rest)).map
          fun x => (.number x.1, x.2) := rfl
    rw [hscalar, hnumber, hafter]
    rfl
  · rw [decide_eq_true (Int.not_lt.mp hnegative)] at hafter
    obtain ⟨b, bs, hbs, hspace, -, hdigit⟩ := exists_digit w.value.natAbs
    have hread := hnumber true
    rw [hafter, hbs, List.cons_append] at hread
    rw [Whole.chars, if_neg hnegative, hbs, List.cons_append,
      valueWithin_scalar hspace (is_of_isDigit hdigit rfl) (is_of_isDigit hdigit rfl),
      scalar_digit hdigit, hread]
    rfl

theorem valueWithin_string (s : String) :
    valueWithin (count + 1) levels (utf8 (stringChars s) ++ rest) = .ok (.string s, rest) := by
  have hread := stringText_written s rest
  rw [utf8_stringChars, List.cons_append, valueWithin_scalar (by decide) (by decide) (by decide)]
  have hscalar : ∀ bs, scalar (UInt8.ofNat '"'.toNat) bs =
      (stringText bs).map fun x => (.string x.1, x.2) := fun _ => rfl
  rw [hscalar, hread]
  rfl

/-! ## Items -/

/-- What stands between the opening and the closing bracket, or between an item and the closing
bracket. -/
def charsItemsAt (first : Bool) (items : List Json) : List Char :=
  if first then charsItems items else charsMoreItems items

theorem charsItemsAt_cons (first : Bool) (j : Json) (items : List Json) (rest : Bytes) :
    utf8 (charsItemsAt first (j :: items)) ++ rest =
      (if first then [] else utf8 [',']) ++
        (utf8 j.chars ++ (utf8 (charsItemsAt false items) ++ rest)) := by
  cases first <;> simp [charsItemsAt, charsItems, charsMoreItems, utf8]

theorem ends_charsItemsAt (items : List Json) (rest : Bytes) :
    Ends (utf8 (charsItemsAt false items) ++ (utf8 [']'] ++ rest)) := by
  cases items with
  | nil => exact ⟨rfl, rfl⟩
  | cons j items => rw [charsItemsAt_cons]; exact ⟨rfl, rfl⟩

theorem nextItem?_written (first : Bool) {j : Json} (h : j.doubles = 0) (rest : Bytes) :
    nextItem? first ((if first then [] else utf8 [',']) ++ (utf8 j.chars ++ rest)) =
      .ok (some (utf8 j.chars ++ rest)) := by
  obtain ⟨b, bs, hbs, hspace, hclosing⟩ := exists_starts h
  have hskip := skipSpace_cons hspace (bs ++ rest)
  rw [hbs, List.cons_append]
  cases first with
  | true =>
    simp only [if_true, List.nil_append, nextItem?, hskip, hclosing, Bool.false_eq_true, if_false]
  | false =>
    have hcomma : ∀ bs, skipSpace (utf8 [','] ++ bs) = UInt8.ofNat ','.toNat :: bs := fun _ => rfl
    have hlist : is ']' (UInt8.ofNat ','.toNat) = false ∧ is ',' (UInt8.ofNat ','.toNat) = true := by
      decide
    simp only [Bool.false_eq_true, if_false, nextItem?, hcomma, hlist, hskip, hclosing, if_true]

/-! ## Documents -/

theorem utf8_array (items : List Json) (rest : Bytes) :
    utf8 (Json.array items).chars ++ rest =
      UInt8.ofNat '['.toNat :: (utf8 (charsItemsAt true items) ++ (utf8 [']'] ++ rest)) := by
  rw [chars, List.cons_append, utf8_ascii (by decide), utf8_append]
  simp only [charsItemsAt, if_true, List.cons_append, List.append_assoc]

mutual
theorem valueWithin_written : (j : Json) → j.Canonical → j.doubles = 0 →
    ∀ (count levels : Nat) (rest : Bytes), 2 * j.weigh doubleSize ≤ count → j.depth < levels →
      Ends rest → valueWithin count levels (utf8 j.chars ++ rest) = .ok (j, rest)
  | .null => by
    intro _ _ count levels rest hcount _ _
    simp only [weigh] at hcount
    obtain ⟨count, rfl⟩ := Nat.exists_eq_add_one.mpr (by omega : 0 < count)
    rfl
  | .bool true => by
    intro _ _ count levels rest hcount _ _
    simp only [weigh] at hcount
    obtain ⟨count, rfl⟩ := Nat.exists_eq_add_one.mpr (by omega : 0 < count)
    rfl
  | .bool false => by
    intro _ _ count levels rest hcount _ _
    simp only [weigh] at hcount
    obtain ⟨count, rfl⟩ := Nat.exists_eq_add_one.mpr (by omega : 0 < count)
    rfl
  | .number (.double d) => fun _ h => by cases h
  | .number (.whole w) => by
    intro _ _ count levels rest hcount _ hrest
    have hpos := length_chars_pos w
    simp only [weigh] at hcount
    obtain ⟨count, rfl⟩ := Nat.exists_eq_add_one.mpr (by omega : 0 < count)
    exact valueWithin_whole w hrest
  | .string s => by
    intro _ _ count levels rest hcount _ _
    simp only [weigh, stringWeight] at hcount
    obtain ⟨count, rfl⟩ := Nat.exists_eq_add_one.mpr (by omega : 0 < count)
    exact valueWithin_string s
  | .array items => by
    intro hcanonical hdoubles count levels rest hcount hdepth _
    simp only [weigh, depth] at hcount hdepth
    obtain ⟨count, rfl⟩ := Nat.exists_eq_add_one.mpr (by omega : 0 < count)
    have hitems := itemsWithin_written items hcanonical hdoubles count (levels - 1) (by omega)
      (by omega) true [] rest
    rw [utf8_array, valueWithin_list (by omega), hitems]
    rfl
  | .object members => by
    intro hcanonical hdoubles count levels rest hcount hdepth _
    simp only [weigh, depth] at hcount hdepth
    obtain ⟨count, rfl⟩ := Nat.exists_eq_add_one.mpr (by omega : 0 < count)
    have hmembers := membersWithin_written members hcanonical.2 hdoubles count (levels - 1)
      (by omega) (by omega) true [] rest
    rw [utf8_object, valueWithin_object (by omega), hmembers, List.append_nil,
      Members.ofReversed_reverse hcanonical.1]
termination_by structural j => j
theorem itemsWithin_written : (items : List Json) → CanonicalItems items → doublesItems items = 0 →
    ∀ (count levels : Nat), 2 * weighItems doubleSize items + 1 ≤ count → depthItems items < levels →
      ∀ (first : Bool) (done : List Json) (rest : Bytes),
        itemsWithin count levels first done
            (utf8 (charsItemsAt first items) ++ (utf8 [']'] ++ rest)) =
          .ok (.array (done.reverse ++ items), rest)
  | [] => by
    intro _ _ count levels hcount _ first done rest
    obtain ⟨count, rfl⟩ := Nat.exists_eq_add_one.mpr (by omega : 0 < count)
    rw [List.append_nil]
    cases first <;> rfl
  | j :: items => by
    intro hcanonical hdoubles count levels hcount hdepth first done rest
    simp only [weighItems, depthItems, doublesItems] at hcount hdepth hdoubles
    obtain ⟨count, rfl⟩ := Nat.exists_eq_add_one.mpr (by omega : 0 < count)
    have hdouble : j.doubles = 0 := by omega
    have hj := valueWithin_written j hcanonical.1 hdouble count levels _ (by omega) (by omega)
      (ends_charsItemsAt items rest)
    have hitems := itemsWithin_written items hcanonical.2 (by omega) count levels (by omega)
      (by omega) false (j :: done) rest
    rw [charsItemsAt_cons, itemsWithin, nextItem?_written first hdouble]
    simp only [hj, hitems, List.reverse_cons, List.append_assoc, List.singleton_append]
termination_by structural items => items
theorem membersWithin_written : (members : List (String × Json)) → CanonicalMembers members →
    doublesMembers members = 0 → ∀ (count levels : Nat),
      2 * weighMembers doubleSize members + 1 ≤ count → depthMembers members < levels →
        ∀ (first : Bool) (done : List (String × Json)) (rest : Bytes),
          membersWithin count levels first done
              (utf8 (charsMembersAt first members) ++ (utf8 ['\x7d'] ++ rest)) =
            .ok (.object (Members.ofReversed (members.reverse ++ done)), rest)
  | [] => by
    intro _ _ count levels hcount _ first done rest
    obtain ⟨count, rfl⟩ := Nat.exists_eq_add_one.mpr (by omega : 0 < count)
    cases first <;> rfl
  | m :: members => by
    intro hcanonical hdoubles count levels hcount hdepth first done rest
    simp only [weighMembers, depthMembers, doublesMembers] at hcount hdepth hdoubles
    obtain ⟨count, rfl⟩ := Nat.exists_eq_add_one.mpr (by omega : 0 < count)
    have hm := memberWithin_written m hcanonical.1 (by omega) count levels _ (by omega) (by omega)
      (ends_charsMembersAt members rest)
    have hmembers := membersWithin_written members hcanonical.2 (by omega) count levels (by omega)
      (by omega) false (m :: done) rest
    have hcolon : ∀ bs, colon (utf8 [':'] ++ bs) = .ok bs := fun _ => rfl
    rw [charsMembersAt_cons, membersWithin, nextMember?_written]
    simp only [memberName_written, hcolon, hm, hmembers, List.reverse_cons, List.append_assoc,
      List.singleton_append]
termination_by structural members => members
theorem memberWithin_written : (m : String × Json) → CanonicalMember m → doublesMember m = 0 →
    ∀ (count levels : Nat) (rest : Bytes), 2 * weighMember doubleSize m ≤ count →
      depthMember m < levels → Ends rest →
        valueWithin count levels (utf8 m.2.chars ++ rest) = .ok (m.2, rest)
  | (name, j) => by
    intro hcanonical hdoubles count levels rest hcount hdepth hrest
    simp only [weighMember] at hcount
    exact valueWithin_written j hcanonical hdoubles count levels rest (by omega) hdepth hrest
termination_by structural m => m
end

/-- A document without floating-point numbers is read off the front of a text that starts with its
own. -/
theorem value_written {j : Json} (hcanonical : j.Canonical) (hdoubles : j.doubles = 0)
    (hdepth : j.depth < levels) (hrest : Ends rest) :
    value levels (utf8 j.chars ++ rest) = .ok (j, rest) := by
  have hcount : 2 * j.weigh doubleSize ≤ enough (utf8 j.chars ++ rest) := by
    have hsize : (utf8 j.chars).length = j.weigh doubleSize := j.size_eq_weigh
    rw [enough, List.length_append, hsize]
    omega
  exact valueWithin_written j hcanonical hdoubles _ levels rest hcount hdepth hrest

/-- **A document without floating-point numbers is read back from its text**, unless it is too deep to
be read at all. -/
theorem parse_toBytes {j : Json} (hcanonical : j.Canonical) (hdoubles : j.doubles = 0)
    (hdepth : j.depth ≤ 127) : parse j.toBytes = .ok j := by
  have hread : value nestingLimit (j.toBytes ++ []) = .ok (j, []) :=
    value_written hcanonical hdoubles (Nat.lt_succ_of_le hdepth) ⟨rfl, rfl⟩
  rw [List.append_nil] at hread
  rw [parse, hread]
  rfl

end Json

end DataRepository
