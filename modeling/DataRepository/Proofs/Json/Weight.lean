import DataRepository.Json.Printer
import Mathlib.Algebra.Ring.Nat
import Mathlib.Tactic.Common

/-! # The weight of a document

The length of the compact text, part by part, with the floating-point numbers
weighed by a function of their own: a text may spell one in fewer bytes than the
printer takes (`1e15` is written `1000000000000000.0`), and nothing else. -/
namespace DataRepository.Json

open Text (utf8)

def charWeight (c : Char) : Nat := (utf8 (escaped c)).length

def innerWeight (cs : List Char) : Nat := (cs.map charWeight).sum

def stringWeight (s : String) : Nat := innerWeight s.toList + 2

mutual
/-- The bytes of the compact text, if `w` gives those of a floating-point number. -/
def weigh (w : Double → Nat) : Json → Nat
  | .null => 4
  | .bool true => 4
  | .bool false => 5
  | .number (.whole n) => n.chars.length
  | .number (.double d) => w d
  | .string s => stringWeight s
  | .array items => 1 + max 1 (weighItems w items)
  | .object members => 1 + max 1 (weighMembers w members)
termination_by structural j => j
/-- The bytes of the items, each with the comma or the bracket before it. -/
def weighItems (w : Double → Nat) : List Json → Nat
  | [] => 0
  | j :: rest => 1 + j.weigh w + weighItems w rest
termination_by structural items => items
/-- The bytes of the members, each with the comma or the bracket before it. -/
def weighMembers (w : Double → Nat) : List (String × Json) → Nat
  | [] => 0
  | m :: rest => 1 + weighMember w m + weighMembers w rest
termination_by structural members => members

def weighMember (w : Double → Nat) : String × Json → Nat
  | (name, j) => stringWeight name + 1 + j.weigh w
termination_by structural m => m
end

/-- The bytes of the compact text, a floating-point number counted as one. -/
def weight (j : Json) : Nat := j.weigh fun _ => 1

/-! ## The weight of characters -/

theorem innerWeight_cons (c : Char) (cs : List Char) :
    innerWeight (c :: cs) = charWeight c + innerWeight cs := by
  simp [innerWeight]

theorem innerWeight_append (cs ds : List Char) :
    innerWeight (cs ++ ds) = innerWeight cs + innerWeight ds := by
  simp [innerWeight]

theorem innerWeight_reverse (cs : List Char) : innerWeight cs.reverse = innerWeight cs := by
  simp [innerWeight, List.sum_reverse]

/-! ## The weight is a size -/

theorem length_utf8_append (cs ds : List Char) :
    (utf8 (cs ++ ds)).length = (utf8 cs).length + (utf8 ds).length := by
  simp [utf8]

theorem length_utf8_cons (c : Char) (cs : List Char) :
    (utf8 (c :: cs)).length = c.utf8Size + (utf8 cs).length := by
  simp [utf8]

theorem length_utf8_nil : (utf8 []).length = 0 := rfl

theorem length_utf8_ascii {cs : List Char} (h : ∀ c ∈ cs, c.utf8Size = 1) :
    (utf8 cs).length = cs.length := by
  induction cs with
  | nil => rfl
  | cons c cs ih =>
    obtain ⟨hc, hcs⟩ := List.forall_mem_cons.mp h
    rw [length_utf8_cons, hc, ih hcs, List.length_cons, Nat.add_comm]

theorem length_utf8_stringChars (s : String) : (utf8 (stringChars s)).length = stringWeight s := by
  have hinner : ∀ cs : List Char, (utf8 (cs.flatMap escaped)).length = innerWeight cs := by
    intro cs
    induction cs with
    | nil => rfl
    | cons c cs ih =>
      rw [List.flatMap_cons, length_utf8_append, ih]
      rfl
  rw [stringChars, List.cons_append, length_utf8_cons, length_utf8_append, hinner]
  simp only [stringWeight]
  have hquote : '"'.utf8Size = 1 ∧ (utf8 ['"']).length = 1 := by decide
  omega

theorem utf8Size_of_isDigit {c : Char} (h : c.isDigit) : c.utf8Size = 1 := by
  simp only [Char.isDigit, Bool.and_eq_true, decide_eq_true_eq] at h
  have hle : c.val ≤ 127 := UInt32.le_trans h.2 (by decide)
  simp [Char.utf8Size, hle]

theorem length_utf8_whole (n : Whole) : (utf8 n.chars).length = n.chars.length := by
  refine length_utf8_ascii fun c hc => ?_
  unfold Whole.chars at hc
  split at hc
  · rcases List.mem_cons.mp hc with rfl | hc
    · decide
    · exact utf8Size_of_isDigit (Nat.isDigit_of_mem_toDigits (by decide) (by decide) hc)
  · exact utf8Size_of_isDigit (Nat.isDigit_of_mem_toDigits (by decide) (by decide) hc)

/-- The bytes that a floating-point number is written with. -/
def doubleSize (d : Double) : Nat := (utf8 d.chars).length

mutual
theorem length_utf8_chars : (j : Json) → (utf8 j.chars).length = j.weigh doubleSize
  | .null => by decide
  | .bool true => by decide
  | .bool false => by decide
  | .number (.whole n) => length_utf8_whole n
  | .number (.double _) => rfl
  | .string s => length_utf8_stringChars s
  | .array items => by
    have hitems := length_utf8_charsItems items
    simp only [chars, weigh, List.cons_append, length_utf8_cons, length_utf8_append, length_utf8_nil]
    have hbracket : '['.utf8Size = 1 ∧ ']'.utf8Size = 1 := by decide
    omega
  | .object members => by
    have hmembers := length_utf8_charsMembers members
    simp only [chars, weigh, List.cons_append, length_utf8_cons, length_utf8_append, length_utf8_nil]
    have hbracket : '\x7b'.utf8Size = 1 ∧ '\x7d'.utf8Size = 1 := by decide
    omega
termination_by structural j => j
theorem length_utf8_charsItems :
    (items : List Json) → (utf8 (charsItems items)).length + 1 = max 1 (weighItems doubleSize items)
  | [] => rfl
  | j :: rest => by
    have hj := length_utf8_chars j
    have hrest := length_utf8_charsMoreItems rest
    simp only [charsItems, weighItems, length_utf8_append]
    omega
termination_by structural items => items
theorem length_utf8_charsMoreItems :
    (items : List Json) → (utf8 (charsMoreItems items)).length = weighItems doubleSize items
  | [] => rfl
  | j :: rest => by
    have hj := length_utf8_chars j
    have hrest := length_utf8_charsMoreItems rest
    simp only [charsMoreItems, weighItems, List.cons_append, length_utf8_cons, length_utf8_append]
    have hcomma : ','.utf8Size = 1 := by decide
    omega
termination_by structural items => items
theorem length_utf8_charsMembers : (members : List (String × Json)) →
    (utf8 (charsMembers members)).length + 1 = max 1 (weighMembers doubleSize members)
  | [] => rfl
  | m :: rest => by
    have hm := length_utf8_charsMember m
    have hrest := length_utf8_charsMoreMembers rest
    simp only [charsMembers, weighMembers, length_utf8_append]
    omega
termination_by structural members => members
theorem length_utf8_charsMoreMembers : (members : List (String × Json)) →
    (utf8 (charsMoreMembers members)).length = weighMembers doubleSize members
  | [] => rfl
  | m :: rest => by
    have hm := length_utf8_charsMember m
    have hrest := length_utf8_charsMoreMembers rest
    simp only [charsMoreMembers, weighMembers, List.cons_append, length_utf8_cons, length_utf8_append]
    have hcomma : ','.utf8Size = 1 := by decide
    omega
termination_by structural members => members
theorem length_utf8_charsMember :
    (m : String × Json) → (utf8 (charsMember m)).length = weighMember doubleSize m
  | (name, j) => by
    have hj := length_utf8_chars j
    simp only [charsMember, weighMember, length_utf8_append, length_utf8_cons,
      length_utf8_stringChars]
    have hcolon : ':'.utf8Size = 1 := by decide
    omega
termination_by structural m => m
end

theorem size_eq_weigh (j : Json) : j.size = j.weigh doubleSize := length_utf8_chars j

end DataRepository.Json
