import DataRepository.Text.Hexadecimal
import DataRepository.Text.Quoted

/-! # Quoted texts tell their text

Quoting takes nothing away: the first character of a text can be read off what stands
inside its quotes, whatever stands after it, so no two texts are quoted alike. -/
namespace DataRepository.Text

/-! ## Code points -/

def hexValue (cs : List Char) : Nat :=
  cs.foldl (fun n c => 16 * n + (Hexadecimal.value? c).getD 0) 0

theorem hexValue_toDigits (n : Nat) : hexValue (Nat.toDigits 16 n) = n := by
  induction n using Nat.strongRecOn with
  | ind n ih =>
    by_cases h : n < 16
    · rw [Nat.toDigits_of_lt_base h, hexValue, List.foldl_cons, List.foldl_nil,
        Hexadecimal.value?_digitChar h, Option.getD_some]
      omega
    · have hinner := ih (n / 16) (by omega)
      rw [hexValue] at hinner
      rw [Nat.toDigits_of_base_le (by decide) (Nat.le_of_not_lt h), hexValue, List.foldl_append,
        hinner, List.foldl_cons, List.foldl_nil, Hexadecimal.value?_digitChar (Nat.mod_lt n (by decide)),
        Option.getD_some]
      omega

/-- No digit is the brace after the digits. -/
theorem ne_brace_of_mem_toDigits {n : Nat} {c : Char} (h : c ∈ Nat.toDigits 16 n) : c ≠ '\x7d' := by
  have hdigit : ∀ m : Fin 16, Nat.digitChar m ≠ '\x7d' := by decide
  induction n using Nat.strongRecOn with
  | ind n ih =>
    by_cases hn : n < 16
    · rw [Nat.toDigits_of_lt_base hn, List.mem_singleton] at h
      exact h ▸ hdigit ⟨n, hn⟩
    · rw [Nat.toDigits_of_base_le (by decide) (Nat.le_of_not_lt hn), List.mem_append,
        List.mem_singleton] at h
      rcases h with h | h
      · exact ih (n / 16) (by omega) h
      · exact h ▸ hdigit ⟨n % 16, Nat.mod_lt n (by decide)⟩

theorem takeWhile_toDigits (n : Nat) (rest : List Char) :
    (Nat.toDigits 16 n ++ '\x7d' :: rest).takeWhile (· ≠ '\x7d') = Nat.toDigits 16 n := by
  rw [List.takeWhile_append_of_pos fun c hc => by simpa using ne_brace_of_mem_toDigits hc]
  simp

/-! ## Characters -/

/-- The character that stands first inside the quotes. -/
def firstQuoted? : List Char → Option Char
  | '\\' :: 'u' :: '\x7b' :: rest => some (Char.ofNat (hexValue (rest.takeWhile (· ≠ '\x7d'))))
  | '\\' :: '0' :: _ => some '\x00'
  | '\\' :: 't' :: _ => some '\t'
  | '\\' :: 'n' :: _ => some '\n'
  | '\\' :: 'r' :: _ => some '\r'
  | '\\' :: c :: _ => some c
  | c :: _ => some c
  | [] => none

theorem firstQuoted?_append (c : Char) (rest : List Char) :
    firstQuoted? (quotedChar c ++ rest) = some c := by
  by_cases hquote : c = '"'
  · subst hquote; rfl
  by_cases hbackslash : c = '\\'
  · subst hbackslash; rfl
  by_cases hnul : c = '\x00'
  · subst hnul; rfl
  by_cases htab : c = '\t'
  · subst htab; rfl
  by_cases hfeed : c = '\n'
  · subst hfeed; rfl
  by_cases hreturn : c = '\r'
  · subst hreturn; rfl
  have hquoted : quotedChar c =
      if isUnshown c then ['\\', 'u', '\x7b'] ++ Nat.toDigits 16 c.toNat ++ ['\x7d'] else [c] := by
    simp [quotedChar, hquote, hbackslash, hnul, htab, hfeed, hreturn]
  rw [hquoted]
  split
  · simp only [List.cons_append, List.nil_append, List.append_assoc, firstQuoted?,
      takeWhile_toDigits, hexValue_toDigits, Char.ofNat_toNat]
  · simp [firstQuoted?, hbackslash]

theorem flatMap_quotedChar_inj {cs ds : List Char} (h : cs.flatMap quotedChar = ds.flatMap quotedChar) :
    cs = ds := by
  induction cs generalizing ds with
  | nil =>
    cases ds with
    | nil => rfl
    | cons d ds =>
      have hfirst := firstQuoted?_append d (ds.flatMap quotedChar)
      rw [← List.flatMap_cons, ← h] at hfirst
      cases hfirst
  | cons c cs ih =>
    have hfirst := firstQuoted?_append c (cs.flatMap quotedChar)
    rw [← List.flatMap_cons, h] at hfirst
    cases ds with
    | nil => cases hfirst
    | cons d ds =>
      rw [List.flatMap_cons, firstQuoted?_append] at hfirst
      obtain rfl : d = c := Option.some.inj hfirst
      rw [List.flatMap_cons, List.flatMap_cons] at h
      rw [ih (List.append_cancel_left h)]

/-- **No two texts are quoted alike.** -/
theorem quoted_inj {s t : String} : quoted s = quoted t ↔ s = t := by
  refine ⟨fun h => ?_, fun h => h ▸ rfl⟩
  have hchars := String.ofList_injective h
  rw [List.cons_append, List.cons_append] at hchars
  have hinside := List.append_cancel_right (List.cons.inj hchars).2
  exact String.toList_inj.mp (flatMap_quotedChar_inj hinside)

end DataRepository.Text
