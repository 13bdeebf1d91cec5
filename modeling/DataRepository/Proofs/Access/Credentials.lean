import DataRepository.Access.Bearer
import DataRepository.Proofs.Text.Trimming
import DataRepository.Proofs.Text.Utf8
import Mathlib.Data.List.Forall2

/-! # Headers that carry a token

`bearerToken?` trims, cuts after seven characters, folds the case of what is before the cut and
trims what is after it. `Bears` says what a header with a token looks like from its first character
to its last, and the two agree on every text. -/
namespace DataRepository.Access

open Text

def schemeName : List Char := "bearer".toList

/-- The text is the word, which is one of small letters, in any case of its letters. -/
def IsCaseOf (cs word : List Char) : Prop :=
  List.Forall₂ (fun c l => c = l ∨ c = l.toUpper) cs word

/-- The header is the scheme, a space and the token, with blanks before the scheme, between the space
and the token, and after the token. -/
structure Bears (header token : String) : Prop where
  ne_empty : token ≠ ""
  trimmed : IsTrimmed token.toList
  framed : ∃ before scheme between after,
    header.toList = before ++ (scheme ++ ' ' :: (between ++ token.toList)) ++ after ∧
      IsCaseOf scheme schemeName ∧ AllBlank before ∧ AllBlank between ∧ AllBlank after

/-! ## Letters and their case -/

theorem isLower_iff {c : Char} : c.isLower = true ↔ 97 ≤ c.toNat ∧ c.toNat ≤ 122 := by
  show (decide ('a'.val ≤ c.val) && decide (c.val ≤ 'z'.val)) = true ↔ _
  rw [Bool.and_eq_true, decide_eq_true_eq, decide_eq_true_eq]
  exact Iff.rfl

theorem toNat_toLower (c : Char) :
    c.toLower.toNat = if 65 ≤ c.toNat ∧ c.toNat ≤ 90 then c.toNat + 32 else c.toNat := by
  have hrange : (c.val ≥ 'A'.val ∧ c.val ≤ 'Z'.val) ↔ 65 ≤ c.toNat ∧ c.toNat ≤ 90 := Iff.rfl
  by_cases h : 65 ≤ c.toNat ∧ c.toNat ≤ 90
  · have hsum : c.toLower.val = c.val + 32 := congrArg Char.val (dif_pos (hrange.mpr h))
    rw [if_pos h, ← Char.toNat_val, hsum, UInt32.toNat_add, Char.toNat_val]
    exact Nat.mod_eq_of_lt (Nat.lt_of_le_of_lt (Nat.add_le_add_right h.2 32) (by decide))
  · have hsame : c.toLower = c := dif_neg (mt hrange.mp h)
    rw [if_neg h, hsame]

theorem toNat_toUpper {c : Char} (h : c.isLower = true) : c.toUpper.toNat = c.toNat - 32 := by
  have hrange : 'a'.val ≤ c.val ∧ c.val ≤ 'z'.val := isLower_iff.mp h
  have hcapital : c.toUpper = ⟨c.val + ('A'.val - 'a'.val), _⟩ := dif_pos hrange
  have hsum : c.toUpper.val = c.val + ('A'.val - 'a'.val) := by rw [hcapital]
  have hstep : ('A'.val - 'a'.val).toNat = 2 ^ 32 - 32 := rfl
  have hnat := isLower_iff.mp h
  rw [← Char.toNat_val, hsum, UInt32.toNat_add, hstep, Char.toNat_val]
  omega

/-- A character that is folded into a small letter is this letter or the capital of it. -/
theorem toLower_eq_iff {c l : Char} (hl : l.isLower = true) :
    c.toLower = l ↔ c = l ∨ c = l.toUpper := by
  have hrange := isLower_iff.mp hl
  rw [← Char.toNat_inj, ← Char.toNat_inj, ← Char.toNat_inj, toNat_toLower, toNat_toUpper hl]
  split <;> omega

theorem toLower_eq_space {c : Char} : c.toLower = ' ' ↔ c = ' ' := by
  have hspace : ' '.toNat = 32 := rfl
  rw [← Char.toNat_inj, ← Char.toNat_inj, toNat_toLower, hspace]
  split <;> omega

/-! ## The scheme -/

theorem map_toLower_eq_iff {cs word : List Char} (hword : ∀ l ∈ word, l.isLower = true) :
    cs.map Char.toLower = word ↔ IsCaseOf cs word := by
  induction word generalizing cs with
  | nil => rw [List.map_eq_nil_iff, IsCaseOf, List.forall₂_nil_right_iff]
  | cons l word ih =>
    obtain ⟨hl, hword⟩ := List.forall_mem_cons.mp hword
    cases cs with
    | nil => exact iff_of_false nofun nofun
    | cons c cs =>
      rw [List.map_cons, List.cons.injEq, toLower_eq_iff hl, ih hword, IsCaseOf, IsCaseOf,
        List.forall₂_cons]

theorem forall_mem_schemeName {p : Char → Prop} [DecidablePred p]
    (h : (schemeName.all fun l => p l) = true) : ∀ l ∈ schemeName, p l := fun l hl =>
  of_decide_eq_true (List.all_eq_true.mp h l hl)

theorem map_toLower_eq_schemeName {cs : List Char} :
    cs.map Char.toLower = schemeName ↔ IsCaseOf cs schemeName :=
  map_toLower_eq_iff (forall_mem_schemeName rfl)

/-- What is true of each letter of a word in both cases is true of the word in any case. -/
theorem IsCaseOf.forall_mem {cs word : List Char} {p : Char → Prop} (h : IsCaseOf cs word)
    (hword : ∀ l ∈ word, p l ∧ p l.toUpper) : ∀ c ∈ cs, p c := by
  induction h with
  | nil => exact List.forall_mem_nil _
  | cons hc _ ih =>
    obtain ⟨⟨hsmall, hcapital⟩, hword⟩ := List.forall_mem_cons.mp hword
    refine List.forall_mem_cons.mpr ⟨?_, ih hword⟩
    rcases hc with rfl | rfl
    · exact hsmall
    · exact hcapital

theorem IsCaseOf.unblank {scheme : List Char} (h : IsCaseOf scheme schemeName) :
    ∀ c ∈ scheme, isBlank c = false :=
  h.forall_mem (forall_mem_schemeName rfl)

theorem IsCaseOf.ascii {scheme : List Char} (h : IsCaseOf scheme schemeName) :
    ∀ c ∈ scheme, c.toNat < 128 :=
  h.forall_mem (forall_mem_schemeName rfl)

/-- What is folded into the scheme with its space is the scheme in some case, and a space. -/
theorem map_toLower_eq_bearerScheme {cs : List Char} :
    cs.map Char.toLower = bearerScheme ↔
      ∃ scheme, cs = scheme ++ [' '] ∧ IsCaseOf scheme schemeName := by
  have hscheme : bearerScheme = schemeName ++ [' '] := rfl
  rw [hscheme, List.map_eq_append_iff]
  constructor
  · intro h
    obtain ⟨scheme, space, rfl, hname, hspace⟩ := h
    obtain ⟨c, rfl, hc⟩ := List.map_eq_singleton_iff.mp hspace
    rw [toLower_eq_space.mp hc]
    exact ⟨scheme, rfl, map_toLower_eq_schemeName.mp hname⟩
  · intro h
    obtain ⟨scheme, rfl, hname⟩ := h
    exact ⟨scheme, [' '], rfl, map_toLower_eq_schemeName.mpr hname, rfl⟩

/-! ## Reading a header -/

/-- What is left of a header with a token when the blanks around it are trimmed. -/
theorem Bears.exists_trimChars {header token : String} (h : Bears header token) :
    ∃ scheme between, trimChars header.toList = scheme ++ [' '] ++ (between ++ token.toList) ∧
      IsCaseOf scheme schemeName ∧ AllBlank between := by
  obtain ⟨before, scheme, between, after, hheader, hscheme, hbefore, hbetween, hafter⟩ := h.framed
  have hne : token.toList ≠ [] := fun he => h.ne_empty (String.toList_eq_nil_iff.mp he)
  have hletters : scheme ≠ [] := by
    rintro rfl
    cases hscheme
  have hcore : IsTrimmed (scheme ++ ' ' :: (between ++ token.toList)) := by
    rw [← List.cons_append, ← List.append_assoc]
    exact isTrimmed_append (isTrimmed_of_unblank hscheme.unblank) hletters h.trimmed hne
  refine ⟨scheme, between, ?_, hscheme, hbetween⟩
  rw [hheader, trimChars_of_isTrimmed hbefore hcore hafter, List.append_assoc, List.singleton_append]

/-- **A header carries a token exactly if it has the form of one that does.** -/
theorem bearerToken?_eq_some_iff {header token : String} :
    bearerToken? header = some token ↔ Bears header token := by
  constructor
  · intro h
    simp only [bearerToken?] at h
    split at h
    · rename_i hform
      obtain ⟨hcase, hne⟩ := hform
      obtain ⟨scheme, htake, hscheme⟩ := map_toLower_eq_bearerScheme.mp hcase
      obtain ⟨before, after, hheader, hbefore, hafter⟩ := exists_trimChars header.toList
      obtain ⟨between, after', hrest, hbetween, hafter'⟩ :=
        exists_trimChars ((trimChars header.toList).drop bearerScheme.length)
      obtain rfl := Option.some.inj h
      refine ⟨fun he => hne ?_, ?_, before, scheme, between, after' ++ after, ?_, hscheme, hbefore,
        hbetween, hafter'.append hafter⟩
      · rw [← String.toList_eq_nil_iff, String.toList_ofList] at he
        exact he
      · rw [String.toList_ofList]
        exact isTrimmed_trimChars _
      · -- The trimmed header is what was cut off and what was left, which was trimmed once more.
        rw [String.toList_ofList]
        conv_lhs =>
          rw [hheader, ← List.take_append_drop bearerScheme.length (trimChars header.toList), htake,
            hrest]
        simp only [List.append_assoc, List.cons_append, List.nil_append]
    · cases h
  · intro h
    obtain ⟨scheme, between, htrim, hscheme, hbetween⟩ := h.exists_trimChars
    have hlength : bearerScheme.length = (scheme ++ [' ']).length := by
      rw [List.length_append, hscheme.length_eq]
      rfl
    have htoken : trimChars (between ++ token.toList) = token.toList :=
      trimChars_eq_iff.mpr ⟨h.trimmed, between, [], (List.append_nil _).symm, hbetween, .nil⟩
    have hne : token.toList ≠ [] := fun he => h.ne_empty (String.toList_eq_nil_iff.mp he)
    have hcase := map_toLower_eq_bearerScheme.mpr ⟨scheme, rfl, hscheme⟩
    rw [bearerToken?, htrim, hlength, List.take_left, List.drop_left, htoken, if_pos ⟨hcase, hne⟩,
      String.ofList_toList]

theorem bearerToken?_eq_none_iff {header : String} :
    bearerToken? header = none ↔ ∀ token, ¬ Bears header token := by
  rw [Option.eq_none_iff_forall_ne_some]
  exact forall_congr' fun token => not_congr bearerToken?_eq_some_iff

/-- What carries a token is not blank. -/
theorem Bears.not_allBlank {header token : String} (h : Bears header token) :
    ¬ AllBlank header.toList := by
  intro hblank
  obtain ⟨before, scheme, between, after, hheader, hscheme, -⟩ := h.framed
  have hunblank := hscheme.unblank
  cases hscheme with
  | cons =>
    have hfirst := hunblank _ List.mem_cons_self
    rw [hblank _ (by simp [hheader])] at hfirst
    cases hfirst

/-- The scheme and its space take the first seven bytes of a header that has been trimmed. -/
theorem Bears.exists_beginning {header token : String} (h : Bears header token) :
    ∃ first rest, trimChars header.toList = first ++ rest ∧ (utf8 first).length = 7 := by
  obtain ⟨scheme, between, htrim, hscheme, -⟩ := h.exists_trimChars
  refine ⟨scheme ++ [' '], _, htrim, ?_⟩
  have hascii : ∀ c ∈ scheme ++ [' '], c.toNat < 128 :=
    List.forall_mem_append.mpr ⟨hscheme.ascii, List.forall_mem_singleton.mpr (by decide)⟩
  rw [utf8_ascii hascii, List.length_map, List.length_append, hscheme.length_eq]
  rfl

end DataRepository.Access
