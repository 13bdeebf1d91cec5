import DataRepository.Patch.Pointer
import DataRepository.Proofs.Text.Replacing
import DataRepository.Proofs.Text.Split

/-! # Names in pointers, by replacement

A name is escaped by two replacements, one after the other: first `~0` for every `~`, then
`~1` for every `/`. It is read back by two replacements as well, first of `~1` and then of
`~0`; the other way round `~01` would not be read as `~1`. Both come to what is done in
one pass over the characters (`escape_eq_replace`, `unescape_eq_replace`), since the first
replacement makes no match for the second that was none before. -/
namespace DataRepository.Patch

open Text (replace replace_append replace_cons_of_unmatched replace_singleton head?_replace cutAtLast?
  cutAtLast?_append cutAtLast?_of_not_mem exists_of_mem_last)

/-- **Escaping in two replacements.** -/
theorem escape_eq_replace (name : List Char) :
    escape name = replace ['/'] ['~', '1'] (replace ['~'] ['~', '0'] name) := by
  have hchar : ∀ c, escapeChar c =
      (if c = '~' then ['~', '0'] else [c]).flatMap fun c => if c = '/' then ['~', '1'] else [c] := by
    intro c
    by_cases htilde : c = '~'
    · simp [escapeChar, htilde]
    · simp [escapeChar, htilde]
  rw [replace_singleton, replace_singleton, List.flatMap_assoc, escape]
  exact congrArg (name.flatMap ·) (funext hchar)

/-- **Reading an escaped name in two replacements.** -/
theorem unescape_eq_replace (cs : List Char) :
    unescape cs = replace ['~', '0'] ['~'] (replace ['~', '1'] ['/'] cs) := by
  have hslash (rest : List Char) : replace ['~', '1'] ['/'] ('~' :: '1' :: rest) =
      '/' :: replace ['~', '1'] ['/'] rest := replace_append (List.cons_ne_nil _ _) ['/'] rest
  have htilde (rest : List Char) : replace ['~', '0'] ['~'] ('~' :: '0' :: rest) =
      '~' :: replace ['~', '0'] ['~'] rest := replace_append (List.cons_ne_nil _ _) ['~'] rest
  induction cs using unescape.induct with
  | case1 rest ih =>
    rw [unescape, hslash, replace_cons_of_unmatched (by simp [List.cons_prefix_cons]), ih]
  | case2 rest ih =>
    have hkept : replace ['~', '1'] ['/'] ('~' :: '0' :: rest) =
        '~' :: '0' :: replace ['~', '1'] ['/'] rest := by
      rw [replace_cons_of_unmatched (by simp [List.cons_prefix_cons]),
        replace_cons_of_unmatched (by simp [List.cons_prefix_cons])]
    rw [unescape, hkept, htilde, ih]
  | case3 c rest hone hzero ih =>
    -- No match starts here, neither in the text nor in what the first replacement makes of it.
    have hfirst : ¬ ['~', '1'] <+: c :: rest := by
      rintro ⟨after, hafter⟩
      obtain ⟨rfl, rfl⟩ : '~' = c ∧ '1' :: after = rest := by simpa using hafter
      exact hone after rfl rfl
    have hsecond : ¬ ['~', '0'] <+: c :: replace ['~', '1'] ['/'] rest := by
      rintro ⟨after, hafter⟩
      obtain ⟨rfl, hreplaced⟩ : '~' = c ∧ '0' :: after = replace ['~', '1'] ['/'] rest := by
        simpa using hafter
      rcases head?_replace ['~', '1'] '/' [] rest with hhead | hhead
      · rw [← hreplaced] at hhead
        cases hhead
      · rw [← hreplaced, List.head?_cons] at hhead
        obtain ⟨tail, htail⟩ := List.head?_eq_some_iff.mp hhead.symm
        exact hzero tail rfl htail
    rw [replace_cons_of_unmatched hfirst, replace_cons_of_unmatched hsecond, ← ih, unescape]
    · exact hone
    · exact hzero
  | case4 => rfl

/-! ## The last name -/

/-- **The last name of a pointer is what stands after its last slash, read in two replacements.** -/
theorem splitLast?_eq_cutAtLast? (p : String) :
    splitLast? p = (cutAtLast? '/' p.toList).map fun (parent, last) =>
      (String.ofList parent,
        String.ofList (replace ['~', '0'] ['~'] (replace ['~', '1'] ['/'] last))) := by
  by_cases hslash : '/' ∈ p.toList
  · obtain ⟨parent, last, hp, hlast⟩ := exists_of_mem_last hslash
    have hparts : (p.toList.splitOn '/').reverse = last :: (parent.splitOn '/').reverse := by
      rw [hp, List.splitOn_append_cons_self, List.splitOn_eq_singleton hlast, List.reverse_append]
      rfl
    obtain ⟨first, rest, hfirst⟩ := List.exists_cons_of_ne_nil
      (List.reverse_ne_nil_iff.mpr (List.splitOn_ne_nil '/' parent))
    have hparent : ['/'].intercalate (first :: rest).reverse = parent := by
      rw [← hfirst, List.reverse_reverse, List.intercalate_splitOn]
    rw [splitLast?, hparts, hfirst, hp, cutAtLast?_append hlast]
    simp only [hparent, unescape_eq_replace, Option.map_some]
  · rw [splitLast?, List.splitOn_eq_singleton hslash, cutAtLast?_of_not_mem hslash]
    rfl

end DataRepository.Patch
