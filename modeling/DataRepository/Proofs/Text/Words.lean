import DataRepository.Text.Blank

/-! # Words as stretches of a text

`words` cuts a text at its blanks while it reads. Here a word is described by
where it stands: it holds no blank, and before and after it there is a blank or
the end of the text. -/
namespace DataRepository.Text

/-- The list is empty or begins with a blank. -/
def EndsWord (cs : List Char) : Prop := ∀ c ∈ cs.head?, isBlank c = true

/-- The text `w` stands in `s` between blanks or ends of the text. -/
structure IsWord (w s : String) : Prop where
  ne_empty : w ≠ ""
  unblank : ∀ c ∈ w.toList, isBlank c = false
  stands : ∃ before after, s.toList = before ++ w.toList ++ after ∧
    EndsWord before.reverse ∧ EndsWord after

/-- Two stretches without blanks that start at the same place and end where a
word ends are one stretch. -/
theorem eq_of_endsWord {v w as bs : List Char} (h : v ++ as = w ++ bs)
    (hv : ∀ c ∈ v, isBlank c = false) (hw : ∀ c ∈ w, isBlank c = false)
    (ha : EndsWord as) (hb : EndsWord bs) : v = w := by
  induction v generalizing w with
  | nil =>
    cases w with
    | nil => rfl
    | cons c w =>
      have hc := ha c (by simp at h; simp [h])
      rw [hw c (by simp)] at hc; cases hc
  | cons d v ih =>
    cases w with
    | nil =>
      have hd := hb d (by simp at h; simp [← h])
      rw [hv d (by simp)] at hd; cases hd
    | cons c w =>
      simp only [List.cons_append, List.cons.injEq] at h
      rw [h.1, ih h.2 (fun c hc => hv c (by simp [hc])) (fun c hc => hw c (by simp [hc]))]

/-- A word of a text of which `current` has been read is the stretch that begins
with `current`, or it comes after a blank that is still to be read. -/
theorem mem_wordsFrom_iff {w current cs : List Char} (hne : w ≠ [])
    (hw : ∀ c ∈ w, isBlank c = false) (hc : ∀ c ∈ current, isBlank c = false) :
    w ∈ wordsFrom current cs ↔
      (∃ after, current.reverse ++ cs = w ++ after ∧ EndsWord after) ∨
      ∃ before b after, cs = before ++ b :: (w ++ after) ∧ isBlank b = true ∧ EndsWord after := by
  induction cs generalizing current with
  | nil =>
    have hr : ∀ c ∈ current.reverse, isBlank c = false := by simpa using hc
    constructor
    · intro h
      left
      refine ⟨[], ?_, by simp [EndsWord]⟩
      cases current <;> simp_all [wordsFrom]
    · rintro (⟨after, h, ha⟩ | ⟨before, b, after, h, -, -⟩)
      · have he := eq_of_endsWord h hr hw (by simp [EndsWord]) ha
        cases current with
        | nil => exact absurd he.symm hne
        | cons d ds => simp only [wordsFrom, List.isEmpty_cons, Bool.false_eq_true, if_false,
            List.mem_singleton, he]
      · cases before <;> simp at h
  | cons c rest ih =>
    by_cases hb : isBlank c = true
    · have hstep : w ∈ wordsFrom current (c :: rest) ↔
          w = current.reverse ∨ w ∈ wordsFrom [] rest := by
        cases current with
        | nil => simp [wordsFrom, hb, hne]
        | cons d ds => simp [wordsFrom, hb]
      have hr : ∀ c ∈ current.reverse, isBlank c = false := by simpa using hc
      rw [hstep, @ih [] (by simp)]
      constructor
      · rintro (rfl | ⟨after, h, ha⟩ | ⟨before, b, after, h, hb', ha⟩)
        · exact .inl ⟨c :: rest, rfl, by simpa [EndsWord] using hb⟩
        · exact .inr ⟨[], c, after, by simpa using h, hb, ha⟩
        · exact .inr ⟨c :: before, b, after, by simp [h], hb', ha⟩
      · rintro (⟨after, h, ha⟩ | ⟨before, b, after, h, hb', ha⟩)
        · exact .inl (eq_of_endsWord h hr hw (by simpa [EndsWord] using hb) ha).symm
        · right
          cases before with
          | nil =>
            simp only [List.nil_append, List.cons.injEq] at h
            exact .inl ⟨after, by simpa using h.2, ha⟩
          | cons d before =>
            simp only [List.cons_append, List.cons.injEq] at h
            exact .inr ⟨before, b, after, h.2, hb', ha⟩
    · have hb : isBlank c = false := by simpa using hb
      have hcc : ∀ d ∈ c :: current, isBlank d = false := by
        intro d hd
        rcases List.mem_cons.mp hd with rfl | hd
        · exact hb
        · exact hc d hd
      rw [show wordsFrom current (c :: rest) = wordsFrom (c :: current) rest by
        simp [wordsFrom, hb], ih hcc]
      constructor
      · rintro (⟨after, h, ha⟩ | ⟨before, b, after, h, hb', ha⟩)
        · exact .inl ⟨after, by simpa using h, ha⟩
        · exact .inr ⟨c :: before, b, after, by simp [h], hb', ha⟩
      · rintro (⟨after, h, ha⟩ | ⟨before, b, after, h, hb', ha⟩)
        · exact .inl ⟨after, by simpa using h, ha⟩
        · cases before with
          | nil =>
            simp only [List.nil_append, List.cons.injEq] at h
            rw [h.1, hb'] at hb; cases hb
          | cons d before =>
            simp only [List.cons_append, List.cons.injEq] at h
            exact .inr ⟨before, b, after, h.2, hb', ha⟩

/-- **The words of a text are the stretches between its blanks.** -/
theorem mem_words_iff {w s : String} : w ∈ words s ↔ IsWord w s := by
  have hmem : w ∈ words s ↔ w.toList ∈ wordsFrom [] s.toList := by
    simp only [words, List.mem_map]
    constructor
    · rintro ⟨cs, hm, rfl⟩; simpa using hm
    · intro hm; exact ⟨w.toList, hm, String.ofList_toList⟩
  constructor
  · intro h
    obtain ⟨hne, hw⟩ := mem_words h
    have hne' : w.toList ≠ [] := fun he => hne (String.toList_eq_nil_iff.mp he)
    refine ⟨hne, hw, ?_⟩
    rcases (mem_wordsFrom_iff hne' hw (by simp)).mp (hmem.mp h) with
      ⟨after, h, ha⟩ | ⟨before, b, after, h, hb, ha⟩
    · exact ⟨[], after, by simpa using h, by simp [EndsWord], ha⟩
    · exact ⟨before ++ [b], after, by simp [h], by simpa [EndsWord] using hb, ha⟩
  · rintro ⟨hne, hw, before, after, h, hbefore, ha⟩
    have hne' : w.toList ≠ [] := fun he => hne (String.toList_eq_nil_iff.mp he)
    refine hmem.mpr ((mem_wordsFrom_iff hne' hw (by simp)).mpr ?_)
    rcases List.eq_nil_or_concat before with rfl | ⟨before, b, rfl⟩
    · exact .inl ⟨after, by simpa using h, ha⟩
    · refine .inr ⟨before, b, after, by simp [h], ?_, ha⟩
      simpa [EndsWord] using hbefore

end DataRepository.Text
