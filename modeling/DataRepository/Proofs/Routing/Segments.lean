import DataRepository.Proofs.Routing.Search
import DataRepository.Proofs.Steps
import DataRepository.Proofs.Text.Split
import Mathlib.Data.List.Forall2
import Mathlib.Data.List.TakeWhile

/-! # Patterns segment by segment

A pattern whose words are parameters or plain texts, the last one a plain text,
stands for the paths that have as many segments, each of them read by the word
in its place. A parameter reads an empty segment as well. Every pattern starts with a
slash, and one that ends in a slash has a text that does (`slash_of_ofText`). -/
namespace DataRepository.Routing

/-- Whether the words of a pattern read the segments of a path. -/
def Reads (words segs : List (List Char)) : Prop :=
  List.Forall₂ (fun w s => w.head? = some ':' ∨ w = s) words segs

instance (words segs : List (List Char)) : Decidable (Reads words segs) :=
  inferInstanceAs (Decidable (List.Forall₂ _ words segs))

/-- Whether the words of two patterns could read the same segments. -/
def Overlap (ws vs : List (List Char)) : Prop :=
  List.Forall₂ (fun w v => w.head? = some ':' ∨ v.head? = some ':' ∨ w = v) ws vs

instance (ws vs : List (List Char)) : Decidable (Overlap ws vs) :=
  inferInstanceAs (Decidable (List.Forall₂ _ ws vs))

theorem Reads.overlap {ws vs segs : List (List Char)} (hw : Reads ws segs) (hv : Reads vs segs) :
    Overlap ws vs := by
  induction hw generalizing vs with
  | nil =>
    cases hv
    exact .nil
  | cons hhead _ ih =>
    obtain - | ⟨hhead', hv⟩ := hv
    refine .cons ?_ (ih hv)
    rcases hhead with hhead | rfl
    · exact .inl hhead
    · rcases hhead' with hhead' | rfl
      · exact .inr (.inl hhead')
      · exact .inr (.inr rfl)

/-- Words that are parameters or plain texts, the last one a plain text. -/
structure Plain (ws : List (List Char)) : Prop where
  words : ∀ w ∈ ws, '/' ∉ w ∧ (w.head? = some ':' ∨ ∀ c ∈ w, isMark c = false)
  last : ∀ w ∈ ws.getLast?, w.head? ≠ some ':'

theorem Plain.tail {w : List Char} {ws : List (List Char)} (h : Plain (w :: ws)) : Plain ws where
  words := fun v hv => h.words v (List.mem_cons_of_mem _ hv)
  last := by
    cases ws with
    | nil => simp
    | cons v vs => simpa using h.last

/-! ## The pattern of a word -/

namespace Pattern

variable {w : List Char} {ws : List (List Char)} {p : Pattern} {isLast : Bool}

theorem ofSegment_plain (h : ∀ c ∈ w, isMark c = false) :
    ofSegment isLast w = .ok (w.map .text) := by
  have hstart : w.takeWhile (! isMark ·) = w := by
    rw [List.takeWhile_eq_self_iff]
    intro c hc
    simp [h c hc]
  simp [ofSegment, hstart]

theorem ofSegment_parameter (hw : w.head? = some ':') (h : ofSegment isLast w = .ok p) :
    p = [.parameter] := by
  obtain ⟨name, rfl⟩ := List.head?_eq_some_iff.mp hw
  simp only [ofSegment, isMark, List.takeWhile_cons] at h
  simp only [true_or, decide_true, Bool.not_true, Bool.false_eq_true, if_false, List.length_nil,
    List.drop_zero, List.map_nil, List.nil_append, if_true] at h
  split at h
  · cases h
  · split at h
    · cases h
    · cases h; rfl

theorem ofSegments_cons (h : ofSegments (w :: ws) = .ok p) :
    ∃ q r, ofSegment ws.isEmpty w = .ok q ∧ ofSegments ws = .ok r ∧ p = .text '/' :: (q ++ r) := by
  simp only [ofSegments] at h
  cases hq : ofSegment ws.isEmpty w with
  | error why => simp [hq, bind, Except.bind] at h
  | ok q =>
    cases hr : ofSegments ws with
    | error why => simp [hq, hr, bind, Except.bind] at h
    | ok r =>
      simp only [hq, hr, bind, Except.bind, pure, Except.pure, Except.ok.injEq] at h
      exact ⟨q, r, rfl, rfl, h.symm⟩

theorem head?_ne_of_plain (h : ∀ c ∈ w, isMark c = false) : w.head? ≠ some ':' := by
  intro hw
  obtain ⟨name, rfl⟩ := List.head?_eq_some_iff.mp hw
  exact absurd (h ':' List.mem_cons_self) (by decide)

/-! ## The paths of a pattern -/

theorem not_mem_takeWhile (cs : List Char) : '/' ∉ cs.takeWhile (· ≠ '/') := by
  intro h
  simpa using List.mem_takeWhile_imp h

theorem dropWhile_append_slash {cs rest : List Char} (h : '/' ∉ cs) :
    (cs ++ '/' :: rest).dropWhile (· ≠ '/') = '/' :: rest := by
  have hall : ∀ c ∈ cs, decide (c ≠ '/') = true := by
    intro c hc
    simpa using ne_of_mem_of_not_mem hc h
  rw [List.dropWhile_append_of_pos hall]
  simp

/-- **A pattern stands for the paths whose segments its words read.** -/
theorem stands_ofSegments {path : List Char} (h : ofSegments ws = .ok p) (hws : Plain ws) :
    Stands p path ↔
      ∃ segs, Reads ws segs ∧ (∀ s ∈ segs, '/' ∉ s) ∧ path = segs.flatMap ('/' :: ·) := by
  induction ws generalizing p path with
  | nil =>
    obtain rfl : [] = p := by simpa [ofSegments, pure, Except.pure] using h
    simp [Stands, Reads]
  | cons w ws ih =>
    obtain ⟨q, r, hq, hr, rfl⟩ := ofSegments_cons h
    have ih := fun path => @ih r path hr hws.tail
    obtain ⟨hslash, hparam | hplain⟩ := hws.words w List.mem_cons_self
    · obtain rfl := ofSegment_parameter hparam hq
      cases ws with
      | nil => exact absurd hparam (hws.last w rfl)
      | cons v vs =>
        obtain ⟨_, _, -, -, rfl⟩ := ofSegments_cons hr
        constructor
        · rintro ⟨tail, rfl, -, -, hs⟩
          obtain ⟨segs, hread, hsegs, hrest⟩ := (ih _).mp hs
          refine ⟨tail.takeWhile (· ≠ '/') :: segs, .cons (.inl hparam) hread, ?_, ?_⟩
          · exact List.forall_mem_cons.mpr ⟨not_mem_takeWhile tail, hsegs⟩
          · rw [List.flatMap_cons, ← hrest, List.cons_append, List.takeWhile_append_dropWhile]
        · rintro ⟨_, hread, hsegs, rfl⟩
          obtain ⟨s, _, -, hbelow, rfl⟩ := List.forall₂_cons_left_iff.mp hread
          obtain ⟨first, rest, -, -, rfl⟩ := List.forall₂_cons_left_iff.mp hbelow
          obtain ⟨hs, hsegs⟩ := List.forall_mem_cons.mp hsegs
          refine ⟨s ++ '/' :: (first ++ rest.flatMap ('/' :: ·)), by simp, by simp, .inr rfl, ?_⟩
          rw [dropWhile_append_slash hs]
          exact (ih _).mpr ⟨_, hbelow, hsegs, by simp⟩
    · obtain rfl : w.map Piece.text = q := by simpa [ofSegment_plain hplain] using hq
      simp only [Stands, stands_append, ih]
      constructor
      · rintro ⟨_, rfl, _, rfl, segs, hsegs, hs, rfl⟩
        exact ⟨w :: segs, .cons (.inr rfl) hsegs, by simpa [hslash] using hs, by simp⟩
      · rintro ⟨_, hread, hs, rfl⟩
        obtain ⟨s, segs, hword, hbelow, rfl⟩ := List.forall₂_cons_left_iff.mp hread
        obtain rfl := hword.resolve_left (head?_ne_of_plain hplain)
        exact ⟨_, by simp, _, rfl, segs, hbelow, (List.forall_mem_cons.mp hs).2, rfl⟩

theorem intercalate_cons (s : List Char) (segs : List (List Char)) :
    ['/'].intercalate (s :: segs) = s ++ segs.flatMap ('/' :: ·) := by
  induction segs generalizing s with
  | nil => simp
  | cons first rest ih => simp [List.intercalate_cons_cons, ih]

theorem splitOn_eq_nil_cons_iff {path : List Char} {segs : List (List Char)} :
    path.splitOn '/' = [] :: segs ↔ (∀ s ∈ segs, '/' ∉ s) ∧ path = segs.flatMap ('/' :: ·) := by
  constructor
  · intro h
    refine ⟨fun s hs => Text.not_mem_of_mem_splitOn (h ▸ List.mem_cons_of_mem _ hs), ?_⟩
    have hpath : ['/'].intercalate (path.splitOn '/') = path := List.intercalate_splitOn '/'
    rw [h, intercalate_cons] at hpath
    exact hpath.symm
  · rintro ⟨hsegs, rfl⟩
    have hall : ∀ s ∈ [] :: segs, '/' ∉ s := by simpa using hsegs
    have hsplit := List.splitOn_intercalate '/' hall (by simp)
    rwa [intercalate_cons] at hsplit

theorem exists_ofSegments {text : String} (h : ofText text = .ok p) :
    ∃ segs, text.toList.splitOn '/' = [] :: segs ∧ ofSegments segs = .ok p := by
  unfold ofText at h
  split at h
  · rename_i cs htext
    have hsplit : ('/' :: cs).splitOn '/' = [] :: cs.splitOn '/' :=
      List.splitOn_append_cons_self_of_not_mem List.not_mem_nil cs
    have hseg : segments ('/' :: cs) = cs.splitOn '/' := by rw [segments, hsplit, List.tail_cons]
    obtain ⟨q, hq, h⟩ := exists_of_bind_eq_ok h
    refine ⟨cs.splitOn '/', htext ▸ hsplit, ?_⟩
    split at h
    · cases h
    · cases h
      rwa [← hseg]
  · cases h

/-- **A pattern stands for the paths that its text reads segment by segment.** -/
theorem stands_ofText {text : String} {path : List Char} (h : ofText text = .ok p)
    (hws : Plain (segments text.toList)) :
    Stands p path ↔ Reads (text.toList.splitOn '/') (path.splitOn '/') := by
  obtain ⟨words, hsplit, hp⟩ := exists_ofSegments h
  have hwords : segments text.toList = words := by rw [segments, hsplit, List.tail_cons]
  rw [hwords] at hws
  rw [stands_ofSegments hp hws, hsplit]
  constructor
  · rintro ⟨segs, hread, hsegs⟩
    rw [splitOn_eq_nil_cons_iff.mpr hsegs]
    exact .cons (.inr rfl) hread
  · intro hread
    obtain ⟨first, segs, hword, hbelow, hpath⟩ := List.forall₂_cons_left_iff.mp hread
    obtain rfl : [] = first := by simpa using hword
    exact ⟨segs, hbelow, splitOn_eq_nil_cons_iff.mp hpath⟩

/-! ## The ends of a pattern -/

theorem head?_of_ofText {text : String} (h : ofText text = .ok p) :
    p.head? = some (.text '/') := by
  obtain ⟨segs, hsplit, hp⟩ := exists_ofSegments h
  cases segs with
  | nil =>
    have hlist := (splitOn_eq_nil_cons_iff.mp hsplit).2
    simp [ofText, hlist] at h
  | cons w ws =>
    obtain ⟨q, r, -, -, rfl⟩ := ofSegments_cons hp
    rfl

theorem ofSegment_pieces {q : Pattern} (hw : '/' ∉ w) (h : ofSegment isLast w = .ok q) :
    .text '/' ∉ q ∧ (q = [] → w = []) := by
  have hstart : .text '/' ∉ (w.takeWhile (! isMark ·)).map Piece.text := by
    intro hmem
    obtain ⟨c, hc, hslash⟩ := List.mem_map.mp hmem
    cases hslash
    exact hw ((List.takeWhile_prefix _).subset hc)
  simp only [ofSegment] at h
  split at h
  · rename_i hdrop
    cases h
    refine ⟨hstart, fun hnil => ?_⟩
    rw [List.map_eq_nil_iff] at hnil
    rwa [hnil, List.length_nil, List.drop_zero] at hdrop
  · split at h
    · cases h
    split at h
    · cases h
    split at h
    · cases h
      exact ⟨by simpa using hstart, by simp⟩
    split at h
    · cases h
      exact ⟨by simp, by simp⟩
    · cases h

/-- A pattern that ends in a slash has a text that does. -/
theorem slash_of_ofSegments (h : ofSegments ws = .ok p) (hws : ∀ w ∈ ws, '/' ∉ w)
    (hp : [.text '/'] <:+ p) : ['/'] <:+ ws.flatMap ('/' :: ·) := by
  induction ws generalizing p with
  | nil =>
    obtain rfl : [] = p := by simpa [ofSegments, pure, Except.pure] using h
    simp at hp
  | cons w ws ih =>
    obtain ⟨q, r, hq, hr, rfl⟩ := ofSegments_cons h
    obtain ⟨hw, hws⟩ := List.forall_mem_cons.mp hws
    cases ws with
    | nil =>
      obtain rfl : [] = r := by simpa [ofSegments, pure, Except.pure] using hr
      obtain ⟨hpieces, hnil⟩ := ofSegment_pieces hw hq
      rw [List.append_nil] at hp
      rcases List.suffix_cons_iff.mp hp with hp | hp
      · have hnone := hnil (List.cons.inj hp).2.symm
        simp [hnone]
      · exact absurd (hp.subset List.mem_cons_self) hpieces
    | cons v vs =>
      have hbelow : [.text '/'] <:+ r := by
        obtain ⟨q', r', -, -, rfl⟩ := ofSegments_cons hr
        exact List.suffix_of_suffix_length_le hp
          ((List.suffix_append q _).trans (List.suffix_cons _ _)) (by simp)
      exact (ih hr hws hbelow).trans (List.suffix_append ('/' :: w) _)

theorem slash_of_ofText {text : String} (h : ofText text = .ok p) (hp : [.text '/'] <:+ p) :
    ['/'] <:+ text.toList := by
  obtain ⟨segs, hsplit, hsegs⟩ := exists_ofSegments h
  obtain ⟨hslash, htext⟩ := splitOn_eq_nil_cons_iff.mp hsplit
  rw [htext]
  exact slash_of_ofSegments hsegs hslash hp

end Pattern

end DataRepository.Routing
