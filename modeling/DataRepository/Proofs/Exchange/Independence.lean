import DataRepository.Proofs.Exchange.Coherence

/-! # Resources do not see each other

All documents are in one store, each under the key of its path. A command reads and
writes its own key only (`run_congr`, `get?_run_of_ne`), and different paths of
resources have different keys. So requests to other paths can be taken out of a
history, and two neighbours on different paths can change places (`independent`). -/
namespace DataRepository.Exchange

open Http (Request Response)
open Access (Gate)
open Resource (Command keyOf)

variable {g : Gate} {now now' : UInt64} {path : String} {r r' : Request} {s t : Store}
  {c d : Command}

/-! ## Commands -/

/-- What a command answers and leaves under its key depends on the document there only. -/
theorem run_congr (h : s.get? c.key = t.get? c.key) :
    (c.run s).1 = (c.run t).1 ∧ (c.run s).2.get? c.key = (c.run t).2.get? c.key := by
  cases c with
  | query key =>
    simp only [Command.key] at h
    simp only [Command.run, Command.key, h, and_self]
  | replace key location doc =>
    simp only [Command.key] at h
    simp only [Command.run, Command.key, Store.put, h, Store.get?_insert_self, and_self]
  | modify key patch =>
    simp only [Command.key] at h
    cases hget : t.get? key with
    | none => simp only [Command.run, Command.key, Store.patch, h, hget, and_self]
    | some doc =>
      cases hnew : Patch.patched doc patch with
      | ok new =>
        simp only [Command.run, Command.key, Store.patch, h, hget, hnew, Store.get?_insert_self,
          and_self]
      | error why => simp only [Command.run, Command.key, Store.patch, h, hget, hnew, and_self]
  | remove key =>
    simp only [Command.run, Command.key, Store.remove, Store.get?_erase_self, and_self]

/-- Commands on different keys may change places. -/
theorem run_comm (h : c.key ≠ d.key) (s : Store) :
    (d.run (c.run s).2).2 = (c.run (d.run s).2).2 := by
  refine Store.ext_get? fun key => ?_
  by_cases hc : key = c.key
  · subst hc
    have hsame : s.get? c.key = (d.run s).2.get? c.key := (d.get?_run_of_ne s h).symm
    rw [d.get?_run_of_ne _ h, (run_congr hsame).2]
  · rw [c.get?_run_of_ne _ hc]
    by_cases hd : key = d.key
    · subst hd
      exact (run_congr (c.get?_run_of_ne s hc)).2
    · rw [d.get?_run_of_ne _ hd, d.get?_run_of_ne _ hd, c.get?_run_of_ne _ hc]

/-! ## Requests -/

/-- The document at a path: none where the path names no resource. -/
def documentAt (s : Store) (path : String) : Option Json :=
  if Resource.Exposed path then s.get? (keyOf path) else none

theorem documentAt_empty (path : String) : documentAt .empty path = none := ite_self _

theorem Asked.documentAt_eq {op : Resource.Operation} (h : Asked g now r op c) (s : Store) :
    documentAt s r.target.path = s.get? c.key := by
  rw [documentAt, if_pos h.exposed, key_of_asked h]

theorem serve_congr (h : documentAt s r.target.path = documentAt t r.target.path) :
    (serve g now r s).1 = (serve g now r t).1 ∧
      documentAt (serve g now r s).2 r.target.path = documentAt (serve g now r t).2 r.target.path := by
  cases hplan : plan g now r with
  | answer a =>
    simp only [serve, hplan, Plan.run, h, and_self]
  | execute c =>
    obtain ⟨op, hasked⟩ := exists_asked hplan
    simp only [serve, hplan, Plan.run, hasked.documentAt_eq] at h ⊢
    obtain ⟨hanswer, hdoc⟩ := run_congr h
    exact ⟨by rw [hanswer], hdoc⟩

theorem documentAt_serve_of_ne (h : r.target.path ≠ path) :
    documentAt (serve g now r s).2 path = documentAt s path := by
  unfold documentAt
  split
  · rename_i hpath
    cases hplan : plan g now r with
    | answer a => simp only [serve, hplan, Plan.run]
    | execute c =>
      obtain ⟨op, hasked⟩ := exists_asked hplan
      have hkey : keyOf path ≠ c.key := by
        rw [key_of_asked hasked]
        exact fun he => h (Resource.eq_of_keyOf_eq hasked.exposed hpath he.symm)
      simp only [serve, hplan, Plan.run]
      exact c.get?_run_of_ne s hkey
  · rfl

theorem serve_comm (h : r.target.path ≠ r'.target.path) (s : Store) :
    (serve g now' r' (serve g now r s).2).2 = (serve g now r (serve g now' r' s).2).2 := by
  cases hplan : plan g now r with
  | answer a => simp only [serve, hplan, Plan.run]
  | execute c =>
    cases hplan' : plan g now' r' with
    | answer a => simp only [serve, hplan', Plan.run]
    | execute d =>
      obtain ⟨op, hasked⟩ := exists_asked hplan
      obtain ⟨op', hasked'⟩ := exists_asked hplan'
      have hkey : c.key ≠ d.key := by
        rw [key_of_asked hasked, key_of_asked hasked']
        exact fun he => h (Resource.eq_of_keyOf_eq hasked.exposed hasked'.exposed he)
      simp only [serve, hplan, hplan', Plan.run]
      exact run_comm hkey s

/-! ## Histories -/

/-- The responses to requests that come one after the other, each at a time of its own, and the
store after them. -/
def replay (g : Gate) : List (UInt64 × Request) → Store → List Response × Store
  | [], s => ([], s)
  | (now, r) :: rs, s =>
    let (answer, s) := serve g now r s
    let (answers, s) := replay g rs s
    (answer :: answers, s)

/-- Where the clock stands still, this is what the program does with a list of requests. -/
theorem replay_map (now : UInt64) (rs : List Request) (s : Store) :
    replay g (rs.map (now, ·)) s = serveAll g now rs s := by
  induction rs generalizing s with
  | nil => rfl
  | cons r rs ih => simp only [List.map_cons, replay, serveAll, ih]

theorem length_replay (g : Gate) (rs : List (UInt64 × Request)) (s : Store) :
    (replay g rs s).1.length = rs.length := by
  induction rs generalizing s with
  | nil => rfl
  | cons r rs ih => simp only [replay, List.length_cons, ih]

theorem replay_append (rs rs' : List (UInt64 × Request)) (s : Store) :
    replay g (rs ++ rs') s =
      ((replay g rs s).1 ++ (replay g rs' (replay g rs s).2).1,
        (replay g rs' (replay g rs s).2).2) := by
  induction rs generalizing s with
  | nil => rfl
  | cons r rs ih => simp only [List.cons_append, replay, ih]

/-- The requests of a history with their responses. -/
def exchanges (g : Gate) (rs : List (UInt64 × Request)) (s : Store) :
    List ((UInt64 × Request) × Response) :=
  rs.zip (replay g rs s).1

/-- From two stores with the same document at a path, the requests for the path are answered alike
with and without the others. -/
theorem exchanges_filter (rs : List (UInt64 × Request)) (h : documentAt s path = documentAt t path) :
    exchanges g (rs.filter (·.2.target.path = path)) t =
        (exchanges g rs s).filter (·.1.2.target.path = path) ∧
      documentAt (replay g (rs.filter (·.2.target.path = path)) t).2 path =
        documentAt (replay g rs s).2 path := by
  unfold exchanges
  induction rs generalizing s t with
  | nil => exact ⟨rfl, h.symm⟩
  | cons first rs ih =>
    obtain ⟨now, r⟩ := first
    by_cases hr : r.target.path = path
    · subst hr
      obtain ⟨hanswer, hdoc⟩ : (serve g now r s).1 = (serve g now r t).1 ∧ _ := serve_congr h
      obtain ⟨hrest, hlast⟩ := ih hdoc
      simp [replay, hanswer, hrest, hlast]
    · have hskip : documentAt (serve g now r s).2 path = documentAt s path :=
        documentAt_serve_of_ne hr
      obtain ⟨hrest, hlast⟩ := ih (hskip.trans h)
      simp [replay, hr, hrest, hlast]

theorem replay_swap (g : Gate) (now now' : UInt64) (h : r.target.path ≠ r'.target.path)
    (rs : List (UInt64 × Request)) (s : Store) :
    ∃ answer answer' answers last,
      replay g ((now, r) :: (now', r') :: rs) s = (answer :: answer' :: answers, last) ∧
      replay g ((now', r') :: (now, r) :: rs) s = (answer' :: answer :: answers, last) := by
  have hfirst : (serve g now r (serve g now' r' s).2).1 = (serve g now r s).1 :=
    (serve_congr (documentAt_serve_of_ne h.symm)).1
  have hsecond : (serve g now' r' (serve g now r s).2).1 = (serve g now' r' s).1 :=
    (serve_congr (documentAt_serve_of_ne h)).1
  obtain ⟨answers, last, hrest⟩ :
      ∃ answers last, replay g rs (serve g now' r' (serve g now r s).2).2 = (answers, last) :=
    ⟨_, _, rfl⟩
  refine ⟨(serve g now r s).1, (serve g now' r' s).1, answers, last, ?_, ?_⟩
  · simp only [replay, hsecond, hrest]
  · simp only [replay, hfirst, ← serve_comm h, hrest]

/-- **Resources do not see each other**: the responses to the requests for a path, and the document
that they leave there, are the same without all other requests; and two requests for different paths
that follow each other can change places with their responses, and nothing else changes. -/
theorem independent (g : Gate) (rs : List (UInt64 × Request)) (s : Store) :
    (∀ path,
      exchanges g (rs.filter (·.2.target.path = path)) s =
          (exchanges g rs s).filter (·.1.2.target.path = path) ∧
        documentAt (replay g (rs.filter (·.2.target.path = path)) s).2 path =
          documentAt (replay g rs s).2 path) ∧
    ∀ before r r' after, rs = before ++ r :: r' :: after → r.2.target.path ≠ r'.2.target.path →
      ∃ earlier answer answer' later last, earlier.length = before.length ∧
        replay g rs s = (earlier ++ answer :: answer' :: later, last) ∧
        replay g (before ++ r' :: r :: after) s = (earlier ++ answer' :: answer :: later, last) := by
  refine ⟨fun path => exchanges_filter rs rfl, ?_⟩
  rintro before ⟨now, r⟩ ⟨now', r'⟩ after rfl hne
  obtain ⟨answer, answer', later, last, hthere, hback⟩ :=
    replay_swap g now now' hne after (replay g before s).2
  refine ⟨(replay g before s).1, answer, answer', later, last, length_replay g before s, ?_, ?_⟩
  · rw [replay_append, hthere]
  · rw [replay_append, hback]

/-- A creation and the query for another resource after it. -/
theorem independent_crossed :
    let g : Gate := ⟨.dataRepository, ⟨"", false, none⟩⟩
    let a : Http.Target := { path := "/nudr-dr/v2/policy-data/ues/a/am-data" }
    let b : Http.Target := { path := "/nudr-dr/v2/policy-data/ues/b/am-data" }
    let put (target : Http.Target) : UInt64 × Request := (0, { method := .put, target, body := [49] })
    let get : UInt64 × Request := (1, { method := .get, target := a })
    (put b).2.target.path ≠ get.2.target.path ∧
      ∃ earlier answer answer' later last, earlier.length = [put a].length ∧
        replay g [put a, put b, get] .empty = (earlier ++ answer :: answer' :: later, last) ∧
        replay g [put a, get, put b] .empty = (earlier ++ answer' :: answer :: later, last) := by
  intro g a b put get
  have hne : (put b).2.target.path ≠ get.2.target.path := by decide +kernel
  exact ⟨hne, (independent g [put a, put b, get] .empty).2 [put a] (put b) get [] rfl hne⟩

end DataRepository.Exchange
