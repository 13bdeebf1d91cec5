import DataRepository.Proofs.Routing.Registered
import DataRepository.Routing.Group

/-! # What runs for a request

A request that a group finds a pattern for meets the guards in their order, up to the
first that rejects it, and the route of its method after the last of them; no other
guard and no other route runs, and nothing at all runs for a path that no pattern
stands for (`whole_chain`). -/
namespace DataRepository.Routing

open Http (Method Target Request Response)

variable {η : Type} {routes : List (Route η)} {mount : String} {t : Table η} {guards : List Guard}
  {r : Request}

/-! ## What runs -/

/-- A guard that judges a request, or a route that handles one; `written` is the target as the client
wrote it. -/
inductive Run (η : Type) where
  | guard (name : String) (request : Request)
  | route (route : Route η) (request : Request) (written : Target)
deriving DecidableEq

/-- What runs for a request on its way, in this order. -/
def Passage.log (way : Passage η) (written : Target) : List (Run η) :=
  way.guards.map (.guard · way.request) ++
    match way.reach with
    | .route route => [.route route way.request written]
    | _ => []

/-- The response of a group in which no route runs, as it is sent. -/
def Table.answer? (t : Table η) (guards : List Guard) (r : Request) (missing : Response) :
    Option Response :=
  ((t.pass guards r).settled? missing).map (sent r.method)

/-- The request as the guards and the routes see it. -/
def seenUnder (mount : String) (r : Request) : Request :=
  { r with target := targetUnder (mountPoint mount) r.target }

/-- What runs for a request that a pattern was found for, and the response if no route runs. -/
inductive Chain (guards : List Guard) (selected : Option (Route η)) (seen : Request)
    (written : Target) : List (Run η) → Option Response → Prop where
  /-- A guard rejects: nothing after it runs. Methods that it names itself are kept. -/
  | rejected {passed later : List Guard} {g : Guard} {answer : Response} (allow : List Method)
      (order : guards = passed ++ g :: later) (through : ∀ p ∈ passed, p.judge seen = none)
      (rejects : g.judge seen = some answer) :
      Chain guards selected seen written ((passed ++ [g]).map (.guard ·.name seen))
        (some (sent seen.method (answer.allowing allow)))
  /-- No route serves the method. -/
  | unserved (allow : List Method) (through : ∀ p ∈ guards, p.judge seen = none)
      (unselected : selected = none) :
      Chain guards selected seen written (guards.map (.guard ·.name seen))
        (some (sent seen.method { status := 405, allow }))
  /-- The route of the method runs. -/
  | served {route : Route η} (through : ∀ p ∈ guards, p.judge seen = none)
      (selects : selected = some route) :
      Chain guards selected seen written
        (guards.map (.guard ·.name seen) ++ [.route route seen written]) none

/-- The guards that judge a request are those up to the first that rejects it. -/
theorem judgement_cases (guards : List Guard) (r : Request) :
    (∃ passed g later answer, guards = passed ++ g :: later ∧ (∀ p ∈ passed, p.judge r = none) ∧
      g.judge r = some answer ∧ judgement guards r = ((passed ++ [g]).map (·.name), some answer)) ∨
    ((∀ p ∈ guards, p.judge r = none) ∧ judgement guards r = (guards.map (·.name), none)) := by
  induction guards with
  | nil => exact .inr ⟨by simp, rfl⟩
  | cons first guards ih =>
    cases hfirst : first.judge r with
    | some answer =>
      refine .inl ⟨[], first, guards, answer, rfl, by simp, hfirst, ?_⟩
      simp only [judgement, hfirst, List.nil_append, List.map_cons, List.map_nil]
    | none =>
      rcases ih with ⟨passed, g, later, answer, rfl, hpassed, hg, hrest⟩ | ⟨hpassed, hrest⟩
      · refine .inl ⟨first :: passed, g, later, answer, rfl, ?_, hg, ?_⟩
        · exact List.forall_mem_cons.mpr ⟨hfirst, hpassed⟩
        · simp only [judgement, hfirst, hrest, List.cons_append, List.map_cons]
      · refine .inr ⟨List.forall_mem_cons.mpr ⟨hfirst, hpassed⟩, ?_⟩
        simp only [judgement, hfirst, hrest, List.map_cons]

theorem chain_of_row? {row : Row η} (hmount : t.mount = mountPoint mount)
    (hrow : t.row? r.target.path = some row) (guards : List Guard) (missing : Response) :
    Chain guards (row.route? r.method) (seenUnder mount r) r.target
      ((t.pass guards r).log r.target) (t.answer? guards r missing) := by
  have hseen : { r with target := t.localTarget r.target } = seenUnder mount r := by
    rw [Table.localTarget, hmount, seenUnder]
  unfold Table.answer? Table.pass
  simp only [hrow, hseen]
  rcases judgement_cases guards (seenUnder mount r) with
    ⟨passed, g, later, answer, horder, hpassed, hg, hjudged⟩ | ⟨hpassed, hjudged⟩
  all_goals
    rw [hjudged]
    cases hroute : row.route? r.method
    all_goals
      simp only [Passage.log, Passage.settled?, List.map_map, List.append_nil, Option.map_some,
        Option.map_none]
  · exact .rejected row.allow horder hpassed hg
  · have hanswer : answer.allowing [] = answer := answer.allowing_nil
    rw [← hanswer]
    exact .rejected [] horder hpassed hg
  · exact .unserved row.allow hpassed rfl
  · exact .served hpassed rfl

/-- A request whose path is found goes through the chain of the pattern that stands for the path. -/
theorem exists_chain {row : Row η} (h : Table.build mount routes = .ok t)
    (hrow : t.row? r.target.path = some row) (guards : List Guard) (missing : Response) :
    ∃ u, Names mount routes u r.target.path ∧
      Chain guards (selected? mount routes u r.method) (seenUnder mount r) r.target
        ((t.pass guards r).log r.target) (t.answer? guards r missing) := by
  obtain ⟨u, hu, hselected⟩ := exists_names_of_row? h hrow
  refine ⟨u, hu, ?_⟩
  rw [← hselected]
  exact chain_of_row? (parts_of_build h).1 hrow guards missing

theorem log_of_row_none (hrow : t.row? r.target.path = none) (guards : List Guard)
    (missing : Response) :
    (t.pass guards r).log r.target = [] ∧
      t.answer? guards r missing = some (sent r.method missing) := by
  rw [Table.answer?, Table.pass_of_row_none hrow]
  exact ⟨rfl, rfl⟩

theorem row?_eq_none_of_names {path : String} (h : Table.build mount routes = .ok t)
    (hnames : ∀ u, ¬ Names mount routes u path) : t.row? path = none := by
  cases hrow : t.row? path with
  | none => rfl
  | some row =>
    obtain ⟨u, hu, -⟩ := exists_names_of_row? h hrow
    exact absurd hu (hnames u)

/-- **No route runs without the whole chain.** A request whose path is found meets the guards up to the
first that rejects it, or all of them and then the route of its method; whatever runs sees the path
without the mount point. Nothing runs for a path that is not found, and a path is found only where a
pattern stands for it. -/
theorem whole_chain (h : Table.build mount routes = .ok t) (guards : List Guard) (r : Request)
    (missing : Response) :
    (∀ row, t.row? r.target.path = some row → ∃ u, Names mount routes u r.target.path ∧
      Chain guards (selected? mount routes u r.method) (seenUnder mount r) r.target
        ((t.pass guards r).log r.target) (t.answer? guards r missing)) ∧
    (t.row? r.target.path = none →
      (t.pass guards r).log r.target = [] ∧
        t.answer? guards r missing = some (sent r.method missing)) ∧
    ((∀ u, ¬ Names mount routes u r.target.path) → t.row? r.target.path = none) ∧
    (¬ ['/'] <:+ r.target.path.toList →
      (∀ u, Names mount routes u (r.target.path ++ "/") → ¬ ['/'] <:+ u.toList) →
      ∀ u, Names mount routes u r.target.path → (t.row? r.target.path).isSome) := by
  refine ⟨fun row hrow => exists_chain h hrow guards missing,
    fun hrow => log_of_row_none hrow guards missing, row?_eq_none_of_names h, ?_⟩
  intro hpath hlacks u hu
  exact isSome_row?_of_names h hpath hlacks hu

/-- The second of three guards rejects a query for an item. -/
theorem whole_chain_item :
    let routes : List (Route Unit) := [⟨"read", .get, "/p/:id", ()⟩, ⟨"write", .put, "/p/:id", ()⟩]
    let guards : List Guard := [⟨"first", fun _ => none⟩,
      ⟨"second", fun r => if r.method = .get then some { status := 403 } else none⟩,
      ⟨"third", fun _ => none⟩]
    let r : Request := { method := .get, target := { path := "/g/p/x" } }
    ∃ t row, Table.build "/g" routes = .ok t ∧ t.row? r.target.path = some row ∧
      ∃ u, Names "/g" routes u r.target.path ∧
        Chain guards (selected? "/g" routes u .get) (seenUnder "/g" r) r.target
          ((t.pass guards r).log r.target) (t.answer? guards r { status := 404 }) := by
  intro routes guards r
  have hfound : ((Table.build "/g" routes).toOption.any fun t =>
      (t.row? "/g/p/x").isSome) = true := by
    decide +kernel
  obtain ⟨t, ht, hsome⟩ := exists_of_any hfound
  obtain ⟨row, hrow⟩ := Option.isSome_iff_exists.mp hsome
  exact ⟨t, row, ht, hrow, (whole_chain ht guards r { status := 404 }).1 row hrow⟩

/-- A route may run for a method that none was registered for; the body of a rejection is not always
sent; and a path may be missed that a pattern stands for. -/
theorem chain_exceptions :
    (let routes : List (Route Unit) := [⟨"tunnel", .connect, "/p", ()⟩]
      let r : Request := { method := .options, target := { path := "/g/p" } }
      (∀ k ∈ routes, k.method ≠ r.method) ∧ ∃ t, Table.build "/g" routes = .ok t ∧
        (t.pass [] r).log r.target =
          [.route ⟨"tunnel", .connect, "/p", ()⟩ (seenUnder "/g" r) r.target]) ∧
    (let routes : List (Route Unit) := [⟨"read", .get, "/p", ()⟩]
      let guards : List Guard := [⟨"gate", fun _ => some (.plain 403 "denied")⟩]
      let r : Request := { method := .head, target := { path := "/g/p" } }
      ∃ t, Table.build "/g" routes = .ok t ∧
        (t.answer? guards r { status := 404 }).map (·.body) = some "") ∧
    (let routes : List (Route Unit) := [⟨"one", .get, "/:y", ()⟩, ⟨"all", .get, "/a/", ()⟩]
      let guards : List Guard := [⟨"gate", fun _ => none⟩]
      let r : Request := { method := .get, target := { path := "/g/a" } }
      Names "/g" routes "/g/:y" r.target.path ∧ ∃ t, Table.build "/g" routes = .ok t ∧
        (t.pass guards r).log r.target = []) := by
  refine ⟨?_, ?_, ?_⟩ <;> intro routes
  · intro r
    have hran : ((Table.build "/g" routes).toOption.any fun t => (t.pass [] r).log r.target =
        [.route ⟨"tunnel", .connect, "/p", ()⟩ (seenUnder "/g" r) r.target]) = true := by
      decide +kernel
    obtain ⟨t, ht, hlog⟩ := exists_of_any hran
    exact ⟨by decide, t, ht, of_decide_eq_true hlog⟩
  · intro guards r
    have hanswer : ((Table.build "/g" routes).toOption.any fun t =>
        (t.answer? guards r { status := 404 }).map (·.body) = some "") = true := by
      decide +kernel
    obtain ⟨t, ht, hbody⟩ := exists_of_any hanswer
    exact ⟨t, ht, of_decide_eq_true hbody⟩
  · intro guards r
    have hmissed : ((Table.build "/g" routes).toOption.any fun t =>
        (t.pass guards r).log r.target = []) = true := by
      decide +kernel
    obtain ⟨t, ht, hlog⟩ := exists_of_any hmissed
    have hread : Pattern.ofText "/g/:y" = .ok [.text '/', .text 'g', .text '/', .parameter] := by
      decide +kernel
    have hstands : Pattern.Stands [.text '/', .text 'g', .text '/', .parameter]
        r.target.path.toList := by
      rw [show r.target.path.toList = ['/', 'g', '/', 'a'] by decide]
      exact ⟨_, rfl, _, rfl, _, rfl, by simp, .inl rfl, by simp [Pattern.Stands]⟩
    have htext : IsText "/g" routes "/g/:y" :=
      ⟨⟨"one", .get, "/:y", ()⟩, by simp [routes], by decide, by decide⟩
    exact ⟨⟨htext, _, hread, hstands⟩, t, ht, of_decide_eq_true hlog⟩

end DataRepository.Routing
