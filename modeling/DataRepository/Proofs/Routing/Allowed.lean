import DataRepository.Proofs.Routing.Normal

/-! # The methods that a refusal names

A request that no route serves, though its path is found, is told which methods there are. These are
the methods of the routes of the pattern, each of them once, and HEAD wherever there is GET, whatever
the order of the routes. They are also the methods that are served on the path (`allowed_served`), but
for one: a CONNECT route is named as CONNECT and serves OPTIONS. -/
namespace DataRepository.Routing

open Http (Method Target Request Response)

variable {η : Type} {routes : List (Route η)} {mount u : String} {t : Table η} {row : Row η} {m : Method}
  {guards : List Guard} {r r' : Request} {allow : List Method}

/-! ## Rows -/

theorem isSome_given?_iff : (row.given? m).isSome ↔ ∃ k ∈ row.routes, k.method = m := by
  simp only [Row.given?, List.find?_isSome, decide_eq_true_eq]

/-- The place of a method is served by a route that is named as the method. -/
theorem mem_map_place_allowedBy {x : Method} : m ∈ (Row.allowedBy x).map Row.place ↔
    (m ≠ .connect ∧ x = m) ∨ (m = .head ∧ x = .get) ∨ (m = .options ∧ x = .connect) := by
  cases x <;> cases m <;> simp [Row.allowedBy, Row.place, eq_comm]

theorem mem_map_place_allow_iff :
    m ∈ row.allow.map Row.place ↔ ∃ k ∈ row.routes, m ∈ (Row.allowedBy k.method).map Row.place := by
  have hallow : ∀ l, l ∈ row.allow ↔ ∃ k ∈ row.routes, l ∈ Row.allowedBy k.method :=
    fun _ => mem_allow_iff
  simp only [List.mem_map, hallow]
  constructor
  · intro h
    obtain ⟨l, ⟨k, hk, hl⟩, rfl⟩ := h
    exact ⟨k, hk, l, hl, rfl⟩
  · intro h
    obtain ⟨k, hk, l, hl, rfl⟩ := h
    exact ⟨l, ⟨k, hk, hl⟩, rfl⟩

/-- **A row has a route for the methods that it allows**, with OPTIONS for CONNECT. -/
theorem isSome_route?_iff : (row.route? m).isSome ↔ m ∈ row.allow.map Row.place := by
  simp only [mem_map_place_allow_iff, mem_map_place_allowedBy]
  cases m <;> simp [Row.route?, isSome_given?_iff, and_or_left, exists_or]

/-- A row never allows both methods that take one place. -/
theorem not_both_allowed (hsound : row.isSound = true) :
    ¬ (.options ∈ row.allow ∧ .connect ∈ row.allow) := by
  have hmethod : ∀ x : Method, (.options ∈ Row.allowedBy x ↔ x = .options) ∧
      (.connect ∈ Row.allowedBy x ↔ x = .connect) := by
    intro x
    cases x <;> simp [Row.allowedBy]
  intro h
  obtain ⟨k, hk, hoptions⟩ := mem_allow_iff.mp h.1
  obtain ⟨k', hk', hconnect⟩ := mem_allow_iff.mp h.2
  rw [(hmethod _).1] at hoptions
  rw [(hmethod _).2] at hconnect
  have hplaces : (row.routes.map fun k => Row.place k.method).Nodup := of_decide_eq_true hsound
  have hplace : Row.place k.method = Row.place k'.method := by rw [hoptions, hconnect]; rfl
  obtain rfl := List.inj_on_of_nodup_map hplaces hk hk' hplace
  rw [hoptions] at hconnect
  cases hconnect

/-! ## Tables -/

/-- A row allows the methods of the routes in the list whose pattern reads as its own, if they are of
the standard. -/
theorem mem_allow_of_mountedRows (h : (u, row) ∈ mountedRows mount routes) : m ∈ row.allow ↔
    ∃ k ∈ routes, k.method ∈ Method.standard ∧ Pattern.mounted (mountPoint mount) k.pattern = u ∧
      m ∈ Row.allowedBy k.method := by
  have hfind := find?_admitted
    (q := fun k => Pattern.mounted (mountPoint mount) k.pattern = u ∧ m ∈ Row.allowedBy k.method)
    (fun a b hmethod hpattern => by rw [hmethod, hpattern]) routes
  have hsome := congrArg Option.isSome hfind
  rw [Bool.eq_iff_iff, List.find?_isSome, List.find?_isSome] at hsome
  simp only [decide_eq_true_eq] at hsome
  rw [← hsome, mem_allow_iff]
  simp only [mem_mountedRows h, and_assoc]

theorem exists_mem_mountedRows {path : String} (h : Table.build mount routes = .ok t)
    (hrow : t.row? path = some row) :
    ∃ u, (u, row) ∈ mountedRows mount routes ∧ Names mount routes u path := by
  obtain ⟨-, -, hrows⟩ := parts_of_build h
  obtain ⟨p, hp, hstands⟩ := Ways.find?_found hrow
  obtain ⟨u, hu, hread⟩ := (hrows p row).mp hp
  exact ⟨u, hu, isText_iff.mpr ⟨row, hu⟩, p, hread, hstands⟩

/-! ## Requests -/

theorem judgement_of_through {r : Request} (h : ∀ g ∈ guards, g.judge r = none) :
    judgement guards r = (guards.map (·.name), none) := by
  obtain ⟨passed, g, later, answer, rfl, -, hg, -⟩ | ⟨-, hjudged⟩ := judgement_cases guards r
  · rw [h g (List.mem_append_right _ List.mem_cons_self)] at hg
    cases hg
  · exact hjudged

/-- A request that the guards let through reaches the route of its method. -/
theorem reach_of_through (h : Table.build mount routes = .ok t)
    (hrow : t.row? r.target.path = some row) (hthrough : ∀ g ∈ guards, g.judge (seenUnder mount r) = none) :
    (t.pass guards r).reach = ((row.route? r.method).map Reach.route).getD (.noRoute row.allow) := by
  have hseen : { r with target := t.localTarget r.target } = seenUnder mount r := by
    rw [Table.localTarget, (parts_of_build h).1, seenUnder]
  unfold Table.pass
  simp only [hrow, hseen, judgement_of_through hthrough]
  cases row.route? r.method <;> rfl

theorem row?_of_noRoute (h : (t.pass guards r).reach = .noRoute allow) :
    ∃ row, t.row? r.target.path = some row ∧ allow = row.allow := by
  unfold Table.pass at h
  cases hrow : t.row? r.target.path with
  | none =>
    rw [hrow] at h
    cases h
  | some row =>
    simp only [hrow] at h
    split at h <;> cases h
    exact ⟨row, rfl, rfl⟩

/-- What the methods are that a table names for a path. -/
structure Tells (mount : String) (routes : List (Route η)) (t : Table η) (guards : List Guard)
    (path : String) (allow : List Method) : Prop where
  once : allow.Nodup
  apart : ¬ (.options ∈ allow ∧ .connect ∈ allow)
  /-- They are those of the routes of the standard with the pattern of the path. -/
  registered : ∃ u, Names mount routes u path ∧ ∀ m, m ∈ allow ↔
    ∃ k ∈ routes, k.method ∈ Method.standard ∧ Pattern.mounted (mountPoint mount) k.pattern = u ∧
      m ∈ Row.allowedBy k.method
  /-- A request for the path that is let through meets a route exactly if its method is one of them,
  or OPTIONS where CONNECT is. -/
  served : ∀ r : Request, r.target.path = path → (∀ g ∈ guards, g.judge (seenUnder mount r) = none) →
    ((∃ k, (t.pass guards r).reach = .route k) ↔ r.method ∈ allow.map Row.place)

/-- **A request that no route serves is told the methods that are served on its path**, with CONNECT in
the place of OPTIONS where a CONNECT route serves it. -/
theorem allowed_served (h : Table.build mount routes = .ok t)
    (hreach : (t.pass guards r).reach = .noRoute allow)
    (handle : Route η → Request → Target → Response) (missing : Response) :
    t.respond guards handle missing r = sent r.method { status := 405, allow } ∧
      Tells mount routes t guards r.target.path allow := by
  obtain ⟨row, hrow, rfl⟩ := row?_of_noRoute hreach
  obtain ⟨u, hu, hnames⟩ := exists_mem_mountedRows h hrow
  refine ⟨?_, nodup_allow _, not_both_allowed ((parts_of_build h).2.1 u row hu),
    ⟨u, hnames, fun m => mem_allow_of_mountedRows hu⟩, ?_⟩
  · simp only [Table.respond, Passage.settled?, hreach, Option.getD_some]
  · intro r' hpath hthrough
    rw [← isSome_route?_iff, reach_of_through h (hpath ▸ hrow) hthrough]
    cases row.route? r'.method with
    | none =>
      refine iff_of_false (fun h => ?_) (fun h => by cases h)
      obtain ⟨k, hk⟩ := h
      cases hk
    | some k => exact iff_of_true ⟨k, rfl⟩ rfl

/-- A request to POST where there are routes for PUT and GET, among them one that is registered twice
and one with a method that is not of the standard. -/
theorem allowed_served_mixed :
    let routes : List (Route Unit) := [⟨"write", .put, "/p/:id", ()⟩, ⟨"purge", .other "PURGE", "/p/:id", ()⟩,
      ⟨"read", .get, "/p/:id", ()⟩, ⟨"drop", .delete, "/q", ()⟩, ⟨"again", .put, "/p/:id", ()⟩]
    let guards : List Guard := [⟨"gate", fun r => if r.method = .trace then some { status := 403 } else none⟩]
    let r : Request := { method := .post, target := { path := "/g/p/x" } }
    ∃ t, Table.build "/g" routes = .ok t ∧ (t.pass guards r).reach = .noRoute [.put, .get, .head] ∧
      (t.respond guards (fun _ _ _ => { status := 200 }) { status := 404 } r).allowText = "PUT,GET,HEAD" ∧
      Tells "/g" routes t guards "/g/p/x" [.put, .get, .head] := by
  intro routes guards r
  have hrefused : ((Table.build "/g" routes).toOption.any fun t =>
      match (t.pass guards r).reach with
      | .noRoute allow => allow = [.put, .get, .head]
      | _ => false) = true := by
    decide +kernel
  obtain ⟨t, ht, hallow⟩ := exists_of_any hrefused
  have hreach : (t.pass guards r).reach = .noRoute [.put, .get, .head] := by
    split at hallow
    · rename_i hreach
      rw [hreach, of_decide_eq_true hallow]
    · cases hallow
  obtain ⟨hresponse, htells⟩ :=
    allowed_served ht hreach (fun _ _ _ => { status := 200 }) { status := 404 }
  refine ⟨t, ht, hreach, ?_, htells⟩
  rw [hresponse]
  decide

/-- A CONNECT route is named where it does not serve, and serves OPTIONS where that is not named. -/
theorem connect_named_not_served :
    let tunnel : Route Unit := ⟨"tunnel", .connect, "/p", ()⟩
    let request (m : Method) : Request := { method := m, target := { path := "/g/p" } }
    ∃ t, Table.build "/g" [tunnel] = .ok t ∧
      (t.pass [] (request .get)).reach = .noRoute [.connect] ∧
      (∀ k, (t.pass [] (request .connect)).reach ≠ .route k) ∧
      (t.pass [] (request .options)).reach = .route tunnel := by
  intro tunnel request
  have hbuilt : ((Table.build "/g" [tunnel]).toOption.any fun t =>
      t.row? "/g/p" = some ⟨[tunnel]⟩) = true := by
    decide +kernel
  obtain ⟨t, ht, hfound⟩ := exists_of_any hbuilt
  have hreach : ∀ m, (t.pass [] (request m)).reach =
      ((Row.route? ⟨[tunnel]⟩ m).map Reach.route).getD (.noRoute (Row.allow ⟨[tunnel]⟩)) := by
    intro m
    exact reach_of_through ht (of_decide_eq_true hfound) nofun
  refine ⟨t, ht, hreach .get, fun k hk => ?_, hreach .options⟩
  rw [hreach .connect] at hk
  cases hk

end DataRepository.Routing
