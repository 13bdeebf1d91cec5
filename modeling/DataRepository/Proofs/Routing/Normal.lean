import DataRepository.Exchange
import DataRepository.Proofs.Routing.Building
import DataRepository.Proofs.Routing.Chain
import DataRepository.Proofs.Routing.Matching

/-! # Routes that count

A list of routes may hold routes that do not count: those with a method that is not of the standard,
and every route after the first with its method and pattern. Without them, and in any order, the list
makes a table if it made one before, and the two tables cannot be told apart (`table_of_normal`): the
same runs for every request, and the response is the same up to the order of the methods that it
allows. -/
namespace DataRepository.Routing

open Http (Method Target Request Response)

variable {η : Type} {routes routes' normal : List (Route η)} {mount : String} {t t' : Table η}
  {row row' : Row η} {k : Route η}

/-- The routes of a list that count, in any order: the first of each method and pattern, of the methods
of the standard. -/
structure Normalises (normal routes : List (Route η)) : Prop where
  once : (normal.map Route.pair).Nodup
  first : ∀ k, k ∈ normal ↔
    k.method ∈ Method.standard ∧ routes.find? (·.pair = k.pair) = some k

theorem Normalises.of_perm (h : normal.Perm (admitted routes)) : Normalises normal routes where
  once := (h.map Route.pair).nodup_iff.mpr (nodup_pair_admitted routes)
  first _ := h.mem_iff.trans mem_admitted_iff

theorem Normalises.mem_admitted_iff (h : Normalises normal routes) :
    k ∈ admitted normal ↔ k ∈ admitted routes := by
  rw [Routing.mem_admitted_iff, Routing.mem_admitted_iff, find?_pair_eq_some_iff h.once, h.first]
  exact and_iff_right_of_imp And.left

/-! ## Rows with the same routes -/

theorem allow_concat (routes : List (Route η)) (r : Route η) :
    Row.allow ⟨routes ++ [r]⟩ = Row.allow ⟨routes⟩ ++
      (Row.allowedBy r.method).filter (! (Row.allow ⟨routes⟩).contains ·) := by
  simp only [Row.allow, List.foldl_append, List.foldl_cons, List.foldl_nil]

/-- A row allows what its routes allow. -/
theorem mem_allow_iff {routes : List (Route η)} {m : Method} :
    m ∈ Row.allow ⟨routes⟩ ↔ ∃ r ∈ routes, m ∈ Row.allowedBy r.method := by
  induction routes using List.reverseRecOn with
  | nil => simp [Row.allow]
  | append_singleton routes r ih =>
    have hmem : m ∈ (Row.allowedBy r.method).filter (! (Row.allow ⟨routes⟩).contains ·) ↔
        m ∈ Row.allowedBy r.method ∧ m ∉ Row.allow ⟨routes⟩ := by simp
    rw [allow_concat, List.mem_append, hmem, ih]
    simp only [List.mem_append, List.mem_singleton, or_and_right, exists_or, exists_eq_left]
    by_cases hlisted : ∃ r ∈ routes, m ∈ Row.allowedBy r.method
    · simp [hlisted]
    · simp [hlisted]

theorem nodup_allowedBy (m : Method) : (Row.allowedBy m).Nodup := by
  cases m <;> simp [Row.allowedBy]

theorem nodup_allow (routes : List (Route η)) : (Row.allow ⟨routes⟩).Nodup := by
  induction routes using List.reverseRecOn with
  | nil => exact List.nodup_nil
  | append_singleton routes r ih =>
    rw [allow_concat]
    refine ih.append ((nodup_allowedBy _).filter _) fun m hm hm' => ?_
    simp [hm] at hm'

/-- Two rows have the same routes, each of which has its place to itself. -/
structure Row.Alike (row row' : Row η) : Prop where
  perm : row.routes.Perm row'.routes
  sound : row.isSound = true

namespace Row.Alike

theorem sound' (h : row.Alike row') : row'.isSound = true := by
  have hsound := h.sound
  rw [isSound, decide_eq_true_eq] at hsound ⊢
  exact (h.perm.map _).nodup_iff.mp hsound

theorem given?_eq (h : row.Alike row') : row.given? = row'.given? := by
  funext m
  refine Option.ext fun r => ?_
  rw [given?_eq_some_iff h.sound, given?_eq_some_iff h.sound',
    h.perm.mem_iff]

theorem route?_eq (h : row.Alike row') (m : Method) : row.route? m = row'.route? m := by
  unfold route?
  rw [h.given?_eq]

theorem allow_perm (h : row.Alike row') : row.allow.Perm row'.allow := by
  refine (List.perm_ext_iff_of_nodup (nodup_allow _) (nodup_allow _)).mpr fun m => ?_
  rw [mem_allow_iff, mem_allow_iff]
  simp only [h.perm.mem_iff]

end Row.Alike

/-! ## Tables with the same routes -/

/-- Whether routes make a table, and which one, is a question of those that are admitted. -/
theorem exists_build_of_admitted (hsame : ∀ k, k ∈ admitted routes ↔ k ∈ admitted routes')
    (h : ∃ t, Table.build mount routes = .ok t) : ∃ t, Table.build mount routes' = .ok t := by
  rw [exists_build_iff] at h ⊢
  obtain hempty | hfits := h
  · left
    refine List.eq_nil_iff_forall_not_mem.mpr fun k hk => ?_
    have hmem := (hsame k).mpr hk
    rw [hempty] at hmem
    cases hmem
  · exact .inr (hfits.subset fun k hk => (hsame k).mpr hk)

theorem alike_of_build (hsame : ∀ k, k ∈ admitted routes ↔ k ∈ admitted routes')
    (h : Table.build mount routes = .ok t) (h' : Table.build mount routes' = .ok t') :
    Ways.Alike Row.Alike t.rows t'.rows := by
  obtain ⟨-, hsound, hrows⟩ := parts_of_build h
  obtain ⟨-, -, hrows'⟩ := parts_of_build h'
  have htexts : ∀ u, IsText mount routes u ↔ IsText mount routes' u := by
    intro u
    rw [isText_iff_mem_admitted, isText_iff_mem_admitted]
    simp only [hsame]
  constructor
  · intro p
    simp only [hrows, hrows']
    constructor
    · intro hp
      obtain ⟨row, u, hu, hread⟩ := hp
      obtain ⟨row', hu'⟩ := isText_iff.mp ((htexts u).mp (isText_iff.mpr ⟨row, hu⟩))
      exact ⟨row', u, hu', hread⟩
    · intro hp
      obtain ⟨row', u, hu', hread⟩ := hp
      obtain ⟨row, hu⟩ := isText_iff.mp ((htexts u).mpr (isText_iff.mpr ⟨row', hu'⟩))
      exact ⟨row, u, hu, hread⟩
  · intro p row row' hrow hrow'
    obtain ⟨u, hu, hread⟩ := (hrows p row).mp hrow
    obtain ⟨v, hv, hread'⟩ := (hrows' p row').mp hrow'
    have htext : IsText mount routes v := (htexts v).mpr (isText_iff.mpr ⟨row', hv⟩)
    obtain rfl : u = v := eq_of_isText h (isText_iff.mpr ⟨row, hu⟩) htext hread hread'
    refine ⟨?_, hsound u row hu⟩
    refine (List.perm_ext_iff_of_nodup (nodup_of_mem_mountedRows hu)
      (nodup_of_mem_mountedRows hv)).mpr fun r => ?_
    rw [mem_mountedRows hu, mem_mountedRows hv, hsame]

/-! ## Requests -/

/-- The response of a group whose routes are handled by `handle`, as it is sent. -/
def Table.respond (t : Table η) (guards : List Guard) (handle : Route η → Request → Target → Response)
    (missing : Response) (r : Request) : Response :=
  let way := t.pass guards r
  sent r.method <| match way.reach with
    | .route route => handle route way.request r.target
    | _ => (way.settled? missing).getD missing

/-- The exchange responds as a group does whose routes carry out the plans of their requests. -/
theorem fst_serve_eq_respond (g : Access.Gate) (now : UInt64) (r : Request) (s : Store) :
    (Exchange.serve g now r s).1 = Resource.table.respond [g.guard now]
      (fun route seen written =>
        ((Exchange.planFor written.location ⟨[], seen, .route route⟩).run s).1) Exchange.missing r := by
  simp only [Exchange.serve, Exchange.plan, Exchange.planFor, Exchange.passage, Table.respond]
  cases (Resource.table.pass [g.guard now] r).reach <;> rfl

/-- The responses are the same up to the order of the methods that they allow. -/
structure SameResponse (a b : Response) : Prop where
  rest : { a with allow := [] } = { b with allow := [] }
  allow : a.allow.Perm b.allow

theorem SameResponse.refl (a : Response) : SameResponse a a := ⟨rfl, .refl _⟩

theorem SameResponse.allowing (a : Response) {allow allow' : List Method} (h : allow.Perm allow') :
    SameResponse (a.allowing allow) (a.allowing allow') := by
  refine ⟨rfl, ?_⟩
  simp only [Response.allowing]
  split
  · exact h
  · exact .refl _

theorem SameResponse.sent {a b : Response} (h : SameResponse a b) (m : Method) :
    SameResponse (sent m a) (sent m b) := by
  unfold Routing.sent
  split
  · exact ⟨congrArg (fun r : Response => { r with body := "" }) h.rest, h.allow⟩
  · exact h

/-- Tables with the same routes cannot be told apart. -/
theorem alike_pass (hmount : t.mount = t'.mount) (hrows : Ways.Alike Row.Alike t.rows t'.rows)
    (guards : List Guard) (handle : Route η → Request → Target → Response) (missing : Response)
    (r : Request) :
    (t.pass guards r).log r.target = (t'.pass guards r).log r.target ∧
      SameResponse (t.respond guards handle missing r) (t'.respond guards handle missing r) := by
  have hfound : Option.Rel Row.Alike (t.row? r.target.path) (t'.row? r.target.path) := hrows.find?
  have hlocal : t.localTarget r.target = t'.localTarget r.target := by
    rw [Table.localTarget, Table.localTarget, hmount]
  unfold Table.respond Table.pass
  generalize t.row? r.target.path = found, t'.row? r.target.path = found' at hfound ⊢
  cases hfound with
  | none => exact ⟨rfl, .refl _⟩
  | @some row row' hrow =>
    simp only [hlocal, hrow.route?_eq]
    generalize judgement guards { r with target := t'.localTarget r.target } = judged
    obtain ⟨names, answer⟩ := judged
    cases row'.route? r.method with
    | none =>
      cases answer with
      | none => exact ⟨rfl, (SameResponse.allowing { status := 405 } hrow.allow_perm).sent _⟩
      | some a => exact ⟨rfl, (SameResponse.allowing a hrow.allow_perm).sent _⟩
    | some route => cases answer <;> exact ⟨rfl, .refl _⟩

/-- What a table makes of the requests whose path it finds, and of the others. -/
structure Serves (mount : String) (routes : List (Route η)) (t : Table η) : Prop where
  /-- The guards judge in their order, and after the last of them the route runs that serves the
  method: the first of the list for the method and the pattern; for HEAD the first of that method, or
  else of GET; for OPTIONS the first of that method, or else of CONNECT; and for CONNECT none. -/
  found : ∀ (guards : List Guard) (missing : Response) (r : Request) (row : Row η),
    t.row? r.target.path = some row → ∃ u, Names mount routes u r.target.path ∧
      Chain guards (selected? mount routes u r.method) (seenUnder mount r) r.target
        ((t.pass guards r).log r.target) (t.answer? guards r missing)
  /-- No pattern stands for the path that belongs to no route of the standard. -/
  unfound : ∀ (guards : List Guard) (missing : Response) (r : Request),
    (∀ u, ¬ Names mount routes u r.target.path) →
      (t.pass guards r).log r.target = [] ∧
        t.answer? guards r missing = some (sent r.method missing)

theorem serves_of_build (h : Table.build mount routes = .ok t) : Serves mount routes t where
  found guards missing _ _ hrow := exists_chain h hrow guards missing
  unfound guards missing _ hnames := log_of_row_none (row?_eq_none_of_names h hnames) guards missing

/-- **A list of routes can be replaced by those of them that count, in any order.** These make a table
exactly if the list does, so to say a method and a pattern again never fails; and of the two tables
neither what runs for a request nor the response tells which one it is. -/
theorem table_of_normal (h : Normalises normal routes) (mount : String) :
    ((∃ t, Table.build mount routes = .ok t) ↔ ∃ t', Table.build mount normal = .ok t') ∧
      ∀ t t', Table.build mount routes = .ok t → Table.build mount normal = .ok t' →
        Serves mount routes t ∧
          ∀ (guards : List Guard) (handle : Route η → Request → Target → Response)
            (missing : Response) (r : Request),
            (t'.pass guards r).log r.target = (t.pass guards r).log r.target ∧
              SameResponse (t'.respond guards handle missing r) (t.respond guards handle missing r) := by
  have hsame : ∀ k, k ∈ admitted normal ↔ k ∈ admitted routes := fun _ => h.mem_admitted_iff
  constructor
  · exact ⟨exists_build_of_admitted fun k => (hsame k).symm, exists_build_of_admitted hsame⟩
  · intro t t' ht ht'
    have hmount : t'.mount = t.mount := (parts_of_build ht').1.trans (parts_of_build ht).1.symm
    exact ⟨serves_of_build ht, alike_pass hmount (alike_of_build hsame ht' ht)⟩

/-- A list with a method that is not of the standard, on a pattern of its own, and with a method and
pattern that it says twice. -/
theorem table_of_normal_repeated :
    let routes : List (Route Unit) := [⟨"read", .get, "/p/:id", ()⟩,
      ⟨"purge", .other "PURGE", "/q", ()⟩, ⟨"again", .get, "/p/:id", ()⟩, ⟨"write", .put, "/p/:id", ()⟩]
    let normal : List (Route Unit) := [⟨"write", .put, "/p/:id", ()⟩, ⟨"read", .get, "/p/:id", ()⟩]
    let r : Request := { method := .head, target := { path := "/g/p/x" } }
    Normalises normal routes ∧ ∃ t t', Table.build "/g" routes = .ok t ∧
      Table.build "/g" normal = .ok t' ∧
        (t'.pass [] r).log r.target = (t.pass [] r).log r.target ∧
        (t.pass [] r).log r.target =
          [.route ⟨"read", .get, "/p/:id", ()⟩ (seenUnder "/g" r) r.target] := by
  intro routes normal r
  have h : Normalises normal routes := .of_perm (by decide)
  have hran : ((Table.build "/g" routes).toOption.any fun t => (t.pass [] r).log r.target =
      [.route ⟨"read", .get, "/p/:id", ()⟩ (seenUnder "/g" r) r.target]) = true := by
    decide +kernel
  obtain ⟨t, ht, hlog⟩ := exists_of_any hran
  obtain ⟨hbuilt, halike⟩ := table_of_normal h "/g"
  obtain ⟨t', ht'⟩ := hbuilt.mp ⟨t, ht⟩
  obtain ⟨-, hpass⟩ := halike t t' ht ht'
  exact ⟨h, t, t', ht, ht', (hpass [] (fun _ _ _ => { status := 200 }) { status := 404 } r).1,
    of_decide_eq_true hlog⟩

/-- A route for CONNECT is registered and does not run for that method; it runs for OPTIONS, for which
nothing is registered. -/
theorem connect_route_runs_for_options :
    let tunnel : Route Unit := ⟨"tunnel", .connect, "/p", ()⟩
    let connect : Request := { method := .connect, target := { path := "/g/p" } }
    let options : Request := { method := .options, target := { path := "/g/p" } }
    registered? "/g" [tunnel] "/g/p" .connect = some tunnel ∧
      registered? "/g" [tunnel] "/g/p" .options = none ∧
      ∃ t, Table.build "/g" [tunnel] = .ok t ∧ (t.pass [] connect).log connect.target = [] ∧
        (t.pass [] options).log options.target =
          [.route tunnel (seenUnder "/g" options) options.target] := by
  intro tunnel connect options
  have hran : ((Table.build "/g" [tunnel]).toOption.any fun t =>
      (t.pass [] connect).log connect.target = [] ∧ (t.pass [] options).log options.target =
        [.route tunnel (seenUnder "/g" options) options.target]) = true := by
    decide +kernel
  obtain ⟨t, ht, hlogs⟩ := exists_of_any hran
  exact ⟨by decide +kernel, by decide +kernel, t, ht, of_decide_eq_true hlogs⟩

end DataRepository.Routing
