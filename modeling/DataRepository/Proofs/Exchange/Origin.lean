import DataRepository.Proofs.Exchange.Commands
import DataRepository.Proofs.Json.Reading
import DataRepository.Proofs.Json.Size
import DataRepository.Proofs.Patch.Items

/-! # Where documents come from

The limits on a document are limits on the body of a request. What is stored was
put by one request and patched by others since, so it is bounded by their bodies
and by nothing else: a history of small patches makes documents of any size. -/
namespace DataRepository.Exchange

open Http (Request Response)
open Access (Gate)
open Resource (Command Operation)

variable {g : Gate} {now : UInt64} {key : String}

/-- The document that the requests have made of it: one puts it, and the others patch it. -/
inductive Origin (g : Gate) (now : UInt64) (key : String) (put : Request) : List Request → Json → Prop
  | put {location : Http.Location} {doc : Json} (h : plan g now put = .execute (.replace key location doc)) :
    Origin g now key put [] doc
  | patch {patches : List Request} {r : Request} {doc doc' p : Json}
    (before : Origin g now key put patches doc) (h : plan g now r = .execute (.modify key p))
    (patched : Patch.patched doc p = .ok doc') : Origin g now key put (patches ++ [r]) doc'

/-- How much deeper a request can make a document. -/
def deepening (r : Request) : Nat :=
  match Json.parse r.body with
  | .ok p => Patch.deepening p
  | .error _ => 0

/-! ## Every document has an origin -/

/-- Every document of the store has its origin among the requests. -/
def Accounted (g : Gate) (now : UInt64) (past : List Request) (s : Store) : Prop :=
  ∀ key doc, s.get? key = some doc →
    ∃ put patches, (put :: patches).Sublist past ∧ Origin g now key put patches doc

theorem accounted_empty (g : Gate) (now : UInt64) : Accounted g now [] .empty :=
  fun _ _ h => by cases h

theorem Accounted.later {past : List Request} {s : Store} (h : Accounted g now past s) (r : Request) :
    Accounted g now (past ++ [r]) s := by
  intro key doc hdoc
  obtain ⟨put, patches, hsub, horigin⟩ := h key doc hdoc
  exact ⟨put, patches, hsub.trans (List.sublist_append_left _ _), horigin⟩

theorem Accounted.serve {past : List Request} {s : Store} (h : Accounted g now past s) (r : Request) :
    Accounted g now (past ++ [r]) (Exchange.serve g now r s).2 := by
  simp only [Exchange.serve]
  cases hplan : plan g now r with
  | answer response => exact h.later r
  | execute c =>
    cases c with
    | query k => exact h.later r
    | replace k location d =>
      intro key doc hdoc
      by_cases hkey : key = k
      · subst hkey
        obtain rfl : d = doc := by
          have hget := s.get?_insert_self key d
          exact Option.some.inj (hget.symm.trans hdoc)
        exact ⟨r, [], by simp, .put hplan⟩
      · exact h.later r key doc ((s.get?_put_of_ne d hkey).symm.trans hdoc)
    | modify k p =>
      intro key doc hdoc
      by_cases hkey : key = k
      · subst hkey
        -- A patch that is refused, or finds no document, leaves the past of the document as it was.
        simp only [Plan.run, Command.run, Store.patch] at hdoc
        split at hdoc
        · exact h.later r key doc hdoc
        · rename_i old hold
          split at hdoc
          · rename_i d hpatched
            obtain rfl : d = doc := by
              have hget := s.get?_insert_self key d
              exact Option.some.inj (hget.symm.trans hdoc)
            obtain ⟨put, patches, hsub, horigin⟩ := h key old hold
            exact ⟨put, patches ++ [r], hsub.append_right [r], horigin.patch hplan hpatched⟩
          · exact h.later r key doc hdoc
      · exact h.later r key doc ((s.get?_patch_of_ne p hkey).symm.trans hdoc)
    | remove k =>
      intro key doc hdoc
      by_cases hkey : key = k
      · subst hkey
        exact absurd ((s.get?_erase_self key).symm.trans hdoc) (by simp)
      · exact h.later r key doc ((s.get?_remove_of_ne hkey).symm.trans hdoc)

theorem Accounted.serveAll {past : List Request} {s : Store} (h : Accounted g now past s)
    (rs : List Request) : Accounted g now (past ++ rs) (Exchange.serveAll g now rs s).2 := by
  induction rs generalizing past s with
  | nil => simpa [Exchange.serveAll] using h
  | cons r rs ih =>
    have hlater := ih (h.serve r)
    rwa [List.append_assoc] at hlater

/-! ## What an origin bounds -/

theorem fits_of_readBody {body : Bytes} {doc : Json} (h : Resource.readBody body = .ok doc) :
    body.length ≤ Resource.bodyLimit ∧ Json.parse body = .ok doc ∧ doc.depth ≤ 127 ∧
      doc.weight ≤ body.length ∧ doc.Canonical := by
  unfold Resource.readBody at h
  split at h
  · cases h
  · rename_i hsize
    split at h
    · cases h
    · split at h
      · rename_i doc' hparse
        cases h
        have hfits := Json.fits_of_parse hparse
        exact ⟨Nat.le_of_not_lt hsize, hparse, hfits.depth, hfits.weight, hfits.canonical⟩
      · cases h

/-- **What requests have made of a document is bounded by their bodies.** -/
theorem Origin.bounds {put : Request} {patches : List Request} {doc : Json}
    (h : Origin g now key put patches doc) :
    doc.Canonical ∧ (∀ r ∈ put :: patches, r.body.length ≤ Resource.bodyLimit) ∧
      doc.depth ≤ 127 + (patches.map deepening).sum ∧
      doc.weight ≤ ((put :: patches).map (·.body.length)).sum := by
  induction h with
  | put h =>
    obtain ⟨op, hasked⟩ := exists_asked h
    obtain ⟨hsize, -, hdepth, hweight, hcanonical⟩ := fits_of_readBody (put_of_asked hasked).2
    exact ⟨hcanonical, by simpa using hsize, by simpa using hdepth, by simpa using hweight⟩
  | @patch patches r doc doc' p before h patched ih =>
    obtain ⟨hcanonical, hsizes, hdepth, hweight⟩ := ih
    obtain ⟨op, hasked⟩ := exists_asked h
    obtain ⟨hsize, hparse, hpdepth, hpweight, hpcanonical⟩ := fits_of_readBody (patch_of_asked hasked)
    obtain ⟨hdepth', hweight', hcanonical'⟩ := Patch.patched_grown hcanonical hpcanonical patched
    have hdeepening : deepening r = Patch.deepening p := by simp only [deepening, hparse]
    refine ⟨hcanonical', ?_, ?_, ?_⟩
    · rw [← List.cons_append]
      exact List.forall_mem_append.mpr ⟨hsizes, by simpa using hsize⟩
    · simp only [List.map_append, List.sum_append, List.map_cons, List.map_nil, List.sum_cons,
        List.sum_nil, hdeepening]
      omega
    · simp only [List.map_append, List.sum_append, List.map_cons, List.map_nil, List.sum_cons,
        List.sum_nil] at hweight ⊢
      omega

/-! ## Histories of one document -/

theorem get?_serve_put {r : Request} {s : Store} {location : Http.Location} {doc : Json}
    (h : plan g now r = .execute (.replace key location doc)) :
    (serve g now r s).2.get? key = some doc := by
  simp only [serve, h]
  exact s.get?_insert_self key doc

theorem get?_serve_patch {r : Request} {s : Store} {doc doc' p : Json}
    (h : plan g now r = .execute (.modify key p)) (hdoc : s.get? key = some doc)
    (hpatched : Patch.patched doc p = .ok doc') : (serve g now r s).2.get? key = some doc' := by
  simp only [serve, h, Plan.run, Command.run, Store.patch, hdoc, hpatched]
  exact s.get?_insert_self key doc'

theorem store_serveAll_nil (g : Gate) (now : UInt64) (s : Store) :
    (Exchange.serveAll g now [] s).2 = s := rfl

theorem store_serveAll_cons (g : Gate) (now : UInt64) (r : Request) (rs : List Request) (s : Store) :
    (Exchange.serveAll g now (r :: rs) s).2 = (Exchange.serveAll g now rs (serve g now r s).2).2 := rfl

theorem get?_serveAll_appending {r : Request} {s : Store} {v : Json} (hv : v ≠ .null)
    (h : plan g now r = .execute (.modify key (Patch.appending v))) {items : List Json}
    (hitems : s.get? key = some (.array items)) (n : Nat) :
    (Exchange.serveAll g now (List.replicate n r) s).2.get? key =
      some (.array (items ++ List.replicate n v)) := by
  induction n generalizing items s with
  | zero => simpa [Exchange.serveAll] using hitems
  | succ n ih =>
    have hnext := get?_serve_patch h hitems (Patch.patched_appending hv items)
    rw [List.replicate_succ, List.replicate_succ, List.append_cons, store_serveAll_cons]
    exact ih hnext

/-- A gate that lets every request through. -/
def openGate : Gate := ⟨.dataRepository, ⟨"", false, none⟩⟩

/-- The path of the access context of one subscriber. -/
def contextPath : String := "/nudr-dr/v2/subscription-data/imsi-1/context-data/amf-3gpp-access"

def contextTarget : Http.Target := { path := contextPath }

def contextRequest (m : Http.Method) (body : List Char) : Request :=
  { method := m, target := contextTarget, body := Text.utf8 body }

def contextKey : String := "/subscription-data/imsi-1/context-data/amf-3gpp-access"

/-- How the table of the resources reads the path of that access context. -/
theorem route_contextPath :
    Resource.Matches Resource.accessContext contextPath ∧
      Routing.unmounted Resource.servicePath contextPath = contextKey ∧
      (Resource.rowOf Resource.accessContext).2.route? .put =
        some (Resource.endpoint "CreateAmfContext3gpp" .replace Resource.accessContext) ∧
      (Resource.rowOf Resource.accessContext).2.route? .patch =
        some (Resource.endpoint "AmfContext3gpp" .modify Resource.accessContext) := by
  decide +kernel

theorem matches_contextPath : Resource.Matches Resource.accessContext contextPath :=
  route_contextPath.1

theorem keyOf_contextPath : Resource.keyOf contextPath = contextKey := route_contextPath.2.1

theorem seen_context (m : Http.Method) (body : List Char) :
    (seen (contextRequest m body)).target.path = contextKey := by
  rw [path_seen]
  exact keyOf_contextPath

theorem plan_put_context {body : List Char} {doc : Json}
    (h : Resource.readBody (Text.utf8 body) = .ok doc) :
    plan openGate 0 (contextRequest .put body) =
      .execute (.replace contextKey contextTarget.location doc) := by
  obtain ⟨hmatch, -, hroute, -⟩ := route_contextPath
  rw [← seen_context .put body]
  exact plan_of_put (by decide) hmatch rfl hroute rfl h

theorem plan_patch_context {body : List Char} {p : Json}
    (h : Resource.readBody (Text.utf8 body) = .ok p) :
    plan openGate 0 (contextRequest .patch body) = .execute (.modify contextKey p) := by
  obtain ⟨hmatch, -, -, hroute⟩ := route_contextPath
  rw [← seen_context .patch body]
  exact plan_of_patch (by decide) hmatch rfl hroute rfl h

/-- An empty array within this many arrays. -/
def nested : Nat → Json
  | 0 => .array []
  | n + 1 => .array [nested n]

/-- The text of as many arrays, the innermost empty. -/
def brackets (n : Nat) : List Char := List.replicate n '[' ++ List.replicate n ']'

/-- The body of a patch that adds a value at this path. -/
def addition (path : String) (value : List Char) : List Char :=
  "[\x7b\"op\":\"add\",\"path\":\"".toList ++ path.toList ++ "\",\"value\":".toList ++ value ++
    "\x7d]".toList

/-- A document of three arrays, and 125 arrays more within the innermost. -/
def deepHistory : List Request :=
  [contextRequest .put (brackets 3), contextRequest .patch (addition "/0/0/-" (brackets 125))]

/-- An empty array, and then as many zeros, one by one. -/
def longHistory (n : Nat) : List Request :=
  contextRequest .put (brackets 1) ::
    List.replicate n (contextRequest .patch (addition "/-" ['0']))

def zero : Json := .number (.whole (Whole.ofWord 0))

theorem lt_size_zeros (n : Nat) : n < (Json.array (List.replicate n zero)).size := by
  have hitems : n ≤ n * (1 + zero.weigh Json.doubleSize) :=
    Nat.le_mul_of_pos_right n (Nat.add_pos_left (by decide) _)
  rw [Json.size_eq_weigh, Json.weigh, Json.weighItems_replicate]
  omega

/-- The patch of the second request of `deepHistory`. -/
def deepPatch : Json := .array
  [.object [("op", .string "add"), ("path", .string "/0/0/-"), ("value", nested 124)]]

/-- What the bodies of the two histories say. -/
theorem bodies_histories :
    (Resource.readBody (Text.utf8 (brackets 3)) = .ok (nested 2) ∧
      Resource.readBody (Text.utf8 (addition "/0/0/-" (brackets 125))) = .ok deepPatch ∧
      Patch.patched (nested 2) deepPatch = .ok (nested 127)) ∧
    Resource.readBody (Text.utf8 (brackets 1)) = .ok (.array []) ∧
      Resource.readBody (Text.utf8 (addition "/-" ['0'])) = .ok (Patch.appending zero) := by
  decide +kernel

theorem get?_deepHistory :
    (Exchange.serveAll openGate 0 deepHistory .empty).2.get? contextKey = some (nested 127) := by
  obtain ⟨hput, hpatch, hpatched⟩ := bodies_histories.1
  rw [deepHistory, store_serveAll_cons, store_serveAll_cons, store_serveAll_nil]
  exact get?_serve_patch (plan_patch_context hpatch) (get?_serve_put (plan_put_context hput)) hpatched

theorem get?_longHistory (n : Nat) :
    (Exchange.serveAll openGate 0 (longHistory n) .empty).2.get? contextKey =
      some (.array (List.replicate n zero)) := by
  obtain ⟨hput, hpatch⟩ := bodies_histories.2
  rw [longHistory, store_serveAll_cons, ← List.nil_append (List.replicate n zero)]
  exact get?_serveAll_appending (by simp [zero]) (plan_patch_context hpatch)
    (get?_serve_put (plan_put_context hput)) n

/-! ## Stored documents -/

/-- **Every stored document was put by one request and patched by others since, and it is no deeper and
no larger than their bodies make it**, up to the printing of its floating-point numbers. -/
theorem stored_within_bodies (g : Gate) (now : UInt64) (rs : List Request) (key : String) (doc : Json)
    (h : (Exchange.serveAll g now rs .empty).2.get? key = some doc) :
    ∃ put patches, (put :: patches).Sublist rs ∧ Origin g now key put patches doc ∧
      (∀ r ∈ put :: patches, r.body.length ≤ Resource.bodyLimit) ∧
      doc.depth ≤ 127 + (patches.map deepening).sum ∧
      doc.size ≤ ((put :: patches).map (·.body.length)).sum + 24 * doc.doubles := by
  obtain ⟨put, patches, hsub, horigin⟩ := (accounted_empty g now).serveAll rs key doc h
  obtain ⟨-, hsizes, hdepth, hweight⟩ := horigin.bounds
  exact ⟨put, patches, by simpa using hsub, horigin, hsizes, hdepth,
    Nat.le_trans doc.size_le (Nat.add_le_add_right hweight _)⟩

theorem stored_within_bodies_deepHistory :
    (Exchange.serveAll openGate 0 deepHistory .empty).2.get? contextKey = some (nested 127) ∧
      ∃ put patches, (put :: patches).Sublist deepHistory ∧
        Origin openGate 0 contextKey put patches (nested 127) ∧
        (∀ r ∈ put :: patches, r.body.length ≤ Resource.bodyLimit) ∧
        (nested 127).depth ≤ 127 + (patches.map deepening).sum ∧
        (nested 127).size ≤ ((put :: patches).map (·.body.length)).sum + 24 * (nested 127).doubles :=
  ⟨get?_deepHistory, stored_within_bodies openGate 0 deepHistory contextKey (nested 127) get?_deepHistory⟩

/-- Two requests store a document that is too deep to be put, and small patches one that is too large. -/
theorem stored_beyond_limits :
    (∃ key doc, (Exchange.serveAll openGate 0 deepHistory .empty).2.get? key = some doc ∧
      127 < doc.depth ∧ Resource.readBody doc.toBytes ≠ .ok doc) ∧
    (∃ key doc, (Exchange.serveAll openGate 0 (longHistory Resource.bodyLimit) .empty).2.get? key =
        some doc ∧
      Resource.bodyLimit < doc.size ∧ Resource.readBody doc.toBytes ≠ .ok doc) := by
  refine ⟨⟨contextKey, nested 127, get?_deepHistory, by decide +kernel, by decide +kernel⟩,
    ⟨contextKey, _, get?_longHistory _, ?_⟩⟩
  have hsize := lt_size_zeros Resource.bodyLimit
  exact ⟨hsize, fun hput => absurd (fits_of_readBody hput).1 (Nat.not_le.mpr hsize)⟩

end DataRepository.Exchange
