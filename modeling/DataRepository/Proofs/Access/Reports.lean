import DataRepository.Access.Gate
import DataRepository.Proofs.Access.Issued
import DataRepository.Proofs.Text.Quoted
import DataRepository.Proofs.Text.Utf8
import DataRepository.Telemetry.Filter

/-! # What the log tells of a token

The gate reports a denial in the words that answer the request, and some of these words
are the token's own: what is wrong with its form, the algorithm that its header names, the
scope that it has. Whether the log tells two denials of one kind apart depends on this
detail and on nothing else of the tokens, and nothing hides the detail but a filter that
records no denial at all. -/
namespace DataRepository.Access

open Telemetry (Event Filter Span)
open Text Text.Base64Url

/-! ## Denials -/

/-- A kind of denials. -/
inductive Denial.Kind where
  | missingToken
  | notBearer
  | malformedToken
  | unsupportedAlgorithm
  | badSignature
  | invalidKey
  | expired
  | insufficientScope
deriving DecidableEq

def Denial.kind : Denial → Denial.Kind
  | .missingToken => .missingToken
  | .notBearer => .notBearer
  | .malformedToken _ => .malformedToken
  | .unsupportedAlgorithm _ => .unsupportedAlgorithm
  | .badSignature => .badSignature
  | .invalidKey => .invalidKey
  | .expired => .expired
  | .insufficientScope _ _ => .insufficientScope

/-- What a denial tells of the token besides its kind. -/
def Denial.detail : Denial → Option String
  | .malformedToken flaw => some flaw.text
  | .unsupportedAlgorithm algorithm => some algorithm
  | .insufficientScope _ granted => some granted
  | _ => none

/-- A denial for the lack of a scope is about this service. -/
def Denial.IsOf (service : Service) (why : Denial) : Prop :=
  ∀ required granted, why = .insufficientScope required granted → required = service

/-- **Of denials of one kind the words tell the detail.** -/
theorem Denial.text_eq_iff {service : Service} {why why' : Denial} (hkind : why.kind = why'.kind)
    (hwhy : why.IsOf service) (hwhy' : why'.IsOf service) :
    why.text = why'.text ↔ why.detail = why'.detail := by
  -- The words stand here by `change`, since to unfold them is to unfold the table behind `quoted`.
  cases why <;> cases why' <;> cases hkind
  case malformedToken flaw flaw' =>
    change "malformed access token: " ++ flaw.text = "malformed access token: " ++ flaw'.text ↔
      some flaw.text = some flaw'.text
    rw [String.append_right_inj, Option.some.injEq]
  case unsupportedAlgorithm a a' =>
    change "unsupported token algorithm: " ++ a = "unsupported token algorithm: " ++ a' ↔
      some a = some a'
    rw [String.append_right_inj, Option.some.injEq]
  case insufficientScope required granted required' granted' =>
    obtain rfl := hwhy _ _ rfl
    obtain rfl := hwhy' _ _ rfl
    change "scope " ++ quoted granted ++ " does not grant " ++ required'.name =
        "scope " ++ quoted granted' ++ " does not grant " ++ required'.name ↔
      some granted = some granted'
    rw [String.append_left_inj, String.append_left_inj, String.append_right_inj, quoted_inj,
      Option.some.injEq]
  all_goals exact iff_of_true rfl rfl

/-- What a denial says of a scope is about the service that was asked for. -/
theorem isOf_of_authorize_error {p : Policy} {header : String} {service : Service} {now : UInt64}
    {why : Denial} (h : p.authorize header service now = .error why) : why.IsOf service := by
  intro required granted hscope
  subst hscope
  cases (authorize_eq_error_iff.mp h).2 with
  | rejected _ _ hverify =>
    obtain hclaims | ⟨c, -, hexpired | hscope⟩ := verify_error hverify
    · obtain ⟨flaw, hwhy⟩ | ⟨a, hwhy⟩ | hwhy := signedClaims_error hclaims
      · cases hwhy
      · cases hwhy
      · cases hwhy
    · cases hexpired
    · cases hscope
      rfl

/-! ## Denials that tell of the contents of a token -/

/-- The token that names an algorithm, without claims and without a signature. -/
def naming (a : String) : String :=
  String.ofList (segment (.object [("alg", .string a)]) ++ ['.', '.'])

theorem naming_ne_empty (a : String) : naming a ≠ "" := by
  rw [naming, Ne, ← String.toList_eq_nil_iff, String.toList_ofList]
  simp

theorem isShown_of_mem_naming (a : String) : ∀ c ∈ (naming a).toList, IsShown c := by
  intro c hc
  simp only [naming, String.toList_ofList, List.mem_append, List.mem_cons, List.not_mem_nil,
    or_false, or_self] at hc
  rcases hc with hc | rfl
  · exact isShown_of_mem_encode _ c hc
  · exact isShown_dot

theorem signedClaims_naming {key : Bytes} {a : String} (ha : a ≠ algorithm) :
    signedClaims key (naming a) = .error (.unsupportedAlgorithm a) := by
  let header := segment (.object [("alg", .string a)])
  have hsplit : (naming a).toList.splitOn '.' = [header, [], []] := by
    rw [naming, String.toList_ofList]
    exact splitOn_eq_three_iff.mpr ⟨rfl, dot_not_mem_encode _, List.not_mem_nil, List.not_mem_nil⟩
  have hheader : readSegment .header algorithmRecord.reader header = .ok a :=
    readSegment_eq_ok_iff.mpr ⟨_, rfl, read_algorithm a⟩
  simp [signedClaims, hsplit, hheader, ha, bind, Except.bind, throw, throwThe, MonadExceptOf.throw]

/-- A header of shown characters and spaces is read as it was written. -/
theorem credential_of_isShown {r : Http.Request} {s : String}
    (hheader : r.header? "authorization" = some (Text.bytes s))
    (h : ∀ c ∈ s.toList, c = ' ' ∨ IsShown c) : r.credential = s := by
  have hrange : ∀ c ∈ s.toList, 32 ≤ c.toNat ∧ c.toNat < 127 := by
    intro c hc
    rcases h c hc with rfl | ⟨hmin, hmax⟩
    · decide
    · omega
  have hbyte : ∀ c ∈ s.toList, (UInt8.ofNat c.toNat).toNat = c.toNat := fun c hc =>
    toNat_byte (Nat.lt_trans (hrange c hc).2 (by decide))
  have hbytes : Text.bytes s = s.toList.map fun c => UInt8.ofNat c.toNat :=
    utf8_ascii fun c hc => Nat.lt_trans (hrange c hc).2 (by decide)
  have hvisible : (Text.bytes s).all Http.Request.isVisible = true := by
    rw [hbytes, List.all_map, List.all_eq_true]
    intro c hc
    have hmin : 32 ≤ UInt8.ofNat c.toNat := by
      rw [UInt8.le_iff_toNat_le, hbyte c hc]
      exact (hrange c hc).1
    have hmax : UInt8.ofNat c.toNat < 127 := by
      rw [UInt8.lt_iff_toNat_lt, hbyte c hc]
      exact (hrange c hc).2
    simp [Http.Request.isVisible, hmin, hmax]
  have hback : (Text.bytes s).map (fun b => Char.ofNat b.toNat) = s.toList := by
    rw [hbytes, List.map_map]
    refine (List.map_congr_left fun c hc => ?_).trans (List.map_id _)
    rw [Function.comp_apply, hbyte c hc, Char.ofNat_toNat, id]
  rw [Http.Request.credential, hheader]
  simp only [hvisible, if_true, hback, String.ofList_toList]

theorem credential_of_bearer {r : Http.Request} {token : String} (h : ∀ c ∈ token.toList, IsShown c)
    (hr : r.header? "authorization" = some (Text.bytes ("Bearer " ++ token))) :
    r.credential = "Bearer " ++ token := by
  have hscheme : "Bearer ".toList.all (fun c => c = ' ' ∨ IsShown c) = true := by decide
  refine credential_of_isShown hr fun c hc => ?_
  rw [String.toList_append, List.mem_append] at hc
  rcases hc with hc | hc
  · exact of_decide_eq_true (List.all_eq_true.mp hscheme c hc)
  · exact .inr (h c hc)

/-- A request with the token in its header. -/
def presenting (token : String) : Http.Request where
  method := .get
  target := { path := "/nudr-dr/v2/policy-data/ues/imsi-1/am-data" }
  headers := [("authorization", Text.bytes ("Bearer " ++ token))]

theorem header?_presenting (token : String) : (presenting token).header? "authorization" =
    some (Text.bytes ("Bearer " ++ token)) := by
  simp [presenting, Http.Request.header?]

theorem bearerToken?_presenting {token : String} (hne : token ≠ "")
    (h : ∀ c ∈ token.toList, IsShown c) : bearerToken? (presenting token).credential = some token := by
  rw [credential_of_bearer h (header?_presenting token), bearerToken?_of_isShown hne h]

namespace Gate

variable {g : Gate} {key : Bytes} {r : Http.Request} {now : UInt64}

theorem check_of_isShown {token : String} (hrequired : g.policy.tokenRequired = true)
    (hkey : g.policy.key = some key) (hne : token ≠ "") (h : ∀ c ∈ token.toList, IsShown c)
    (hr : r.header? "authorization" = some (Text.bytes ("Bearer " ++ token))) :
    g.check r now = discard (verify key token g.service now) := by
  rw [check, credential_of_bearer h hr, authorize_of_isShown hrequired hkey hne h]

/-- **A token whose header names another algorithm is refused with the name of it.** -/
theorem check_naming {a : String} (hrequired : g.policy.tokenRequired = true)
    (hkey : g.policy.key = some key) (ha : a ≠ algorithm)
    (hr : r.header? "authorization" = some (Text.bytes ("Bearer " ++ naming a))) :
    g.check r now = .error (.unsupportedAlgorithm a) := by
  have hverify : verify key (naming a) g.service now = .error (.unsupportedAlgorithm a) :=
    verify_of_signedClaims_error (signedClaims_naming ha) g.service now
  rw [check_of_isShown hrequired hkey (naming_ne_empty a) (isShown_of_mem_naming a) hr, hverify]
  rfl

/-- **A token that is signed, has not expired and grants other services is refused with its whole
scope.** -/
theorem check_issued {c : Claims} (hrequired : g.policy.tokenRequired = true)
    (hkey : g.policy.key = some key) (hcanonical : c.audience.Canonical)
    (hdoubles : c.audience.doubles = 0) (hdepth : c.audience.depth ≤ 126) (hexpiry : now < c.expiry)
    (hscope : ¬ IsWord g.service.name c.scope)
    (hr : r.header? "authorization" = some (Text.bytes ("Bearer " ++ issue key c))) :
    g.check r now = .error (.insufficientScope g.service c.scope) := by
  have hverify := verify_of_signedClaims (signedClaims_issue key hcanonical hdoubles hdepth)
    g.service now
  rw [if_neg (UInt64.not_le.mpr hexpiry), if_neg (mt grants_iff.mp hscope)] at hverify
  rw [check_of_isShown hrequired hkey (issue_ne_empty key c) (isShown_of_mem_issue key c) hr, hverify]
  rfl

/-! ## What is recorded -/

/-- The event of a denial. -/
def denied (g : Gate) (why : Denial) : Event where
  level := .debug
  target := "udr::sbi::auth"
  message := "authorization check failed"
  fields := [("service", .string g.service.name), ("reason", .string why.text)]

/-- What a filter leaves of the check of a request, for a gate in a component or in none. -/
def recorded (f : Filter) (span : Option Span) (g : Gate) (r : Http.Request) (now : UInt64) :
    List Event :=
  f.apply ((g.events r now).map fun e => { e with span })

variable {f : Filter} {span : Option Span} {r' : Http.Request} {now' : UInt64} {why why' : Denial}

theorem events_of_denied (h : g.check r now = .error why) : g.events r now = [g.denied why] := by
  simp only [events, h, denied]

/-- Whether the event of a denial is recorded does not depend on the denial. -/
theorem admits_denied (f : Filter) (span : Option Span) (g : Gate) (why why' : Denial) :
    f.admits { g.denied why with span } = f.admits { g.denied why' with span } := rfl

theorem recorded_of_denied (f : Filter) (span : Option Span) (h : g.check r now = .error why) :
    g.recorded f span r now =
      if f.admits { g.denied why with span } then
        [{ g.denied why with span := if f.namesSpans then span else none }]
      else [] := by
  rw [recorded, events_of_denied h, Filter.apply]
  cases hadmits : f.admits { g.denied why with span } <;> simp [hadmits]

theorem recorded_eq_nil_iff (f : Filter) (span : Option Span) (h : g.check r now = .error why) :
    g.recorded f span r now = [] ↔ f.admits { g.denied why with span } = false := by
  rw [recorded_of_denied f span h]
  cases f.admits { g.denied why with span } <;> simp

theorem recorded_eq_iff (f : Filter) (span : Option Span) (h : g.check r now = .error why)
    (h' : g.check r' now' = .error why') :
    g.recorded f span r now = g.recorded f span r' now' ↔
      g.recorded f span r now = [] ∨ why.text = why'.text := by
  rw [recorded_eq_nil_iff f span h, recorded_of_denied f span h, recorded_of_denied f span h',
    admits_denied f span g why' why]
  cases f.admits { g.denied why with span } with
  | false => exact iff_of_true rfl (.inl rfl)
  | true => simp [denied]

theorem recorded_ne (hadmits : f.admits { g.denied .expired with span } = true)
    (h : g.check r now = .error why) (h' : g.check r' now' = .error why') (hkind : why.kind = why'.kind)
    (hdetail : why.detail ≠ why'.detail) : g.recorded f span r now ≠ g.recorded f span r' now' := by
  have htext := Denial.text_eq_iff hkind (isOf_of_authorize_error h) (isOf_of_authorize_error h')
  rw [Ne, recorded_eq_iff f span h h', recorded_eq_nil_iff f span h,
    admits_denied f span g why .expired, hadmits, htext]
  simp [hdetail]

/-- **The log tells two denials of one kind apart exactly by what they tell of their tokens, and under
every filter that records denials at all.** -/
theorem recorded_alike_iff (f : Filter) (span : Option Span) (h : g.check r now = .error why)
    (h' : g.check r' now' = .error why') (hkind : why.kind = why'.kind) :
    g.recorded f span r now = g.recorded f span r' now' ↔
      g.recorded f span r now = [] ∨ why.detail = why'.detail := by
  rw [recorded_eq_iff f span h h',
    Denial.text_eq_iff hkind (isOf_of_authorize_error h) (isOf_of_authorize_error h')]

/-- Two algorithms, under a filter for one part of the program. -/
theorem recorded_alike_naming :
    let f := Filter.ofTextLossy "info,udr::sbi=debug"
    let g : Gate := ⟨.groupIdMap, ⟨"udr-1", true, some [1, 2]⟩⟩
    let r := presenting (naming "none")
    let r' := presenting (naming "RS256")
    g.check r 0 = .error (.unsupportedAlgorithm "none") ∧
      g.check r' 7 = .error (.unsupportedAlgorithm "RS256") ∧
      (g.recorded f none r 0 = g.recorded f none r' 7 ↔
        g.recorded f none r 0 = [] ∨ some "none" = some "RS256") := by
  intro f g r r'
  have h : g.check r 0 = .error (.unsupportedAlgorithm "none") :=
    check_naming rfl rfl (by decide) (header?_presenting _)
  have h' : g.check r' 7 = .error (.unsupportedAlgorithm "RS256") :=
    check_naming rfl rfl (by decide) (header?_presenting _)
  exact ⟨h, h', recorded_alike_iff f none h h' rfl⟩

/-- At the level `debug` two requests that differ in their tokens only, and that are refused for a reason
of one kind, are recorded differently: in the first pair the headers name two algorithms, in
the second the claims have two scopes. -/
theorem contents_recorded :
    let f := Filter.ofTextLossy "debug"
    let span : Span := ⟨"sbi", "udr-1"⟩
    let g : Gate := ⟨.dataRepository, ⟨"udr-1", true, some [1, 2]⟩⟩
    let granting (scope : String) : Claims := {
      issuer := "nrf", subject := "udm", audience := .string "UDR", scope, expiry := 100 }
    let unsigned := presenting (naming "none")
    let unsigned' := presenting (naming "RS256")
    let signed := presenting (issue [1, 2] (granting "nnrf-disc"))
    let signed' := presenting (issue [1, 2] (granting "nnrf-nfm"))
    (g.check unsigned 0 = .error (.unsupportedAlgorithm "none") ∧
      g.check unsigned' 0 = .error (.unsupportedAlgorithm "RS256") ∧
      g.recorded f span unsigned 0 ≠ g.recorded f span unsigned' 0) ∧
    g.check signed 0 = .error (.insufficientScope .dataRepository "nnrf-disc") ∧
      g.check signed' 0 = .error (.insufficientScope .dataRepository "nnrf-nfm") ∧
      g.recorded f span signed 0 ≠ g.recorded f span signed' 0 := by
  intro f span g granting unsigned unsigned' signed signed'
  have hadmits : f.admits { g.denied .expired with span } = true := by decide +kernel
  have hnone : g.check unsigned 0 = .error (.unsupportedAlgorithm "none") :=
    check_naming rfl rfl (by decide) (header?_presenting _)
  have hrs : g.check unsigned' 0 = .error (.unsupportedAlgorithm "RS256") :=
    check_naming rfl rfl (by decide) (header?_presenting _)
  have hscopes : ∀ scope ∈ ["nnrf-disc", "nnrf-nfm"],
      g.check (presenting (issue [1, 2] (granting scope))) 0 =
        .error (.insufficientScope .dataRepository scope) := by
    intro scope hscope
    have hother : ¬ IsWord g.service.name scope := by
      rw [← grants_iff]
      revert scope
      decide +kernel
    have hexpiry : (0 : UInt64) < 100 := by decide
    exact check_issued (c := granting scope) rfl rfl trivial rfl (Nat.zero_le 126) hexpiry hother
      (header?_presenting _)
  have hdisc := hscopes "nnrf-disc" (by decide)
  have hnfm := hscopes "nnrf-nfm" (by decide)
  exact ⟨⟨hnone, hrs, recorded_ne hadmits hnone hrs rfl (by decide)⟩,
    hdisc, hnfm, recorded_ne hadmits hdisc hnfm rfl (by decide)⟩

end Gate

end DataRepository.Access
