import DataRepository.Problem
import DataRepository.Proofs.Json.Records

/-! # Problems read back from their text

A problem is written with the members that have a value, so reading it fills some
members of the draft and leaves the others as they are. -/
namespace DataRepository.Problem

open Json (Member Record Reader)

/-- A member that is written if it has a value is read back if it was written; `fill` gives the draft
after either. -/
theorem fills_optionalMember {name : String} {get : Draft → Option (Option String)}
    {store : Option String → Draft → Draft} {levels : Nat} {last : Draft} {ms : Members}
    (fill : Option String → Draft) (v : Option String)
    (hknown : record.member? name = some (.of name (.optional .text) get store false))
    (hget : get (fill none) = none) (hfill : ∀ t, fill (some t) = store (some t) (fill none))
    (hmore : record.Fills levels (fill v) ms last) :
    record.Fills levels (fill none) (optionalMember name v ++ ms) last := by
  cases v with
  | none => exact hmore
  | some t =>
    rw [hfill] at hmore
    exact .cons _ hknown (congrArg Option.isSome hget)
      (Member.takes_of fun rest _ => Reader.optional_written levels t rest) hmore

/-- The draft that the members of a problem fill. -/
def draft (p : Problem) : Draft where
  kind := p.kind.map some
  title := p.title.map some
  status := some p.status
  detail := p.detail.map some
  occurrence := p.occurrence.map some
  cause := p.cause.map some

theorem finish_draft (p : Problem) : record.finish p.draft = .ok p := by
  have hjoin : ∀ v : Option String, (v.map some).join = v := by
    intro v
    cases v <;> rfl
  simp only [record, draft, Json.required, hjoin]
  rfl

theorem fills (p : Problem) (levels : Nat) : ∃ ms, p.toJson = .object ms ∧
    record.Fills levels record.empty ms p.draft := by
  refine ⟨_, rfl, ?_⟩
  simp only [List.append_assoc]
  have hcause : record.Fills levels { p.draft with cause := none } (optionalMember "cause" p.cause)
      p.draft := by
    rw [← List.append_nil (optionalMember "cause" p.cause)]
    exact fills_optionalMember (fun v => { p.draft with cause := v.map some }) p.cause rfl rfl
      (fun _ => rfl) (.nil p.draft)
  -- The members in the order in which they are written, each with the draft after it.
  refine fills_optionalMember (fun v => { kind := v.map some }) p.kind rfl rfl (fun _ => rfl) ?_
  refine fills_optionalMember (fun v => { kind := p.kind.map some, title := v.map some }) p.title
    rfl rfl (fun _ => rfl) ?_
  refine .cons _ rfl rfl
    (Member.takes_of fun rest hrest => Reader.word16_written p.status levels hrest) ?_
  refine fills_optionalMember
    (fun v => { p.draft with detail := v.map some, occurrence := none, cause := none }) p.detail
    rfl rfl (fun _ => rfl) ?_
  exact fills_optionalMember (fun v => { p.draft with occurrence := v.map some, cause := none })
    p.occurrence rfl rfl (fun _ => rfl) hcause

/-- **A problem is read back from its text.** -/
theorem parse_text (p : Problem) : parse (Text.bytes p.text) = .ok p := by
  obtain ⟨ms, hms, hfills⟩ := fills p (Json.nestingLimit - 1)
  rw [text, hms, Text.bytes, Json.text, String.toList_ofList]
  exact Record.read_written hfills (finish_draft p)

end DataRepository.Problem
