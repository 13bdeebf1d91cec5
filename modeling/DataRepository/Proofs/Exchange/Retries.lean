import DataRepository.Proofs.Access.Acceptance
import DataRepository.Proofs.Exchange.Coherence
import DataRepository.Proofs.Exchange.Origin
import DataRepository.Proofs.Patch.Merging

/-! # Requests that are sent again

A client that has got no response sends its request again. A put, a removal and a merge
patch find the second time what they have left themselves, and leave it as it is; a patch
by items may not. Time counts as well: a request that was refused stays refused, since a
token only ever expires, so what is carried out the second time was carried out before. -/
namespace DataRepository.Exchange

open Http (Request Response)
open Access (Gate)
open Resource (Command Operation)

variable {g : Gate} {now now' : UInt64} {r : Request} {s : Store} {c : Command}
  {past : List (Request × Response)}

/-! ## Documents in normal form -/

/-- Every document of the store is in normal form. -/
def Normal (s : Store) : Prop := ∀ key doc, s.get? key = some doc → doc.Canonical

/-- The document that a command brings is in normal form. -/
def BringsNormal : Command → Prop
  | .replace _ _ doc => doc.Canonical
  | .modify _ patch => patch.Canonical
  | .query _ | .remove _ => True

theorem bringsNormal_of_asked {op : Operation} (h : Asked g now r op c) : BringsNormal c := by
  cases c with
  | query key => trivial
  | replace key location doc => exact (fits_of_readBody (put_of_asked h).2).2.2.2.2
  | modify key patch => exact (fits_of_readBody (patch_of_asked h)).2.2.2.2
  | remove key => trivial

theorem Normal.insert (h : Normal s) {doc : Json} (hdoc : doc.Canonical) (key : String) :
    Normal (s.insert key doc) := by
  intro other found hget
  by_cases hother : other = key
  · rw [hother, s.get?_insert_self] at hget
    exact Option.some.inj hget ▸ hdoc
  · rw [s.get?_insert_of_ne doc hother] at hget
    exact h other found hget

theorem Normal.run (h : Normal s) (hc : BringsNormal c) : Normal (c.run s).2 := by
  cases c with
  | query key => exact h
  | replace key location doc => exact h.insert hc key
  | modify key patch =>
    cases hget : s.get? key with
    | none => simpa only [Command.run, Store.patch, hget] using h
    | some doc =>
      cases hnew : Patch.patched doc patch with
      | error why => simpa only [Command.run, Store.patch, hget, hnew] using h
      | ok new =>
        have hcanonical := (Patch.patched_grown (h key doc hget) hc hnew).2.2
        simpa only [Command.run, Store.patch, hget, hnew] using h.insert hcanonical key
  | remove key =>
    intro other doc hdoc
    by_cases hother : other = key
    · rw [hother] at hdoc
      cases (s.get?_erase_self key).symm.trans hdoc
    · exact h other doc ((s.get?_erase_of_ne hother).symm.trans hdoc)

theorem Normal.serve (h : Normal s) : Normal (serve g now r s).2 := by
  simp only [Exchange.serve]
  cases hplan : plan g now r with
  | answer a => exact h
  | execute c =>
    obtain ⟨op, hasked⟩ := exists_asked hplan
    exact h.run (bringsNormal_of_asked hasked)

/-- What any history leaves is in normal form. -/
theorem History.normal (h : History g past s) : Normal s := by
  induction h with
  | start => exact fun _ _ hget => by cases hget
  | next before late now r ih =>
    cases hlate : timesOut late g now r with
    | true => rwa [attend_of_timesOut hlate]
    | false =>
      rw [attend_of_not_timesOut hlate]
      exact ih.serve

/-! ## Commands that are executed again -/

theorem run_again (hs : Normal s) (hc : BringsNormal c)
    (hitems : ∀ key items, c ≠ .modify key (.array items)) : (c.run (c.run s).2).2 = (c.run s).2 := by
  cases c with
  | query key => rfl
  | replace key location doc => exact Store.insert_of_get? (s.get?_insert_self key doc)
  | modify key patch =>
    cases hget : s.get? key with
    | none => simp only [Command.run, Store.patch, hget]
    | some doc =>
      cases hnew : Patch.patched doc patch with
      | error why => simp only [Command.run, Store.patch, hget, hnew]
      | ok new =>
        have hagain := Patch.patched_again (hs key doc hget) hc
          (fun items he => hitems key items (he ▸ rfl)) hnew
        simp only [Command.run, Store.patch, hget, hnew, s.get?_insert_self, hagain]
        exact Store.insert_of_get? (s.get?_insert_self key new)
  | remove key => exact Store.erase_of_get? (s.get?_erase_self key)

/-! ## Plans at a later time -/

/-- What is refused stays refused. -/
theorem refuses_later (hnow : now ≤ now') (h : g.refuses now r = true) : g.refuses now' r = true := by
  cases hlater : g.refuses now' r with
  | true => rfl
  | false =>
    have hcheck : g.check r now = .ok () := by
      unfold Gate.refuses at hlater
      split at hlater
      · rename_i hpassed
        refine Access.authorize_eq_ok.mpr ((Access.authorize_eq_ok.mp hpassed).imp_right ?_)
        rintro ⟨token, key, htoken, hkey, c, hverified⟩
        obtain ⟨hsigned, hexpiry, hscope⟩ := Access.verify_eq_ok.mp hverified
        have hnot := UInt64.lt_of_le_of_lt hnow hexpiry
        exact ⟨token, key, htoken, hkey, c, Access.verify_eq_ok.mpr ⟨hsigned, hnot, hscope⟩⟩
      · cases hlater
    simp only [Gate.refuses, hcheck] at h
    cases h

theorem passage_of_passed (h : g.refuses now r = false) (h' : g.refuses now' r = false) :
    passage g now' r = passage g now r := by
  unfold passage Routing.Table.pass
  cases Resource.table.row? r.target.path with
  | none => rfl
  | some row => simp only [judgement_of_passed h, judgement_of_passed h']

/-- What is carried out later was to be carried out before. -/
theorem plan_later (hnow : now ≤ now') (h : plan g now' r = .execute c) :
    plan g now r = .execute c := by
  obtain ⟨op, hasked⟩ := exists_asked h
  have hpassed : g.refuses now r = false := by
    cases hrefused : g.refuses now r with
    | false => rfl
    | true =>
      have hlater := refuses_later hnow hrefused
      rw [hasked.passed] at hlater
      cases hlater
  rw [← h, plan, plan, passage_of_passed hpassed hasked.passed]

/-! ## Requests that are sent again -/

/-- The request is a patch by items. -/
def PatchesItems (r : Request) : Prop :=
  r.method = .patch ∧ ∃ items, Json.parse r.body = .ok (.array items)

theorem patchesItems_of_asked {op : Operation} {key : String} {items : List Json}
    (h : Asked g now r op (.modify key (.array items))) : PatchesItems r := by
  obtain rfl : Operation.modify = op := h.operation_eq
  have hmethod : r.method = .patch := (h.asks (by decide)).method
  exact ⟨hmethod, items, (readBody_eq_ok_iff.mp (patch_of_asked h)).parse⟩

/-- **A request may be sent again**: after every history, a request that is no patch by items leaves
the store the second time as it was after the first, whatever it is and however late it comes again;
and a merge patch may be applied again to every stored document. -/
theorem sent_again (h : History g past s) :
    (∀ now now' r, now ≤ now' → ¬ PatchesItems r →
      (serve g now' r (serve g now r s).2).2 = (serve g now r s).2) ∧
    ∀ key doc, s.get? key = some doc → ∀ members, (Json.object members).Canonical →
      Patch.merge (Patch.merge doc (.object members)) (.object members) =
        Patch.merge doc (.object members) := by
  constructor
  · intro now now' r hnow hitems
    cases hplan' : plan g now' r with
    | answer a => simp only [serve, hplan', Plan.run]
    | execute c =>
      obtain ⟨op, hasked⟩ := exists_asked hplan'
      have hplan := plan_later hnow hplan'
      simp only [serve, hplan, hplan', Plan.run]
      refine run_again h.normal (bringsNormal_of_asked hasked) fun key items hc => hitems ?_
      subst hc
      exact patchesItems_of_asked hasked
  · intro key doc hget members hmembers
    exact Patch.repeatable (.object members) hmembers doc (h.normal key doc hget)

/-- A merge patch that makes an object of a number and removes a member, sent again later. -/
theorem sent_again_merge :
    let whole (n : UInt64) : Json := .number (.whole (Whole.ofWord n))
    let put := contextRequest .put "\x7b\"a\":1,\"b\":2\x7d".toList
    let r := contextRequest .patch "\x7b\"a\":\x7b\"c\":null,\"d\":3\x7d,\"b\":null\x7d".toList
    let s := (serve openGate 0 put .empty).2
    let doc : Json := .object [("a", whole 1), ("b", whole 2)]
    let members : Members := [("a", .object [("c", .null), ("d", whole 3)]), ("b", .null)]
    History openGate [(put, (serve openGate 0 put .empty).1)] s ∧ s.get? contextKey = some doc ∧
      (Json.object members).Canonical ∧ ¬ PatchesItems r ∧
      Patch.merge doc (.object members) = .object [("a", .object [("d", whole 3)])] ∧
      (serve openGate 9 r (serve openGate 0 r s).2).2 = (serve openGate 0 r s).2 ∧
      Patch.merge (Patch.merge doc (.object members)) (.object members) =
        Patch.merge doc (.object members) := by
  intro whole put r s doc members
  have hput : Resource.readBody put.body = .ok doc := by decide +kernel
  have hbody : Json.parse r.body = .ok (.object members) := by decide +kernel
  have hpast : History openGate [(put, (serve openGate 0 put .empty).1)] s := History.start.serve 0 put
  have hget : s.get? contextKey = some doc := get?_serve_put (plan_put_context hput)
  have hmembers : (Json.object members).Canonical := (Json.fits_of_parse hbody).canonical
  have hitems : ¬ PatchesItems r := by
    rintro ⟨-, items, hparse⟩
    rw [hbody] at hparse
    cases hparse
  obtain ⟨hstore, hmerge⟩ := sent_again hpast
  exact ⟨hpast, hget, hmembers, hitems, by decide +kernel, hstore 0 9 r (by decide) hitems,
    hmerge contextKey doc hget members hmembers⟩

end DataRepository.Exchange
