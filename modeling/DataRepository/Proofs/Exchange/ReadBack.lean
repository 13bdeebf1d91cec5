import DataRepository.Proofs.Exchange.Origin
import DataRepository.Proofs.Exchange.Independence
import DataRepository.Proofs.Json.RoundTrip

/-! # Documents read back

A document that was put is queried as its compact text, whatever the text was that it was
put with. The compact text is no longer than that one, so it can be put in turn; then it
is read as the same document, and nothing changes any more. -/
namespace DataRepository.Exchange

open Http (Request Response)
open Access (Gate)
open Resource (Command Operation keyOf)

variable {g : Gate} {now : UInt64} {path : String} {r : Request} {s : Store} {doc : Json}

/-! ## The compact text as a body -/

theorem bytes_text (j : Json) : Text.bytes j.text = j.toBytes := by
  rw [Text.bytes, Json.text, String.toList_ofList]
  rfl

theorem length_text_le (hdoc : Carries r doc) (hdoubles : doc.doubles = 0) :
    (Text.bytes doc.text).length ≤ r.body.length := by
  have hweight : doc.weight ≤ r.body.length := (Json.fits_of_parse hdoc.parse).weight
  have hsize : doc.size ≤ doc.weight + 24 * doc.doubles := doc.size_le
  rw [hdoubles, Nat.mul_zero, Nat.add_zero] at hsize
  rw [bytes_text]
  exact Nat.le_trans hsize hweight

/-- A body that is the compact text of a document that was carried carries it too. -/
theorem carries_text (hdoc : Carries r doc) (hdoubles : doc.doubles = 0) {r' : Request}
    (hbody : r'.body = Text.bytes doc.text) : Carries r' doc := by
  have hfits := Json.fits_of_parse hdoc.parse
  obtain ⟨b, bs, hbs, -⟩ := Json.exists_starts hdoubles
  refine ⟨?_, ?_, ?_⟩
  · rw [hbody, bytes_text, Json.toBytes, hbs]
    exact Nat.succ_pos _
  · rw [hbody]
    exact Nat.le_trans (length_text_le hdoc hdoubles) hdoc.size
  · rw [hbody, bytes_text]
    exact Json.parse_toBytes hfits.canonical hdoubles hfits.depth

/-! ## Putting and querying -/

theorem serve_query_of_get? (hq : Asks g now .query path r) (hget : s.get? (keyOf path) = some doc) :
    serve g now r s = (.json 200 doc.text, s) := by
  rw [serve_query hq]
  simp only [Command.run, hget]

/-- A put of the document that is there already changes nothing. -/
theorem serve_replace_of_get? (hr : Asks g now .replace path r) (hdoc : Carries r doc)
    (hget : s.get? (keyOf path) = some doc) : serve g now r s = (Resource.noContent, s) := by
  rw [serve_replace hr hdoc]
  simp only [Command.run, Store.put, hget, Option.isSome_some, if_true, Resource.putAnswer,
    Store.insert_of_get? hget]

/-- **What was put is read back**: over any store, a document without floating-point numbers is queried
after its put as a text that is read as the document and is no longer than the body was. This text can be
put again, which replaces the document by itself, and a query after that finds the same text. -/
theorem put_read_back (g : Gate) (path : String) (s : Store) {now : UInt64} {r : Request} {doc : Json}
    (hr : Asks g now .replace path r) (hdoc : Carries r doc) (hdoubles : doc.doubles = 0) :
    ∃ t : String, Json.parse (Text.bytes t) = .ok doc ∧ (Text.bytes t).length ≤ r.body.length ∧
      (∀ later q, Asks g later .query path q →
        serve g later q (serve g now r s).2 = (.json 200 t, (serve g now r s).2)) ∧
      ∀ later r', Asks g later .replace path r' → r'.body = Text.bytes t →
        serve g later r' (serve g now r s).2 = (Resource.noContent, (serve g now r s).2) ∧
          ∀ last q, Asks g last .query path q →
            (serve g last q (serve g later r' (serve g now r s).2).2).1 = .json 200 t := by
  have hget : (serve g now r s).2.get? (keyOf path) = some doc := by
    rw [serve_replace hr hdoc]
    exact s.get?_insert_self (keyOf path) doc
  have htext : Carries { r with body := Text.bytes doc.text } doc := carries_text hdoc hdoubles rfl
  refine ⟨doc.text, htext.parse, length_text_le hdoc hdoubles,
    fun later q hq => serve_query_of_get? hq hget, fun later r' hr' hbody => ?_⟩
  have hagain := serve_replace_of_get? hr' (carries_text hdoc hdoubles hbody) hget
  refine ⟨hagain, fun last q hq => ?_⟩
  rw [hagain, serve_query_of_get? hq hget]

/-- A body with white space, escapes, a member that comes twice and the greatest word. -/
theorem put_read_back_spaced :
    let body := " \x7b\"b\": -9223372036854775808,\n\"a\": \"\\u00e9\\ud83d\\ude00\\u0001\", ".toList ++
      "\"b\" :18446744073709551615\x7d\t".toList
    let r := contextRequest .put body
    let q := contextRequest .get []
    let doc : Json := .object [("a", .string "é😀\x01"),
      ("b", .number (.whole (Whole.ofWord 18446744073709551615)))]
    Asks openGate 0 .replace contextPath r ∧ Carries r doc ∧ doc.doubles = 0 ∧
      ∃ t : String, Json.parse (Text.bytes t) = .ok doc ∧ (Text.bytes t).length ≤ r.body.length ∧
        (serve openGate 1 q (serve openGate 0 r .empty).2).1 = .json 200 t ∧
        serve openGate 2 { r with body := Text.bytes t } (serve openGate 0 r .empty).2 =
          (Resource.noContent, (serve openGate 0 r .empty).2) := by
  intro body r q doc
  have hoffers : Resource.Offers .replace contextPath :=
    ⟨Resource.endpoint "CreateAmfContext3gpp" .replace Resource.accessContext, by decide, rfl,
      matches_contextPath⟩
  have hr : Asks openGate 0 .replace contextPath r := ⟨rfl, rfl, rfl, hoffers⟩
  have hq : Asks openGate 1 .query contextPath q := ⟨rfl, rfl, rfl, hoffers.query⟩
  have hdoc : Carries r doc := ⟨by decide +kernel, by decide +kernel, by decide +kernel⟩
  obtain ⟨t, hparse, hlength, hquery, hput⟩ := put_read_back openGate contextPath .empty hr hdoc rfl
  have hagain : Asks openGate 2 .replace contextPath { r with body := Text.bytes t } :=
    ⟨rfl, rfl, rfl, hoffers⟩
  exact ⟨hr, hdoc, rfl, t, hparse, hlength, congrArg Prod.fst (hquery 1 q hq), (hput 2 _ hagain rfl).1⟩

end DataRepository.Exchange
