import DataRepository.Proofs.Settings.Named
import Mathlib.Data.List.Nodup

/-! # Files that nest settings

A file nests settings if its mappings have the names of settings, or of tables of them, as their
keys, each once, and scalars that are not null as the values. -/
namespace DataRepository.Settings

open Yaml (Node)

def keyName? (key : Node) : Option String := (Key.ofNode? key).bind Key.name?

/-- Whether a scalar stands for null. -/
def isNull (text : String) (isPlain : Bool) (tag : Option Yaml.Tag) : Bool :=
  match ofScalar? text isPlain tag with
  | some .nothing => true
  | _ => false

mutual

/-- Whether a node under these names nests settings. -/
def nests (names : List String) : Node → Bool
  | .scalar text isPlain tag => Setting.all.any (·.names == names) && ! isNull text isPlain tag
  | .sequence _ => false
  | .mapping entries =>
    ([] :: tableNames).contains names && (entries.map (keyName? ·.1)).Nodup && nestEntries names entries
termination_by structural n => n

/-- Whether the entries of a mapping under these names nest settings. -/
def nestEntries (names : List String) : List (Node × Node) → Bool
  | [] => true
  | e :: rest => nestEntry names e && nestEntries names rest
termination_by structural entries => entries

/-- Whether an entry of a mapping under these names nests settings. -/
def nestEntry (names : List String) : Node × Node → Bool
  | (key, n) =>
    match keyName? key with
    | some name => nests (names ++ [name]) n
    | none => false
termination_by structural e => e

end

/-- The entries of a mapping; of any other node none. -/
def entriesOf : Node → List (Node × Node)
  | .mapping entries => entries
  | _ => []

/-- The node that names lead to, from one mapping to the next. -/
def nodeAt? : List String → Node → Option Node
  | [], n => some n
  | name :: names, n =>
    (entriesOf n).find? (keyName? ·.1 = some name) >>= fun e => nodeAt? names e.2

def scalarValue? : Node → Option Value
  | .scalar text isPlain tag => ofScalar? text isPlain tag
  | _ => none

/-- A setting whose scalar has no value. -/
def Valueless (doc : Node) (k : Setting) : Prop :=
  ∃ text isPlain tag, nodeAt? k.names doc = some (.scalar text isPlain tag) ∧
    ofScalar? text isPlain tag = none

theorem Setting.names_not_mem (k : Setting) : k.names ∉ [] :: tableNames := by
  have hall : ∀ k ∈ all, k.names ∉ [] :: tableNames := by decide +kernel
  exact hall k k.mem_all

section

variable {names : List String} {entries : List (Node × Node)} {key n : Node}

theorem nests_scalar_iff {text : String} {isPlain : Bool} {tag : Option Yaml.Tag} :
    nests names (.scalar text isPlain tag) = true ↔
      (∃ k : Setting, k.names = names) ∧ isNull text isPlain tag = false := by
  have hall : Setting.all.any (·.names == names) = true ↔ ∃ k : Setting, k.names = names := by
    rw [List.any_eq_true]
    exact ⟨fun ⟨k, _, hk⟩ => ⟨k, beq_iff_eq.mp hk⟩, fun ⟨k, hk⟩ => ⟨k, k.mem_all, beq_iff_eq.mpr hk⟩⟩
  rw [nests, Bool.and_eq_true, Bool.not_eq_true', hall]

theorem nests_mapping_iff : nests names (.mapping entries) = true ↔
    names ∈ [] :: tableNames ∧ (entries.map (keyName? ·.1)).Nodup ∧ nestEntries names entries = true := by
  rw [nests, Bool.and_eq_true, Bool.and_eq_true, List.contains_iff_mem, decide_eq_true_iff, and_assoc]

theorem nestEntries_cons_iff : nestEntries names ((key, n) :: entries) = true ↔
    (∃ name, keyName? key = some name ∧ nests (names ++ [name]) n = true) ∧
      nestEntries names entries = true := by
  rw [nestEntries, Bool.and_eq_true, nestEntry]
  cases keyName? key with
  | none => simp
  | some name => simp

theorem nests_of_mem {e : Node × Node} (h : nestEntries names entries = true) (he : e ∈ entries) :
    ∃ name, keyName? e.1 = some name ∧ nests (names ++ [name]) e.2 = true := by
  induction entries with
  | nil => cases he
  | cons e' entries ih =>
    obtain ⟨hfirst, hmore⟩ := nestEntries_cons_iff.mp h
    obtain rfl | he := List.mem_cons.mp he
    · exact hfirst
    · exact ih hmore he

/-- Names lead from a node that nests settings to another one. -/
theorem nests_of_nodeAt? {more : List String} {m : Node} (h : nests names n = true)
    (hm : nodeAt? more n = some m) : nests (names ++ more) m = true := by
  induction more generalizing names n with
  | nil =>
    obtain rfl := Option.some.inj hm
    rwa [List.append_nil]
  | cons name more ih =>
    obtain ⟨e, he, hrest⟩ := Option.bind_eq_some_iff.mp hm
    cases n with
    | scalar text isPlain tag => cases he
    | sequence items => cases he
    | mapping entries =>
      obtain ⟨name', hkey, hn⟩ := nests_of_mem (nests_mapping_iff.mp h).2.2 (List.mem_of_find?_eq_some he)
      have hname : keyName? e.1 = some name := by simpa using List.find?_some he
      obtain rfl : name' = name := Option.some.inj (hkey.symm.trans hname)
      rw [← List.singleton_append, ← List.append_assoc]
      exact ih hn hrest

/-- The names of a node that nests settings are plain: in lower case, and each the path of itself. -/
theorem plain_of_nests (h : nests names n = true) :
    ∀ name ∈ names, lowerName name = name ∧ Path.ofName name = ⟨name, []⟩ := by
  have hall : ∀ names ∈ [] :: tableNames ++ Setting.all.map (·.names),
      ∀ name ∈ names, lowerName name = name ∧ Path.ofName name = ⟨name, []⟩ := by decide +kernel
  refine hall names ?_
  cases n with
  | scalar text isPlain tag =>
    obtain ⟨⟨k, rfl⟩, -⟩ := nests_scalar_iff.mp h
    exact List.mem_append_right _ (List.mem_map_of_mem k.mem_all)
  | sequence items => cases h
  | mapping entries => exact List.mem_append_left _ (nests_mapping_iff.mp h).1

end

/-! ## Files -/

/-- The document of a file; no file and a file without a document stand for an empty one. -/
def File.document? : File → Option Node
  | .unnamed => some (.mapping [])
  | .unreadable => none
  | .text content =>
    match Yaml.documents? content with
    | some [] => some (.mapping [])
    | some [doc] => some doc
    | _ => none

theorem File.documents?_of_document? {content : String} {doc : Node}
    (h : (File.text content).document? = some doc) :
    (Yaml.documents? content = some [] ∧ doc = .mapping []) ∨ Yaml.documents? content = some [doc] := by
  unfold document? at h
  dsimp only at h
  generalize Yaml.documents? content = docs at h ⊢
  match docs, h with
  | some [], rfl => exact .inl ⟨rfl, rfl⟩
  | some [_], rfl => exact .inr rfl

end DataRepository.Settings
