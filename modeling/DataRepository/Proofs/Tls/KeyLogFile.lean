import DataRepository.Proofs.Text.Split
import DataRepository.Proofs.Text.Utf8
import DataRepository.Tls.KeyLog

/-! # Key logs in files

The log is a file that every session opens anew. A file that has been opened is written
from its start on, unless it is opened to be added to, and what it holds can be dropped as
it is opened. A key log keeps what it holds and gets each line at its end: sessions one
after the other leave the text of all their records (`holds_of_logged`), and from this text
the records are read back (`records?_contents`), since there is no line break in a line and
no space in one of its three fields. -/
namespace DataRepository.Tls.KeyLog

/-! ## Files -/

/-- The files of a disk, by their paths. -/
abbrev Disk := String → Option Bytes

namespace Disk

/-- What a file holds: nothing, if there is no file. -/
def held (disk : Disk) (path : String) : Bytes := (disk path).getD []

def put (disk : Disk) (path : String) (bs : Bytes) : Disk :=
  fun other => if other = path then some bs else disk other

@[simp] theorem put_self (disk : Disk) (path : String) (bs : Bytes) :
    disk.put path bs path = some bs := if_pos rfl

@[simp] theorem held_put (disk : Disk) (path : String) (bs : Bytes) :
    (disk.put path bs).held path = bs := by rw [held, put_self, Option.getD_some]

theorem put_of_ne {path other : String} (h : other ≠ path) (disk : Disk) (bs : Bytes) :
    disk.put path bs other = disk other := if_neg h

end Disk

/-- How a file is opened. -/
structure Opening where
  /-- Makes a file where there is none. -/
  create : Bool
  /-- Drops what the file holds. -/
  truncate : Bool
  /-- Writes at the end of the file, wherever that has got to. -/
  append : Bool

/-- A file that has been opened, and the position that is written next if it is not the end. -/
structure Handle where
  path : String
  append : Bool
  position : Nat

/-- Opens a file, unless there is none and none is to be made. -/
def Opening.handle? (o : Opening) (path : String) (disk : Disk) : Option (Handle × Disk) :=
  match disk path with
  | none => if o.create then some (⟨path, o.append, 0⟩, disk.put path []) else none
  | some _ => some (⟨path, o.append, 0⟩, if o.truncate then disk.put path [] else disk)

/-- The bytes that are held, with others written over them from a position on. There are zeros
between the end of what is held and a position beyond it. -/
def overwritten (held : Bytes) (position : Nat) (bs : Bytes) : Bytes :=
  held.take position ++ List.replicate (position - held.length) 0 ++ bs ++
    held.drop (position + bs.length)

def Handle.write (h : Handle) (bs : Bytes) (disk : Disk) : Handle × Disk :=
  let held := disk.held h.path
  let position := if h.append then held.length else h.position
  ({ h with position := position + bs.length }, disk.put h.path (overwritten held position bs))

/-- Whatever its position, a file that is opened to be added to keeps what it holds. -/
theorem Handle.write_of_append {h : Handle} (hadd : h.append = true) (bs : Bytes) (disk : Disk) :
    (h.write bs disk).2 = disk.put h.path (disk.held h.path ++ bs) := by
  have hnone : (disk.held h.path).drop ((disk.held h.path).length + bs.length) = [] :=
    List.drop_eq_nil_of_le (Nat.le_add_right _ _)
  simp [write, hadd, overwritten, hnone]

/-! ## Logging -/

/-- A key log is made if there is none, and is added to. -/
def opening : Opening := { create := true, truncate := false, append := true }

def Handle.writeLine (h : Handle) (r : Record) (disk : Disk) : Handle × Disk :=
  h.write (Text.utf8 (r.line ++ ['\n'])) disk

def Handle.writeLines (h : Handle) : List Record → Disk → Disk
  | [], disk => disk
  | r :: rest, disk => (h.writeLine r disk).1.writeLines rest (h.writeLine r disk).2

/-- A session opens the log and writes the lines of its records. -/
def logSession? (path : String) (session : List Record) (disk : Disk) : Option Disk := do
  let (h, disk) ← opening.handle? path disk
  return h.writeLines session disk

/-- Sessions that log to one path, one after the other. -/
def logged? (path : String) (sessions : List (List Record)) (disk : Disk) : Option Disk :=
  sessions.foldlM (fun disk session => logSession? path session disk) disk

variable {path : String} {text text' : List Char} {disk disk' disk'' : Disk}

/-- The disk with this text as the log, and with all other files as they were. -/
structure Holds (path : String) (text : List Char) (disk disk' : Disk) : Prop where
  held : disk'.held path = Text.utf8 text
  others : ∀ other, other ≠ path → disk' other = disk other

theorem Holds.trans (h : Holds path text disk disk') (h' : Holds path text' disk' disk'') :
    Holds path text' disk disk'' :=
  ⟨h'.held, fun other hne => (h'.others other hne).trans (h.others other hne)⟩

/-- An opened key log holds what it held, and it is added to. -/
theorem exists_handle (hheld : disk.held path = Text.utf8 text) :
    ∃ h disk', opening.handle? path disk = some (h, disk') ∧ h.path = path ∧ h.append = true ∧
      Holds path text disk disk' := by
  cases hfile : disk path with
  | none =>
    have hopen : opening.handle? path disk = some (⟨path, true, 0⟩, disk.put path []) := by
      simp [Opening.handle?, hfile, opening]
    have hnothing : Text.utf8 text = [] := by rw [← hheld, Disk.held, hfile, Option.getD_none]
    refine ⟨_, _, hopen, rfl, rfl, ?_, fun other hne => Disk.put_of_ne hne disk []⟩
    rw [Disk.held_put, hnothing]
  | some bs =>
    have hopen : opening.handle? path disk = some (⟨path, true, 0⟩, disk) := by
      simp [Opening.handle?, hfile, opening]
    exact ⟨_, _, hopen, rfl, rfl, hheld, fun _ _ => rfl⟩

theorem holds_writeLine {h : Handle} (hadd : h.append = true)
    (hheld : disk.held h.path = Text.utf8 text) (r : Record) :
    Holds h.path (append text [r]) disk (h.writeLine r disk).2 := by
  have hwritten : (h.writeLine r disk).2 = disk.put h.path (Text.utf8 (append text [r])) := by
    rw [Handle.writeLine, Handle.write_of_append hadd, hheld, ← Text.utf8_append]
    simp [append]
  rw [hwritten]
  exact ⟨Disk.held_put .., fun other hne => Disk.put_of_ne hne disk _⟩

/-- The lines of a session come after the text that is there. -/
theorem holds_writeLines {h : Handle} (hadd : h.append = true)
    (hheld : disk.held h.path = Text.utf8 text) (session : List Record) :
    Holds h.path (append text session) disk (h.writeLines session disk) := by
  induction session generalizing h text disk with
  | nil => exact ⟨by simpa [append, Handle.writeLines] using hheld, fun _ _ => rfl⟩
  | cons r rest ih =>
    have hfirst := holds_writeLine hadd hheld r
    -- The handle has moved on, but it is still one to add to.
    have hrest := ih (h := (h.writeLine r disk).1) hadd hfirst.held
    have hboth : append (append text [r]) rest = append text (r :: rest) := by simp [append]
    rw [hboth] at hrest
    exact hfirst.trans hrest

theorem exists_logSession (hheld : disk.held path = Text.utf8 text) (session : List Record) :
    ∃ disk', logSession? path session disk = some disk' ∧
      Holds path (append text session) disk disk' := by
  obtain ⟨h, disk₁, hopen, rfl, hadd, hopened⟩ := exists_handle hheld
  exact ⟨h.writeLines session disk₁, by simp [logSession?, hopen],
    hopened.trans (holds_writeLines hadd hopened.held session)⟩

/-- **Sessions one after the other add to the log.** -/
theorem exists_logged (hheld : disk.held path = Text.utf8 text) (sessions : List (List Record)) :
    ∃ disk', logged? path sessions disk = some disk' ∧
      Holds path (sessions.foldl append text) disk disk' := by
  induction sessions generalizing disk text with
  | nil => exact ⟨disk, rfl, hheld, fun _ _ => rfl⟩
  | cons session rest ih =>
    obtain ⟨disk₁, hfirst, hholds⟩ := exists_logSession hheld session
    obtain ⟨disk', hrest, hholds'⟩ := ih hholds.held
    exact ⟨disk', by simpa [logged?, hfirst] using hrest, hholds.trans hholds'⟩

/-! ## Reading -/

/-- The records that a file holds. -/
def recordsOf? (bs : Bytes) : Option (List Record) :=
  Text.decode? bs >>= fun text => records? text.toList

/-- The lines of a log, each of which ends in a line break. -/
def lines (log : List Char) : List (List Char) := (log.splitOn '\n').dropLast

theorem newline_not_mem_line {r : Record} (h : r.hasPlainLabel) : '\n' ∉ r.line := by
  have hfields := Record.not_mem_fields h (.inr rfl)
  simp only [Record.fields, List.mem_cons, List.not_mem_nil, or_false, forall_eq_or_imp,
    forall_eq] at hfields
  simp [Record.line, Record.fields, List.intercalate, hfields]

variable {sessions : List (List Record)}

theorem splitOn_contents (hplain : ∀ r ∈ sessions.flatten, r.hasPlainLabel) :
    (contents sessions).splitOn '\n' = sessions.flatten.map Record.line ++ [[]] := by
  have hparts : ∀ part ∈ sessions.flatten.map Record.line, '\n' ∉ part := by
    simp only [List.mem_map, forall_exists_index, and_imp, forall_apply_eq_imp_iff₂]
    exact fun r hr => newline_not_mem_line (hplain r hr)
  rw [contents_eq, ← Text.splitOn_flatMap_append_singleton hparts, List.flatMap_map]

theorem mapM_ofLine? {rs : List Record} (hplain : ∀ r ∈ rs, r.hasPlainLabel) :
    (rs.map Record.line).mapM Record.ofLine? = some rs := by
  induction rs with
  | nil => rfl
  | cons r rest ih =>
    obtain ⟨hr, hrest⟩ := List.forall_mem_cons.mp hplain
    simp [Record.ofLine?_line hr, ih hrest]

theorem records?_contents (hplain : ∀ r ∈ sessions.flatten, r.hasPlainLabel) :
    records? (contents sessions) = some sessions.flatten := by
  rw [records?, splitOn_contents hplain, List.reverse_append]
  simpa using mapM_ofLine? hplain

theorem length_fields (hplain : ∀ r ∈ sessions.flatten, r.hasPlainLabel) :
    ∀ line ∈ lines (contents sessions), (line.splitOn ' ').length = 3 := by
  intro line hline
  rw [lines, splitOn_contents hplain, List.dropLast_concat] at hline
  obtain ⟨r, hr, rfl⟩ := List.mem_map.mp hline
  rw [Record.splitOn_line (hplain r hr)]
  rfl

/-! ## Files of sessions -/

/-- What sessions have left on a disk. -/
structure Lossless (path : String) (sessions : List (List Record)) (disk disk' : Disk) : Prop where
  /-- The file is the text of the sessions. -/
  text : Text.decode? (disk'.held path) = some (String.ofList (contents sessions))
  /-- Split at line breaks and spaces, with the digits read, the file is all records in order. -/
  records : recordsOf? (disk'.held path) = some sessions.flatten
  /-- There are three fields in every line. -/
  fields : ∀ line ∈ lines (contents sessions), (line.splitOn ' ').length = 3
  /-- What some of the sessions had left when the others began is still there. -/
  kept : ∀ before after, sessions = before ++ after → ∃ between,
    logged? path before disk = some between ∧ logged? path after between = some disk' ∧
      between.held path <+: disk'.held path
  /-- Other sessions leave the same file only if their records are the same. -/
  distinct : ∀ sessions' disk'', (∀ r ∈ sessions'.flatten, r.hasPlainLabel) →
    logged? path sessions' disk = some disk'' →
      (disk''.held path = disk'.held path ↔ sessions'.flatten = sessions.flatten)
  /-- No other file is touched. -/
  others : ∀ other, other ≠ path → disk' other = disk other

/-- A file that was empty or not there holds the text of its sessions. -/
theorem holds_of_logged (hnew : disk.held path = []) (h : logged? path sessions disk = some disk') :
    Holds path (contents sessions) disk disk' := by
  have hempty : disk.held path = Text.utf8 [] := hnew
  obtain ⟨disk₁, hlogged, hholds⟩ := exists_logged hempty sessions
  obtain rfl : disk₁ = disk' := Option.some.inj (hlogged.symm.trans h)
  exact hholds

theorem exists_between {before after : List (List Record)} (hnew : disk.held path = [])
    (h : logged? path (before ++ after) disk = some disk') : ∃ between,
    logged? path before disk = some between ∧ logged? path after between = some disk' ∧
      between.held path <+: disk'.held path := by
  rw [logged?, List.foldlM_append] at h
  obtain ⟨between, hbefore, hafter⟩ := Option.bind_eq_some_iff.mp h
  refine ⟨between, hbefore, hafter, ?_⟩
  have hheld := (holds_of_logged hnew hbefore).held
  obtain ⟨disk₁, hlogged, hholds⟩ := exists_logged hheld after
  obtain rfl : disk₁ = disk' := Option.some.inj (hlogged.symm.trans hafter)
  rw [hheld, hholds.held, foldl_append_eq, Text.utf8_append]
  exact List.prefix_append _ _

/-- **A key log is lossless**: whatever sessions log to a file, one after the other, it holds all their
records in order and nothing else. -/
theorem lossless (hnew : disk.held path = []) (hplain : ∀ r ∈ sessions.flatten, r.hasPlainLabel) :
    ∃ disk', logged? path sessions disk = some disk' ∧ Lossless path sessions disk disk' := by
  have hempty : disk.held path = Text.utf8 [] := hnew
  obtain ⟨disk', hlogged, -⟩ := exists_logged hempty sessions
  have hholds := holds_of_logged hnew hlogged
  have htext : Text.decode? (disk'.held path) = some (String.ofList (contents sessions)) := by
    rw [hholds.held, Text.decode?_utf8]
  refine ⟨disk', hlogged, htext, ?_, length_fields hplain, ?_, ?_, hholds.others⟩
  · rw [recordsOf?, htext, Option.bind_eq_bind, Option.bind_some, String.toList_ofList,
      records?_contents hplain]
  · rintro before after rfl
    exact exists_between hnew hlogged
  · intro sessions' disk'' hplain' hlogged'
    rw [(holds_of_logged hnew hlogged').held, hholds.held]
    constructor
    · intro hsame
      have hrecords := records?_contents hplain'
      rw [Text.utf8_injective hsame, records?_contents hplain] at hrecords
      exact (Option.some.inj hrecords).symm
    · intro hsame
      rw [contents_eq, contents_eq, hsame]

/-- Two sessions, with an empty label, an empty secret, a label beyond ASCII and bytes below sixteen. -/
theorem lossless_reopened :
    let disk : Disk := fun path => if path = "notes" then some [0x78] else none
    let sessions : List (List Record) :=
      [[⟨"CLIENT_RANDOM", [0x01, 0xab], [0x00, 0xff]⟩, ⟨"", [0x10], []⟩], [⟨"clé", [0x01], [0x0a]⟩]]
    disk.held "keys" = [] ∧ (∀ r ∈ sessions.flatten, r.hasPlainLabel) ∧
      ∃ disk', logged? "keys" sessions disk = some disk' ∧ Lossless "keys" sessions disk disk' ∧
        disk'.held "keys" = Text.bytes "CLIENT_RANDOM 01ab 00ff\n 10 \nclé 01 0a\n" ∧
        disk' "notes" = some [0x78] := by
  intro disk sessions
  have hnew : disk.held "keys" = [] := by decide
  have hplain : ∀ r ∈ sessions.flatten, r.hasPlainLabel := by decide
  obtain ⟨disk', hlogged, hlossless⟩ := lossless hnew hplain
  have hheld := (holds_of_logged hnew hlogged).held
  refine ⟨hnew, hplain, disk', hlogged, hlossless, hheld.trans ?_, ?_⟩
  · decide +kernel
  · rw [hlossless.others "notes" (by decide)]
    decide

end DataRepository.Tls.KeyLog
