import DataRepository.Text.Hexadecimal

/-!
# Key logs

The secrets of sessions, kept so that recorded traffic can be read: a line for each record, with its
label, the random value of the client and the secret between single spaces, the bytes in hexadecimal.
A session adds its lines after those that are there.

- `contents_eq`: the log is the lines of all records of all sessions, in order;
- `Record.ofLine?_line`: a line is read back as its record.
-/
namespace DataRepository.Tls.KeyLog

structure Record where
  label : String
  random : Bytes
  secret : Bytes
deriving DecidableEq

namespace Record

/-- The three fields of the line of a record. -/
def fields (r : Record) : List (List Char) :=
  [r.label.toList, Text.Hexadecimal.encode r.random, Text.Hexadecimal.encode r.secret]

/-- The line of a record, without its end. -/
def line (r : Record) : List Char := [' '].intercalate r.fields

def ofLine? (line : List Char) : Option Record :=
  match line.splitOn ' ' with
  | [label, random, secret] => do
    return {
      label := String.ofList label
      random := ← Text.Hexadecimal.decode? random
      secret := ← Text.Hexadecimal.decode? secret }
  | _ => none

/-- Whether the label can stand in a line: it has no space and no line break. -/
def hasPlainLabel (r : Record) : Bool := r.label.toList.all fun c => c ≠ ' ' ∧ c ≠ '\n'

end Record

/-- The log after a session has added its records to it. -/
def append (log : List Char) (session : List Record) : List Char :=
  log ++ session.flatMap fun r => r.line ++ ['\n']

/-- The log of the sessions, one after the other. -/
def contents (sessions : List (List Record)) : List Char := sessions.foldl append []

def records? (log : List Char) : Option (List Record) :=
  match (log.splitOn '\n').reverse with
  | [] :: lines => lines.reverse.mapM Record.ofLine?
  | _ => none

/-! ## Reading a log -/

theorem foldl_append_eq (sessions : List (List Record)) (log : List Char) :
    sessions.foldl append log =
      log ++ sessions.flatten.flatMap fun r => r.line ++ ['\n'] := by
  induction sessions generalizing log with
  | nil => simp
  | cons s ss ih => simp [ih, append]

/-- The log is the lines of all records in order; no session replaces what is there. -/
theorem contents_eq (sessions : List (List Record)) :
    contents sessions = sessions.flatten.flatMap fun r => r.line ++ ['\n'] := by
  simp [contents, foldl_append_eq]

/-- Neither of the characters that end a field or a line stands in a field. -/
theorem Record.not_mem_fields {r : Record} (h : r.hasPlainLabel) {c : Char}
    (hc : c = ' ' ∨ c = '\n') : ∀ field ∈ r.fields, c ∉ field := by
  have hdigits (bs : Bytes) : c ∉ Text.Hexadecimal.encode bs := fun hmem => by
    have hdigit := Text.Hexadecimal.isAlphanum_of_mem_encode hmem
    rcases hc with rfl | rfl <;> exact absurd hdigit (by decide)
  have hlabel : c ∉ r.label.toList := fun hmem => by
    simp only [hasPlainLabel, List.all_eq_true] at h
    have hplain := h c hmem
    rcases hc with rfl | rfl <;> exact absurd hplain (by decide)
  simp [fields, hlabel, hdigits]

/-- A line is split into the three fields of its record. -/
theorem Record.splitOn_line {r : Record} (h : r.hasPlainLabel) : r.line.splitOn ' ' = r.fields :=
  List.splitOn_intercalate ' ' (not_mem_fields h (.inl rfl)) (by simp [fields])

theorem Record.ofLine?_line {r : Record} (h : r.hasPlainLabel) : ofLine? r.line = some r := by
  simp [ofLine?, splitOn_line h, fields, Text.Hexadecimal.decode?_encode]

end DataRepository.Tls.KeyLog
