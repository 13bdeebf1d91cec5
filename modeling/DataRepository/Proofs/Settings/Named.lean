import DataRepository.Proofs.Settings.Verbatim

/-! # Settings one by one

Every setting has names that lead to it and a way in which its value is read. Tables of
settings are read exactly if every setting is read from the value that its own names lead to,
where there is one, and has its default where there is none. -/
namespace DataRepository.Settings

/-! ## The settings -/

def variableOf (names : List String) : String :=
  "UDR_" ++ String.intercalate "__" (names.map String.toUpper)

inductive Setting where
  | text (k : TextSetting)
  | port
  | tokenRequired
  | keyLogPath
  | drainTime
deriving DecidableEq

/-- What a setting holds. -/
inductive Content where
  | text (t : Option String)
  | port (p : UInt16)
  | flag (b : Bool)
  | milliseconds (n : UInt64)
deriving DecidableEq

namespace Setting

def all : List Setting :=
  [.text .scheme, .text .address, .port, .text .certificate, .text .key, .text .instanceId,
    .tokenRequired, .text .tokenKey, .keyLogPath, .drainTime, .text .logLevel]

theorem mem_all (k : Setting) : k ∈ all := by
  cases k with
  | text k => cases k <;> decide
  | _ => decide

def names : Setting → List String
  | text k => k.names
  | port => ["sbi", "port"]
  | tokenRequired => ["oauth2_required"]
  | keyLogPath => ["tls_key_log_path"]
  | drainTime => ["shutdown_timeout_ms"]

def variableName (k : Setting) : String := variableOf k.names

/-- What a setting holds among the settings of an instance. -/
def content (s : Settings) : Setting → Content
  | text k => .text (k.text? s)
  | port => .port s.listener.port
  | tokenRequired => .flag s.tokenRequired
  | keyLogPath => .text s.keyLogPath
  | drainTime => .milliseconds s.drainMilliseconds

/-- A value as what a setting holds, if it can be read so. -/
def coerce? (v : Value) : Setting → Option Content
  | text .tokenKey | keyLogPath => (v.asOptional? Value.asText?).map .text
  | text _ => v.asText?.map (.text ∘ some)
  | port => (asPort? v).map .port
  | tokenRequired => v.asFlag?.map .flag
  | drainTime => (v.asWord?.map Nat.toUInt64).map .milliseconds

/-- What a setting holds where it has this value; without a value it has its default, which for the
name of an instance is a fresh one. -/
def taken? (freshId : String) (k : Setting) : Option Value → Option Content
  | some v => k.coerce? v
  | none => some (k.content { instanceId := freshId })

/-- The variable of a port in two tables, and of a name that has underscores of its own. -/
example : port.variableName = "UDR_SBI__PORT" ∧
    (text .certificate).variableName = "UDR_SBI__TLS__PEM" ∧
    drainTime.variableName = "UDR_SHUTDOWN_TIMEOUT_MS" := by decide +kernel

end Setting

/-- The names that lead to tables of settings below the root. -/
def tableNames : List (List String) := [["sbi"], ["sbi", "tls"]]

/-- Where tables of settings are looked for, there is a table or nothing. -/
def HasTables (members : List (String × Value)) : Prop :=
  ∀ names ∈ tableNames, ∀ v, follow? names (.table members) = some v → ∃ below, v = .table below

/-! ## Tables read member by member -/

theorem follow?_append (names more : List String) (v : Value) :
    follow? (names ++ more) v = (follow? names v).bind (follow? more) := by
  induction names generalizing v with
  | nil => rfl
  | cons name names ih =>
    simp only [List.cons_append, follow?, Option.bind_eq_bind, Option.bind_assoc, funext ih]

theorem follow?_table (name : String) (members : List (String × Value)) :
    follow? [name] (.table members) = member? name members := by
  change (member? name members).bind some = member? name members
  exact Option.bind_fun_some _

theorem Fields.get_named {α : Type} (members : List (String × Value)) (name : String) (position : Nat)
    (as : Value → Option α) (default : α) :
    (Fields.named members).get name position as default =
      (follow? [name] (.table members)).elim (some default) as := by
  rw [follow?_table, get, value?]
  cases member? name members <;> rfl

/-- What is read of a value that is not given, or is a table, is read of its members. -/
theorem elim_eq_some_iff_of_table {α : Type} {given : Option Value}
    (htable : ∀ v, given = some v → ∃ below, v = .table below) {as : Value → Option α} {default x : α}
    {p : (List String → Option Value) → Prop}
    (hnone : default = x ↔ p fun _ => none)
    (hsome : ∀ below, as (.table below) = some x ↔ p fun names => follow? names (.table below)) :
    given.elim (some default) as = some x ↔ p fun names => given.bind (follow? names) := by
  cases given with
  | none => exact Option.some_inj.trans hnone
  | some v =>
    obtain ⟨below, rfl⟩ := htable v rfl
    exact hsome below

/-- Key files are read from a table, file by file. -/
theorem elim_keyFiles?_eq_some_iff {given : Option Value}
    (htable : ∀ v, given = some v → ∃ below, v = .table below) {files : KeyFiles} :
    given.elim (some {}) keyFiles? = some files ↔
      (given.bind (follow? ["pem"])).elim (some "") Value.asText? = some files.certificate ∧
        (given.bind (follow? ["key"])).elim (some "") Value.asText? = some files.key := by
  refine elim_eq_some_iff_of_table htable (p := fun at? =>
    (at? ["pem"]).elim (some "") Value.asText? = some files.certificate ∧
      (at? ["key"]).elim (some "") Value.asText? = some files.key) ?_ fun below => ?_
  · cases files
    simp only [Option.elim_none, Option.some.injEq, KeyFiles.mk.injEq]
  · constructor
    · intro h
      simpa only [Fields.get_named] using keyFiles?_eq_some h
    · intro h
      obtain ⟨hcertificate, hkey⟩ := h
      simp only [keyFiles?, Fields.ofValue?, Fields.get_named, hcertificate, hkey,
        Option.bind_eq_bind, Option.bind_some, Option.pure_def]

/-- Listener settings are read from a table, setting by setting. -/
theorem elim_listener?_eq_some_iff {given : Option Value}
    (htable : ∀ v, given = some v → ∃ below, v = .table below)
    (hfiles : ∀ v, given.bind (follow? ["tls"]) = some v → ∃ below, v = .table below)
    {l : ListenerSettings} :
    given.elim (some {}) listener? = some l ↔
      (given.bind (follow? ["scheme"])).elim (some "http") Value.asText? = some l.scheme ∧
        (given.bind (follow? ["binding_ipv4"])).elim (some "127.0.0.4") Value.asText? = some l.address ∧
        (given.bind (follow? ["port"])).elim (some 8000) asPort? = some l.port ∧
        (given.bind (follow? ["tls", "pem"])).elim (some "") Value.asText? =
          some l.keyFiles.certificate ∧
        (given.bind (follow? ["tls", "key"])).elim (some "") Value.asText? = some l.keyFiles.key := by
  have hbelow : ∀ name, given.bind (follow? ["tls", name]) =
      (given.bind (follow? ["tls"])).bind (follow? [name]) := by
    intro name
    rw [Option.bind_assoc]
    congr 1
    funext v
    exact follow?_append ["tls"] [name] v
  rw [hbelow, hbelow, ← elim_keyFiles?_eq_some_iff hfiles]
  refine elim_eq_some_iff_of_table htable (p := fun at? =>
    (at? ["scheme"]).elim (some "http") Value.asText? = some l.scheme ∧
      (at? ["binding_ipv4"]).elim (some "127.0.0.4") Value.asText? = some l.address ∧
      (at? ["port"]).elim (some 8000) asPort? = some l.port ∧
      (at? ["tls"]).elim (some {}) keyFiles? = some l.keyFiles) ?_ fun below => ?_
  · cases l
    simp only [Option.elim_none, Option.some.injEq, ListenerSettings.mk.injEq]
  · constructor
    · intro h
      simpa only [Fields.get_named] using listener?_eq_some h
    · intro h
      obtain ⟨hscheme, haddress, hport, hkeyFiles⟩ := h
      simp only [listener?, Fields.ofValue?, Fields.get_named, hscheme, haddress, hport, hkeyFiles,
        Option.bind_eq_bind, Option.bind_some, Option.pure_def]

/-! ## Settings read one by one -/

/-- Every setting is what the value under its names is read as, or is its default. -/
structure Reads (freshId : String) (at? : List String → Option Value) (s : Settings) : Prop where
  scheme : (at? ["sbi", "scheme"]).elim (some "http") Value.asText? = some s.listener.scheme
  address :
    (at? ["sbi", "binding_ipv4"]).elim (some "127.0.0.4") Value.asText? = some s.listener.address
  port : (at? ["sbi", "port"]).elim (some 8000) asPort? = some s.listener.port
  certificate :
    (at? ["sbi", "tls", "pem"]).elim (some "") Value.asText? = some s.listener.keyFiles.certificate
  key : (at? ["sbi", "tls", "key"]).elim (some "") Value.asText? = some s.listener.keyFiles.key
  instanceId : (at? ["nf_instance_id"]).elim (some freshId) Value.asText? = some s.instanceId
  tokenRequired : (at? ["oauth2_required"]).elim (some false) Value.asFlag? = some s.tokenRequired
  tokenKey :
    (at? ["nrf_token_key"]).elim (some none) (Value.asOptional? Value.asText?) = some s.tokenKey
  keyLogPath :
    (at? ["tls_key_log_path"]).elim (some none) (Value.asOptional? Value.asText?) = some s.keyLogPath
  drainTime :
    (at? ["shutdown_timeout_ms"]).elim (some 2000) (fun v => v.asWord?.map Nat.toUInt64) =
      some s.drainMilliseconds
  logLevel : (at? ["log_level"]).elim (some "info") Value.asText? = some s.logLevel

section

variable {freshId : String} {at? : List String → Option Value} {s : Settings}

/-- **Tables are read exactly if every setting is.** -/
theorem ofMembers?_eq_some_iff {members : List (String × Value)} (h : HasTables members) :
    ofMembers? freshId members = some s ↔ Reads freshId (follow? · (.table members)) s := by
  have hbelow : ∀ names, follow? ("sbi" :: names) (.table members) =
      (follow? ["sbi"] (.table members)).bind (follow? names) :=
    fun names => follow?_append ["sbi"] names (.table members)
  have hlistener := elim_listener?_eq_some_iff (l := s.listener) (h ["sbi"] (by decide))
    fun v hv => h ["sbi", "tls"] (by decide) v ((hbelow ["tls"]).trans hv)
  rw [← hbelow, ← hbelow, ← hbelow, ← hbelow, ← hbelow] at hlistener
  constructor
  · intro hs
    have hfields := ofMembers?_eq_some hs
    simp only [Fields.get_named] at hfields
    obtain ⟨hsbi, hid, hrequired, hkey, hlog, hdrain, hlevel⟩ := hfields
    obtain ⟨hscheme, haddress, hport, hpem, hprivate⟩ := hlistener.mp hsbi
    exact ⟨hscheme, haddress, hport, hpem, hprivate, hid, hrequired, hkey, hlog, hdrain, hlevel⟩
  · intro hs
    have hsbi := hlistener.mpr ⟨hs.scheme, hs.address, hs.port, hs.certificate, hs.key⟩
    simp only [ofMembers?, Fields.get_named, hsbi, hs.instanceId, hs.tokenRequired, hs.tokenKey,
      hs.keyLogPath, hs.drainTime, hs.logLevel, Option.bind_eq_bind, Option.bind_some, Option.pure_def]

/-! ## The types of settings -/

/-- The type of what a setting holds: how a value is read, and where it stands among the settings. -/
structure Typing (k : Setting) (α : Type) where
  as : Value → Option α
  field : Settings → α
  wrap : α → Content
  injective : Function.Injective wrap
  coerce?_eq : ∀ v, k.coerce? v = (as v).map wrap
  content_eq : ∀ s, k.content s = wrap (field s)

namespace Typing

section

variable {k : Setting} {α : Type} (t : Typing k α) {given : Option Value}

/-- What is read where a value is given, or the default. -/
def read (freshId : String) (given : Option Value) : Option α :=
  given.elim (some (t.field { instanceId := freshId })) t.as

theorem taken?_eq (given : Option Value) :
    k.taken? freshId given = (t.read freshId given).map t.wrap := by
  cases given with
  | none => exact congrArg some (t.content_eq _)
  | some v => exact t.coerce?_eq v

theorem taken?_eq_content_iff :
    k.taken? freshId given = some (k.content s) ↔ t.read freshId given = some (t.field s) := by
  rw [t.taken?_eq, t.content_eq, ← Option.map_some]
  exact (Option.map_injective t.injective).eq_iff

theorem exists_read (h : k.taken? freshId given ≠ none) : ∃ x, t.read freshId given = some x := by
  rw [t.taken?_eq, Ne, Option.map_eq_none_iff] at h
  exact Option.ne_none_iff_exists'.mp h

end

def ofText (k : TextSetting) (field : Settings → String)
    (hcoerce : ∀ v, (Setting.text k).coerce? v = v.asText?.map (.text ∘ some))
    (hfield : ∀ s, k.text? s = some (field s)) : Typing (.text k) String where
  as := Value.asText?
  field
  wrap := .text ∘ some
  injective := fun _ _ h => Option.some.inj (Content.text.inj h)
  coerce?_eq := hcoerce
  content_eq s := congrArg Content.text (hfield s)

def scheme : Typing (.text .scheme) String := ofText _ (·.listener.scheme) (fun _ => rfl) fun _ => rfl

def address : Typing (.text .address) String :=
  ofText _ (·.listener.address) (fun _ => rfl) fun _ => rfl

def certificate : Typing (.text .certificate) String :=
  ofText _ (·.listener.keyFiles.certificate) (fun _ => rfl) fun _ => rfl

def key : Typing (.text .key) String := ofText _ (·.listener.keyFiles.key) (fun _ => rfl) fun _ => rfl

def instanceId : Typing (.text .instanceId) String :=
  ofText _ (·.instanceId) (fun _ => rfl) fun _ => rfl

def logLevel : Typing (.text .logLevel) String := ofText _ (·.logLevel) (fun _ => rfl) fun _ => rfl

def port : Typing .port UInt16 where
  as := asPort?
  field s := s.listener.port
  wrap := .port
  injective _ _ := Content.port.inj
  coerce?_eq _ := rfl
  content_eq _ := rfl

def tokenRequired : Typing .tokenRequired Bool where
  as := Value.asFlag?
  field s := s.tokenRequired
  wrap := .flag
  injective _ _ := Content.flag.inj
  coerce?_eq _ := rfl
  content_eq _ := rfl

def tokenKey : Typing (.text .tokenKey) (Option String) where
  as := Value.asOptional? Value.asText?
  field s := s.tokenKey
  wrap := .text
  injective _ _ := Content.text.inj
  coerce?_eq _ := rfl
  content_eq _ := rfl

def keyLogPath : Typing .keyLogPath (Option String) where
  as := Value.asOptional? Value.asText?
  field s := s.keyLogPath
  wrap := .text
  injective _ _ := Content.text.inj
  coerce?_eq _ := rfl
  content_eq _ := rfl

def drainTime : Typing .drainTime UInt64 where
  as v := v.asWord?.map Nat.toUInt64
  field s := s.drainMilliseconds
  wrap := .milliseconds
  injective _ _ := Content.milliseconds.inj
  coerce?_eq _ := rfl
  content_eq _ := rfl

end Typing

/-- **Every setting is read exactly if each holds what it takes from the value under its names.** -/
theorem reads_iff : Reads freshId at? s ↔
    ∀ k : Setting, k.taken? freshId (at? k.names) = some (k.content s) := by
  constructor
  · intro h k
    cases k with
    | port => exact Typing.port.taken?_eq_content_iff.mpr h.port
    | tokenRequired => exact Typing.tokenRequired.taken?_eq_content_iff.mpr h.tokenRequired
    | keyLogPath => exact Typing.keyLogPath.taken?_eq_content_iff.mpr h.keyLogPath
    | drainTime => exact Typing.drainTime.taken?_eq_content_iff.mpr h.drainTime
    | text k =>
      cases k with
      | scheme => exact Typing.scheme.taken?_eq_content_iff.mpr h.scheme
      | address => exact Typing.address.taken?_eq_content_iff.mpr h.address
      | certificate => exact Typing.certificate.taken?_eq_content_iff.mpr h.certificate
      | key => exact Typing.key.taken?_eq_content_iff.mpr h.key
      | instanceId => exact Typing.instanceId.taken?_eq_content_iff.mpr h.instanceId
      | tokenKey => exact Typing.tokenKey.taken?_eq_content_iff.mpr h.tokenKey
      | logLevel => exact Typing.logLevel.taken?_eq_content_iff.mpr h.logLevel
  · intro h
    exact {
      scheme := Typing.scheme.taken?_eq_content_iff.mp (h _)
      address := Typing.address.taken?_eq_content_iff.mp (h _)
      port := Typing.port.taken?_eq_content_iff.mp (h _)
      certificate := Typing.certificate.taken?_eq_content_iff.mp (h _)
      key := Typing.key.taken?_eq_content_iff.mp (h _)
      instanceId := Typing.instanceId.taken?_eq_content_iff.mp (h _)
      tokenRequired := Typing.tokenRequired.taken?_eq_content_iff.mp (h _)
      tokenKey := Typing.tokenKey.taken?_eq_content_iff.mp (h _)
      keyLogPath := Typing.keyLogPath.taken?_eq_content_iff.mp (h _)
      drainTime := Typing.drainTime.taken?_eq_content_iff.mp (h _)
      logLevel := Typing.logLevel.taken?_eq_content_iff.mp (h _) }

/-- If each setting can be read by itself, all of them can be read together. -/
theorem exists_reads (h : ∀ k : Setting, k.taken? freshId (at? k.names) ≠ none) :
    ∃ s, Reads freshId at? s := by
  obtain ⟨scheme, hscheme⟩ := Typing.scheme.exists_read (h _)
  obtain ⟨address, haddress⟩ := Typing.address.exists_read (h _)
  obtain ⟨port, hport⟩ := Typing.port.exists_read (h _)
  obtain ⟨certificate, hcertificate⟩ := Typing.certificate.exists_read (h _)
  obtain ⟨key, hkey⟩ := Typing.key.exists_read (h _)
  obtain ⟨instanceId, hinstanceId⟩ := Typing.instanceId.exists_read (h _)
  obtain ⟨tokenRequired, htokenRequired⟩ := Typing.tokenRequired.exists_read (h _)
  obtain ⟨tokenKey, htokenKey⟩ := Typing.tokenKey.exists_read (h _)
  obtain ⟨keyLogPath, hkeyLogPath⟩ := Typing.keyLogPath.exists_read (h _)
  obtain ⟨drainMilliseconds, hdrain⟩ := Typing.drainTime.exists_read (h _)
  obtain ⟨logLevel, hlogLevel⟩ := Typing.logLevel.exists_read (h _)
  let keyFiles : KeyFiles := { certificate, key }
  let listener : ListenerSettings := { scheme, address, port, keyFiles }
  exact ⟨{ listener, instanceId, tokenRequired, tokenKey, keyLogPath, drainMilliseconds, logLevel },
    hscheme, haddress, hport, hcertificate, hkey, hinstanceId, htokenRequired, htokenKey, hkeyLogPath,
    hdrain, hlogLevel⟩

/-- Settings are not read exactly if one of them is not. -/
theorem ofMembers?_eq_none_iff {members : List (String × Value)} (h : HasTables members) :
    ofMembers? freshId members = none ↔
      ∃ k : Setting, k.taken? freshId (follow? k.names (.table members)) = none := by
  constructor
  · intro hnone
    by_contra hall
    obtain ⟨s, hs⟩ : ∃ s, Reads freshId (follow? · (.table members)) s :=
      exists_reads (not_exists.mp hall)
    rw [(ofMembers?_eq_some_iff h).mpr hs] at hnone
    cases hnone
  · intro hnone
    obtain ⟨k, hk⟩ := hnone
    rw [Option.eq_none_iff_forall_ne_some]
    intro s hs
    rw [reads_iff.mp ((ofMembers?_eq_some_iff h).mp hs) k] at hk
    cases hk

end

end DataRepository.Settings
