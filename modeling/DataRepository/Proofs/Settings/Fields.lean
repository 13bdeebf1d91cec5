import DataRepository.Proofs.Settings.Layers
import DataRepository.Proofs.Steps

/-! # Settings that are texts

Settings are read field by field, each from what its names lead to. A setting that is a
text is the text of the value there, in whatever way the value was written. -/
namespace DataRepository.Settings

/-! ## Records of settings -/

theorem Fields.get_of_member {α : Type} {members : List (String × Value)} {name : String} {v : Value}
    (h : member? name members = some v) (position : Nat) (as : Value → Option α) (default : α) :
    (Fields.named members).get name position as default = as v := by
  simp only [get, value?, h]

theorem keyFiles?_eq_some {members : List (String × Value)} {k : KeyFiles}
    (h : keyFiles? (.table members) = some k) :
    let f := Fields.named members
    f.get "pem" 0 Value.asText? "" = some k.certificate ∧
      f.get "key" 1 Value.asText? "" = some k.key := by
  simp only [keyFiles?, Fields.ofValue?, Option.bind_eq_bind, Option.bind_some,
    Option.bind_eq_some_iff, Option.pure_def, Option.some.injEq] at h
  obtain ⟨_, hcertificate, _, hkey, rfl⟩ := h
  exact ⟨hcertificate, hkey⟩

theorem listener?_eq_some {members : List (String × Value)} {l : ListenerSettings}
    (h : listener? (.table members) = some l) :
    let f := Fields.named members
    let default : ListenerSettings := {}
    f.get "scheme" 0 Value.asText? default.scheme = some l.scheme ∧
      f.get "binding_ipv4" 1 Value.asText? default.address = some l.address ∧
      f.get "port" 2 asPort? default.port = some l.port ∧
      f.get "tls" 3 keyFiles? default.keyFiles = some l.keyFiles := by
  simp only [listener?, Fields.ofValue?, Option.bind_eq_bind, Option.bind_some,
    Option.bind_eq_some_iff, Option.pure_def, Option.some.injEq] at h
  obtain ⟨_, hscheme, _, haddress, _, hport, _, hkeyFiles, rfl⟩ := h
  exact ⟨hscheme, haddress, hport, hkeyFiles⟩

theorem ofMembers?_eq_some {freshId : String} {members : List (String × Value)} {s : Settings}
    (h : ofMembers? freshId members = some s) :
    let f := Fields.named members
    let default : Settings := { instanceId := freshId }
    f.get "sbi" 0 listener? default.listener = some s.listener ∧
      f.get "nf_instance_id" 1 Value.asText? default.instanceId = some s.instanceId ∧
      f.get "oauth2_required" 2 Value.asFlag? default.tokenRequired = some s.tokenRequired ∧
      f.get "nrf_token_key" 3 (Value.asOptional? Value.asText?) default.tokenKey = some s.tokenKey ∧
      f.get "tls_key_log_path" 4 (Value.asOptional? Value.asText?) default.keyLogPath =
        some s.keyLogPath ∧
      f.get "shutdown_timeout_ms" 5 (fun v => v.asWord?.map Nat.toUInt64) default.drainMilliseconds =
        some s.drainMilliseconds ∧
      f.get "log_level" 6 Value.asText? default.logLevel = some s.logLevel := by
  simp only [ofMembers?, Option.bind_eq_bind, Option.bind_eq_some_iff, Option.pure_def,
    Option.some.injEq] at h
  obtain ⟨_, hlistener, _, hid, _, hrequired, _, hkey, _, hlog, _, hdrain, _, hlevel, rfl⟩ := h
  exact ⟨hlistener, hid, hrequired, hkey, hlog, hdrain, hlevel⟩

/-- What is loaded is read from the members of the file with the variables set over them. -/
theorem exists_given_of_load {freshId : String} {file : File} {vars : List (String × String)}
    {s : Settings} (h : load freshId file vars = .ok s) :
    ∃ given, ofNamed file = .ok given ∧
      ofMembers? freshId (apply (apply [] given) (ofVariables vars)) = some s := by
  simp only [load] at h
  split at h
  · cases h
  · rename_i all hall
    obtain ⟨given, hgiven, rfl⟩ := exists_of_map_eq_ok hall
    split at h
    · cases h
    · rename_i hsettings
      split at h
      · cases h
      · cases h
        exact ⟨given, hgiven, hsettings⟩

/-! ## Texts -/

/-- A setting that is a text. -/
inductive TextSetting where
  | scheme
  | address
  | certificate
  | key
  | instanceId
  | tokenKey
  | logLevel
deriving DecidableEq

namespace TextSetting

def names : TextSetting → List String
  | scheme => ["sbi", "scheme"]
  | address => ["sbi", "binding_ipv4"]
  | certificate => ["sbi", "tls", "pem"]
  | key => ["sbi", "tls", "key"]
  | instanceId => ["nf_instance_id"]
  | tokenKey => ["nrf_token_key"]
  | logLevel => ["log_level"]

def text? (k : TextSetting) (s : Settings) : Option String :=
  match k with
  | scheme => some s.listener.scheme
  | address => some s.listener.address
  | certificate => some s.listener.keyFiles.certificate
  | key => some s.listener.keyFiles.key
  | instanceId => some s.instanceId
  | tokenKey => s.tokenKey
  | logLevel => some s.logLevel

theorem lowerName_of_mem_names (k : TextSetting) : ∀ name ∈ k.names, lowerName name = name := by
  have hall : ∀ k ∈ [scheme, address, certificate, key, instanceId, tokenKey, logLevel],
      ∀ name ∈ k.names, lowerName name = name := by decide +kernel
  exact hall k (by cases k <;> decide)

end TextSetting

theorem member?_of_follow? {name : String} {members : List (String × Value)} {v : Value}
    (h : follow? [name] (.table members) = some v) : member? name members = some v := by
  obtain ⟨u, hu, hv⟩ := Option.bind_eq_some_iff.mp h
  exact hu.trans hv

/-- Names that lead on from a member lead through a table. -/
theorem table_of_follow? {name next : String} {names : List String}
    {members : List (String × Value)} {v : Value}
    (h : follow? (name :: next :: names) (.table members) = some v) :
    ∃ below, member? name members = some (.table below) ∧
      follow? (next :: names) (.table below) = some v := by
  obtain ⟨u, hu, hv⟩ := Option.bind_eq_some_iff.mp h
  cases u with
  | table below => exact ⟨below, hu, hv⟩
  | _ => cases hv

theorem asText?_of_asOptional? {v : Value} {t : Option String}
    (h : v.asOptional? Value.asText? = some t) : t = v.asText? := by
  cases v with
  | nothing => exact (Option.some.inj h).symm
  | list items => cases h
  | table members => cases h
  | _ => exact (Option.some.inj h).symm

/-- The settings of the listener are read from the table that names lead through. -/
theorem listener?_of_follow? {freshId : String} {members : List (String × Value)} {s : Settings}
    (h : ofMembers? freshId members = some s) {next : String} {names : List String} {v : Value}
    (hv : follow? ("sbi" :: next :: names) (.table members) = some v) :
    ∃ below, listener? (.table below) = some s.listener ∧
      follow? (next :: names) (.table below) = some v := by
  obtain ⟨hlistener, -⟩ := ofMembers?_eq_some h
  obtain ⟨below, hbelow, hv⟩ := table_of_follow? hv
  rw [Fields.get_of_member hbelow] at hlistener
  exact ⟨below, hlistener, hv⟩

/-- So are the names of its files. -/
theorem keyFiles?_of_follow? {members : List (String × Value)} {l : ListenerSettings}
    (h : listener? (.table members) = some l) {next : String} {names : List String} {v : Value}
    (hv : follow? ("tls" :: next :: names) (.table members) = some v) :
    ∃ below, keyFiles? (.table below) = some l.keyFiles ∧
      follow? (next :: names) (.table below) = some v := by
  obtain ⟨-, -, -, hkeyFiles⟩ := listener?_eq_some h
  obtain ⟨below, hbelow, hv⟩ := table_of_follow? hv
  rw [Fields.get_of_member hbelow] at hkeyFiles
  exact ⟨below, hkeyFiles, hv⟩

/-- **A setting that is a text is the text of the value that its names lead to.** -/
theorem text?_of_follow? {freshId : String} {members : List (String × Value)} {s : Settings}
    (h : ofMembers? freshId members = some s) (k : TextSetting) {v : Value}
    (hv : follow? k.names (.table members) = some v) : k.text? s = v.asText? := by
  obtain ⟨-, hid, -, hkey, -, -, hlevel⟩ := ofMembers?_eq_some h
  cases k with
  | instanceId =>
    rw [Fields.get_of_member (member?_of_follow? hv)] at hid
    exact hid.symm
  | tokenKey =>
    rw [Fields.get_of_member (member?_of_follow? hv)] at hkey
    exact asText?_of_asOptional? hkey
  | logLevel =>
    rw [Fields.get_of_member (member?_of_follow? hv)] at hlevel
    exact hlevel.symm
  | scheme =>
    obtain ⟨below, hlistener, hv⟩ := listener?_of_follow? h hv
    obtain ⟨hscheme, -⟩ := listener?_eq_some hlistener
    rw [Fields.get_of_member (member?_of_follow? hv)] at hscheme
    exact hscheme.symm
  | address =>
    obtain ⟨below, hlistener, hv⟩ := listener?_of_follow? h hv
    obtain ⟨-, haddress, -⟩ := listener?_eq_some hlistener
    rw [Fields.get_of_member (member?_of_follow? hv)] at haddress
    exact haddress.symm
  | certificate =>
    obtain ⟨below, hlistener, hv⟩ := listener?_of_follow? h hv
    obtain ⟨files, hkeyFiles, hv⟩ := keyFiles?_of_follow? hlistener hv
    obtain ⟨hcertificate, -⟩ := keyFiles?_eq_some hkeyFiles
    rw [Fields.get_of_member (member?_of_follow? hv)] at hcertificate
    exact hcertificate.symm
  | key =>
    obtain ⟨below, hlistener, hv⟩ := listener?_of_follow? h hv
    obtain ⟨files, hkeyFiles, hv⟩ := keyFiles?_of_follow? hlistener hv
    obtain ⟨-, hkey⟩ := keyFiles?_eq_some hkeyFiles
    rw [Fields.get_of_member (member?_of_follow? hv)] at hkey
    exact hkey.symm

end DataRepository.Settings
