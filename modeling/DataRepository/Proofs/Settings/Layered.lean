import DataRepository.Proofs.Settings.Represented

/-! # Settings in layers

A setting comes from its variable, or else from the file, or else has its default; the tables of a
file are kept, and variables are put into them one by one. So a setting never depends on what is
said about another one, unless one of them cannot be read and nothing is loaded. -/
namespace DataRepository.Settings

open Yaml (Node)

/-! ## Environments -/

def Step.isMember : Step → Bool
  | member _ => true
  | position _ => false

/-- A variable that passes by the settings: it leads nowhere, or through tables to a place that is no
setting, nor on the way to one or below one. Positions are left out, since a list is filled up as far
as one, however much memory that takes. -/
def PassesBy (name : String) : Prop :=
  ∀ p ∈ variablePath? name,
    (∀ step ∈ p.fromRoot, step.isMember) ∧ ∀ k ∈ Setting.all, Parts p.fromRoot k.names

instance (name : String) : Decidable (PassesBy name) :=
  inferInstanceAs (Decidable (∀ p ∈ variablePath? name, _))

/-- The variable that names the file passes by, and so does one in a table of settings that names none
of them; the table itself may not be set. -/
example : PassesBy "UDR_CONFIG" ∧ PassesBy "UDR_SBI__EXTRA" ∧ PassesBy "HOME" ∧
    ¬ PassesBy "UDR_SBI" ∧ ¬ PassesBy "UDR_SBI__PORT__MORE" ∧ ¬ PassesBy "udr_sbi__port" := by
  decide +kernel

/-- Every variable is that of a setting or passes by the settings, and none is there twice. -/
structure Assigns (vars : List (String × String)) : Prop where
  distinct : (vars.map (·.1)).Nodup
  known : ∀ v ∈ vars, v.1 ∈ Setting.all.map (·.variableName) ∨ PassesBy v.1

instance (vars : List (String × String)) : Decidable (Assigns vars) :=
  decidable_of_iff ((vars.map (·.1)).Nodup ∧
    ∀ v ∈ vars, v.1 ∈ Setting.all.map (·.variableName) ∨ PassesBy v.1)
    ⟨fun h => ⟨h.1, h.2⟩, fun h => ⟨h.distinct, h.known⟩⟩

/-- The variable of a setting leads along its names. -/
theorem Setting.path_variableName (k : Setting) :
    ∃ p, variablePath? k.variableName = some p ∧ p.fromRoot = k.names.map .member := by
  have hall : ∀ k ∈ all, (variablePath? k.variableName).map Path.fromRoot =
      some (k.names.map .member) := by decide +kernel
  exact Option.map_eq_some_iff.mp (hall k k.mem_all)

theorem Setting.lowerName_names (k : Setting) : ∀ name ∈ k.names, lowerName name = name := by
  have hall : ∀ k ∈ all, ∀ name ∈ k.names, lowerName name = name := by decide +kernel
  exact hall k k.mem_all

/-- Variables of different settings part. -/
theorem Setting.parts {k k' : Setting} (hne : k'.variableName ≠ k.variableName) :
    VariableParts k'.variableName k.names := by
  have hall : ∀ k ∈ all, ∀ k' ∈ all, k'.variableName ≠ k.variableName →
      VariableParts k'.variableName k.names := by decide +kernel
  exact hall k k.mem_all k' k'.mem_all hne

section

variable {vars : List (String × String)} {k : Setting} {members : List (String × Value)}

theorem Assigns.parts (h : Assigns vars) {v : String × String} (hv : v ∈ vars)
    (hne : v.1 ≠ k.variableName) : VariableParts v.1 k.names := by
  obtain hname | hpasses := h.known v hv
  · obtain ⟨k', -, hk'⟩ := List.mem_map.mp hname
    rw [← hk'] at hne ⊢
    exact Setting.parts hne
  · exact fun p hp => (hpasses p hp).2 k k.mem_all

/-- **The value of a setting is that of its variable if this is set, and what it was otherwise.** -/
theorem Assigns.follow? (h : Assigns vars) (k : Setting) (members : List (String × Value)) :
    follow? k.names (.table (apply members (ofVariables vars))) =
      ((vars.lookup k.variableName).map Value.ofVariable).or (follow? k.names (.table members)) := by
  cases hlookup : vars.lookup k.variableName with
  | none =>
    rw [apply_ofVariables, follow?_foldl_setVariable]
    · rfl
    · intro v hv
      have hne := List.lookup_eq_none_iff.mp hlookup v hv
      exact h.parts hv fun he => by simp [he] at hne
  | some text =>
    obtain ⟨before, after, rfl, -⟩ := List.lookup_eq_some_iff.mp hlookup
    obtain ⟨p, hp, hroot⟩ := k.path_variableName
    refine follow?_apply_ofVariables hroot k.lowerName_names hp before (fun v hv => ?_) members
    refine h.parts (List.mem_append_right _ (List.mem_cons_of_mem _ hv)) fun he => ?_
    have hdistinct := h.distinct
    rw [List.map_append, List.map_cons] at hdistinct
    have hfirst := (List.nodup_cons.mp (List.nodup_append.mp hdistinct).2.1).1
    exact hfirst (List.mem_map.mpr ⟨v, hv, he⟩)

/-- Steps that part from names below a table part from the table, or else what they put is in it. -/
theorem parts_or_table {steps : List Step} {table more : List String}
    (h : Parts steps (table ++ more)) (v : Value) (current : Option Value) :
    Parts steps table ∨
      ∃ below, Settings.follow? table (setBelow v steps current) = some (.table below) := by
  induction table generalizing steps current with
  | nil =>
    obtain ⟨a, steps, first, rest, rfl, -⟩ := h.exists_member
    exact .inr ⟨_, rfl⟩
  | cons name table ih =>
    obtain ⟨a, steps, first, rest, rfl, hnames, hother⟩ := h.exists_member
    obtain ⟨rfl, rfl⟩ := List.cons.inj hnames
    by_cases ha : lowerName a = name
    · let members := membersOf (current.getD .nothing)
      obtain hparts | ⟨below, hbelow⟩ :=
        ih (hother.resolve_left (not_not_intro ha)) (member? (lowerName a) members)
      · exact .inl (.inr hparts)
      · refine .inr ⟨below, ?_⟩
        change member? name (putMember (lowerName a)
          (setBelow v steps (member? (lowerName a) members)) members) >>=
            Settings.follow? table = some (.table below)
        rw [ha, member?_putMember, Option.bind_eq_bind, Option.bind_some, ← ha, hbelow]
    · exact .inl (.inl ha)

/-- A variable that is assigned parts from a setting in each table. -/
theorem Assigns.parts_below (h : Assigns vars) {v : String × String} (hv : v ∈ vars)
    {table : List String} (htable : table ∈ tableNames) :
    ∃ more, VariableParts v.1 (table ++ more) := by
  obtain hname | hpasses := h.known v hv
  · have hall : ∀ k' ∈ Setting.all, ∀ table ∈ tableNames, ∃ k ∈ Setting.all,
        table <+: k.names ∧ k'.variableName ≠ k.variableName := by decide +kernel
    obtain ⟨k', hk', hname⟩ := List.mem_map.mp hname
    obtain ⟨k, -, ⟨more, hmore⟩, hne⟩ := hall k' hk' table htable
    exact ⟨more, hname ▸ hmore ▸ Setting.parts hne⟩
  · have hall : ∀ table ∈ tableNames, ∃ k ∈ Setting.all, table <+: k.names := by decide +kernel
    obtain ⟨k, hk, more, hmore⟩ := hall table htable
    exact ⟨more, fun p hp => hmore ▸ (hpasses p hp).2 k hk⟩

theorem HasTables.setVariable {v : String × String}
    (hv : ∀ table ∈ tableNames, ∃ more, VariableParts v.1 (table ++ more))
    (h : HasTables members) : HasTables (setVariable members v) := by
  intro table htable u hu
  obtain ⟨more, hmore⟩ := hv table htable
  cases hp : variablePath? v.1 with
  | none =>
    rw [Settings.setVariable, hp] at hu
    exact h table htable u hu
  | some p =>
    rw [Settings.setVariable, hp] at hu
    obtain hparts | ⟨below, hbelow⟩ :=
      parts_or_table (hmore p hp) (Value.ofVariable v.2) (some (.table members))
    · exact h table htable u ((follow?_setBelow_of_parts hparts _ (some (.table members))).symm.trans hu)
    · exact ⟨below, Option.some.inj (hu.symm.trans hbelow)⟩

/-- Variables that are assigned keep the tables. -/
theorem HasTables.apply (hvars : Assigns vars) (h : HasTables members) :
    HasTables (apply members (ofVariables vars)) := by
  rw [apply_ofVariables]
  have hall : ∀ v ∈ vars, ∀ table ∈ tableNames, ∃ more, VariableParts v.1 (table ++ more) :=
    fun v hv table => hvars.parts_below hv
  clear hvars
  induction vars generalizing members with
  | nil => exact h
  | cons v vars ih =>
    obtain ⟨hv, hvars⟩ := List.forall_mem_cons.mp hall
    exact ih (h.setVariable hv) hvars

end

/-! ## Layers -/

/-- A file that nests settings, and variables that are assigned to them. -/
structure Layers where
  file : File
  vars : List (String × String)
  nested : file.document?.any (nests []) = true
  assigns : Assigns vars

namespace Layers

variable (l : Layers)

def doc : Node := l.file.document?.getD (.mapping [])

theorem document?_eq : l.file.document? = some l.doc ∧ nests [] l.doc = true := by
  obtain ⟨doc, hdoc, hnests⟩ := (Option.any_eq_true _ _).mp l.nested
  rw [Layers.doc, hdoc]
  exact ⟨rfl, hnests⟩

def entry? (k : Setting) : Option Value := (nodeAt? k.names l.doc).bind scalarValue?

def assigned? (k : Setting) : Option Value := (l.vars.lookup k.variableName).map Value.ofVariable

/-- The value of a setting: that of its variable, or else that of the file. -/
def effective? (k : Setting) : Option Value := (l.assigned? k).or (l.entry? k)

/-- The settings hold what their values are read as, or their defaults. -/
def Gives (freshId : String) (s : Settings) : Prop :=
  ∀ k : Setting, k.taken? freshId (l.effective? k) = some (k.content s)

variable {l} {freshId : String} {s : Settings}

/-- What is loaded is read from tables in which the names of every setting lead to its value. -/
theorem members_cases (l : Layers) :
    (members l.file l.vars = .error .unreadable ∧ ∃ k, Valueless l.doc k) ∨
      ∃ all, members l.file l.vars = .ok all ∧ HasTables all ∧ (∀ k, ¬ Valueless l.doc k) ∧
        ∀ k : Setting, follow? k.names (.table all) = l.effective? k := by
  obtain ⟨hdoc, hnests⟩ := l.document?_eq
  obtain ⟨hread, hvalueless⟩ | ⟨given, hread, hgiven⟩ := ofNamed_of_nests hdoc hnests
  · exact .inl ⟨by rw [members, hread]; rfl, hvalueless⟩
  · refine .inr ⟨apply given (ofVariables l.vars), ?_,
      (hasTables_of_represents hnests hgiven).apply l.assigns,
      not_valueless_of_represents hnests hgiven, fun k => ?_⟩
    · rw [members, hread]
      exact congrArg (fun given => Except.ok (apply given _)) (apply_of_represents hnests hgiven)
    · rw [l.assigns.follow?, follow?_of_represents hnests hgiven]
      rfl

/-- Settings are given exactly if they are read from these tables. -/
theorem gives_iff {all : List (String × Value)} (htables : HasTables all)
    (hall : ∀ k : Setting, follow? k.names (.table all) = l.effective? k) :
    l.Gives freshId s ↔ ofMembers? freshId all = some s := by
  rw [ofMembers?_eq_some_iff htables, reads_iff]
  simp only [hall]
  rfl

/-- **Settings are loaded layer by layer.** -/
theorem load_cases (freshId : String) (l : Layers) :
    ((∃ k, Valueless l.doc k) ∧ load freshId l.file l.vars = .error .unreadable) ∨
      (∀ k, ¬ Valueless l.doc k) ∧
        ((∃ k : Setting, k.taken? freshId (l.effective? k) = none) ∧ (∀ s, ¬ l.Gives freshId s) ∧
            load freshId l.file l.vars = .error .illTyped ∨
          ∃ s, (∀ s', l.Gives freshId s' ↔ s' = s) ∧
            load freshId l.file l.vars = match s.flaw? with
              | some f => .error (.flawed f)
              | none => .ok s) := by
  obtain ⟨hread, hvalueless⟩ | ⟨all, hread, htables, hvalued, hall⟩ := l.members_cases
  · exact .inl ⟨hvalueless, by rw [load, hread]⟩
  · refine .inr ⟨hvalued, ?_⟩
    cases hs : ofMembers? freshId all with
    | none =>
      have huntaken := (ofMembers?_eq_none_iff htables).mp hs
      simp only [hall] at huntaken
      refine .inl ⟨huntaken, fun s hgives => ?_, by rw [load, hread]; simp only [hs]⟩
      rw [(gives_iff htables hall).mp hgives] at hs
      cases hs
    | some s =>
      refine .inr ⟨s, fun s' => ?_, ?_⟩
      · rw [gives_iff htables hall, hs, Option.some_inj, eq_comm]
      · cases hflaw : s.flaw? <;> simp only [load, hread, hs, hflaw]

/-- What is loaded is given by the layers. -/
theorem gives_of_load (h : load freshId l.file l.vars = .ok s) : l.Gives freshId s ∧ s.flaw? = none := by
  obtain ⟨-, hload⟩ | ⟨-, ⟨-, -, hload⟩ | ⟨s', hunique, hload⟩⟩ := load_cases freshId l
  · rw [hload] at h
    cases h
  · rw [hload] at h
    cases h
  · rw [hload] at h
    cases hflaw : s'.flaw? with
    | some f =>
      rw [hflaw] at h
      cases h
    | none =>
      rw [hflaw] at h
      cases h
      exact ⟨(hunique s).mpr rfl, hflaw⟩

theorem load_of_gives (hvalued : ∀ k, ¬ Valueless l.doc k) (h : l.Gives freshId s)
    (hflaw : s.flaw? = none) : load freshId l.file l.vars = .ok s := by
  obtain ⟨⟨k, hk⟩, -⟩ | ⟨-, ⟨-, hnone, -⟩ | ⟨s', hunique, hload⟩⟩ := load_cases freshId l
  · exact absurd hk (hvalued k)
  · exact absurd h (hnone s)
  · obtain rfl := (hunique s).mp h
    rw [hload, hflaw]

/-- If each value can be read, there are settings that they give. -/
theorem exists_gives (hvalued : ∀ k, ¬ Valueless l.doc k)
    (h : ∀ k : Setting, k.taken? freshId (l.effective? k) ≠ none) : ∃ s, l.Gives freshId s := by
  obtain ⟨⟨k, hk⟩, -⟩ | ⟨-, ⟨⟨k, hk⟩, -⟩ | ⟨s, hunique, -⟩⟩ := load_cases freshId l
  · exact absurd hk (hvalued k)
  · exact absurd hk (h k)
  · exact ⟨s, (hunique s).mpr rfl⟩

theorem eq_of_gives (hvalued : ∀ k, ¬ Valueless l.doc k) {s' : Settings} (h : l.Gives freshId s)
    (h' : l.Gives freshId s') : s = s' := by
  obtain ⟨⟨k, hk⟩, -⟩ | ⟨-, ⟨-, hnone, -⟩ | ⟨s'', hunique, -⟩⟩ := load_cases freshId l
  · exact absurd hk (hvalued k)
  · exact absurd h (hnone s)
  · exact ((hunique s).mp h).trans ((hunique s').mp h').symm

end Layers

/-- Only the name of an instance has a fresh default. -/
theorem Setting.taken?_fresh {k : Setting} {freshId freshId' : String}
    (h : k = .text .instanceId → freshId = freshId') (given : Option Value) :
    k.taken? freshId given = k.taken? freshId' given := by
  cases given with
  | some v => rfl
  | none =>
    cases k with
    | text k =>
      cases k with
      | instanceId => rw [h rfl]
      | _ => rfl
    | _ => rfl

/-- **Every setting comes from its variable, or else from the file, or else has its default.** A file
with a scalar of a setting that has no value is not read at all. Otherwise the settings are loaded
exactly if the value of each can be read and what is read has no flaw, and then each holds what its
value is read as; two loads that agree on the variable and the scalar of a setting agree on what it
holds, whatever they have for the others. -/
theorem load_layered (freshId : String) (l : Layers) :
    let loaded := load freshId l.file l.vars
    ((∃ k, Valueless l.doc k) → loaded = .error .unreadable) ∧
      ((∀ k, ¬ Valueless l.doc k) →
        ((∃ s, loaded = .ok s) ↔
          (∀ k : Setting, k.taken? freshId (l.effective? k) ≠ none) ∧
            ∀ s, l.Gives freshId s → s.flaw? = none) ∧
        ∀ s, loaded = .ok s ↔ l.Gives freshId s ∧ s.flaw? = none) ∧
      ∀ (freshId' : String) (l' : Layers) (s s' : Settings) (k : Setting),
        loaded = .ok s → load freshId' l'.file l'.vars = .ok s' →
        l.vars.lookup k.variableName = l'.vars.lookup k.variableName →
        nodeAt? k.names l.doc = nodeAt? k.names l'.doc →
        (k = .text .instanceId → freshId = freshId') → k.content s = k.content s' := by
  refine ⟨fun hvalueless => ?_, fun hvalued => ⟨⟨fun hloaded => ?_, fun hread => ?_⟩, fun s => ?_⟩, ?_⟩
  · obtain ⟨k, hk⟩ := hvalueless
    obtain ⟨-, hload⟩ | ⟨hvalued, -⟩ := Layers.load_cases freshId l
    · exact hload
    · exact absurd hk (hvalued k)
  · obtain ⟨s, hs⟩ := hloaded
    obtain ⟨hgives, hflaw⟩ := Layers.gives_of_load hs
    refine ⟨fun k hnone => ?_, fun s' hs' => Layers.eq_of_gives hvalued hgives hs' ▸ hflaw⟩
    rw [hgives k] at hnone
    cases hnone
  · obtain ⟨s, hs⟩ := Layers.exists_gives hvalued hread.1
    exact ⟨s, Layers.load_of_gives hvalued hs (hread.2 s hs)⟩
  · exact ⟨Layers.gives_of_load, fun h => Layers.load_of_gives hvalued h.1 h.2⟩
  · intro freshId' l' s s' k hs hs' hvariable hscalar hfresh
    have heffective : l.effective? k = l'.effective? k := by
      simp only [Layers.effective?, Layers.assigned?, Layers.entry?, hvariable, hscalar]
    have htaken := (Layers.gives_of_load hs).1 k
    rw [heffective, Setting.taken?_fresh hfresh, (Layers.gives_of_load hs').1 k] at htaken
    exact (Option.some.inj htaken).symm

/-- A file and variables that both have members of the listener's tables, and a drain time in the file
that nothing can read and a variable replaces; the same without the variable of the private key has
the same port. -/
theorem load_layered_replaced :
    let file : File := .text
      "sbi:\n  scheme: https\n  port: 1\n  tls: \x7bpem: a.pem\x7d\nshutdown_timeout_ms: soon\n"
    let vars := [("UDR_SBI__PORT", "9000"), ("UDR_CONFIG", "a.yaml"), ("UDR_SBI__EXTRA", "1"),
      ("UDR_SHUTDOWN_TIMEOUT_MS", "5")]
    let listener : ListenerSettings := { scheme := "https", port := 9000, keyFiles := ⟨"a.pem", ""⟩ }
    let s : Settings := { instanceId := "udr-1", listener, drainMilliseconds := 5 }
    let s' := { s with listener := { listener with keyFiles := ⟨"a.pem", "b.pem"⟩ } }
    ∃ l l' : Layers, (l.file = file ∧ l.vars = vars) ∧
      (l'.file = file ∧ l'.vars = ("UDR_SBI__TLS__KEY", "b.pem") :: vars) ∧
      (∀ k, ¬ Valueless l.doc k) ∧ l.Gives "udr-1" s ∧ load "udr-1" l'.file l'.vars = .ok s' ∧
      Setting.port.content s = Setting.port.content s' := by
  intro file vars listener s s'
  have hfile : file.document?.any (nests []) = true := by decide +kernel
  have hload : load "udr-1" file vars = .ok s := by decide +kernel
  have hload' : load "udr-1" file (("UDR_SBI__TLS__KEY", "b.pem") :: vars) = .ok s' := by decide +kernel
  have hport : vars.lookup Setting.port.variableName =
      (("UDR_SBI__TLS__KEY", "b.pem") :: vars).lookup Setting.port.variableName := by decide +kernel
  let l : Layers := ⟨file, vars, hfile, by decide +kernel⟩
  let l' : Layers := ⟨file, ("UDR_SBI__TLS__KEY", "b.pem") :: vars, hfile, by decide +kernel⟩
  obtain ⟨hvalueless, hvalued, hsame⟩ := load_layered "udr-1" l
  have hall : ∀ k, ¬ Valueless l.doc k := by
    intro k hk
    cases (hvalueless ⟨k, hk⟩).symm.trans hload
  exact ⟨l, l', ⟨rfl, rfl⟩, ⟨rfl, rfl⟩, hall, (((hvalued hall).2 s).mp hload).1, hload',
    hsame "udr-1" l' s s' .port hload hload' hport rfl nofun⟩

/-- An infinity in the file has no value, and nothing is loaded although a variable replaces it. -/
theorem load_valueless :
    let s : Settings := { instanceId := "udr-1", logLevel := "warn" }
    ∃ l : Layers, l.file = .text "log_level: .inf\n" ∧ l.vars = [("UDR_LOG_LEVEL", "warn")] ∧
      l.Gives "udr-1" s ∧ s.flaw? = none ∧ load "udr-1" l.file l.vars = .error .unreadable := by
  intro s
  let l : Layers :=
    ⟨.text "log_level: .inf\n", [("UDR_LOG_LEVEL", "warn")], by decide +kernel, by decide +kernel⟩
  have hgives : ∀ k ∈ Setting.all, k.taken? "udr-1" (l.effective? k) = some (k.content s) := by
    decide +kernel
  exact ⟨l, rfl, rfl, fun k => hgives k k.mem_all, by decide +kernel, by decide +kernel⟩

end DataRepository.Settings
